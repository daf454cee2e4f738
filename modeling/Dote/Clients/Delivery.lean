import Dote.Clients.ClientForwarders
import Dote.Dns.Message

/-! What the removal of the padding leaves as it was, and what is sent on to the
client after it. -/
namespace Dote
namespace DnsPacket

def paddingSize (options : List EdnsOption) : Nat :=
  ((options.filter EdnsOption.isPadding).map fun option => option.encode.length).sum

theorem paddingSize_eq (options : List EdnsOption) :
    paddingSize options = (leftover options).length := by
  induction options with
  | nil => rfl
  | cons option options ih =>
    unfold paddingSize at ih
    cases h : option.isPadding with
    | true =>
      rw [leftover_padding options h, paddingSize, List.filter_cons_of_pos h, List.map_cons,
        List.sum_cons, ih, List.length_append, List.length_drop, List.length_append]
      omega
    | false =>
      rw [leftover_other options h, paddingSize, List.filter_cons_of_neg (by simp [h]), ih]

/-- A packet without `less` bytes of the data behind `dataLength`, where the length
`length` of the data was. -/
structure Shortened (packet packet' : Bytes) (dataLength length less : Nat) : Prop where
  less_le : less ≤ length
  size : packet'.length = packet.length - less
  prefixed : shortAt packet' 0 = shortAt packet 0 - less
  length_at : shortAt packet dataLength = length
  length_at' : shortAt packet' dataLength = length - less
  before : (packet'.take dataLength).drop 2 = (packet.take dataLength).drop 2
  after : packet'.drop (dataLength + 2 + (length - less)) = packet.drop (dataLength + 2 + length)

/-- The packet around the data of a record: its size, what is in front of the
length of the data, and what is behind the data. -/
def around (size : Nat) (front data rest : Bytes) : Bytes :=
  short size ++ (front ++ (short data.length ++ (data ++ rest)))

section Around

variable (front data rest : Bytes) {size : Nat}

theorem length_around :
    (around size front data rest).length = 4 + front.length + data.length + rest.length := by
  simp [around]
  omega

theorem shortAt_around (hsize : size < 2 ^ 16) : shortAt (around size front data rest) 0 = size :=
  shortAt_of_drop hsize rfl

theorem drop_around : (around size front data rest).drop (2 + front.length) =
    short data.length ++ (data ++ rest) := by
  rw [around, ← List.append_assoc]
  exact List.drop_left' (by simp)

theorem shortAt_data (hdata : data.length < 2 ^ 16) :
    shortAt (around size front data rest) (2 + front.length) = data.length :=
  shortAt_of_drop hdata (drop_around front data rest)

theorem front_around :
    ((around size front data rest).take (2 + front.length)).drop 2 = front := by
  rw [around, ← List.append_assoc, List.take_left' (by simp)]
  exact List.drop_left' (length_short size)

theorem rest_around :
    (around size front data rest).drop (2 + front.length + 2 + data.length) = rest := by
  rw [← List.drop_drop, ← List.drop_drop, drop_around, List.drop_left' (length_short _),
    List.drop_left]

theorem valid_around (hfront : 12 ≤ front.length)
    (hsize : 2 + front.length + data.length + rest.length < 2 ^ 16) :
    valid (around (2 + front.length + data.length + rest.length) front data rest) = true := by
  rw [valid_iff, shortAt_around front data rest hsize, length_around]
  unfold headerSize
  omega

variable {data data' : Bytes}

theorem shortened_around {less : Nat} (hsize : size < 2 ^ 16) (hdata : data.length < 2 ^ 16)
    (hless : data'.length + less = data.length) :
    Shortened (around size front data rest) (around (size - less) front data' rest)
      (2 + front.length) data.length less where
  less_le := by omega
  size := by
    rw [length_around, length_around]
    omega
  prefixed := by
    rw [shortAt_around _ _ _ hsize, shortAt_around _ _ _ (by omega)]
  length_at := shortAt_data _ _ _ hdata
  length_at' := by
    rw [shortAt_data _ _ _ (by omega)]
    omega
  before := by rw [front_around, front_around]
  after := by
    rw [rest_around, show data.length - less = data'.length by omega, rest_around]

end Around

theorem length_of_valid {packet : Bytes} (h : valid packet = true) :
    length packet = packet.length - 2 := by
  obtain ⟨hsize, hlength⟩ := (valid_iff packet).mp h
  unfold length getHeader
  rw [if_neg (by omega), if_neg (not_not.mpr hlength)]
  exact hlength

theorem Record.exists_opt {record : Record} {options : List EdnsOption} (hopt : record.IsOpt)
    (hdata : record.data = encodeOptions options) :
    ∃ opt : OptRecord, opt.options = options ∧ opt.record = record := by
  obtain ⟨name, fixed, data, hfixed, hlt⟩ := record
  obtain ⟨rfl, rest, rfl⟩ := hopt
  cases hdata
  have hrest : rest.length = 6 := by
    rw [List.length_append, length_short] at hfixed
    omega
  exact ⟨⟨rest, options, hrest, hlt⟩, rfl, rfl⟩

section Remove

variable (message : Message) {before after : List Record} {opt : OptRecord}

def Message.frontOpt (before : List Record) (opt : OptRecord) : Bytes :=
  message.front ++ (encodeRecords before ++ (0 :: (short OPT ++ opt.fixed)))

theorem Message.encode_around (h : message.additional = before ++ opt.record :: after) :
    message.encode = around message.toSections.encode.length (message.frontOpt before opt)
      (encodeOptions opt.options) (encodeRecords after) := message.encode_opt h

theorem Message.le_frontOpt : 12 ≤ (message.frontOpt before opt).length := by
  simp [frontOpt, Sections.front, message.idFlags_length]
  omega

theorem Message.removeEdnsPadding_around (h : message.additional = before ++ opt.record :: after)
    (hbefore : ∀ r ∈ before, ¬ r.IsOpt) :
    ∃ moved : Bytes, moved.length + paddingSize opt.options = (encodeOptions opt.options).length ∧
      removeEdnsPadding message.encode = some (true,
        around (message.toSections.encode.length - paddingSize opt.options)
          (message.frontOpt before opt) moved (encodeRecords after)) := by
  have hless := leftover_length opt.options
  have hsize := congrArg List.length (message.encode_around h)
  rw [length_around, Message.encode, List.length_append, length_short] at hsize
  have hlt := message.encode_lt
  refine ⟨(encodeOptions (withoutPadding opt.options) ++ leftover opt.options).drop
    (leftover opt.options).length, ?_, ?_⟩
  · rw [paddingSize_eq, List.length_drop, List.length_append]
    omega
  · have hlength : ((encodeOptions (withoutPadding opt.options) ++ leftover opt.options).drop
        (leftover opt.options).length).length =
          (encodeOptions (withoutPadding opt.options)).length := by simp
    rw [message.removeEdnsPadding_encode h hbefore, ← List.append_assoc (encodeOptions _),
      List.drop_append_of_le_length (by simp), around, hlength, paddingSize_eq,
      show (message.toSections.encode.length + 2 ^ 16 - (leftover opt.options).length) % 2 ^ 16 =
        message.toSections.encode.length - (leftover opt.options).length by omega]
    rfl

theorem Message.removeEdnsPadding_shortened
    (h : message.additional = before ++ opt.record :: after) (hbefore : ∀ r ∈ before, ¬ r.IsOpt) :
    ∃ packet, removeEdnsPadding message.encode = some (true, packet) ∧ valid packet = true ∧
      Shortened message.encode packet (message.recordAt before + 9)
        (encodeOptions opt.options).length (paddingSize opt.options) := by
  obtain ⟨moved, hmoved, hremove⟩ := message.removeEdnsPadding_around h hbefore
  have hencode := message.encode_around h
  have hsize := congrArg List.length hencode
  rw [length_around, Message.encode, List.length_append, length_short] at hsize
  have hlt := message.encode_lt
  have hfront : 12 ≤ (message.frontOpt before opt).length := message.le_frontOpt
  refine ⟨_, hremove, ?_, ?_⟩
  · rw [show message.toSections.encode.length - paddingSize opt.options =
      2 + (message.frontOpt before opt).length + moved.length + (encodeRecords after).length by
        omega]
    exact valid_around _ _ _ hfront (by omega)
  · rw [hencode, show message.recordAt before + 9 = 2 + (message.frontOpt before opt).length from
      message.recordAt_opt]
    exact shortened_around _ _ hlt opt.options_lt hmoved

end Remove

end DnsPacket
open DnsPacket

theorem response_whole {requester : Requester} {buffer packet : Bytes} {success : Bool}
    (hbuffer : valid buffer = true) (h : removeEdnsPadding buffer = some (success, packet))
    (hpacket : valid packet = true) :
    response requester buffer = some ⟨requester, clientLength requester.client.family,
      sourceAddress requester, packet.drop 2⟩ := by
  rw [response, if_pos hbuffer, h]
  have hwhole : (DnsPacket.data packet).take (DnsPacket.length packet) = packet.drop 2 := by
    rw [length_of_valid hpacket, DnsPacket.data]
    exact List.take_of_length_le (by simp)
  simp [hwhole]

/-- A message is left as it is, or shortened by the padding of its first OPT record
from the root; in both cases it is valid and sent on whole. -/
theorem removeEdnsPadding_frame (message : DnsPacket.Message) (requester : Requester)
    (h : ∀ r ∈ message.additional, r.IsOpt → ∃ options, r.data = encodeOptions options) :
    ∃ success packet, removeEdnsPadding message.encode = some (success, packet) ∧
      (success = false → packet = message.encode) ∧
      (success = true → ∃ (before : List Record) (opt : OptRecord) (after : List Record),
        message.additional = before ++ opt.record :: after ∧ (∀ r ∈ before, ¬ r.IsOpt) ∧
        Shortened message.encode packet (message.recordAt before + 9)
          (encodeOptions opt.options).length (paddingSize opt.options)) ∧
      valid packet = true ∧ DnsPacket.length packet = packet.length - 2 ∧
      response requester message.encode = some ⟨requester,
        clientLength requester.client.family, sourceAddress requester, packet.drop 2⟩ := by
  have hvalid := message.encode_in.valid
  by_cases hnone : ∀ r ∈ message.additional, ¬ r.IsOpt
  · have hremove : removeEdnsPadding message.encode = some (false, message.encode) := by
      rw [removeEdnsPadding_eq, message.encode_in.walk_none hnone]
      rfl
    exact ⟨false, _, hremove, fun _ => rfl, by simp, hvalid, length_of_valid hvalid,
      response_whole hvalid hremove hvalid⟩
  · obtain ⟨before, record, after, hadditional, hopt, hbefore⟩ := exists_first hnone
    obtain ⟨options, hoptions⟩ := h record (by simp [hadditional]) hopt
    obtain ⟨opt, -, rfl⟩ := Record.exists_opt hopt hoptions
    obtain ⟨packet, hremove, hpacket, hshortened⟩ :=
      message.removeEdnsPadding_shortened hadditional hbefore
    exact ⟨true, packet, hremove, by simp, fun _ => ⟨_, _, _, hadditional, hbefore, hshortened⟩,
      hpacket, length_of_valid hpacket, response_whole hvalid hremove hpacket⟩

theorem removeEdnsPadding_frame_addressResponse :
    let requester : Requester := ⟨3, ⟨.inet, 53, [127, 0, 0, 1]⟩, .unspec, -1, 0⟩
    ∃ success packet, removeEdnsPadding addressResponse.encode = some (success, packet) ∧
      valid packet = true ∧ DnsPacket.length packet = packet.length - 2 ∧
      response requester addressResponse.encode = some ⟨requester,
        clientLength requester.client.family, sourceAddress requester, packet.drop 2⟩ := by
  intro requester
  have hopt : ∀ r ∈ addressResponse.additional, r.IsOpt →
      ∃ options, r.data = encodeOptions options := by
    intro r hmem hopt
    simp only [addressResponse, List.mem_cons, List.not_mem_nil, or_false] at hmem
    rcases hmem with rfl | rfl | rfl
    · exact absurd hopt not_isOpt_addressRecord
    · exact ⟨beforeOption.options, rfl⟩
    · exact absurd hopt not_isOpt_addressRecord
  obtain ⟨success, packet, hremove, -, -, hvalid, hlength, hresponse⟩ :=
    removeEdnsPadding_frame addressResponse requester hopt
  exact ⟨success, packet, hremove, hvalid, hlength, hresponse⟩

end Dote
