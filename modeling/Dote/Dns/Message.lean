import Dote.Dns.Options

/-! Well-formed messages, and the removal of the padding from them. -/
namespace Dote.DnsPacket

structure Label where
  text : Bytes
  text_pos : 0 < text.length
  text_le : text.length ≤ 63

def Label.encode (label : Label) : Bytes := UInt8.ofNat label.text.length :: label.text

inductive Ending
  | root
  | pointer (high low : UInt8) (bits : high &&& 0xc0 = 0xc0)

def Ending.encode : Ending → Bytes
  | root => [0]
  | pointer high low _ => [high, low]

structure Name where
  labels : List Label
  ending : Ending

def Name.encode (name : Name) : Bytes := name.labels.flatMap Label.encode ++ name.ending.encode

def Name.root : Name := ⟨[], .root⟩

/-- A name, and its type and class. -/
structure Question where
  name : Name
  fixed : Bytes
  fixed_length : fixed.length = 4

def Question.encode (question : Question) : Bytes := question.name.encode ++ question.fixed

/-- A name, its type, class and time to live, and its data. -/
structure Record where
  name : Name
  fixed : Bytes
  data : Bytes
  fixed_length : fixed.length = 8
  data_lt : data.length < 2 ^ 16

def Record.encode (record : Record) : Bytes :=
  record.name.encode ++ (record.fixed ++ (short record.data.length ++ record.data))

def Record.IsOpt (record : Record) : Prop :=
  record.name = .root ∧ ∃ rest, record.fixed = short OPT ++ rest

/-- The options, and the payload size and the flags in the places of the class and
the time to live. -/
structure OptRecord where
  fixed : Bytes
  options : List EdnsOption
  fixed_length : fixed.length = 6
  options_lt : (encodeOptions options).length < 2 ^ 16

def OptRecord.record (opt : OptRecord) : Record where
  name := .root
  fixed := short OPT ++ opt.fixed
  data := encodeOptions opt.options
  fixed_length := by rw [List.length_append, opt.fixed_length, length_short]
  data_lt := opt.options_lt

structure Sections where
  idFlags : Bytes
  questions : List Question
  answers : List Record
  authorities : List Record
  additional : List Record
  idFlags_length : idFlags.length = 4
  questions_lt : questions.length < 2 ^ 16
  answers_lt : answers.length < 2 ^ 16
  authorities_lt : authorities.length < 2 ^ 16
  additional_lt : additional.length < 2 ^ 16

def encodeRecords (records : List Record) : Bytes := records.flatMap Record.encode

/-- What is in front of the additional records, behind the length. -/
def Sections.front (sections : Sections) : Bytes :=
  sections.idFlags ++ (short sections.questions.length ++ (short sections.answers.length ++
    (short sections.authorities.length ++ (short sections.additional.length ++
      (sections.questions.flatMap Question.encode ++ (encodeRecords sections.answers ++
        encodeRecords sections.authorities))))))

def Sections.encode (sections : Sections) : Bytes :=
  sections.front ++ encodeRecords sections.additional

structure Message extends Sections where
  encode_lt : toSections.encode.length < 2 ^ 16

def Message.encode (message : Message) : Bytes :=
  short message.toSections.encode.length ++ message.toSections.encode

theorem Label.encode_append_isName (label : Label) {name : Bytes} (h : IsName name) :
    IsName (label.encode ++ name) := by
  have hpos := label.text_pos
  have hle := label.text_le
  have hlength : (UInt8.ofNat label.text.length).toNat = label.text.length := by
    rw [UInt8.toNat_ofNat']
    omega
  apply IsName.label _ _ _ _ _ hlength.symm h
  · intro hzero
    rw [hzero] at hlength
    simp at hlength
    omega
  · apply UInt8.lt_iff_toNat_lt.mpr
    rw [hlength]
    exact Nat.lt_of_le_of_lt hle (by decide)

theorem Name.encode_isName (name : Name) : IsName name.encode := by
  obtain ⟨labels, ending⟩ := name
  unfold Name.encode
  induction labels with
  | nil =>
    cases ending with
    | root => exact .root
    | pointer high low bits => exact .pointer high low bits
  | cons label labels ih =>
    rw [List.flatMap_cons, List.append_assoc]
    exact label.encode_append_isName ih

theorem Question.encode_isQuery (question : Question) : IsQuery question.encode :=
  ⟨_, _, question.name.encode_isName, question.fixed_length, rfl⟩

theorem Record.encode_isResponse (record : Record) : IsResponse record.encode :=
  ⟨_, _, _, record.name.encode_isName, record.fixed_length, record.data_lt, rfl⟩

theorem Name.eq_root_of_encode {name : Name} {rest rest' : Bytes}
    (h : name.encode ++ rest = 0 :: rest') : name = .root ∧ rest = rest' := by
  obtain ⟨labels, ending⟩ := name
  cases labels with
  | nil =>
    cases ending with
    | root => exact ⟨rfl, (List.cons.inj h).2⟩
    | pointer high low bits => exact absurd (List.cons.inj h).1 (ne_zero_of_and bits)
  | cons label labels =>
    have hpos := label.text_pos
    have hle := label.text_le
    have hzero : UInt8.ofNat label.text.length = 0 := (List.cons.inj h).1
    have hlength := congrArg UInt8.toNat hzero
    rw [UInt8.toNat_ofNat'] at hlength
    simp at hlength
    omega

theorem Record.isOpt_iff (record : Record) : record.IsOpt ↔ DnsPacket.IsOpt record.encode := by
  constructor
  · rintro ⟨hname, rest, hfixed⟩
    refine ⟨rest ++ (short record.data.length ++ record.data), ?_⟩
    unfold Record.encode
    rw [hname, hfixed, List.append_assoc]
    rfl
  · rintro ⟨rest, h⟩
    obtain ⟨hname, hrest⟩ := Name.eq_root_of_encode h
    refine ⟨hname, record.fixed.drop 2, ?_⟩
    have hfixed := record.fixed_length
    have htype := congrArg (List.take 2) hrest
    rw [List.take_append_of_le_length (by omega), List.take_left' (length_short OPT)] at htype
    rw [← htype, List.take_append_drop]

theorem OptRecord.record_isOpt (opt : OptRecord) : opt.record.IsOpt := ⟨rfl, opt.fixed, rfl⟩

/-! The walk over a message. -/

theorem whole_flatMap {α : Type} {Entry : Bytes → Prop} {encode : α → Bytes} {entries : List α}
    (h : ∀ entry ∈ entries, Entry (encode entry)) (rest : Bytes) :
    Whole Entry entries.length (entries.flatMap encode ++ rest) rest := by
  induction entries with
  | nil => exact .none rest
  | cons entry entries ih =>
    rw [List.flatMap_cons, List.append_assoc]
    exact .entry (h entry (by simp)) (ih fun entry hentry => h entry (by simp [hentry]))

theorem findOpt_whole {packet : Bytes} (hsize : packet.length < 2 ^ 63) (more : Nat)
    {count : Nat} {bytes rest : Bytes}
    (h : Whole (fun response => IsResponse response ∧ ¬ IsOpt response) count bytes rest) :
    ∀ {it : Nat}, it ≤ packet.length → packet.drop it = bytes →
      ∃ it', findOpt packet (count + more) it = findOpt packet more it' ∧ it' ≤ packet.length ∧
        packet.drop it' = rest := by
  induction h with
  | none rest =>
    intro it hit hbytes
    exact ⟨it, by rw [Nat.zero_add], hit, hbytes⟩
  | @entry count response bytes rest hresponse _ ih =>
    intro it hit hbytes
    have hge := hresponse.1.length_ge
    have hlength := length_of_drop hbytes hit
    obtain ⟨opt, hopt, hiff⟩ := isOpt_response hresponse.1 hbytes
    have hfalse : opt = false := by
      rw [← Bool.not_eq_true, hiff]
      exact hresponse.2
    rw [hfalse] at hopt
    rw [Nat.succ_add, findOpt, if_neg (by omega), hopt]
    simp only [Option.bind_eq_bind, Option.bind_some, Bool.false_eq_true, if_false]
    rw [skipResponses_entry hsize hresponse.1 hbytes 0]
    exact ih (by omega) (drop_of_drop hbytes)

theorem Record.data_of_drop {packet rest : Bytes} {record : Record} (hopt : record.IsOpt) {it : Nat}
    (h : packet.drop it = record.encode ++ rest) :
    packet.drop (it + 9) = short record.data.length ++ (record.data ++ rest) := by
  rw [Record.encode, hopt.1] at h
  simp only [List.append_assoc] at h
  have hdata := drop_of_drop (drop_of_drop h)
  rw [record.fixed_length] at hdata
  exact hdata

theorem findOpt_opt {packet rest : Bytes} (record : Record) (hopt : record.IsOpt) (count : Nat)
    {it : Nat} (hit : it ≤ packet.length) (h : packet.drop it = record.encode ++ rest) :
    findOpt packet (count + 1) it = some (some (it, record.data.length)) := by
  have hlength := length_of_drop h hit
  have hge := record.encode_isResponse.length_ge
  obtain ⟨opt, hisOpt, hiff⟩ := isOpt_response record.encode_isResponse h
  have htrue : opt = true := by
    rw [hiff, ← record.isOpt_iff]
    exact hopt
  have hshort := Record.data_of_drop hopt h
  have hroom : it + 11 + record.data.length ≤ packet.length := by
    have hdata := length_of_drop hshort (by omega)
    simp at hdata
    omega
  rw [htrue] at hisOpt
  rw [findOpt, if_neg (by omega), hisOpt]
  simp only [Option.bind_eq_bind, Option.bind_some, if_true]
  rw [getShort_of_drop record.data_lt hshort, Option.bind_some,
    if_pos (by unfold distance; omega)]
  rfl

/-- Where the additional record is that has `before` in front of it. -/
def Message.recordAt (message : Message) (before : List Record) : Nat :=
  2 + message.front.length + (encodeRecords before).length

/-- A packet with the length that it has, that begins with the sections. -/
structure Sections.In (sections : Sections) (packet rest : Bytes) : Prop where
  valid : valid packet = true
  drop : packet.drop 2 = sections.encode ++ rest

section In

variable {sections : Sections} {packet rest : Bytes} (h : sections.In packet rest)
include h

theorem Sections.In.drop_idFlags : packet.drop 2 =
    sections.idFlags ++ (short sections.questions.length ++ (short sections.answers.length ++
      (short sections.authorities.length ++ (short sections.additional.length ++
        (sections.questions.flatMap Question.encode ++ (encodeRecords sections.answers ++
          (encodeRecords sections.authorities ++
            (encodeRecords sections.additional ++ rest)))))))) := by
  rw [h.drop, Sections.encode, Sections.front]
  simp only [List.append_assoc]

theorem Sections.In.entries : packet.drop headerSize =
    sections.questions.flatMap Question.encode ++ (encodeRecords sections.answers ++
      (encodeRecords sections.authorities ++ (encodeRecords sections.additional ++ rest))) := by
  have hdrop := drop_of_drop (drop_of_drop (drop_of_drop (drop_of_drop (drop_of_drop
    h.drop_idFlags))))
  rw [sections.idFlags_length] at hdrop
  exact hdrop

theorem Sections.In.length_eq :
    packet.length = 2 + sections.front.length + (encodeRecords sections.additional).length +
      rest.length := by
  have hsize := ((valid_iff packet).mp h.valid).1
  have hlength := length_of_drop h.drop (by unfold headerSize at hsize; omega)
  rw [Sections.encode, List.length_append] at hlength
  omega

theorem Sections.In.size_lt : packet.length < 2 ^ 63 := by
  obtain ⟨header, hheader⟩ := Option.isSome_iff_exists.mp h.valid
  exact (getHeader_length hheader).2.trans (by decide)

theorem Sections.In.getHeader_eq : getHeader packet =
    some ⟨packet.length - 2, sections.questions.length, sections.answers.length,
      sections.authorities.length, sections.additional.length⟩ := by
  obtain ⟨hsize, hlength⟩ := (valid_iff packet).mp h.valid
  have hqueries := drop_of_drop h.drop_idFlags
  rw [sections.idFlags_length] at hqueries
  have hanswers := drop_of_drop hqueries
  have hauthorities := drop_of_drop hanswers
  have hadditional := drop_of_drop hauthorities
  have hqueriesAt : shortAt packet 6 = sections.questions.length :=
    shortAt_of_drop sections.questions_lt hqueries
  have hanswersAt : shortAt packet 8 = sections.answers.length :=
    shortAt_of_drop sections.answers_lt hanswers
  have hauthoritiesAt : shortAt packet 10 = sections.authorities.length :=
    shortAt_of_drop sections.authorities_lt hauthorities
  have hadditionalAt : shortAt packet 12 = sections.additional.length :=
    shortAt_of_drop sections.additional_lt hadditional
  rw [getHeader, if_neg (by omega), if_neg (not_not.mpr hlength), hlength, hqueriesAt, hanswersAt,
    hauthoritiesAt, hadditionalAt]

theorem Sections.In.walk_sections : ∃ it₁ it₂ it,
    skipQueries packet sections.questions.length headerSize = some it₁ ∧
      skipResponses packet sections.answers.length it₁ = some it₂ ∧
      skipResponses packet sections.authorities.length it₂ = some it ∧
      it = 2 + sections.front.length ∧ it ≤ packet.length ∧
      packet.drop it = encodeRecords sections.additional ++ rest := by
  have hsize := h.size_lt
  have hheaderSize := (getHeader_length h.getHeader_eq).1
  obtain ⟨it₁, hit₁, hle₁, hdrop₁⟩ := skipQueries_whole hsize
    (whole_flatMap (fun question _ => question.encode_isQuery) _) hheaderSize h.entries
  obtain ⟨it₂, hit₂, hle₂, hdrop₂⟩ := skipResponses_whole hsize
    (whole_flatMap (fun record _ => record.encode_isResponse) _) hle₁ hdrop₁
  obtain ⟨it₃, hit₃, hle₃, hdrop₃⟩ := skipResponses_whole hsize
    (whole_flatMap (fun record _ => record.encode_isResponse) _) hle₂ hdrop₂
  have hlength := length_of_drop hdrop₃ hle₃
  have hpacket := h.length_eq
  exact ⟨it₁, it₂, it₃, hit₁, hit₂, hit₃, by omega, hle₃, hdrop₃⟩

theorem Sections.In.walk_eq : ∃ it, it = 2 + sections.front.length ∧ it ≤ packet.length ∧
    packet.drop it = encodeRecords sections.additional ++ rest ∧
      walk packet = findOpt packet sections.additional.length it := by
  obtain ⟨it₁, it₂, it, hit₁, hit₂, hit, heq, hle, hdrop⟩ := h.walk_sections
  refine ⟨it, heq, hle, hdrop, ?_⟩
  unfold walk
  rw [h.getHeader_eq]
  simp only [Option.bind_eq_bind, hit₁, hit₂, hit, Option.bind_some]

theorem Sections.In.walk_opt {before after : List Record} {record : Record}
    (hadditional : sections.additional = before ++ record :: after)
    (hbefore : ∀ r ∈ before, ¬ r.IsOpt) (hopt : record.IsOpt) :
    walk packet = some (some (2 + sections.front.length + (encodeRecords before).length,
        record.data.length)) ∧
      packet.drop (2 + sections.front.length + (encodeRecords before).length) =
        record.encode ++ (encodeRecords after ++ rest) := by
  obtain ⟨it, rfl, hle, hdrop, hwalk⟩ := h.walk_eq
  rw [hadditional, encodeRecords, List.flatMap_append, List.flatMap_cons, List.append_assoc,
    List.append_assoc] at hdrop
  have hothers : ∀ r ∈ before, IsResponse r.encode ∧ ¬ IsOpt r.encode := by
    intro r hr
    rw [← r.isOpt_iff]
    exact ⟨r.encode_isResponse, hbefore r hr⟩
  obtain ⟨it, hfind, hle', hdrop'⟩ := findOpt_whole h.size_lt (after.length + 1)
    (whole_flatMap hothers _) hle hdrop
  have hit : it = 2 + sections.front.length + (encodeRecords before).length := by
    have hlength := length_of_drop hdrop hle
    have hlength' := congrArg List.length hdrop'
    rw [List.length_drop] at hlength'
    unfold encodeRecords
    omega
  rw [hit] at hfind hle' hdrop'
  refine ⟨?_, hdrop'⟩
  rw [hwalk, hadditional, List.length_append, List.length_cons, hfind]
  exact findOpt_opt record hopt _ hle' hdrop'

theorem Sections.In.walk_none (hnone : ∀ r ∈ sections.additional, ¬ r.IsOpt) :
    walk packet = some none := by
  obtain ⟨it, rfl, hle, hdrop, hwalk⟩ := h.walk_eq
  have hothers : ∀ r ∈ sections.additional, IsResponse r.encode ∧ ¬ IsOpt r.encode := by
    intro r hr
    rw [← r.isOpt_iff]
    exact ⟨r.encode_isResponse, hnone r hr⟩
  obtain ⟨it, hfind, -⟩ := findOpt_whole h.size_lt 0 (whole_flatMap hothers _) hle hdrop
  rw [hwalk]
  exact hfind

end In

section Walk

variable (message : Message)

theorem Message.encode_in : message.toSections.In message.encode [] := by
  have hdrop : message.encode.drop 2 = message.toSections.encode := List.drop_left' (length_short _)
  constructor
  · have hlength : message.encode.length = 2 + message.toSections.encode.length := by
      rw [Message.encode, List.length_append, length_short]
    have hfront : 12 ≤ message.toSections.encode.length := by
      simp [Sections.encode, Sections.front, message.idFlags_length]
      omega
    rw [valid_iff, show shortAt message.encode 0 = _ from shortAt_of_drop message.encode_lt rfl]
    exact ⟨by unfold headerSize; omega, by omega⟩
  · rw [hdrop, List.append_nil]

theorem Message.walk_encode {before after : List Record} {record : Record}
    (h : message.additional = before ++ record :: after) (hbefore : ∀ r ∈ before, ¬ r.IsOpt)
    (hopt : record.IsOpt) :
    walk message.encode = some (some (message.recordAt before, record.data.length)) ∧
      message.encode.drop (message.recordAt before) = record.encode ++ encodeRecords after := by
  have hwalk := message.encode_in.walk_opt h hbefore hopt
  rw [List.append_nil] at hwalk
  exact hwalk

end Walk

/-! The removal from a record with whole options. -/

theorem setShort_short (a b : Bytes) (value value' : Nat) :
    setShort (a ++ (short value ++ b)) a.length value' = a ++ (short value' ++ b) := by
  simp [setShort, short]

theorem copy_end (a b : Bytes) {diff : Nat} (hdiff : diff ≤ b.length) :
    ∃ packet, copy (a ++ b) (a.length + diff) (a ++ b).length a.length = some packet ∧
      packet.take (packet.length - diff) = a ++ b.drop diff := by
  have hmove := copy_move a (b.take diff) (b.drop diff) []
  have hlength : (b.take diff).length = diff := by
    rw [List.length_take]
    omega
  rw [List.append_nil, List.append_nil, List.take_append_drop, hlength, ← List.length_append]
    at hmove
  refine ⟨_, hmove, ?_⟩
  rw [← List.append_assoc, List.take_left']
  simp
  omega

theorem removeFromOpt_options (options : List EdnsOption) (mid post : Bytes) {size it : Nat}
    (hsize : size < 2 ^ 16) (hlength : (encodeOptions options).length < 2 ^ 16)
    (hit : it + 9 = 2 + mid.length) :
    removeFromOpt (short size ++ (mid ++ (short (encodeOptions options).length ++
        (encodeOptions options ++ post)))) it (encodeOptions options).length =
      some (true, short ((size + 2 ^ 16 - (leftover options).length) % 2 ^ 16) ++ (mid ++
        (short (encodeOptions (withoutPadding options)).length ++
          (encodeOptions (withoutPadding options) ++ (leftover options ++ post)).drop
            (leftover options).length))) := by
  have hless := leftover_length options
  have hdiff : ((encodeOptions options).length + 2 ^ 16 -
      (encodeOptions (withoutPadding options)).length) % 2 ^ 16 = (leftover options).length := by
    omega
  have hloop := removePaddingOption_options options
    (short size ++ (mid ++ short (encodeOptions options).length)) post hlength
  simp only [List.append_assoc, List.length_append, length_short] at hloop
  rw [← Nat.add_assoc, ← hit] at hloop
  have hkept := setShort_short (short size ++ mid)
    (encodeOptions (withoutPadding options) ++ (leftover options ++ post))
    (encodeOptions options).length (encodeOptions (withoutPadding options)).length
  simp only [List.append_assoc, List.length_append, length_short] at hkept
  rw [← hit] at hkept
  have hsizeAt : shortAt (short size ++ (mid ++
      (short (encodeOptions (withoutPadding options)).length ++
        (encodeOptions (withoutPadding options) ++ (leftover options ++ post))))) 0 = size :=
    shortAt_of_drop hsize rfl
  have hresized := setShort_short [] (mid ++ (short (encodeOptions (withoutPadding options)).length
    ++ (encodeOptions (withoutPadding options) ++ (leftover options ++ post)))) size
    ((size + 2 ^ 16 - (leftover options).length) % 2 ^ 16)
  simp only [List.nil_append, List.length_nil] at hresized
  obtain ⟨packet, hcopy, htake⟩ := copy_end
    (short ((size + 2 ^ 16 - (leftover options).length) % 2 ^ 16) ++ (mid ++
      short (encodeOptions (withoutPadding options)).length))
    (encodeOptions (withoutPadding options) ++ (leftover options ++ post))
    (show (leftover options).length ≤ _ by simp; omega)
  rw [show (short ((size + 2 ^ 16 - (leftover options).length) % 2 ^ 16) ++ (mid ++
    short (encodeOptions (withoutPadding options)).length)).length = it + 9 + 2 by simp; omega]
    at hcopy
  simp only [List.append_assoc] at hcopy htake
  unfold removeFromOpt
  dsimp only
  rw [hloop, Option.bind_eq_bind, Option.bind_some]
  dsimp only
  rw [hkept, hdiff, hsizeAt, hresized, hcopy, Option.bind_eq_bind, Option.bind_some, htake,
    Option.pure_def]

/-- The options that stay are found again at the end of themselves and of what the
removals have left behind them. -/
def Spared (options : List EdnsOption) : Prop :=
  encodeOptions (withoutPadding options) <:+
    encodeOptions (withoutPadding options) ++ leftover options

theorem leftover_eq_nil {options : List EdnsOption}
    (h : ∀ option ∈ options, option.isPadding = false) : leftover options = [] := by
  induction options with
  | nil => rfl
  | cons option options ih =>
    rw [leftover_other options (h option (by simp))]
    exact ih fun option hoption => h option (by simp [hoption])

theorem spared_of_others {options : List EdnsOption}
    (h : ∀ option ∈ options, option.isPadding = false) : Spared options := by
  rw [Spared, leftover_eq_nil h, List.append_nil]

theorem spared_of_padding {options : List EdnsOption}
    (h : ∀ option ∈ options, option.isPadding = true) : Spared options := by
  have hnone : withoutPadding options = [] := by
    rw [withoutPadding, List.filter_eq_nil_iff]
    intro option hoption
    simp [h option hoption]
  rw [Spared, hnone]
  exact List.nil_suffix

theorem spared_iff (options : List EdnsOption) (post : Bytes) :
    ((encodeOptions (withoutPadding options) ++ (leftover options ++ post)).drop
      (leftover options).length).take (encodeOptions (withoutPadding options)).length =
        encodeOptions (withoutPadding options) ↔ Spared options := by
  have htake : ((encodeOptions (withoutPadding options) ++ (leftover options ++ post)).drop
      (leftover options).length).take (encodeOptions (withoutPadding options)).length =
        (encodeOptions (withoutPadding options) ++ leftover options).drop
          (leftover options).length := by
    rw [← List.append_assoc, List.drop_append_of_le_length (by simp), List.take_left' (by simp)]
  rw [htake]
  constructor
  · intro h
    rw [Spared]
    nth_rewrite 1 [← h]
    exact List.drop_suffix _ _
  · rintro ⟨moved, h⟩
    have hlength := congrArg List.length h
    rw [List.length_append, List.length_append] at hlength
    rw [← h, List.drop_left' (by omega)]

theorem exists_first {before : List Record} (h : ¬ ∀ r ∈ before, ¬ r.IsOpt) :
    ∃ (first : List Record) (record : Record) (rest : List Record),
      before = first ++ record :: rest ∧ record.IsOpt ∧ ∀ r ∈ first, ¬ r.IsOpt := by
  induction before with
  | nil => simp at h
  | cons record before ih =>
    by_cases hopt : record.IsOpt
    · exact ⟨[], record, before, rfl, hopt, by simp⟩
    · have hrest : ¬ ∀ r ∈ before, ¬ r.IsOpt := by
        intro hbefore
        apply h
        simpa [hopt] using hbefore
      obtain ⟨first, record', rest, rfl, hopt', hfirst⟩ := ih hrest
      refine ⟨record :: first, record', rest, rfl, hopt', ?_⟩
      simpa [hopt] using hfirst

section Remove

variable (message : Message) {before after : List Record} {opt : OptRecord}

theorem Message.encode_opt (h : message.additional = before ++ opt.record :: after) :
    message.encode = short message.toSections.encode.length ++ (message.front ++
      (encodeRecords before ++ (0 :: (short OPT ++ opt.fixed))) ++
        (short (encodeOptions opt.options).length ++ (encodeOptions opt.options ++
          encodeRecords after))) := by
  simp [Message.encode, Sections.encode, h, encodeRecords, Record.encode, OptRecord.record,
    Name.encode, Name.root, Ending.encode]

theorem Message.recordAt_opt : message.recordAt before + 9 = 2 + (message.front ++
    (encodeRecords before ++ (0 :: (short OPT ++ opt.fixed)))).length := by
  simp [Message.recordAt, opt.fixed_length]
  omega

/-- What is made of the message: its length is taken from, and the bytes from the
data of the OPT record on move forwards. -/
theorem Message.removeEdnsPadding_encode
    (h : message.additional = before ++ opt.record :: after) (hbefore : ∀ r ∈ before, ¬ r.IsOpt) :
    removeEdnsPadding message.encode =
      some (true, short ((message.toSections.encode.length + 2 ^ 16 -
          (leftover opt.options).length) % 2 ^ 16) ++ (message.front ++
        (encodeRecords before ++ (0 :: (short OPT ++ opt.fixed))) ++
          (short (encodeOptions (withoutPadding opt.options)).length ++
            (encodeOptions (withoutPadding opt.options) ++ (leftover opt.options ++
              encodeRecords after)).drop (leftover opt.options).length))) := by
  obtain ⟨hwalk, -⟩ := message.walk_encode h hbefore opt.record_isOpt
  rw [removeEdnsPadding_eq, hwalk, Option.bind_some]
  have hremove := removeFromOpt_options opt.options (message.front ++
    (encodeRecords before ++ (0 :: (short OPT ++ opt.fixed)))) (encodeRecords after)
    message.encode_lt opt.options_lt message.recordAt_opt
  rw [← message.encode_opt h] at hremove
  exact hremove

theorem Message.removeEdnsPadding_data
    (h : message.additional = before ++ opt.record :: after) (hbefore : ∀ r ∈ before, ¬ r.IsOpt) :
    ∃ packet, removeEdnsPadding message.encode = some (true, packet) ∧
      getShort packet (message.recordAt before + 9) =
        some (encodeOptions (withoutPadding opt.options)).length ∧
      packet.drop (message.recordAt before + 11) =
        (encodeOptions (withoutPadding opt.options) ++ (leftover opt.options ++
          encodeRecords after)).drop (leftover opt.options).length := by
  refine ⟨_, message.removeEdnsPadding_encode h hbefore, ?_⟩
  have hless := leftover_length opt.options
  have hlt := opt.options_lt
  have hhead : (short ((message.toSections.encode.length + 2 ^ 16 -
      (leftover opt.options).length) % 2 ^ 16) ++ (message.front ++ (encodeRecords before ++
        (0 :: (short OPT ++ opt.fixed))))).length = message.recordAt before + 9 := by
    rw [message.recordAt_opt, List.length_append, length_short]
  rw [← List.append_assoc]
  refine ⟨getShort_of_drop (by omega) (List.drop_left' hhead), ?_⟩
  rw [show message.recordAt before + 11 = message.recordAt before + 9 + 2 from rfl,
    ← List.drop_drop, List.drop_left' hhead]
  rfl

theorem Message.removeEdnsPadding_none {record : Record}
    (h : message.additional = before ++ record :: after) (hbefore : ∀ r ∈ before, ¬ r.IsOpt)
    (hopt : record.IsOpt) (hdata : ¬ ∃ options, record.data = encodeOptions options) :
    removeEdnsPadding message.encode = none := by
  obtain ⟨hwalk, hdrop⟩ := message.walk_encode h hbefore hopt
  rw [removeEdnsPadding_eq, hwalk, Option.bind_some]
  have hroom := (walk_eq_some hwalk).1
  have hshort := Record.data_of_drop hopt hdrop
  have hbytes : (message.encode.drop (message.recordAt before + 9 + 2)).take record.data.length =
      record.data := by
    have hrest := drop_of_drop hshort
    rw [length_short] at hrest
    rw [hrest, List.take_left]
  cases hloop : removePaddingOption message.encode (message.recordAt before + 9 + 2)
      record.data.length with
  | none =>
    simp only [removeFromOpt, hloop]
    rfl
  | some result =>
    obtain ⟨options, hoptions⟩ := options_of_removePaddingOption hloop (by omega)
    rw [hbytes] at hoptions
    exact absurd ⟨options, hoptions⟩ hdata

/-- The OPT record is left with the options that are no padding, and with their
length, exactly when it is the first OPT record from the root and its options are
spared. -/
theorem removeEdnsPadding_options_iff (h : message.additional = before ++ opt.record :: after)
    (hfirst : ∀ r ∈ before, r.IsOpt → ¬ ∃ options, r.data = encodeOptions options) :
    (∃ packet, removeEdnsPadding message.encode = some (true, packet) ∧
      getShort packet (message.recordAt before + 9) =
        some (encodeOptions (withoutPadding opt.options)).length ∧
      (packet.drop (message.recordAt before + 11)).take
        (encodeOptions (withoutPadding opt.options)).length =
          encodeOptions (withoutPadding opt.options)) ↔
      (∀ r ∈ before, ¬ r.IsOpt) ∧ Spared opt.options := by
  by_cases hbefore : ∀ r ∈ before, ¬ r.IsOpt
  · obtain ⟨packet, hpacket, hlength, hdata⟩ := message.removeEdnsPadding_data h hbefore
    rw [← spared_iff opt.options (encodeRecords after), ← hdata]
    constructor
    · rintro ⟨packet', hpacket', -, hoptions⟩
      rw [hpacket] at hpacket'
      cases hpacket'
      exact ⟨hbefore, hoptions⟩
    · rintro ⟨-, hoptions⟩
      exact ⟨packet, hpacket, hlength, hoptions⟩
  · simp only [hbefore, false_and, iff_false]
    rintro ⟨packet, hpacket, -⟩
    obtain ⟨first, record, rest, rfl, hopt, hothers⟩ := exists_first hbefore
    rw [List.append_assoc, List.cons_append] at h
    have hnone := message.removeEdnsPadding_none h hothers hopt (hfirst record (by simp) hopt)
    rw [hnone] at hpacket
    contradiction

end Remove

def queryWith (opt : OptRecord) (h : (encodeOptions opt.options).length < 2 ^ 15) : Message where
  idFlags := [0, 0, 1, 0]
  questions := [⟨.root, [0, 1, 0, 1], rfl⟩]
  answers := []
  authorities := []
  additional := [opt.record]
  idFlags_length := rfl
  questions_lt := by simp
  answers_lt := by simp
  authorities_lt := by simp
  additional_lt := by simp
  encode_lt := by
    have hfixed := opt.fixed_length
    simp [Sections.encode, Sections.front, encodeRecords, Record.encode, OptRecord.record,
      Question.encode, Name.encode, Name.root, Ending.encode]
    omega

def alsoPadding : OptRecord where
  fixed := [16, 0, 0, 0, 0, 0]
  options := [⟨10, [1, 2], by decide, by decide⟩, ⟨12, [0, 0], by decide, by decide⟩]
  fixed_length := rfl
  options_lt := by decide

def beforeOption : OptRecord where
  fixed := [16, 0, 0, 0, 0, 0]
  options := [⟨12, [0, 0], by decide, by decide⟩, ⟨10, [1, 2], by decide, by decide⟩]
  fixed_length := rfl
  options_lt := by decide

/-- `dns.test`, which the other names of the response point to. -/
def question : Question where
  name := ⟨[⟨[100, 110, 115], by decide, by decide⟩,
    ⟨[116, 101, 115, 116], by decide, by decide⟩], .root⟩
  fixed := [0, 1, 0, 1]
  fixed_length := rfl

def addressRecord : Record where
  name := ⟨[], .pointer 0xc0 12 rfl⟩
  fixed := [0, 1, 0, 1, 0, 0, 0, 60]
  data := [1, 1, 1, 1]
  fixed_length := rfl
  data_lt := by decide

def addressResponse : Message where
  idFlags := [0, 7, 129, 128]
  questions := [question]
  answers := [addressRecord, addressRecord]
  authorities := [addressRecord]
  additional := [addressRecord, beforeOption.record, addressRecord]
  idFlags_length := rfl
  questions_lt := by decide
  answers_lt := by decide
  authorities_lt := by decide
  additional_lt := by decide
  encode_lt := by decide +kernel

theorem not_isOpt_addressRecord : ¬ addressRecord.IsOpt := by
  rintro ⟨-, rest, hfixed⟩
  cases hfixed

theorem removeEdnsPadding_options_kept : ∃ packet,
    removeEdnsPadding addressResponse.encode = some (true, packet) ∧
      getShort packet 101 = some 6 ∧ (packet.drop 103).take 6 = [0, 10, 0, 2, 1, 2] := by
  have hadditional : addressResponse.additional =
      [addressRecord] ++ beforeOption.record :: [addressRecord] := rfl
  have hspared : Spared beforeOption.options := by
    unfold Spared
    decide
  exact (removeEdnsPadding_options_iff _ hadditional
    (by simp [not_isOpt_addressRecord])).mpr ⟨by simp [not_isOpt_addressRecord], hspared⟩

/-- The option is lost, and the padding behind it stays. -/
theorem removeEdnsPadding_not_options :
    removeEdnsPadding (queryWith alsoPadding (by decide)).encode =
        some (true, [0, 34, 0, 0, 1, 0, 0, 1, 0, 0, 0, 0, 0, 1, 0, 0, 1, 0, 1,
          0, 0, 41, 16, 0, 0, 0, 0, 0, 0, 6, 0, 12, 0, 2, 0, 0]) ∧
      encodeOptions (withoutPadding alsoPadding.options) = [0, 10, 0, 2, 1, 2] ∧
      ¬ ∃ packet, removeEdnsPadding (queryWith alsoPadding (by decide)).encode =
          some (true, packet) ∧
        getShort packet 28 = some 6 ∧ (packet.drop 30).take 6 = [0, 10, 0, 2, 1, 2] := by
  have hremove : removeEdnsPadding (queryWith alsoPadding (by decide)).encode =
      some (true, [0, 34, 0, 0, 1, 0, 0, 1, 0, 0, 0, 0, 0, 1, 0, 0, 1, 0, 1,
        0, 0, 41, 16, 0, 0, 0, 0, 0, 0, 6, 0, 12, 0, 2, 0, 0]) := by decide
  refine ⟨hremove, by decide, ?_⟩
  rintro ⟨packet, hpacket, -, hoptions⟩
  rw [hremove] at hpacket
  cases hpacket
  revert hoptions
  decide

end Dote.DnsPacket
