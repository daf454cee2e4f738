import Dote.Dns.Message

/-! Which records the removal of the padding looks at. -/
namespace Dote.DnsPacket
open Dote.Library

/-- Where the records start that follow one another from `it` on. -/
def starts : Nat → List Record → List Nat
  | _, [] => []
  | it, record :: records => it :: starts (it + record.encode.length) records

theorem starts_concat (record : Record) (records : List Record) : ∀ it,
    starts it (records ++ [record]) =
      starts it records ++ [it + (encodeRecords records).length] := by
  induction records with
  | nil => exact fun _ => rfl
  | cons first records ih =>
    intro it
    simp [starts, encodeRecords, ih, Nat.add_assoc]

/-! The walk, with the places that it looks at for an OPT record. -/
namespace Looking

def isOpt (packet : Bytes) (it : Nat) : Logged Nat Bool := .log it (DnsPacket.isOpt packet it)

def findOpt (packet : Bytes) : Nat → Nat → Logged Nat (Option (Nat × Nat))
  | 0, _ => pure none
  | count + 1, it =>
    if it = packet.length then pure none
    else do
      if ← isOpt packet it then
        let length ← .lift (getShort packet (it + 9))
        if distance packet it ≥ length + 11 then pure (some (it, length))
        else findOpt packet count it
      else
        let it ← .lift (skipResponses packet 1 it)
        findOpt packet count it

def walk (packet : Bytes) : Logged Nat (Option (Nat × Nat)) :=
  match getHeader packet with
  | none => pure none
  | some header => do
    let it ← .lift (skipQueries packet header.queries headerSize)
    let it ← .lift (skipResponses packet header.answers it)
    let it ← .lift (skipResponses packet header.authorities it)
    findOpt packet header.additional it

def removeEdnsPadding (packet : Bytes) : Logged Nat (Bool × Bytes) := do
  match ← walk packet with
  | none => pure (false, packet)
  | some (it, length) => .lift (removeFromOpt packet it length)

theorem findOpt_result (packet : Bytes) (count : Nat) : ∀ it,
    (findOpt packet count it).result = DnsPacket.findOpt packet count it := by
  induction count with
  | zero => exact fun _ => rfl
  | succ count ih =>
    intro it
    unfold findOpt DnsPacket.findOpt
    simp [Logged.result_ite, isOpt, ih]

theorem walk_result (packet : Bytes) : (walk packet).result = DnsPacket.walk packet := by
  unfold walk DnsPacket.walk
  cases getHeader packet with
  | none => rfl
  | some header => simp [findOpt_result]

/-- What is looked on at is the removal. -/
theorem removeEdnsPadding_result (packet : Bytes) :
    (removeEdnsPadding packet).result = DnsPacket.removeEdnsPadding packet := by
  rw [removeEdnsPadding_eq, removeEdnsPadding, Logged.result_bind, walk_result]
  congr 1
  funext found
  cases found with
  | none => rfl
  | some found => rfl

theorem removeEdnsPadding_trace {packet : Bytes} {found : Option (Nat × Nat)}
    (h : DnsPacket.walk packet = some found) :
    (removeEdnsPadding packet).trace = (walk packet).trace := by
  rw [removeEdnsPadding, Logged.bind_of_some (by rw [walk_result, h])]
  cases found with
  | none => simp
  | some found => simp

theorem findOpt_record {packet rest : Bytes} (hsize : packet.length < 2 ^ 63) {record : Record}
    (hopt : ¬ record.IsOpt) (count : Nat) {it : Nat} (hit : it ≤ packet.length)
    (h : packet.drop it = record.encode ++ rest) :
    (findOpt packet (count + 1) it).trace =
      it :: (findOpt packet count (it + record.encode.length)).trace := by
  have hresponse := record.encode_isResponse
  have hge := hresponse.length_ge
  have hlength := length_of_drop h hit
  obtain ⟨opt, hisOpt, hiff⟩ := isOpt_response hresponse h
  have hfalse : opt = false := by
    rw [← Bool.not_eq_true, hiff, ← record.isOpt_iff]
    exact hopt
  rw [hfalse] at hisOpt
  rw [findOpt, if_neg (by omega), isOpt, hisOpt, Logged.bind_log]
  simp only [Bool.false_eq_true, if_false]
  rw [skipResponses_entry hsize hresponse h 0]
  rfl

theorem findOpt_records {packet : Bytes} (hsize : packet.length < 2 ^ 63) (more : Nat)
    {rest : Bytes} {records : List Record} (hopt : ∀ r ∈ records, ¬ r.IsOpt) :
    ∀ {it : Nat}, it ≤ packet.length → packet.drop it = encodeRecords records ++ rest →
      (findOpt packet (records.length + more) it).trace = starts it records ++
        (findOpt packet more (it + (encodeRecords records).length)).trace := by
  induction records with
  | nil =>
    intro it hit h
    simp [starts, encodeRecords]
  | cons record records ih =>
    intro it hit h
    have hdrop : packet.drop it = record.encode ++ (encodeRecords records ++ rest) := by
      rw [h, encodeRecords, List.flatMap_cons, List.append_assoc]
      rfl
    have hlength := length_of_drop hdrop hit
    have hrest := ih (fun r hr => hopt r (by simp [hr])) (by omega) (drop_of_drop hdrop)
    rw [List.length_cons, Nat.succ_add,
      findOpt_record hsize (hopt record (by simp)) _ hit hdrop, hrest, starts, List.cons_append]
    simp [encodeRecords, Nat.add_assoc]

theorem findOpt_opt {packet rest : Bytes} {record : Record} (hopt : record.IsOpt) (count : Nat)
    {it : Nat} (hit : it ≤ packet.length) (h : packet.drop it = record.encode ++ rest) :
    (findOpt packet (count + 1) it).trace = [it] := by
  have hge := record.encode_isResponse.length_ge
  have hlength := length_of_drop h hit
  have hfound := DnsPacket.findOpt_opt record hopt count hit h
  obtain ⟨opt, hisOpt, hiff⟩ := isOpt_response record.encode_isResponse h
  have htrue : opt = true := by
    rw [hiff, ← record.isOpt_iff]
    exact hopt
  rw [htrue] at hisOpt
  have hshort := getShort_of_drop record.data_lt (Record.data_of_drop hopt h)
  have hroom := (findOpt_eq_some hfound).1
  rw [findOpt, if_neg (by omega), isOpt, hisOpt, Logged.bind_log]
  simp only [if_true]
  rw [hshort, Logged.bind_lift, if_pos (by unfold distance; omega)]
  rfl

end Looking

section Walkers

variable {packet : Bytes}

theorem eq_of_drop {it it' : Nat} {bytes rest : Bytes} (hit : it ≤ packet.length)
    (hit' : it' ≤ packet.length) (h : packet.drop it = bytes ++ rest)
    (h' : packet.drop it' = rest) : it' = it + bytes.length := by
  have hlength := length_of_drop h hit
  have hlength' := congrArg List.length h'
  rw [List.length_drop] at hlength'
  omega

variable (hsize : packet.length < 2 ^ 63)
include hsize

theorem skipQueries_questions {questions : List Question} {it : Nat} {rest : Bytes}
    (hit : it ≤ packet.length)
    (h : packet.drop it = questions.flatMap Question.encode ++ rest) :
    skipQueries packet questions.length it =
      some (it + (questions.flatMap Question.encode).length) := by
  obtain ⟨it', hskip, hit', hrest⟩ := skipQueries_whole hsize
    (whole_flatMap (fun question _ => question.encode_isQuery) rest) hit h
  rw [hskip, eq_of_drop hit hit' h hrest]

theorem skipResponses_records {records : List Record} {it : Nat} {rest : Bytes}
    (hit : it ≤ packet.length) (h : packet.drop it = encodeRecords records ++ rest) :
    skipResponses packet records.length it = some (it + (encodeRecords records).length) := by
  obtain ⟨it', hskip, hit', hrest⟩ := skipResponses_whole hsize
    (whole_flatMap (fun record _ => record.encode_isResponse) rest) hit h
  rw [hskip, eq_of_drop hit hit' h hrest]

end Walkers

section Sections

variable {sections : Sections} {packet rest : Bytes} (h : sections.In packet rest)
include h

theorem Sections.In.looking_walk : ∃ it, it = 2 + sections.front.length ∧ it ≤ packet.length ∧
    packet.drop it = encodeRecords sections.additional ++ rest ∧
      (Looking.walk packet).trace =
        (Looking.findOpt packet sections.additional.length it).trace := by
  obtain ⟨it₁, it₂, it, hit₁, hit₂, hit, heq, hle, hdrop⟩ := h.walk_sections
  refine ⟨it, heq, hle, hdrop, ?_⟩
  unfold Looking.walk
  rw [h.getHeader_eq]
  simp only [hit₁, hit₂, hit, Logged.bind_lift]

theorem Sections.In.looks_none (hnone : ∀ r ∈ sections.additional, ¬ r.IsOpt) :
    (Looking.removeEdnsPadding packet).trace =
        starts (2 + sections.front.length) sections.additional ∧
      removeEdnsPadding packet = some (false, packet) := by
  have hwalk := h.walk_none hnone
  obtain ⟨it, rfl, hle, hdrop, htrace⟩ := h.looking_walk
  have hrecords := Looking.findOpt_records h.size_lt 0 hnone hle hdrop
  constructor
  · rw [Looking.removeEdnsPadding_trace hwalk, htrace]
    exact hrecords.trans (List.append_nil _)
  · rw [removeEdnsPadding_eq, hwalk]
    rfl

theorem Sections.In.looks_opt {before after : List Record} {record : Record}
    (hadditional : sections.additional = before ++ record :: after)
    (hbefore : ∀ r ∈ before, ¬ r.IsOpt) (hopt : record.IsOpt) :
    (Looking.removeEdnsPadding packet).trace =
        starts (2 + sections.front.length) (before ++ [record]) ∧
      removeEdnsPadding packet = removeFromOpt packet
        (2 + sections.front.length + (encodeRecords before).length) record.data.length := by
  obtain ⟨hwalk, hdropOpt⟩ := h.walk_opt hadditional hbefore hopt
  obtain ⟨it, rfl, hle, hdrop, htrace⟩ := h.looking_walk
  have hfound := (walk_eq_some hwalk).1
  rw [hadditional, encodeRecords, List.flatMap_append, List.append_assoc] at hdrop
  have hrecords := Looking.findOpt_records h.size_lt (after.length + 1) hbefore hle hdrop
  rw [Looking.findOpt_opt hopt _ (by omega) hdropOpt] at hrecords
  constructor
  · rw [Looking.removeEdnsPadding_trace hwalk, htrace, hadditional, List.length_append,
      List.length_cons, hrecords, starts_concat]
  · rw [removeEdnsPadding_eq, hwalk]
    rfl

end Sections

/-- The walkers pass over the entries of a section and over nothing behind them, and
the removal looks at the additional records, up to the first OPT record from the
root. The size of a packet is what a `std::vector` can have. -/
theorem walkers_exact :
    (∀ (questions : List Question) (before after : Bytes),
      (before ++ (questions.flatMap Question.encode ++ after)).length < 2 ^ 63 →
        skipQueries (before ++ (questions.flatMap Question.encode ++ after)) questions.length
            before.length =
          some (before ++ questions.flatMap Question.encode).length) ∧
    (∀ (records : List Record) (before after : Bytes),
      (before ++ (encodeRecords records ++ after)).length < 2 ^ 63 →
        skipResponses (before ++ (encodeRecords records ++ after)) records.length before.length =
          some (before ++ encodeRecords records).length) ∧
    ∀ (sections : Sections) (packet rest : Bytes), sections.In packet rest →
      ((∀ r ∈ sections.additional, ¬ r.IsOpt) →
        (Looking.removeEdnsPadding packet).trace =
            starts (2 + sections.front.length) sections.additional ∧
          removeEdnsPadding packet = some (false, packet)) ∧
      ∀ before record after, sections.additional = before ++ record :: after →
        (∀ r ∈ before, ¬ r.IsOpt) → record.IsOpt →
          (Looking.removeEdnsPadding packet).trace =
              starts (2 + sections.front.length) (before ++ [record]) ∧
            removeEdnsPadding packet = removeFromOpt packet
              (2 + sections.front.length + (encodeRecords before).length)
              record.data.length := by
  refine ⟨?_, ?_, ?_⟩
  · intro questions before after hsize
    rw [skipQueries_questions hsize (by simp) (List.drop_left' rfl), List.length_append]
  · intro records before after hsize
    rw [skipResponses_records hsize (by simp) (List.drop_left' rfl), List.length_append]
  · intro sections packet rest h
    exact ⟨h.looks_none, fun _ _ _ hadditional hbefore hopt =>
      h.looks_opt hadditional hbefore hopt⟩

theorem walkers_exact_addressResponse :
    skipQueries ([9] ++ ([question, question].flatMap Question.encode ++ [9, 9])) 2 1 = some 29 ∧
      skipResponses ([9] ++ (encodeRecords [addressRecord, beforeOption.record] ++ [9, 9])) 2 1 =
        some 40 ∧
      (Looking.removeEdnsPadding addressResponse.encode).trace = [76, 92] := by
  refine ⟨?_, ?_, ?_⟩
  · exact walkers_exact.1 [question, question] [9] [9, 9] (by decide)
  · exact walkers_exact.2.1 [addressRecord, beforeOption.record] [9] [9, 9] (by decide)
  · have hlooks := (walkers_exact.2.2 _ _ _ addressResponse.encode_in).2 [addressRecord]
      beforeOption.record [addressRecord] rfl (by simp [not_isOpt_addressRecord])
      beforeOption.record_isOpt
    exact hlooks.1

end Dote.DnsPacket
