import Dote.Loop.Machine

/-! How long `Loop::timeout` lets `poll` wait. The value 0 is no deadline, and it
is also what the search for the earliest deadline begins with. -/
namespace Dote

def earlier (earliest thisTime : Int) : Int :=
  if earliest = 0 ∨ thisTime < earliest then thisTime else earliest

/-- `d` is a deadline of the list, and every item behind it has one. -/
def LastingIn (times : List Int) (d : Int) : Prop :=
  ∃ before after, times = before ++ d :: after ∧ d ≠ 0 ∧ ∀ t ∈ after, t ≠ 0

theorem not_lastingIn_nil (d : Int) : ¬ LastingIn [] d := by
  rintro ⟨before, after, h, -⟩
  simp at h

theorem lastingIn_concat (times : List Int) (t d : Int) :
    LastingIn (times ++ [t]) d ↔ t ≠ 0 ∧ (d = t ∨ LastingIn times d) := by
  constructor
  · rintro ⟨before, after, h, hd, hafter⟩
    rcases List.eq_nil_or_concat' after with rfl | ⟨after, t', rfl⟩
    · obtain ⟨-, hlast⟩ := List.append_inj' h rfl
      cases hlast
      exact ⟨hd, .inl rfl⟩
    · rw [← List.cons_append, ← List.append_assoc] at h
      obtain ⟨htimes, hlast⟩ := List.append_inj' h rfl
      cases hlast
      exact ⟨hafter t (by simp), .inr ⟨before, after, htimes, hd, fun t' ht' =>
        hafter t' (by simp [ht'])⟩⟩
  · rintro ⟨ht, rfl | ⟨before, after, rfl, hd, hafter⟩⟩
    · exact ⟨times, [], rfl, ht, by simp⟩
    · refine ⟨before, after ++ [t], by simp, hd, ?_⟩
      intro t' ht'
      rw [List.mem_append, List.mem_singleton] at ht'
      rcases ht' with ht' | rfl
      · exact hafter t' ht'
      · exact ht

/-- The search finds the earliest of the deadlines behind the last item that has none.
By induction from the end of the list. -/
theorem foldl_earlier (times : List Int) (hpos : ∀ t ∈ times, 0 ≤ t) :
    (times.foldl earlier 0 = 0 ∧ ∀ d, ¬ LastingIn times d) ∨
      (0 < times.foldl earlier 0 ∧ IsLeast {d | LastingIn times d} (times.foldl earlier 0)) := by
  induction times using List.reverseRecOn with
  | nil => exact .inl ⟨rfl, not_lastingIn_nil⟩
  | append_singleton times t ih =>
    have ht := hpos t (by simp)
    simp only [List.foldl_append, List.foldl_cons, List.foldl_nil, lastingIn_concat]
    specialize ih fun t' ht' => hpos t' (by simp [ht'])
    by_cases hzero : t = 0
    · refine .inl ⟨?_, fun d h => h.1 hzero⟩
      rw [earlier]
      split
      next => exact hzero
      next hnot =>
        rw [not_or] at hnot
        omega
    · right
      rcases ih with ⟨hnone, hlasting⟩ | ⟨hfound, hleast⟩
      · rw [hnone, earlier, if_pos (.inl rfl)]
        refine ⟨by omega, ⟨hzero, .inl rfl⟩, ?_⟩
        rintro d ⟨-, rfl | hd⟩
        · exact le_refl _
        · exact absurd hd (hlasting d)
      · rw [earlier]
        split
        next hless =>
          have hless : t < times.foldl earlier 0 := by omega
          refine ⟨by omega, ⟨hzero, .inl rfl⟩, ?_⟩
          rintro d ⟨-, rfl | hd⟩
          · exact le_refl _
          · exact hless.le.trans (hleast.2 hd)
        next hnot =>
          refine ⟨hfound, ⟨hzero, .inr hleast.1⟩, ?_⟩
          rintro d ⟨-, rfl | hd⟩
          · omega
          · exact hleast.2 hd

namespace Loop

variable {C : Type} (loop : Loop C)

def Deadline (d : Int) : Prop :=
  d ≠ 0 ∧ ∃ kind handle entry, kind ≠ .exception ∧ loop.find kind handle = some entry ∧
    entry.timeout = d

/-- No registration has expired, and none is further ahead than the option parser lets it. -/
def Pending (now : Int) : Prop := ∀ d, loop.Deadline d → now < d ∧ d ≤ now + 65535

/-- A deadline of the kind with no deadline-free registration behind it in the map. -/
def Lasting (kind : Kind) (d : Int) : Prop :=
  d ≠ 0 ∧ ∃ handle entry, loop.find kind handle = some entry ∧ entry.timeout = d ∧
    ∀ handle' entry', handle < handle' → loop.find kind handle' = some entry' →
      entry'.timeout ≠ 0

/-- The wait is for ever only without a deadline, and else ends by the first one. -/
def WakesInTime (now milliseconds : Int) : Prop :=
  (milliseconds = -1 → ∀ d, ¬ loop.Deadline d) ∧
    ∀ d, IsLeast {d | loop.Deadline d} d → 0 ≤ milliseconds ∧ milliseconds ≤ (d - now) * 1000

def times (kind : Kind) : List Int := (loop.functions kind).toList.map fun entry => entry.2.timeout

def earliest (kind : Kind) : Int := (loop.times kind).foldl earlier 0

variable {loop}

theorem Lasting.deadline {kind : Kind} {d : Int} (hkind : kind ≠ .exception)
    (h : loop.Lasting kind d) : loop.Deadline d := by
  obtain ⟨hd, handle, entry, hfind, htimeout, -⟩ := h
  exact ⟨hd, kind, handle, entry, hkind, hfind, htimeout⟩

theorem lasting_iff {kind : Kind} {d : Int} :
    loop.Lasting kind d ↔ LastingIn (loop.times kind) d := by
  have hordered := Std.TreeMap.ordered_keys_toList (t := loop.functions kind)
  constructor
  · rintro ⟨hd, handle, entry, hfind, rfl, hlast⟩
    obtain ⟨before, after, hlist⟩ := List.append_of_mem (mem_toList.mpr hfind)
    refine ⟨before.map (·.2.timeout), after.map (·.2.timeout), ?_, hd, ?_⟩
    · rw [times, hlist, List.map_append, List.map_cons]
    · intro t ht
      obtain ⟨⟨handle', entry'⟩, hmem, rfl⟩ := List.mem_map.mp ht
      rw [hlist, List.pairwise_append, List.pairwise_cons] at hordered
      apply hlast handle' entry' (Std.compare_eq_lt.mp (hordered.2.1.1 _ hmem))
      rw [← mem_toList, hlist]
      simp [hmem]
  · rintro ⟨before, after, htimes, hd, hlast⟩
    obtain ⟨first, rest, hlist, -, hrest⟩ := List.map_eq_append_iff.mp htimes
    obtain ⟨⟨handle, entry⟩, behind, rfl, rfl, rfl⟩ := List.map_eq_cons_iff.mp hrest
    refine ⟨hd, handle, entry, ?_, rfl, ?_⟩
    · rw [← mem_toList, hlist]
      simp
    · intro handle' entry' hlt hfind
      rw [← mem_toList, hlist, List.mem_append, List.mem_cons] at hfind
      rw [hlist, List.pairwise_append, List.pairwise_cons] at hordered
      rcases hfind with hmem | heq | hmem
      · have hbefore := Std.compare_eq_lt.mp (hordered.2.2 _ hmem _ (List.mem_cons_self ..))
        exact absurd hbefore (by simpa using hlt.le)
      · cases heq
        exact absurd hlt (lt_irrefl _)
      · exact hlast _ (List.mem_map_of_mem hmem)

theorem sweep_pending {now : Int} (h : loop.Pending now) {kind : Kind} (hkind : kind ≠ .exception)
    (excepted : List Int) :
    loop.sweep now excepted 0 (loop.functions kind).toList = (loop.earliest kind, none) := by
  have hmem : ∀ entry ∈ (loop.functions kind).toList, entry.2.timeout ≠ 0 →
      now < entry.2.timeout := by
    intro entry hentry hne
    exact (h _ ⟨hne, kind, entry.1, entry.2, hkind, mem_toList.mp hentry, rfl⟩).1
  unfold earliest times
  generalize (loop.functions kind).toList = entries at hmem
  generalize (0 : Int) = found
  induction entries generalizing found with
  | nil => rfl
  | cons entry entries ih =>
    obtain ⟨handle, entry⟩ := entry
    have hfirst := hmem (handle, entry) (by simp)
    have hrest := ih fun e he => hmem e (by simp [he])
    have hraise : ¬ (entry.timeout ≠ 0 ∧ entry.timeout ≤ now ∧ handle ∉ excepted ∧
        handle ∈ loop.exceptFunctions) := by
      rintro ⟨hne, hexpired, -⟩
      exact absurd hexpired (not_le.mpr (hfirst hne))
    rw [sweep]
    simp only [hraise, if_false, List.map_cons, List.foldl_cons, hrest]
    unfold earlier
    split
    next => rfl
    next => rfl

theorem earliest_cases {now : Int} (hnow : 0 ≤ now) (h : loop.Pending now) {kind : Kind}
    (hkind : kind ≠ .exception) :
    (loop.earliest kind = 0 ∧ ∀ d, ¬ loop.Lasting kind d) ∨
      (0 < loop.earliest kind ∧ IsLeast {d | loop.Lasting kind d} (loop.earliest kind)) := by
  simp only [lasting_iff]
  apply foldl_earlier
  intro t ht
  obtain ⟨⟨handle, entry⟩, hmem, rfl⟩ := List.mem_map.mp ht
  by_cases hne : entry.timeout = 0
  · exact hne.ge
  · have hahead := (h _ ⟨hne, kind, handle, entry, hkind, mem_toList.mp hmem, rfl⟩).1
    dsimp only
    omega

theorem exists_least {now : Int} (h : loop.Pending now) (hsome : ∃ d, loop.Deadline d) :
    ∃ d, IsLeast {d | loop.Deadline d} d := by
  obtain ⟨d, hd, hleast⟩ := Int.exists_least_of_bdd ⟨now, fun d hd => (h d hd).1.le⟩ hsome
  exact ⟨d, hd, hleast⟩

/-- Whether a deadline is found hangs on the registrations behind it. -/
def Found (loop : Loop C) : Prop :=
  (∃ d, loop.Lasting .read d) ∧ (∃ d, loop.Lasting .write d) ∧
    ∃ d, IsLeast {d | loop.Deadline d} d ∧ (loop.Lasting .read d ∨ loop.Lasting .write d)

theorem pollTimeout_of_eq_zero {now earliestRead earliestWrite : Int} (hread : 0 ≤ earliestRead)
    (hwrite : 0 ≤ earliestWrite) (h : earliestRead = 0 ∨ earliestWrite = 0) :
    pollTimeout now earliestRead earliestWrite = -1 := by
  unfold pollTimeout
  dsimp only
  split
  next => rw [if_pos (by omega)]
  next => rw [if_pos (by omega)]

theorem pollTimeout_of_lt {now earliestRead earliestWrite : Int} (hnow : 0 ≤ now)
    (hread : now < earliestRead) (hwrite : now < earliestWrite) :
    pollTimeout now earliestRead earliestWrite =
      (min earliestRead earliestWrite - now) * 1000 := by
  unfold pollTimeout
  dsimp only
  split
  next hlt => rw [if_neg (by omega), if_neg (by omega), min_eq_left hlt.le]
  next hle => rw [if_neg (by omega), if_neg (by omega), min_eq_right (not_lt.mp hle)]

theorem wakesInTime_iff {now earliestRead earliestWrite : Int} (h : loop.Pending now)
    (hread : IsLeast {d | loop.Lasting .read d} earliestRead)
    (hwrite : IsLeast {d | loop.Lasting .write d} earliestWrite) :
    loop.WakesInTime now ((min earliestRead earliestWrite - now) * 1000) ↔
      ∃ d, IsLeast {d | loop.Deadline d} d ∧ (loop.Lasting .read d ∨ loop.Lasting .write d) := by
  have hreadDeadline : loop.Deadline earliestRead := hread.1.deadline (by decide)
  have hwriteDeadline : loop.Deadline earliestWrite := hwrite.1.deadline (by decide)
  have hreadAhead := (h _ hreadDeadline).1
  have hwriteAhead := (h _ hwriteDeadline).1
  constructor
  · rintro ⟨-, hbound⟩
    obtain ⟨d, hd, hleast⟩ := exists_least h ⟨_, hreadDeadline⟩
    have hle := (hbound d ⟨hd, hleast⟩).2
    have hdRead := hleast hreadDeadline
    have hdWrite := hleast hwriteDeadline
    refine ⟨d, ⟨hd, hleast⟩, ?_⟩
    rcases le_total earliestRead earliestWrite with hmin | hmin
    · rw [min_eq_left hmin] at hle
      obtain rfl : d = earliestRead := by omega
      exact .inl hread.1
    · rw [min_eq_right hmin] at hle
      obtain rfl : d = earliestWrite := by omega
      exact .inr hwrite.1
  · rintro ⟨d, hd, hlasting⟩
    have hle : min earliestRead earliestWrite ≤ d := by
      rcases hlasting with hlasting | hlasting
      · exact (min_le_left _ _).trans (hread.2 hlasting)
      · exact (min_le_right _ _).trans (hwrite.2 hlasting)
    refine ⟨fun heq => by omega, ?_⟩
    intro d' hd'
    rw [hd'.unique hd]
    omega

theorem pollTimeout_iff {now : Int} (hnow : 0 ≤ now) (h : loop.Pending now) :
    loop.WakesInTime now (pollTimeout now (loop.earliest .read) (loop.earliest .write)) ↔
      (∀ d, ¬ loop.Deadline d) ∨ loop.Found := by
  by_cases hsome : ∃ d, loop.Deadline d
  · obtain ⟨d, hd, hleast⟩ := exists_least h hsome
    have hnever : ¬ ∀ d, ¬ loop.Deadline d := fun hnone => hnone d hd
    have hreads := earliest_cases hnow h (show Kind.read ≠ .exception by decide)
    have hwrites := earliest_cases hnow h (show Kind.write ≠ .exception by decide)
    generalize loop.earliest .read = earliestRead at hreads ⊢
    generalize loop.earliest .write = earliestWrite at hwrites ⊢
    by_cases hzero : earliestRead = 0 ∨ earliestWrite = 0
    · have hread : 0 ≤ earliestRead := by rcases hreads with h | h <;> omega
      have hwrite : 0 ≤ earliestWrite := by rcases hwrites with h | h <;> omega
      rw [pollTimeout_of_eq_zero hread hwrite hzero]
      constructor
      · exact fun hwakes => absurd (hwakes.1 rfl) hnever
      · rintro (hnone | ⟨⟨dr, hdr⟩, ⟨dw, hdw⟩, -⟩)
        · exact absurd hnone hnever
        · rcases hreads with ⟨-, hnone⟩ | ⟨hpos, -⟩
          · exact absurd hdr (hnone dr)
          · rcases hwrites with ⟨-, hnone⟩ | ⟨hpos', -⟩
            · exact absurd hdw (hnone dw)
            · omega
    · rw [not_or] at hzero
      have hread := (hreads.resolve_left fun h => hzero.1 h.1).2
      have hwrite := (hwrites.resolve_left fun h => hzero.2 h.1).2
      rw [pollTimeout_of_lt hnow (h _ (hread.1.deadline (by decide))).1
        (h _ (hwrite.1.deadline (by decide))).1, wakesInTime_iff h hread hwrite]
      constructor
      · exact fun hfound => .inr ⟨⟨_, hread.1⟩, ⟨_, hwrite.1⟩, hfound⟩
      · exact fun hfound => (hfound.resolve_left hnever).2.2
  · constructor
    · exact fun _ => .inl fun d hd => hsome ⟨d, hd⟩
    · exact fun _ => ⟨fun _ d hd => hsome ⟨d, hd⟩, fun d hd => absurd ⟨d, hd.1⟩ hsome⟩

end Loop

namespace Machine

variable {σ C : Type} (m : Machine σ C)

/-- `Loop::timeout()` with nothing expired: both maps are searched, and the program
is left alone. -/
theorem timeout_steps {r : Running σ} {tasks : List Task} (htasks : r.tasks = .timeout :: tasks)
    (input first second : Input) (h : (m.loop r.state).Pending input.now) :
    m.step (m.step (m.step r input) first) second =
      { r with
        currentTimeout := Loop.pollTimeout input.now ((m.loop r.state).earliest .read)
          ((m.loop r.state).earliest .write)
        tasks := tasks } := by
  have hread := Loop.sweep_pending h (show Kind.read ≠ .exception by decide) []
  have hwrite := Loop.sweep_pending h (show Kind.write ≠ .exception by decide) []
  have hstart : m.step r input = { r with tasks := .sweepRead input.now [] 0 :: tasks } := by
    unfold step
    rw [htasks]
  have hsearch : m.step { r with tasks := .sweepRead input.now [] 0 :: tasks } first =
      { r with tasks :=
          .sweepWrite input.now ((m.loop r.state).earliest .read) [] 0 :: tasks } := by
    simp only [step, Loop.readFunctions, hread]
  rw [hstart, hsearch]
  simp only [step, Loop.writeFunctions, hwrite]

/-- `poll` is left to wait no longer than to the first deadline exactly when there is
none, or a search of both maps finds it. -/
theorem timeout_wakes_iff {r : Running σ} {tasks : List Task}
    (htasks : r.tasks = .timeout :: tasks) (input first second : Input) (hnow : 0 ≤ input.now)
    (h : (m.loop r.state).Pending input.now) :
    (m.loop r.state).WakesInTime input.now
        (m.step (m.step (m.step r input) first) second).currentTimeout ↔
      (∀ d, ¬ (m.loop r.state).Deadline d) ∨ (m.loop r.state).Found := by
  rw [m.timeout_steps htasks input first second h]
  exact Loop.pollTimeout_iff hnow h

def quiet : Machine (Loop Unit) Unit where
  loop := id
  call _ _ s := s
  call_evolves _ _ _ := .refl

end Machine

def twoSockets (readTimeout writeTimeout : Int) : Loop Unit :=
  (Loop.new.insert .read 3 () readTimeout).insert .write 8 () writeTimeout

section TwoSockets

variable {readTimeout writeTimeout : Int}

theorem find_twoSockets (kind : Kind) (handle : Int) :
    (twoSockets readTimeout writeTimeout).find kind handle =
      if kind = .write ∧ handle = 8 then some ⟨(), writeTimeout, 1⟩
      else if kind = .read ∧ handle = 3 then some ⟨(), readTimeout, 0⟩ else none := by
  unfold twoSockets
  rw [Loop.find_insert, Loop.find_insert]
  congr 2

theorem deadline_twoSockets (d : Int) : (twoSockets readTimeout writeTimeout).Deadline d ↔
    d ≠ 0 ∧ (d = readTimeout ∨ d = writeTimeout) := by
  unfold Loop.Deadline
  simp only [find_twoSockets]
  constructor
  · rintro ⟨hd, kind, handle, entry, -, hfind, rfl⟩
    refine ⟨hd, ?_⟩
    split at hfind
    next =>
      cases hfind
      exact .inr rfl
    next =>
      split at hfind
      next =>
        cases hfind
        exact .inl rfl
      next => contradiction
  · rintro ⟨hd, rfl | rfl⟩
    · exact ⟨hd, .read, 3, _, by decide, rfl, rfl⟩
    · exact ⟨hd, .write, 8, _, by decide, rfl, rfl⟩

end TwoSockets

namespace Machine

theorem timeout_wakes_twoSockets : (twoSockets 1005 1010).WakesInTime 1000
    (quiet.step (quiet.step (quiet.step (start (twoSockets 1005 1010)) ⟨1000, none⟩)
      ⟨1000, none⟩) ⟨1000, none⟩).currentTimeout := by
  have hpending : (twoSockets 1005 1010).Pending 1000 := by
    intro d hd
    rw [deadline_twoSockets] at hd
    omega
  have hread : (twoSockets 1005 1010).Lasting .read 1005 := by
    refine ⟨by decide, 3, _, rfl, rfl, ?_⟩
    intro handle' entry' hlt hfind
    rw [find_twoSockets, if_neg (by simp), if_neg (by omega)] at hfind
    contradiction
  have hwrite : (twoSockets 1005 1010).Lasting .write 1010 := by
    refine ⟨by decide, 8, _, rfl, rfl, ?_⟩
    intro handle' entry' hlt hfind
    rw [find_twoSockets, if_neg (by omega), if_neg (by simp)] at hfind
    contradiction
  have hleast : IsLeast {d | (twoSockets 1005 1010).Deadline d} 1005 := by
    constructor
    · exact (deadline_twoSockets 1005).mpr (by decide)
    · intro d hd
      have hd := (deadline_twoSockets d).mp hd
      omega
  exact (quiet.timeout_wakes_iff (r := start (twoSockets 1005 1010)) rfl ⟨1000, none⟩
    ⟨1000, none⟩ ⟨1000, none⟩ (by decide) hpending).mpr
      (.inr ⟨⟨1005, hread⟩, ⟨1010, hwrite⟩, 1005, hleast, .inl hread⟩)

/-- A reader without a deadline, as the server has, and a connection that waits to
write until 1005: `poll` is left to wait for ever. -/
theorem timeout_not_wakes :
    (twoSockets 0 1005).Pending 1000 ∧ (twoSockets 0 1005).Deadline 1005 ∧
      (quiet.step (quiet.step (quiet.step (start (twoSockets 0 1005)) ⟨1000, none⟩)
        ⟨1000, none⟩) ⟨1000, none⟩).currentTimeout = -1 ∧
      ¬ (twoSockets 0 1005).WakesInTime 1000
        (quiet.step (quiet.step (quiet.step (start (twoSockets 0 1005)) ⟨1000, none⟩)
          ⟨1000, none⟩) ⟨1000, none⟩).currentTimeout := by
  have hdeadline : (twoSockets 0 1005).Deadline 1005 := by
    rw [deadline_twoSockets]
    decide
  refine ⟨?_, hdeadline, rfl, fun hwakes => hwakes.1 rfl 1005 hdeadline⟩
  intro d hd
  rw [deadline_twoSockets] at hd
  omega

end Machine

end Dote
