import Dote.Loop.Machine

/-! The pass of `Loop::timeout` over the expired registrations, with handlers that
change the maps while it runs. -/
namespace Dote

def Entry.Expired {C : Type} (entry : Entry C) (now : Int) : Prop :=
  entry.timeout ≠ 0 ∧ entry.timeout ≤ now

instance {C : Type} (entry : Entry C) (now : Int) : Decidable (entry.Expired now) :=
  inferInstanceAs (Decidable (_ ∧ _))

namespace Loop

variable {C : Type}

/-- The entries of a handle are all from before, or there is none of them that has
expired. -/
def Renews (now : Int) (before after : Loop C) (handle : Int) : Prop :=
  (∀ kind entry, after.find kind handle = some entry → before.find kind handle = some entry) ∨
    ∀ kind entry, after.find kind handle = some entry → ¬ entry.Expired now

/-- What an exception handler may do: remove any registrations, and make new ones, with
a later deadline or none, for handles that have none left from before. -/
inductive Handling (now : Int) (before : Loop C) : Loop C → Prop
  | refl : Handling now before before
  | remove {loop : Loop C} (kind : Kind) (handle : Int) : Handling now before loop →
      Handling now before (loop.remove kind handle)
  | insert {loop : Loop C} (kind : Kind) (handle : Int) (callback : C) (timeout : Int) :
      Handling now before loop →
      (∀ other entry, loop.find other handle = some entry → before.nextSerial ≤ entry.serial) →
      (timeout = 0 ∨ now < timeout) →
      Handling now before (loop.insert kind handle callback timeout)

structure Deregisters (now : Int) (handle : Int) (before after : Loop C) : Prop where
  handling : Handling now before after
  own : ∀ kind entry, after.find kind handle = some entry → before.nextSerial ≤ entry.serial

structure Handled (now : Int) (handle : Int) (before after : Loop C) : Prop where
  own : ∀ kind entry, after.find kind handle = some entry → ¬ entry.Expired now
  renews : ∀ other, Renews now before after other

/-- The entries that a handle has are all from before, or all from the handler. -/
def OldOrNew (now : Int) (before after : Loop C) (handle : Int) : Prop :=
  (∀ kind entry, after.find kind handle = some entry → before.find kind handle = some entry) ∨
    ∀ kind entry, after.find kind handle = some entry →
      before.nextSerial ≤ entry.serial ∧ ¬ entry.Expired now

theorem OldOrNew.remove {now : Int} {before loop : Loop C} {handle : Int}
    (h : OldOrNew now before loop handle) (kind : Kind) (k : Int) :
    OldOrNew now before (loop.remove kind k) handle := by
  have hremove : ∀ other entry, (loop.remove kind k).find other handle = some entry →
      loop.find other handle = some entry := by
    intro other entry hfind
    rw [find_remove] at hfind
    split at hfind
    next => contradiction
    next => exact hfind
  cases h with
  | inl hold => exact .inl fun other entry hfind => hold other entry (hremove other entry hfind)
  | inr hnew => exact .inr fun other entry hfind => hnew other entry (hremove other entry hfind)

theorem OldOrNew.insert {now : Int} {before loop : Loop C} {handle : Int}
    (h : OldOrNew now before loop handle) (hle : before.nextSerial ≤ loop.nextSerial) (kind : Kind)
    (callback : C) {timeout : Int}
    (hleft : ∀ other entry, loop.find other handle = some entry →
      before.nextSerial ≤ entry.serial)
    (hlater : timeout = 0 ∨ now < timeout) :
    OldOrNew now before (loop.insert kind handle callback timeout) handle := by
  right
  intro other entry hfind
  rw [find_insert] at hfind
  split at hfind
  next =>
    cases hfind
    refine ⟨hle, ?_⟩
    rintro ⟨hne, hle⟩
    dsimp only at hne hle
    omega
  next =>
    refine ⟨hleft other entry hfind, ?_⟩
    cases h with
    | inl hold =>
      have hlt := find_serial_lt (hold other entry hfind)
      have hle := hleft other entry hfind
      omega
    | inr hnew => exact (hnew other entry hfind).2

theorem Handling.serial_le {now : Int} {before after : Loop C} (h : Handling now before after) :
    before.nextSerial ≤ after.nextSerial := by
  induction h with
  | refl => exact Nat.le_refl _
  | remove kind handle _ ih => exact ih
  | insert kind handle callback timeout _ _ _ ih =>
    rw [nextSerial_insert]
    omega

theorem Handling.old_or_new {now : Int} {before after : Loop C} (h : Handling now before after) :
    ∀ handle, OldOrNew now before after handle := by
  induction h with
  | refl => exact fun _ => .inl fun _ _ h => h
  | remove kind k _ ih => exact fun handle => (ih handle).remove kind k
  | @insert loop kind k callback timeout hhandling hleft hlater ih =>
    intro handle
    by_cases hk : handle = k
    · subst hk
      exact (ih handle).insert hhandling.serial_le kind callback hleft hlater
    · have hother : ∀ other, (loop.insert kind k callback timeout).find other handle =
          loop.find other handle := by
        intro other
        rw [find_insert, if_neg (fun h => hk h.2)]
      unfold OldOrNew
      simp only [hother]
      exact ih handle

theorem Deregisters.handled {now handle : Int} {before after : Loop C}
    (h : Deregisters now handle before after) : Handled now handle before after where
  own kind entry hfind := by
    cases h.handling.old_or_new handle with
    | inl hold =>
      have hlt := find_serial_lt (hold kind entry hfind)
      have hle := h.own kind entry hfind
      omega
    | inr hnew => exact (hnew kind entry hfind).2
  renews other := (h.handling.old_or_new other).imp_right fun hnew kind entry hfind =>
    (hnew kind entry hfind).2

/-- No registration of the kind has expired that has an exception handler. -/
def Done (kind : Kind) (now : Int) (loop : Loop C) : Prop :=
  ∀ handle entry, loop.find kind handle = some entry → entry.Expired now →
    handle ∉ loop.exceptFunctions

def expired (loop : Loop C) (kind : Kind) (now : Int) : Finset Int :=
  (((loop.functions kind).toList.filter fun entry => entry.2.Expired now).map Prod.fst).toFinset

def Fresh (now : Int) (loop : Loop C) (handles : List Int) : Prop :=
  ∀ handle ∈ handles, ∀ kind entry, loop.find kind handle = some entry → ¬ entry.Expired now

theorem mem_expired {loop : Loop C} {kind : Kind} {now handle : Int} :
    handle ∈ loop.expired kind now ↔
      ∃ entry, loop.find kind handle = some entry ∧ entry.Expired now := by
  unfold expired
  simp only [List.mem_toFinset, List.mem_map, List.mem_filter, decide_eq_true_eq]
  constructor
  · rintro ⟨⟨handle, entry⟩, ⟨hmem, hexpired⟩, rfl⟩
    exact ⟨entry, mem_toList.mp hmem, hexpired⟩
  · rintro ⟨entry, hfind, hexpired⟩
    exact ⟨(handle, entry), ⟨mem_toList.mpr hfind, hexpired⟩, rfl⟩

section Handled

variable {now handle : Int} {before after : Loop C} (h : Handled now handle before after)
include h

theorem Handled.expired_subset (kind : Kind) :
    after.expired kind now ⊆ before.expired kind now := by
  intro other hother
  obtain ⟨entry, hfind, hexpired⟩ := mem_expired.mp hother
  cases h.renews other with
  | inl hold => exact mem_expired.mpr ⟨entry, hold kind entry hfind, hexpired⟩
  | inr hnew => exact absurd hexpired (hnew kind entry hfind)

theorem Handled.fresh {handles : List Int} (hfresh : before.Fresh now handles) :
    after.Fresh now (handles ++ [handle]) := by
  intro other hother kind entry hfind
  rw [List.mem_append, List.mem_singleton] at hother
  cases hother with
  | inl hother =>
    cases h.renews other with
    | inl hold => exact hfresh other hother kind entry (hold kind entry hfind)
    | inr hnew => exact hnew kind entry hfind
  | inr hown =>
    rw [hown] at hfind
    exact h.own kind entry hfind

theorem Handled.done {kind : Kind} (hdone : before.Done kind now) : after.Done kind now := by
  intro other entry hfind hexpired hexcept
  cases h.renews other with
  | inl hold =>
    apply hdone other entry (hold kind entry hfind) hexpired
    unfold exceptFunctions at hexcept ⊢
    rw [mem_functions_iff] at hexcept ⊢
    obtain ⟨handler, hhandler⟩ := Option.isSome_iff_exists.mp hexcept
    rw [hold .exception handler hhandler]
    rfl
  | inr hnew => exact hnew kind entry hfind hexpired

end Handled

end Loop

namespace Machine
open Library.Run

variable {σ C : Type} (m : Machine σ C)

/-- The pass over the map of a kind: what has been raised, and the state, when it
begins and when nothing more is found. -/
inductive Pass (kind : Kind) (now : Int) : List Int → Int → σ → List Int → Int → σ → Prop
  | done {excepted : List Int} {earliest : Int} {s : σ} {earliest' : Int} :
      (m.loop s).sweep now excepted earliest ((m.loop s).functions kind).toList =
        (earliest', none) → Pass kind now excepted earliest s excepted earliest' s
  | raise {excepted excepted' : List Int} {earliest earliest' earliest'' handle : Int} {s s' : σ} :
      (m.loop s).sweep now excepted earliest ((m.loop s).functions kind).toList =
        (earliest', some handle) →
      Pass kind now (excepted ++ [handle]) earliest' (m.raiseException handle s).2
        excepted' earliest'' s' →
      Pass kind now excepted earliest s excepted' earliest'' s'

variable {m} {kind : Kind} {now : Int}

theorem exists_pass (bound : σ → Finset Int)
    (hfound : ∀ s excepted earliest earliest' handle,
      (m.loop s).sweep now excepted earliest ((m.loop s).functions kind).toList =
        (earliest', some handle) → handle ∈ bound s)
    (hraise : ∀ s handle, handle ∈ (m.loop s).exceptFunctions →
      bound (m.raiseException handle s).2 ⊆ bound s) (count : Nat) :
    ∀ (excepted : List Int) (earliest : Int) (s : σ),
      (bound s \ excepted.toFinset).card < count →
        ∃ excepted' earliest' s', m.Pass kind now excepted earliest s excepted' earliest' s' := by
  induction count with
  | zero =>
    intro excepted earliest s hcount
    omega
  | succ count ih =>
    intro excepted earliest s hcount
    cases hsweep : (m.loop s).sweep now excepted earliest ((m.loop s).functions kind).toList with
    | mk earliest' found =>
      cases found with
      | none => exact ⟨excepted, earliest', s, .done hsweep⟩
      | some handle =>
        have hbound := hfound s excepted earliest earliest' handle hsweep
        obtain ⟨-, -, -, -, hnew, hexcept⟩ := Loop.sweep_eq_some (congrArg Prod.snd hsweep)
        have hmem : handle ∈ bound s \ excepted.toFinset := by simp [hbound, hnew]
        have hless : bound (m.raiseException handle s).2 \ (excepted ++ [handle]).toFinset ⊆
            (bound s \ excepted.toFinset).erase handle := by
          intro other hother
          simp only [List.toFinset_append, Finset.mem_sdiff, Finset.mem_union, List.mem_toFinset,
            List.mem_singleton, not_or, Finset.mem_erase] at hother ⊢
          exact ⟨hother.2.2, hraise s handle hexcept hother.1, hother.2.1⟩
        have hcard := Finset.card_le_card hless
        have hpos := Finset.card_pos.mpr ⟨handle, hmem⟩
        rw [Finset.card_erase_of_mem hmem] at hcard
        obtain ⟨excepted', earliest'', s', hpass⟩ :=
          ih (excepted ++ [handle]) earliest' (m.raiseException handle s).2 (by omega)
        exact ⟨excepted', earliest'', s', .raise hsweep hpass⟩

/-- Every exception handler of the machine removes what its own handle had. -/
def HandlersDeregister (m : Machine σ C) (now : Int) : Prop :=
  ∀ s handle, handle ∈ (m.loop s).exceptFunctions →
    Loop.Deregisters now handle (m.loop s) (m.loop (m.raiseException handle s).2)

/-- What is raised in a pass was not raised before and is not raised again, and has
no registration left that has expired. -/
theorem Pass.keeps (hhandlers : HandlersDeregister m now) {excepted excepted' : List Int}
    {earliest earliest' : Int} {s s' : σ}
    (h : m.Pass kind now excepted earliest s excepted' earliest' s') (past : List Int)
    (hnodup : (past ++ excepted).Nodup) (hfresh : (m.loop s).Fresh now (past ++ excepted)) :
    (past ++ excepted').Nodup ∧ (m.loop s').Fresh now (past ++ excepted') ∧
      (m.loop s').Done kind now ∧
      ∀ other, (m.loop s).Done other now → (m.loop s').Done other now := by
  induction h with
  | @done excepted earliest s earliest' hsweep =>
    refine ⟨hnodup, hfresh, ?_, fun _ h => h⟩
    intro handle entry hfind hexpired
    have hnone := Loop.sweep_eq_none (congrArg Prod.snd hsweep)
    apply hnone handle entry (Loop.mem_toList.mpr hfind) hexpired.1 hexpired.2
    intro hmem
    exact hfresh handle (List.mem_append_right _ hmem) kind entry hfind hexpired
  | @raise excepted excepted' earliest earliest' earliest'' handle s s' hsweep _ ih =>
    obtain ⟨entry, hmem, hne, hle, hnew, hexcept⟩ :=
      Loop.sweep_eq_some (congrArg Prod.snd hsweep)
    have hhandled := (hhandlers s handle hexcept).handled
    have hfind := Loop.mem_toList.mp hmem
    have hpast : handle ∉ past ++ excepted := fun h => hfresh handle h kind entry hfind ⟨hne, hle⟩
    have hnext := ih (by
      rw [← List.append_assoc, List.nodup_append]
      refine ⟨hnodup, List.nodup_singleton _, ?_⟩
      rintro a ha b hb rfl
      exact hpast (List.mem_singleton.mp hb ▸ ha)) (by
      rw [← List.append_assoc]
      exact hhandled.fresh hfresh)
    exact ⟨hnext.1, hnext.2.1, hnext.2.2.1, fun other hother =>
      hnext.2.2.2 other (hhandled.done hother)⟩

theorem Pass.steps {excepted excepted' : List Int} {earliest earliest' : Int} {s s' : σ}
    (h : m.Pass kind now excepted earliest s excepted' earliest' s')
    (task : List Int → Int → List Task) (finish : Running σ → Int → Running σ)
    (hfinish : ∀ r tasks earliest, finish { r with tasks := tasks } earliest = finish r earliest)
    (hstep : ∀ (r : Running σ) excepted earliest found input, r.tasks = task excepted earliest →
      (m.loop r.state).sweep now excepted earliest
        ((m.loop r.state).functions kind).toList = found →
      m.step r input = found.2.elim (finish r found.1) (fun handle =>
        { r with
          state := (m.raiseException handle r.state).2
          tasks := task (excepted ++ [handle]) found.1 }) ∧
      m.calls r = found.2.map (.exception, ·)) :
    ∀ r : Running σ, r.state = s → r.tasks = task excepted earliest →
      ∃ raised, excepted' = excepted ++ raised ∧
        ∀ inputs : List Input, inputs.length = raised.length + 1 →
          run m.step r inputs = finish { r with state := s' } earliest' ∧
          trace m.step (fun r _ => (m.calls r).toList) r inputs =
            raised.map (.exception, ·) := by
  induction h with
  | @done excepted earliest s earliest' hsweep =>
    rintro r rfl htasks
    refine ⟨[], (List.append_nil _).symm, ?_⟩
    intro inputs hlength
    obtain ⟨input, rfl⟩ := List.length_eq_one_iff.mp hlength
    obtain ⟨hnext, hcalls⟩ := hstep r excepted earliest _ input htasks hsweep
    rw [run_cons, run_nil, hnext, trace, hcalls]
    exact ⟨rfl, rfl⟩
  | @raise excepted excepted' earliest earliest' earliest'' handle s s' hsweep _ ih =>
    rintro r rfl htasks
    obtain ⟨raised, rfl, hrest⟩ := ih
      { r with
        state := (m.raiseException handle r.state).2
        tasks := task (excepted ++ [handle]) earliest' } rfl rfl
    refine ⟨handle :: raised, by rw [List.append_assoc]; rfl, ?_⟩
    intro inputs hlength
    cases inputs with
    | nil => contradiction
    | cons input inputs =>
      obtain ⟨hnext, hcalls⟩ := hstep r excepted earliest _ input htasks hsweep
      obtain ⟨hrun, htrace⟩ := hrest inputs (by simpa using hlength)
      rw [run_cons, hnext, trace, hcalls, hnext]
      refine ⟨hrun.trans (hfinish { r with state := s' } _ _), ?_⟩
      exact congrArg _ htrace

section Steps

variable {excepted excepted' : List Int} {earliest earliest' earliestRead : Int} {s s' : σ}
  {tasks : List Task}

theorem Pass.steps_read (h : m.Pass .read now excepted earliest s excepted' earliest' s')
    (r : Running σ) (hstate : r.state = s)
    (htasks : r.tasks = .sweepRead now excepted earliest :: tasks) :
    ∃ raised, excepted' = excepted ++ raised ∧
      ∀ inputs : List Input, inputs.length = raised.length + 1 →
        run m.step r inputs =
          { r with state := s', tasks := .sweepWrite now earliest' [] 0 :: tasks } ∧
        trace m.step (fun r _ => (m.calls r).toList) r inputs =
          raised.map (.exception, ·) := by
  refine h.steps (fun excepted earliest => .sweepRead now excepted earliest :: tasks)
    (fun r earliest => { r with tasks := .sweepWrite now earliest [] 0 :: tasks })
    (fun _ _ _ => rfl) ?_ r hstate htasks
  intro r excepted earliest found input htasks hsweep
  refine ⟨m.step_sweepRead htasks hsweep input, ?_⟩
  rw [← hsweep]
  simp only [calls, htasks]
  rfl

theorem Pass.steps_write (h : m.Pass .write now excepted earliest s excepted' earliest' s')
    (r : Running σ) (hstate : r.state = s)
    (htasks : r.tasks = .sweepWrite now earliestRead excepted earliest :: tasks) :
    ∃ raised, excepted' = excepted ++ raised ∧
      ∀ inputs : List Input, inputs.length = raised.length + 1 →
        run m.step r inputs =
          { r with
            state := s'
            currentTimeout := Loop.pollTimeout now earliestRead earliest'
            tasks := tasks } ∧
        trace m.step (fun r _ => (m.calls r).toList) r inputs =
          raised.map (.exception, ·) := by
  refine h.steps (fun excepted earliest => .sweepWrite now earliestRead excepted earliest :: tasks)
    (fun r earliest =>
      { r with currentTimeout := Loop.pollTimeout now earliestRead earliest, tasks := tasks })
    (fun _ _ _ => rfl) ?_ r hstate htasks
  intro r excepted earliest found input htasks hsweep
  refine ⟨m.step_sweepWrite htasks hsweep input, ?_⟩
  rw [← hsweep]
  simp only [calls, htasks]
  rfl

end Steps

theorem exists_split {α : Type} {items : List α} {a b : Nat} (h : items.length = a + b) :
    ∃ first second, items = first ++ second ∧ first.length = a ∧ second.length = b := by
  refine ⟨items.take a, items.drop a, (List.take_append_drop a items).symm, ?_, ?_⟩
  · rw [List.length_take]
    omega
  · rw [List.length_drop]
    omega

theorem steps_timeout {excepted excepted' : List Int} {earliest earliest' : Int} {s s' : σ}
    {r : Running σ} {tasks : List Task} {input : Input} (htasks : r.tasks = .timeout :: tasks)
    (hread : m.Pass .read input.now [] 0 r.state excepted earliest s)
    (hwrite : m.Pass .write input.now [] 0 s excepted' earliest' s') :
    ∀ inputs : List Input, inputs.length = excepted.length + 1 + (excepted'.length + 1) →
      (run m.step (m.step r input) inputs).tasks = tasks ∧
      (run m.step (m.step r input) inputs).state = s' ∧
      trace m.step (fun r _ => (m.calls r).toList) (m.step r input) inputs =
        (excepted ++ excepted').map (.exception, ·) := by
  intro inputs hlength
  have hstart : m.step r input = { r with tasks := .sweepRead input.now [] 0 :: tasks } := by
    simp only [step, htasks]
  rw [hstart]
  obtain ⟨first, second, rfl, hfirst, hsecond⟩ := exists_split hlength
  obtain ⟨raised, hraised, hsteps⟩ := hread.steps_read
    { r with tasks := .sweepRead input.now [] 0 :: tasks } rfl rfl
  obtain ⟨raised', hraised', hsteps'⟩ := hwrite.steps_write
    { r with state := s, tasks := .sweepWrite input.now earliest [] 0 :: tasks } rfl rfl
  rw [List.nil_append] at hraised hraised'
  obtain ⟨hrun, htrace⟩ := hsteps first (by rw [hfirst, hraised])
  obtain ⟨hrun', htrace'⟩ := hsteps' second (by rw [hsecond, hraised'])
  rw [run_append, trace_append, hrun, htrace, hrun', htrace', hraised, hraised', List.map_append]
  exact ⟨rfl, rfl, rfl⟩

theorem HandlersDeregister.exists_pass (h : HandlersDeregister m now) (kind : Kind) (s : σ) :
    ∃ excepted earliest s', m.Pass kind now [] 0 s excepted earliest s' := by
  refine Machine.exists_pass (fun s => (m.loop s).expired kind now) ?_ ?_ _ [] 0 s
    (Nat.lt_succ_self _)
  · intro s excepted earliest earliest' handle hsweep
    obtain ⟨entry, hmem, hne, hle, -⟩ := Loop.sweep_eq_some (congrArg Prod.snd hsweep)
    exact Loop.mem_expired.mpr ⟨entry, Loop.mem_toList.mp hmem, hne, hle⟩
  · exact fun s handle hexcept => (h s handle hexcept).handled.expired_subset kind

theorem exists_pass_of_range {range : Finset Int}
    (hrange : ∀ s kind handle, handle ∈ (m.loop s).functions kind → handle ∈ range) (kind : Kind)
    (s : σ) : ∃ excepted earliest s', m.Pass kind now [] 0 s excepted earliest s' := by
  refine exists_pass (fun _ => range) ?_ (fun _ _ _ => Finset.Subset.refl _) _ [] 0 s
    (Nat.lt_succ_self _)
  intro s excepted earliest earliest' handle hsweep
  obtain ⟨entry, hmem, -⟩ := Loop.sweep_eq_some (congrArg Prod.snd hsweep)
  apply hrange s kind handle
  rw [Loop.mem_functions_iff, Loop.mem_toList.mp hmem]
  rfl

/-- The pass ends; it calls no handler twice, and leaves no registration that has
expired for a handle with an exception handler. With any handlers it ends too, when
the handles are of a finite range. -/
theorem timeout_ends (r : Running σ) (tasks : List Task) (input : Input)
    (htasks : r.tasks = .timeout :: tasks) :
    (HandlersDeregister m input.now →
      ∃ raised : List Int, raised.Nodup ∧ ∃ count, ∀ inputs : List Input, inputs.length = count →
        (run m.step (m.step r input) inputs).tasks = tasks ∧
        trace m.step (fun r _ => (m.calls r).toList) (m.step r input) inputs =
          raised.map (.exception, ·) ∧
        (m.loop (run m.step (m.step r input) inputs).state).Done .read input.now ∧
        (m.loop (run m.step (m.step r input) inputs).state).Done .write input.now) ∧
    ∀ range : Finset Int, (∀ s kind handle, handle ∈ (m.loop s).functions kind → handle ∈ range) →
      ∃ count, ∀ inputs : List Input, inputs.length = count →
        (run m.step (m.step r input) inputs).tasks = tasks := by
  constructor
  · intro hhandlers
    obtain ⟨excepted, earliest, s, hread⟩ := hhandlers.exists_pass .read r.state
    obtain ⟨excepted', earliest', s', hwrite⟩ := hhandlers.exists_pass .write s
    obtain ⟨hnodup, hfresh, hdone, -⟩ := hread.keeps hhandlers [] (by simp)
      (by simp [Loop.Fresh])
    rw [List.nil_append] at hnodup hfresh
    obtain ⟨hnodup', -, hdone', hkept⟩ := hwrite.keeps hhandlers excepted
      (by rwa [List.append_nil]) (by rwa [List.append_nil])
    refine ⟨excepted ++ excepted', hnodup', excepted.length + 1 + (excepted'.length + 1),
      fun inputs hlength => ?_⟩
    obtain ⟨htasks', hstate, htrace⟩ := steps_timeout htasks hread hwrite inputs hlength
    rw [hstate]
    exact ⟨htasks', htrace, hkept .read hdone, hdone'⟩
  · intro range hrange
    obtain ⟨excepted, earliest, s, hread⟩ := exists_pass_of_range hrange .read r.state
    obtain ⟨excepted', earliest', s', hwrite⟩ := exists_pass_of_range hrange .write s
    exact ⟨excepted.length + 1 + (excepted'.length + 1),
      fun inputs hlength => (steps_timeout htasks hread hwrite inputs hlength).1⟩

/-- Handlers that remove what their own handle has, and do nothing else. -/
def expiring : Machine (Loop Unit) Unit where
  loop s := s
  call _ handle s := ((s.remove .read handle).remove .write handle).remove .exception handle
  call_evolves _ handle _ :=
    .remove .exception handle (.remove .write handle (.remove .read handle .refl))

/-- Handlers that do nothing, in a loop with one handle, which expires at 5. -/
def idle : Machine Unit Unit where
  loop _ := (Loop.new.insert .read 3 () 5).insert .exception 3 () 0
  call _ _ s := s
  call_evolves _ _ _ := .refl

theorem expiring_deregisters (now : Int) : HandlersDeregister expiring now := by
  intro s handle hexcept
  have hfind : ∃ entry, s.find .exception handle = some entry := by
    unfold Loop.exceptFunctions at hexcept
    rw [Loop.mem_functions_iff] at hexcept
    exact Option.isSome_iff_exists.mp hexcept
  obtain ⟨entry, hentry⟩ := hfind
  have hraise : (expiring.raiseException handle s).2 =
      ((s.remove .read handle).remove .write handle).remove .exception handle := by
    simp only [raiseException, expiring, hentry]
  constructor
  · rw [hraise]
    exact .remove .exception handle (.remove .write handle (.remove .read handle .refl))
  · intro kind entry hafter
    rw [hraise] at hafter
    change (((s.remove .read handle).remove .write handle).remove .exception handle).find
      kind handle = some entry at hafter
    simp only [Loop.find_remove] at hafter
    cases kind with
    | read => simp at hafter
    | write => simp at hafter
    | exception => simp at hafter

theorem timeout_ends_expiring :
    (∃ raised : List Int, raised.Nodup ∧ ∃ count, ∀ inputs : List Input, inputs.length = count →
      trace expiring.step (fun r _ => (expiring.calls r).toList)
        (expiring.step ⟨idle.loop (), [], 0, [.timeout, .poll]⟩ ⟨9, none⟩) inputs =
          raised.map (.exception, ·)) ∧
    ∃ count, ∀ inputs : List Input, inputs.length = count →
      (run idle.step (idle.step ⟨(), [], 0, [.timeout, .poll]⟩ ⟨9, none⟩) inputs).tasks =
        [.poll] := by
  constructor
  · obtain ⟨raised, hnodup, count, h⟩ :=
      (timeout_ends (m := expiring) ⟨idle.loop (), [], 0, [.timeout, .poll]⟩ [.poll] ⟨9, none⟩
        rfl).1 (expiring_deregisters 9)
    exact ⟨raised, hnodup, count, fun inputs hlength => (h inputs hlength).2.1⟩
  · have hrange : ∀ (s : Unit) kind handle, handle ∈ (idle.loop s).functions kind →
        handle ∈ ({3} : Finset Int) := by
      intro s kind handle hmem
      simp only [idle, Loop.mem_insert_iff] at hmem
      rw [Finset.mem_singleton]
      obtain ⟨-, h⟩ | ⟨-, h⟩ | h := hmem
      · exact h
      · exact h
      · simp [Loop.new] at h
    exact (timeout_ends (m := idle) ⟨(), [], 0, [.timeout, .poll]⟩ [.poll] ⟨9, none⟩ rfl).2
      {3} hrange

end Machine

end Dote
