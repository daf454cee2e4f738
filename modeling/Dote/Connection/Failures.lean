import Dote.Config.FailureOrder
import Dote.Connection.Handlers

/-! The reports of bad forwarders against the connections: who was connected to, and
who was reported for it. -/
namespace Dote
open Config Library.Run

namespace Shared

def choice (shared : Shared) : Op → List Forwarder
  | .create => shared.config.get.toList
  | _ => []

def Op.load : Op → Option (List Forwarder)
  | .setForwarders forwarders => some forwarders
  | _ => none

/-- The list that was configured last, and the reports since. -/
def note : List Forwarder × List Forwarder → Op → List Forwarder × List Forwarder
  | _, .setForwarders forwarders => (forwarders, [])
  | (configured, reports), .setBad bad => (configured, reports ++ [bad])
  | noted, _ => noted

/-- Of the list that was configured last, any other one has been reported since the chosen
one was, or neither has been and the chosen one comes first. -/
def LeastRecent (configured : List Forwarder) (history : List Op) (chosen : Forwarder) : Prop :=
  let noted := run note (configured, []) history
  chosen ∈ noted.1 ∧ ∀ other ∈ noted.1, other ≠ chosen →
    (∃ earlier later, noted.2 = earlier ++ later ∧ ForwarderConfig.Reported later other ∧
      ¬ ForwarderConfig.Reported later chosen) ∨
    (¬ ForwarderConfig.Reported noted.2 chosen ∧ ¬ ForwarderConfig.Reported noted.2 other ∧
      [chosen, other].Sublist noted.1)

theorem run_note (history : List Op) :
    ∀ (shared : Shared) (noted : List Forwarder × List Forwarder),
      shared.config.forwarders = (ForwarderConfig.report ⟨noted.1, 0⟩ noted.2).forwarders →
      (run apply shared history).config.forwarders =
        (ForwarderConfig.report ⟨(run note noted history).1, 0⟩
          (run note noted history).2).forwarders := by
  induction history with
  | nil => exact fun _ _ h => h
  | cons op history ih =>
    intro shared noted h
    refine ih (shared.apply op) (note noted op) ?_
    cases op with
    | create =>
      unfold apply
      dsimp only
      split <;> exact h
    | cacheSession session => exact h
    | setBad bad =>
      rw [ForwarderConfig.report_forwarders] at h ⊢
      change Library.demote Forwarder.remote shared.config.forwarders bad.remote = _
      rw [h, note, List.map_append, List.foldl_append]
      rfl
    | setForwarders forwarders =>
      change (forwarders.foldl ForwarderConfig.addForwarder shared.config.clear).forwarders = _
      rw [ForwarderConfig.foldl_addForwarder]
      rfl

theorem note_configured (history : List Op) : ∀ noted : List Forwarder × List Forwarder,
    (run note noted history).1 = noted.1 ∨
      (run note noted history).1 ∈ history.filterMap Op.load := by
  induction history with
  | nil => exact fun _ => .inl rfl
  | cons op history ih =>
    intro noted
    have hrest : (run note (note noted op) history).1 ∈ history.filterMap Op.load →
        (run note (note noted op) history).1 ∈ (op :: history).filterMap Op.load := by
      rw [List.filterMap_cons]
      cases op with
      | setForwarders forwarders => exact fun h => List.mem_cons_of_mem _ h
      | _ => exact fun h => h
    rcases ih (note noted op) with hsame | hload
    · rw [run_cons]
      cases op with
      | setForwarders forwarders => exact .inr (by rw [hsame]; exact List.mem_cons_self)
      | _ => exact .inl hsame
    · exact .inr (hrest hload)

end Shared

namespace Sharing

/-- The forwarders of the connections that were made, one after the other. -/
def chosen (s : Sharing) : List Forwarder :=
  trace Shared.apply Shared.choice (.new s.initial) s.history

def reported (s : Sharing) (forwarder : Forwarder) : Nat := s.history.count (.setBad forwarder)

def loads (s : Sharing) : List (List Forwarder) := s.history.filterMap Shared.Op.load

theorem chosen_apply (s : Sharing) (op : Shared.Op) :
    (s.apply op).chosen = s.chosen ++ s.state.choice op := by
  rw [chosen, chosen, s.state_eq]
  change trace _ _ _ (s.history ++ [op]) = _
  rw [trace_append, trace, trace, List.append_nil]
  rfl

theorem reported_apply (s : Sharing) (op : Shared.Op) (forwarder : Forwarder) :
    (s.apply op).reported forwarder =
      s.reported forwarder + if op = .setBad forwarder then 1 else 0 := by
  change (s.history ++ [op]).count _ = _
  rw [List.count_append, List.count_singleton, reported]
  simp only [beq_iff_eq]

theorem loads_apply (s : Sharing) (op : Shared.Op) :
    (s.apply op).loads = s.loads ++ op.load.toList := by
  change (s.history ++ [op]).filterMap _ = _
  rw [List.filterMap_append, loads]
  cases op <;> rfl

end Sharing

namespace World

def chosen (w : World) : List Forwarder := w.sharing.chosen

def reported (w : World) (forwarder : Forwarder) : Nat := w.sharing.reported forwarder

def loads (w : World) : List (List Forwarder) := w.sharing.loads

theorem sharing_openHandle (env : Env) (w : World) : (w.openHandle env).2.sharing = w.sharing := by
  unfold openHandle
  split
  next => split <;> rfl
  next => rfl

end World

def ForwarderConnection.opens (c : ForwarderConnection) (forwarder : Forwarder) : Nat :=
  if c.socket ≠ none ∧ c.forwarder = forwarder then 1 else 0

namespace Active

/-- No connection was made and no list configured, and for each report one connection
is open less. -/
structure Blames (a a' : Active) : Prop where
  chosen : a'.world.chosen = a.world.chosen
  loads : a'.world.loads = a.world.loads
  reported : ∀ forwarder, a'.world.reported forwarder + a'.self.opens forwarder ≤
    a.world.reported forwarder + a.self.opens forwarder

theorem Blames.refl (a : Active) : Blames a a := ⟨rfl, rfl, fun _ => Nat.le_refl _⟩

theorem Blames.trans {a a' a'' : Active} (h : Blames a a') (h' : Blames a' a'') : Blames a a'' :=
  ⟨h'.chosen.trans h.chosen, h'.loads.trans h.loads,
    fun forwarder => (h'.reported forwarder).trans (h.reported forwarder)⟩

theorem Blames.of_same {a a' : Active} (hsharing : a'.world.sharing = a.world.sharing)
    (hsocket : a'.self.socket = a.self.socket) (hforwarder : a'.self.forwarder = a.self.forwarder) :
    Blames a a' where
  chosen := by rw [World.chosen, hsharing]; rfl
  loads := by rw [World.loads, hsharing]; rfl
  reported forwarder := by
    rw [World.reported, hsharing, ForwarderConnection.opens, hsocket, hforwarder]
    exact Nat.le_refl _

theorem blames_cache (a : Active) (session : Option Forwarder) :
    Blames a (a.share (.cacheSession session)) where
  chosen := (a.world.sharing.chosen_apply _).trans (List.append_nil _)
  loads := (a.world.sharing.loads_apply _).trans (List.append_nil _)
  reported forwarder := Nat.le_of_eq
    (congrArg (· + _) (a.world.sharing.reported_apply (.cacheSession session) forwarder))

theorem blames_close (a : Active) : Blames a a.close.1 := by
  unfold close
  split
  next => exact .refl a
  next =>
    exact ⟨rfl, rfl,
      fun forwarder => Nat.add_le_add_left (by simp [ForwarderConnection.opens]) _⟩

theorem blames_setBad_close {a : Active} (hsocket : a.self.socket ≠ none) :
    Blames a a.setBad.close.1 := by
  have hshared : a.setBad.close.1.world.sharing =
      a.world.sharing.apply (.setBad a.self.forwarder) := by
    unfold close
    split <;> rfl
  constructor
  · rw [World.chosen, hshared, Sharing.chosen_apply]
    exact List.append_nil _
  · rw [World.loads, hshared, Sharing.loads_apply]
    exact List.append_nil _
  · intro forwarder
    have hclosed : a.setBad.close.1.self.opens forwarder = 0 := by
      rw [ForwarderConnection.opens, close_socket, if_neg (by simp)]
    rw [World.reported, hshared, Sharing.reported_apply, hclosed, ForwarderConnection.opens]
    by_cases hforwarder : a.self.forwarder = forwarder
    · simp [hforwarder, hsocket, World.reported]
    · simp [hforwarder, World.reported]

variable {drains reads : Prop} {a b : Active}

theorem Works.blames (h : Works drains a b) : Blames a b := by
  induction h with
  | refl => exact .refl a
  | cache _ session ih => exact ih.trans (blames_cache _ session)
  | ask _ ih | reset _ _ ih | register _ _ _ ih | setState _ _ ih | drain _ _ ih =>
    exact ih.trans (.of_same rfl rfl rfl)

theorem Ends.blames {result : Active × Upcall} (h : Ends drains reads a result)
    (hsocket : a.self.socket ≠ none) : Blames a result.1 := by
  cases h with
  | stay hworks => exact hworks.blames
  | read hworks _ _ => exact hworks.blames
  | close hworks => exact hworks.blames.trans (blames_close _)
  | report hworks =>
    rw [← hworks.socket] at hsocket
    exact hworks.blames.trans (blames_setBad_close hsocket)

theorem blames_send (a : Active) (request : Bytes) : Blames a (a.send request).2 := by
  rcases send_works a request with heq | ⟨-, -, -, b, hworks, -, heq⟩
  · rw [heq]
    exact .refl a
  · rw [heq]
    exact hworks.blames.trans (.of_same rfl rfl rfl)

end Active

theorem ForwarderConnection.new_loads (env : Env) (id : Nat) (w : World) :
    (ForwarderConnection.new env id w).world.loads = w.loads := by
  have hcreated : (w.ask.share .create).loads = w.loads :=
    (w.sharing.loads_apply .create).trans (List.append_nil _)
  have hopened : ((w.ask.share .create).openHandle env).2.loads = w.loads := by
    rw [World.loads, World.sharing_openHandle]
    exact hcreated
  unfold ForwarderConnection.new
  dsimp only
  split
  next chosen _ _ =>
    split
    next handle w' hopen =>
      rw [hopen] at hopened
      have hconnect : ∀ self : ForwarderConnection, self.socket = some handle →
          (((Active.mk self w').registerException (.exception id)).connect env).1.world.loads =
            w'.loads := by
        intro self hsocket
        refine ((Active.handshake_ends env ⟨self, w'⟩ id).blames ?_).loads
        simp [hsocket]
      exact (hconnect _ rfl).trans hopened
    next w' hopen =>
      rw [hopen] at hopened
      exact ((w'.sharing.loads_apply _).trans (List.append_nil _)).trans hopened
  next => rfl

theorem ForwarderConnection.new_reported (env : Env) (id : Nat) (w : World)
    (forwarder : Forwarder) :
    let a := ForwarderConnection.new env id w
    a.world.reported forwarder + a.self.opens forwarder + w.chosen.count forwarder ≤
      w.reported forwarder + a.world.chosen.count forwarder := by
  have hopened := World.sharing_openHandle env (w.ask.share .create)
  unfold ForwarderConnection.new
  dsimp only
  split
  next chosen _ hchosen =>
    have hcreated : (w.ask.share .create).chosen = w.chosen ++ [chosen] := by
      refine (w.sharing.chosen_apply .create).trans ?_
      change _ ++ w.config.get.toList = _
      rw [hchosen]
      rfl
    have hcount : (w.chosen ++ [chosen]).count forwarder =
        w.chosen.count forwarder + if chosen = forwarder then 1 else 0 := by
      rw [List.count_append, List.count_singleton]
      simp only [beq_iff_eq]
    have hchosen' : ((w.ask.share .create).openHandle env).2.chosen = w.chosen ++ [chosen] := by
      rw [← hcreated, World.chosen, hopened]
      rfl
    have hreported : ((w.ask.share .create).openHandle env).2.reported forwarder =
        w.reported forwarder := by
      rw [World.reported, hopened]
      exact w.sharing.reported_apply .create forwarder
    split
    next handle w' hopen =>
      rw [hopen] at hchosen' hreported
      dsimp only at hchosen' hreported
      have hconnect : ∀ self : ForwarderConnection, self.socket = some handle →
          self.forwarder = chosen →
          let a := (((Active.mk self w').registerException (.exception id)).connect env).1
          a.world.reported forwarder + a.self.opens forwarder + w.chosen.count forwarder ≤
            w.reported forwarder + a.world.chosen.count forwarder := by
        intro self hsocket hforwarder a
        have hblames : Active.Blames ⟨self, w'⟩ a := by
          refine (Active.handshake_ends env ⟨self, w'⟩ id).blames ?_
          simp [hsocket]
        have hpaid := hblames.reported forwarder
        have hopens : self.opens forwarder = if chosen = forwarder then 1 else 0 := by
          simp [opens, hsocket, hforwarder]
        dsimp only at hpaid
        rw [hreported, hopens] at hpaid
        rw [hblames.chosen, hchosen', hcount]
        omega
      exact hconnect _ rfl rfl
    next w' hopen =>
      rw [hopen] at hchosen' hreported
      have hbad : (w'.share (.setBad chosen)).reported forwarder =
          w.reported forwarder + if chosen = forwarder then 1 else 0 := by
        rw [← hreported]
        refine (w'.sharing.reported_apply _ _).trans ?_
        simp only [Shared.Op.setBad.injEq]
        rfl
      have hsame : (w'.share (.setBad chosen)).chosen = w.chosen ++ [chosen] :=
        (w'.sharing.chosen_apply _).trans ((List.append_nil _).trans hchosen')
      change (w'.share (.setBad chosen)).reported forwarder + 0 + _ ≤
        _ + (w'.share (.setBad chosen)).chosen.count forwarder
      rw [hbad, hsame, hcount]
      omega
  next => simp [opens, World.reported, World.chosen, World.ask]

end Dote
