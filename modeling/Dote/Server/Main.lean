import Dote.Config.Soundness
import Dote.Library.UserIds
import Dote.Server.Failures

/-! `main`: from the command line to the loop, and what its checks are good for in every
run behind them. -/
namespace Dote
open Config Library

def NOBODY : Nat := 65534

/-- `dropPriviledges`, which ends the process with `none`. The kernel may refuse a call
that is allowed. -/
def dropPriviledges (refused : Bool) (ids : UserIds) : Option UserIds :=
  if ids.effective = 0 then
    if refused then none
    else if ids.real = 0 then ids.setreuid (some NOBODY) (some NOBODY)
    else ids.setreuid (some ids.real) (some ids.real)
  else some ids

/-- What `main` finds. `handles` are the open descriptors when the `Dote` is made, and
`locked` is whether the `PidFile` of a name is valid. -/
structure Process where
  libc : Libc
  argv : List Bytes
  vyatta : Vyatta
  fuel : Nat
  handles : List Int
  locked : Bytes → Bool
  ids : UserIds
  refused : Bool
  watched : Bool

/-- What `main` comes to: the message about its usage, an `IpLookup`, an exit with an error,
or the loop. -/
inductive Outcome where
  | usage
  | lookup (config : ConfigParser)
  | failed
  | runs (program : Program) (ids : UserIds)

namespace Process

def commandLine (process : Process) : ConfigParser :=
  ConfigParser.new.parseConfig process.libc process.argv

/-- `main` up to `Dote::run`. There is no outcome when the store has more values than there
is fuel. -/
def main (env : Env) (process : Process) : Option Outcome :=
  (workingConfig process.libc process.vyatta process.fuel process.commandLine).map fun parser =>
    if ¬ parser.valid then .usage
    else if parser.ipLookup.family ≠ .unspec then .lookup parser
    else if ¬ process.locked parser.pidFile then .failed
    else
      match (Program.new parser process.handles).listen env parser.servers with
      | (false, _) => .failed
      | (true, program) =>
        match dropPriviledges process.refused process.ids with
        | none => .failed
        | some ids => .runs (program.configure env process.watched) ids

structure Runs (env : Env) (process : Process) (parser : ConfigParser) (program : Program)
    (ids : UserIds) : Prop where
  parsed : workingConfig process.libc process.vyatta process.fuel process.commandLine = some parser
  valid : parser.valid = true
  start : Program.start env parser process.handles process.watched = some program
  dropped : dropPriviledges process.refused process.ids = some ids

theorem runs_of_main {env : Env} {process : Process} {program : Program} {ids : UserIds}
    (h : process.main env = some (.runs program ids)) :
    ∃ parser, process.Runs env parser program ids := by
  obtain ⟨parser, hparser, houtcome⟩ := Option.map_eq_some_iff.mp h
  split at houtcome
  next => contradiction
  next hvalid =>
    split at houtcome
    next => contradiction
    next =>
      split at houtcome
      next => contradiction
      next =>
        split at houtcome
        next => contradiction
        next program' hlisten =>
          split at houtcome
          next => contradiction
          next ids' hdropped =>
            cases houtcome
            exact ⟨parser, hparser, not_not.mp hvalid, by rw [Program.start, hlisten], hdropped⟩

end Process

namespace Shared
open Library.Run

/-- What the lists have that are configured, and what no report takes away, the list has
at any time, and so had each list that a connection was made with. -/
theorem run_listed {P : List Forwarder → Prop}
    (hdemote : ∀ forwarders (bad : Forwarder), P forwarders →
      P (demote Forwarder.remote forwarders bad.remote)) (history : List Op) :
    ∀ shared : Shared, P shared.config.forwarders →
      (∀ forwarders ∈ history.filterMap Op.load, P forwarders) →
        P (run apply shared history).config.forwarders ∧
        ∀ chosen ∈ trace apply choice shared history,
          ∃ forwarders, P forwarders ∧ chosen ∈ forwarders := by
  induction history with
  | nil => exact fun shared h _ => ⟨h, fun _ hmem => absurd hmem List.not_mem_nil⟩
  | cons op history ih =>
    intro shared h hloads
    cases op with
    | create =>
      have hsame : (shared.apply .create).config = shared.config := by
        unfold apply
        dsimp only
        split
        next => rfl
        next => rfl
      obtain ⟨hrun, hall⟩ := ih (shared.apply .create) (by rw [hsame]; exact h) hloads
      refine ⟨hrun, fun chosen hmem => ?_⟩
      rw [trace, List.mem_append] at hmem
      cases hmem with
      | inl hnow => exact ⟨_, h, List.mem_of_mem_head? (Option.mem_toList.mp hnow)⟩
      | inr hlater => exact hall chosen hlater
    | cacheSession session => exact ih (shared.apply (.cacheSession session)) h hloads
    | setBad bad => exact ih (shared.apply (.setBad bad)) (hdemote _ bad h) hloads
    | setForwarders forwarders =>
      have hload : (Op.setForwarders forwarders).load = some forwarders := rfl
      rw [List.filterMap_cons_some hload, List.forall_mem_cons] at hloads
      refine ih (shared.apply (.setForwarders forwarders)) ?_ hloads.2
      change P (forwarders.foldl ForwarderConfig.addForwarder shared.config.clear).forwarders
      rw [ForwarderConfig.foldl_addForwarder]
      exact hloads.1

end Shared

namespace Program
open Library.Run

def Usable (forwarders : List Forwarder) : Prop :=
  forwarders ≠ [] ∧ ∀ forwarder ∈ forwarders, forwarder.remote.WellFormed

theorem Usable.demote {forwarders : List Forwarder} (h : Usable forwarders) (bad : Forwarder) :
    Usable (Library.demote Forwarder.remote forwarders bad.remote) := by
  have hperm := perm_demote Forwarder.remote forwarders bad.remote
  refine ⟨fun hnil => h.1 ?_, fun forwarder hmem => h.2 forwarder (hperm.mem_iff.mp hmem)⟩
  rw [hnil] at hperm
  exact hperm.nil_eq.symm

section

variable {env : Env} {process : Process} {p : Program} {ids : UserIds}

/-- The reloads are those of the command line that the program was started with. -/
def Reloads (env : Env) (process : Process) : Prop :=
  ∀ tick, ∀ forwarders ∈ env.reload tick, ∃ vyatta fuel config,
    workingConfig process.libc vyatta fuel process.commandLine = some config ∧
      config.valid = true ∧ forwarders = config.forwarders

theorem usable_of_working (hsized : Sized process.libc)
    (hdefaults : ConfigParser.TakesDefaults process.libc) {vyatta : Vyatta} {fuel : Nat}
    {config : ConfigParser}
    (hconfig : workingConfig process.libc vyatta fuel process.commandLine = some config)
    (hvalid : config.valid = true) : config.Sound ∧ config.servers ≠ [] ∧
      Usable config.forwarders := by
  have hbuilt : process.commandLine.Built process.libc := .parseConfig _ _ .new
  obtain ⟨hsound, hforwarders, hservers⟩ := workingConfig_sound hsized hdefaults hbuilt hconfig
  exact ⟨hsound, hservers, hforwarders, hsound.forwarders hvalid⟩

/-- What `main` makes sure of holds in every run. Until the shutdown there is a socket for
each configured server, and one at least; the numbers are in their bounds; the list of the
forwarders is never empty, whatever is reported and reloaded, so that `get` always gives one,
and has only addresses to connect to, which each connection had that was made. -/
theorem main_sound (hsized : Sized process.libc)
    (hdefaults : ConfigParser.TakesDefaults process.libc)
    (hmain : process.main env = some (.runs p ids)) (hreloads : Reloads env process)
    (events : List Event) :
    let last := (run (step env) (Machine.start p) events).state
    ∃ parser, process.Runs env parser p ids ∧
      (Serving events → last.sockets.length = parser.servers.length) ∧
      1 ≤ parser.servers.length ∧
      (1 ≤ last.clients.maxConnections ∧ last.clients.maxConnections ≤ 6000) ∧
      (1 ≤ last.world.config.timeout ∧ last.world.config.timeout ≤ 65535) ∧
      Usable last.world.config.forwarders ∧
      (∀ before, before <+: last.world.sharing.history →
        (run Shared.apply (.new last.world.sharing.initial) before).config.get ≠ none) ∧
      ∀ forwarder ∈ last.world.chosen, forwarder.remote.WellFormed := by
  intro last
  obtain ⟨parser, hruns⟩ := Process.runs_of_main hmain
  obtain ⟨hsound, hservers, husable⟩ :=
    usable_of_working hsized hdefaults hruns.parsed hruns.valid
  have howned : (Machine.start p).state.Owned := Owned.start hruns.start
  have hgrows : ClientForwarders.Grows env (new parser process.handles).clients last.clients :=
    (grows_start hruns.start).trans (grows_run howned env events)
  have hmax : last.clients.maxConnections = parser.maxConnections := hgrows.maxConnections
  have htimeout : last.world.config.timeout = parser.timeout := hgrows.later.timeout
  have hattributed : last.Attributed env :=
    Attributed.run (r := Machine.start p) (.start hruns.start) events
  have hloads : ∀ forwarders ∈ last.world.loads, Usable forwarders := by
    intro forwarders hmem
    obtain ⟨tick, hreload⟩ := hattributed.reloaded forwarders hmem
    obtain ⟨vyatta, fuel, config, hconfig, hvalid, rfl⟩ := hreloads tick forwarders hreload
    exact (usable_of_working hsized hdefaults hconfig hvalid).2.2
  have hinitial : Usable (Shared.new last.world.sharing.initial).config.forwarders := by
    have hsame : last.world.sharing.initial = (new parser process.handles).world.sharing.initial :=
      hgrows.later.initial
    rw [hsame]
    change Usable (parser.forwarders.foldl ForwarderConfig.addForwarder _).forwarders
    rw [ForwarderConfig.foldl_addForwarder]
    exact husable
  -- The list of any time so far, which the operations up to then have made.
  have hlisted : ∀ before, before <+: last.world.sharing.history →
      Usable (run Shared.apply (.new last.world.sharing.initial) before).config.forwarders ∧
        ∀ chosen ∈ trace Shared.apply Shared.choice (.new last.world.sharing.initial) before,
          ∃ forwarders, Usable forwarders ∧ chosen ∈ forwarders := by
    intro before hbefore
    apply Shared.run_listed (fun _ bad h => h.demote bad) before _ hinitial
    exact fun forwarders hmem => hloads forwarders ((hbefore.filterMap _).subset hmem)
  have hlist := (hlisted _ (List.prefix_refl _)).1
  rw [← last.world.sharing.state_eq] at hlist
  refine ⟨parser, hruns, run_sockets hruns.start, ?_, ?_, ?_, hlist, ?_, ?_⟩
  · exact List.length_pos_iff.mpr hservers
  · rw [hmax]
    exact hsound.maxConnections
  · rw [htimeout]
    exact hsound.timeout
  · intro before hbefore
    exact Option.isSome_iff_ne_none.mp (List.isSome_head?.mpr (hlisted before hbefore).1.1)
  · intro forwarder hmem
    obtain ⟨forwarders, h, hforwarder⟩ := (hlisted _ (List.prefix_refl _)).2 forwarder hmem
    exact h.2 forwarder hforwarder

/-- Behind `dropPriviledges` the program can become root again by no system calls that set
its user ids, unless it was started with an effective id other than 0 and a real or saved one
that is 0. -/
theorem main_root_iff (hmain : process.main env = some (.runs p ids)) :
    (∃ calls, (run UserIds.step ids calls).effective = 0) ↔
      process.ids.effective ≠ 0 ∧ (process.ids.real = 0 ∨ process.ids.saved = 0) := by
  obtain ⟨parser, hruns⟩ := Process.runs_of_main hmain
  have hdropped := hruns.dropped
  rw [UserIds.exists_root_iff]
  unfold dropPriviledges at hdropped
  split at hdropped
  next hroot =>
    have hprivileged : process.ids.Privileged := hroot
    have hplain : ids.Plain := by
      split at hdropped
      next => contradiction
      next =>
        split at hdropped
        next =>
          rw [UserIds.setreuid_both hprivileged] at hdropped
          cases hdropped
          exact ⟨by decide, by decide, by decide⟩
        next hreal =>
          rw [UserIds.setreuid_both hprivileged] at hdropped
          cases hdropped
          exact ⟨hreal, hreal, hreal⟩
    exact iff_of_false (fun h => h hplain) fun h => h.1 hroot
  next heffective =>
    cases hdropped
    constructor
    · intro h
      refine ⟨heffective, ?_⟩
      by_contra hnone
      rw [not_or] at hnone
      exact h ⟨hnone.1, heffective, hnone.2⟩
    · rintro ⟨-, hreal | hsaved⟩ h
      · exact h.real hreal
      · exact h.saved hsaved

end

namespace Sample

def addresses : List (Family × Bytes × Bytes) :=
  [(.inet6, bytes "2606:4700:4700::1111", [38, 6, 71, 0, 71, 0, 0, 0, 0, 0, 0, 0, 0, 0, 17, 17]),
    (.inet6, bytes "2606:4700:4700::1001", [38, 6, 71, 0, 71, 0, 0, 0, 0, 0, 0, 0, 0, 0, 16, 1]),
    (.inet, bytes "1.1.1.1", [1, 1, 1, 1]), (.inet, bytes "1.0.0.1", [1, 0, 0, 1]),
    (.inet, bytes "127.0.0.1", [127, 0, 0, 1]),
    (.inet6, bytes "::1", [0, 0, 0, 0, 0, 0, 0, 0, 0, 0, 0, 0, 0, 0, 0, 1])]

def libc : Libc :=
  { sampleLibc with
    inet_pton family text :=
      (addresses.find? fun entry => entry.1 = family ∧ entry.2.1 = text).map (·.2.2) }

theorem libc_sized : Sized libc := by
  have hlength : ∀ entry ∈ addresses, entry.2.2.length = if entry.1 = .inet then 4 else 16 := by
    decide +kernel
  have hfound : ∀ family text addr, libc.inet_pton family text = some addr →
      addr.length = if family = .inet then 4 else 16 := by
    intro family text addr h
    obtain ⟨entry, hentry, rfl⟩ := Option.map_eq_some_iff.mp h
    have hboth := List.find?_some hentry
    rw [decide_eq_true_iff] at hboth
    rw [← hboth.1]
    exact hlength entry (List.mem_of_find?_eq_some hentry)
  exact ⟨fun text addr => hfound .inet text addr, fun text addr => hfound .inet6 text addr⟩

theorem libc_takesDefaults : ConfigParser.TakesDefaults libc :=
  ⟨by decide +kernel, by decide +kernel⟩

/-- Root runs `dote -m 7`. -/
def rootProcess : Process where
  libc := libc
  argv := [bytes "dote", bytes "-m", bytes "7"]
  vyatta := ⟨none⟩
  fuel := 1
  handles := [0, 1, 2]
  locked _ := true
  ids := ⟨0, 0, 0⟩
  refused := false
  watched := false

def rootParser : ConfigParser :=
  (workingConfig libc ⟨none⟩ 1 rootProcess.commandLine).get (by decide +kernel)

def rootEnv : Env := { Program.Sample.env stuck with reload _ := [rootParser.forwarders] }

def running : Outcome → Option (Program × UserIds)
  | .runs program ids => some (program, ids)
  | _ => none

def rootRuns : Program × UserIds :=
  ((rootProcess.main rootEnv).bind running).get (by decide +kernel)

theorem rootRuns_eq : rootProcess.main rootEnv = some (.runs rootRuns.1 rootRuns.2) := by
  have hruns : (rootProcess.main rootEnv).bind running = some rootRuns := (Option.some_get _).symm
  obtain ⟨outcome, houtcome, hrunning⟩ := Option.bind_eq_some_iff.mp hruns
  rw [houtcome]
  cases outcome with
  | runs program ids =>
    cases hrunning
    rfl
  | _ => contradiction

theorem root_reloads : Reloads rootEnv rootProcess := by
  intro tick forwarders hmem
  rw [show rootEnv.reload tick = [rootParser.forwarders] from rfl, List.mem_singleton] at hmem
  exact ⟨⟨none⟩, 1, rootParser, (Option.some_get _).symm, by decide +kernel, hmem⟩

end Sample

open Sample in
theorem main_sound_root :
    let last := (run (step rootEnv) (Machine.start rootRuns.1) busy).state
    1 ≤ last.sockets.length ∧ last.clients.maxConnections ≤ 6000 ∧
      Usable last.world.config.forwarders ∧
      ∀ forwarder ∈ last.world.chosen, forwarder.remote.WellFormed := by
  obtain ⟨parser, -, hsockets, hservers, hmax, -, hlist, -, hchosen⟩ :=
    main_sound libc_sized libc_takesDefaults rootRuns_eq root_reloads busy
  refine ⟨?_, hmax.2, hlist, hchosen⟩
  rw [hsockets (by simp [Serving, busy, task])]
  exact hservers

open Sample in
theorem main_root_iff_root : ¬ ∃ calls, (run UserIds.step rootRuns.2 calls).effective = 0 :=
  fun h => ((main_root_iff rootRuns_eq).mp h).1 rfl

end Program

end Dote
