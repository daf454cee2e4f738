import Dote.Config.WorkingConfig
import Dote.Server.Program

/-! A reload of the configuration. It is read into a parser of its own, and the
running program has the forwarders of that parser only when it is valid. -/
namespace Dote
open Config

namespace Program

/-- `VyattaCheck::reloadConfiguration`. `m_dote` is set together with the
registration of the checker. -/
def reloadConfiguration (libc : Libc) (vyatta : Vyatta) (fuel : Nat) (base : ConfigParser)
    (p : Program) : Option Program :=
  if p.checker.isSome then
    (workingConfig libc vyatta fuel base).map fun config =>
      if config.valid then p.setForwarders config.forwarders else p
  else some p

theorem setForwarders_forwarders (p : Program) (forwarders : List Forwarder) :
    (p.setForwarders forwarders).world.config.forwarders = forwarders := by
  change (forwarders.foldl ForwarderConfig.addForwarder p.world.config.clear).forwarders = _
  rw [ForwarderConfig.foldl_addForwarder]
  rfl

structure KeepsOthers (p p' : Program) : Prop where
  server : p'.server = p.server
  checker : p'.checker = p.checker
  received : p'.received = p.received
  queue : p'.clients.queue = p.clients.queue
  connections : p'.clients.forwarders = p.clients.forwarders
  started : p'.clients.started = p.clients.started
  sent : p'.clients.sent = p.clients.sent
  loop : p'.loop = p.loop
  handles : p'.world.handles = p.world.handles
  session : p'.world.session = p.world.session
  timeout : p'.world.config.timeout = p.world.config.timeout

theorem KeepsOthers.refl (p : Program) : KeepsOthers p p :=
  ⟨rfl, rfl, rfl, rfl, rfl, rfl, rfl, rfl, rfl, rfl, rfl⟩

theorem setForwarders_keeps (p : Program) (forwarders : List Forwarder) :
    KeepsOthers p (p.setForwarders forwarders) := by
  have htimeout : (p.setForwarders forwarders).world.config.timeout = p.world.config.timeout := by
    change (forwarders.foldl ForwarderConfig.addForwarder p.world.config.clear).timeout = _
    rw [ForwarderConfig.foldl_addForwarder]
    rfl
  exact ⟨rfl, rfl, rfl, rfl, rfl, rfl, rfl, rfl, rfl, rfl, htimeout⟩

variable {libc : Libc} {vyatta : Vyatta} {base config : ConfigParser} {fuel : Nat}

theorem reloadConfiguration_eq (hconfig : workingConfig libc vyatta fuel base = some config)
    {p : Program} (hchecker : p.checker.isSome = true) :
    p.reloadConfiguration libc vyatta fuel base =
      some (if config.valid then p.setForwarders config.forwarders else p) := by
  rw [reloadConfiguration, if_pos hchecker, hconfig, Option.map_some]

def reloaded (config : ConfigParser) : Option (List Forwarder) :=
  if config.valid then some config.forwarders else none

theorem reloads_eq {stores : List Vyatta} {configs : List ConfigParser}
    (hconfigs : List.Forall₂
      (fun vyatta config => workingConfig libc vyatta fuel base = some config) stores configs) :
    ∀ p : Program, p.checker.isSome = true →
      stores.foldlM (fun p vyatta => p.reloadConfiguration libc vyatta fuel base) p =
        some ((configs.filterMap reloaded).foldl setForwarders p) := by
  induction hconfigs with
  | nil => exact fun _ _ => rfl
  | @cons vyatta config stores configs hconfig hconfigs ih =>
    intro p hchecker
    rw [List.foldlM_cons, reloadConfiguration_eq hconfig hchecker]
    cases hvalid : config.valid with
    | true =>
      have hnext : (p.setForwarders config.forwarders).checker.isSome = true := hchecker
      simpa [reloaded, hvalid] using ih (p.setForwarders config.forwarders) hnext
    | false => simpa [reloaded, hvalid] using ih p hchecker

/-- `handleRead` is one reload after the other, when the outside has the working
configurations for the stores that the changes of the file leave. -/
theorem handleRead_reloads {stores : List Vyatta} {configs : List ConfigParser}
    (hconfigs : List.Forall₂
      (fun vyatta config => workingConfig libc vyatta fuel base = some config) stores configs)
    (env : Env) {p : Program} (hchecker : p.checker.isSome = true)
    (hreload : env.reload p.world.tick = configs.filterMap reloaded) :
    stores.foldlM (fun p vyatta => p.reloadConfiguration libc vyatta fuel base)
      (p.setWorld p.world.ask) = some (p.handleRead env) := by
  rw [handleRead, hreload]
  exact reloads_eq hconfigs _ hchecker

/-- Either the whole of the new list is taken or nothing of it is. -/
theorem reload_allOrNothing (hgetopt : SplitsPairs libc)
    (hread : ∀ input, libc.bioRead input 0 = []) (hbuilt : base.Built libc)
    (hvalid : base.valid = true) {servers forwarders : Nat}
    (hlists : vyatta.Lists servers forwarders) {p : Program} (hchecker : p.checker.isSome = true) :
    ∃ (config : ConfigParser) (p' : Program),
      (∀ fuel > max servers forwarders, workingConfig libc vyatta fuel base = some config ∧
        p.reloadConfiguration libc vyatta fuel base = some p') ∧
      (vyatta.Accepted libc servers forwarders →
        p'.world.config.forwarders = config.forwarders) ∧
      (¬ vyatta.Accepted libc servers forwarders → p' = p) ∧
      KeepsOthers p p' := by
  obtain ⟨config, hconfig, haccepted⟩ :=
    workingConfig_valid_iff hgetopt hread hlists hbuilt hvalid
  refine ⟨config, if config.valid then p.setForwarders config.forwarders else p, ?_, ?_, ?_, ?_⟩
  · intro fuel hfuel
    exact ⟨hconfig fuel hfuel, reloadConfiguration_eq (hconfig fuel hfuel) hchecker⟩
  · intro h
    rw [if_pos (haccepted.mpr h), setForwarders_forwarders]
  · intro h
    rw [if_neg (fun hvalid => h (haccepted.mp hvalid))]
  · split
    next => exact setForwarders_keeps p config.forwarders
    next => exact .refl p

theorem sampleStore_lists (pin : Option Bytes) : (sampleStore pin).Lists 0 1 where
  servers_nonempty k hk := absurd hk (Nat.not_lt_zero k)
  servers_end := by cases pin <;> rfl
  forwarders_nonempty := (sampleStore_holds pin).nonempty
  forwarders_end := (sampleStore_holds pin).ends

open Sample in
theorem reload_allOrNothing_sample :
    ∃ (config : ConfigParser) (p' : Program),
      (∀ fuel > 1, workingConfig sampleLibc (sampleStore none) fuel .new = some config ∧
        (program stuck true).reloadConfiguration sampleLibc (sampleStore none) fuel .new =
          some p') ∧
      ((sampleStore none).Accepted sampleLibc 0 1 →
        p'.world.config.forwarders = config.forwarders) ∧
      (¬ (sampleStore none).Accepted sampleLibc 0 1 → p' = program stuck true) ∧
      KeepsOthers (program stuck true) p' :=
  reload_allOrNothing sampleLibc_splitsPairs sampleLibc_bioRead .new rfl (sampleStore_lists none)
    (by decide)

end Program

end Dote
