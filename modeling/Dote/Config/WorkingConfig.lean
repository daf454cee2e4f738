import Dote.Config.Grouping

/-! The configuration of the command line with the values of the store behind it.
Each value is a call of `parseConfig`, and it is valid when every one of the values is
a server. -/
namespace Dote.Config
open Dote.Library

/-- `VyattaCheck::workingConfig`, for the `m_config` of a checker. -/
def workingConfig (libc : Libc) (vyatta : Vyatta) (fuel : Nat) (base : ConfigParser) :
    Option ConfigParser :=
  (vyatta.loadConfig libc fuel base).map (ConfigParser.setDefaults libc)

variable {libc : Libc}

namespace ConfigParser

theorem pushForwarder_of_clean {p : ConfigParser} (h : p.partialForwarder = .empty) :
    p.pushForwarder = p := by
  have hsame : ({ p with partialForwarder := .empty } : ConfigParser) = p := by rw [← h]
  unfold pushForwarder
  simpa [h, Forwarder.empty, SockAddr.unspec] using hsame

theorem addDefaultForwarder_valid (p : ConfigParser) (server : Bytes) :
    (p.addDefaultForwarder libc server).valid = p.valid := by
  unfold addDefaultForwarder
  dsimp only
  split <;> rfl

theorem addDefaultServer_valid (p : ConfigParser) (server : Bytes) :
    (p.addDefaultServer libc server).valid = p.valid := by
  unfold addDefaultServer
  dsimp only
  split <;> rfl

theorem setDefaults_valid (p : ConfigParser) : (p.setDefaults libc).valid = p.valid := by
  unfold setDefaults
  dsimp only
  split <;> split <;> split <;>
    simp [defaultForwarders, defaultServers, addDefaultForwarder_valid, addDefaultServer_valid]

/-- Calls that each keep a valid parser valid when their value is accepted: once one is
not, no later one makes up for it. -/
theorem parseAll_valid_iff {ι : Type} {args : ι → List Bytes} {accepts : ι → Prop}
    (hcall : ∀ (i : ι) (p : ConfigParser), p.valid = true → p.partialForwarder = .empty →
      ((p.parseConfig libc (args i)).valid = true ↔ accepts i)) (values : List ι) :
    ∀ p : ConfigParser, p.partialForwarder = .empty →
      ((parseAll libc p (values.map args)).valid = true ↔
        p.valid = true ∧ ∀ i ∈ values, accepts i) := by
  induction values with
  | nil => simp [parseAll]
  | cons i values ih =>
    intro p hclean
    have hrest := ih (p.parseConfig libc (args i)) (parseConfig_partialForwarder p (args i))
    have hfirst : (p.parseConfig libc (args i)).valid = true ↔ p.valid = true ∧ accepts i := by
      constructor
      · intro h
        have hvalid := parseConfig_valid h
        exact ⟨hvalid, (hcall i p hvalid hclean).mp h⟩
      · intro h
        exact (hcall i p h.1 hclean).mpr h.2
    rw [List.map_cons, parseAll, List.foldl_cons, ← parseAll, hrest, hfirst,
      List.forall_mem_cons, and_assoc]

theorem parseAll_partialForwarder (calls : List (List Bytes)) : ∀ {p : ConfigParser},
    p.partialForwarder = .empty → (parseAll libc p calls).partialForwarder = .empty := by
  induction calls with
  | nil => exact fun h => h
  | cons argv calls ih => exact fun {p} _ => ih (parseConfig_partialForwarder p argv)

end ConfigParser

namespace Vyatta

def serverArgs (server : Bytes) : List Bytes := [nameArg, serverFlag, server]

theorem serverArgs_eq (server : Bytes) :
    serverArgs server = argvOf nameArg [('s', server)] := by
  have hdash : '-'.toUInt8 = 45 := rfl
  simp [serverArgs, argvOf, serverFlag, bytes, hdash]

theorem parseConfig_server_valid (hgetopt : SplitsPairs libc) {p : ConfigParser}
    (hvalid : p.valid = true) (hclean : p.partialForwarder = .empty) (server : Bytes) :
    (p.parseConfig libc (serverArgs server)).valid = true ↔
      (parseServer libc server 53 .unspec).1 = true := by
  have hoptions : ConfigParser.parseOptions libc p [('s', server)] = p.addServer libc server := by
    simp [ConfigParser.parseOptions, ConfigParser.parseOption, hvalid]
  have hadded : (p.addServer libc server).partialForwarder = .empty := by
    unfold ConfigParser.addServer
    dsimp only
    split
    next => exact hclean
    next => exact hclean
  have htakes : ∀ o ∈ [('s', server)], o.1 ∈ takesArgument := by simp [takesArgument]
  rw [serverArgs_eq, ConfigParser.parseConfig_argvOf hgetopt hclean _ htakes, hoptions,
    ConfigParser.pushForwarder_of_clean hadded]
  unfold ConfigParser.addServer
  dsimp only
  split
  next hparse => simp [hvalid, hparse]
  next hparse => simp [hparse]

theorem parseConfig_forwarder_valid (hgetopt : SplitsPairs libc)
    (hread : ∀ input, libc.bioRead input 0 = []) {p : ConfigParser} (hvalid : p.valid = true)
    (hclean : p.partialForwarder = .empty) (forwarder pin hostname : Bytes) :
    (p.parseConfig libc (forwarderArgs forwarder pin hostname)).valid = true ↔
      (parseServer libc forwarder 853 .unspec).1 = true := by
  constructor
  · intro h
    have hgrouped := (ConfigParser.parseConfig_grouped hclean h).1
    rw [forwarderArgs_eq, hgetopt _ _ (forwarderOptions_takesArgument forwarder pin hostname)]
      at hgrouped
    have hhead : forwarderOf ('f', forwarder) = some forwarder := rfl
    rw [forwarderOptions] at hgrouped
    have hparses := hgrouped.parses
    rw [groups_head _ hhead] at hparses
    exact hparses _ List.mem_cons_self
  · intro hparse
    rw [parseConfig_forwarder hgetopt hread hvalid hclean hparse pin hostname]
    exact hvalid

/-- How many servers and forwarders there are in front of the first index that has
none. -/
structure Lists (vyatta : Vyatta) (servers forwarders : Nat) : Prop where
  servers_nonempty : ∀ k < servers, vyatta.getValue (serverPath k) ≠ []
  servers_end : vyatta.getValue (serverPath servers) = []
  forwarders_nonempty : ∀ k < forwarders, vyatta.getValue (forwarderPath k) ≠ []
  forwarders_end : vyatta.getValue (forwarderPath forwarders) = []

structure Accepted (libc : Libc) (vyatta : Vyatta) (servers forwarders : Nat) : Prop where
  servers : ∀ k < servers, (parseServer libc (vyatta.getValue (serverPath k)) 53 .unspec).1 = true
  forwarders : ∀ k < forwarders,
    (parseServer libc (vyatta.getValue (forwarderPath k)) 853 .unspec).1 = true

theorem load_parseAll {load : Nat → Nat → ConfigParser → Option ConfigParser}
    {value : Nat → Bytes} {args : Nat → List Bytes}
    (hload : ∀ fuel index p, load (fuel + 1) index p =
      if value index = [] then some p else load fuel (index + 1) (p.parseConfig libc (args index)))
    {n : Nat} (hnonempty : ∀ k < n, value k ≠ []) (hend : value n = []) (left : Nat) :
    ∀ (fuel index : Nat) (p : ConfigParser), index + left = n → left < fuel →
      load fuel index p =
        some (ConfigParser.parseAll libc p ((List.range' index left).map args)) := by
  induction left with
  | zero =>
    intro fuel index p hindex hfuel
    obtain ⟨fuel, rfl⟩ := Nat.exists_eq_add_of_lt hfuel
    obtain rfl : index = n := by omega
    simp [hload, hend, ConfigParser.parseAll]
  | succ left ih =>
    intro fuel index p hindex hfuel
    obtain ⟨fuel, rfl⟩ : ∃ fuel', fuel = fuel' + 1 := ⟨fuel - 1, by omega⟩
    rw [hload, if_neg (hnonempty index (by omega)),
      ih fuel (index + 1) _ (by omega) (by omega), List.range'_succ]
    rfl

section Load

variable {vyatta : Vyatta} {servers forwarders : Nat}

def serverArgsAt (vyatta : Vyatta) (k : Nat) : List Bytes :=
  serverArgs (vyatta.getValue (serverPath k))

def forwarderArgsAt (vyatta : Vyatta) (k : Nat) : List Bytes :=
  forwarderArgs (vyatta.getValue (forwarderPath k)) (vyatta.getValue (pinPath k))
    (vyatta.getValue (hostnamePath k))

theorem loadServers_parseAll (h : vyatta.Lists servers forwarders) {fuel : Nat}
    (hfuel : servers < fuel) (p : ConfigParser) :
    loadServers libc vyatta fuel 0 p = some (ConfigParser.parseAll libc p
      ((List.range servers).map (serverArgsAt vyatta))) := by
  rw [List.range_eq_range']
  exact load_parseAll (fun _ _ _ => rfl) h.servers_nonempty h.servers_end servers fuel 0 p
    (Nat.zero_add _) hfuel

theorem loadForwarders_parseAll (h : vyatta.Lists servers forwarders) {fuel : Nat}
    (hfuel : forwarders < fuel) (p : ConfigParser) :
    loadForwarders libc vyatta fuel 0 p = some (ConfigParser.parseAll libc p
      ((List.range forwarders).map (forwarderArgsAt vyatta))) := by
  rw [List.range_eq_range']
  exact load_parseAll (fun _ _ _ => rfl) h.forwarders_nonempty h.forwarders_end forwarders fuel 0 p
    (Nat.zero_add _) hfuel

def loaded (libc : Libc) (vyatta : Vyatta) (servers forwarders : Nat) (base : ConfigParser) :
    ConfigParser :=
  ConfigParser.parseAll libc
    (ConfigParser.parseAll libc base
      ((List.range servers).map (serverArgsAt vyatta)))
    ((List.range forwarders).map (forwarderArgsAt vyatta))

theorem loadConfig_eq (h : vyatta.Lists servers forwarders) {fuel : Nat}
    (hfuel : max servers forwarders < fuel) (base : ConfigParser) :
    vyatta.loadConfig libc fuel base = some (loaded libc vyatta servers forwarders base) := by
  have hservers : servers < fuel := by omega
  have hforwarders : forwarders < fuel := by omega
  rw [loadConfig, loadServers_parseAll h hservers, Option.bind_some,
    loadForwarders_parseAll h hforwarders, loaded]

theorem loaded_valid_iff (hgetopt : SplitsPairs libc) (hread : ∀ input, libc.bioRead input 0 = [])
    {base : ConfigParser} (hclean : base.partialForwarder = .empty) :
    (loaded libc vyatta servers forwarders base).valid = true ↔
      base.valid = true ∧ vyatta.Accepted libc servers forwarders := by
  have hserver : ∀ (k : Nat) (p : ConfigParser), p.valid = true →
      p.partialForwarder = .empty → ((p.parseConfig libc (serverArgsAt vyatta k)).valid = true ↔
        (parseServer libc (vyatta.getValue (serverPath k)) 53 .unspec).1 = true) :=
    fun k p hvalid hclean => parseConfig_server_valid hgetopt hvalid hclean _
  have hforwarder : ∀ (k : Nat) (p : ConfigParser), p.valid = true →
      p.partialForwarder = .empty →
      ((p.parseConfig libc (forwarderArgsAt vyatta k)).valid = true ↔
        (parseServer libc (vyatta.getValue (forwarderPath k)) 853 .unspec).1 = true) :=
    fun k p hvalid hclean => parseConfig_forwarder_valid hgetopt hread hvalid hclean _ _ _
  rw [loaded, ConfigParser.parseAll_valid_iff hforwarder _ _
      (ConfigParser.parseAll_partialForwarder _ hclean),
    ConfigParser.parseAll_valid_iff hserver _ _ hclean]
  simp only [List.mem_range]
  constructor
  · intro h
    exact ⟨h.1.1, h.1.2, h.2⟩
  · intro h
    exact ⟨⟨h.1, h.2.servers⟩, h.2.forwarders⟩

end Load

end Vyatta

theorem workingConfig_valid_iff (hgetopt : SplitsPairs libc)
    (hread : ∀ input, libc.bioRead input 0 = []) {vyatta : Vyatta} {servers forwarders : Nat}
    (hlists : vyatta.Lists servers forwarders) {base : ConfigParser} (hbuilt : base.Built libc)
    (hvalid : base.valid = true) :
    ∃ config : ConfigParser,
      (∀ fuel > max servers forwarders, workingConfig libc vyatta fuel base = some config) ∧
      (config.valid = true ↔ vyatta.Accepted libc servers forwarders) := by
  refine ⟨(Vyatta.loaded libc vyatta servers forwarders base).setDefaults libc, ?_, ?_⟩
  · intro fuel hfuel
    rw [workingConfig, Vyatta.loadConfig_eq hlists hfuel, Option.map_some]
  · rw [ConfigParser.setDefaults_valid,
      Vyatta.loaded_valid_iff hgetopt hread hbuilt.partialForwarder]
    simp [hvalid]

end Dote.Config
