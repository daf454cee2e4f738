import Dote.Config.Vyatta

/-! What `loadForwarders` makes of a store, whatever pins and hostnames it holds:
each forwarder is added, without either of them. -/
namespace Dote.Config

/-- The arguments of `getopt_long` for options that each take an argument. -/
def argvOf (name : Bytes) (options : List (Char × Bytes)) : List Bytes :=
  name :: options.flatMap fun (c, optarg) => [[45, c.toUInt8], optarg]

/-- The options that the option string of `parseConfig` gives an argument. -/
def takesArgument : List Char := ['s', 'f', 'h', 'p', 'c', 'm', 'P', 'l', 't']

/-- What is documented of `getopt_long` for such a vector: it delivers the pairs
in order and stops behind the last one. -/
def SplitsPairs (libc : Libc) : Prop :=
  ∀ name options, (∀ o ∈ options, o.1 ∈ takesArgument) →
    libc.getopt_long (argvOf name options) = ⟨options, 1 + 2 * options.length⟩

theorem length_argvOf (name : Bytes) (options : List (Char × Bytes)) :
    (argvOf name options).length = 1 + 2 * options.length := by
  simp [argvOf]
  omega

variable {libc : Libc}

theorem parsePort_family {ip server : Bytes} {defaultPort : UInt16} {output : SockAddr} :
    (parsePort libc ip server defaultPort output).2.family = output.family := by
  unfold parsePort
  dsimp only
  split
  · rfl
  · split <;> rfl

theorem parseServer_family {server : Bytes} {defaultPort : UInt16} {output : SockAddr}
    (h : (parseServer libc server defaultPort output).1 = true) :
    (parseServer libc server defaultPort output).2.family ≠ .unspec := by
  unfold parseServer at h ⊢
  split at h
  · split at h
    · contradiction
    · simp [parsePort_family]
  · dsimp only at h ⊢
    split at h <;> simp [parsePort_family]

namespace ConfigParser

theorem parseConfig_partialForwarder (p : ConfigParser) (argv : List Bytes) :
    (p.parseConfig libc argv).partialForwarder = .empty := by
  unfold parseConfig
  dsimp only
  split <;> rfl

theorem addDefaultForwarder_partialForwarder (p : ConfigParser) (server : Bytes) :
    (p.addDefaultForwarder libc server).partialForwarder = p.partialForwarder := by
  unfold addDefaultForwarder
  dsimp only
  split <;> rfl

theorem addDefaultServer_partialForwarder (p : ConfigParser) (server : Bytes) :
    (p.addDefaultServer libc server).partialForwarder = p.partialForwarder := by
  unfold addDefaultServer
  dsimp only
  split <;> rfl

theorem setDefaults_partialForwarder (p : ConfigParser) :
    (p.setDefaults libc).partialForwarder = p.partialForwarder := by
  unfold setDefaults
  dsimp only
  split <;> split <;> split <;>
    simp [defaultForwarders, defaultServers, addDefaultForwarder_partialForwarder,
      addDefaultServer_partialForwarder]

theorem Built.partialForwarder {p : ConfigParser} (h : Built libc p) :
    p.partialForwarder = .empty := by
  induction h with
  | new => rfl
  | parseConfig p argv _ _ => exact parseConfig_partialForwarder p argv
  | setDefaults p _ ih => rw [setDefaults_partialForwarder, ih]

theorem parseConfig_of_clean {p : ConfigParser} (hclean : p.partialForwarder = .empty)
    (argv : List Bytes) : p.parseConfig libc argv =
      if (libc.getopt_long argv).optind ≠ argv.length then
        { (parseOptions libc p (libc.getopt_long argv).options).pushForwarder with valid := false }
      else (parseOptions libc p (libc.getopt_long argv).options).pushForwarder := by
  have hstart : ({ p with partialForwarder := { p.partialForwarder with
      remote := { p.partialForwarder.remote with family := .unspec } } } : ConfigParser) = p := by
    rw [hclean]
    exact congrArg (fun f => ({ p with partialForwarder := f } : ConfigParser)) hclean.symm
  rw [parseConfig]
  simp only [hstart]

theorem parseConfig_argvOf (hgetopt : SplitsPairs libc) {p : ConfigParser}
    (hclean : p.partialForwarder = .empty) (name : Bytes) {options : List (Char × Bytes)}
    (htakes : ∀ o ∈ options, o.1 ∈ takesArgument) :
    p.parseConfig libc (argvOf name options) = (parseOptions libc p options).pushForwarder := by
  rw [parseConfig_of_clean hclean, hgetopt _ _ htakes, length_argvOf, if_neg (by simp)]

def withForwarders (p : ConfigParser) (added : List Forwarder) : ConfigParser :=
  { p with forwarders := p.forwarders ++ added }

@[simp] theorem withForwarders_withForwarders (p : ConfigParser) (added added' : List Forwarder) :
    (p.withForwarders added).withForwarders added' = p.withForwarders (added ++ added') := by
  simp [withForwarders]

end ConfigParser

namespace Vyatta

/-- The options that reach the parser for one forwarder: a flag is there when
its value is empty. -/
def forwarderOptions (forwarder pin hostname : Bytes) : List (Char × Bytes) :=
  ('f', forwarder) :: ((if pin = [] then [('p', [])] else []) ++
    (if hostname = [] then [('h', [])] else []))

theorem forwarderArgs_eq (forwarder pin hostname : Bytes) :
    forwarderArgs forwarder pin hostname =
      argvOf nameArg (forwarderOptions forwarder pin hostname) := by
  have hdash : '-'.toUInt8 = 45 := rfl
  by_cases hpin : pin = [] <;> by_cases hhost : hostname = [] <;>
    simp [forwarderArgs, forwarderOptions, argvOf, hpin, hhost, forwarderFlag, pinFlag,
      hostnameFlag, bytes, hdash]

theorem forwarderOptions_takesArgument (forwarder pin hostname : Bytes) :
    ∀ o ∈ forwarderOptions forwarder pin hostname, o.1 ∈ takesArgument := by
  intro o ho
  by_cases hpin : pin = [] <;> by_cases hhost : hostname = [] <;>
    simp [forwarderOptions, hpin, hhost] at ho <;> grind [takesArgument]

def addedForwarder (libc : Libc) (forwarder : Bytes) : Forwarder :=
  ⟨(parseServer libc forwarder 853 .unspec).2, false, [], []⟩

/-- The options after `-f` are all empty values: they leave the partial
forwarder and the validity as they are. -/
theorem parseOptions_empty (hdecode : decode libc [] = []) {p : ConfigParser}
    (hvalid : p.valid = true) (hhost : p.partialForwarder.host = [])
    (hpin : p.partialForwarder.pin = []) (pin hostname : Bytes) :
    ConfigParser.parseOptions libc p ((if pin = [] then [('p', [])] else []) ++
      (if hostname = [] then [('h', [])] else [])) = p := by
  obtain ⟨valid, ⟨remote, disablePki, host, pin'⟩, forwarders, servers, ipLookup, ciphers,
    maxConnections, pidFile, daemonise, timeout⟩ := p
  simp only at hvalid hhost hpin
  subst hvalid hhost hpin
  by_cases hpin : pin = [] <;> by_cases hhost : hostname = [] <;>
    simp [ConfigParser.parseOptions, ConfigParser.parseOption, ConfigParser.addPin,
      ConfigParser.addHostname, hpin, hhost, hdecode]

theorem parseConfig_forwarder (hgetopt : SplitsPairs libc)
    (hread : ∀ input, libc.bioRead input 0 = []) {p : ConfigParser} (hvalid : p.valid = true)
    (hclean : p.partialForwarder = .empty) {forwarder : Bytes}
    (hparse : (parseServer libc forwarder 853 .unspec).1 = true) (pin hostname : Bytes) :
    p.parseConfig libc (forwarderArgs forwarder pin hostname) =
      p.withForwarders [addedForwarder libc forwarder] := by
  have hfamily := parseServer_family hparse
  have hoptions : ConfigParser.parseOptions libc p (forwarderOptions forwarder pin hostname) =
      { p with partialForwarder := addedForwarder libc forwarder } := by
    have hadd : p.parseOption libc 'f' forwarder =
        { p with partialForwarder := addedForwarder libc forwarder } := by
      simp [ConfigParser.parseOption, ConfigParser.pushForwarder, ConfigParser.addForwarder,
        hclean, Forwarder.empty, SockAddr.unspec, addedForwarder, hvalid] at hparse ⊢
      exact hparse
    rw [forwarderOptions, ConfigParser.parseOptions, if_pos hvalid, hadd]
    let added : ConfigParser := { p with partialForwarder := addedForwarder libc forwarder }
    have hrest : added.valid = true := hvalid
    exact parseOptions_empty (hread []) hrest rfl rfl pin hostname
  rw [forwarderArgs_eq, ConfigParser.parseConfig_argvOf hgetopt hclean _
    (forwarderOptions_takesArgument forwarder pin hostname), hoptions]
  simp only [ConfigParser.pushForwarder, addedForwarder, hfamily, ne_eq, not_false_eq_true, if_true,
    ConfigParser.withForwarders]
  rw [← hclean]

structure HoldsForwarders (libc : Libc) (vyatta : Vyatta) (n : Nat) : Prop where
  nonempty : ∀ k < n, vyatta.getValue (forwarderPath k) ≠ []
  parses : ∀ k < n, (parseServer libc (vyatta.getValue (forwarderPath k)) 853 .unspec).1 = true
  ends : vyatta.getValue (forwarderPath n) = []

theorem loadForwarders_eq (hgetopt : SplitsPairs libc)
    (hread : ∀ input, libc.bioRead input 0 = []) {vyatta : Vyatta} {n : Nat}
    (hstore : HoldsForwarders libc vyatta n) (left : Nat) :
    ∀ (fuel index : Nat) (p : ConfigParser), index + left = n → left < fuel → p.valid = true →
      p.partialForwarder = .empty →
      loadForwarders libc vyatta fuel index p = some (p.withForwarders
        ((List.range' index left).map fun k =>
          addedForwarder libc (vyatta.getValue (forwarderPath k)))) := by
  induction left with
  | zero =>
    intro fuel index p hindex hfuel hvalid hclean
    obtain ⟨fuel, rfl⟩ := Nat.exists_eq_add_of_lt hfuel
    obtain rfl : index = n := by omega
    simp [loadForwarders, hstore.ends, ConfigParser.withForwarders]
  | succ left ih =>
    intro fuel index p hindex hfuel hvalid hclean
    obtain ⟨fuel, rfl⟩ : ∃ fuel', fuel = fuel' + 1 := ⟨fuel - 1, by omega⟩
    rw [loadForwarders, if_neg (hstore.nonempty index (by omega))]
    dsimp only
    rw [parseConfig_forwarder hgetopt hread hvalid hclean (hstore.parses index (by omega)),
      ih fuel (index + 1) (p.withForwarders _) (by omega) (by omega) hvalid hclean]
    simp [List.range'_succ]

def configuredForwarder (libc : Libc) (vyatta : Vyatta) (k : Nat) : Forwarder where
  remote := (parseServer libc (vyatta.getValue (forwarderPath k)) 853 .unspec).2
  disablePki := false
  host := vyatta.getValue (hostnamePath k)
  pin :=
    let pin := vyatta.getValue (pinPath k)
    if pin = [] then [] else decode libc pin

theorem addedForwarder_eq_iff {vyatta : Vyatta} {k : Nat}
    (hpin : vyatta.getValue (pinPath k) = [] ∨ decode libc (vyatta.getValue (pinPath k)) ≠ []) :
    addedForwarder libc (vyatta.getValue (forwarderPath k)) = configuredForwarder libc vyatta k ↔
      vyatta.getValue (pinPath k) = [] ∧ vyatta.getValue (hostnamePath k) = [] := by
  simp only [addedForwarder, configuredForwarder, Forwarder.mk.injEq, true_and]
  rw [and_comm]
  refine and_congr ?_ eq_comm
  split
  next h => simp [h]
  next h => simpa [h] using hpin.resolve_left h

/-- The loader always ends, with a valid parser; what it appends is what the store
says exactly when the store has no pins and no hostnames. -/
theorem vyos_forwarders_iff (hgetopt : SplitsPairs libc)
    (hread : ∀ input, libc.bioRead input 0 = []) {vyatta : Vyatta} {n : Nat}
    (hstore : HoldsForwarders libc vyatta n)
    (hpins : ∀ k < n, vyatta.getValue (pinPath k) = [] ∨
      decode libc (vyatta.getValue (pinPath k)) ≠ [])
    {p : ConfigParser} (hbuilt : p.Built libc) (hvalid : p.valid = true) :
    (∃ loaded : ConfigParser,
      (∀ fuel > n, loadForwarders libc vyatta fuel 0 p = some loaded) ∧ loaded.valid = true ∧
      loaded.forwarders =
        p.forwarders ++ (List.range n).map (configuredForwarder libc vyatta)) ↔
      ∀ k < n, vyatta.getValue (pinPath k) = [] ∧ vyatta.getValue (hostnamePath k) = [] := by
  have hload := fun fuel hfuel => loadForwarders_eq hgetopt hread hstore n fuel 0 p (by omega)
    hfuel hvalid hbuilt.partialForwarder
  simp only [List.range_eq_range']
  constructor
  · rintro ⟨loaded, hloaded, -, hforwarders⟩ k hk
    have hadded := (hload (n + 1) (by omega)).symm.trans (hloaded (n + 1) (by omega))
    rw [Option.some.injEq] at hadded
    subst hadded
    simp only [ConfigParser.withForwarders, List.append_cancel_left_eq, List.map_inj_left,
      List.mem_range'_1, Nat.zero_le, Nat.zero_add, true_and] at hforwarders
    exact (addedForwarder_eq_iff (hpins k hk)).mp (hforwarders k hk)
  · intro hnone
    refine ⟨_, hload, hvalid, ?_⟩
    simp only [ConfigParser.withForwarders, List.append_cancel_left_eq]
    refine List.map_congr_left fun k hk => ?_
    exact (addedForwarder_eq_iff (hpins k (by simpa using hk))).mpr (hnone k (by simpa using hk))

end Vyatta

/-! A library that does what is documented on one forwarder, `1.1.1.1`, and on
the Base64 of one byte, `AQ==`. -/

def splitPairs : List Bytes → List (Char × Bytes)
  | [_, c] :: optarg :: rest => (Char.ofUInt8 c, optarg) :: splitPairs rest
  | _ => []

def sampleLibc : Libc where
  getopt_long argv :=
    let options := splitPairs argv.tail
    ⟨options, 1 + 2 * options.length⟩
  inet_pton family ip :=
    if family = .inet ∧ ip = bytes "1.1.1.1" then some [1, 1, 1, 1] else none
  bioRead input n := if input = bytes "AQ==" then [(1 : UInt8)].take n else []

theorem sampleLibc_splitsPairs : SplitsPairs sampleLibc := by
  intro name options htakes
  have hsplit : splitPairs (argvOf name options).tail = options := by
    induction options with
    | nil => rfl
    | cons o options ih =>
      obtain ⟨c, optarg⟩ := o
      have hc : Char.ofUInt8 c.toUInt8 = c := by
        have hmem := htakes _ List.mem_cons_self
        fin_cases hmem <;> rfl
      have hrest := ih fun o ho => htakes o (List.mem_cons_of_mem _ ho)
      simp only [argvOf, List.tail_cons] at hrest
      simp [argvOf, splitPairs, hc, hrest]
  simp [sampleLibc, hsplit]

theorem sampleLibc_bioRead (input : Bytes) : sampleLibc.bioRead input 0 = [] := by
  simp [sampleLibc]

def sampleStore (pin : Option Bytes) : Vyatta where
  config := some fun path =>
    if path = Vyatta.forwarderPath 0 then some (bytes "1.1.1.1")
    else if path = Vyatta.pinPath 0 then pin
    else none

theorem sampleStore_holds (pin : Option Bytes) :
    Vyatta.HoldsForwarders sampleLibc (sampleStore pin) 1 where
  nonempty k hk := by
    obtain rfl : k = 0 := by omega
    exact (by decide : bytes "1.1.1.1" ≠ [])
  parses k hk := by
    obtain rfl : k = 0 := by omega
    exact (by decide : (parseServer sampleLibc (bytes "1.1.1.1") 853 .unspec).1 = true)
  ends := by cases pin <;> rfl

theorem vyos_forwarders_unpinned : ∃ loaded : ConfigParser,
    (∀ fuel > 1, Vyatta.loadForwarders sampleLibc (sampleStore none) fuel 0 .new = some loaded) ∧
    loaded.valid = true ∧
    loaded.forwarders = [Vyatta.configuredForwarder sampleLibc (sampleStore none) 0] :=
  (Vyatta.vyos_forwarders_iff sampleLibc_splitsPairs sampleLibc_bioRead (sampleStore_holds none)
    (by decide) .new rfl).mpr (by decide)

/-- With the pin configured it is dropped: the loaded forwarder has none. -/
theorem vyos_pin_dropped :
    ¬ ∀ libc : Libc, SplitsPairs libc → (∀ input, libc.bioRead input 0 = []) →
      ∀ (vyatta : Vyatta) (n : Nat), Vyatta.HoldsForwarders libc vyatta n →
      (∀ k < n, vyatta.getValue (Vyatta.pinPath k) = [] ∨
        decode libc (vyatta.getValue (Vyatta.pinPath k)) ≠ []) →
      ∀ p : ConfigParser, p.Built libc → p.valid = true → ∃ loaded : ConfigParser,
        (∀ fuel > n, Vyatta.loadForwarders libc vyatta fuel 0 p = some loaded) ∧
        loaded.valid = true ∧ loaded.forwarders =
          p.forwarders ++ (List.range n).map (Vyatta.configuredForwarder libc vyatta) := by
  intro h
  obtain ⟨loaded, hload, -, hforwarders⟩ := h sampleLibc sampleLibc_splitsPairs
    sampleLibc_bioRead (sampleStore (some (bytes "AQ=="))) 1 (sampleStore_holds _) (by decide)
    .new .new rfl
  have hpins : (Vyatta.loadForwarders sampleLibc (sampleStore (some (bytes "AQ=="))) 2 0 .new).map
      (fun p => p.forwarders.map Forwarder.pin) = some [[]] := by decide
  rw [hload 2 (by omega), Option.map_some, hforwarders] at hpins
  exact absurd hpins (by decide)

end Dote.Config
