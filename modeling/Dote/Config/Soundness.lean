import Dote.Config.ParseServer
import Dote.Config.WorkingConfig

/-! What is in a parser that is valid, however it was built: addresses that a socket can be
made for, and numbers in their bounds. -/
namespace Dote.Config

/-- An address with a port that a socket can be connected or bound to. -/
structure SockAddr.WellFormed (a : SockAddr) : Prop where
  port : a.port ≠ 0
  addr : (a.family = .inet ∧ a.addr.length = 4) ∨ (a.family = .inet6 ∧ a.addr.length = 16)

/-- What is documented of `inet_pton`: how long an `in_addr` and an `in6_addr` are. -/
structure Sized (libc : Libc) : Prop where
  inet : ∀ text addr, libc.inet_pton .inet text = some addr → addr.length = 4
  inet6 : ∀ text addr, libc.inet_pton .inet6 text = some addr → addr.length = 16

variable {libc : Libc}

theorem readPort_ne_zero {defaultPort port : UInt16} (hdefault : defaultPort ≠ 0) {rest : Bytes}
    (h : readPort defaultPort rest = some port) : port ≠ 0 := by
  unfold readPort at h
  split at h
  next number =>
    split at h
    next => contradiction
    next hbounds =>
      cases h
      intro hzero
      have hvalue : (UInt16.ofNat (strtol number).1.toNat).toNat = 0 := by rw [hzero]; rfl
      rw [UInt16.toNat_ofNat'] at hvalue
      omega
  next =>
    cases h
    exact hdefault

theorem parts_family {s ip rest : Bytes} {family : Family} (h : parts s = some (family, ip, rest)) :
    family = .inet ∨ family = .inet6 := by
  unfold parts at h
  split at h
  next =>
    obtain ⟨found, -, heq⟩ := Option.map_eq_some_iff.mp h
    cases heq
    exact .inr rfl
  next =>
    split at h
    next =>
      cases h
      exact .inl rfl
    next =>
      cases h
      exact .inl rfl

theorem parseServer_wellFormed (hsized : Sized libc) {server : Bytes} {defaultPort : UInt16}
    (hdefault : defaultPort ≠ 0) {output : SockAddr}
    (h : (parseServer libc server defaultPort output).1 = true) :
    (parseServer libc server defaultPort output).2.WellFormed := by
  have hparsed : parseServer libc server defaultPort output =
      (true, (parseServer libc server defaultPort output).2) := Prod.ext h rfl
  obtain ⟨family, ip, rest, port, addr, hparts, hport, hpton, hresult⟩ :=
    parseServer_parts.mp hparsed
  rw [hresult]
  refine ⟨readPort_ne_zero hdefault hport, ?_⟩
  rcases parts_family hparts with rfl | rfl
  · exact .inl ⟨rfl, hsized.inet ip addr hpton⟩
  · exact .inr ⟨rfl, hsized.inet6 ip addr hpton⟩

namespace ConfigParser

theorem decimalUpTo_bounds {limit : Int} {number : Bytes} {value : Nat}
    (h : decimalUpTo limit number = some value) : 1 ≤ value ∧ (value : Int) ≤ limit := by
  unfold decimalUpTo at h
  dsimp only at h
  split at h
  next => contradiction
  next hbounds =>
    cases h
    omega

/-- The invariant of a parser. While it is not valid there may be a forwarder in it whose
address was not parsed. -/
structure Sound (p : ConfigParser) : Prop where
  servers : ∀ server ∈ p.servers, server.WellFormed
  forwarders : p.valid = true → ∀ forwarder ∈ p.forwarders, forwarder.remote.WellFormed
  begun : p.valid = true → p.partialForwarder.remote.family ≠ .unspec →
    p.partialForwarder.remote.WellFormed
  ipLookup : p.valid = true → p.ipLookup.family ≠ .unspec → p.ipLookup.WellFormed
  maxConnections : 1 ≤ p.maxConnections ∧ p.maxConnections ≤ 6000
  timeout : 1 ≤ p.timeout ∧ p.timeout ≤ 65535

namespace Sound

variable {p : ConfigParser}

theorem new : ConfigParser.new.Sound where
  servers _ h := absurd h List.not_mem_nil
  forwarders _ _ h := absurd h List.not_mem_nil
  begun _ h := absurd rfl h
  ipLookup _ h := absurd rfl h
  maxConnections := by decide
  timeout := by decide

theorem invalid (h : p.Sound) {p' : ConfigParser} (hvalid : p'.valid = false)
    (hservers : p'.servers = p.servers) (hmax : p'.maxConnections = p.maxConnections)
    (htimeout : p'.timeout = p.timeout) : p'.Sound where
  servers := hservers ▸ h.servers
  forwarders hp := absurd hp (by simp [hvalid])
  begun hp := absurd hp (by simp [hvalid])
  ipLookup hp := absurd hp (by simp [hvalid])
  maxConnections := hmax ▸ h.maxConnections
  timeout := htimeout ▸ h.timeout

theorem addServer (h : p.Sound) (hsized : Sized libc) (server : Bytes) :
    (p.addServer libc server).Sound := by
  unfold ConfigParser.addServer
  dsimp only
  split
  next hparsed =>
    refine ⟨fun added hmem => ?_, h.forwarders, h.begun, h.ipLookup, h.maxConnections, h.timeout⟩
    rw [List.mem_append, List.mem_singleton] at hmem
    rcases hmem with hbefore | rfl
    · exact h.servers added hbefore
    · exact parseServer_wellFormed hsized (by decide) hparsed
  next => exact h.invalid rfl rfl rfl rfl

theorem pushForwarder (h : p.Sound) : p.pushForwarder.Sound := by
  unfold ConfigParser.pushForwarder
  dsimp only
  split
  next hfamily =>
    refine ⟨h.servers, fun hvalid forwarder hmem => ?_, fun _ hne => absurd rfl hne, h.ipLookup,
      h.maxConnections, h.timeout⟩
    rw [List.mem_append, List.mem_singleton] at hmem
    rcases hmem with hbefore | rfl
    · exact h.forwarders hvalid forwarder hbefore
    · exact h.begun hvalid hfamily
  next =>
    split
    next => exact h.invalid rfl rfl rfl rfl
    next =>
      exact ⟨h.servers, h.forwarders, fun _ hne => absurd rfl hne, h.ipLookup, h.maxConnections,
        h.timeout⟩

theorem addForwarder (h : p.Sound) (hsized : Sized libc) (server : Bytes) :
    (p.addForwarder libc server).Sound where
  servers := h.servers
  forwarders hvalid := h.forwarders (Bool.and_eq_true_iff.mp hvalid).1
  begun hvalid _ :=
    parseServer_wellFormed hsized (by decide) (Bool.and_eq_true_iff.mp hvalid).2
  ipLookup hvalid := h.ipLookup (Bool.and_eq_true_iff.mp hvalid).1
  maxConnections := h.maxConnections
  timeout := h.timeout

theorem addHostname (h : p.Sound) (hostname : Bytes) : (p.addHostname hostname).Sound := by
  unfold ConfigParser.addHostname
  split
  next =>
    exact ⟨h.servers, h.forwarders, h.begun, h.ipLookup, h.maxConnections, h.timeout⟩
  next => exact h.invalid rfl rfl rfl rfl

theorem addPin (h : p.Sound) (pin : Bytes) : (p.addPin libc pin).Sound where
  servers := h.servers
  forwarders hvalid := h.forwarders (Bool.and_eq_true_iff.mp hvalid).1
  begun hvalid := h.begun (Bool.and_eq_true_iff.mp hvalid).1
  ipLookup hvalid := h.ipLookup (Bool.and_eq_true_iff.mp hvalid).1
  maxConnections := h.maxConnections
  timeout := h.timeout

theorem setMaxConnections (h : p.Sound) (number : Bytes) : (p.setMaxConnections number).Sound := by
  unfold ConfigParser.setMaxConnections
  split
  next => exact h.invalid rfl rfl rfl rfl
  next value hvalue =>
    obtain ⟨hpos, hle⟩ := decimalUpTo_bounds hvalue
    have hbound : value ≤ 6000 := by omega
    exact ⟨h.servers, h.forwarders, h.begun, h.ipLookup, ⟨hpos, hbound⟩, h.timeout⟩

theorem setTimeout (h : p.Sound) (number : Bytes) : (p.setTimeout number).Sound := by
  unfold ConfigParser.setTimeout
  split
  next => exact h.invalid rfl rfl rfl rfl
  next value hvalue =>
    obtain ⟨hpos, hle⟩ := decimalUpTo_bounds hvalue
    have hbound : value ≤ 65535 := by omega
    exact ⟨h.servers, h.forwarders, h.begun, h.ipLookup, h.maxConnections, ⟨hpos, hbound⟩⟩

theorem setIpLookup (h : p.Sound) (hsized : Sized libc) (server : Bytes) :
    (p.setIpLookup libc server).Sound where
  servers := h.servers
  forwarders hvalid := h.forwarders (Bool.and_eq_true_iff.mp hvalid).1
  begun hvalid := h.begun (Bool.and_eq_true_iff.mp hvalid).1
  ipLookup hvalid _ :=
    parseServer_wellFormed hsized (by decide) (Bool.and_eq_true_iff.mp hvalid).2
  maxConnections := h.maxConnections
  timeout := h.timeout

theorem others (h : p.Sound) (ciphers pidFile : Bytes) (daemonise disablePki : Bool) :
    Sound { p with
      ciphers := ciphers
      pidFile := pidFile
      daemonise := daemonise
      partialForwarder := { p.partialForwarder with disablePki := disablePki } } :=
  ⟨h.servers, h.forwarders, h.begun, h.ipLookup, h.maxConnections, h.timeout⟩

theorem parseOption (h : p.Sound) (hsized : Sized libc) (c : Char) (optarg : Bytes) :
    (p.parseOption libc c optarg).Sound := by
  unfold ConfigParser.parseOption
  split
  next => exact h.addServer hsized optarg
  next => exact h.pushForwarder.addForwarder hsized optarg
  next => exact h.addHostname optarg
  next => exact h.others p.ciphers p.pidFile p.daemonise true
  next => exact h.addPin optarg
  next => exact h.others optarg p.pidFile p.daemonise p.partialForwarder.disablePki
  next => exact h.setMaxConnections optarg
  next => exact h.others p.ciphers p.pidFile true p.partialForwarder.disablePki
  next => exact h.others p.ciphers optarg p.daemonise p.partialForwarder.disablePki
  next => exact h.setIpLookup hsized optarg
  next => exact h.setTimeout optarg
  next => exact h.invalid rfl rfl rfl rfl

theorem parseOptions (hsized : Sized libc) (options : List (Char × Bytes)) :
    ∀ {p : ConfigParser}, p.Sound → (parseOptions libc p options).Sound := by
  induction options with
  | nil => exact fun h => h
  | cons option options ih =>
    intro p h
    unfold ConfigParser.parseOptions
    split
    next => exact ih (h.parseOption hsized option.1 option.2)
    next => exact h

theorem parseConfig (h : p.Sound) (hsized : Sized libc) (argv : List Bytes) :
    (p.parseConfig libc argv).Sound := by
  have hclean : Sound { p with partialForwarder := { p.partialForwarder with
      remote := { p.partialForwarder.remote with family := .unspec } } } :=
    ⟨h.servers, h.forwarders, fun _ hne => absurd rfl hne, h.ipLookup, h.maxConnections, h.timeout⟩
  have hparsed := (Sound.parseOptions hsized (libc.getopt_long argv).options hclean).pushForwarder
  unfold ConfigParser.parseConfig
  dsimp only
  split
  next => exact hparsed.invalid rfl rfl rfl rfl
  next => exact hparsed

theorem addDefaultForwarder (h : p.Sound) (hsized : Sized libc) (server : Bytes) :
    (p.addDefaultForwarder libc server).Sound := by
  unfold ConfigParser.addDefaultForwarder
  dsimp only
  split
  next hparsed =>
    refine ⟨h.servers, fun hvalid forwarder hmem => ?_, h.begun, h.ipLookup, h.maxConnections,
      h.timeout⟩
    rw [List.mem_append, List.mem_singleton] at hmem
    rcases hmem with hbefore | rfl
    · exact h.forwarders hvalid forwarder hbefore
    · exact parseServer_wellFormed hsized (by decide) hparsed
  next => exact h

theorem addDefaultServer (h : p.Sound) (hsized : Sized libc) (server : Bytes) :
    (p.addDefaultServer libc server).Sound := by
  unfold ConfigParser.addDefaultServer
  dsimp only
  split
  next hparsed =>
    refine ⟨fun added hmem => ?_, h.forwarders, h.begun, h.ipLookup, h.maxConnections, h.timeout⟩
    rw [List.mem_append, List.mem_singleton] at hmem
    rcases hmem with hbefore | rfl
    · exact h.servers added hbefore
    · exact parseServer_wellFormed hsized (by decide) hparsed
  next => exact h

theorem setDefaults (h : p.Sound) (hsized : Sized libc) : (p.setDefaults libc).Sound := by
  have hforwarders : (if p.forwarders = [] then p.defaultForwarders libc else p).Sound := by
    split
    next => exact List.foldlRecOn _ _ h fun _ h server _ => h.addDefaultForwarder hsized server
    next => exact h
  have hservers : ∀ {p : ConfigParser}, p.Sound →
      (if p.servers = [] then p.defaultServers libc else p).Sound := by
    intro p h
    split
    next => exact List.foldlRecOn _ _ h fun _ h server _ => h.addDefaultServer hsized server
    next => exact h
  have hciphers : ∀ {p : ConfigParser}, p.Sound →
      (if p.ciphers = [] then { p with ciphers := bytes "DEFAULT" } else p).Sound := by
    intro p h
    split
    next => exact h.others (bytes "DEFAULT") p.pidFile p.daemonise p.partialForwarder.disablePki
    next => exact h
  exact hciphers (hservers hforwarders)

end Sound

theorem Built.sound (hsized : Sized libc) {p : ConfigParser} (h : Built libc p) : p.Sound := by
  induction h with
  | new => exact .new
  | parseConfig p argv _ ih => exact ih.parseConfig hsized argv
  | setDefaults p _ ih => exact ih.setDefaults hsized

section Defaults

variable {p : ConfigParser}

/-- What is documented of `inet_pton`: it takes addresses in dotted decimal. -/
structure TakesDefaults (libc : Libc) : Prop where
  forwarder : (libc.inet_pton .inet (bytes "1.1.1.1")).isSome = true
  server : (libc.inet_pton .inet (bytes "127.0.0.1")).isSome = true

theorem parseServer_isSome {server : Bytes} {defaultPort : UInt16}
    (hparts : parts server = some (.inet, server, []))
    (h : (libc.inet_pton .inet server).isSome = true) :
    (parseServer libc server defaultPort .unspec).1 = true := by
  obtain ⟨addr, haddr⟩ := Option.isSome_iff_exists.mp h
  have hparsed : parseServer libc server defaultPort .unspec = (true, ⟨.inet, defaultPort, addr⟩) :=
    parseServer_parts.mpr ⟨_, _, _, _, addr, hparts, rfl, haddr, rfl⟩
  rw [hparsed]

theorem foldl_ne_nil {α : Type} {f : ConfigParser → Bytes → ConfigParser}
    {items : ConfigParser → List α} (hkeep : ∀ p server, items p ≠ [] → items (f p server) ≠ [])
    {servers : List Bytes} {server : Bytes} (hmem : server ∈ servers)
    (htakes : ∀ p, items (f p server) ≠ []) : ∀ p, items (servers.foldl f p) ≠ [] := by
  have hrest : ∀ (servers : List Bytes) (p : ConfigParser), items p ≠ [] →
      items (servers.foldl f p) ≠ [] := fun servers p h =>
    List.foldlRecOn (motive := fun p => items p ≠ []) servers f h fun p h server _ =>
      hkeep p server h
  intro p
  obtain ⟨first, last, rfl⟩ := List.append_of_mem hmem
  rw [List.foldl_append, List.foldl_cons]
  exact hrest last _ (htakes _)

theorem defaultForwarders_ne_nil (h : TakesDefaults libc) (p : ConfigParser) :
    (p.defaultForwarders libc).forwarders ≠ [] := by
  refine foldl_ne_nil (fun p server hne => ?_) (show bytes "1.1.1.1" ∈ _ by simp) (fun p => ?_) p
  · unfold addDefaultForwarder
    dsimp only
    split
    next => simp
    next => exact hne
  · unfold addDefaultForwarder
    dsimp only
    rw [if_pos (parseServer_isSome (by decide +kernel) h.forwarder)]
    simp

theorem defaultServers_ne_nil (h : TakesDefaults libc) (p : ConfigParser) :
    (p.defaultServers libc).servers ≠ [] := by
  refine foldl_ne_nil (fun p server hne => ?_) (show bytes "127.0.0.1" ∈ _ by simp) (fun p => ?_) p
  · unfold addDefaultServer
    dsimp only
    split
    next => simp
    next => exact hne
  · unfold addDefaultServer
    dsimp only
    rw [if_pos (parseServer_isSome (by decide +kernel) h.server)]
    simp

theorem defaultServers_forwarders (p : ConfigParser) :
    (p.defaultServers libc).forwarders = p.forwarders :=
  List.foldlRecOn (motive := fun q : ConfigParser => q.forwarders = p.forwarders) _ _ rfl
    fun q h server _ => by
    unfold addDefaultServer
    dsimp only
    split
    next => exact h
    next => exact h

theorem setDefaults_ne_nil (h : TakesDefaults libc) (p : ConfigParser) :
    (p.setDefaults libc).forwarders ≠ [] ∧ (p.setDefaults libc).servers ≠ [] := by
  have hforwarders :
      (if p.forwarders = [] then p.defaultForwarders libc else p).forwarders ≠ [] := by
    split
    next => exact defaultForwarders_ne_nil h p
    next hne => exact hne
  have hboth : ∀ {p : ConfigParser}, p.forwarders ≠ [] →
      (if p.servers = [] then p.defaultServers libc else p).forwarders ≠ [] ∧
        (if p.servers = [] then p.defaultServers libc else p).servers ≠ [] := by
    intro p hne
    split
    next => exact ⟨by rw [defaultServers_forwarders]; exact hne, defaultServers_ne_nil h p⟩
    next hservers => exact ⟨hne, hservers⟩
  have hciphers : ∀ {p : ConfigParser}, p.forwarders ≠ [] ∧ p.servers ≠ [] →
      (if p.ciphers = [] then { p with ciphers := bytes "DEFAULT" } else p).forwarders ≠ [] ∧
        (if p.ciphers = [] then { p with ciphers := bytes "DEFAULT" } else p).servers ≠ [] := by
    intro p h
    split
    next => exact h
    next => exact h
  exact hciphers (hboth hforwarders)

end Defaults

end ConfigParser

namespace Vyatta

variable {vyatta : Vyatta}

theorem loadServers_built {fuel : Nat} : ∀ {index : Nat} {p loaded : ConfigParser},
    p.Built libc → vyatta.loadServers libc fuel index p = some loaded → loaded.Built libc := by
  induction fuel with
  | zero => exact fun _ h => absurd h (by simp [loadServers])
  | succ fuel ih =>
    intro index p loaded hbuilt h
    unfold loadServers at h
    dsimp only at h
    split at h
    next =>
      cases h
      exact hbuilt
    next => exact ih (.parseConfig _ _ hbuilt) h

theorem loadForwarders_built {fuel : Nat} : ∀ {index : Nat} {p loaded : ConfigParser},
    p.Built libc → vyatta.loadForwarders libc fuel index p = some loaded → loaded.Built libc := by
  induction fuel with
  | zero => exact fun _ h => absurd h (by simp [loadForwarders])
  | succ fuel ih =>
    intro index p loaded hbuilt h
    unfold loadForwarders at h
    dsimp only at h
    split at h
    next =>
      cases h
      exact hbuilt
    next => exact ih (.parseConfig _ _ hbuilt) h

end Vyatta

theorem workingConfig_sound (hsized : Sized libc) (hdefaults : ConfigParser.TakesDefaults libc)
    {vyatta : Vyatta} {fuel : Nat} {base config : ConfigParser} (hbase : base.Built libc)
    (h : workingConfig libc vyatta fuel base = some config) :
    config.Sound ∧ config.forwarders ≠ [] ∧ config.servers ≠ [] := by
  obtain ⟨loaded, hloaded, rfl⟩ := Option.map_eq_some_iff.mp h
  obtain ⟨withServers, hservers, hforwarders⟩ := Option.bind_eq_some_iff.mp hloaded
  have hbuilt : loaded.Built libc :=
    Vyatta.loadForwarders_built (Vyatta.loadServers_built hbase hservers) hforwarders
  exact ⟨(ConfigParser.Built.setDefaults loaded hbuilt).sound hsized,
    ConfigParser.setDefaults_ne_nil hdefaults loaded⟩

end Dote.Config
