import Dote.Config.VyattaForwarders
import Dote.Library.Groups

/-! The forwarders that the options make: each -f begins one, which has the options
up to the next -f or to the end of the call. -/
namespace Dote.Config
open Dote.Library

def forwarderOf (option : Char × Bytes) : Option Bytes :=
  if option.1 = 'f' then some option.2 else none

def argumentsOf (c : Char) (options : List (Char × Bytes)) : List Bytes :=
  (options.filter fun option => option.1 = c).map Prod.snd

def hostsOf (options : List (Char × Bytes)) : List Bytes :=
  (argumentsOf 'h' options).filter fun host => host ≠ []

def pinOf (libc : Libc) (options : List (Char × Bytes)) : Bytes :=
  ((argumentsOf 'p' options).map (decode libc)).getLastD []

def SecondHost (options : List (Char × Bytes)) : Prop :=
  ∃ host ∈ (argumentsOf 'h' options).dropLast, host ≠ []

def configured (libc : Libc) (group : Bytes × List (Char × Bytes)) : Forwarder where
  remote := (parseServer libc group.1 853 .unspec).2
  disablePki := argumentsOf 'i' group.2 ≠ []
  host := (hostsOf group.2).headD []
  pin := pinOf libc group.2

/-! What a partial forwarder becomes with the options that are still to come. -/

def complete (libc : Libc) (f : Forwarder) (options : List (Char × Bytes)) : Forwarder where
  remote := f.remote
  disablePki := f.disablePki || decide (argumentsOf 'i' options ≠ [])
  host := ((f.host :: argumentsOf 'h' options).filter fun host => host ≠ []).headD []
  pin := ((argumentsOf 'p' options).map (decode libc)).getLastD f.pin

def OneHost (hosts : List Bytes) : Prop := ∀ host ∈ hosts.dropLast, host = []

variable {libc : Libc}

theorem argumentsOf_cons (c c' : Char) (optarg : Bytes) (options : List (Char × Bytes)) :
    argumentsOf c ((c', optarg) :: options) =
      if c' = c then optarg :: argumentsOf c options else argumentsOf c options := by
  unfold argumentsOf
  by_cases h : c' = c
  · simp [h]
  · simp [h]

theorem oneHost_of_cons {host : Bytes} {hosts : List Bytes} (h : OneHost (host :: hosts)) :
    OneHost hosts := by
  cases hosts with
  | nil => simp [OneHost]
  | cons second hosts => exact fun host' hhost' => h host' (by simp [hhost'])

theorem oneHost_cons_nil {hosts : List Bytes} : OneHost ([] :: hosts) ↔ OneHost hosts := by
  refine ⟨oneHost_of_cons, ?_⟩
  cases hosts with
  | nil => simp [OneHost]
  | cons second hosts =>
    intro h host hhost
    simp only [List.dropLast_cons_cons, List.mem_cons] at hhost
    cases hhost with
    | inl heq => exact heq
    | inr hmem => exact h host (by simpa using hmem)

theorem OneHost.length_le {hosts : List Bytes} (h : OneHost hosts) :
    (hosts.filter fun host => host ≠ []).length ≤ 1 := by
  induction hosts with
  | nil => simp
  | cons host hosts ih =>
    have hrest := ih (oneHost_of_cons h)
    by_cases hhost : host = []
    · simpa [hhost] using hrest
    · cases hosts with
      | nil => simp [hhost]
      | cons second hosts => exact absurd (h host (by simp)) hhost

theorem configured_eq (group : Bytes × List (Char × Bytes)) :
    configured libc group =
      complete libc ⟨(parseServer libc group.1 853 .unspec).2, false, [], []⟩ group.2 := by
  simp [configured, complete, hostsOf, pinOf]

namespace ConfigParser

theorem parseOption_other (libc : Libc) (p : ConfigParser) {c : Char} (optarg : Bytes)
    (hf : c ≠ 'f') (hh : c ≠ 'h') (hi : c ≠ 'i') (hp : c ≠ 'p') :
    (p.parseOption libc c optarg).partialForwarder = p.partialForwarder ∧
      (p.parseOption libc c optarg).forwarders = p.forwarders := by
  unfold parseOption
  split
  next =>
    unfold addServer
    dsimp only
    split
    next => exact ⟨rfl, rfl⟩
    next => exact ⟨rfl, rfl⟩
  next => contradiction
  next => contradiction
  next => contradiction
  next => contradiction
  next => exact ⟨rfl, rfl⟩
  next =>
    unfold setMaxConnections
    split
    next => exact ⟨rfl, rfl⟩
    next => exact ⟨rfl, rfl⟩
  next => exact ⟨rfl, rfl⟩
  next => exact ⟨rfl, rfl⟩
  next => exact ⟨rfl, rfl⟩
  next =>
    unfold setTimeout
    split
    next => exact ⟨rfl, rfl⟩
    next => exact ⟨rfl, rfl⟩
  next => exact ⟨rfl, rfl⟩

theorem pushForwarder_valid {p : ConfigParser} (h : p.pushForwarder.valid = true) :
    p.valid = true ∧ (p.partialForwarder.remote.family = .unspec →
      p.partialForwarder.host = [] ∧ p.partialForwarder.pin = []) := by
  unfold pushForwarder at h
  split at h
  next hfamily => exact ⟨h, fun h' => absurd h' hfamily⟩
  next hfamily =>
    split at h
    next => simp at h
    next hempty =>
      refine ⟨h, fun _ => ?_⟩
      rw [not_or, not_not, not_not] at hempty
      exact hempty

def pushed (f : Forwarder) : List Forwarder := if f.remote.family ≠ .unspec then [f] else []

theorem pushForwarder_forwarders (p : ConfigParser) :
    p.pushForwarder.forwarders = p.forwarders ++ pushed p.partialForwarder := by
  unfold pushForwarder pushed
  dsimp only
  split
  next => rfl
  next =>
    rw [List.append_nil]
    split
    next => rfl
    next => rfl

theorem parseOption_forwarder {p : ConfigParser} {optarg : Bytes}
    (h : (p.parseOption libc 'f' optarg).valid = true) :
    p.pushForwarder.valid = true ∧ (parseServer libc optarg 853 .unspec).1 = true ∧
      (p.parseOption libc 'f' optarg).partialForwarder =
        ⟨(parseServer libc optarg 853 .unspec).2, false, [], []⟩ ∧
      (p.parseOption libc 'f' optarg).forwarders =
        p.forwarders ++ pushed p.partialForwarder := by
  have hvalid : (p.pushForwarder.valid && (parseServer libc optarg 853 .unspec).1) = true := h
  rw [Bool.and_eq_true] at hvalid
  exact ⟨hvalid.1, hvalid.2, rfl, pushForwarder_forwarders p⟩

theorem parseOption_complete {p : ConfigParser} {c : Char} {optarg : Bytes} (hc : c ≠ 'f')
    (h : (p.parseOption libc c optarg).valid = true) (options : List (Char × Bytes)) :
    (p.parseOption libc c optarg).forwarders = p.forwarders ∧
      complete libc (p.parseOption libc c optarg).partialForwarder options =
        complete libc p.partialForwarder ((c, optarg) :: options) ∧
      (OneHost ((p.parseOption libc c optarg).partialForwarder.host ::
          argumentsOf 'h' options) →
        OneHost (p.partialForwarder.host :: argumentsOf 'h' ((c, optarg) :: options))) := by
  by_cases hh : c = 'h'
  · subst hh
    change (p.addHostname optarg).valid = true at h
    have hhost : p.partialForwarder.host = [] := by
      by_contra hhost
      rw [addHostname, if_neg hhost] at h
      contradiction
    have hadd : p.parseOption libc 'h' optarg =
        { p with partialForwarder := { p.partialForwarder with host := optarg } } := if_pos hhost
    rw [hadd]
    refine ⟨rfl, ?_, ?_⟩
    · simp [complete, argumentsOf_cons, hhost]
    · intro hone
      rw [argumentsOf_cons, if_pos rfl, hhost, oneHost_cons_nil]
      exact hone
  · rw [argumentsOf_cons 'h', if_neg hh]
    by_cases hi : c = 'i'
    · subst hi
      refine ⟨rfl, ?_, id⟩
      simp [complete, argumentsOf_cons, parseOption, disableVerification]
    · by_cases hp : c = 'p'
      · subst hp
        refine ⟨rfl, ?_, id⟩
        rw [complete, complete, argumentsOf_cons 'p', if_pos rfl, List.map_cons,
          List.getLastD_cons, argumentsOf_cons 'i', if_neg hi, argumentsOf_cons 'h', if_neg hh]
        rfl
      · obtain ⟨hpart, hforwarders⟩ := parseOption_other libc p optarg hc hh hi hp
        rw [hpart]
        refine ⟨hforwarders, ?_, id⟩
        simp [complete, argumentsOf_cons, hh, hi, hp]

/-- What a call that leaves the parser valid has done with its options, from a
parser that may have a partial forwarder. -/
structure Grouped (libc : Libc) (p : ConfigParser) (options : List (Char × Bytes)) : Prop where
  forwarders : (parseOptions libc p options).pushForwarder.forwarders =
    p.forwarders ++ pushed (complete libc p.partialForwarder (front forwarderOf options)) ++
      (groups forwarderOf options).map (configured libc)
  front_empty : p.partialForwarder.remote.family = .unspec →
    (complete libc p.partialForwarder (front forwarderOf options)).host = [] ∧
      (complete libc p.partialForwarder (front forwarderOf options)).pin = []
  front_host : OneHost (p.partialForwarder.host ::
    argumentsOf 'h' (front forwarderOf options))
  parses : ∀ group ∈ groups forwarderOf options,
    (parseServer libc group.1 853 .unspec).1 = true
  host : ∀ group ∈ groups forwarderOf options, OneHost (argumentsOf 'h' group.2)

theorem complete_nil (f : Forwarder) : complete libc f [] = f := by
  obtain ⟨remote, disablePki, host, pin⟩ := f
  by_cases hhost : host = []
  · simp [complete, argumentsOf, hhost]
  · simp [complete, argumentsOf, hhost]

theorem parseOptions_valid {options : List (Char × Bytes)} : ∀ {p : ConfigParser},
    (parseOptions libc p options).pushForwarder.valid = true → p.valid = true := by
  induction options with
  | nil => exact fun h => (pushForwarder_valid h).1
  | cons option options ih =>
    intro p h
    unfold parseOptions at h
    split at h
    next hvalid => exact hvalid
    next => exact (pushForwarder_valid h).1

theorem grouped_nil {p : ConfigParser} (h : p.pushForwarder.valid = true) : Grouped libc p [] where
  forwarders := by
    rw [front_nil, complete_nil]
    exact (pushForwarder_forwarders p).trans (List.append_nil _).symm
  front_empty := by
    rw [front_nil, complete_nil]
    exact (pushForwarder_valid h).2
  front_host := by simp [OneHost, argumentsOf]
  parses := by simp
  host := by simp

section Cons

variable {p : ConfigParser} {c : Char} {optarg : Bytes} {options : List (Char × Bytes)}
  (hvalid : p.valid = true)
include hvalid

theorem Grouped.forwarder (hstep : (p.parseOption libc 'f' optarg).valid = true)
    (h : Grouped libc (p.parseOption libc 'f' optarg) options) :
    Grouped libc p (('f', optarg) :: options) := by
  have hhead : forwarderOf ('f', optarg) = some optarg := rfl
  obtain ⟨hpush, hparses, hpart, hforwarders⟩ := parseOption_forwarder hstep
  have hbegun : complete libc (p.parseOption libc 'f' optarg).partialForwarder
      (front forwarderOf options) = configured libc (optarg, front forwarderOf options) := by
    rw [configured_eq, hpart]
  have hfamily := parseServer_family hparses
  constructor
  · rw [front_head _ hhead, groups_head _ hhead, complete_nil, parseOptions, if_pos hvalid,
      h.forwarders, hbegun, hforwarders]
    simp [pushed, configured, hfamily]
  · rw [front_head _ hhead, complete_nil]
    exact (pushForwarder_valid hpush).2
  · rw [front_head _ hhead]
    simp [OneHost, argumentsOf]
  · rw [groups_head _ hhead, List.forall_mem_cons]
    exact ⟨hparses, h.parses⟩
  · rw [groups_head _ hhead, List.forall_mem_cons]
    exact ⟨oneHost_of_cons h.front_host, h.host⟩

theorem Grouped.other (hc : c ≠ 'f') (hstep : (p.parseOption libc c optarg).valid = true)
    (h : Grouped libc (p.parseOption libc c optarg) options) :
    Grouped libc p ((c, optarg) :: options) := by
  have hhead : forwarderOf (c, optarg) = none := if_neg hc
  obtain ⟨hforwarders, hcomplete, hone⟩ :=
    parseOption_complete hc hstep (front forwarderOf options)
  have hremote : (p.parseOption libc c optarg).partialForwarder.remote =
      p.partialForwarder.remote := by
    have hfields := congrArg Forwarder.remote hcomplete
    exact hfields
  constructor
  · rw [front_other _ hhead, groups_other _ hhead, parseOptions, if_pos hvalid, h.forwarders,
      hcomplete, hforwarders]
  · rw [front_other _ hhead, ← hcomplete, ← hremote]
    exact h.front_empty
  · rw [front_other _ hhead]
    exact hone h.front_host
  · rw [groups_other _ hhead]
    exact h.parses
  · rw [groups_other _ hhead]
    exact h.host

end Cons

theorem parseOptions_grouped {options : List (Char × Bytes)} : ∀ {p : ConfigParser},
    (parseOptions libc p options).pushForwarder.valid = true → Grouped libc p options := by
  induction options with
  | nil => exact fun h => grouped_nil h
  | cons option options ih =>
    intro p h
    obtain ⟨c, optarg⟩ := option
    have hvalid := parseOptions_valid h
    rw [parseOptions, if_pos hvalid] at h
    have hstep := parseOptions_valid h
    by_cases hc : c = 'f'
    · subst hc
      exact (ih h).forwarder hvalid hstep
    · exact (ih h).other hvalid hc hstep

theorem parseConfig_valid {p : ConfigParser} {argv : List Bytes}
    (h : (p.parseConfig libc argv).valid = true) : p.valid = true := by
  unfold parseConfig at h
  dsimp only at h
  split at h
  next => contradiction
  next =>
    have hvalid := parseOptions_valid h
    exact hvalid

theorem parseConfig_grouped {p : ConfigParser} (hclean : p.partialForwarder = .empty)
    {argv : List Bytes} (h : (p.parseConfig libc argv).valid = true) :
    Grouped libc p (libc.getopt_long argv).options ∧
      (p.parseConfig libc argv).forwarders = p.forwarders ++
        (groups forwarderOf (libc.getopt_long argv).options).map (configured libc) := by
  rw [parseConfig_of_clean hclean] at h ⊢
  split at h
  next => contradiction
  next hoptind =>
    have hgrouped := parseOptions_grouped h
    refine ⟨hgrouped, ?_⟩
    have hpushed : pushed (complete libc p.partialForwarder
        (front forwarderOf (libc.getopt_long argv).options)) = [] := by
      rw [hclean]
      rfl
    rw [if_neg hoptind, hgrouped.forwarders, hpushed, List.append_nil]

def parseAll (libc : Libc) (p : ConfigParser) (calls : List (List Bytes)) : ConfigParser :=
  calls.foldl (parseConfig libc) p

theorem parseAll_valid {calls : List (List Bytes)} : ∀ {p : ConfigParser},
    (parseAll libc p calls).valid = true → p.valid = true := by
  induction calls with
  | nil => exact fun h => h
  | cons argv calls ih => exact fun h => parseConfig_valid (ih h)

theorem parseAll_grouped {calls : List (List Bytes)} : ∀ {p : ConfigParser},
    p.partialForwarder = .empty → (parseAll libc p calls).valid = true →
      (parseAll libc p calls).forwarders = p.forwarders ++ calls.flatMap (fun argv =>
        (groups forwarderOf (libc.getopt_long argv).options).map (configured libc)) ∧
      ∀ argv ∈ calls, ∃ p : ConfigParser, p.partialForwarder = .empty ∧
        Grouped libc p (libc.getopt_long argv).options := by
  induction calls with
  | nil => exact fun _ _ => ⟨(List.append_nil _).symm, by simp⟩
  | cons argv calls ih =>
    intro p hclean h
    obtain ⟨hgrouped, hforwarders⟩ := parseConfig_grouped hclean (parseAll_valid h)
    obtain ⟨hrest, hcalls⟩ := ih (parseConfig_partialForwarder p argv) h
    constructor
    · rw [List.flatMap_cons, ← List.append_assoc, ← hforwarders]
      exact hrest
    · intro argv' hargv
      cases List.mem_cons.mp hargv with
      | inl heq =>
        rw [heq]
        exact ⟨p, hclean, hgrouped⟩
      | inr hmem => exact hcalls argv' hmem

end ConfigParser

/-- A hostname or a pin in front of the first -f, or a second hostname behind one. -/
def Misplaced (libc : Libc) (options : List (Char × Bytes)) : Prop :=
  hostsOf (front forwarderOf options) ≠ [] ∨ pinOf libc (front forwarderOf options) ≠ [] ∨
    ∃ group ∈ groups forwarderOf options, SecondHost group.2

theorem ConfigParser.Grouped.not_misplaced {p : ConfigParser} {options : List (Char × Bytes)}
    (h : Grouped libc p options) (hclean : p.partialForwarder = .empty) :
    ¬ Misplaced libc options := by
  obtain ⟨hhost, hpin⟩ := h.front_empty (by rw [hclean]; rfl)
  rw [hclean] at hhost hpin
  rintro (hhosts | hpins | ⟨group, hgroup, host, hmem, hne⟩)
  · obtain ⟨host, hosts, heq⟩ := List.exists_cons_of_ne_nil hhosts
    have hmem : host ∈ hostsOf (front forwarderOf options) := by simp [heq]
    have hempty : (hostsOf (front forwarderOf options)).headD [] = [] := hhost
    rw [heq] at hempty
    unfold hostsOf at hmem
    simp only [List.mem_filter, decide_eq_true_eq] at hmem
    exact hmem.2 hempty
  · exact hpins hpin
  · exact hne (h.host group hgroup host hmem)

/-- The forwarders are those of the groups, call after call; what is out of place in
a call makes the parser invalid, and nothing makes it valid again. -/
theorem forwarders_grouped (libc : Libc) (calls : List (List Bytes)) :
    ((ConfigParser.parseAll libc .new calls).valid = true →
      (ConfigParser.parseAll libc .new calls).forwarders = calls.flatMap (fun argv =>
          (groups forwarderOf (libc.getopt_long argv).options).map (configured libc)) ∧
        ∀ argv ∈ calls, ∀ group ∈ groups forwarderOf (libc.getopt_long argv).options,
          (parseServer libc group.1 853 .unspec).1 = true ∧ (hostsOf group.2).length ≤ 1) ∧
    ((∃ argv ∈ calls, Misplaced libc (libc.getopt_long argv).options) →
      (ConfigParser.parseAll libc .new calls).valid = false) ∧
    (∀ before optarg after, groups forwarderOf (before ++ ('f', optarg) :: after) =
      groups forwarderOf before ++
        (optarg, front forwarderOf after) :: groups forwarderOf after) ∧
    ∀ more, (ConfigParser.parseAll libc .new calls).valid = false →
      (ConfigParser.parseAll libc .new (calls ++ more)).valid = false := by
  refine ⟨?_, ?_, ?_, ?_⟩
  · intro h
    obtain ⟨hforwarders, hcalls⟩ := ConfigParser.parseAll_grouped rfl h
    refine ⟨hforwarders, ?_⟩
    intro argv hargv group hgroup
    obtain ⟨p, -, hgrouped⟩ := hcalls argv hargv
    exact ⟨hgrouped.parses group hgroup, (hgrouped.host group hgroup).length_le⟩
  · rintro ⟨argv, hargv, hmisplaced⟩
    by_contra hvalid
    rw [Bool.not_eq_false] at hvalid
    obtain ⟨p, hclean, hgrouped⟩ := (ConfigParser.parseAll_grouped rfl hvalid).2 argv hargv
    exact hgrouped.not_misplaced hclean hmisplaced
  · intro before optarg after
    have hhead : forwarderOf ('f', optarg) = some optarg := rfl
    exact groups_append_head hhead before after
  · intro more h
    by_contra hvalid
    rw [Bool.not_eq_false, ConfigParser.parseAll, List.foldl_append] at hvalid
    have hcalls : (ConfigParser.parseAll libc .new calls).valid = true :=
      ConfigParser.parseAll_valid hvalid
    exact absurd (h.symm.trans hcalls) (by decide)

end Dote.Config
