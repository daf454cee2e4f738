import Dote.Config.ForwarderConfig
import Dote.Library.Demotion

/-! The order of the forwarders after reports of failures. -/
namespace Dote.Config.ForwarderConfig
open Dote.Library

def report (config : ForwarderConfig) (reports : List Forwarder) : ForwarderConfig :=
  reports.foldl setBad config

def Reported (reports : List Forwarder) (forwarder : Forwarder) : Prop :=
  forwarder.remote ∈ reports.map Forwarder.remote

instance (reports : List Forwarder) (forwarder : Forwarder) :
    Decidable (Reported reports forwarder) := inferInstanceAs (Decidable (_ ∈ _))

theorem report_forwarders (reports : List Forwarder) : ∀ config : ForwarderConfig,
    (config.report reports).forwarders =
      (reports.map Forwarder.remote).foldl (demote Forwarder.remote) config.forwarders := by
  induction reports with
  | nil => exact fun _ => rfl
  | cons bad reports ih => exact fun config => ih (config.setBad bad)

theorem report_timeout (reports : List Forwarder) : ∀ config : ForwarderConfig,
    (config.report reports).timeout = config.timeout := by
  induction reports with
  | nil => exact fun _ => rfl
  | cons bad reports ih => exact fun config => ih (config.setBad bad)

variable {config : ForwarderConfig} (hdistinct : (config.forwarders.map Forwarder.remote).Nodup)
include hdistinct

theorem report_order (reports : List Forwarder) :
    (config.report reports).forwarders =
      config.forwarders.filter (fun forwarder => ¬ Reported reports forwarder) ++
        (reports.map Forwarder.remote).dedup.flatMap fun remote =>
          config.forwarders.filter fun forwarder => forwarder.remote = remote := by
  rw [report_forwarders]
  exact foldl_demote _ hdistinct

theorem report_again {earlier later : List Forwarder} {bad : Forwarder}
    (hlater : Reported later bad) :
    config.report (earlier ++ bad :: later) = config.report (earlier ++ later) := by
  have hforwarders : (config.report (earlier ++ bad :: later)).forwarders =
      (config.report (earlier ++ later)).forwarders := by
    rw [report_forwarders, report_forwarders, List.map_append, List.map_append, List.map_cons]
    exact foldl_demote_again hlater hdistinct
  have htimeout : (config.report (earlier ++ bad :: later)).timeout =
      (config.report (earlier ++ later)).timeout := by
    rw [report_timeout, report_timeout]
  cases hreport : config.report (earlier ++ bad :: later)
  cases hreport' : config.report (earlier ++ later)
  rw [hreport, hreport'] at hforwarders htimeout
  cases hforwarders
  cases htimeout
  rfl

theorem get_report {reports : List Forwarder} {forwarder first : Forwarder}
    (hforwarder : forwarder ∈ config.forwarders) (hgood : ¬ Reported reports forwarder)
    (hfirst : (config.report reports).get = some first) : ¬ Reported reports first := by
  rw [get, report_order hdistinct] at hfirst
  have hmem : forwarder ∈ config.forwarders.filter
      (fun forwarder => ¬ Reported reports forwarder) := by
    rw [List.mem_filter]
    exact ⟨hforwarder, by simpa using hgood⟩
  obtain ⟨head, rest, heq⟩ := List.exists_cons_of_ne_nil (List.ne_nil_of_mem hmem)
  rw [heq] at hfirst
  cases hfirst
  have hhead : first ∈ config.forwarders.filter
      (fun forwarder => ¬ Reported reports forwarder) := by
    rw [heq]
    exact List.mem_cons_self
  simpa using (List.mem_filter.mp hhead).2

theorem get_leastRecent {reports : List Forwarder} {first : Forwarder}
    (hfirst : (config.report reports).get = some first) :
    first ∈ config.forwarders ∧ ∀ other ∈ config.forwarders, other ≠ first →
      (∃ earlier later, reports = earlier ++ later ∧ Reported later other ∧
        ¬ Reported later first) ∨
      (¬ Reported reports first ∧ ¬ Reported reports other ∧
        [first, other].Sublist config.forwarders) := by
  rw [get, report_forwarders] at hfirst
  have hperm := foldl_demote_perm (reports.map Forwarder.remote) hdistinct
  obtain ⟨rest, heq⟩ := List.head?_eq_some_iff.mp hfirst
  refine ⟨hperm.subset (heq ▸ List.mem_cons_self), fun other hother hne => ?_⟩
  have hmem : other ∈ rest := by
    have hmem := hperm.symm.subset hother
    rw [heq] at hmem
    exact (List.mem_cons.mp hmem).resolve_left hne
  have hpair : [first, other].Sublist
      ((reports.map Forwarder.remote).foldl (demote Forwarder.remote) config.forwarders) := by
    rw [heq]
    exact (List.singleton_sublist.mpr hmem).cons_cons first
  rcases of_pair_sublist _ hdistinct hpair with ⟨earlier, later, hsplit, hin, hnot⟩ | hneither
  · obtain ⟨before, after, rfl, -, rfl⟩ := List.map_eq_append_iff.mp hsplit
    exact .inl ⟨before, after, rfl, hin, hnot⟩
  · exact .inr hneither

/-- The forwarders that were never reported, in their order, and behind them the
others by their last report, which is the one that `dedup` keeps. -/
theorem report_leastRecent (reports : List Forwarder) :
    (config.report reports).forwarders =
        config.forwarders.filter (fun forwarder => ¬ Reported reports forwarder) ++
          (reports.map Forwarder.remote).dedup.flatMap (fun remote =>
            config.forwarders.filter fun forwarder => forwarder.remote = remote) ∧
      (config.report reports).forwarders.Perm config.forwarders ∧
      (∀ bad earlier later, reports = earlier ++ bad :: later → Reported later bad →
        config.report reports = config.report (earlier ++ later)) ∧
      ∀ forwarder ∈ config.forwarders, ¬ Reported reports forwarder →
        ∀ first, (config.report reports).get = some first → ¬ Reported reports first := by
  refine ⟨report_order hdistinct reports, ?_, ?_, ?_⟩
  · rw [report_forwarders]
    exact foldl_demote_perm _ hdistinct
  · rintro bad earlier later rfl hlater
    exact report_again hdistinct hlater
  · exact fun _ hforwarder hgood _ hfirst => get_report hdistinct hforwarder hgood hfirst

omit hdistinct

def forwarderAt (n : UInt8) : Forwarder := ⟨⟨.inet, 853, [10, 0, 0, n]⟩, false, [], [n]⟩

theorem report_leastRecent_three :
    (report ⟨[forwarderAt 1, forwarderAt 2, forwarderAt 3], 5⟩
      [forwarderAt 1, forwarderAt 2, forwarderAt 1]).forwarders =
        [forwarderAt 3, forwarderAt 2, forwarderAt 1] := by
  have hdistinct : ([forwarderAt 1, forwarderAt 2, forwarderAt 3].map Forwarder.remote).Nodup := by
    decide
  exact (report_leastRecent hdistinct [forwarderAt 1, forwarderAt 2, forwarderAt 1]).1

end Dote.Config.ForwarderConfig
