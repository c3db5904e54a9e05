import FlagSurvey.Proofs.Probe.Search
import FlagSurvey.Survey.Extraction

/-! Parameters of a survey. Each listed definition comes to a range, or to none, by itself; a schedule
only settles in which order the ranges are sorted out, and so the order of the entries. -/
namespace FlagSurvey

open Plan

namespace Probe

variable (p : Probe)

theorem sure_probe_trial (flag : String) : Sure (p.trial flag) :=
  (sure_trial (p.request flag)).map Verdict.of

theorem sure_narrow (render : Int → String) (min : Int) (steps : Nat) (value : Int) :
    Sure (p.narrow render min steps value) := by
  induction steps generalizing value with
  | zero => exact .done _
  | succ steps ih =>
    refine (p.sure_probe_trial (render value)).bind fun verdict => ?_
    cases verdict with
    | accepted => exact .done _
    | rejected reason =>
      cases halfway? min value with
      | none => exact .done _
      | some next => exact ih next

theorem sure_findMax (lead name separator : String) (min : Int) :
    Sure (p.findMax lead name separator min) := by
  unfold findMax
  split
  · exact .done _
  · refine (p.sure_probe_trial _).bind fun verdict => ?_
    cases verdict with
    | rejected reason => exact .done _
    | accepted => exact p.sure_narrow _ _ _ _

theorem exists_gives_resolve (answer : Request → Outcome) (lead separator : String) (d : Definition) :
    ∃ range asked, (p.resolve lead separator d).Gives answer range asked ∧ range.name = d.name ∧
      range.min = d.min := by
  unfold resolve
  split
  · obtain ⟨bound, asked, searched⟩ := (p.sure_findMax lead d.name separator d.min).exists_gives answer
    exact ⟨_, _, searched.bind (gives_done _), rfl, rfl⟩
  · exact ⟨_, _, gives_done _, rfl, rfl⟩

end Probe

namespace ParamOutcome

theorem foldr_add_eq (lead separator : String) (ranges : List ResolvedRange) :
    ranges.foldr (add lead separator) ⟨[], []⟩ =
      ⟨ranges.filterMap (Tunable.ofRange? · lead separator),
        (ranges.filter fun r => Tunable.ofRange? r lead separator = none ∧ r.resolved = false).map
          ResolvedRange.name⟩ := by
  induction ranges with
  | nil => rfl
  | cons range rest ih =>
    rw [List.foldr_cons, ih, add, List.filterMap_cons, List.filter_cons]
    cases Tunable.ofRange? range lead separator with
    | some tunable => simp
    | none => cases range.resolved <;> simp

theorem tunables_ofRanges (lead separator : String) (ranges : List ResolvedRange) :
    (ofRanges lead separator ranges).tunables =
      ranges.filterMap (Tunable.ofRange? · lead separator) := by
  rw [ofRanges, foldr_add_eq]

theorem unresolved_ofRanges (lead separator : String) (ranges : List ResolvedRange) :
    (ofRanges lead separator ranges).unresolved =
      ((ranges.filter fun r => Tunable.ofRange? r lead separator = none ∧ r.resolved = false).map
        ResolvedRange.name).mergeSort (· ≤ ·) := by
  rw [ofRanges, foldr_add_eq]

theorem pairwise_unresolved (lead separator : String) (ranges : List ResolvedRange) :
    (ofRanges lead separator ranges).unresolved.Pairwise (· ≤ ·) := by
  rw [unresolved_ofRanges]
  exact (List.pairwise_mergeSort (by simpa using fun _ _ _ => String.le_trans)
    (by simpa using String.le_total) _).imp of_decide_eq_true

theorem unresolved_eq_of_perm {ranges others : List ResolvedRange} (lead separator : String)
    (perm : ranges.Perm others) :
    (ofRanges lead separator ranges).unresolved = (ofRanges lead separator others).unresolved := by
  refine List.Perm.eq_of_pairwise (fun a b _ _ first second => String.le_antisymm first second)
    (pairwise_unresolved _ _ _) (pairwise_unresolved _ _ _) ?_
  rw [unresolved_ofRanges, unresolved_ofRanges]
  exact (List.mergeSort_perm _ _).trans
    (((perm.filter _).map _).trans (List.mergeSort_perm _ _).symm)

end ParamOutcome

namespace Extractor

variable (x : Extractor) (answer : Request → Outcome) (lead separator : String)

theorem exists_gives_range? (d : Definition) :
    ∃ range asked, (x.range? lead separator d).Gives answer range asked ∧
      ∀ r, range = some r → r.name = d.name := by
  have checked := x.probe.gives_isValid answer (renderParam lead d.name separator d.default)
  rw [range?]
  generalize x.probe.usable answer (renderParam lead d.name separator d.default) = valid at checked
  cases valid with
  | false => exact ⟨none, _, checked.bind (gives_done none), nofun⟩
  | true =>
    obtain ⟨range, asked, resolved, name, -⟩ := x.probe.exists_gives_resolve answer lead separator d
    exact ⟨some range, _, checked.bind (resolved.map some), fun r same => Option.some.inj same ▸ name⟩

theorem resolution_of_range? {x : Extractor} {lead separator : String} {d : Definition}
    {transcript : List (Request × Outcome)} {range : ResolvedRange}
    (h : Ends (x.range? lead separator d) transcript (some range)) :
    x.probe.Took transcript (renderParam lead d.name separator d.default) ∧
      x.probe.Resolution lead separator d transcript range := by
  rw [range?] at h
  obtain ⟨valid, first, second, checked, rest, rfl⟩ := h.of_bind
  cases valid with
  | false =>
    obtain ⟨-, none⟩ := rest.of_done
    contradiction
  | true =>
    obtain ⟨_, resolved, some⟩ := rest.of_map
    cases some
    exact ⟨(Probe.took_of_isValid checked).append_left,
      (Probe.resolution_of_resolve resolved).append⟩

/-- The range that a run comes to for a definition; none if its default is refused. -/
def settled (d : Definition) : Option ResolvedRange :=
  match ((x.range? lead separator d).run (.reliable answer) ()).result with
  | .ok range => range
  | .error _ => none

def requestsForDefinition (d : Definition) : List Request :=
  ((x.range? lead separator d).run (.reliable answer) ()).requests

def entry? (d : Definition) : Option Tunable :=
  (x.settled answer lead separator d).bind (Tunable.ofRange? · lead separator)

theorem gives_range? (d : Definition) :
    (x.range? lead separator d).Gives answer (x.settled answer lead separator d)
      (x.requestsForDefinition answer lead separator d) := by
  obtain ⟨range, asked, h, -⟩ := x.exists_gives_range? answer lead separator d
  rw [settled, requestsForDefinition, h]
  exact h

variable {answer lead separator}

theorem name_of_settled {d : Definition} {range : ResolvedRange}
    (h : x.settled answer lead separator d = some range) : range.name = d.name := by
  obtain ⟨_, _, given, name⟩ := x.exists_gives_range? answer lead separator d
  exact name range ((given.unique (x.gives_range? answer lead separator d)).1.trans h)

theorem name_of_entry? {d : Definition} {t : Tunable}
    (h : x.entry? answer lead separator d = some t) : t.category = .param ∧ t.name = d.name := by
  obtain ⟨range, settled, ranged⟩ := Option.bind_eq_some_iff.mp h
  obtain ⟨-, rfl⟩ := Tunable.ofRange?_eq_some_iff.mp ranged
  exact ⟨rfl, x.name_of_settled settled⟩

def known (compiler : Compiler) (definitions : List Definition) : List Definition :=
  definitions.filter fun d => (Listing.parameters compiler.paramsHelp).contains d.name

theorem gives_extractParams (schedule : Schedule Definition) (compiler : Compiler)
    (definitions : List Definition) :
    (x.extractParams schedule compiler definitions lead separator).Gives answer
      (.ofRanges lead separator ((schedule.order (known compiler definitions)).filterMap
        (x.settled answer lead separator)))
      ((schedule.order (known compiler definitions)).flatMap
        (x.requestsForDefinition answer lead separator)) := by
  have gathered := Gives.gather schedule (known compiler definitions)
    (x.gives_range? answer lead separator)
  have step := gathered.map fun ranges => ParamOutcome.ofRanges lead separator (ranges.filterMap id)
  rw [map_eq_pure_bind, List.filterMap_map] at step
  exact step

end Extractor
end FlagSurvey
