import FlagSurvey.Proofs.Survey.Parameters

/-! Fates of definitions. A definition that the compiler does not list is ignored, one whose default is
refused is left out, and any other is sorted by the range it comes to: a range of several values is an
entry, a search that failed leaves the name unresolved, and a range of one value is dropped. Each
definition has one fate, whatever the schedule, and the outcome of a run consists of the fates. -/
namespace FlagSurvey

open Plan

inductive Fate where
  | ignored
  | refused
  | emitted (entry : Tunable)
  | unresolved
  | single
  deriving DecidableEq

namespace Fate

def tunable? : Fate → Option Tunable
  | .emitted entry => some entry
  | _ => none

def ofRange (lead separator : String) (range : ResolvedRange) : Fate :=
  match Tunable.ofRange? range lead separator with
  | some entry => .emitted entry
  | none => if range.resolved then .single else .unresolved

theorem tunable?_ofRange (lead separator : String) (range : ResolvedRange) :
    (ofRange lead separator range).tunable? = Tunable.ofRange? range lead separator := by
  rw [ofRange]
  cases Tunable.ofRange? range lead separator with
  | some entry => rfl
  | none => cases range.resolved <;> rfl

theorem ofRange_eq_unresolved_iff {lead separator : String} {range : ResolvedRange} :
    ofRange lead separator range = .unresolved ↔
      Tunable.ofRange? range lead separator = none ∧ range.resolved = false := by
  rw [ofRange]
  cases Tunable.ofRange? range lead separator with
  | some entry => simp
  | none => cases range.resolved <;> simp

end Fate

namespace Extractor

variable (x : Extractor) (answer : Request → Outcome) (lead separator : String) (compiler : Compiler)

structure ComesTo (d : Definition) (range : ResolvedRange) : Prop where
  listed : d.name ∈ Listing.parameters compiler.paramsHelp
  checked : ∃ trials, (x.probe.check (renderParam lead d.name separator d.default)).Gives answer
    .accepted trials
  resolved : ∃ trials, (x.probe.resolve lead separator d).Gives answer range trials

/-- What decides the fate of a definition: the listing, the check of its default, and its range. -/
inductive Becomes (d : Definition) : Fate → Prop where
  | ignored (unlisted : d.name ∉ Listing.parameters compiler.paramsHelp) : Becomes d .ignored
  | refused {reason : Rejection} {trials : List Request}
    (listed : d.name ∈ Listing.parameters compiler.paramsHelp)
    (checked : (x.probe.check (renderParam lead d.name separator d.default)).Gives answer
      (.rejected reason) trials) : Becomes d .refused
  | emitted {range : ResolvedRange} (comes : x.ComesTo answer lead separator compiler d range)
    (several : range.min < range.max) :
    Becomes d (.emitted (.range range.name lead separator range.min range.max))
  | unresolved {range : ResolvedRange} (comes : x.ComesTo answer lead separator compiler d range)
    (failed : range.resolved = false) : Becomes d .unresolved
  | single {range : ResolvedRange} (comes : x.ComesTo answer lead separator compiler d range)
    (found : range.resolved = true) (one : range.max = range.min) : Becomes d .single

def fate (d : Definition) : Fate :=
  if d.name ∈ Listing.parameters compiler.paramsHelp then
    match x.settled answer lead separator d with
    | some range => .ofRange lead separator range
    | none => .refused
  else .ignored

variable {x answer lead separator compiler}

theorem settled_of_refused {d : Definition} {reason : Rejection} {trials : List Request}
    (checked : (x.probe.check (renderParam lead d.name separator d.default)).Gives answer
      (.rejected reason) trials) : x.settled answer lead separator d = none := by
  have given : (x.range? lead separator d).Gives answer none _ :=
    (checked.map Verdict.isAccepted).bind (gives_done none)
  exact ((x.gives_range? answer lead separator d).unique given).1

theorem ComesTo.settled {d : Definition} {range : ResolvedRange}
    (h : x.ComesTo answer lead separator compiler d range) :
    x.settled answer lead separator d = some range := by
  obtain ⟨-, ⟨_, checked⟩, ⟨_, resolved⟩⟩ := h
  have given : (x.range? lead separator d).Gives answer (some range) _ :=
    (checked.map Verdict.isAccepted).bind (resolved.map some)
  exact ((x.gives_range? answer lead separator d).unique given).1

theorem ComesTo.fate_eq {d : Definition} {range : ResolvedRange}
    (h : x.ComesTo answer lead separator compiler d range) :
    x.fate answer lead separator compiler d = .ofRange lead separator range := by
  rw [fate, if_pos h.listed, h.settled]

theorem resolution_of_settled {d : Definition} {range : ResolvedRange}
    (h : x.settled answer lead separator d = some range) :
    x.probe.Proven answer (x.requestsForDefinition answer lead separator d)
        (renderParam lead d.name separator d.default) ∧
      x.probe.Resolution lead separator d ((x.requestsForDefinition answer lead separator d).map
        fun request => (request, answer request)) range := by
  have given := x.gives_range? answer lead separator d
  rw [h] at given
  obtain ⟨took, resolution⟩ := resolution_of_range? given.ends
  exact ⟨Probe.proven_iff_took.mpr took, resolution⟩

theorem Becomes.eq_fate {d : Definition} {f : Fate}
    (h : x.Becomes answer lead separator compiler d f) : f = x.fate answer lead separator compiler d := by
  cases h with
  | ignored unlisted => rw [fate, if_neg unlisted]
  | refused listed checked => rw [fate, if_pos listed, settled_of_refused checked]
  | emitted comes several => rw [comes.fate_eq, Fate.ofRange, Tunable.ofRange?, if_pos several]
  | unresolved comes failed =>
    obtain ⟨-, resolution⟩ := resolution_of_settled comes.settled
    have one := resolution.max_eq_min failed
    rw [comes.fate_eq, Fate.ofRange, Tunable.ofRange?, if_neg (by omega)]
    simp [failed]
  | single comes found one =>
    rw [comes.fate_eq, Fate.ofRange, Tunable.ofRange?, if_neg (by omega)]
    simp [found]

theorem ComesTo.becomes {d : Definition} {range : ResolvedRange}
    (h : x.ComesTo answer lead separator compiler d range) :
    x.Becomes answer lead separator compiler d (.ofRange lead separator range) := by
  obtain ⟨-, resolution⟩ := resolution_of_settled h.settled
  have least := resolution.min_le_max
  rw [Fate.ofRange, Tunable.ofRange?]
  by_cases several : range.min < range.max
  · rw [if_pos several]
    exact .emitted h several
  · rw [if_neg several]
    cases found : range.resolved with
    | true => exact .single h found (by omega)
    | false => exact .unresolved h found

variable (x answer lead separator compiler) in
theorem becomes_fate (d : Definition) :
    x.Becomes answer lead separator compiler d (x.fate answer lead separator compiler d) := by
  by_cases listed : d.name ∈ Listing.parameters compiler.paramsHelp
  · have checked := x.probe.gives_check answer (renderParam lead d.name separator d.default)
    cases verdict : x.probe.judged answer (renderParam lead d.name separator d.default) with
    | rejected reason =>
      rw [verdict] at checked
      rw [fate, if_pos listed, settled_of_refused checked]
      exact .refused listed checked
    | accepted =>
      rw [verdict] at checked
      obtain ⟨range, searching, resolved, -⟩ := x.probe.exists_gives_resolve answer lead separator d
      have comes : x.ComesTo answer lead separator compiler d range :=
        ⟨listed, ⟨_, checked⟩, ⟨_, resolved⟩⟩
      rw [comes.fate_eq]
      exact comes.becomes
  · rw [fate, if_neg listed]
    exact .ignored listed

theorem proven_of_emitted {d : Definition} {entry : Tunable}
    (h : x.fate answer lead separator compiler d = .emitted entry) :
    d.name ∈ Listing.parameters compiler.paramsHelp ∧
    ∃ max, entry = .range d.name lead separator d.min max ∧
      x.probe.Proven answer (x.requestsForDefinition answer lead separator d)
        (renderParam lead d.name separator d.default) ∧
      (d.max ≤ d.min →
        x.probe.Proven answer (x.requestsForDefinition answer lead separator d)
          (renderParam lead d.name separator d.min) ∧
        x.probe.Proven answer (x.requestsForDefinition answer lead separator d)
          (renderParam lead d.name separator max)) := by
  rw [fate] at h
  split at h
  · next listed =>
    split at h
    · next range settled =>
      have ranged := Fate.tunable?_ofRange lead separator range
      rw [h] at ranged
      obtain ⟨several, rfl⟩ := Tunable.ofRange?_eq_some_iff.mp ranged.symm
      obtain ⟨proven, resolution⟩ := resolution_of_settled settled
      refine ⟨listed, range.max, ?_⟩
      cases resolution with
      | declared declared => exact ⟨rfl, proven, fun placeholder => by omega⟩
      | found _ _ _ tookLeast tookMost =>
        exact ⟨rfl, proven, fun _ =>
          ⟨Probe.proven_iff_took.mpr tookLeast, Probe.proven_iff_took.mpr tookMost⟩⟩
      | failed => exact absurd several (Int.lt_irrefl _)
    · contradiction
  · contradiction

variable (x answer lead separator compiler) in
/-- What is read off the ranges of a run is, up to its order, read off the fates of all definitions: those
that come to no range have nothing to read. -/
theorem filterMap_fate_perm {β : Type} (read : String → Fate → Option β)
    (ignored : ∀ name, read name .ignored = none) (refused : ∀ name, read name .refused = none)
    (schedule : Schedule Definition) (definitions : List Definition) :
    (((schedule.order (known compiler definitions)).filterMap (x.settled answer lead separator)).filterMap
      fun range => read range.name (.ofRange lead separator range)).Perm
      (definitions.filterMap fun d => read d.name (x.fate answer lead separator compiler d)) := by
  have each (d : Definition) : read d.name (x.fate answer lead separator compiler d) =
      if (Listing.parameters compiler.paramsHelp).contains d.name then
        (x.settled answer lead separator d).bind
          fun range => read range.name (.ofRange lead separator range)
      else none := by
    simp only [fate, List.contains_eq_mem, decide_eq_true_eq]
    split
    · cases settled : x.settled answer lead separator d with
      | none => exact refused d.name
      | some range => rw [Option.bind_some, x.name_of_settled settled]
    · exact ignored d.name
  rw [List.filterMap_filterMap, funext each, ← List.filterMap_filter]
  exact (schedule.order_perm _).filterMap _

theorem tunables_perm (schedule : Schedule Definition) (definitions : List Definition) :
    (ParamOutcome.ofRanges lead separator ((schedule.order (known compiler definitions)).filterMap
      (x.settled answer lead separator))).tunables.Perm
      (definitions.filterMap fun d => (x.fate answer lead separator compiler d).tunable?) := by
  have entries := x.filterMap_fate_perm answer lead separator compiler
    (fun _ f => f.tunable?) (fun _ => rfl) (fun _ => rfl) schedule definitions
  rw [ParamOutcome.tunables_ofRanges]
  simpa only [Fate.tunable?_ofRange] using entries

theorem unresolved_perm (schedule : Schedule Definition) (definitions : List Definition) :
    (ParamOutcome.ofRanges lead separator ((schedule.order (known compiler definitions)).filterMap
      (x.settled answer lead separator))).unresolved.Perm
      ((definitions.filter fun d =>
        x.fate answer lead separator compiler d = .unresolved).map Definition.name) := by
  have names := x.filterMap_fate_perm answer lead separator compiler
    (fun name f => if f = .unresolved then some name else none) (fun _ => rfl) (fun _ => rfl)
    schedule definitions
  rw [ParamOutcome.unresolved_ofRanges]
  refine (List.mergeSort_perm _ _).trans ?_
  rw [← List.filterMap_eq_map, ← List.filterMap_eq_map, List.filterMap_filter, List.filterMap_filter]
  simpa only [Function.comp_apply, decide_eq_true_eq, Fate.ofRange_eq_unresolved_iff] using names

/-- Each definition has one fate, which its listing, the check of its default and its range decide. Under
every schedule a run emits the entries and reports the unresolved names of the definitions, each once for
each time the definition is given, and nothing else; what it emits was tried and taken. -/
theorem extractParams_sorts_out (x : Extractor) (answer : Request → Outcome) (lead separator : String)
    (compiler : Compiler) (definitions : List Definition) :
    ∃ fate : Definition → Fate,
      (∀ d f, x.Becomes answer lead separator compiler d f ↔ f = fate d) ∧
      ∀ schedule, ∃ outcome asked,
        (x.extractParams schedule compiler definitions lead separator).run (.reliable answer) () =
          ⟨.ok outcome, asked, ()⟩ ∧
        outcome.tunables.Perm (definitions.filterMap fun d => (fate d).tunable?) ∧
        outcome.unresolved.Perm
          ((definitions.filter fun d => fate d = .unresolved).map Definition.name) ∧
        outcome.unresolved.Pairwise (· ≤ ·) ∧
        ∀ d ∈ definitions, ∀ entry, fate d = .emitted entry →
          ∃ max, entry = .range d.name lead separator d.min max ∧
            x.probe.Proven answer asked (renderParam lead d.name separator d.default) ∧
            (d.max ≤ d.min →
              x.probe.Proven answer asked (renderParam lead d.name separator d.min) ∧
              x.probe.Proven answer asked (renderParam lead d.name separator max)) := by
  refine ⟨x.fate answer lead separator compiler, fun d f => ?_, fun schedule => ?_⟩
  · exact ⟨Becomes.eq_fate, fun same => same ▸ x.becomes_fate answer lead separator compiler d⟩
  · refine ⟨_, _, x.gives_extractParams schedule compiler definitions, ?_, ?_, ?_, ?_⟩
    · exact tunables_perm schedule definitions
    · exact unresolved_perm schedule definitions
    · exact ParamOutcome.pairwise_unresolved _ _ _
    · intro d hd entry emitted
      obtain ⟨listed, max, shape, default, bounds⟩ := proven_of_emitted emitted
      have known : d ∈ schedule.order (known compiler definitions) :=
        (schedule.order_perm _).mem_iff.mpr (List.mem_filter.mpr ⟨hd, by simpa using listed⟩)
      have made : x.requestsForDefinition answer lead separator d ⊆ _ :=
        fun request mem => List.mem_flatMap.mpr ⟨d, known, mem⟩
      exact ⟨max, shape, default.mono made, fun placeholder =>
        ⟨(bounds placeholder).1.mono made, (bounds placeholder).2.mono made⟩⟩

end Extractor
end FlagSurvey
