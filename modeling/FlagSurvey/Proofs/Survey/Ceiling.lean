import Mathlib
import FlagSurvey.Definition.Document
import FlagSurvey.Proofs.Survey.Parameters

/-! Ranges and the ceiling. An upper bound that is searched for is at most the ceiling, whatever the
compiler says. One that is declared is kept as it stands, so the ranges of all runs stay below the ceiling
exactly if those that the listed definitions declare do. -/
namespace FlagSurvey

open Plan

def Tunable.Within : Tunable → Prop
  | .onOff .. => True
  | .range _ _ _ min max => min < max ∧ max ≤ ceiling

namespace Extractor

variable {x : Extractor} {lead separator : String} {compiler : Compiler} {definitions : List Definition}
  {schedule : Schedule Definition} {outcome : ParamOutcome} {t : Tunable}

theorem exists_resolution_of_canEnd
    (h : (x.extractParams schedule compiler definitions lead separator).CanEnd outcome)
    (mem : t ∈ outcome.tunables) :
    ∃ d ∈ known compiler definitions, ∃ transcript range,
      x.probe.Resolution lead separator d transcript range ∧ range.min < range.max ∧
        t = .range range.name lead separator range.min range.max := by
  obtain ⟨_, ended⟩ := h.exists_ends
  obtain ⟨ranges, _, _, gathered, rest, -⟩ := Ends.of_bind ended
  obtain ⟨-, rfl⟩ := rest.of_done
  rw [ParamOutcome.tunables_ofRanges] at mem
  obtain ⟨range, hrange, ranged⟩ := List.mem_filterMap.mp mem
  obtain ⟨_, hsome, rfl⟩ := List.mem_filterMap.mp hrange
  obtain ⟨several, shape⟩ := Tunable.ofRange?_eq_some_iff.mp ranged
  obtain ⟨d, hd, transcript, ended⟩ := gathered.exists_of_sequence hsome
  obtain ⟨-, resolution⟩ := resolution_of_range? ended
  exact ⟨d, (schedule.order_perm _).mem_iff.mp hd, transcript, range, resolution, several, shape⟩

theorem bounds_of_canEnd
    (h : (x.extractParams schedule compiler definitions lead separator).CanEnd outcome)
    (mem : t ∈ outcome.tunables) :
    ∃ d ∈ known compiler definitions, ∃ max, t = .range d.name lead separator d.min max ∧
      d.min < max ∧ (d.max ≤ d.min ∧ max ≤ ceiling ∨ d.min < d.max ∧ max = d.max) := by
  obtain ⟨d, hd, transcript, range, resolution, several, rfl⟩ := exists_resolution_of_canEnd h mem
  refine ⟨d, hd, range.max, ?_⟩
  cases resolution with
  | declared declared => exact ⟨rfl, several, .inr ⟨declared, rfl⟩⟩
  | found placeholder _ most => exact ⟨rfl, several, .inl ⟨placeholder, most⟩⟩
  | failed => exact absurd several (Int.lt_irrefl _)

theorem settled_of_declared {answer : Request → Outcome} {d : Definition} (declared : d.min < d.max)
    (usable : x.probe.usable answer (renderParam lead d.name separator d.default) = true) :
    x.settled answer lead separator d = some ⟨d.name, d.min, d.max, true⟩ := by
  have kept : (x.probe.resolve lead separator d).Gives answer ⟨d.name, d.min, d.max, true⟩ [] := by
    rw [Probe.resolve, Definition.needsSearch, if_neg (by simpa using declared)]
    exact gives_done _
  have checked := x.probe.gives_isValid answer (renderParam lead d.name separator d.default)
  rw [usable] at checked
  have given : (x.range? lead separator d).Gives answer (some ⟨d.name, d.min, d.max, true⟩) _ :=
    checked.bind (kept.map some)
  exact ((x.gives_range? answer lead separator d).unique given).1

theorem exists_canEnd_of_declared (x : Extractor) (lead separator : String) {d : Definition}
    (hd : d ∈ known compiler definitions) (declared : d.min < d.max) :
    ∃ outcome, (x.extractParams .listed compiler definitions lead separator).CanEnd outcome ∧
      .range d.name lead separator d.min d.max ∈ outcome.tunables := by
  have given : (x.extractParams .listed compiler definitions lead separator).Gives
    (fun _ => .passing) _ _ := x.gives_extractParams .listed compiler definitions
  have settled : x.settled (fun _ => .passing) lead separator d = _ :=
    settled_of_declared declared (x.probe.usable_passing _)
  refine ⟨_, given.canEnd, ?_⟩
  rw [ParamOutcome.tunables_ofRanges]
  exact List.mem_filterMap.mpr ⟨_, List.mem_filterMap.mpr ⟨d, hd, settled⟩,
    Tunable.ofRange?_eq_some_iff.mpr ⟨declared, rfl⟩⟩

/-- An entry has several values, and its upper bound is one that the definition declares or one up to the
ceiling. So all entries of all runs keep to the ceiling exactly if every known definition that declares a
range does. -/
theorem ranges_within_ceiling_iff (x : Extractor) (compiler : Compiler) (definitions : List Definition)
    (lead separator : String) :
    (∀ schedule outcome, (x.extractParams schedule compiler definitions lead separator).CanEnd outcome →
      ∀ t ∈ outcome.tunables, ∃ d ∈ known compiler definitions, ∃ max,
        t = .range d.name lead separator d.min max ∧ d.min < max ∧
          (d.max ≤ d.min ∧ max ≤ ceiling ∨ d.min < d.max ∧ max = d.max)) ∧
    ((∀ schedule outcome, (x.extractParams schedule compiler definitions lead separator).CanEnd outcome →
        ∀ t ∈ outcome.tunables, t.Within) ↔
      ∀ d ∈ known compiler definitions, d.min < d.max → d.max ≤ ceiling) := by
  refine ⟨fun schedule outcome possible t mem => bounds_of_canEnd possible mem, ?_, ?_⟩
  · intro within d hd declared
    obtain ⟨outcome, possible, mem⟩ := exists_canEnd_of_declared x lead separator hd declared
    exact (within .listed outcome possible _ mem).2
  · intro declared schedule outcome possible t mem
    obtain ⟨d, hd, max, rfl, several, searched | kept⟩ := bounds_of_canEnd possible mem
    · exact ⟨several, searched.2⟩
    · obtain ⟨range, rfl⟩ := kept
      exact ⟨several, declared d hd range⟩

/-- A definition whose maximum is 2 ^ 32, and a compiler that takes every flag: the entry has that maximum. -/
theorem declared_maximum_above_ceiling :
    let text := "DEFPARAM(max-foo, \"x\", 1, 0, 4294967296)\n"
    let x : Extractor := .ofSize ⟨"cc", "hello.c", ⟨5000000000⟩⟩ 1
    let compiler : Compiler := ⟨"cc", none, "", "", "  max-foo   Foo.\n"⟩
    ∃ outcome, (x.extractParams .listed compiler (Definition.Document.ofText text).definitions
        "--param " "=").CanEnd outcome ∧
      .range "max-foo" "--param " "=" 0 4294967296 ∈ outcome.tunables ∧ ¬(4294967296 : Int) ≤ ceiling := by
  intro text x compiler
  have parsed : (Definition.Document.ofText text).definitions =
      [⟨"max-foo", "x", 1, 0, 4294967296⟩] := by cbv
  have known : ⟨"max-foo", "x", 1, 0, 4294967296⟩ ∈ known compiler
      (Definition.Document.ofText text).definitions := by
    rw [parsed]
    decide +kernel
  obtain ⟨outcome, possible, mem⟩ :=
    exists_canEnd_of_declared x "--param " "=" known (by decide)
  exact ⟨outcome, possible, mem, by decide⟩

end Extractor
end FlagSurvey
