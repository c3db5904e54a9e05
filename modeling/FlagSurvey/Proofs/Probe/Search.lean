import FlagSurvey.Probe.Range
import FlagSurvey.Proofs.Probe.Usable
import FlagSurvey.Proofs.Trial.Transcript

/-! What the search of a range comes to, whichever way its trials come out. A bound that is found lies
between the least value and the ceiling, and both it and the least value were tried and taken. A definition
keeps the bounds it declares if they leave a second value; else its upper bound is searched for, and is
its least value where the search fails. -/
namespace FlagSurvey.Probe

open Plan

variable (p : Probe)

def Took (transcript : List (Request × Outcome)) (flag : String) : Prop :=
  ∃ outcome, (p.request flag, outcome) ∈ transcript ∧ Verdict.of outcome = .accepted

variable {p}

theorem Took.append_left {first second : List (Request × Outcome)} {flag : String}
    (h : p.Took first flag) : p.Took (first ++ second) flag := by
  obtain ⟨outcome, mem, taken⟩ := h
  exact ⟨outcome, List.mem_append_left _ mem, taken⟩

theorem Took.append_right {first second : List (Request × Outcome)} {flag : String}
    (h : p.Took second flag) : p.Took (first ++ second) flag := by
  obtain ⟨outcome, mem, taken⟩ := h
  exact ⟨outcome, List.mem_append_right _ mem, taken⟩

theorem proven_iff_took {answer : Request → Outcome} {asked : List Request} {flag : String} :
    p.Proven answer asked flag ↔ p.Took (asked.map fun request => (request, answer request)) flag := by
  have accepted (verdict : Verdict) : verdict.isAccepted = true ↔ verdict = .accepted := by
    cases verdict <;> simp [Verdict.isAccepted]
  simp only [Proven, takes, accepted, Took, List.mem_map, Prod.mk.injEq]
  constructor
  · rintro ⟨mem, taken⟩
    exact ⟨_, ⟨_, mem, rfl, rfl⟩, taken⟩
  · rintro ⟨_, ⟨_, mem, rfl, rfl⟩, taken⟩
    exact ⟨mem, taken⟩

theorem took_of_trial {flag : String} {transcript : List (Request × Outcome)}
    (h : Ends (p.trial flag) transcript .accepted) : p.Took transcript flag := by
  obtain ⟨outcome, ended, taken⟩ := h.of_map
  rw [Plan.trial] at ended
  cases ended with
  | ask later =>
    obtain ⟨-, rfl⟩ := later.of_done
    exact ⟨_, List.mem_cons_self, taken⟩

theorem took_of_isValid {flag : String} {transcript : List (Request × Outcome)}
    (h : Ends (p.isValid flag) transcript true) : p.Took transcript flag := by
  obtain ⟨verdict, checked, accepted⟩ := h.of_map
  rw [check] at checked
  obtain ⟨direct, first, second, tried, rest, rfl⟩ := checked.of_bind
  cases direct with
  | accepted => exact (took_of_trial tried).append_left
  | rejected reason =>
    obtain ⟨-, rfl⟩ := rest.of_done
    contradiction

theorem bounded_of_narrow {render : Int → String} {min value : Int} {steps : Nat}
    {transcript : List (Request × Outcome)} {bound : UpperBound}
    (h : Ends (p.narrow render min steps value) transcript bound) (found : bound.found = true)
    (lower : min ≤ value) (upper : value ≤ ceiling) :
    min ≤ bound.value ∧ bound.value ≤ ceiling ∧ p.Took transcript (render bound.value) := by
  induction steps generalizing value transcript with
  | zero =>
    obtain ⟨-, rfl⟩ := h.of_done
    contradiction
  | succ steps ih =>
    rw [narrow] at h
    obtain ⟨verdict, first, second, tried, rest, rfl⟩ := h.of_bind
    cases verdict with
    | accepted =>
      obtain ⟨-, rfl⟩ := rest.of_done
      exact ⟨lower, upper, (took_of_trial tried).append_left⟩
    | rejected reason =>
      simp only at rest
      split at rest
      · next next halved =>
        obtain ⟨lower, upper⟩ := halfway?_bounds halved
        obtain ⟨least, most, taken⟩ := ih rest lower upper
        exact ⟨least, most, taken.append_right⟩
      · obtain ⟨-, rfl⟩ := rest.of_done
        contradiction

theorem bounded_of_findMax {lead name separator : String} {min : Int}
    {transcript : List (Request × Outcome)} {bound : UpperBound}
    (h : Ends (p.findMax lead name separator min) transcript bound) (found : bound.found = true) :
    min ≤ bound.value ∧ bound.value ≤ ceiling ∧
      p.Took transcript (renderParam lead name separator min) ∧
      p.Took transcript (renderParam lead name separator bound.value) := by
  simp only [findMax] at h
  split at h
  · obtain ⟨-, rfl⟩ := h.of_done
    contradiction
  · next within =>
    obtain ⟨verdict, first, second, tried, rest, rfl⟩ := h.of_bind
    cases verdict with
    | rejected reason =>
      obtain ⟨-, rfl⟩ := rest.of_done
      contradiction
    | accepted =>
      obtain ⟨least, most, taken⟩ := bounded_of_narrow rest found (by omega) (by omega)
      exact ⟨least, most, (took_of_trial tried).append_left, taken.append_right⟩

variable (p) in
/-- What a definition may come to along a transcript. -/
inductive Resolution (lead separator : String) (d : Definition) (transcript : List (Request × Outcome)) :
    ResolvedRange → Prop where
  | declared (several : d.min < d.max) : Resolution lead separator d transcript ⟨d.name, d.min, d.max, true⟩
  | found {max : Int} (placeholder : d.max ≤ d.min) (least : d.min ≤ max) (most : max ≤ ceiling)
    (tookLeast : p.Took transcript (renderParam lead d.name separator d.min))
    (tookMost : p.Took transcript (renderParam lead d.name separator max)) :
    Resolution lead separator d transcript ⟨d.name, d.min, max, true⟩
  | failed (placeholder : d.max ≤ d.min) :
    Resolution lead separator d transcript ⟨d.name, d.min, d.min, false⟩

theorem Resolution.min_le_max {lead separator : String} {d : Definition}
    {transcript : List (Request × Outcome)} {range : ResolvedRange}
    (h : p.Resolution lead separator d transcript range) : range.min ≤ range.max := by
  cases h with
  | declared several => exact Int.le_of_lt several
  | found _ least => exact least
  | failed => exact Int.le_refl _

theorem Resolution.max_eq_min {lead separator : String} {d : Definition}
    {transcript : List (Request × Outcome)} {range : ResolvedRange}
    (h : p.Resolution lead separator d transcript range) (failed : range.resolved = false) :
    range.max = range.min := by
  cases h with
  | declared => contradiction
  | found => contradiction
  | failed => rfl

theorem Resolution.append {lead separator : String} {d : Definition}
    {first second : List (Request × Outcome)} {range : ResolvedRange}
    (h : p.Resolution lead separator d second range) :
    p.Resolution lead separator d (first ++ second) range := by
  cases h with
  | declared several => exact .declared several
  | found placeholder least most tookLeast tookMost =>
    exact .found placeholder least most tookLeast.append_right tookMost.append_right
  | failed placeholder => exact .failed placeholder

theorem resolution_of_resolve {lead separator : String} {d : Definition}
    {transcript : List (Request × Outcome)} {range : ResolvedRange}
    (h : Ends (p.resolve lead separator d) transcript range) :
    p.Resolution lead separator d transcript range := by
  rw [resolve, Definition.needsSearch] at h
  split at h
  · next placeholder =>
    have placeholder : d.max ≤ d.min := of_decide_eq_true placeholder
    obtain ⟨bound, first, second, searched, rest, rfl⟩ := h.of_bind
    obtain ⟨rfl, rfl⟩ := rest.of_done
    rw [List.append_nil]
    cases found : bound.found with
    | false => exact .failed placeholder
    | true =>
      obtain ⟨least, most, tookLeast, tookMost⟩ := bounded_of_findMax searched found
      exact .found placeholder least most tookLeast tookMost
  · next several =>
    obtain ⟨-, rfl⟩ := h.of_done
    exact .declared (by simpa using several)

end FlagSurvey.Probe
