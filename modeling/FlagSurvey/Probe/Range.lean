import FlagSurvey.Definition.Basic
import FlagSurvey.Probe.Switch

/-! The search for an upper bound of a parameter. It starts at the ceiling and on each rejection halves
the distance to the least value, which has to be accepted first; the first value accepted is the bound.
It never moves up again, so the bound is usable and near the true one, at one trial a step. -/
namespace FlagSurvey

open Number

/-- The trials of the search after the first. Halving from the ceiling reaches the least value sooner;
the limit is for a compiler that changes its mind. -/
def narrowingSteps : Nat := 64

structure UpperBound where
  value : Int
  found : Bool
  deriving DecidableEq, Repr

namespace Probe

/-- The value halfway from `value` down to `min`; none if the distance is no signed integer of
sixty-four bits, or the value is outside the range of the search. -/
def halfway? (min value : Int) : Option Int :=
  match checked (value - min) with
  | none => none
  | some span =>
    let next := (span.natAbs / 2 : Nat) + min
    if ceiling < next ∨ next < min then none else some next

def narrow (p : Probe) (render : Int → String) (min : Int) : Nat → Int → Plan UpperBound
  | 0, _ => pure ⟨min, false⟩
  | steps + 1, value => do
    match ← p.trial (render value) with
    | .accepted => pure ⟨value, true⟩
    | .rejected _ =>
      match halfway? min value with
      | some next => p.narrow render min steps next
      | none => pure ⟨min, false⟩

def findMax (p : Probe) (lead name separator : String) (min : Int) : Plan UpperBound :=
  let render := renderParam lead name separator
  if ceiling < min then pure ⟨min, false⟩
  else do
    match ← p.trial (render min) with
    | .rejected _ => pure ⟨min, false⟩
    | .accepted => p.narrow render min narrowingSteps ceiling

def resolve (p : Probe) (lead separator : String) (d : Definition) : Plan ResolvedRange :=
  if d.needsSearch then do
    let bound ← p.findMax lead d.name separator d.min
    pure ⟨d.name, d.min, if bound.found then bound.value else d.min, bound.found⟩
  else pure ⟨d.name, d.min, d.max, true⟩

theorem halfway?_bounds {min value next : Int} (h : halfway? min value = some next) :
    min ≤ next ∧ next ≤ ceiling := by
  simp only [halfway?] at h
  split at h
  · contradiction
  · split at h
    · contradiction
    · simp only [Option.some.injEq] at h
      omega

theorem halfway?_eq_some_iff {min value next : Int} (lower : min ≤ value) (upper : value ≤ ceiling) :
    halfway? min value = some next ↔ value - min ≤ greatest ∧ next = min + (value - min) / 2 := by
  have fits : Fits (value - min) ↔ value - min ≤ greatest := by
    simp only [Fits, least]
    omega
  rw [halfway?, checked]
  by_cases near : value - min ≤ greatest
  · rw [if_pos (fits.mpr near)]
    have inside : ¬(ceiling < ((value - min).natAbs / 2 : Nat) + min ∨
        ((value - min).natAbs / 2 : Nat) + min < min) := by omega
    simp only [if_neg inside, Option.some.injEq]
    omega
  · rw [if_neg (mt fits.mp near)]
    simp [near]

end Probe
end FlagSurvey
