import Mathlib
import FlagSurvey.Config

/-! Limits of a configuration as spans of time. Validation asks only that a limit is finite and positive.
Half a nanosecond or less rounds to no time at all, and what rounds to two to the sixty-fourth seconds is
no span, so valid limits can be used exactly if they lie between the two. -/
namespace FlagSurvey

open Number

namespace Number.Binary64

def value? : Binary64 → Option ℚ
  | .finite negative significand scale =>
    some ((if negative then -1 else 1) * ((significand * Nat.pow 2 scale : ℕ) / one))
  | _ => none

theorem one_pos : 0 < one := by
  unfold one
  generalize 1074 = n
  exact Nat.two_pow_pos n

theorem roundDiv_eq_zero_iff {numerator denominator : ℕ} (h : 0 < denominator) :
    roundDiv numerator denominator = 0 ↔ 2 * numerator ≤ denominator := by
  constructor
  · intro zero
    have within := (roundDiv_within numerator h).2
    rw [zero] at within
    omega
  · intro small
    have floor : numerator / denominator = 0 := Nat.div_eq_of_lt (by omega)
    have rest : numerator % denominator = numerator := Nat.mod_eq_of_lt (by omega)
    simp [roundDiv, floor, rest, small]

/-- A tie below an even bound goes to the bound. -/
theorem roundDiv_lt_iff {numerator denominator bound : ℕ} (h : 0 < denominator)
    (even : bound % 2 = 0) :
    roundDiv numerator denominator < bound ↔
      2 * numerator + denominator < 2 * (bound * denominator) := by
  have split := Nat.div_add_mod' numerator denominator
  have small := Nat.mod_lt numerator h
  have above : numerator / denominator + 2 ≤ bound →
      numerator / denominator * denominator + 2 * denominator ≤ bound * denominator := fun le => by
    simpa only [Nat.add_mul] using Nat.mul_le_mul_right denominator le
  have next : bound = numerator / denominator + 1 →
      bound * denominator = numerator / denominator * denominator + denominator := fun same => by
    rw [same, Nat.add_mul, Nat.one_mul]
  have below : bound ≤ numerator / denominator →
      bound * denominator ≤ numerator / denominator * denominator := fun le =>
    Nat.mul_le_mul_right denominator le
  simp only [roundDiv]
  split
  · next up =>
    simp only [Bool.or_eq_true, decide_eq_true_eq, Bool.and_eq_true, beq_iff_eq] at up
    omega
  · next down =>
    simp only [Bool.or_eq_true, decide_eq_true_eq, Bool.and_eq_true, beq_iff_eq, not_or] at down
    omega

theorem value?_finite (significand scale : ℕ) :
    value? (.finite false significand scale) = some ((significand * Nat.pow 2 scale : ℕ) / one : ℚ) := by
  simp only [value?, Bool.false_eq_true, if_false, one_mul]

theorem value?_of_units {significand scale n : ℕ} (h : significand * Nat.pow 2 scale = n * one) :
    value? (.finite false significand scale) = some (n : ℚ) := by
  rw [value?_finite, h, Nat.cast_mul, mul_div_cancel_right₀]
  exact Nat.cast_ne_zero.mpr one_pos.ne'

theorem exists_finite {x : Binary64} (finite : x.isFinite = true) (positive : x.isPositive = true) :
    ∃ significand scale, x = .finite false significand scale ∧ 0 < significand := by
  cases x with
  | nan => contradiction
  | infinite negative => contradiction
  | finite negative significand scale =>
    simp only [isPositive, Bool.and_eq_true, Bool.not_eq_true', bne_iff_ne] at positive
    obtain ⟨rfl, nonzero⟩ := positive
    exact ⟨significand, scale, rfl, Nat.pos_of_ne_zero nonzero⟩

end Number.Binary64

namespace Duration

def halfNano : ℚ := 1 / 2000000000

variable {x : Binary64} {significand scale : ℕ}

/-- The seconds are rounded to whole nanoseconds, and only then compared with the bound. -/
theorem ofSeconds?_finite :
    ofSeconds? (.finite false significand scale) =
      if Binary64.roundDiv (significand * Nat.pow 2 scale * perSecond) Binary64.one <
          unsignedBound * perSecond then
        some ⟨Binary64.roundDiv (significand * Nat.pow 2 scale * perSecond) Binary64.one⟩
      else none := by
  simp only [ofSeconds?, Bool.false_and, Bool.false_eq_true, if_false]

theorem exists_ofSeconds?_iff :
    ofSeconds? (.finite false significand scale) ≠ none ↔
      Binary64.roundDiv (significand * Nat.pow 2 scale * perSecond) Binary64.one <
        unsignedBound * perSecond := by
  rw [ofSeconds?_finite]
  simp

theorem ofSeconds?_eq_empty_iff :
    ofSeconds? (.finite false significand scale) = some ⟨0⟩ ↔
      Binary64.roundDiv (significand * Nat.pow 2 scale * perSecond) Binary64.one = 0 := by
  have bound : 0 < unsignedBound * perSecond := Nat.mul_pos (by decide) (by decide)
  rw [ofSeconds?_finite]
  generalize unsignedBound * perSecond = top at bound ⊢
  generalize Binary64.roundDiv (significand * Nat.pow 2 scale * perSecond) Binary64.one = nanos
  constructor
  · intro h
    split at h
    · exact congrArg Duration.nanos (Option.some.inj h)
    · contradiction
  · intro h
    rw [h, if_pos bound]

theorem ofSeconds?_ne_none_iff :
    ofSeconds? (.finite false significand scale) ≠ none ↔
      ((significand * Nat.pow 2 scale : ℕ) / Binary64.one : ℚ) < 2 ^ 64 - halfNano := by
  have positive : (0 : ℚ) < Binary64.one := Nat.cast_pos.mpr Binary64.one_pos
  rw [exists_ofSeconds?_iff, Binary64.roundDiv_lt_iff Binary64.one_pos (by decide)]
  generalize significand * Nat.pow 2 scale = units
  generalize Binary64.one = one at positive ⊢
  rw [div_lt_iff₀ positive, halfNano, ← Nat.cast_lt (α := ℚ)]
  push_cast [unsignedBound, perSecond]
  constructor <;> intro h <;> linarith

theorem ofSeconds?_ne_empty_iff :
    ofSeconds? (.finite false significand scale) ≠ some ⟨0⟩ ↔
      halfNano < ((significand * Nat.pow 2 scale : ℕ) / Binary64.one : ℚ) := by
  have positive : (0 : ℚ) < Binary64.one := Nat.cast_pos.mpr Binary64.one_pos
  rw [ne_eq, ofSeconds?_eq_empty_iff, Binary64.roundDiv_eq_zero_iff Binary64.one_pos, not_le]
  generalize significand * Nat.pow 2 scale = units
  generalize Binary64.one = one at positive ⊢
  rw [lt_div_iff₀ positive, halfNano, ← Nat.cast_lt (α := ℚ)]
  push_cast [perSecond]
  constructor <;> intro h <;> linarith

def Usable (span : Option Duration) : Prop := ∃ d, span = some d ∧ 0 < d.nanos

theorem usable_iff {span : Option Duration} : Usable span ↔ span ≠ none ∧ span ≠ some ⟨0⟩ := by
  cases span with
  | none => simp [Usable]
  | some d =>
    obtain ⟨nanos⟩ := d
    simp [Usable, Nat.pos_iff_ne_zero]

theorem usable_ofSeconds?_iff (finite : x.isFinite = true) (positive : x.isPositive = true) :
    ∃ seconds : ℚ, x.value? = some seconds ∧ 0 < seconds ∧
      (Usable (ofSeconds? x) ↔ halfNano < seconds ∧ seconds < 2 ^ 64 - halfNano) ∧
      (ofSeconds? x = none ↔ 2 ^ 64 - halfNano ≤ seconds) := by
  obtain ⟨significand, scale, rfl, nonzero⟩ := Binary64.exists_finite finite positive
  refine ⟨_, Binary64.value?_finite significand scale, ?_, ?_, ?_⟩
  · have units : 0 < significand * Nat.pow 2 scale := Nat.mul_pos nonzero (Nat.two_pow_pos scale)
    exact div_pos (Nat.cast_pos.mpr units) (Nat.cast_pos.mpr Binary64.one_pos)
  · rw [usable_iff, ofSeconds?_ne_none_iff, ofSeconds?_ne_empty_iff, and_comm]
  · rw [← not_lt, ← ofSeconds?_ne_none_iff, not_not]

end Duration

namespace Config

open Duration

theorem validate_eq_ok_iff {config : Config} : config.validate = .ok () ↔ config.objection = none := by
  rw [validate]
  cases config.objection <;> simp

theorem usable_of_objection {config : Config} (h : config.objection = none) :
    objection.usable config.probe.compileLimit = true ∧
      objection.usable config.compiler.helpLimit = true := by
  rw [objection] at h
  split at h
  · contradiction
  split at h
  · contradiction
  split at h
  · contradiction
  simp_all

/-- A valid configuration has positive limits, and both can be used exactly if they are more than half a
nanosecond and do not round to two to the sixty-fourth seconds. -/
theorem limits_usable_iff {config : Config} (valid : config.validate = .ok ()) :
    ∃ compile help : ℚ, config.probe.compileLimit.value? = some compile ∧
      config.compiler.helpLimit.value? = some help ∧ 0 < compile ∧ 0 < help ∧
      (Usable config.compileLimit? ∧ Usable config.helpLimit? ↔
        (halfNano < compile ∧ compile < 2 ^ 64 - halfNano) ∧
          halfNano < help ∧ help < 2 ^ 64 - halfNano) ∧
      (config.compileLimit? = none ↔ 2 ^ 64 - halfNano ≤ compile) ∧
      (config.helpLimit? = none ↔ 2 ^ 64 - halfNano ≤ help) := by
  obtain ⟨compileUsable, helpUsable⟩ := usable_of_objection (validate_eq_ok_iff.mp valid)
  obtain ⟨finite, positive⟩ := Bool.and_eq_true_iff.mp compileUsable
  obtain ⟨compile, denotes, above, usable, none⟩ := usable_ofSeconds?_iff finite positive
  obtain ⟨finite', positive'⟩ := Bool.and_eq_true_iff.mp helpUsable
  obtain ⟨help, denotes', above', usable', none'⟩ := usable_ofSeconds?_iff finite' positive'
  exact ⟨compile, help, denotes, denotes', above, above', and_congr usable usable', none, none'⟩

theorem standard_limits_usable :
    ({} : Config).validate = .ok () ∧
      Usable ({} : Config).compileLimit? ∧ Usable ({} : Config).helpLimit? := by
  have valid : ({} : Config).validate = .ok () := validate_eq_ok_iff.mpr (by decide +kernel)
  obtain ⟨compile, help, denotes, denotes', -, -, usable, -⟩ := limits_usable_iff valid
  have five : ({} : Config).probe.compileLimit = .finite false 5629499534213120 1024 := by
    decide +kernel
  have thirty : ({} : Config).compiler.helpLimit = .finite false 8444249301319680 1026 := by
    decide +kernel
  have units : 5629499534213120 * Nat.pow 2 1024 = 5 * Binary64.one ∧
      8444249301319680 * Nat.pow 2 1026 = 30 * Binary64.one := by decide +kernel
  rw [five, Binary64.value?_of_units units.1, Option.some.injEq] at denotes
  rw [thirty, Binary64.value?_of_units units.2, Option.some.injEq] at denotes'
  refine ⟨valid, usable.mpr ?_⟩
  rw [← denotes, ← denotes', halfNano]
  norm_num

/-- Limits that are valid: the first has no span of time, and the span of the second is empty. -/
theorem valid_limits_unusable :
    let huge : Config := { probe := { compileLimit := .ofNat 100000000000000000000 } }
    let tiny : Config := { compiler := { helpLimit := .finite false 1 0 } }
    huge.validate = .ok () ∧ huge.compileLimit? = none ∧
      tiny.validate = .ok () ∧ tiny.helpLimit? = some ⟨0⟩ := by
  intro huge tiny
  have valid : huge.objection = none ∧ tiny.objection = none := by decide +kernel
  exact ⟨validate_eq_ok_iff.mpr valid.1, by decide +kernel, validate_eq_ok_iff.mpr valid.2,
    by decide +kernel⟩

end Config
end FlagSurvey
