import FlagSurvey.Flag.Inverse

/-! Inverses of switches. A body that begins with `no-` loses it and any other gains it, so putting `no-`
in front is the inverse only of a body that does not begin with it already. -/
namespace FlagSurvey

def Negative (body : List Char) : Prop := ['n', 'o', '-'] <+: body

instance (body : List Char) : Decidable (Negative body) := inferInstanceAs (Decidable (_ <+: _))

theorem invertBody_negative (body : List Char) : invertBody ('n' :: 'o' :: '-' :: body) = body := rfl

theorem invertBody_of_not_negative {body : List Char} (h : ¬Negative body) :
    invertBody body = 'n' :: 'o' :: '-' :: body := by
  unfold invertBody
  split
  · next rest => exact absurd ⟨rest, rfl⟩ h
  · rfl

/-- Two bodies at most have a given negative form as their inverse. -/
theorem invertBody_eq_negative_iff {body name : List Char} :
    invertBody body = 'n' :: 'o' :: '-' :: name ↔
      body = name ∧ ¬Negative name ∨ body = 'n' :: 'o' :: '-' :: 'n' :: 'o' :: '-' :: name := by
  by_cases h : Negative body
  · obtain ⟨rest, rfl⟩ := h
    have differ : ¬(['n', 'o', '-'] ++ rest = name ∧ ¬Negative name) := by
      rintro ⟨rfl, positive⟩
      exact positive ⟨rest, rfl⟩
    rw [List.cons_append, List.cons_append, List.cons_append, List.nil_append, invertBody_negative]
    simp only [List.cons_append, List.nil_append] at differ
    simp [differ]
  · have differ : body ≠ 'n' :: 'o' :: '-' :: 'n' :: 'o' :: '-' :: name := by
      rintro rfl
      exact h ⟨_, rfl⟩
    rw [invertBody_of_not_negative h]
    simp only [List.cons.injEq, true_and, differ, or_false]
    constructor
    · rintro rfl
      exact ⟨rfl, h⟩
    · exact fun same => same.1

theorem invert?_eq_none_iff {option : String} : invert? option = none ↔ Category.of option ≠ .optimizer := by
  rw [Category.of, ne_eq, ← invertChars_isSome_iff, invert?, Option.map_eq_none_iff]
  cases invertChars option.toList <;> simp

theorem invert?_eq_some_iff {option inverse : String} :
    invert? option = some inverse ↔ ∃ body, option.toList = '-' :: 'f' :: body ∧
      inverse.toList = '-' :: 'f' :: invertBody body := by
  rw [invert?, Option.map_eq_some_iff]
  constructor
  · rintro ⟨chars, found, rfl⟩
    unfold invertChars at found
    split at found
    · next body shape =>
      refine ⟨body, shape, ?_⟩
      rw [String.toList_ofList, ← Option.some.inj found]
    · contradiction
  · rintro ⟨body, shape, shape'⟩
    refine ⟨inverse.toList, ?_, String.ofList_toList⟩
    rw [shape, shape', invertChars]

theorem invert?_eq_negative_iff {flag name : String} :
    invert? flag = some ("-fno-" ++ name) ↔
      flag = "-f" ++ name ∧ ¬Negative name.toList ∨ flag = "-fno-" ++ "no-" ++ name := by
  have off : ("-fno-" ++ name).toList = '-' :: 'f' :: 'n' :: 'o' :: '-' :: name.toList := by simp
  rw [invert?_eq_some_iff, off, ← String.toList_inj, ← String.toList_inj]
  simp only [String.toList_append, List.cons.injEq, true_and]
  constructor
  · rintro ⟨body, shape, inverted⟩
    rcases invertBody_eq_negative_iff.mp inverted.symm with ⟨rfl, positive⟩ | rfl
    · exact .inl ⟨shape, positive⟩
    · exact .inr shape
  · rintro (⟨shape, positive⟩ | shape)
    · exact ⟨name.toList, shape, (invertBody_of_not_negative positive).symm⟩
    · exact ⟨_, shape, (invertBody_negative _).symm⟩

end FlagSurvey
