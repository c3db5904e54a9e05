import FlagSurvey.Flag.Category

/-! The other form of an optimizer switch: `no-` after the first two characters is dropped where it
stands and put in where it does not. -/
namespace FlagSurvey

def invertBody : List Char → List Char
  | 'n' :: 'o' :: '-' :: rest => rest
  | body => 'n' :: 'o' :: '-' :: body

def invertChars : List Char → Option (List Char)
  | '-' :: 'f' :: body => some ('-' :: 'f' :: invertBody body)
  | _ => none

def invert? (option : String) : Option String := (invertChars option.toList).map String.ofList

theorem invertChars_isSome_iff {option : List Char} :
    (invertChars option).isSome ↔ Category.ofChars option = .optimizer := by
  rw [Category.ofChars_eq_optimizer_iff]
  constructor
  · intro h
    unfold invertChars at h
    split at h
    · exact ⟨_, rfl⟩
    · contradiction
  · rintro ⟨body, rfl⟩
    rfl

theorem invertBody_ne (body : List Char) : invertBody body ≠ body := by
  intro h
  have lengths := congrArg List.length h
  unfold invertBody at lengths
  split at lengths <;> simp at lengths <;> omega

end FlagSurvey
