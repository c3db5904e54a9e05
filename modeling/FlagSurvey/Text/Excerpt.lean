import FlagSurvey.Text.Blank

/-! Texts bounded by their length in UTF-8. A cut keeps the longest run of whole characters that
fits; an excerpt is the words of a text on one line, cut and marked where they do not fit. -/
namespace FlagSurvey.Text

def byteLength : List Char → Nat
  | [] => 0
  | c :: rest => c.utf8Size + byteLength rest

@[simp] theorem byteLength_nil : byteLength [] = 0 := rfl

@[simp] theorem byteLength_cons (c : Char) (text : List Char) :
    byteLength (c :: text) = c.utf8Size + byteLength text := rfl

@[simp] theorem byteLength_append (first second : List Char) :
    byteLength (first ++ second) = byteLength first + byteLength second := by
  induction first with
  | nil => simp
  | cons c rest ih => simp [ih, Nat.add_assoc]

def cut : Nat → List Char → List Char
  | _, [] => []
  | room, c :: rest => if c.utf8Size ≤ room then c :: cut (room - c.utf8Size) rest else []

theorem byteLength_cut_le (room : Nat) (text : List Char) : byteLength (cut room text) ≤ room := by
  induction text generalizing room with
  | nil => simp [cut]
  | cons c rest ih =>
    rw [cut]
    split
    · have := ih (room - c.utf8Size)
      simp only [byteLength_cons]
      omega
    · simp

theorem cut_eq_self {room : Nat} {text : List Char} (h : byteLength text ≤ room) :
    cut room text = text := by
  induction text generalizing room with
  | nil => rfl
  | cons c rest ih =>
    simp only [byteLength_cons] at h
    rw [cut, if_pos (by omega), ih (by omega)]

def joinWords (pieces : List (List Char)) : List Char := List.intercalate [' '] pieces

def excerptOf (room : Nat) (text : List Char) : List Char :=
  let line := joinWords (words text)
  if byteLength line ≤ room then line else cut room line ++ ['.', '.', '.']

theorem byteLength_excerptOf_le (room : Nat) (text : List Char) :
    byteLength (excerptOf room text) ≤ room + 3 := by
  rw [excerptOf]
  split
  · omega
  · have := byteLength_cut_le room (joinWords (words text))
    have dots : byteLength ['.', '.', '.'] = 3 := by decide
    rw [byteLength_append, dots]
    omega

def truncate (room : Nat) (text : String) : String := String.ofList (cut room text.toList)

def excerpt (room : Nat) (text : String) : String := String.ofList (excerptOf room text.toList)

end FlagSurvey.Text
