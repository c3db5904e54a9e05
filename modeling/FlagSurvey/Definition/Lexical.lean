/-! Text outside and inside of literals. A mark, single or double, opens a literal that the same mark
closes; a backslash in it takes the next character out of consideration. Parentheses and commas count
only outside. -/
namespace FlagSurvey.Definition

inductive Mode where
  | code
  | inside (mark : Char)
  | escaped (mark : Char)
  deriving DecidableEq, Repr

def Mode.next : Mode → Char → Mode
  | .code, c => if c == '"' || c == '\x27' then .inside c else .code
  | .inside mark, c => if c == '\\' then .escaped mark else if c == mark then .code else .inside mark
  | .escaped mark, _ => .inside mark

def depthAfter (mode : Mode) (depth : Nat) (c : Char) : Nat :=
  match mode with
  | .code => if c == '(' then depth + 1 else if c == ')' then depth - 1 else depth
  | _ => depth

def literalLength (mode : Mode) : List Char → Nat
  | [] => 0
  | c :: rest =>
    match mode.next c with
    | .code => 1
    | next => literalLength next rest + 1

def splitOn (mode : Mode) (depth : Nat) : List Char → List (List Char)
  | [] => [[]]
  | c :: rest =>
    if mode = .code ∧ depth = 0 ∧ c = ',' then [] :: splitOn .code 0 rest
    else
      match splitOn (mode.next c) (depthAfter mode depth c) rest with
      | [] => [[c]]
      | field :: more => (c :: field) :: more

def splitFields (body : List Char) : List (List Char) := splitOn .code 0 body

/-- The text up to the parenthesis that closes one opened before it, and the text after that. -/
def bodyOn (mode : Mode) (depth : Nat) : List Char → Option (List Char × List Char)
  | [] => none
  | c :: rest =>
    if mode = .code ∧ depth = 0 ∧ c = ')' then some ([], rest)
    else
      match bodyOn (mode.next c) (depthAfter mode depth c) rest with
      | none => none
      | some (body, after) => some (c :: body, after)

def body? (text : List Char) : Option (List Char × List Char) := bodyOn .code 0 text

theorem splitOn_ne_nil (mode : Mode) (depth : Nat) (text : List Char) :
    splitOn mode depth text ≠ [] := by
  fun_cases splitOn mode depth text <;> simp

theorem intercalate_splitOn (mode : Mode) (depth : Nat) (text : List Char) :
    List.intercalate [','] (splitOn mode depth text) = text := by
  induction text generalizing mode depth with
  | nil => rfl
  | cons c rest ih =>
    rw [splitOn]
    split
    · next h =>
      have step := ih .code 0
      cases fields : splitOn .code 0 rest with
      | nil => exact absurd fields (splitOn_ne_nil _ _ _)
      | cons field more =>
        rw [fields] at step
        simp_all [List.intercalate]
    · have step := ih (mode.next c) (depthAfter mode depth c)
      cases fields : splitOn (mode.next c) (depthAfter mode depth c) rest with
      | nil => exact absurd fields (splitOn_ne_nil _ _ _)
      | cons field more =>
        rw [fields] at step
        cases more <;> simp_all [List.intercalate]

/-- A body, its parenthesis and the text after it are the text. -/
theorem bodyOn_eq_some {mode : Mode} {depth : Nat} {text body after : List Char}
    (h : bodyOn mode depth text = some (body, after)) : text = body ++ ')' :: after := by
  induction text generalizing mode depth body with
  | nil => simp [bodyOn] at h
  | cons c rest ih =>
    rw [bodyOn] at h
    split at h
    · simp_all
    · cases found : bodyOn (mode.next c) (depthAfter mode depth c) rest with
      | none => simp [found] at h
      | some pair =>
        simp only [found, Option.some.injEq, Prod.mk.injEq] at h
        rw [← h.1, List.cons_append, ← ih (found.trans (by rw [← h.2]))]

end FlagSurvey.Definition
