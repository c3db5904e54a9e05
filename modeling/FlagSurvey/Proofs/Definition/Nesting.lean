import FlagSurvey.Definition.Lexical

/-! Texts whose literals are closed and whose parentheses match. The search for the end of a body and the
split of a body both go over such a text without a stop and leave it as they came to it, so the body found
is the one that ends where its own parenthesis closes. -/
namespace FlagSurvey.Definition

def isMark (c : Char) : Bool := c == '"' || c == '\x27'

inductive LiteralText (mark : Char) : List Char → Prop where
  | nil : LiteralText mark []
  | plain {c : Char} {rest : List Char} (unmarked : c ≠ mark) (unescaped : c ≠ '\\')
    (h : LiteralText mark rest) : LiteralText mark (c :: rest)
  | escape {c : Char} {rest : List Char} (h : LiteralText mark rest) :
    LiteralText mark ('\\' :: c :: rest)

inductive Balanced : List Char → Prop where
  | nil : Balanced []
  | plain {c : Char} {rest : List Char} (unmarked : isMark c = false) (unopened : c ≠ '(')
    (unclosed : c ≠ ')') (h : Balanced rest) : Balanced (c :: rest)
  | literal {mark : Char} {inner rest : List Char} (marked : isMark mark = true)
    (inside : LiteralText mark inner) (h : Balanced rest) :
    Balanced (mark :: (inner ++ mark :: rest))
  | group {inner rest : List Char} (inside : Balanced inner) (h : Balanced rest) :
    Balanced ('(' :: (inner ++ ')' :: rest))

/-- The text leads from one mode and depth to others, with no stop outside literals and parentheses. -/
inductive Passes (stop : Char) : Mode → Nat → List Char → Mode → Nat → Prop where
  | nil (mode : Mode) (depth : Nat) : Passes stop mode depth [] mode depth
  | cons {mode last : Mode} {depth final : Nat} {c : Char} {rest : List Char}
    (on : ¬(mode = .code ∧ depth = 0 ∧ c = stop))
    (h : Passes stop (mode.next c) (depthAfter mode depth c) rest last final) :
    Passes stop mode depth (c :: rest) last final

theorem Passes.append {stop : Char} {mode middle last : Mode} {depth between final : Nat}
    {text more : List Char} (h : Passes stop mode depth text middle between)
    (rest : Passes stop middle between more last final) :
    Passes stop mode depth (text ++ more) last final := by
  induction h with
  | nil => exact rest
  | cons on _ ih => exact .cons on (ih rest)

/-- The body found after a text, with the text in front. -/
def grow (text : List Char) (found : Option (List Char × List Char)) :
    Option (List Char × List Char) :=
  found.map fun pair => (text ++ pair.1, pair.2)

theorem grow_nil (found : Option (List Char × List Char)) : grow [] found = found := by
  cases found <;> rfl

theorem grow_append (text more : List Char) (found : Option (List Char × List Char)) :
    grow (text ++ more) found = grow text (grow more found) := by
  cases found <;> simp [grow]

theorem bodyOn_cons {mode : Mode} {depth : Nat} {c : Char} (on : ¬(mode = .code ∧ depth = 0 ∧ c = ')'))
    (rest : List Char) :
    bodyOn mode depth (c :: rest) = grow [c] (bodyOn (mode.next c) (depthAfter mode depth c) rest) := by
  rw [bodyOn, if_neg on]
  cases bodyOn (mode.next c) (depthAfter mode depth c) rest <;> rfl

theorem Passes.bodyOn_eq {mode last : Mode} {depth final : Nat} {text : List Char}
    (h : Passes ')' mode depth text last final) (rest : List Char) :
    bodyOn mode depth (text ++ rest) = grow text (bodyOn last final rest) := by
  induction h with
  | nil => exact (grow_nil _).symm
  | cons on _ ih => rw [List.cons_append, bodyOn_cons on, ih, ← grow_append, List.singleton_append]

def leadIn (text : List Char) : List (List Char) → List (List Char)
  | [] => [text]
  | field :: more => (text ++ field) :: more

theorem leadIn_append (text more : List Char) (fields : List (List Char)) :
    leadIn (text ++ more) fields = leadIn text (leadIn more fields) := by
  cases fields <;> simp [leadIn]

theorem leadIn_nil (mode : Mode) (depth : Nat) (text : List Char) :
    leadIn [] (splitOn mode depth text) = splitOn mode depth text := by
  cases fields : splitOn mode depth text with
  | nil => exact absurd fields (splitOn_ne_nil _ _ _)
  | cons field more => rfl

theorem splitOn_cons {mode : Mode} {depth : Nat} {c : Char} (on : ¬(mode = .code ∧ depth = 0 ∧ c = ','))
    (rest : List Char) :
    splitOn mode depth (c :: rest) = leadIn [c] (splitOn (mode.next c) (depthAfter mode depth c) rest) := by
  rw [splitOn, if_neg on]
  cases splitOn (mode.next c) (depthAfter mode depth c) rest <;> rfl

theorem Passes.splitOn_eq {mode last : Mode} {depth final : Nat} {text : List Char}
    (h : Passes ',' mode depth text last final) (rest : List Char) :
    splitOn mode depth (text ++ rest) = leadIn text (splitOn last final rest) := by
  induction h with
  | nil mode depth => exact (leadIn_nil mode depth rest).symm
  | cons on _ ih => rw [List.cons_append, splitOn_cons on, ih, ← leadIn_append, List.singleton_append]

theorem isMark_iff {c : Char} : isMark c = true ↔ c = '"' ∨ c = '\x27' := by
  simp [isMark]

theorem next_code_of_mark {c : Char} (h : isMark c = true) : Mode.code.next c = .inside c := if_pos h

theorem next_code_of_not_mark {c : Char} (h : isMark c = false) : Mode.code.next c = .code :=
  if_neg (Bool.eq_false_iff.mp h)

theorem LiteralText.passes {mark : Char} {inner : List Char} (h : LiteralText mark inner)
    (marked : isMark mark = true) (stop : Char) (depth : Nat) :
    Passes stop (.inside mark) depth (inner ++ [mark]) .code depth := by
  induction h with
  | nil =>
    have close : (Mode.inside mark).next mark = .code := by
      rcases isMark_iff.mp marked with rfl | rfl <;> decide
    refine .cons nofun ?_
    rw [close]
    exact .nil _ _
  | @plain c rest unmarked unescaped _ ih =>
    have stay : (Mode.inside mark).next c = .inside mark := by
      simp [Mode.next, unmarked, unescaped]
    refine .cons nofun ?_
    rw [stay]
    exact ih
  | escape _ ih => exact .cons nofun (.cons nofun ih)

theorem depthAfter_of_mark {c : Char} {depth : Nat} (h : isMark c = true) :
    depthAfter .code depth c = depth := by
  rcases isMark_iff.mp h with rfl | rfl <;> rfl

section

variable {stop : Char} {depth final : Nat} {inner rest : List Char} {last : Mode}

theorem passes_plain {c : Char} (unmarked : isMark c = false) (unopened : c ≠ '(') (unclosed : c ≠ ')')
    (on : depth = 0 → c ≠ stop) (h : Passes stop .code depth rest last final) :
    Passes stop .code depth (c :: rest) last final := by
  refine .cons (fun stopped => on stopped.2.1 stopped.2.2) ?_
  rw [next_code_of_not_mark unmarked, depthAfter, if_neg (by simpa using unopened),
    if_neg (by simpa using unclosed)]
  exact h

theorem passes_literal {mark : Char} (unmarked : isMark stop = false) (marked : isMark mark = true)
    (inside : LiteralText mark inner) (h : Passes stop .code depth rest last final) :
    Passes stop .code depth (mark :: (inner ++ mark :: rest)) last final := by
  have whole := (inside.passes marked stop depth).append h
  rw [List.append_assoc, List.singleton_append] at whole
  refine .cons ?_ ?_
  · rintro ⟨-, -, rfl⟩
    exact absurd marked (by simp [unmarked])
  · rw [next_code_of_mark marked, depthAfter_of_mark marked]
    exact whole

theorem passes_group (unopened : stop ≠ '(')
    (inside : Passes stop .code (depth + 1) inner .code (depth + 1))
    (h : Passes stop .code depth rest last final) :
    Passes stop .code depth ('(' :: (inner ++ ')' :: rest)) last final := by
  have within : depth + 1 ≠ 0 := Nat.succ_ne_zero depth
  have closes : Passes stop .code (depth + 1) (')' :: rest) last final :=
    .cons (fun stopped => within stopped.2.1) h
  exact .cons (fun stopped => unopened stopped.2.2.symm) (inside.append closes)

end

theorem Balanced.passes {text : List Char} (h : Balanced text) {stop : Char} {depth : Nat}
    (unmarked : isMark stop = false) (unopened : stop ≠ '(') (sheltered : depth = 0 → stop = ')') :
    Passes stop .code depth text .code depth := by
  induction h generalizing depth with
  | nil => exact .nil _ _
  | plain plain one unclosed _ ih =>
    exact passes_plain plain one unclosed (fun outer => sheltered outer ▸ unclosed) (ih sheltered)
  | literal marked inside _ ih => exact passes_literal unmarked marked inside (ih sheltered)
  | group _ _ ihInner ihRest =>
    have inner := ihInner fun outer => absurd outer (Nat.succ_ne_zero depth)
    exact passes_group unopened inner (ihRest sheltered)

theorem Balanced.append {text more : List Char} (h : Balanced text) (rest : Balanced more) :
    Balanced (text ++ more) := by
  induction h with
  | nil => exact rest
  | plain unmarked unopened unclosed _ ih => exact .plain unmarked unopened unclosed ih
  | literal marked inside _ ih =>
    rw [List.cons_append, List.append_assoc, List.cons_append]
    exact .literal marked inside ih
  | group inside _ _ ih =>
    rw [List.cons_append, List.append_assoc, List.cons_append]
    exact .group inside ih

theorem literalLength_ended {mode : Mode} {c : Char} (ends : mode.next c = .code) (rest : List Char) :
    literalLength mode (c :: rest) = 1 := by
  rw [literalLength, ends]

theorem literalLength_cons {mode : Mode} {c : Char} (still : mode.next c ≠ .code) (rest : List Char) :
    literalLength mode (c :: rest) = literalLength (mode.next c) rest + 1 := by
  rw [literalLength]
  split
  · next ends => exact absurd ends still
  · rfl

theorem passes_literalLength {mode : Mode} (inside : mode ≠ .code) (stop : Char) (depth : Nat)
    (text : List Char) : ∃ last, Passes stop mode depth (text.take (literalLength mode text)) last depth ∧
      (last = .code ∨ text.drop (literalLength mode text) = []) := by
  induction text generalizing mode with
  | nil => exact ⟨mode, .nil _ _, .inr rfl⟩
  | cons c rest ih =>
    have on : ¬(mode = .code ∧ depth = 0 ∧ c = stop) := fun stopped => inside stopped.1
    have same : depthAfter mode depth c = depth := by
      cases mode with
      | code => exact absurd rfl inside
      | inside mark => rfl
      | escaped mark => rfl
    by_cases ends : mode.next c = .code
    · rw [literalLength_ended ends]
      refine ⟨.code, .cons on ?_, .inl rfl⟩
      rw [ends, same]
      exact .nil _ _
    · obtain ⟨last, passes, ended⟩ := ih ends
      rw [literalLength_cons ends]
      refine ⟨last, .cons on ?_, ended⟩
      rwa [same]

theorem passes_quoted {stop c : Char} (unmarked : isMark stop = false) (marked : isMark c = true) (depth : Nat)
    (rest : List Char) : ∃ last,
      Passes stop .code depth (c :: rest.take (literalLength (.inside c) rest)) last depth ∧
      (last = .code ∨ rest.drop (literalLength (.inside c) rest) = []) := by
  have inside : Mode.inside c ≠ .code := nofun
  obtain ⟨last, passes, ended⟩ := passes_literalLength inside stop depth rest
  refine ⟨last, .cons ?_ ?_, ended⟩
  · rintro ⟨-, -, rfl⟩
    exact absurd marked (by simp [unmarked])
  · rwa [next_code_of_mark marked, depthAfter_of_mark marked]

def isPlain (c : Char) : Bool := !isMark c && c != '(' && c != ')'

theorem isPlain_iff {c : Char} : isPlain c = true ↔ isMark c = false ∧ c ≠ '(' ∧ c ≠ ')' := by
  simp [isPlain, and_assoc]

theorem balanced_of_plain {text : List Char} (h : text.all isPlain = true) : Balanced text := by
  induction text with
  | nil => exact .nil
  | cons c rest ih =>
    rw [List.all_cons, Bool.and_eq_true] at h
    obtain ⟨unmarked, unopened, unclosed⟩ := isPlain_iff.mp h.1
    exact .plain unmarked unopened unclosed (ih h.2)

/-- Balanced but for a number of parentheses that close ones opened before. -/
def Closing : Nat → List Char → Prop
  | 0, text => Balanced text
  | depth + 1, text => ∃ first rest, text = first ++ ')' :: rest ∧ Balanced first ∧ Closing depth rest

theorem Closing.prepend {depth : Nat} {text more : List Char} (balanced : Balanced text)
    (h : Closing depth more) : Closing depth (text ++ more) := by
  cases depth with
  | zero => exact balanced.append h
  | succ depth =>
    obtain ⟨first, rest, rfl, inner, later⟩ := h
    exact ⟨text ++ first, rest, by rw [List.append_assoc], balanced.append inner, later⟩

def Finishing (depth : Nat) (text : List Char) : Mode → Prop
  | .code => Closing depth text
  | .inside mark =>
    ∃ inner rest, text = inner ++ mark :: rest ∧ LiteralText mark inner ∧ Closing depth rest
  | .escaped mark =>
    ∃ c inner rest, text = c :: (inner ++ mark :: rest) ∧ LiteralText mark inner ∧ Closing depth rest

theorem Finishing.cons {mode : Mode} {depth : Nat} {c : Char} {text : List Char}
    (on : ¬(mode = .code ∧ depth = 0 ∧ c = ')'))
    (h : Finishing (depthAfter mode depth c) text (mode.next c)) : Finishing depth (c :: text) mode := by
  cases mode with
  | inside mark =>
    rw [Mode.next] at h
    split at h
    · next escape =>
      obtain ⟨d, inner, rest, rfl, inside, closing⟩ := h
      rw [eq_of_beq escape]
      exact ⟨_, rest, rfl, .escape inside, closing⟩
    · next unescaped =>
      split at h
      · next close =>
        rw [eq_of_beq close]
        exact ⟨[], text, rfl, .nil, h⟩
      · next unmarked =>
        obtain ⟨inner, rest, rfl, inside, closing⟩ := h
        exact ⟨c :: inner, rest, rfl, .plain (by simpa using unmarked) (by simpa using unescaped) inside,
          closing⟩
  | escaped mark =>
    obtain ⟨inner, rest, rfl, inside, closing⟩ := h
    exact ⟨c, inner, rest, rfl, inside, closing⟩
  | code =>
    -- Whatever begins here, a literal, a group or a plain character, joins the balanced text behind it.
    cases marked : isMark c with
    | true =>
      rw [next_code_of_mark marked, depthAfter_of_mark marked] at h
      obtain ⟨inner, rest, rfl, inside, closing⟩ := h
      have literal := closing.prepend (.literal marked inside .nil)
      rw [List.cons_append, List.append_assoc] at literal
      exact literal
    | false =>
      rw [next_code_of_not_mark marked, depthAfter] at h
      split at h
      · next opened =>
        obtain ⟨inner, rest, rfl, inside, closing⟩ := h
        have group := closing.prepend (.group inside .nil)
        rw [List.cons_append, List.append_assoc] at group
        rw [eq_of_beq opened]
        exact group
      · next unopened =>
        split at h
        · next closed =>
          cases depth with
          | zero => exact absurd ⟨rfl, rfl, eq_of_beq closed⟩ on
          | succ depth =>
            rw [eq_of_beq closed]
            exact ⟨[], text, rfl, .nil, h⟩
        · next unclosed =>
          exact Closing.prepend (.plain marked (by simpa using unopened) (by simpa using unclosed) .nil) h

theorem finishing_of_bodyOn {mode : Mode} {depth : Nat} {text body after : List Char}
    (h : bodyOn mode depth text = some (body, after)) : Finishing depth body mode := by
  induction text generalizing mode depth body with
  | nil => cases h
  | cons c rest ih =>
    rw [bodyOn] at h
    split at h
    · next stop =>
      obtain ⟨rfl, rfl, -⟩ := stop
      simp only [Option.some.injEq, Prod.mk.injEq] at h
      rw [← h.1]
      exact Balanced.nil
    · next on =>
      cases found : bodyOn (mode.next c) (depthAfter mode depth c) rest with
      | none => simp [found] at h
      | some pair =>
        obtain ⟨inner, later⟩ := pair
        simp only [found, Option.some.injEq, Prod.mk.injEq] at h
        obtain ⟨rfl, rfl⟩ := h
        exact .cons on (ih found)

/-- The body found in a text is its balanced part before the parenthesis that closes the body's own. -/
theorem body?_eq_some_iff {text body after : List Char} :
    body? text = some (body, after) ↔ Balanced body ∧ text = body ++ ')' :: after := by
  constructor
  · exact fun h => ⟨finishing_of_bodyOn h, bodyOn_eq_some h⟩
  · rintro ⟨balanced, rfl⟩
    have passes : Passes ')' .code 0 body .code 0 :=
      balanced.passes (by decide) (by decide) fun _ => rfl
    have found : bodyOn .code 0 (')' :: after) = some ([], after) := if_pos ⟨rfl, rfl, rfl⟩
    rw [body?, passes.bodyOn_eq, found, grow, Option.map_some, List.append_nil]

theorem body?_eq_none_iff {text : List Char} :
    body? text = none ↔ ¬∃ body after, Balanced body ∧ text = body ++ ')' :: after := by
  constructor
  · rintro unfound ⟨body, after, closed⟩
    exact absurd (body?_eq_some_iff.mpr closed) (by simp [unfound])
  · intro unclosed
    cases found : body? text with
    | none => rfl
    | some pair => exact absurd ⟨pair.1, pair.2, body?_eq_some_iff.mp found⟩ unclosed

/-- A search that finds no end has passed over all of the text. -/
theorem exists_passes_of_bodyOn {mode : Mode} {depth : Nat} {text : List Char}
    (h : bodyOn mode depth text = none) : ∃ last final, Passes ')' mode depth text last final := by
  induction text generalizing mode depth with
  | nil => exact ⟨mode, depth, .nil _ _⟩
  | cons c rest ih =>
    rw [bodyOn] at h
    split at h
    · cases h
    · next on =>
      have later : bodyOn (mode.next c) (depthAfter mode depth c) rest = none := by
        cases found : bodyOn (mode.next c) (depthAfter mode depth c) rest with
        | none => rfl
        | some pair => simp [found] at h
      obtain ⟨last, final, passes⟩ := ih later
      exact ⟨last, final, .cons on passes⟩

theorem Passes.code_of_unmarked {stop : Char} {depth final : Nat} {text : List Char} {last : Mode}
    (h : Passes stop .code depth text last final) (unmarked : ∀ c ∈ text, isMark c = false) :
    last = .code := by
  induction text generalizing depth with
  | nil =>
    cases h
    rfl
  | cons c rest ih =>
    cases h with
    | cons on later =>
      rw [next_code_of_not_mark (unmarked c List.mem_cons_self)] at later
      exact ih later fun d hd => unmarked d (List.mem_cons_of_mem _ hd)

end FlagSurvey.Definition
