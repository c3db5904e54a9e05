import FlagSurvey.Proofs.Definition.Nesting

/-! How deep the places of a text lie in parentheses. The split of a body counts the parentheses that are
open and stays at none where one closes too many. In a body that ends with its own parenthesis it never
comes to that: its count is the level of each place there, and it cuts at the commas on the body's own level. -/
namespace FlagSurvey.Definition

def weight (mode : Mode) (c : Char) : Int :=
  match mode with
  | .code => if c == '(' then 1 else if c == ')' then -1 else 0
  | _ => 0

def level (mode : Mode) : List Char → Int
  | [] => 0
  | c :: rest => weight mode c + level (mode.next c) rest

def Mode.after (mode : Mode) (text : List Char) : Mode := text.foldl Mode.next mode

def depthOver (mode : Mode) (depth : Nat) : List Char → Nat
  | [] => depth
  | c :: rest => depthOver (mode.next c) (depthAfter mode depth c) rest

/-- Outside literals, no parenthesis closes where the count is at none. -/
def Unsaturated (mode : Mode) (depth : Nat) (text : List Char) : Prop :=
  ∀ first rest, text = first ++ ')' :: rest → mode.after first = .code → 0 < depthOver mode depth first

def isCut (mode : Mode) (depth : Nat) (text : List Char) (n : Nat) : Bool :=
  text[n]? == some ',' && mode.after (text.take n) == .code && depthOver mode depth (text.take n) == 0

/-- A comma stands at the position, outside literals and as deep in parentheses as the whole text. -/
def isOwnComma (text : List Char) (n : Nat) : Bool :=
  text[n]? == some ',' && Mode.code.after (text.take n) == .code && level .code (text.take n) == 0

def ownCommas (text : List Char) : Nat := (List.range text.length).countP (isOwnComma text)

variable {mode : Mode} {depth : Nat} {text body after : List Char}

theorem depthAfter_eq_weight {c : Char} (h : mode = .code → c = ')' → 0 < depth) :
    (depthAfter mode depth c : Int) = depth + weight mode c := by
  cases mode with
  | code =>
    simp only [depthAfter, weight]
    split
    · rfl
    · split
      · next closed =>
        have := h rfl (eq_of_beq closed)
        omega
      · omega
  | inside mark => simp [depthAfter, weight]
  | escaped mark => simp [depthAfter, weight]

theorem Unsaturated.head {c : Char} {rest : List Char} (h : Unsaturated mode depth (c :: rest)) :
    mode = .code → c = ')' → 0 < depth := by
  rintro outside rfl
  exact h [] rest rfl outside

theorem Unsaturated.tail {c : Char} {rest : List Char} (h : Unsaturated mode depth (c :: rest)) :
    Unsaturated (mode.next c) (depthAfter mode depth c) rest := by
  intro first last shape outside
  exact h (c :: first) last (by rw [shape, List.cons_append]) outside

theorem Unsaturated.cons {c : Char} {rest : List Char} (head : mode = .code → c = ')' → 0 < depth)
    (tail : Unsaturated (mode.next c) (depthAfter mode depth c) rest) :
    Unsaturated mode depth (c :: rest) := by
  intro first last shape outside
  cases first with
  | nil => exact head outside (List.cons.inj shape).1
  | cons d first =>
    obtain ⟨rfl, later⟩ := List.cons.inj shape
    exact tail first last later outside

theorem Unsaturated.depthOver_eq (h : Unsaturated mode depth text) {first rest : List Char}
    (shape : text = first ++ rest) : (depthOver mode depth first : Int) = depth + level mode first := by
  induction first generalizing mode depth text with
  | nil => simp [depthOver, level]
  | cons c first ih =>
    subst shape
    rw [depthOver, level, ih h.tail rfl, depthAfter_eq_weight h.head, Int.add_assoc]

theorem unsaturated_of_bodyOn (h : bodyOn mode depth text = some (body, after)) :
    Unsaturated mode depth body ∧ mode.after body = .code ∧ depthOver mode depth body = 0 := by
  induction text generalizing mode depth body with
  | nil => cases h
  | cons c rest ih =>
    rw [bodyOn] at h
    split at h
    · next stop =>
      simp only [Option.some.injEq, Prod.mk.injEq] at h
      obtain ⟨rfl, -⟩ := h
      exact ⟨fun first last shape => by simp at shape, stop.1, stop.2.1⟩
    · next on =>
      cases found : bodyOn (mode.next c) (depthAfter mode depth c) rest with
      | none => simp [found] at h
      | some pair =>
        obtain ⟨inner, later⟩ := pair
        simp only [found, Option.some.injEq, Prod.mk.injEq] at h
        obtain ⟨rfl, rfl⟩ := h
        obtain ⟨unsaturated, outside, ended⟩ := ih found
        refine ⟨.cons (fun code closed => ?_) unsaturated, outside, ended⟩
        exact Nat.pos_of_ne_zero fun none => on ⟨code, none, closed⟩

/-- There is a field for each cut, and one more. -/
theorem length_splitOn (mode : Mode) (depth : Nat) (text : List Char) :
    (splitOn mode depth text).length = (List.range text.length).countP (isCut mode depth text) + 1 := by
  induction text generalizing mode depth with
  | nil => rfl
  | cons c rest ih =>
    have first : isCut mode depth (c :: rest) 0 = true ↔ mode = .code ∧ depth = 0 ∧ c = ',' := by
      simp [isCut, Mode.after, depthOver, and_comm, and_assoc]
    have later : isCut mode depth (c :: rest) ∘ Nat.succ =
        isCut (mode.next c) (depthAfter mode depth c) rest := by
      funext n
      simp [isCut, Mode.after, depthOver]
    rw [List.length_cons, List.range_succ_eq_map, List.countP_cons, List.countP_map, later, splitOn]
    by_cases cut : mode = .code ∧ depth = 0 ∧ c = ','
    · obtain ⟨rfl, rfl, rfl⟩ := cut
      have same := ih .code 0
      rw [if_pos ⟨rfl, rfl, rfl⟩, if_pos (first.mpr ⟨rfl, rfl, rfl⟩), List.length_cons, same]
      rfl
    · rw [if_neg cut, if_neg fun here => cut (first.mp here), Nat.add_zero, ← ih]
      cases fields : splitOn (mode.next c) (depthAfter mode depth c) rest with
      | nil => exact absurd fields (splitOn_ne_nil _ _ _)
      | cons field more => rfl

theorem exists_passes_of_splitOn {field : List Char} {more : List (List Char)}
    (h : splitOn mode depth text = field :: more) :
    (∃ last final, Passes ',' mode depth field last final) ∧
      ∀ other ∈ more, ∃ last final, Passes ',' .code 0 other last final := by
  induction text generalizing mode depth field more with
  | nil =>
    rw [splitOn, List.cons.injEq] at h
    obtain ⟨rfl, rfl⟩ := h
    exact ⟨⟨mode, depth, .nil _ _⟩, fun other mem => absurd mem List.not_mem_nil⟩
  | cons c rest ih =>
    rw [splitOn] at h
    split at h
    · obtain ⟨rfl, rfl⟩ := List.cons.inj h
      obtain ⟨next, others, shape⟩ := List.exists_cons_of_ne_nil (splitOn_ne_nil .code 0 rest)
      obtain ⟨first, later⟩ := ih shape
      exact ⟨⟨mode, depth, .nil _ _⟩, shape ▸ List.forall_mem_cons.mpr ⟨first, later⟩⟩
    · next on =>
      obtain ⟨next, others, shape⟩ :=
        List.exists_cons_of_ne_nil (splitOn_ne_nil (mode.next c) (depthAfter mode depth c) rest)
      obtain ⟨⟨last, final, first⟩, later⟩ := ih shape
      simp only [shape, List.cons.injEq] at h
      obtain ⟨rfl, rfl⟩ := h
      exact ⟨⟨last, final, .cons on first⟩, later⟩

theorem splitFields_of_passes {field : List Char} {last : Mode} {final : Nat}
    (h : Passes ',' .code 0 field last final) : splitFields field = [field] := by
  have whole := h.splitOn_eq []
  have alone : leadIn field (splitOn last final []) = [field ++ []] := rfl
  rwa [alone, List.append_nil] at whole

theorem splitFields_of_mem {field : List Char} (h : field ∈ splitFields body) :
    splitFields field = [field] := by
  obtain ⟨first, more, shape⟩ := List.exists_cons_of_ne_nil (splitOn_ne_nil .code 0 body)
  obtain ⟨head, tail⟩ := exists_passes_of_splitOn shape
  rw [splitFields, shape, List.mem_cons] at h
  rcases h with rfl | later
  · obtain ⟨last, final, passes⟩ := head
    exact splitFields_of_passes passes
  · obtain ⟨last, final, passes⟩ := tail field later
    exact splitFields_of_passes passes

/-- Commas put the fields of any text together again, and no field can be split further. In a body that its
own parenthesis ends, the count of the split is the level of each place, saturates nowhere and ends at none;
there is a field for each comma on the body's own level, and one more. -/
theorem splitFields_exact :
    (∀ body, List.intercalate [','] (splitFields body) = body ∧
      ∀ field ∈ splitFields body, splitFields field = [field]) ∧
    ∀ text body after, body? text = some (body, after) →
      (∀ first rest, body = first ++ rest → (depthOver .code 0 first : Int) = level .code first) ∧
      Unsaturated .code 0 body ∧ depthOver .code 0 body = 0 ∧
      (splitFields body).length = ownCommas body + 1 := by
  refine ⟨fun body => ⟨intercalate_splitOn _ _ _, fun field h => splitFields_of_mem h⟩,
    fun text body after h => ?_⟩
  obtain ⟨unsaturated, outside, ended⟩ := unsaturated_of_bodyOn h
  have count {first rest : List Char} (shape : body = first ++ rest) :
      (depthOver .code 0 first : Int) = level .code first := by
    simpa using unsaturated.depthOver_eq shape
  refine ⟨fun first rest shape => count shape, unsaturated, ended, ?_⟩
  have same : isCut .code 0 body = isOwnComma body := by
    funext n
    have place := count (List.take_append_drop n body).symm
    have none : depthOver .code 0 (body.take n) = 0 ↔ level .code (body.take n) = 0 := by omega
    rw [isCut, isOwnComma, Bool.eq_iff_iff]
    simp only [Bool.and_eq_true, beq_iff_eq, none]
  rw [splitFields, length_splitOn, same, ownCommas]

theorem fields_of_nested_body :
    let body := "a(b, \")\"), \",\", c".toList
    body? (body ++ [')']) = some (body, []) ∧ (splitFields body).length = ownCommas body + 1 ∧
      ownCommas body = 2 := by
  intro body
  have found : body? (body ++ [')']) = some (body, []) := by decide
  exact ⟨found, (splitFields_exact.2 _ body [] found).2.2.2, by decide⟩

end FlagSurvey.Definition
