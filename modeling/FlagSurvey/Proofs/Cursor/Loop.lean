import FlagSurvey.Proofs.Cursor.Program

/-! Loops over the octets of a text. A character below 128 is one octet and takes one turn; any other takes a
turn for each of its octets, none of which is a character below 128. So a cursor that stops or looks back at
characters below 128 alone stands between characters whenever a piece is cut out. -/
namespace FlagSurvey.Definition.Cursor

open Text Number

variable {σ ρ : Type} {turn : Nat → σ → Checked (Turn σ ρ)} {ended : Nat → σ → Checked ρ} {state next : σ}
variable {text before rest : List Char} {c : Char} {size i j : Nat}

theorem loop_next (inside : i < size) (step : turn i state = .ok (.next j next)) (on : i < j) :
    loop size turn ended i state = loop size turn ended j next := by
  rw [loop, if_pos inside, step]
  exact if_pos on

theorem loop_leave {result : ρ} (inside : i < size) (step : turn i state = .ok (.leave result)) :
    loop size turn ended i state = .ok result := by
  rw [loop, if_pos inside, step]

theorem loop_ended (past : size ≤ i) : loop size turn ended i state = ended i state := by
  rw [loop, if_neg (Nat.not_lt.mpr past)]

theorem lt_byteLength (shape : text = before ++ c :: rest) : byteLength before < byteLength text := by
  have some_octet := c.utf8Size_pos
  rw [shape, byteLength_append, byteLength_cons]
  omega

theorem drop_octets (before rest : List Char) : (octets (before ++ rest)).drop (byteLength before) = octets rest := by
  rw [octets_append, ← length_octets, List.drop_left]

theorem octetAt_eq_ok_iff {octet : Char} : octetAt text i = .ok octet ↔ (octets text)[i]? = some octet := by
  unfold octetAt
  cases (octets text)[i]? <;> simp

theorem octetAt_first {octet : Char} {more : List Char} (shape : text = before ++ c :: rest)
    (first : octetsOfChar c = octet :: more) : octetAt text (byteLength before) = .ok octet := by
  have here := congrArg List.head? (drop_octets before (c :: rest))
  rw [octets_cons, first, List.head?_drop, ← shape] at here
  exact octetAt_eq_ok_iff.mpr here

theorem octetAt_low (shape : text = before ++ c :: rest) (low : c.toNat < 128) :
    octetAt text (byteLength before) = .ok c := octetAt_first shape (octetsOfChar_of_lt low)

theorem exists_octetAt_high (shape : text = before ++ c :: rest) (high : 128 ≤ c.toNat) {n : Nat}
    (inside : n < c.utf8Size) :
    ∃ octet, octetAt text (byteLength before + n) = .ok octet ∧ 128 ≤ octet.toNat := by
  rw [← length_octetsOfChar] at inside
  refine ⟨(octetsOfChar c)[n], octetAt_eq_ok_iff.mpr ?_, le_of_mem_octetsOfChar high (List.getElem_mem inside)⟩
  rw [← List.getElem?_drop, shape, drop_octets, octets_cons, List.getElem?_append_left inside,
    List.getElem?_eq_getElem inside]

theorem exists_octetAt (shape : text = before ++ c :: rest) :
    ∃ octet, octetAt text (byteLength before) = .ok octet ∧
      (octet = c ∧ c.toNat < 128 ∨ 128 ≤ octet.toNat ∧ 128 ≤ c.toNat) := by
  by_cases low : c.toNat < 128
  · exact ⟨c, octetAt_low shape low, .inl ⟨rfl, low⟩⟩
  · have high := Nat.not_lt.mp low
    obtain ⟨octet, met, above⟩ := exists_octetAt_high shape high c.utf8Size_pos
    exact ⟨octet, met, .inr ⟨above, high⟩⟩

theorem byteLength_snoc (low : c.toNat < 128) : byteLength before + 1 = byteLength (before ++ [c]) := by
  rw [byteLength_append, byteLength_cons, utf8Size_of_lt low, byteLength_nil]

/-- A turn that moves on by one goes over a character of one octet. -/
theorem loop_low (shape : text = before ++ c :: rest) (low : c.toNat < 128)
    (step : turn (byteLength before) state = .ok (.next (byteLength before + 1) next)) :
    loop (byteLength text) turn ended (byteLength before) state =
      loop (byteLength text) turn ended (byteLength (before ++ [c])) next := by
  rw [loop_next (lt_byteLength shape) step (Nat.lt_succ_self _), byteLength_snoc low]

theorem loop_idle {kind : Char → Bool} (above : ∀ octet, 128 ≤ octet.toNat → kind octet = true)
    (idle : ∀ i octet, octetAt text i = .ok octet → kind octet = true →
      turn i state = .ok (.next (i + 1) state))
    (shape : text = before ++ c :: rest) (holds : kind c = true) :
    loop (byteLength text) turn ended (byteLength before) state =
      loop (byteLength text) turn ended (byteLength (before ++ [c])) state := by
  by_cases low : c.toNat < 128
  · exact loop_low shape low (idle _ c (octetAt_low shape low) holds)
  · have high := Nat.not_lt.mp low
    have within : byteLength (before ++ [c]) ≤ byteLength text := by
      rw [shape, List.append_cons before c rest, byteLength_append (before ++ [c])]
      exact Nat.le_add_right _ _
    rw [byteLength_append, byteLength_cons, byteLength_nil, Nat.add_zero] at within ⊢
    -- The turns within the character, one for each of its octets.
    have turns (n : Nat) (inside : n ≤ c.utf8Size) : loop (byteLength text) turn ended (byteLength before) state =
        loop (byteLength text) turn ended (byteLength before + n) state := by
      induction n with
      | zero => rfl
      | succ n ih =>
        obtain ⟨octet, met, more⟩ := exists_octetAt_high shape high inside
        rw [ih (by omega), loop_next (by omega) (idle _ octet met (above octet more)) (by omega), Nat.add_assoc]
    exact turns c.utf8Size (Nat.le_refl _)

theorem pastRun_eq {kind : Char → Bool} (low : Low kind) (shape : text = before ++ rest) :
    pastRun kind text (byteLength before) = .ok (byteLength (before ++ rest.takeWhile kind)) := by
  unfold pastRun
  induction rest generalizing before with
  | nil => rw [loop_ended (by simp [shape]), List.takeWhile_nil, List.append_nil, pure_eq_ok]
  | cons c rest ih =>
    obtain ⟨octet, met, same⟩ := exists_octetAt shape
    cases holds : kind octet with
    | true =>
      obtain ⟨rfl, small⟩ : octet = c ∧ c.toNat < 128 := by
        rcases same with same | ⟨above, -⟩
        · exact same
        · simp [low.not_of_le above] at holds
      have step : runTurn kind text (byteLength before) () = .ok (.next (byteLength before + 1) ()) := by
        simp [runTurn, met, holds]
      have on := ih (shape.trans (List.append_cons before octet rest))
      rw [loop_low shape small step, on, List.takeWhile_cons_of_pos holds, ← List.append_cons]
    | false =>
      have away : kind c = false := by
        rcases same with ⟨rfl, -⟩ | ⟨-, high⟩
        · exact holds
        · exact low.not_of_le high
      have step : runTurn kind text (byteLength before) () = .ok (.leave (byteLength before)) := by
        simp [runTurn, met, holds]
      rw [loop_leave (lt_byteLength shape) step, List.takeWhile_cons_of_neg (by simp [away]), List.append_nil]

/-- Within a literal the cursor goes over octets, two of them at a backslash, and past the end if the backslash
is the last. -/
theorem literalFrom_eq (mark : Char) (i : Nat) (within : i ≤ byteLength text) :
    literalFrom text mark i = .ok (i + literalLength (.inside mark) ((octets text).drop i)) := by
  rw [literalFrom]
  rcases Nat.lt_or_eq_of_le within with inside | rfl
  · have counted := inside
    rw [← length_octets] at counted
    have met : octetAt text i = .ok (octets text)[i] := octetAt_eq_ok_iff.mpr (List.getElem?_eq_getElem counted)
    rw [List.drop_eq_getElem_cons counted]
    generalize (octets text)[i] = octet at met ⊢
    by_cases escape : octet = '\\'
    · have step : literalTurn text mark i () = .ok (.next (i + 2) ()) := by simp [literalTurn, met, escape]
      have skips : (Mode.inside mark).next octet = .escaped mark := by simp [Mode.next, escape]
      rw [loop_next inside step (by omega), literalLength_cons (by simp [skips]), skips]
      rcases Nat.lt_or_ge (i + 1) (octets text).length with more | last
      · have goesOn : (Mode.escaped mark).next (octets text)[i + 1] ≠ .code := by simp [Mode.next]
        rw [List.drop_eq_getElem_cons more, literalLength_cons goesOn, Mode.next]
        rw [length_octets] at more
        rw [show i + 2 = i + 1 + 1 from rfl, ← literalFrom, literalFrom_eq mark (i + 1 + 1) more]
        exact congrArg Except.ok (by omega)
      · -- The backslash is the last octet, and the cursor ends one past the text.
        rw [List.drop_eq_nil_of_le last, literalLength]
        rw [length_octets] at last
        rw [loop_ended (Nat.le_succ_of_le last)]
        exact congrArg Except.ok (by omega)
    · by_cases ends : octet = mark
      · have step : literalTurn text mark i () = .ok (.leave (i + 1)) := by simp [literalTurn, met, ← ends, escape]
        have close : (Mode.inside mark).next octet = .code := by simp [Mode.next, ← ends, escape]
        rw [loop_leave inside step, literalLength_ended close]
      · have step : literalTurn text mark i () = .ok (.next (i + 1) ()) := by simp [literalTurn, met, escape, ends]
        have stay : (Mode.inside mark).next octet = .inside mark := by simp [Mode.next, escape, ends]
        rw [loop_next inside step (Nat.lt_succ_self i), ← literalFrom, literalFrom_eq mark (i + 1) inside,
          literalLength_cons (by simp [stay]), stay]
        exact congrArg Except.ok (by omega)
  · rw [loop_ended (Nat.le_refl _), ← length_octets, List.drop_length]
    rfl
termination_by byteLength text - i

theorem pastLiteral_eq (shape : text = before ++ c :: rest) (low : c.toNat < 128) :
    pastLiteral text (byteLength before) =
      .ok (byteLength (before ++ c :: rest.take (literalLength (.inside c) rest))) := by
  have within := lt_byteLength shape
  have onward : (octets text).drop (byteLength before + 1) = octets rest := by
    rw [byteLength_snoc low, shape, List.append_cons before c rest, drop_octets]
  have within_low : (Mode.inside c).Low := low
  have counted := literalLength_octets within_low nofun rest
  rw [pastLiteral, octetAt_low shape low, ok_bind, literalFrom_eq c _ within, onward, counted,
    List.append_cons before c, byteLength_append, ← byteLength_snoc low]

theorem loop_quoted (shape : text = before ++ c :: rest) (low : c.toNat < 128)
    (step : ∀ j, pastLiteral text (byteLength before) = .ok j →
      turn (byteLength before) state = .ok (.next j next)) :
    loop (byteLength text) turn ended (byteLength before) state =
      loop (byteLength text) turn ended
        (byteLength (before ++ c :: rest.take (literalLength (.inside c) rest))) next :=
  loop_next (lt_byteLength shape) (step _ (pastLiteral_eq shape low)) (lt_byteLength rfl)

theorem piece_eq_ok_iff {inner : List Char} : piece text i j = .ok inner ↔ piece? text i j = some inner := by
  unfold piece
  cases piece? text i j <;> simp

theorem piece_eq {inner : List Char} (shape : text = before ++ (inner ++ rest)) :
    piece text (byteLength before) (byteLength (before ++ inner)) = .ok inner :=
  piece_eq_ok_iff.mpr (piece?_eq_some_iff.mpr ⟨before, rest, shape, rfl, rfl⟩)

theorem piece_from (shape : text = before ++ rest) :
    piece text (byteLength before) (byteLength text) = .ok rest := by
  have whole : text = before ++ (rest ++ []) := by rw [shape, List.append_nil]
  have cut := piece_eq whole
  rwa [← shape] at cut

end FlagSurvey.Definition.Cursor
