import FlagSurvey.Proofs.Cursor.Field

/-! Texts read by cursors come to the documents they come to as texts, and no check on the way fails. A turn of
the search ends between characters wherever it goes: behind a character, a comment, a literal, the name of the
macro or the body of a call. -/
namespace FlagSurvey.Definition.Cursor

open Text Number

variable {text before rest : List Char} {c : Char}

theorem isPrefixOf_octets {needle : List Char} (low : ∀ c ∈ needle, c.toNat < 128) (text : List Char) :
    needle.isPrefixOf (octets text) = needle.isPrefixOf text := by
  induction needle generalizing text with
  | nil => simp
  | cons d needle ih =>
    have small := low d List.mem_cons_self
    have later := ih fun e mem => low e (List.mem_cons_of_mem _ mem)
    cases text with
    | nil => simp
    | cons c rest =>
      by_cases h : c.toNat < 128
      · rw [octets_cons_of_lt h, List.isPrefixOf_cons_cons, List.isPrefixOf_cons_cons, later]
      · have only : Low (d == ·) := fun e same => eq_of_beq same ▸ small
        obtain ⟨away, e, more, shape, apart⟩ := exists_octets_cons only h
        simp [shape, List.isPrefixOf, away, apart]

theorem head?_octets_any {kind : Char → Bool} (low : Low kind) (text : List Char) :
    (octets text).head?.any kind = text.head?.any kind := by
  cases text with
  | nil => simp
  | cons c rest =>
    by_cases h : c.toNat < 128
    · rw [octets_cons_of_lt h]
      rfl
    · obtain ⟨away, e, more, shape, apart⟩ := exists_octets_cons low h
      simp [shape, away, apart]

theorem head?_octets {d : Char} (low : d.toNat < 128) (text : List Char) :
    (octets text).head? = some d ↔ text.head? = some d := by
  have same := head?_octets_any (.beq low) text
  rw [Bool.eq_iff_iff, Option.any_eq_true, Option.any_eq_true] at same
  simpa only [beq_iff_eq, exists_eq_right] using same

theorem octetAt_before {kind : Char → Bool} (low : Low kind) (shape : text = before ++ c :: rest) :
    ∃ octet, octetAt text (byteLength (before ++ [c]) - 1) = .ok octet ∧ kind octet = kind c := by
  by_cases small : c.toNat < 128
  · rw [← byteLength_snoc small, Nat.add_sub_cancel]
    exact ⟨c, octetAt_low shape small, rfl⟩
  · have high := Nat.not_lt.mp small
    have some_octet := c.utf8Size_pos
    have inside : c.utf8Size - 1 < c.utf8Size := by omega
    obtain ⟨octet, met, above⟩ := exists_octetAt_high shape high inside
    refine ⟨octet, ?_, by rw [low.not_of_le above, low.not_of_le high]⟩
    rw [byteLength_append, byteLength_cons, byteLength_nil, Nat.add_zero, Nat.add_sub_assoc some_octet]
    exact met

theorem octetsFrom_eq (shape : text = before ++ rest) : octetsFrom text (byteLength before) = .ok (octets rest) := by
  rw [octetsFrom, if_pos (by simp [shape]), shape, drop_octets]

theorem getElem?_octets (shape : text = before ++ rest) (n : Nat) :
    (octets text)[byteLength before + n]? = (octets rest)[n]? := by
  rw [← List.getElem?_drop, shape, drop_octets]

theorem low_macroName : ∀ c ∈ macroName, c.toNat < 128 := by simp [macroName]

def offset (p : Position) : Nat := byteLength p.before.reverse

theorem namedAt_eq (p : Position) : namedAt p.text (offset p) = .ok p.atMacro := by
  have shape : p.text = p.before.reverse ++ p.after := rfl
  rw [namedAt, offset, octetsFrom_eq shape, ok_bind, isPrefixOf_octets low_macroName, Position.atMacro]
  cases named : macroName.isPrefixOf p.after with
  | false => rfl
  | true =>
    obtain ⟨rest, ahead⟩ := List.isPrefixOf_iff_prefix.mp named
    have behind : (octets p.text)[byteLength p.before.reverse + macroName.length]?.any Token.isWordPart =
        (p.after.drop macroName.length).head?.any Token.isWordPart := by
      have single : octets p.after = macroName ++ octets rest := by
        rw [← ahead, octets_append, octets_of_lt low_macroName]
      rw [getElem?_octets shape, single, List.getElem?_append_right (Nat.le_refl _), Nat.sub_self,
        ← List.head?_eq_getElem?, head?_octets_any low_isWordPart, ← ahead, List.drop_left]
    rw [if_pos rfl, behind]
    cases before : p.before with
    | nil => rfl
    | cons c earlier =>
      have split : p.text = earlier.reverse ++ c :: p.after := by simp [Position.text, before]
      obtain ⟨octet, met, same⟩ := octetAt_before low_isWordPart split
      have inside : (byteLength (earlier.reverse ++ [c]) == 0) = false := by
        rw [beq_eq_false_iff_ne, ← Nat.pos_iff_ne_zero]
        exact Nat.lt_of_le_of_lt (Nat.zero_le _) (lt_byteLength rfl)
      rw [List.reverse_cons, inside, met, List.head?_cons, Option.any_some, ← same]
      rfl

theorem byteLength_comment (text : List Char) :
    byteLength (text.take (commentLength text)) = ((find? ['*', '/'] text).map (· + 2)).getD (byteLength text) := by
  fun_induction commentLength text with
  | case1 => rfl
  | case2 rest => rfl
  | case3 c rest other ih =>
    have apart : ['*', '/'].isPrefixOf (c :: rest) = false := by
      rw [Bool.eq_false_iff]
      intro ends
      obtain ⟨more, shape⟩ := List.isPrefixOf_iff_prefix.mp ends
      obtain ⟨first, behind⟩ := List.cons.inj shape.symm
      exact other more first behind
    rw [find?, apart, List.take_succ_cons, byteLength_cons, ih, byteLength_cons]
    cases find? ['*', '/'] rest with
    | none => rfl
    | some n => exact (Nat.add_comm _ _).trans (Nat.add_right_comm _ _ _)

theorem byteLength_line (text : List Char) :
    byteLength (text.takeWhile (· != '\n')) = (find? ['\n'] text).getD (byteLength text) := by
  induction text with
  | nil => rfl
  | cons c rest ih =>
    by_cases ends : c = '\n'
    · rw [ends]
      rfl
    · have apart : ['\n'].isPrefixOf (c :: rest) = false := by simp [List.isPrefixOf, Ne.symm ends]
      rw [find?, apart, List.takeWhile_cons_of_pos (by simpa using ends), byteLength_cons, ih, byteLength_cons]
      cases find? ['\n'] rest with
      | none => rfl
      | some n => exact Nat.add_comm _ _

section

variable {i j : Nat}

theorem searchTurn_comment (met : octetAt text i = .ok '/') (ahead : (octets text)[i + 1]? = some '*')
    (inner : piece text (i + 2) (byteLength text) = .ok rest) (size : byteLength text = i + 2 + byteLength rest)
    (found : List Record) :
    searchTurn text i found = .ok (.next (i + 2 + byteLength (rest.take (commentLength rest))) found) := by
  rw [byteLength_comment]
  simp only [searchTurn, met, ok_bind, ahead, inner]
  cases find? ['*', '/'] rest with
  | none => exact congrArg (Except.ok <| Turn.next · found) size
  | some n => rfl

theorem searchTurn_line (met : octetAt text i = .ok '/') (ahead : (octets text)[i + 1]? = some '/')
    (inner : piece text i (byteLength text) = .ok rest) (size : byteLength text = i + byteLength rest)
    (found : List Record) :
    searchTurn text i found = .ok (.next (i + byteLength (rest.takeWhile (· != '\n'))) found) := by
  rw [byteLength_line]
  simp only [searchTurn, met, ok_bind, ahead, inner]
  cases find? ['\n'] rest with
  | none => exact congrArg (Except.ok <| Turn.next · found) size
  | some n => rfl

theorem searchTurn_quoted (met : octetAt text i = .ok '"') (past : pastLiteral text i = .ok j)
    (found : List Record) : searchTurn text i found = .ok (.next j found) := by
  simp [searchTurn, met, past]

theorem searchTurn_pass {octet : Char} (met : octetAt text i = .ok octet)
    (bare : octet = '/' → (octets text)[i + 1]? ≠ some '*' ∧ (octets text)[i + 1]? ≠ some '/')
    (unmarked : octet ≠ '"') (apart : namedAt text i = .ok false) (found : List Record) :
    searchTurn text i found = .ok (.next (i + 1) found) := by
  by_cases slash : octet = '/'
  · subst slash
    obtain ⟨uncommented, other⟩ := bare rfl
    simp [searchTurn, met, uncommented, other, apart]
  · simp [searchTurn, met, slash, unmarked, apart]

end

theorem namedAt_of_ne {i : Nat} {octet : Char} (met : octetAt text i = .ok octet) (other : octet ≠ 'D') :
    namedAt text i = .ok false := by
  obtain ⟨counted, here⟩ := List.getElem?_eq_some_iff.mp (octetAt_eq_ok_iff.mp met)
  have within : i ≤ byteLength text := by
    rw [← length_octets]
    exact Nat.le_of_lt counted
  have apart : ('D' == octet) = false := by simpa using other.symm
  have unnamed : macroName.isPrefixOf (octet :: (octets text).drop (i + 1)) = false := by
    simp [macroName, List.isPrefixOf, apart]
  rw [namedAt, octetsFrom, if_pos within, ok_bind, List.drop_eq_getElem_cons counted, here, unnamed]
  rfl

theorem searchTurn_high {i : Nat} {octet : Char} (met : octetAt text i = .ok octet) (high : 128 ≤ octet.toNat)
    (found : List Record) : searchTurn text i found = .ok (.next (i + 1) found) := by
  have slash : octet ≠ '/' := ne_of_le (by decide) high
  have unmarked : octet ≠ '"' := ne_of_le (by decide) high
  have unnamed := namedAt_of_ne met (ne_of_le (by decide) high)
  exact searchTurn_pass met (fun same => absurd same slash) unmarked unnamed found

section

variable {p q : Position}

theorem reverse_before_advance (p : Position) (n : Nat) :
    (p.advance n).before.reverse = p.before.reverse ++ p.after.take n := by simp [Position.advance]

theorem offset_advance (p : Position) (n : Nat) : offset (p.advance n) = offset p + byteLength (p.after.take n) := by
  rw [offset, reverse_before_advance, byteLength_append]
  rfl

theorem offset_lt_advance (some_text : p.after ≠ []) {n : Nat} (on : 0 < n) :
    offset p < offset (p.advance n) := by
  obtain ⟨c, rest, begins⟩ := List.exists_cons_of_ne_nil some_text
  obtain ⟨m, rfl⟩ := Nat.exists_eq_succ_of_ne_zero (Nat.pos_iff_ne_zero.mp on)
  have some_octet := c.utf8Size_pos
  rw [offset_advance, begins, List.take_succ_cons, byteLength_cons]
  omega

theorem offset_le (p : Position) : offset p ≤ byteLength p.text := by
  rw [Position.text, byteLength_append]
  exact Nat.le_add_right _ _

/-- A turn that moves on leads from one place in the text to another. -/
theorem searchFrom_next {found later : List Record} (same : q.text = p.text) (on : offset p < offset q)
    (step : searchTurn p.text (offset p) found = .ok (.next (offset q) later)) :
    searchFrom p.text (offset p) found = searchFrom q.text (offset q) later := by
  have inside := offset_le q
  rw [same] at inside ⊢
  exact loop_next (Nat.lt_of_lt_of_le on inside) step on

theorem getElem?_ahead (begins : p.after = c :: rest) (low : c.toNat < 128) {d : Char} (small : d.toNat < 128) :
    (octets p.text)[offset p + 1]? = some d ↔ rest.head? = some d := by
  have shape : p.text = p.before.reverse ++ p.after := rfl
  rw [offset, getElem?_octets shape, begins, octets_cons_of_lt low, List.getElem?_cons_succ,
    ← List.head?_eq_getElem?, head?_octets small]

theorem searchFrom_comment (begins : p.after = '/' :: '*' :: rest) (found : List Record) :
    searchFrom p.text (offset p) found =
      searchFrom (p.advance (commentLength rest + 2)).text (offset (p.advance (commentLength rest + 2))) found := by
  have slash : '/'.toNat < 128 := by decide
  have star : '*'.toNat < 128 := by decide
  have shape : p.text = p.before.reverse ++ '/' :: '*' :: rest := by rw [← begins, Position.text]
  have ahead := (getElem?_ahead begins slash star).mpr rfl
  have past (more : List Char) : byteLength ('/' :: '*' :: more) = 2 + byteLength more := by
    rw [byteLength_cons, byteLength_cons, utf8Size_of_lt slash, utf8Size_of_lt star, ← Nat.add_assoc]
  have inner : piece p.text (offset p + 2) (byteLength p.text) = .ok rest := by
    have whole : p.text = p.before.reverse ++ ['/', '*'] ++ rest := by rw [shape, List.append_assoc]; rfl
    have behind := piece_from whole
    rwa [byteLength_append, past] at behind
  have size : byteLength p.text = offset p + 2 + byteLength rest := by
    rw [shape, byteLength_append, past, ← Nat.add_assoc]
    rfl
  have step := searchTurn_comment (octetAt_low shape slash) ahead inner size found
  apply searchFrom_next (p.text_advance _) (offset_lt_advance (begins ▸ List.cons_ne_nil _ _) (Nat.succ_pos _))
  rw [offset_advance, begins, List.take_succ_cons, List.take_succ_cons, past, ← Nat.add_assoc]
  exact step

theorem searchFrom_line (begins : p.after = '/' :: '/' :: rest) (found : List Record) :
    let length := (rest.takeWhile (· != '\n')).length + 2
    searchFrom p.text (offset p) found = searchFrom (p.advance length).text (offset (p.advance length)) found := by
  intro length
  have slash : '/'.toNat < 128 := by decide
  have shape : p.text = p.before.reverse ++ '/' :: '/' :: rest := by rw [← begins, Position.text]
  have ahead := (getElem?_ahead begins slash slash).mpr rfl
  have line : ('/' :: '/' :: rest).take length = ('/' :: '/' :: rest).takeWhile (· != '\n') := by
    rw [List.take_succ_cons, List.take_succ_cons, ← List.prefix_iff_eq_take.mp (List.takeWhile_prefix _)]
    rfl
  have size : byteLength p.text = offset p + byteLength ('/' :: '/' :: rest) := by
    rw [shape, byteLength_append]
    rfl
  have step := searchTurn_line (octetAt_low shape slash) ahead (piece_from shape) size found
  apply searchFrom_next (p.text_advance _) (offset_lt_advance (begins ▸ List.cons_ne_nil _ _) (Nat.succ_pos _))
  rw [offset_advance, begins, line]
  exact step

theorem searchFrom_quoted (begins : p.after = '"' :: rest) (found : List Record) :
    let length := literalLength (.inside '"') rest + 1
    searchFrom p.text (offset p) found = searchFrom (p.advance length).text (offset (p.advance length)) found := by
  intro length
  have low : '"'.toNat < 128 := by decide
  have shape : p.text = p.before.reverse ++ '"' :: rest := by rw [← begins, Position.text]
  apply searchFrom_next (p.text_advance _) (offset_lt_advance (begins ▸ List.cons_ne_nil _ _) (Nat.succ_pos _))
  rw [offset, offset, reverse_before_advance, begins]
  exact searchTurn_quoted (octetAt_low shape low) (pastLiteral_eq shape low) found

theorem searchFrom_single (begins : p.after = c :: rest) (apart : p.atMacro = false) (unmarked : c ≠ '"')
    (bare : c = '/' → rest.head? ≠ some '*' ∧ rest.head? ≠ some '/') (found : List Record) :
    searchFrom p.text (offset p) found = searchFrom (p.advance 1).text (offset (p.advance 1)) found := by
  have shape : p.text = p.before.reverse ++ c :: rest := by rw [← begins, Position.text]
  by_cases low : c.toNat < 128
  · have alone : c = '/' →
        (octets p.text)[offset p + 1]? ≠ some '*' ∧ (octets p.text)[offset p + 1]? ≠ some '/' := by
      rw [ne_eq, ne_eq, getElem?_ahead begins low (by decide), getElem?_ahead begins low (by decide)]
      exact bare
    have unnamed := namedAt_eq p
    rw [apart] at unnamed
    have step := searchTurn_pass (octetAt_low shape low) alone unmarked unnamed found
    apply searchFrom_next (p.text_advance _) (offset_lt_advance (begins ▸ List.cons_ne_nil _ _) Nat.one_pos)
    rw [offset_advance, begins, List.take_succ_cons, List.take_zero, byteLength_cons, utf8Size_of_lt low]
    exact step
  · have high : 128 ≤ c.toNat := Nat.not_lt.mp low
    rw [p.text_advance, offset, offset, reverse_before_advance, begins]
    exact loop_idle (fun _ => decide_eq_true)
      (fun _ _ met above => searchTurn_high met (of_decide_eq_true above) found) shape (decide_eq_true high)

theorem searchFrom_passed (some_text : p.after ≠ []) (apart : p.atMacro = false) (found : List Record) :
    searchFrom p.text (offset p) found =
      searchFrom (p.advance p.passed).text (offset (p.advance p.passed)) found := by
  unfold Position.passed
  split
  · next rest begins => exact searchFrom_comment begins found
  · next rest begins => exact searchFrom_line begins found
  · next rest begins => exact searchFrom_quoted begins found
  · next uncommented unlined unquoted =>
    obtain ⟨c, rest, begins⟩ := List.exists_cons_of_ne_nil some_text
    have unmarked : c ≠ '"' := fun marked => unquoted rest (marked ▸ begins)
    apply searchFrom_single begins apart unmarked
    intro slash
    rw [ne_eq, ne_eq, List.head?_eq_some_iff, List.head?_eq_some_iff]
    constructor
    · rintro ⟨more, rfl⟩
      exact uncommented more (slash ▸ begins)
    · rintro ⟨more, rfl⟩
      exact unlined more (slash ▸ begins)

theorem pastRun_name (named : p.atMacro = true) :
    pastRun isAsciiBlank p.text (offset p + macroName.length) = .ok (offset p.pastName) := by
  have name : offset p + macroName.length = offset (p.advance macroName.length) := by
    rw [offset_advance, ← List.prefix_iff_eq_take.mp (Position.prefix_of_atMacro named)]
    rfl
  have shape : p.text = (p.advance macroName.length).before.reverse ++ (p.advance macroName.length).after :=
    (p.text_advance macroName.length).symm
  have run := pastRun_eq low_isAsciiBlank shape
  rw [name, offset, run, Position.pastName, offset, reverse_before_advance (p.advance macroName.length),
    ← List.prefix_iff_eq_take.mp (List.takeWhile_prefix _)]

theorem getElem?_pastName (p : Position) :
    (octets p.text)[offset p.pastName]? = some '(' ↔ p.pastName.after.head? = some '(' := by
  have shape : p.text = p.pastName.before.reverse ++ p.pastName.after := p.text_pastName.symm
  have low : '('.toNat < 128 := by decide
  have here := getElem?_octets shape 0
  rw [Nat.add_zero] at here
  rw [offset, here, ← List.head?_eq_getElem?, head?_octets low]

end

section

variable {p : Position} {inner : List Char}

theorem offset_le_advance (p : Position) (n : Nat) : offset p ≤ offset (p.advance n) := by
  rw [offset_advance]
  exact Nat.le_add_right _ _

theorem offset_lt_pastName (named : p.atMacro = true) : offset p < offset p.pastName := by
  have some_char : 0 < macroName.length := by decide
  have name := offset_lt_advance (Position.after_ne_nil_of_atMacro named) some_char
  exact Nat.lt_of_lt_of_le name (offset_le_advance _ _)

theorem octetAt_name (named : p.atMacro = true) : octetAt p.text (offset p) = .ok 'D' := by
  have low : 'D'.toNat < 128 := by decide
  obtain ⟨behind, begins⟩ := Position.prefix_of_atMacro named
  have shape : p.text = p.before.reverse ++ 'D' :: (macroName.tail ++ behind) := by
    rw [Position.text, ← begins]
    rfl
  exact octetAt_low shape low

theorem piece_before (p : Position) : piece p.text 0 (offset p) = .ok p.before.reverse := by
  have shape : p.text = [] ++ (p.before.reverse ++ p.after) := rfl
  exact piece_eq shape

theorem searchTurn_mention (named : p.atMacro = true) (unopened : ∀ inner, p.pastName.after ≠ '(' :: inner)
    (found : List Record) : searchTurn p.text (offset p) found = .ok (.next (offset p.pastName) found) := by
  have met : (octets p.text)[offset p.pastName]? ≠ some '(' := by
    rw [ne_eq, getElem?_pastName, List.head?_eq_some_iff]
    exact not_exists.mpr unopened
  simp [searchTurn, octetAt_name named, namedAt_eq, named, piece_before, pastRun_name named, met]

theorem searchTurn_call (named : p.atMacro = true) (opened : p.pastName.after = '(' :: inner)
    (found : List Record) : searchTurn p.text (offset p) found =
      let (body, stop) := ending p.text (p.pastName.before.reverse ++ ['(']) [] (body? inner)
      .ok (.next (if body.isSome then stop else offset p.pastName + 1) (⟨p.line, body⟩ :: found)) := by
  have met : (octets p.text)[offset p.pastName]? = some '(' := by
    rw [getElem?_pastName, opened]
    rfl
  have shape : p.text = p.pastName.before.reverse ++ '(' :: inner := by
    rw [← opened]
    exact p.text_pastName.symm
  have ended : bodyAt p.text (offset p.pastName) = _ := bodyAt_eq shape
  simp [searchTurn, octetAt_name named, namedAt_eq, named, piece_before, pastRun_name named, met, ended,
    Position.line]

theorem offset_of_some {body after : List Char} (opened : p.pastName.after = '(' :: inner)
    (ended : body? inner = some (body, after)) :
    byteLength (p.pastName.before.reverse ++ ['('] ++ body) + 1 = offset (p.pastName.advance (body.length + 2)) := by
  have low : ')'.toNat < 128 := by decide
  have closes := (body?_eq_some_iff.mp ended).2
  have whole : p.pastName.after = ('(' :: (body ++ [')'])) ++ after := by
    rw [opened, closes, List.cons_append, ← List.append_cons]
  have taken : p.pastName.after.take (body.length + 2) = '(' :: (body ++ [')']) := by
    rw [whole]
    exact List.take_left' (by simp)
  rw [byteLength_snoc low, offset, reverse_before_advance, taken]
  simp

theorem offset_of_none (opened : p.pastName.after = '(' :: inner) :
    offset p.pastName + 1 = offset (p.pastName.advance 1) := by
  rw [offset_advance, opened]
  rfl

end

/-- From any place on the search finds the records that are found in the text. -/
theorem searchFrom_eq (p : Position) (found : List Record) :
    searchFrom p.text (offset p) found = .ok (found.reverse ++ recordsFrom p) := by
  induction p using callsFrom.induct generalizing found with
  | case1 p done =>
    obtain ⟨before, after⟩ := p
    subst done
    have ended : byteLength (Position.text ⟨before, []⟩) ≤ offset ⟨before, []⟩ := by
      rw [Position.text, List.append_nil]
      rfl
    rw [searchFrom, loop_ended ended, recordsFrom_end, List.append_nil]
    rfl
  | case2 p some_text named past inner opened body after ended ih =>
    have step := searchTurn_call named opened found
    simp only [ended, ending, Option.isSome_some, if_true, List.nil_append, offset_of_some opened ended] at step
    have on := Nat.lt_of_lt_of_le (offset_lt_pastName named) (offset_le_advance p.pastName (body.length + 2))
    have same : (p.pastName.advance (body.length + 2)).text = p.text := by
      rw [Position.text_advance, Position.text_pastName]
    rw [searchFrom_next same on step, ih, recordsFrom_call named opened ended, List.reverse_cons,
      ← List.append_cons]
  | case3 p some_text named past inner opened unended ih =>
    -- The search for the end has gone to the end of the text, and the cursor backs up into the call.
    have step := searchTurn_call named opened found
    simp only [unended, ending, Option.isSome_none, if_false, Bool.false_eq_true, offset_of_none opened] at step
    have on := Nat.lt_of_lt_of_le (offset_lt_pastName named) (offset_le_advance p.pastName 1)
    have same : (p.pastName.advance 1).text = p.text := by
      rw [Position.text_advance, Position.text_pastName]
    rw [searchFrom_next same on step, ih, recordsFrom_open named opened unended, List.reverse_cons,
      ← List.append_cons]
  | case4 p some_text named past unopened ih =>
    rw [searchFrom_next p.text_pastName (offset_lt_pastName named) (searchTurn_mention named unopened found), ih,
      recordsFrom, recordsFrom, callsFrom_mention named unopened]
  | case5 p some_text apart ih =>
    rw [searchFrom_passed some_text (Bool.eq_false_iff.mpr apart), ih, recordsFrom, recordsFrom,
      callsFrom_passed some_text apart]

theorem recordsOf_eq (text : List Char) : recordsOf text = .ok (recordsFrom ⟨[], text⟩) :=
  searchFrom_eq ⟨[], text⟩ []

theorem unfailing_bind {α β : Type} (result : Except Malformed α) (next : α → Except Malformed β) :
    (ExceptT.mk (.ok result) >>= fun a => ExceptT.mk (.ok (next a)) : ExceptT Malformed Checked β) =
      ExceptT.mk (.ok (result >>= next)) := by
  cases result <;> rfl

theorem numberOf_eq (field : List Char) : numberOf field = ExceptT.mk (.ok (numberField field)) := by
  rw [numberOf, tokensOf_eq]
  rfl

theorem definitionFrom_eq (name description default min max : List Char) :
    definitionFrom name description default min max =
      ExceptT.mk (.ok (ofFields name description default min max)) := by
  have last (name description : String) (default min max : Int) :
      (if default < min then ExceptT.mk (.ok (.error (.defaultBelowMin default min)))
        else pure ⟨name, description, default, min, max⟩ : ExceptT Malformed Checked Definition) =
      ExceptT.mk (.ok (if default < min then .error (.defaultBelowMin default min)
        else pure ⟨name, description, default, min, max⟩)) := by
    split <;> rfl
  simp only [definitionFrom, ofFields, numberOf_eq, pure_eq_ok, last, unfailing_bind]

theorem definitionOf_eq (body : List Char) : definitionOf body = .ok (ofBody body) := by
  rw [definitionOf, fieldsOf_eq, ok_bind, ofBody]
  match splitFields body with
  | [name, description, default, min, max] => exact definitionFrom_eq name description default min max
  | [_, name, description, default, min, max] => exact definitionFrom_eq name description default min max
  | [] | [_] | [_, _] | [_, _, _] | [_, _, _, _] | _ :: _ :: _ :: _ :: _ :: _ :: _ :: _ => rfl

theorem resultOf_eq (r : Record) : resultOf r = .ok r.read := by
  rw [resultOf, Record.read]
  cases r.body with
  | none => rfl
  | some body => exact definitionOf_eq body

theorem documentFrom_eq (records : List Record) : documentFrom records =
    .ok ⟨records.filterMap Record.definition?, records.filterMap Record.failure?⟩ := by
  induction records with
  | nil => rfl
  | cons r rest ih =>
    rw [documentFrom, resultOf_eq, ok_bind, ih, ok_bind, List.filterMap_cons, List.filterMap_cons,
      Record.definition?, Record.failure?]
    cases r.read <;> rfl

/-- Read by cursors over its octets, any text comes to its document: no octet is asked for that the text does
not have, no piece is cut out that would begin or end within a character, no parenthesis closes that did not
open, and each turn of each loop moves its cursor forward. -/
theorem documentOf_eq_ofText (text : String) : documentOf text = .ok (Document.ofText text) := by
  have read : Document.ofText text = ⟨(recordsFrom ⟨[], text.toList⟩).filterMap Record.definition?,
      (recordsFrom ⟨[], text.toList⟩).filterMap Record.failure?⟩ := by
    rw [← definitions_ofText, ← failures_ofText, String.ofList_toList]
  rw [documentOf, recordsOf_eq, ok_bind, documentFrom_eq, read]

end FlagSurvey.Definition.Cursor
