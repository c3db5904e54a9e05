import FlagSurvey.Proofs.Cursor.Loop
import FlagSurvey.Proofs.Definition.Lexeme

/-! Bodies, fields and tokens found by cursors are those found in the text. Each loop is followed from one place
between characters to the next: behind a character, a literal or a run. -/
namespace FlagSurvey.Definition.Cursor

open Text Number

variable {text before rest : List Char} {c : Char} {i j : Nat}

theorem toNat_lt_of_isMark (marked : isMark c = true) : c.toNat < 128 := by
  rcases isMark_iff.mp marked with rfl | rfl <;> decide

section

variable {σ ρ : Type} {turn : Nat → σ → Checked (Turn σ ρ)} {ended : Nat → σ → Checked ρ} {state : Nat → σ}
variable {stop : Char} {depth : Nat}

/-- Outside literals the turns count the parentheses that are open, up to a stop outside of all of them. -/
structure Counts (text : List Char) (stop : Char) (turn : Nat → σ → Checked (Turn σ ρ)) (state : Nat → σ) :
    Prop where
  mark {i j depth : Nat} {octet : Char} (met : octetAt text i = .ok octet) (marked : isMark octet = true)
    (past : pastLiteral text i = .ok j) : turn i (state depth) = .ok (.next j (state depth))
  code {i depth : Nat} {octet : Char} (met : octetAt text i = .ok octet) (unmarked : isMark octet = false)
    (on : ¬(depth = 0 ∧ octet = stop)) :
    turn i (state depth) = .ok (.next (i + 1) (state (depthAfter .code depth octet)))

theorem Counts.loop_code (counts : Counts text stop turn state) (stops : stop.toNat < 128)
    (shape : text = before ++ c :: rest) (unmarked : isMark c = false) (on : ¬(depth = 0 ∧ c = stop)) :
    loop (byteLength text) turn ended (byteLength before) (state depth) =
      loop (byteLength text) turn ended (byteLength (before ++ [c])) (state (depthAfter .code depth c)) := by
  by_cases low : c.toNat < 128
  · exact loop_low shape low (counts.code (octetAt_low shape low) unmarked on)
  · have high := Nat.not_lt.mp low
    have idle (i : Nat) (octet : Char) (met : octetAt text i = .ok octet)
        (holds : decide (128 ≤ octet.toNat) = true) : turn i (state depth) = .ok (.next (i + 1) (state depth)) := by
      have above := of_decide_eq_true holds
      have other : isMark octet = false :=
        Bool.eq_false_iff.mpr fun marked => Nat.not_lt.mpr above (toNat_lt_of_isMark marked)
      have free : ¬(depth = 0 ∧ octet = stop) := fun stopped => ne_of_le stops above stopped.2
      have step := counts.code met other free
      rwa [depthAfter_of_le above] at step
    rw [depthAfter_of_le high]
    exact loop_idle (fun _ => decide_eq_true) idle shape (decide_eq_true high)

/-- From any character that does not stop it, the loop goes on over a part of the text, a literal or the
character alone. -/
theorem Counts.exists_next (counts : Counts text stop turn state) (stops : stop.toNat < 128)
    (plain : isMark stop = false) (shape : text = before ++ c :: rest) (on : ¬(depth = 0 ∧ c = stop)) :
    ∃ more tail last final, c :: rest = more ++ tail ∧ tail.length ≤ rest.length ∧
      Passes stop .code depth more last final ∧ (last = .code ∨ tail = []) ∧
      loop (byteLength text) turn ended (byteLength before) (state depth) =
        loop (byteLength text) turn ended (byteLength (before ++ more)) (state final) := by
  cases marked : isMark c with
  | true =>
    have low := toNat_lt_of_isMark marked
    obtain ⟨last, passes, closed⟩ := passes_quoted plain marked depth rest
    refine ⟨_, _, last, depth, ?_, ?_, passes, closed, ?_⟩
    · rw [List.cons_append, List.take_append_drop]
    · rw [List.length_drop]
      exact Nat.sub_le _ _
    · exact loop_quoted shape low fun _ => counts.mark (octetAt_low shape low) marked
  | false =>
    have passes : Passes stop .code depth [c] .code (depthAfter .code depth c) := by
      refine .cons (fun stopped => on stopped.2) ?_
      rw [next_code_of_not_mark marked]
      exact .nil _ _
    exact ⟨[c], rest, .code, _, rfl, Nat.le_refl _, passes, .inl rfl, counts.loop_code stops shape marked on⟩

end

section

variable {opened seen : List Char} {opening : Nat}

theorem counts_body (text : List Char) (opening : Nat) : Counts text ')' (bodyTurn text opening) (· + 1) where
  mark met marked past := by simp [bodyTurn, met, marked, past]
  code {i depth octet} met unmarked on := by
    by_cases closes : octet = ')'
    · subst closes
      cases depth with
      | zero => exact absurd ⟨rfl, rfl⟩ on
      | succ depth => simp [bodyTurn, met, unmarked, lowered, depthAfter]
    · by_cases opens : octet = '('
      · subst opens
        simp [bodyTurn, met, unmarked, depthAfter]
      · simp [bodyTurn, met, unmarked, closes, opens, depthAfter]

theorem bodyTurn_last {body : List Char} (met : octetAt text i = .ok ')')
    (inner : piece text (opening + 1) i = .ok body) :
    bodyTurn text opening i 1 = .ok (.leave (some body, i + 1)) := by
  simp [bodyTurn, met, isMark, lowered, inner]

/-- What the loop over a body comes to that has seen some of it, if this is what the search from there on
finds: the whole body and the place behind its parenthesis. -/
def ending (text opened seen : List Char) : Option (List Char × List Char) → Option (List Char) × Nat
  | some (body, _) => (some (seen ++ body), byteLength (opened ++ (seen ++ body)) + 1)
  | none => (none, byteLength text)

theorem ending_grow (more : List Char) (found : Option (List Char × List Char)) :
    ending text opened seen (grow more found) = ending text opened (seen ++ more) found := by
  cases found <;> simp [ending, grow]

theorem bodyFrom_eq (first : opening + 1 = byteLength opened) (shape : text = opened ++ (seen ++ rest))
    (depth : Nat) : bodyFrom text opening (byteLength (opened ++ seen)) (depth + 1) =
      .ok (ending text opened seen (bodyOn .code depth rest)) := by
  -- By the length of what is left, since a turn may go over a whole literal.
  induction size : rest.length using Nat.strongRecOn generalizing seen rest depth with
  | ind _ ih =>
    cases rest with
    | nil =>
      rw [bodyFrom, loop_ended (by simp [shape])]
      rfl
    | cons c rest =>
      have here : text = opened ++ seen ++ c :: rest := by rw [shape, List.append_assoc]
      by_cases last : depth = 0 ∧ c = ')'
      · obtain ⟨rfl, rfl⟩ := last
        have met := octetAt_low here (by decide)
        have body := piece_eq shape
        rw [← first] at body
        rw [bodyFrom, loop_leave (lt_byteLength here) (bodyTurn_last met body)]
        simp [bodyOn, ending]
      · obtain ⟨more, tail, mode, final, parts, shorter, passes, closed, step⟩ :=
          (counts_body text opening).exists_next (by decide) (by decide) here last
        have found : bodyOn .code depth (c :: rest) = grow more (bodyOn .code final tail) := by
          rw [parts, passes.bodyOn_eq]
          rcases closed with rfl | rfl <;> rfl
        have split : text = opened ++ (seen ++ more ++ tail) := by rw [shape, parts, List.append_assoc seen]
        have smaller : tail.length < (c :: rest).length := Nat.lt_succ_of_le shorter
        rw [bodyFrom, step, found, ending_grow, List.append_assoc]
        exact ih tail.length (size ▸ smaller) split final rfl

theorem bodyAt_eq (shape : text = before ++ '(' :: rest) :
    bodyAt text (byteLength before) = .ok (ending text (before ++ ['(']) [] (body? rest)) := by
  have low : '('.toNat < 128 := by decide
  have first : bodyTurn text (byteLength before) (byteLength before) 0 = .ok (.next (byteLength before + 1) 1) := by
    simp [bodyTurn, octetAt_low shape low, isMark]
  have whole : text = (before ++ ['(']) ++ ([] ++ rest) := shape.trans (List.append_cons before '(' rest)
  have found := bodyFrom_eq (byteLength_snoc low) whole 0
  rw [List.append_nil] at found
  rw [bodyAt, bodyFrom, loop_low shape low first]
  exact found

end

section

variable {done field : List Char}

theorem counts_split (text : List Char) (fields : List (List Char)) (start : Nat) :
    Counts text ',' (splitTurn text) (⟨fields, ·, start⟩) where
  mark met marked past := by simp [splitTurn, met, marked, past]
  code {i depth octet} met unmarked on := by
    have uncut : ¬(octet = ',' ∧ depth = 0) := fun cut => on cut.symm
    by_cases opens : octet = '('
    · subst opens
      simp [splitTurn, met, unmarked, depthAfter]
    · by_cases closes : octet = ')'
      · subst closes
        simp [splitTurn, met, unmarked, depthAfter]
      · simp [splitTurn, met, unmarked, uncut, opens, closes, depthAfter]

theorem splitTurn_comma {s : Splitting} (met : octetAt text i = .ok ',') (inner : piece text s.start i = .ok field)
    (outside : s.depth = 0) : splitTurn text i s = .ok (.next (i + 1) ⟨field :: s.fields, 0, i + 1⟩) := by
  simp [splitTurn, met, isMark, inner, outside]

theorem fieldsFrom_eq (shape : text = done ++ (field ++ rest)) (fields : List (List Char)) (depth : Nat) :
    fieldsFrom text (byteLength (done ++ field)) ⟨fields, depth, byteLength done⟩ =
      .ok (fields.reverse ++ leadIn field (splitOn .code depth rest)) := by
  -- As in the search for a body; at a comma the field is cut out and the next one begins empty.
  induction size : rest.length using Nat.strongRecOn generalizing done field rest fields depth with
  | ind _ ih =>
    cases rest with
    | nil =>
      have ends : text = done ++ field := by rw [shape, List.append_nil]
      have last := piece_eq shape
      rw [← ends] at last
      rw [fieldsFrom, loop_ended (Nat.le_of_eq (congrArg byteLength ends))]
      simp [last, splitOn, leadIn]
    | cons c rest =>
      have here : text = done ++ field ++ c :: rest := by rw [shape, List.append_assoc]
      by_cases cut : depth = 0 ∧ c = ','
      · obtain ⟨rfl, rfl⟩ := cut
        have low : ','.toNat < 128 := by decide
        have next : text = (done ++ field ++ [',']) ++ ([] ++ rest) := here.trans (List.append_cons _ ',' rest)
        have later := ih rest.length (size ▸ Nat.lt_succ_self _) next (field :: fields) 0 rfl
        have commas : splitOn .code 0 (',' :: rest) = [] :: splitOn .code 0 rest := if_pos ⟨rfl, rfl, rfl⟩
        rw [List.append_nil, leadIn_nil, List.reverse_cons] at later
        rw [fieldsFrom, loop_low here low (splitTurn_comma (octetAt_low here low) (piece_eq shape) rfl),
          byteLength_snoc low, commas, leadIn, List.append_nil, List.append_cons fields.reverse]
        exact later
      · obtain ⟨more, tail, mode, final, parts, shorter, passes, closed, step⟩ :=
          (counts_split text fields (byteLength done)).exists_next (by decide) (by decide) here cut
        have found : splitOn .code depth (c :: rest) = leadIn more (splitOn .code final tail) := by
          rw [parts, passes.splitOn_eq]
          rcases closed with rfl | rfl <;> rfl
        have split : text = done ++ (field ++ more ++ tail) := by rw [shape, parts, List.append_assoc field]
        have smaller : tail.length < (c :: rest).length := Nat.lt_succ_of_le shorter
        rw [fieldsFrom, step, found, ← leadIn_append, List.append_assoc]
        exact ih tail.length (size ▸ smaller) split fields final rfl

theorem fieldsOf_eq (body : List Char) : fieldsOf body = .ok (splitFields body) := by
  have whole : body = [] ++ ([] ++ body) := rfl
  rw [fieldsOf, splitFields, ← leadIn_nil]
  exact fieldsFrom_eq whole [] 0

end

theorem low_isAlphanumeric : Low isAlphanumeric := by
  intro c holds
  simp only [isAlphanumeric, isDigit, isLetter, Bool.or_eq_true, Bool.and_eq_true, decide_eq_true_eq, Char.le_def,
    UInt32.le_iff_toNat_le] at holds
  simp at holds
  have := c.toNat_val
  omega

theorem low_isWordPart : Low Token.isWordPart := low_isAlphanumeric.or (.beq (by decide))

theorem low_isGap : Low Token.isGap := by
  intro c holds
  simp only [Token.isGap, Bool.or_eq_true, beq_iff_eq] at holds
  rcases holds with ((rfl | rfl) | rfl) | rfl <;> decide

theorem low_isAsciiBlank : Low isAsciiBlank := by
  intro c holds
  simp only [isAsciiBlank, Bool.or_eq_true, beq_iff_eq] at holds
  rcases holds with (((rfl | rfl) | rfl) | rfl) | rfl <;> decide

theorem isAlphanumeric_of_isDigit (digit : isDigit c = true) : isAlphanumeric c = true := by
  rw [isAlphanumeric, digit, Bool.true_or]

theorem isWordPart_of_isWordStart (start : Token.isWordStart c = true) : Token.isWordPart c = true := by
  rw [Token.isWordStart, Bool.or_eq_true] at start
  simp only [Token.isWordPart, isAlphanumeric, Bool.or_eq_true]
  exact start.imp_left .inr

theorem toNat_lt_of_sign? {token : Token} (stands : Token.sign? c = some token) : c.toNat < 128 := by
  unfold Token.sign? at stands
  split at stands <;> first | decide | cases stands

section

variable {field name : List Char} {octet : Char}

theorem tokenTurn_gap (met : octetAt field i = .ok octet) (gap : Token.isGap octet = true)
    (done : List Token) : tokenTurn field i done = .ok (.next (i + 1) done) := by
  simp [tokenTurn, met, gap]

theorem tokenTurn_sign {token : Token} (met : octetAt field i = .ok octet)
    (stands : Token.sign? octet = some token) (done : List Token) :
    tokenTurn field i done = .ok (.next (i + 1) (token :: done)) := by
  simp [tokenTurn, met, Token.isGap_of_sign? stands, stands]

theorem tokenTurn_digit (met : octetAt field i = .ok octet) (digit : isDigit octet = true)
    (past : pastRun isAlphanumeric field i = .ok j) (inner : piece field i j = .ok name) (done : List Token) :
    tokenTurn field i done = .ok (match Token.literalValue? name with
      | some value => .next j (.literal value :: done)
      | none => .leave (.error (.badLiteral (String.ofList name)))) := by
  obtain ⟨apart, unsigned⟩ := Token.apart_of_isDigit digit
  simp only [tokenTurn, met, ok_bind, apart, Bool.false_eq_true, if_false, unsigned, digit, if_true, past, inner]
  cases Token.literalValue? name <;> rfl

theorem tokenTurn_word (met : octetAt field i = .ok octet) (start : Token.isWordStart octet = true)
    (past : pastRun Token.isWordPart field i = .ok j) (inner : piece field i j = .ok name) (done : List Token) :
    tokenTurn field i done = .ok (.next j (.word (String.ofList name) :: done)) := by
  obtain ⟨apart, unsigned⟩ := Token.apart_of_isWordStart start
  simp [tokenTurn, met, apart, unsigned, Token.not_isDigit_of_isWordStart start, start, past, inner]

theorem tokenTurn_other (met : octetAt field i = .ok octet) (gap : Token.isGap octet = false)
    (unsigned : Token.sign? octet = none) (digit : isDigit octet = false) (start : Token.isWordStart octet = false)
    (done : List Token) :
    tokenTurn field i done = .ok (.leave (.error (.unexpectedOctet octet.toNat))) := by
  simp [tokenTurn, met, gap, unsigned, digit, start]

end

theorem firstOctetOf_eq {octet : Char} {more : List Char} (first : octetsOfChar c = octet :: more) :
    Token.firstOctetOf c = octet.toNat := by
  have whole : octets [c] = octet :: more := by rw [octets_cons, octets_nil, List.append_nil, first]
  rw [Token.firstOctetOf, String.singleton_eq_ofList]
  unfold octets at whole
  cases bytes : encode (String.ofList [c]) with
  | nil =>
    rw [bytes] at whole
    cases whole
  | cons b others =>
    rw [bytes, List.map_cons] at whole
    rw [List.headD_cons, ← (List.cons.inj whole).1, toNat_ofNat_of_lt b.toNat_lt]

theorem pastRun_cons {kind : Char → Bool} (low : Low kind) (first : kind c = true)
    (shape : text = before ++ c :: rest) :
    pastRun kind text (byteLength before) = .ok (byteLength (before ++ c :: rest.takeWhile kind)) ∧
      piece text (byteLength before) (byteLength (before ++ c :: rest.takeWhile kind)) =
        .ok (c :: rest.takeWhile kind) ∧
      text = before ++ c :: rest.takeWhile kind ++ rest.dropWhile kind := by
  have whole : text = before ++ (c :: rest.takeWhile kind ++ rest.dropWhile kind) := by
    rw [shape, List.cons_append, List.takeWhile_append_dropWhile]
  refine ⟨?_, piece_eq whole, whole.trans (List.append_assoc _ _ _).symm⟩
  rw [pastRun_eq low shape, List.takeWhile_cons_of_pos first]

theorem map_reverse_cons (token : Token) (done : List Token) (scanned : Except ExpressionFault (List Token)) :
    ((token :: done).reverse ++ ·) <$> scanned = (done.reverse ++ ·) <$> (token :: ·) <$> scanned := by
  cases scanned with
  | ok later => exact congrArg Except.ok (by simp)
  | error fault => rfl

theorem tokensFrom_eq (shape : text = before ++ rest) (done : List Token) :
    tokensFrom text (byteLength before) done = .ok ((done.reverse ++ ·) <$> Token.scan rest) := by
  fun_induction Token.scan rest generalizing before done with
  | case1 =>
    rw [tokensFrom, loop_ended (by simp [shape])]
    exact congrArg (Except.ok <| Except.ok ·) (List.append_nil _).symm
  | case2 c rest gap ih =>
    have low := low_isGap c gap
    rw [tokensFrom, loop_low shape low (tokenTurn_gap (octetAt_low shape low) gap done)]
    exact ih (shape.trans (List.append_cons before c rest)) done
  | case3 c rest _ token stands ih =>
    have low := toNat_lt_of_sign? stands
    rw [tokensFrom, loop_low shape low (tokenTurn_sign (octetAt_low shape low) stands done), ← map_reverse_cons]
    exact ih (shape.trans (List.append_cons before c rest)) (token :: done)
  | case4 c rest _ _ digit run value worth =>
    rename_i ih
    have low := low_isAlphanumeric c (isAlphanumeric_of_isDigit digit)
    obtain ⟨past, inner, whole⟩ := pastRun_cons low_isAlphanumeric (isAlphanumeric_of_isDigit digit) shape
    have step := tokenTurn_digit (octetAt_low shape low) digit past inner done
    rw [worth] at step
    rw [tokensFrom, loop_next (lt_byteLength shape) step (lt_byteLength rfl), ← map_reverse_cons]
    exact ih whole (.literal value :: done)
  | case5 c rest _ _ digit run =>
    rename_i bad
    have low := low_isAlphanumeric c (isAlphanumeric_of_isDigit digit)
    obtain ⟨past, inner, -⟩ := pastRun_cons low_isAlphanumeric (isAlphanumeric_of_isDigit digit) shape
    have step := tokenTurn_digit (octetAt_low shape low) digit past inner done
    rw [bad] at step
    rw [tokensFrom, loop_leave (lt_byteLength shape) step]
    rfl
  | case6 c rest _ _ _ start name =>
    rename_i ih
    have low := low_isWordPart c (isWordPart_of_isWordStart start)
    obtain ⟨past, inner, whole⟩ := pastRun_cons low_isWordPart (isWordPart_of_isWordStart start) shape
    have step := tokenTurn_word (octetAt_low shape low) start past inner done
    rw [tokensFrom, loop_next (lt_byteLength shape) step (lt_byteLength rfl), ← map_reverse_cons]
    exact ih whole (.word name :: done)
  | case7 c rest gap unsigned digit start =>
    -- No class holds the character, and none of them holds an octet of a longer one either.
    obtain ⟨first, more, octetsOf⟩ := List.exists_cons_of_ne_nil (octetsOfChar_ne_nil c)
    obtain ⟨octet, met, same⟩ := exists_octetAt shape
    obtain rfl : first = octet := Except.ok.inj ((octetAt_first shape octetsOf).symm.trans met)
    have other {kind : Char → Bool} (low : Low kind) (apart : ¬kind c = true) : kind first = false := by
      rcases same with ⟨rfl, -⟩ | ⟨high, -⟩
      · exact Bool.eq_false_iff.mpr apart
      · exact low.not_of_le high
    have signs : Low fun c => (Token.sign? c).isSome := by
      intro c holds
      obtain ⟨token, stands⟩ := Option.isSome_iff_exists.mp holds
      exact toNat_lt_of_sign? stands
    have digits : Low isDigit := fun c digit => low_isAlphanumeric c (isAlphanumeric_of_isDigit digit)
    have starts : Low Token.isWordStart := fun c start => low_isWordPart c (isWordPart_of_isWordStart start)
    have none : Token.sign? first = none := by simpa using other signs (by simp [unsigned])
    have step := tokenTurn_other met (other low_isGap gap) none (other digits digit) (other starts start) done
    rw [tokensFrom, loop_leave (lt_byteLength shape) step, firstOctetOf_eq octetsOf]
    rfl

theorem tokensOf_eq (field : List Char) : tokensOf field = .ok (Token.scan field) := by
  have whole : field = [] ++ field := rfl
  have scanned := tokensFrom_eq whole []
  rw [List.reverse_nil] at scanned
  rw [tokensOf]
  refine scanned.trans (congrArg Except.ok ?_)
  cases Token.scan field <;> rfl

end FlagSurvey.Definition.Cursor
