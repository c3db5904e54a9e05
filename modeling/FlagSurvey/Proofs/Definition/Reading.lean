import FlagSurvey.Definition.Field
import FlagSurvey.Proofs.Definition.Grammar
import FlagSurvey.Proofs.Definition.Lexeme

/-! Reading integer expressions. The reader follows the grammar to the end of the tokens or fails: what it
takes off the front of them is an expression, and every expression is taken whole. What it computes is what
the expression says. -/
namespace FlagSurvey.Definition

open Number

theorem bind_eq_ok_iff {ε α β : Type} {first : Except ε α} {next : α → Except ε β} {b : β} :
    first >>= next = .ok b ↔ ∃ a, first = .ok a ∧ next a = .ok b := by
  cases first with
  | ok a => exact ⟨fun h => ⟨a, rfl, h⟩, fun ⟨_, same, h⟩ => Except.ok.inj same ▸ h⟩
  | error fault => exact ⟨nofun, nofun⟩

namespace Expression

def plain {n : Nat} (reading : Reading n) : Except ExpressionFault (Int × List Token) :=
  (fun taken => (taken.value, taken.rest)) <$> reading

theorem length_lt_of_plain {n : Nat} {reading : Reading n} {v : Int} {rest : List Token}
    (h : plain reading = .ok (v, rest)) : rest.length < n := by
  cases reading with
  | error fault => cases h
  | ok taken =>
    cases h
    exact taken.shorter

theorem plain_widen {n m : Nat} (reading : Reading n) (h : n ≤ m) :
    plain (reading >>= fun taken => pure (taken.widen h)) = plain reading := by
  cases reading <;> rfl

theorem plain_bind {n m : Nat} (reading : Reading n) {next : Taken n → Reading m}
    {after : Int × List Token → Except ExpressionFault (Int × List Token)}
    (h : ∀ taken, plain (next taken) = after (taken.value, taken.rest)) :
    plain (reading >>= next) = plain reading >>= after := by
  cases reading with
  | error fault => rfl
  | ok taken => exact h taken

theorem plain_within_bind {n : Nat} {v : Int} {next : Int → Reading n}
    {after : Int → Except ExpressionFault (Int × List Token)} (h : ∀ w, plain (next w) = after w) :
    plain (within v >>= next) = within v >>= after := by
  cases within v with
  | error fault => rfl
  | ok w => exact h w

section

variable (total : Int) (tokens : List Token)

theorem plain_sum :
    plain (sum tokens) = plain (product tokens) >>= fun (v, rest) => plain (sumOn v rest) := by
  rw [sum]
  exact plain_bind _ fun _ => plain_widen _ _

theorem plain_sumOn_token {op : Operation} (additive : op ≠ .product) :
    plain (sumOn total (op.token :: tokens)) = plain (product tokens) >>= fun (v, rest) =>
      within (op.apply total v) >>= fun next => plain (sumOn next rest) := by
  cases op with
  | product => exact absurd rfl additive
  | sum | difference =>
    rw [Operation.token, sumOn]
    exact plain_bind _ fun _ => plain_within_bind fun _ => plain_widen _ _

theorem plain_product : plain (product tokens) =
    plain (signed tokens) >>= fun (v, rest) => plain (productOn v rest) := by
  rw [product]
  exact plain_bind _ fun _ => plain_widen _ _

theorem plain_productOn_star : plain (productOn total (.star :: tokens)) =
    plain (signed tokens) >>= fun (v, rest) =>
      within (total * v) >>= fun next => plain (productOn next rest) := by
  rw [productOn]
  exact plain_bind _ fun _ => plain_within_bind fun _ => plain_widen _ _

theorem plain_signed_minus : plain (signed (.minus :: tokens)) =
    plain (signed tokens) >>= fun (v, rest) => within (-v) >>= fun w => .ok (w, rest) := by
  rw [signed]
  exact plain_bind _ fun _ => plain_within_bind fun _ => rfl

theorem plain_signed_plus : plain (signed (.plus :: tokens)) = plain (signed tokens) := by
  rw [signed]
  exact plain_widen _ _

theorem plain_atom_literal (v : Int) : plain (atom (.literal v :: tokens)) = .ok (v, tokens) := by
  rw [atom]
  rfl

theorem plain_atom_word {name : String} {v : Int} (known : constant? name = some v) :
    plain (atom (.word name :: tokens)) = .ok (v, tokens) := by
  rw [atom]
  simp only [known]
  rfl

theorem plain_atom_opening : plain (atom (.opening :: tokens)) =
    plain (sum tokens) >>= fun (v, rest) =>
      match rest with
      | .closing :: after => .ok (v, after)
      | _ => .error .unbalanced := by
  rw [atom]
  refine plain_bind _ fun taken => ?_
  obtain ⟨v, rest, shorter⟩ := taken
  cases rest with
  | nil => rfl
  | cons token after => cases token <;> rfl

end

section

variable {tokens : List Token}

theorem plain_sumOn_of_ends {total : Int} (plus : tokens.head? ≠ some .plus)
    (minus : tokens.head? ≠ some .minus) : plain (sumOn total tokens) = .ok (total, tokens) := by
  rw [sumOn]
  · rfl
  · rintro rest rfl
    exact plus rfl
  · rintro rest rfl
    exact minus rfl

theorem plain_productOn_of_ends {total : Int} (star : tokens.head? ≠ some .star) :
    plain (productOn total tokens) = .ok (total, tokens) := by
  rw [productOn]
  · rfl
  · rintro rest rfl
    exact star rfl

theorem signed_eq_atom (plus : tokens.head? ≠ some .plus) (minus : tokens.head? ≠ some .minus) :
    signed tokens = atom tokens := by
  rw [signed]
  · rintro rest rfl
    exact minus rfl
  · rintro rest rfl
    exact plus rfl

end

theorem additive_or_ends (tokens : List Token) :
    (∃ (op : Operation) (rest : List Token), op ≠ .product ∧ tokens = op.token :: rest) ∨
      tokens.head? ≠ some .plus ∧ tokens.head? ≠ some .minus := by
  cases tokens with
  | nil => exact .inr ⟨nofun, nofun⟩
  | cons token rest =>
    cases token with
    | plus => exact .inl ⟨.sum, rest, nofun, rfl⟩
    | minus => exact .inl ⟨.difference, rest, nofun, rfl⟩
    | literal | word | star | opening | closing => exact .inr ⟨nofun, nofun⟩

def Reads (level : Level) (tokens : List Token) (v : Int) (rest : List Token) : Prop :=
  ∃ used a, tokens = used ++ rest ∧ Derives level used a ∧ a.checked = .ok v

theorem checked_operation {op : Operation} {a b : Term} {v w r : Int} (first : a.checked = .ok v)
    (second : b.checked = .ok w) (result : within (op.apply v w) = .ok r) :
    (Term.operation op a b).checked = .ok r := by
  rw [Term.checked, first, second]
  exact result

-- Along the reader's own recursion: on the tokens that are left, and for the same tokens on the level.
mutual

theorem reads_sum {tokens : List Token} {v : Int} {rest : List Token}
    (h : plain (sum tokens) = .ok (v, rest)) : Reads .sum tokens v rest := by
  rw [plain_sum] at h
  obtain ⟨⟨w, after⟩, first, later⟩ := bind_eq_ok_iff.mp h
  have shorter := length_lt_of_plain first
  obtain ⟨used, a, rfl, derived, worth⟩ := reads_product first
  exact reads_sumOn (.ofProduct derived) worth later
termination_by (tokens.length, 4)

theorem reads_sumOn {front tokens : List Token} {a : Term} {total v : Int} {rest : List Token}
    (before : Derives .sum front a) (worth : a.checked = .ok total)
    (h : plain (sumOn total tokens) = .ok (v, rest)) : Reads .sum (front ++ tokens) v rest := by
  rcases additive_or_ends tokens with ⟨op, more, additive, same⟩ | ⟨plus, minus⟩
  · have left : more.length < tokens.length := by simp [same]
    rw [same, plain_sumOn_token _ _ additive] at h
    obtain ⟨⟨w, after⟩, first, added⟩ := bind_eq_ok_iff.mp h
    obtain ⟨next, result, later⟩ := bind_eq_ok_iff.mp added
    have shorter := length_lt_of_plain first
    obtain ⟨used, b, rfl, derived, operand⟩ := reads_product first
    have longer := reads_sumOn (.add additive before derived)
      (checked_operation worth operand result) later
    rwa [List.append_assoc, List.cons_append, ← same] at longer
  · rw [plain_sumOn_of_ends plus minus] at h
    cases h
    exact ⟨front, a, rfl, before, worth⟩
termination_by (tokens.length, 0)
decreasing_by
  all_goals
    simp only [Prod.lex_def]
    omega

theorem reads_product {tokens : List Token} {v : Int} {rest : List Token}
    (h : plain (product tokens) = .ok (v, rest)) : Reads .product tokens v rest := by
  rw [plain_product] at h
  obtain ⟨⟨w, after⟩, first, later⟩ := bind_eq_ok_iff.mp h
  have shorter := length_lt_of_plain first
  obtain ⟨used, a, rfl, derived, worth⟩ := reads_signed first
  exact reads_productOn (.ofSigned derived) worth later
termination_by (tokens.length, 3)

theorem reads_productOn {front tokens : List Token} {a : Term} {total v : Int} {rest : List Token}
    (before : Derives .product front a) (worth : a.checked = .ok total)
    (h : plain (productOn total tokens) = .ok (v, rest)) : Reads .product (front ++ tokens) v rest := by
  by_cases star : tokens.head? = some .star
  · obtain ⟨more, same⟩ := List.head?_eq_some_iff.mp star
    have left : more.length < tokens.length := by simp [same]
    rw [same, plain_productOn_star] at h
    obtain ⟨⟨w, after⟩, first, multiplied⟩ := bind_eq_ok_iff.mp h
    obtain ⟨next, result, later⟩ := bind_eq_ok_iff.mp multiplied
    have shorter := length_lt_of_plain first
    obtain ⟨used, b, rfl, derived, operand⟩ := reads_signed first
    have longer := reads_productOn (.multiply before derived)
      (checked_operation worth operand result) later
    rwa [List.append_assoc, List.cons_append, ← same] at longer
  · rw [plain_productOn_of_ends star] at h
    cases h
    exact ⟨front, a, rfl, before, worth⟩
termination_by (tokens.length, 0)
decreasing_by
  all_goals
    simp only [Prod.lex_def]
    omega

theorem reads_signed {tokens : List Token} {v : Int} {rest : List Token}
    (h : plain (signed tokens) = .ok (v, rest)) : Reads .signed tokens v rest := by
  match tokens with
  | .minus :: tokens =>
    rw [plain_signed_minus] at h
    obtain ⟨⟨w, after⟩, first, negated⟩ := bind_eq_ok_iff.mp h
    obtain ⟨next, result, same⟩ := bind_eq_ok_iff.mp negated
    cases same
    obtain ⟨used, a, rfl, derived, worth⟩ := reads_signed first
    refine ⟨_, _, rfl, .negative derived, ?_⟩
    rw [Term.checked, worth]
    exact result
  | .plus :: tokens =>
    rw [plain_signed_plus] at h
    obtain ⟨used, a, rfl, derived, worth⟩ := reads_signed h
    exact ⟨_, a, rfl, .positive derived, worth⟩
  | [] | .literal _ :: _ | .word _ :: _ | .star :: _ | .opening :: _ | .closing :: _ =>
    rw [signed_eq_atom (by simp) (by simp)] at h
    obtain ⟨used, a, split, derived, worth⟩ := reads_atom h
    exact ⟨used, a, split, .ofAtom derived, worth⟩
termination_by (tokens.length, 2)

theorem reads_atom {tokens : List Token} {v : Int} {rest : List Token}
    (h : plain (atom tokens) = .ok (v, rest)) : Reads .atom tokens v rest := by
  match tokens with
  | .literal w :: tokens =>
    rw [plain_atom_literal] at h
    cases h
    exact ⟨_, _, rfl, .literal _, rfl⟩
  | .word name :: tokens =>
    cases known : constant? name with
    | none => simp [atom, plain, known] at h
    | some w =>
      rw [plain_atom_word _ known] at h
      cases h
      exact ⟨_, _, rfl, .constant known, rfl⟩
  | .opening :: tokens =>
    rw [plain_atom_opening] at h
    obtain ⟨⟨w, after⟩, inside, closed⟩ := bind_eq_ok_iff.mp h
    obtain ⟨used, a, rfl, derived, worth⟩ := reads_sum inside
    dsimp only at closed
    split at closed
    · cases closed
      exact ⟨_, a, by simp, .group derived, worth⟩
    · cases closed
  | [] | .star :: _ | .plus :: _ | .minus :: _ | .closing :: _ => simp [atom, plain] at h
termination_by (tokens.length, 1)

end

/-- The reader takes all of an expression and comes to what it says. After a product or a sum it goes on
with what follows. -/
def Completes : Level → List Token → Term → Prop
  | .sum, used, a => ∀ rest : List Token, rest.head? ≠ some .star →
    plain (sum (used ++ rest)) = a.checked >>= fun v => plain (sumOn v rest)
  | .product, used, a => ∀ rest : List Token,
    plain (product (used ++ rest)) = a.checked >>= fun v => plain (productOn v rest)
  | .signed, used, a => ∀ rest : List Token,
    plain (signed (used ++ rest)) = a.checked >>= fun v => .ok (v, rest)
  | .atom, used, a => ∀ rest : List Token,
    plain (atom (used ++ rest)) = a.checked >>= fun v => .ok (v, rest)

theorem signed_eq_atom_of_derives {used : List Token} {a : Term} (h : Derives .atom used a)
    (rest : List Token) : signed (used ++ rest) = atom (used ++ rest) := by
  cases h <;> exact signed_eq_atom (by simp) (by simp)

theorem completes {level : Level} {used : List Token} {a : Term} (h : Derives level used a) :
    Completes level used a := by
  induction h with
  | ofProduct _ ih =>
    intro rest ends
    rw [plain_sum, ih rest, bind_assoc]
    refine bind_congr fun v => ?_
    rw [plain_productOn_of_ends ends]
    rfl
  | @add first second a b op additive _ _ ih_left ih_right =>
    intro rest ends
    -- The last product of the left operand ends before the sign, as no star follows it.
    have onward : (op.token :: (second ++ rest)).head? ≠ some .star := by
      cases op <;> simp_all [Operation.token]
    rw [List.append_assoc, List.cons_append, ih_left _ onward, Term.checked, bind_assoc]
    refine bind_congr fun v => ?_
    rw [plain_sumOn_token _ _ additive, ih_right rest, bind_assoc, bind_assoc]
    refine bind_congr fun w => ?_
    rw [plain_productOn_of_ends ends]
    rfl
  | ofSigned _ ih =>
    intro rest
    rw [plain_product, ih rest, bind_assoc]
    rfl
  | multiply _ _ ih_left ih_right =>
    intro rest
    rw [List.append_assoc, List.cons_append, ih_left, Term.checked, bind_assoc]
    refine bind_congr fun v => ?_
    rw [plain_productOn_star, ih_right rest, bind_assoc, bind_assoc]
    rfl
  | negative _ ih =>
    intro rest
    rw [List.cons_append, plain_signed_minus, ih rest, Term.checked, bind_assoc, bind_assoc]
    rfl
  | positive _ ih =>
    intro rest
    rw [List.cons_append, plain_signed_plus, ih rest]
  | ofAtom h ih =>
    intro rest
    rw [signed_eq_atom_of_derives h]
    exact ih rest
  | literal v => exact fun rest => plain_atom_literal rest v
  | constant known => exact fun rest => plain_atom_word rest known
  | @group used a _ ih =>
    intro rest
    rw [List.cons_append, List.append_assoc, List.singleton_append, plain_atom_opening,
      ih _ (by simp), bind_assoc]
    refine bind_congr fun v => ?_
    rw [plain_sumOn_of_ends (by simp) (by simp)]
    rfl

theorem evaluate_eq (text : List Char) : evaluate text = Token.scan text >>= fun tokens =>
    plain (sum tokens) >>= fun (v, rest) => if rest.isEmpty then .ok v else .error .trailing := by
  rw [evaluate]
  refine bind_congr fun tokens => ?_
  cases sum tokens <;> rfl

theorem evaluate_of_derives {text : List Char} {tokens : List Token} {a : Term}
    (cut : Lexes text tokens) (derived : Derives .sum tokens a) : evaluate text = a.checked := by
  have taken := completes derived [] (by simp)
  rw [List.append_nil] at taken
  rw [evaluate_eq, Token.scan_eq_ok_iff.mpr cut]
  change (plain (sum tokens) >>= _) = _
  rw [taken, bind_assoc]
  cases a.checked with
  | error fault => rfl
  | ok v =>
    change (plain (sumOn v []) >>= _) = _
    rw [plain_sumOn_of_ends (by simp) (by simp)]
    rfl

theorem evaluate_eq_ok_iff {text : List Char} {v : Int} : evaluate text = .ok v ↔
    ∃ tokens a, Lexes text tokens ∧ Derives .sum tokens a ∧ a.checked = .ok v := by
  constructor
  · intro h
    rw [evaluate_eq] at h
    obtain ⟨tokens, scanned, parsed⟩ := bind_eq_ok_iff.mp h
    obtain ⟨⟨w, rest⟩, read, ended⟩ := bind_eq_ok_iff.mp parsed
    obtain ⟨used, a, rfl, derived, worth⟩ := reads_sum read
    dsimp only at ended
    split at ended
    · next all =>
      cases ended
      rw [List.isEmpty_iff.mp all, List.append_nil] at scanned
      exact ⟨used, a, Token.scan_eq_ok_iff.mp scanned, derived, worth⟩
    · cases ended
  · rintro ⟨tokens, a, cut, derived, worth⟩
    rw [evaluate_of_derives cut derived, worth]

end Expression

theorem numberField_eq_ok_iff {field : List Char} {v : Int} :
    numberField field = .ok v ↔ Expression.evaluate field = .ok v := by
  rw [numberField]
  split <;> simp_all

theorem numberField_of_overflow {field : List Char}
    (h : Expression.evaluate field = .error .overflow) :
    numberField field = .error (.overflow (shown field)) := by
  rw [numberField, h]

/-- A number field is read exactly where it is an expression all of whose results are in the range, and as
what the expression says. An expression with a result outside the range overflows. -/
theorem numberField_iff_expression (field : List Char) :
    (∀ v, numberField field = .ok v ↔ ∃ tokens a, Lexes field tokens ∧ Derives .sum tokens a ∧
      (∀ r ∈ a.results, Fits r) ∧ a.eval = v) ∧
    ∀ tokens a, Lexes field tokens → Derives .sum tokens a → (∃ r ∈ a.results, ¬Fits r) →
      numberField field = .error (.overflow (shown field)) := by
  constructor
  · intro v
    rw [numberField_eq_ok_iff, Expression.evaluate_eq_ok_iff]
    simp only [Term.checked_eq_ok_iff]
  · rintro tokens a cut derived ⟨r, mem, outside⟩
    refine numberField_of_overflow ?_
    rw [Expression.evaluate_of_derives cut derived]
    exact Term.checked_of_not_fits fun all => outside (all r mem)

/-- One past the greatest integer overflows, though less one it would be in the range again. -/
theorem overflow_of_partial_sum :
    let field := "9223372036854775807 + 1 - 1".toList
    let a := Term.operation .difference (.operation .sum (.value greatest) (.value 1)) (.value 1)
    Fits a.eval ∧ numberField field = .error (.overflow (shown field)) := by
  intro field a
  have number (v : Int) : Derives .product [.literal v] (.value v) :=
    .ofSigned (.ofAtom (.literal v))
  have derived : Derives .sum [.literal greatest, .plus, .literal 1, .minus, .literal 1] a :=
    @Derives.add [.literal greatest, .plus, .literal 1] _ _ _ .difference nofun
      (@Derives.add [.literal greatest] _ _ _ .sum nofun (.ofProduct (number greatest)) (number 1))
      (number 1)
  have cut : Token.scan field = .ok [.literal greatest, .plus, .literal 1, .minus, .literal 1] := by
    decide +kernel
  exact ⟨by decide, (numberField_iff_expression field).2 _ a (Token.scan_eq_ok_iff.mp cut) derived
    ⟨greatest + 1, by decide, by decide⟩⟩

end FlagSurvey.Definition
