import FlagSurvey.Proofs.Definition.Decoding
import FlagSurvey.Proofs.Definition.Reading

/-! Integers written in decimal. A minus is a sign in front of a literal and not a part of it, and a literal
goes up to the greatest integer, so the decimal text of the least one is the only one that is not read back. -/
namespace FlagSurvey.Definition

open Number

theorem lexes_decimal {n : Nat} (h : (n : Int) ≤ greatest) : Lexes (decimal n) [.literal n] := by
  have worth : IsLiteral (decimal n) n :=
    ⟨decimal n, [], n, (List.append_nil _).symm, nofun, .decimal (readNat?_eq_some_iff.mp (readNat?_decimal n)),
      rfl, h⟩
  cases digits : decimal n with
  | nil => exact absurd digits (decimal_ne_nil n)
  | cons c run =>
    have digit (d : Char) (mem : d ∈ c :: run) : isDigit d = true :=
      isDigit_of_mem_decimal (digits ▸ mem)
    have inside (d : Char) (mem : d ∈ run) : isAlphanumeric d = true := by
      simp [isAlphanumeric, digit d (List.mem_cons_of_mem _ mem)]
    have cut : Lexes (c :: (run ++ [])) [.literal n] :=
      .literal (digit c List.mem_cons_self) inside nofun (digits ▸ worth) .nil
    rwa [List.append_nil] at cut

theorem exists_derives_decimalInt {v : Int} (fits : Fits v) (other : v ≠ least) :
    ∃ tokens a, Lexes (decimalInt v) tokens ∧ Derives .sum tokens a ∧ a.checked = .ok v := by
  have magnitude : (v.natAbs : Int) ≤ greatest := by
    simp only [Fits, least, greatest] at *
    omega
  have cut := lexes_decimal magnitude
  by_cases negative : v < 0
  · refine ⟨_, _, ?_, .ofProduct (.ofSigned (.negative (.ofAtom (.literal v.natAbs)))), ?_⟩
    · rw [decimalInt, if_pos negative]
      exact .sign rfl cut
    · have back : -(v.natAbs : Int) = v := by omega
      exact (congrArg Expression.within back).trans (Expression.within_of_fits fits)
  · refine ⟨_, _, ?_, .ofProduct (.ofSigned (.ofAtom (.literal v.natAbs))), ?_⟩
    · rw [decimalInt, if_neg negative]
      exact cut
    · have back : (v.natAbs : Int) = v := by omega
      exact congrArg Except.ok back

theorem numberField_decimalInt {v : Int} (fits : Fits v) (other : v ≠ least) :
    numberField (decimalInt v) = .ok v :=
  numberField_eq_ok_iff.mpr
    (Expression.evaluate_eq_ok_iff.mpr (exists_derives_decimalInt fits other))

theorem fieldText_of_plain {field : List Char}
    (h : ∀ c ∈ field, isMark c = false ∧ c ≠ '(' ∧ c ≠ ')' ∧ c ≠ ',') : FieldText field := by
  induction field with
  | nil => exact .nil
  | cons c rest ih =>
    obtain ⟨unmarked, unopened, unclosed, uncut⟩ := h c List.mem_cons_self
    exact .plain unmarked unopened unclosed uncut (ih fun d mem => h d (List.mem_cons_of_mem _ mem))

theorem fieldText_decimalInt (v : Int) : FieldText (decimalInt v) := by
  refine fieldText_of_plain fun c mem => ?_
  rcases eq_minus_or_isDigit_of_mem_decimalInt mem with rfl | digit
  · decide
  · have unmarked : isMark c = false := by simp [isMark, ne_of_isDigit digit, isDigit]
    exact ⟨unmarked, ne_of_isDigit digit (by decide), ne_of_isDigit digit (by decide),
      ne_of_isDigit digit (by decide)⟩

def decimalBody (name description : List Char) (default min max : Int) : List Char :=
  List.intercalate [','] [name, description, decimalInt default, decimalInt min, decimalInt max]

theorem splitFields_decimalBody {name description : List Char} (named : FieldText name)
    (described : FieldText description) (default min max : Int) :
    splitFields (decimalBody name description default min max) =
      [name, description, decimalInt default, decimalInt min, decimalInt max] := by
  refine splitFields_of_splitsInto ⟨rfl, nofun, ?_⟩
  simp only [List.forall_mem_cons]
  exact ⟨named, described, fieldText_decimalInt _, fieldText_decimalInt _, fieldText_decimalInt _, nofun⟩

theorem ofFields_eq_ok_iff {name description default min max : List Char} {d : Definition} :
    ofFields name description default min max = .ok d ↔
      nameField name = .ok d.name ∧ textField description = .ok d.description ∧
        numberField default = .ok d.default ∧ numberField min = .ok d.min ∧
        numberField max = .ok d.max ∧ d.min ≤ d.default := by
  simp only [ofFields, bind_eq_ok_iff]
  constructor
  · rintro ⟨n, named, t, described, v, defaulted, low, bounded, high, read, ended⟩
    split at ended
    · cases ended
    · next above =>
      cases ended
      exact ⟨named, described, defaulted, bounded, read, Int.not_lt.mp above⟩
  · rintro ⟨named, described, defaulted, bounded, read, above⟩
    refine ⟨_, named, _, described, _, defaulted, _, bounded, _, read, ?_⟩
    rw [if_neg (Int.not_lt.mpr above)]
    rfl

theorem numberField_least : numberField (decimalInt least) =
    .error (.number "-9223372036854775808" (.badLiteral "9223372036854775808")) := by
  decide +kernel

theorem numberField_decimalInt_iff {v : Int} (fits : Fits v) :
    numberField (decimalInt v) = .ok v ↔ v ≠ least := by
  refine ⟨?_, numberField_decimalInt fits⟩
  rintro read rfl
  rw [numberField_least] at read
  cases read

/-- The decimal text of every integer but the least one is read back, and so is a definition with the bounds
and the default in decimal: it comes to itself unless the least integer is among them. -/
theorem decimal_read_back :
    (∀ v, Fits v → (numberField (decimalInt v) = .ok v ↔ v ≠ least)) ∧
    ∀ (d : Definition) (name description : List Char), FieldText name → FieldText description →
      nameField name = .ok d.name → textField description = .ok d.description →
      Fits d.default → Fits d.min → Fits d.max → d.min ≤ d.default →
      (ofBody (decimalBody name description d.default d.min d.max) = .ok d ↔
        d.default ≠ least ∧ d.min ≠ least ∧ d.max ≠ least) := by
  refine ⟨fun v => numberField_decimalInt_iff, ?_⟩
  intro d name description nameWhole textWhole named described default min max above
  rw [ofBody, splitFields_decimalBody nameWhole textWhole, ofFields_eq_ok_iff,
    numberField_decimalInt_iff default, numberField_decimalInt_iff min, numberField_decimalInt_iff max]
  exact ⟨fun h => ⟨h.2.2.1, h.2.2.2.1, h.2.2.2.2.1⟩,
    fun h => ⟨named, described, h.1, h.2.1, h.2.2, above⟩⟩

theorem definition_of_greatest :
    let d : Definition := ⟨"depth", "d", greatest, -greatest, 0⟩
    ofBody "depth,\"d\",9223372036854775807,-9223372036854775807,0".toList = .ok d := by
  intro d
  have written : decimalBody "depth".toList "\"d\"".toList greatest (-greatest) 0 =
      "depth,\"d\",9223372036854775807,-9223372036854775807,0".toList := by decide +kernel
  have named : FieldText "depth".toList := fieldText_of_plain (by simp [isMark])
  have described : FieldText ['"', 'd', '"'] :=
    .literal rfl (.plain (by decide) (by decide) .nil) .nil
  rw [← written]
  exact (decimal_read_back.2 d _ _ named described (by decide +kernel) (by decide +kernel) (by decide)
    (by decide) (by decide) (by decide)).mpr (by decide)

/-- The least integer is not read back from its decimal text: what stands after the minus is too great. -/
theorem decimal_of_least_refused :
    Fits least ∧ decimalInt least = "-9223372036854775808".toList ∧
      ∀ v, numberField (decimalInt least) ≠ .ok v := by
  refine ⟨by decide, by decide +kernel, fun v => ?_⟩
  rw [numberField_least]
  exact nofun

example : numberField "-9223372036854775807 - 1".toList = .ok least := by cbv

end FlagSurvey.Definition
