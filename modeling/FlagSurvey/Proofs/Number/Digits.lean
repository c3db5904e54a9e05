import Mathlib.Data.Nat.Digits.Lemmas
import Mathlib.Tactic.Ring
import FlagSurvey.Number.Bounded

/-! Numbers and the digits that write them. A run of digits reads as the number whose places they are, the
greatest first, and as no other; the decimal text of a number reads as that number. -/
namespace FlagSurvey.Number

/-- The text has a digit for each place of the number, the greatest place first, and at least one. -/
def Writes (base : Nat) (text : List Char) (n : Nat) : Prop :=
  text ≠ [] ∧ ∃ places : List Nat, text.map (digit? base) = places.map some ∧ n = Nat.ofDigits base places.reverse

theorem ofDigits_reverse_cons (base value d : Nat) (places : List Nat) :
    value * base ^ (d :: places).length + Nat.ofDigits base (d :: places).reverse =
      (value * base + d) * base ^ places.length + Nat.ofDigits base places.reverse := by
  rw [List.reverse_cons, Nat.ofDigits_append, Nat.ofDigits_singleton, List.length_reverse,
    List.length_cons]
  ring

theorem readFrom_eq_some_iff {base value n : Nat} {text : List Char} :
    readFrom base value text = some n ↔ ∃ places : List Nat, text.map (digit? base) = places.map some ∧
      n = value * base ^ places.length + Nat.ofDigits base places.reverse := by
  induction text generalizing value with
  | nil =>
    simp only [readFrom, Option.some.injEq, List.map_nil, List.nil_eq, List.map_eq_nil_iff,
      exists_eq_left, List.length_nil, List.reverse_nil, Nat.ofDigits_nil, pow_zero, mul_one, add_zero]
    exact eq_comm
  | cons c rest ih =>
    rw [readFrom]
    constructor
    · intro h
      cases read : digit? base c with
      | none => simp [read] at h
      | some d =>
        rw [read] at h
        obtain ⟨places, same, rfl⟩ := ih.mp h
        exact ⟨d :: places, by rw [List.map_cons, List.map_cons, read, same],
          (ofDigits_reverse_cons base value d places).symm⟩
    · rintro ⟨places, same, rfl⟩
      cases places with
      | nil => contradiction
      | cons d places =>
        obtain ⟨read, others⟩ := List.cons.inj same
        rw [read]
        exact ih.mpr ⟨places, others, ofDigits_reverse_cons base value d places⟩

theorem readNat?_eq_some_iff {base n : Nat} {text : List Char} :
    readNat? base text = some n ↔ Writes base text n := by
  cases text with
  | nil => simp [readNat?, Writes]
  | cons c rest =>
    rw [readNat?, readFrom_eq_some_iff, Writes]
    · simp
    · exact nofun

theorem Writes.exists_digit {base n : Nat} {text : List Char} (h : Writes base text n) {c : Char}
    (mem : c ∈ text) : ∃ d, digit? base c = some d := by
  obtain ⟨-, places, same, -⟩ := h
  have read := List.mem_map_of_mem (f := digit? base) mem
  rw [same] at read
  obtain ⟨d, -, eq⟩ := List.mem_map.mp read
  exact ⟨d, eq.symm⟩

theorem digit?_digitChar {d : Nat} (h : d < 10) : digit? 10 d.digitChar = some d := by
  revert d
  decide

theorem readFrom_decimal (n : Nat) : readFrom 10 0 (decimal n) = some n := by
  induction n using Nat.strong_induction_on with
  | _ n ih =>
    rw [decimal]
    by_cases small : n < 10
    · rw [Nat.toDigits_of_lt_base small, readFrom, digit?_digitChar small]
      simp [readFrom]
    · rw [Nat.toDigits_of_base_le (by decide) (Nat.not_lt.mp small), readFrom_append]
      have front : readFrom 10 0 (Nat.toDigits 10 (n / 10)) = some (n / 10) := ih _ (by omega)
      rw [front, Option.bind_some, readFrom, digit?_digitChar (Nat.mod_lt n (by decide))]
      simp only [readFrom, Option.some.injEq]
      omega

theorem decimal_ne_nil (n : Nat) : decimal n ≠ [] := Nat.toDigits_ne_nil

theorem readNat?_decimal (n : Nat) : readNat? 10 (decimal n) = some n := by
  rw [← readFrom_decimal n]
  cases digits : decimal n with
  | nil => exact absurd digits (decimal_ne_nil n)
  | cons c rest => rfl

theorem isDigit_of_mem_decimal {n : Nat} {c : Char} (h : c ∈ decimal n) : isDigit c = true := by
  have digit := Nat.isDigit_of_mem_toDigits (by decide) (Nat.le_refl 10) h
  simpa [Char.isDigit, isDigit, Char.le_def] using digit

theorem ne_of_isDigit {c d : Char} (h : isDigit c = true) (other : isDigit d = false) : c ≠ d := by
  rintro rfl
  exact Bool.false_ne_true (other.symm.trans h)

theorem eq_minus_or_isDigit_of_mem_decimalInt {v : Int} {c : Char} (h : c ∈ decimalInt v) :
    c = '-' ∨ isDigit c = true := by
  rw [decimalInt] at h
  split at h
  · rcases List.mem_cons.mp h with rfl | mem
    · exact .inl rfl
    · exact .inr (isDigit_of_mem_decimal mem)
  · exact .inr (isDigit_of_mem_decimal h)

theorem readSigned?_decimalText {v : Int} (fits : Fits v) : readSigned? (decimalText v) = some v := by
  rw [readSigned?, decimalText, String.toList_ofList, decimalInt]
  by_cases negative : v < 0
  · have magnitude : -(v.natAbs : Int) = v := by omega
    rw [if_pos negative, takeSign]
    simp only [readNat?_decimal, Option.bind_some, if_true, magnitude]
    exact checked_eq_some_iff.mpr ⟨rfl, fits⟩
  · have magnitude : (v.natAbs : Int) = v := by omega
    have unsigned : takeSign (decimal v.natAbs) = (false, decimal v.natAbs) := by
      cases digits : decimal v.natAbs with
      | nil => rfl
      | cons c rest =>
        have first : isDigit c = true := isDigit_of_mem_decimal (digits ▸ List.mem_cons_self)
        unfold takeSign
        split
        · next same => exact absurd (List.cons.inj same).1 (ne_of_isDigit first (by decide))
        · next same => exact absurd (List.cons.inj same).1 (ne_of_isDigit first (by decide))
        · rfl
    rw [if_neg negative, unsigned]
    simp only [readNat?_decimal, Option.bind_some, Bool.false_eq_true, if_false, magnitude]
    exact checked_eq_some_iff.mpr ⟨rfl, fits⟩

end FlagSurvey.Number
