import Mathlib.Data.List.TakeWhile
import FlagSurvey.Definition.Token
import FlagSurvey.Proofs.Number.Digits

/-! Texts as tokens. A text is cut into tokens in one way only: each is the longest that begins where it
does, and between two of them there is nothing or a gap. The scanner finds that cut where there is one,
and only there. -/
namespace FlagSurvey.Definition

open Number

inductive Denotes : List Char → Nat → Prop where
  | decimal {digits : List Char} {n : Nat} (written : Writes 10 digits n) : Denotes digits n
  | hexadecimal {mark : Char} {digits : List Char} {n : Nat} (marked : mark = 'x' ∨ mark = 'X')
    (written : Writes 16 digits n) : Denotes ('0' :: mark :: digits) n

/-- The text is a literal of the value: digits and suffixes, and no more than the greatest signed integer of
sixty-four bits. -/
def IsLiteral (text : List Char) (value : Int) : Prop :=
  ∃ (digits suffixes : List Char) (n : Nat), text = digits ++ suffixes ∧
    (∀ c ∈ suffixes, Token.isSuffix c = true) ∧ Denotes digits n ∧ value = n ∧ value ≤ greatest

def Bounds (kind : Char → Bool) (text : List Char) : Prop := ∀ c ∈ text.head?, kind c = false

/-- The text is cut into the tokens, each of them the longest that begins where it does. -/
inductive Lexes : List Char → List Token → Prop where
  | nil : Lexes [] []
  | gap {c : Char} {rest : List Char} {tokens : List Token} (between : Token.isGap c = true)
    (later : Lexes rest tokens) : Lexes (c :: rest) tokens
  | sign {c : Char} {token : Token} {rest : List Char} {tokens : List Token}
    (stands : Token.sign? c = some token) (later : Lexes rest tokens) :
    Lexes (c :: rest) (token :: tokens)
  | literal {c : Char} {run rest : List Char} {value : Int} {tokens : List Token}
    (first : isDigit c = true) (inside : ∀ d ∈ run, isAlphanumeric d = true)
    (longest : Bounds isAlphanumeric rest) (worth : IsLiteral (c :: run) value)
    (later : Lexes rest tokens) : Lexes (c :: (run ++ rest)) (.literal value :: tokens)
  | word {c : Char} {run rest : List Char} {tokens : List Token} (first : Token.isWordStart c = true)
    (inside : ∀ d ∈ run, Token.isWordPart d = true) (longest : Bounds Token.isWordPart rest)
    (later : Lexes rest tokens) :
    Lexes (c :: (run ++ rest)) (.word (String.ofList (c :: run)) :: tokens)

namespace Token

theorem eq_append_of_dropSuffixes (text : List Char) :
    ∃ suffixes, text = (text.reverse.dropWhile isSuffix).reverse ++ suffixes ∧
      ∀ c ∈ suffixes, isSuffix c = true := by
  refine ⟨(text.reverse.takeWhile isSuffix).reverse, ?_, fun c mem => ?_⟩
  · rw [← List.reverse_append, List.takeWhile_append_dropWhile, List.reverse_reverse]
  · exact List.mem_takeWhile_imp (List.mem_reverse.mp mem)

/-- Digits end in no suffix, so exactly the suffixes after them are dropped. -/
theorem dropSuffixes_append {digits suffixes : List Char} (all : ∀ c ∈ suffixes, isSuffix c = true)
    (last : ∀ c ∈ digits.getLast?, isSuffix c = false) :
    ((digits ++ suffixes).reverse.dropWhile isSuffix).reverse = digits := by
  rw [List.reverse_append, List.dropWhile_append_of_pos (by simpa using all)]
  cases ended : digits.reverse with
  | nil => simpa using congrArg List.reverse ended
  | cons c rest =>
    have kept : isSuffix c = false := last c (by rw [← List.head?_reverse, ended]; rfl)
    rw [List.dropWhile_cons_of_neg (by simp [kept]), ← ended, List.reverse_reverse]

theorem not_isSuffix_of_writes {base n : Nat} {digits : List Char} (bases : base = 10 ∨ base = 16)
    (h : Writes base digits n) : ∀ c ∈ digits, isSuffix c = false := by
  intro c mem
  obtain ⟨d, read⟩ := h.exists_digit mem
  cases suffix : isSuffix c with
  | false => rfl
  | true =>
    simp only [isSuffix, Bool.or_eq_true, beq_iff_eq] at suffix
    rcases bases with rfl | rfl <;> rcases suffix with ((rfl | rfl) | rfl) | rfl <;> contradiction

theorem not_isSuffix_of_denotes {digits : List Char} {n : Nat} (h : Denotes digits n) :
    ∀ c ∈ digits.getLast?, isSuffix c = false := by
  intro c last
  cases h with
  | decimal written => exact not_isSuffix_of_writes (.inl rfl) written c (List.mem_of_getLast? last)
  | @hexadecimal mark digits n marked written =>
    cases digits with
    | nil => exact absurd rfl written.1
    | cons d rest =>
      rw [List.getLast?_cons_cons, List.getLast?_cons_cons] at last
      exact not_isSuffix_of_writes (.inr rfl) written c (List.mem_of_getLast? last)

theorem not_writes_marked {mark : Char} {digits : List Char} {n : Nat} (marked : mark = 'x' ∨ mark = 'X') :
    ¬Writes 10 ('0' :: mark :: digits) n := by
  intro h
  obtain ⟨d, read⟩ := h.exists_digit (List.mem_cons_of_mem _ List.mem_cons_self)
  rcases marked with rfl | rfl <;> contradiction

theorem denotes_iff {digits : List Char} {n : Nat} : (match digits with
    | '0' :: 'x' :: rest => readNat? 16 rest
    | '0' :: 'X' :: rest => readNat? 16 rest
    | _ => readNat? 10 digits) = some n ↔ Denotes digits n := by
  constructor
  · intro h
    split at h
    · exact .hexadecimal (.inl rfl) (readNat?_eq_some_iff.mp h)
    · exact .hexadecimal (.inr rfl) (readNat?_eq_some_iff.mp h)
    · exact .decimal (readNat?_eq_some_iff.mp h)
  · intro h
    cases h with
    | decimal written =>
      split
      · exact absurd written (not_writes_marked (.inl rfl))
      · exact absurd written (not_writes_marked (.inr rfl))
      · exact readNat?_eq_some_iff.mpr written
    | hexadecimal marked written =>
      rcases marked with rfl | rfl <;> exact readNat?_eq_some_iff.mpr written

theorem literalValue?_eq_some_iff {text : List Char} {value : Int} :
    literalValue? text = some value ↔ IsLiteral text value := by
  have range (n : Nat) (v : Int) : checked n = some v ↔ v = n ∧ v ≤ greatest := by
    rw [checked_eq_some_iff, Fits, least]
    omega
  rw [literalValue?, Option.bind_eq_some_iff]
  simp only [range]
  constructor
  · rintro ⟨n, denotes, worth⟩
    obtain ⟨suffixes, split, all⟩ := eq_append_of_dropSuffixes text
    exact ⟨_, suffixes, n, split, all, denotes_iff.mp denotes, worth⟩
  · rintro ⟨digits, suffixes, n, rfl, all, denotes, worth⟩
    rw [dropSuffixes_append all (not_isSuffix_of_denotes denotes)]
    exact ⟨n, denotes_iff.mpr denotes, worth⟩

section

variable {kind : Char → Bool} {run rest : List Char}

theorem takeWhile_append (inside : ∀ d ∈ run, kind d = true) (longest : Bounds kind rest) :
    (run ++ rest).takeWhile kind = run := by
  rw [List.takeWhile_append_of_pos inside]
  cases rest with
  | nil => exact List.append_nil run
  | cons c more =>
    have ended : kind c = false := longest c rfl
    rw [List.takeWhile_cons_of_neg (by simp [ended]), List.append_nil]

theorem dropWhile_append (inside : ∀ d ∈ run, kind d = true) (longest : Bounds kind rest) :
    (run ++ rest).dropWhile kind = rest := by
  have whole := List.takeWhile_append_dropWhile (p := kind) (l := run ++ rest)
  rw [takeWhile_append inside longest] at whole
  exact List.append_cancel_left whole

theorem bounds_dropWhile (kind : Char → Bool) (text : List Char) :
    Bounds kind (text.dropWhile kind) := by
  intro c first
  have stopped := List.head?_dropWhile_not kind text
  rw [first] at stopped
  exact stopped

end

section

variable {c : Char} {rest : List Char}

theorem isGap_of_sign? {token : Token} (h : sign? c = some token) : isGap c = false := by
  unfold sign? at h
  split at h <;> first | rfl | cases h

theorem apart_of_kind {kind : Char → Bool}
    (outside : [' ', '\t', '\n', '\r', '*', '+', '-', '(', ')'].any kind = false)
    (h : kind c = true) : isGap c = false ∧ sign? c = none := by
  simp only [List.any_eq_false] at outside
  have apart {d : Char} (mem : d ∈ [' ', '\t', '\n', '\r', '*', '+', '-', '(', ')']) : c ≠ d := by
    rintro rfl
    exact outside c mem h
  constructor
  · simp [isGap, apart]
  · unfold sign?
    split <;> first | rfl | exact absurd rfl (apart (by simp))

theorem apart_of_isDigit (h : isDigit c = true) : isGap c = false ∧ sign? c = none :=
  apart_of_kind (by decide) h

theorem apart_of_isWordStart (h : isWordStart c = true) : isGap c = false ∧ sign? c = none :=
  apart_of_kind (by decide) h

theorem not_isDigit_of_isWordStart (h : isWordStart c = true) : isDigit c = false := by
  simp only [isWordStart, isLetter, isDigit, Bool.or_eq_true, Bool.and_eq_true, decide_eq_true_eq,
    beq_iff_eq, Char.le_def, UInt32.le_iff_toNat_le, Bool.eq_false_iff, ne_eq, Char.ext_iff,
    ← UInt32.toNat_inj] at h ⊢
  simp at h ⊢
  omega

theorem scan_gap (h : isGap c = true) : scan (c :: rest) = scan rest := by
  rw [scan, if_pos h]

theorem scan_sign {token : Token} (h : sign? c = some token) :
    scan (c :: rest) = (token :: ·) <$> scan rest := by
  rw [scan, if_neg (by simp [isGap_of_sign? h])]
  simp only [h]

theorem scan_literal {value : Int} (h : isDigit c = true)
    (worth : literalValue? (c :: rest.takeWhile isAlphanumeric) = some value) :
    scan (c :: rest) = (literal value :: ·) <$> scan (rest.dropWhile isAlphanumeric) := by
  obtain ⟨apart, unsigned⟩ := apart_of_isDigit h
  rw [scan, if_neg (by simp [apart])]
  simp only [unsigned, h, if_true, worth]

theorem scan_word (h : isWordStart c = true) : scan (c :: rest) =
    (word (String.ofList (c :: rest.takeWhile isWordPart)) :: ·) <$> scan (rest.dropWhile isWordPart) := by
  obtain ⟨apart, unsigned⟩ := apart_of_isWordStart h
  rw [scan, if_neg (by simp [apart])]
  simp only [unsigned, not_isDigit_of_isWordStart h, h, Bool.false_eq_true, if_false, if_true]

end

theorem cons_map_eq_ok_iff {token : Token} {scanned : Except ExpressionFault (List Token)}
    {tokens : List Token} :
    (token :: ·) <$> scanned = .ok tokens ↔ ∃ later, scanned = .ok later ∧ token :: later = tokens := by
  cases scanned with
  | ok later => exact ⟨fun h => ⟨later, rfl, Except.ok.inj h⟩, fun ⟨_, h, eq⟩ => by cases h; cases eq; rfl⟩
  | error fault => exact ⟨nofun, nofun⟩

theorem lexes_of_scan {text : List Char} {tokens : List Token} (h : scan text = .ok tokens) :
    Lexes text tokens := by
  fun_induction scan text generalizing tokens with
  | case1 =>
    cases h
    exact .nil
  | case2 c rest gap ih => exact .gap gap (ih h)
  | case3 c rest _ token stands ih =>
    obtain ⟨later, scanned, rfl⟩ := cons_map_eq_ok_iff.mp h
    exact .sign stands (ih scanned)
  | case4 c rest _ _ digit text value worth =>
    rename_i ih
    obtain ⟨later, scanned, rfl⟩ := cons_map_eq_ok_iff.mp h
    have inside : ∀ d ∈ rest.takeWhile isAlphanumeric, isAlphanumeric d = true :=
      fun d mem => List.mem_takeWhile_imp mem
    have cut := Lexes.literal digit inside (bounds_dropWhile isAlphanumeric rest)
      (literalValue?_eq_some_iff.mp worth) (ih scanned)
    rwa [List.takeWhile_append_dropWhile] at cut
  | case5 => cases h
  | case6 c rest _ _ _ start name =>
    rename_i ih
    obtain ⟨later, scanned, rfl⟩ := cons_map_eq_ok_iff.mp h
    have inside : ∀ d ∈ rest.takeWhile isWordPart, isWordPart d = true :=
      fun d mem => List.mem_takeWhile_imp mem
    have cut := Lexes.word start inside (bounds_dropWhile isWordPart rest) (ih scanned)
    rwa [List.takeWhile_append_dropWhile] at cut
  | case7 => cases h

theorem scan_of_lexes {text : List Char} {tokens : List Token} (h : Lexes text tokens) :
    scan text = .ok tokens := by
  induction h with
  | nil => rw [scan]
  | gap between _ ih => rw [scan_gap between, ih]
  | sign stands _ ih =>
    rw [scan_sign stands, ih]
    rfl
  | literal first inside longest worth _ ih =>
    rw [scan_literal first (by rwa [takeWhile_append inside longest, literalValue?_eq_some_iff]),
      dropWhile_append inside longest, ih]
    rfl
  | word first inside longest _ ih =>
    rw [scan_word first, takeWhile_append inside longest, dropWhile_append inside longest, ih]
    rfl

theorem scan_eq_ok_iff {text : List Char} {tokens : List Token} :
    scan text = .ok tokens ↔ Lexes text tokens := ⟨lexes_of_scan, scan_of_lexes⟩

end Token
end FlagSurvey.Definition
