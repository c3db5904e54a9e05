import FlagSurvey.Proofs.Definition.Nesting
import FlagSurvey.Proofs.Text.Boundary

/-! Bodies and fields over octets. In a literal the scans pass over what follows a backslash, which in the
octets of a text may be the first octet of a longer character, and go on from within that character. They
stop where they stop in the text even so: no later octet of a character is a mark, a parenthesis or a comma. -/
namespace FlagSurvey.Definition

open Text

namespace Mode

def Low : Mode → Prop
  | .code => True
  | .inside mark => mark.toNat < 128
  | .escaped mark => mark.toNat < 128

def settled : Mode → Mode
  | .escaped mark => .inside mark
  | mode => mode

variable {mode : Mode}

theorem low_code : Low .code := trivial

theorem Low.next (h : mode.Low) (c : Char) : (mode.next c).Low := by
  cases mode with
  | code =>
    simp only [Mode.next]
    split
    · next marked =>
      rcases isMark_iff.mp marked with rfl | rfl <;> exact show _ < _ by decide
    · trivial
  | inside mark =>
    simp only [Mode.next]
    repeat' split
    all_goals first | exact h | trivial
  | escaped mark => exact h

theorem Low.settled (h : mode.Low) : mode.settled.Low := by
  cases mode <;> exact h

theorem settled_settled (mode : Mode) : mode.settled.settled = mode.settled := by
  cases mode <;> rfl

theorem next_eq_settled (h : mode.Low) {c : Char} (high : 128 ≤ c.toNat) : mode.next c = mode.settled := by
  have apart {d : Char} (low : d.toNat < 128) : c ≠ d := ne_of_le low high
  cases mode with
  | code => exact next_code_of_not_mark (by simp [isMark, apart])
  | inside mark => simp [Mode.next, Mode.settled, apart, apart h]
  | escaped mark => rfl

end Mode

variable {mode : Mode} {stop : Char} {depth : Nat}

theorem depthAfter_of_le {c : Char} (high : 128 ≤ c.toNat) : depthAfter mode depth c = depth := by
  have opening : c ≠ '(' := ne_of_le (by decide) high
  have closing : c ≠ ')' := ne_of_le (by decide) high
  cases mode <;> simp [depthAfter, opening, closing]

theorem passes_high (low : mode.Low) (stops : stop.toNat < 128) {text : List Char} (some_text : text ≠ [])
    (high : ∀ c ∈ text, 128 ≤ c.toNat) : Passes stop mode depth text mode.settled depth := by
  induction text generalizing mode with
  | nil => exact absurd rfl some_text
  | cons c rest ih =>
    have first := high c List.mem_cons_self
    refine .cons ?_ ?_
    · rintro ⟨-, -, rfl⟩
      omega
    · rw [Mode.next_eq_settled low first, depthAfter_of_le first]
      by_cases ended : rest = []
      · rw [ended]
        exact .nil _ _
      · have later := ih low.settled ended fun d hd => high d (List.mem_cons_of_mem _ hd)
        rwa [mode.settled_settled] at later

/-- The octets of a character lead where the character leads. -/
theorem passes_octetsOfChar (low : mode.Low) (stops : stop.toNat < 128) {c : Char}
    (on : ¬(mode = .code ∧ depth = 0 ∧ c = stop)) :
    Passes stop mode depth (octetsOfChar c) (mode.next c) (depthAfter mode depth c) := by
  by_cases h : c.toNat < 128
  · rw [octetsOfChar_of_lt h]
    exact .cons on (.nil _ _)
  · have high := Nat.not_lt.mp h
    rw [Mode.next_eq_settled low high, depthAfter_of_le high]
    exact passes_high low stops (octetsOfChar_ne_nil c) fun d hd => le_of_mem_octetsOfChar high hd

theorem leadIn_octets (text : List Char) (fields : List (List Char)) :
    leadIn (octets text) (fields.map octets) = (leadIn text fields).map octets := by
  cases fields <;> simp [leadIn]

theorem splitOn_octets (low : mode.Low) (depth : Nat) (text : List Char) :
    splitOn mode depth (octets text) = (splitOn mode depth text).map octets := by
  induction text generalizing mode depth with
  | nil => simp [splitOn]
  | cons c rest ih =>
    by_cases cut : mode = .code ∧ depth = 0 ∧ c = ','
    · have single : octets (c :: rest) = c :: octets rest :=
        octets_cons_of_lt (by rw [cut.2.2]; decide) rest
      rw [single, splitOn, if_pos cut, splitOn, if_pos cut, ih Mode.low_code, List.map_cons,
        octets_nil]
    · rw [octets_cons, (passes_octetsOfChar low (by decide) cut).splitOn_eq, ih (low.next c), splitOn_cons cut,
        ← leadIn_octets]
      simp

theorem bodyOn_octets (low : mode.Low) (depth : Nat) (text : List Char) :
    bodyOn mode depth (octets text) = (bodyOn mode depth text).map (Prod.map octets octets) := by
  induction text generalizing mode depth with
  | nil => simp [bodyOn]
  | cons c rest ih =>
    by_cases closed : mode = .code ∧ depth = 0 ∧ c = ')'
    · have single : octets (c :: rest) = c :: octets rest :=
        octets_cons_of_lt (by rw [closed.2.2]; decide) rest
      rw [single, bodyOn, if_pos closed, bodyOn, if_pos closed, Option.map_some, Prod.map_apply,
        octets_nil]
    · rw [octets_cons, (passes_octetsOfChar low (by decide) closed).bodyOn_eq, ih (low.next c), bodyOn_cons closed]
      cases bodyOn (mode.next c) (depthAfter mode depth c) rest <;> simp [grow]

theorem splitFields_octets (body : List Char) :
    splitFields (octets body) = (splitFields body).map octets := splitOn_octets Mode.low_code 0 body

theorem body?_octets (text : List Char) :
    body? (octets text) = (body? text).map (Prod.map octets octets) := bodyOn_octets Mode.low_code 0 text

theorem Mode.settled_ne_code (inside : mode ≠ .code) : mode.settled ≠ .code := by
  cases mode with
  | code => exact absurd rfl inside
  | inside mark => exact nofun
  | escaped mark => exact nofun

theorem literalLength_cons_of_le (low : mode.Low) (inside : mode ≠ .code) {c : Char} (high : 128 ≤ c.toNat)
    (rest : List Char) : literalLength mode (c :: rest) = literalLength mode.settled rest + 1 := by
  have goes := Mode.next_eq_settled low high
  have still : mode.next c ≠ .code := goes ▸ Mode.settled_ne_code inside
  rw [literalLength_cons still, goes]

theorem literalLength_append_of_le (low : mode.Low) (inside : mode ≠ .code) {high : List Char}
    (some_char : high ≠ []) (above : ∀ c ∈ high, 128 ≤ c.toNat) (rest : List Char) :
    literalLength mode (high ++ rest) = high.length + literalLength mode.settled rest := by
  induction high generalizing mode with
  | nil => exact absurd rfl some_char
  | cons c more ih =>
    rw [List.cons_append, literalLength_cons_of_le low inside (above c List.mem_cons_self), List.length_cons]
    by_cases last : more = []
    · simp [last, Nat.add_comm]
    · have later := ih low.settled (Mode.settled_ne_code inside) last
        fun d mem => above d (List.mem_cons_of_mem _ mem)
      rw [later, mode.settled_settled]
      omega

theorem literalLength_octets (low : mode.Low) (inside : mode ≠ .code) (rest : List Char) :
    literalLength mode (octets rest) = byteLength (rest.take (literalLength mode rest)) := by
  induction rest generalizing mode with
  | nil => simp [literalLength]
  | cons c rest ih =>
    by_cases small : c.toNat < 128
    · rw [octets_cons_of_lt small]
      by_cases ends : mode.next c = .code
      · rw [literalLength_ended ends, literalLength_ended ends, List.take_succ_cons, List.take_zero,
          byteLength_cons, utf8Size_of_lt small, byteLength_nil]
      · rw [literalLength_cons ends, literalLength_cons ends, List.take_succ_cons, byteLength_cons,
          utf8Size_of_lt small, ih (low.next c) ends, Nat.add_comm]
    · have high := Nat.not_lt.mp small
      have above : ∀ octet ∈ octetsOfChar c, 128 ≤ octet.toNat := fun _ mem => le_of_mem_octetsOfChar high mem
      rw [octets_cons, literalLength_append_of_le low inside (octetsOfChar_ne_nil c) above,
        literalLength_cons_of_le low inside high, List.take_succ_cons, byteLength_cons, length_octetsOfChar,
        ih low.settled (Mode.settled_ne_code inside)]

end FlagSurvey.Definition
