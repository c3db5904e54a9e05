import FlagSurvey.Text.Utf8

/-! Texts as their octets in UTF-8, each octet as the character of its number. A character below 128 is
one octet and itself, and any other is octets of 128 and above; so a reader that looks for characters below
128 alone finds them in the octets where it finds them in the text. -/
namespace FlagSurvey.Text

def octetsOfChar (c : Char) : List Char := (String.utf8EncodeChar c).map fun b => Char.ofNat b.toNat

def octets (text : List Char) : List Char :=
  (encode (String.ofList text)).map fun b => Char.ofNat b.toNat

theorem toList_loop (array : ByteArray) (i : Nat) (done : List UInt8) :
    ByteArray.toList.loop array i done = done.reverse ++ array.data.toList.drop i := by
  fun_induction ByteArray.toList.loop array i done with
  | case1 i done h ih =>
    have inside : i < array.data.toList.length := h
    have here : array.get! i = array.data.toList[i] := by
      simp [ByteArray.get!, getElem!_pos array.data i h]
    rw [ih, List.drop_eq_getElem_cons inside, List.reverse_cons, List.append_assoc, here]
    rfl
  | case2 i done h =>
    have outside : array.data.toList.length ≤ i := Nat.le_of_not_lt h
    rw [List.drop_eq_nil_of_le outside, List.append_nil]

theorem octets_eq_flatMap (text : List Char) : octets text = text.flatMap octetsOfChar := by
  have bytes : encode (String.ofList text) = text.flatMap String.utf8EncodeChar := by
    rw [encode, ByteArray.toList, toList_loop, String.toUTF8_eq_toByteArray, String.toByteArray_ofList,
      List.utf8Encode, List.data_toByteArray]
    rfl
  rw [octets, bytes, List.map_flatMap]
  rfl

@[simp] theorem octets_nil : octets [] = [] := octets_eq_flatMap []

@[simp] theorem octets_cons (c : Char) (text : List Char) :
    octets (c :: text) = octetsOfChar c ++ octets text := by
  rw [octets_eq_flatMap, octets_eq_flatMap, List.flatMap_cons]

@[simp] theorem octets_append (first second : List Char) :
    octets (first ++ second) = octets first ++ octets second := by
  rw [octets_eq_flatMap, List.flatMap_append, ← octets_eq_flatMap, ← octets_eq_flatMap]

theorem octetsOfChar_of_lt {c : Char} (h : c.toNat < 128) : octetsOfChar c = [c] := by
  have single : String.utf8EncodeChar c = [UInt8.ofNat c.toNat] := if_pos (Nat.le_of_lt_succ h)
  have small : c.toNat < 256 := by omega
  rw [octetsOfChar, single, List.map_singleton, UInt8.toNat_ofNat_of_lt' small, Char.ofNat_toNat]

theorem octets_cons_of_lt {c : Char} (h : c.toNat < 128) (text : List Char) :
    octets (c :: text) = c :: octets text := by
  rw [octets_cons, octetsOfChar_of_lt h, List.singleton_append]

theorem octets_of_lt {text : List Char} (low : ∀ c ∈ text, c.toNat < 128) : octets text = text := by
  induction text with
  | nil => exact octets_nil
  | cons c rest ih =>
    rw [octets_cons_of_lt (low c List.mem_cons_self), ih fun d mem => low d (List.mem_cons_of_mem _ mem)]

theorem octetsOfChar_ne_nil (c : Char) : octetsOfChar c ≠ [] := by
  simp only [octetsOfChar, ne_eq, List.map_eq_nil_iff, String.utf8EncodeChar]
  repeat' split
  all_goals exact nofun

theorem toNat_ofNat_of_lt {n : Nat} (small : n < 256) : (Char.ofNat n).toNat = n := by
  have valid : n.isValidChar := .inl (by omega)
  rw [Char.ofNat, dif_pos valid]
  rfl

theorem le_of_mem_octetsOfChar {c d : Char} (h : 128 ≤ c.toNat) (mem : d ∈ octetsOfChar c) :
    128 ≤ d.toNat := by
  have octet (n : Nat) (high : 128 ≤ n) (small : n < 256) :
      128 ≤ (Char.ofNat (UInt8.ofNat n).toNat).toNat := by
    rwa [UInt8.toNat_ofNat_of_lt' small, toNat_ofNat_of_lt small]
  have above : ¬c.val.toNat ≤ 127 := Nat.not_le.mpr h
  simp only [octetsOfChar, String.utf8EncodeChar, if_neg above] at mem
  repeat' split at mem
  all_goals
    simp only [List.map_cons, List.map_nil, List.mem_cons, List.not_mem_nil, or_false] at mem
  · rcases mem with rfl | rfl <;> exact octet _ (by omega) (by omega)
  · rcases mem with rfl | rfl | rfl <;> exact octet _ (by omega) (by omega)
  · rcases mem with rfl | rfl | rfl | rfl <;> exact octet _ (by omega) (by omega)

theorem ne_of_le {c d : Char} (low : d.toNat < 128) (high : 128 ≤ c.toNat) : c ≠ d := by
  rintro rfl
  omega

/-- The characters of the kind have one octet each. -/
def Low (kind : Char → Bool) : Prop := ∀ c, kind c = true → c.toNat < 128

namespace Low

variable {kind : Char → Bool}

theorem not_of_le (low : Low kind) {c : Char} (high : 128 ≤ c.toNat) : kind c = false :=
  Bool.eq_false_iff.mpr fun holds => Nat.not_lt.mpr high (low c holds)

theorem or {other : Char → Bool} (low : Low kind) (also : Low other) : Low fun c => kind c || other c := by
  intro c holds
  exact (Bool.or_eq_true_iff.mp holds).elim (low c) (also c)

theorem beq {d : Char} (small : d.toNat < 128) : Low (· == d) := by
  intro c holds
  rwa [eq_of_beq holds]

end Low

variable {p : Char → Bool}

theorem exists_octets_cons (low : Low p) {c : Char} (h : ¬c.toNat < 128) :
    p c = false ∧ ∃ d more, octetsOfChar c = d :: more ∧ p d = false := by
  have high := Nat.not_lt.mp h
  obtain ⟨d, more, shape⟩ := List.exists_cons_of_ne_nil (octetsOfChar_ne_nil c)
  have first : d ∈ octetsOfChar c := shape ▸ List.mem_cons_self
  exact ⟨low.not_of_le high, d, more, shape, low.not_of_le (le_of_mem_octetsOfChar high first)⟩

theorem takeWhile_octets (low : Low p) (text : List Char) :
    (octets text).takeWhile p = text.takeWhile p := by
  induction text with
  | nil => simp
  | cons c rest ih =>
    by_cases h : c.toNat < 128
    · rw [octets_cons_of_lt h, List.takeWhile_cons, List.takeWhile_cons, ih]
    · obtain ⟨outside, d, more, shape, first⟩ := exists_octets_cons low h
      simp [shape, first, outside]

theorem dropWhile_octets (low : Low p) (text : List Char) :
    (octets text).dropWhile p = octets (text.dropWhile p) := by
  induction text with
  | nil => simp
  | cons c rest ih =>
    by_cases h : c.toNat < 128
    · rw [octets_cons_of_lt h, List.dropWhile_cons, List.dropWhile_cons, ih]
      split
      · rfl
      · rw [octets_cons_of_lt h]
    · obtain ⟨outside, d, more, shape, first⟩ := exists_octets_cons low h
      simp [shape, first, outside]

end FlagSurvey.Text
