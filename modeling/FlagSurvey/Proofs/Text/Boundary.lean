import FlagSurvey.Proofs.Text.Octets
import FlagSurvey.Text.Excerpt

/-! Where characters begin and end among the octets of a text. The first octet of a character goes on with
none before it and every later one does, so one octet tells whether a text may be cut before it. A piece
between two such places is made of whole characters. -/
namespace FlagSurvey.Text

def goesOn (octet : Char) : Bool := 128 ≤ octet.toNat && octet.toNat < 192

def isBoundary (text : List Char) (n : Nat) : Bool :=
  match (octets text)[n]? with
  | some octet => !goesOn octet
  | none => n == (octets text).length

/-- The characters between two places among the octets, if no character lies across them. -/
def piece? (text : List Char) (first last : Nat) : Option (List Char) :=
  if first ≤ last ∧ isBoundary text first = true ∧ isBoundary text last = true then
    some ((cut last text).drop (cut first text).length)
  else none

/-- The last place up to a given one at which the text may be cut, looked for from there backwards. -/
def lastBoundary (text : List Char) : Nat → Nat
  | 0 => 0
  | n + 1 => if isBoundary text (n + 1) then n + 1 else lastBoundary text n

theorem length_octetsOfChar (c : Char) : (octetsOfChar c).length = c.utf8Size := by
  rw [octetsOfChar, List.length_map, String.length_utf8EncodeChar]

theorem length_octets (text : List Char) : (octets text).length = byteLength text := by
  induction text with
  | nil => simp
  | cons c rest ih => rw [octets_cons, List.length_append, length_octetsOfChar, ih, byteLength_cons]

theorem byteLength_toList (text : String) : byteLength text.toList = text.utf8ByteSize := by
  have encoded : (encode text).length = text.utf8ByteSize := by
    rw [encode, ByteArray.toList, toList_loop]
    rfl
  rw [← length_octets, octets, List.length_map, String.ofList_toList, encoded]

@[simp] theorem byteLength_reverse (text : List Char) : byteLength text.reverse = byteLength text := by
  induction text with
  | nil => rfl
  | cons c rest ih => simp [ih, Nat.add_comm]

theorem utf8Size_of_lt {c : Char} (h : c.toNat < 128) : c.utf8Size = 1 := by
  rw [← length_octetsOfChar, octetsOfChar_of_lt h, List.length_singleton]

theorem goesOn_of_lt {c : Char} (h : c.toNat < 128) : goesOn c = false := by
  simp [goesOn]
  omega

theorem exists_octetsOfChar (c : Char) : ∃ first more, octetsOfChar c = first :: more ∧
    goesOn first = false ∧ ∀ octet ∈ more, goesOn octet = true := by
  have number (n : Nat) (small : n < 256) : (Char.ofNat (UInt8.ofNat n).toNat).toNat = n := by
    rw [UInt8.toNat_ofNat_of_lt' small, toNat_ofNat_of_lt small]
  have leads (n : Nat) (high : 192 ≤ n) (small : n < 256) :
      goesOn (Char.ofNat (UInt8.ofNat n).toNat) = false := by
    simp only [goesOn, number n small]
    simp
    omega
  have trails (n : Nat) : goesOn (Char.ofNat (UInt8.ofNat (n % 64 + 128)).toNat) = true := by
    simp only [goesOn, number (n % 64 + 128) (by omega)]
    simp
    omega
  by_cases low : c.toNat < 128
  · exact ⟨c, [], octetsOfChar_of_lt low, goesOn_of_lt low, nofun⟩
  · have above : ¬c.val.toNat ≤ 127 := fun le => low (Nat.lt_succ_of_le le)
    simp only [octetsOfChar, String.utf8EncodeChar, if_neg above]
    repeat' split
    all_goals
      refine ⟨_, _, rfl, leads _ (by omega) (by omega), ?_⟩
      simp only [List.map_cons, List.map_nil, List.forall_mem_cons, trails, true_and]
      exact nofun

@[simp] theorem isBoundary_zero (text : List Char) : isBoundary text 0 = true := by
  cases text with
  | nil => simp [isBoundary]
  | cons c rest =>
    obtain ⟨first, more, shape, leads, -⟩ := exists_octetsOfChar c
    simp [isBoundary, shape, leads]

theorem isBoundary_cons {c : Char} {rest : List Char} {n : Nat} (some_octet : 0 < n) :
    isBoundary (c :: rest) n = true ↔ c.utf8Size ≤ n ∧ isBoundary rest (n - c.utf8Size) = true := by
  have size := length_octetsOfChar c
  rcases Nat.lt_or_ge n c.utf8Size with within | behind
  · obtain ⟨first, more, shape, -, trail⟩ := exists_octetsOfChar c
    obtain ⟨m, rfl⟩ : ∃ m, n = m + 1 := ⟨n - 1, by omega⟩
    have inside : m < more.length := by
      rw [shape, List.length_cons] at size
      omega
    have here : (octets (c :: rest))[m + 1]? = some more[m] := by
      rw [octets_cons, shape, List.cons_append, List.getElem?_cons_succ, List.getElem?_append_left inside,
        List.getElem?_eq_getElem inside]
    have outside : ¬c.utf8Size ≤ m + 1 := Nat.not_le.mpr within
    simp only [isBoundary, here, trail _ (List.getElem_mem inside), outside, false_and]
    decide
  · have here : (octets (c :: rest))[n]? = (octets rest)[n - c.utf8Size]? := by
      rw [octets_cons, List.getElem?_append_right (by omega), size]
    have whole : (octets (c :: rest)).length = c.utf8Size + (octets rest).length := by
      rw [octets_cons, List.length_append, size]
    simp only [isBoundary, here, behind, true_and]
    cases (octets rest)[n - c.utf8Size]? with
    | some octet => rfl
    | none =>
      simp only [beq_iff_eq, whole]
      omega

theorem isBoundary_iff {text : List Char} {n : Nat} :
    isBoundary text n = true ↔ ∃ before after, text = before ++ after ∧ byteLength before = n := by
  induction text generalizing n with
  | nil =>
    constructor
    · intro ends
      have none : n = 0 := by simpa [isBoundary] using ends
      exact ⟨[], [], rfl, none.symm⟩
    · rintro ⟨before, after, shape, rfl⟩
      obtain ⟨rfl, rfl⟩ := List.append_eq_nil_iff.mp shape.symm
      exact isBoundary_zero []
  | cons c rest ih =>
    rcases Nat.eq_zero_or_pos n with rfl | some_octet
    · simp only [isBoundary_zero, true_iff]
      exact ⟨[], c :: rest, rfl, rfl⟩
    · rw [isBoundary_cons some_octet, ih]
      constructor
      · rintro ⟨fits, before, after, rfl, size⟩
        exact ⟨c :: before, after, rfl, by rw [byteLength_cons, size]; omega⟩
      · rintro ⟨before, after, shape, size⟩
        cases before with
        | nil =>
          rw [byteLength_nil] at size
          omega
        | cons d before =>
          obtain ⟨rfl, rfl⟩ := List.cons.inj shape
          rw [byteLength_cons] at size
          exact ⟨by omega, before, after, rfl, by omega⟩

theorem isBoundary_append (before after : List Char) :
    isBoundary (before ++ after) (byteLength before) = true :=
  isBoundary_iff.mpr ⟨before, after, rfl, rfl⟩

theorem cut_append (before after : List Char) : cut (byteLength before) (before ++ after) = before := by
  induction before with
  | nil =>
    cases after with
    | nil => rfl
    | cons c rest => exact if_neg (Nat.not_le.mpr c.utf8Size_pos)
  | cons c rest ih =>
    rw [List.cons_append, cut, byteLength_cons, if_pos (Nat.le_add_right _ _), Nat.add_sub_cancel_left, ih]

theorem piece?_eq (before inner after : List Char) :
    piece? (before ++ (inner ++ after)) (byteLength before) (byteLength (before ++ inner)) = some inner := by
  have first : isBoundary (before ++ (inner ++ after)) (byteLength before) = true := isBoundary_append _ _
  have last := isBoundary_append (before ++ inner) after
  have shorter := cut_append before (inner ++ after)
  have longer := cut_append (before ++ inner) after
  rw [List.append_assoc] at last longer
  have ordered : byteLength before ≤ byteLength (before ++ inner) := by simp
  rw [piece?, if_pos ⟨ordered, first, last⟩, shorter, longer, List.drop_left]

theorem eq_nil_of_byteLength {text : List Char} (none : byteLength text = 0) : text = [] := by
  cases text with
  | nil => rfl
  | cons c rest =>
    have some_octet := c.utf8Size_pos
    rw [byteLength_cons] at none
    omega

/-- A piece is what stands in the text between two places at which it may be cut, the first not behind the
last. -/
theorem piece?_eq_some_iff {text inner : List Char} {first last : Nat} : piece? text first last = some inner ↔
    ∃ before after, text = before ++ (inner ++ after) ∧ byteLength before = first ∧
      byteLength (before ++ inner) = last := by
  constructor
  · intro found
    obtain ⟨ordered, begins, ends⟩ :
        first ≤ last ∧ isBoundary text first = true ∧ isBoundary text last = true := by
      unfold piece? at found
      split at found
      · assumption
      · cases found
    obtain ⟨before, tail, shape, rfl⟩ := isBoundary_iff.mp begins
    obtain ⟨longer, after, split, rfl⟩ := isBoundary_iff.mp ends
    have within : ∃ more, longer = before ++ more ∧ tail = more ++ after := by
      rcases List.append_eq_append_iff.mp (shape.symm.trans split) with within | ⟨extra, rfl, rfl⟩
      · exact within
      · rw [byteLength_append] at ordered
        have none : extra = [] := eq_nil_of_byteLength (by omega)
        exact ⟨[], by rw [none, List.append_nil, List.append_nil], by rw [none]; rfl⟩
    obtain ⟨more, rfl, rfl⟩ := within
    have whole := piece?_eq before more after
    rw [← shape, found] at whole
    obtain rfl := Option.some.inj whole
    exact ⟨before, after, shape, rfl, rfl⟩
  · rintro ⟨before, after, rfl, rfl, rfl⟩
    exact piece?_eq before inner after

example : piece? "né".toList 1 2 = none ∧ piece? "né".toList 1 3 = some ['é'] := by cbv

end FlagSurvey.Text
