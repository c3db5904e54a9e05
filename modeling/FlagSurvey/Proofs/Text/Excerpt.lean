import Mathlib
import FlagSurvey.Proofs.Probe.Word
import FlagSurvey.Proofs.Text.Boundary

/-! Cuts and excerpts of a text. A cut is the longest beginning of the text that has room and ends between
characters, the one that a search backwards over the octets finds too. An excerpt is the words of the text
with one space between any two, cut and marked if they have no room. -/
namespace FlagSurvey.Text

def shorten? (room : Nat) (text : List Char) : Option (List Char) :=
  if byteLength text ≤ room then some text else piece? text 0 (lastBoundary text room)

/-- The words of a text in a row: blanks stand around them, and no word goes on behind another. -/
inductive Worded : List Char → List (List Char) → Prop where
  | blanks {gap : List Char} (blank : ∀ c ∈ gap, isBlank c = true) : Worded gap []
  | word {gap word rest : List Char} {more : List (List Char)} (blank : ∀ c ∈ gap, isBlank c = true)
    (whole : IsWord word) (ended : ∀ c ∈ rest.head?, isBlank c = true) (h : Worded rest more) :
    Worded (gap ++ (word ++ rest)) (word :: more)

/-- The text begins with what is kept, which ends between characters and has the most octets that there is
room for. -/
structure Longest (room : Nat) (text kept : String) : Prop where
  begins : kept.toList <+: text.toList
  longest : IsGreatest {n | n ≤ room ∧ (String.Pos.Raw.mk n).IsValid text} kept.utf8ByteSize

theorem cut_prefix (room : Nat) (text : List Char) : cut room text <+: text := by
  induction text generalizing room with
  | nil => exact List.nil_prefix
  | cons c rest ih =>
    unfold cut
    split
    · exact List.cons_prefix_cons.mpr ⟨rfl, ih _⟩
    · exact List.nil_prefix

theorem prefix_cut {room : Nat} {before text : List Char} (h : before <+: text)
    (fits : byteLength before ≤ room) : before <+: cut room text := by
  induction text generalizing room before with
  | nil => exact h
  | cons c rest ih =>
    cases before with
    | nil => exact List.nil_prefix
    | cons d before =>
      obtain ⟨rfl, later⟩ := List.cons_prefix_cons.mp h
      rw [byteLength_cons] at fits
      rw [cut, if_pos (by omega)]
      exact List.cons_prefix_cons.mpr ⟨rfl, ih later (by omega)⟩

theorem isGreatest_cut (room : Nat) (text : List Char) :
    IsGreatest {n | n ≤ room ∧ isBoundary text n = true} (byteLength (cut room text)) := by
  constructor
  · obtain ⟨after, shape⟩ := cut_prefix room text
    exact ⟨byteLength_cut_le room text, isBoundary_iff.mpr ⟨_, after, shape.symm, rfl⟩⟩
  · rintro n ⟨fits, boundary⟩
    obtain ⟨before, after, shape, rfl⟩ := isBoundary_iff.mp boundary
    obtain ⟨more, longer⟩ := prefix_cut ⟨after, shape.symm⟩ fits
    rw [← longer, byteLength_append]
    omega

theorem isGreatest_lastBoundary (text : List Char) (room : Nat) :
    IsGreatest {n | n ≤ room ∧ isBoundary text n = true} (lastBoundary text room) := by
  induction room with
  | zero => exact ⟨⟨Nat.le_refl 0, isBoundary_zero text⟩, fun n h => h.1⟩
  | succ room ih =>
    unfold lastBoundary
    split
    · next boundary => exact ⟨⟨Nat.le_refl _, boundary⟩, fun n h => h.1⟩
    · next inside =>
      refine ⟨⟨Nat.le_succ_of_le ih.1.1, ih.1.2⟩, fun n h => ih.2 ⟨?_, h.2⟩⟩
      have other : n ≠ room + 1 := fun same => inside (same ▸ h.2)
      have within := h.1
      omega

theorem shorten?_eq (room : Nat) (text : List Char) : shorten? room text = some (cut room text) := by
  unfold shorten?
  split
  · next fits => rw [cut_eq_self fits]
  · have last : lastBoundary text room = byteLength (cut room text) :=
      (isGreatest_lastBoundary text room).unique (isGreatest_cut room text)
    obtain ⟨after, shape⟩ := cut_prefix room text
    have piece := piece?_eq [] (cut room text) after
    simp only [List.nil_append, shape] at piece
    rw [last]
    exact piece

theorem isBoundary_iff_isValid {text : String} {n : Nat} :
    isBoundary text.toList n = true ↔ (String.Pos.Raw.mk n).IsValid text := by
  rw [isBoundary_iff, String.Pos.Raw.isValid_iff_exists_append]
  constructor
  · rintro ⟨before, after, shape, rfl⟩
    refine ⟨String.ofList before, String.ofList after, ?_, ?_⟩
    · rw [← String.toList_inj, String.toList_append, String.toList_ofList, String.toList_ofList, shape]
    · exact congrArg String.Pos.Raw.mk (by rw [← byteLength_toList, String.toList_ofList])
  · rintro ⟨before, after, rfl, place⟩
    refine ⟨before.toList, after.toList, String.toList_append, ?_⟩
    rw [byteLength_toList]
    exact (congrArg String.Pos.Raw.byteIdx place).symm

theorem words_blanks {gap : List Char} (blank : ∀ c ∈ gap, isBlank c = true) (rest : List Char) :
    words (gap ++ rest) = words rest := by
  induction gap with
  | nil => rfl
  | cons c gap ih =>
    rw [List.cons_append, words.eq_def]
    simp only [blank c List.mem_cons_self, if_true]
    exact ih fun d hd => blank d (List.mem_cons_of_mem _ hd)

theorem words_word {word rest : List Char} (whole : IsWord word)
    (ended : ∀ c ∈ rest.head?, isBlank c = true) : words (word ++ rest) = word :: words rest := by
  obtain ⟨some_char, plain⟩ := whole
  induction word with
  | nil => exact absurd rfl some_char
  | cons c word ih =>
    have first : ¬isBlank c = true := by simp [plain c List.mem_cons_self]
    cases word with
    | nil =>
      cases rest with
      | nil => simp [words, first]
      | cons d rest =>
        have blank : isBlank d = true := ended d rfl
        simp [words, first, blank]
    | cons d word =>
      have second : ¬isBlank d = true := by simp [plain d]
      have later := ih (List.cons_ne_nil d word) fun e he => plain e (List.mem_cons_of_mem _ he)
      rw [List.cons_append, List.cons_append, words, if_neg first]
      simp only [if_neg second, ← List.cons_append, later]

theorem Worded.words_eq {text : List Char} {pieces : List (List Char)} (h : Worded text pieces) :
    words text = pieces := by
  induction h with
  | @blanks gap blank =>
    have whole := words_blanks blank []
    rwa [List.append_nil] at whole
  | word blank whole ended _ ih => rw [words_blanks blank, words_word whole ended, ih]

theorem exists_worded (text : List Char) : ∃ pieces, Worded text pieces := by
  induction size : text.length using Nat.strongRecOn generalizing text with
  | ind n ih =>
    have apart := List.takeWhile_append_dropWhile (p := isBlank) (l := text)
    have blank : ∀ c ∈ text.takeWhile isBlank, isBlank c = true := fun c hc => List.mem_takeWhile_imp hc
    cases start : text.dropWhile isBlank with
    | nil =>
      rw [start, List.append_nil] at apart
      exact ⟨[], .blanks (apart ▸ blank)⟩
    | cons c more =>
      have first : isBlank c = false := by
        have := List.head?_dropWhile_not isBlank text
        simpa [start] using this
      have ends := List.takeWhile_append_dropWhile (p := (!isBlank ·)) (l := more)
      have shorter : (more.dropWhile (!isBlank ·)).length < n := by
        have kept := (List.dropWhile_sublist (!isBlank ·) (l := more)).length_le
        have dropped := (List.dropWhile_sublist isBlank (l := text)).length_le
        rw [start, List.length_cons] at dropped
        omega
      -- The word goes up to the next blank, and the words behind it are those of a shorter text.
      obtain ⟨pieces, later⟩ := ih _ shorter _ rfl
      have whole : IsWord (c :: more.takeWhile (!isBlank ·)) := by
        refine ⟨nofun, fun d hd => ?_⟩
        rcases List.mem_cons.mp hd with rfl | inside
        · exact first
        · simpa using List.mem_takeWhile_imp inside
      have ended : ∀ d ∈ (more.dropWhile (!isBlank ·)).head?, isBlank d = true := by
        intro d hd
        have := List.head?_dropWhile_not (!isBlank ·) more
        simpa [Option.mem_def.mp hd] using this
      have worded := Worded.word blank whole ended later
      rw [List.cons_append, ends, ← start, apart] at worded
      exact ⟨_, worded⟩

theorem worded_iff {text : List Char} {pieces : List (List Char)} :
    Worded text pieces ↔ pieces = words text := by
  constructor
  · exact fun h => h.words_eq.symm
  · rintro rfl
    obtain ⟨pieces, h⟩ := exists_worded text
    rwa [h.words_eq]

theorem isWord_of_mem_words {text word : List Char} (h : word ∈ words text) : IsWord word :=
  ⟨ne_nil_of_mem_words h, not_isBlank_of_mem_words h⟩

theorem ends_joinWords {pieces : List (List Char)} (whole : ∀ word ∈ pieces, IsWord word) :
    (joinWords pieces).head?.any isBlank = false ∧ (joinWords pieces).getLast?.any isBlank = false := by
  induction pieces with
  | nil => exact ⟨rfl, rfl⟩
  | cons word more ih =>
    obtain ⟨some_char, plain⟩ := whole word List.mem_cons_self
    have first : word.head?.any isBlank = false := by
      rw [List.head?_eq_some_head some_char]
      exact plain _ (List.head_mem some_char)
    have last : word.getLast?.any isBlank = false := by
      rw [List.getLast?_eq_some_getLast some_char]
      exact plain _ (List.getLast_mem some_char)
    have later := ih fun other mem => whole other (List.mem_cons_of_mem _ mem)
    cases more with
    | nil =>
      rw [joinWords, List.intercalate_singleton]
      exact ⟨first, last⟩
    | cons next more =>
      have some_next := (whole next (by simp)).1
      have behind : joinWords (next :: more) ≠ [] := by
        cases more <;> simp [joinWords, some_next]
      have split : joinWords (word :: next :: more) = word ++ ([' '] ++ joinWords (next :: more)) := by
        rw [joinWords, List.intercalate_cons_cons, List.append_assoc]
        rfl
      rw [split, List.head?_append_of_ne_nil _ some_char, List.getLast?_append_of_ne_nil _ (by simp),
        List.getLast?_append_of_ne_nil _ behind]
      exact ⟨first, later.2⟩

theorem longest_truncate (room : Nat) (text : String) : Longest room text (truncate room text) := by
  have greatest := isGreatest_cut room text.toList
  simp only [isBoundary_iff_isValid] at greatest
  constructor
  · rw [truncate, String.toList_ofList]
    exact cut_prefix room text.toList
  · rwa [truncate, ← byteLength_toList, String.toList_ofList]

/-- A cut keeps the longest beginning of a text that has room, which is where the search backwards ends. An
excerpt is the line that the words of the text make if it has room, and else the longest beginning of that
line that has, marked by three octets. -/
theorem excerpt_keeps_longest (room : Nat) (text : String) :
    Longest room text (truncate room text) ∧
    shorten? room text.toList = some (truncate room text).toList ∧
    ∃ pieces, (∀ others, Worded text.toList others ↔ others = pieces) ∧
      let line := joinWords pieces
      line.head?.any isBlank = false ∧ line.getLast?.any isBlank = false ∧
      (∃ kept, Longest room (String.ofList line) kept ∧ excerpt room text =
        if (String.ofList line).utf8ByteSize ≤ room then String.ofList line else kept ++ "...") ∧
      (excerpt room text).utf8ByteSize ≤ room + 3 := by
  have whole : ∀ word ∈ words text.toList, IsWord word := fun word mem => isWord_of_mem_words mem
  obtain ⟨first, last⟩ := ends_joinWords whole
  refine ⟨longest_truncate room text, ?_, words text.toList, fun others => worded_iff, first, last, ?_, ?_⟩
  · rw [shorten?_eq, truncate, String.toList_ofList]
  · refine ⟨_, longest_truncate room _, ?_⟩
    rw [excerpt, excerptOf, truncate, String.toList_ofList, ← byteLength_toList, String.toList_ofList]
    split
    · rfl
    · exact String.ofList_append
  · rw [excerpt, ← byteLength_toList, String.toList_ofList]
    exact byteLength_excerptOf_le room text.toList

example : truncate 4 "café" = "caf" ∧ excerpt 4 " aaaa\n bbbb" = "aaaa..." := by cbv

end FlagSurvey.Text
