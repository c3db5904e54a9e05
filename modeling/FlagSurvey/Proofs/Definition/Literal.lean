import FlagSurvey.Proofs.Definition.Decoding
import FlagSurvey.Proofs.Definition.Octets

/-! Text fields as literals. A field is read exactly if it is made of closed literals with blanks around
them, and says what they say in a row. Such a field is one field of any body and ends no body, whatever its
literals hold; the scans agree on that over the octets of the field as over its characters. -/
namespace FlagSurvey.Definition

open Text

inductive Spells : List Char → List Char → Prop where
  | nil : Spells [] []
  | plain {c : Char} {inner said : List Char} (unmarked : c ≠ '"') (unescaped : c ≠ '\\')
    (h : Spells inner said) : Spells (c :: inner) (c :: said)
  | escape {c : Char} {inner said : List Char} (h : Spells inner said) :
    Spells ('\\' :: c :: inner) (unescape c ++ said)

/-- Literals with blanks around them, and the text they say in a row; `seen` tells of one before. -/
inductive Says : Bool → List Char → List Char → Prop where
  | done : Says true [] []
  | blank {seen : Bool} {c : Char} {field said : List Char} (blank : isBlank c = true)
    (h : Says seen field said) : Says seen (c :: field) said
  | literal {seen : Bool} {inner rest first later : List Char} (inside : Spells inner first)
    (h : Says true rest later) : Says seen ('"' :: (inner ++ '"' :: rest)) (first ++ later)

theorem reverse_unescape (c : Char) : (unescape c).reverse = unescape c := by
  unfold unescape
  split <;> rfl

theorem ne_of_isBlank {c d : Char} (h : isBlank c = true) (other : isBlank d = false) : c ≠ d := by
  rintro rfl
  exact Bool.false_ne_true (other.symm.trans h)

theorem Spells.insideOn_eq {inner said : List Char} (h : Spells inner said) (done rest : List Char) :
    insideOn done (inner ++ '"' :: rest) = literalsOn true (said.reverse ++ done) rest := by
  induction h generalizing done with
  | nil => simp [insideOn]
  | plain unmarked unescaped _ ih => simp [insideOn, unmarked, unescaped, ih]
  | escape _ ih => simp [insideOn, ih, reverse_unescape]

theorem Says.literalsOn_eq {seen : Bool} {field said : List Char} (h : Says seen field said)
    (done : List Char) : literalsOn seen done field = some (done.reverse ++ said) := by
  induction h generalizing done with
  | done => simp [literalsOn]
  | blank blank _ ih =>
    have unmarked := ne_of_isBlank blank (show isBlank '"' = false by decide)
    simp [literalsOn, blank, unmarked, ih]
  | literal inside _ ih => simp [literalsOn, inside.insideOn_eq, ih]

theorem insideOn_cases {done rest text : List Char} {c : Char} (h : insideOn done (c :: rest) = some text) :
    (c = '\\' ∧ ∃ d more, rest = d :: more ∧ insideOn (unescape d ++ done) more = some text) ∨
      (c = '"' ∧ literalsOn true done rest = some text) ∨
      (c ≠ '"' ∧ c ≠ '\\' ∧ insideOn (c :: done) rest = some text) := by
  by_cases escaped : c = '\\'
  · subst escaped
    cases rest with
    | nil => simp [insideOn] at h
    | cons d more => exact .inl ⟨rfl, d, more, rfl, by rwa [insideOn] at h⟩
  · by_cases marked : c = '"'
    · exact .inr (.inl ⟨marked, by simpa [insideOn, marked] using h⟩)
    · exact .inr (.inr ⟨marked, escaped, by simpa [insideOn, escaped, marked] using h⟩)

mutual

theorem says_of_literalsOn {seen : Bool} {done field text : List Char}
    (h : literalsOn seen done field = some text) :
    ∃ said, Says seen field said ∧ text = done.reverse ++ said := by
  match field with
  | [] =>
    rw [literalsOn] at h
    split at h
    · next some_literal =>
      subst some_literal
      exact ⟨[], .done, by simpa using h.symm⟩
    · contradiction
  | c :: rest =>
    rw [literalsOn] at h
    split at h
    · next marked =>
      obtain ⟨inner, first, after, later, rfl, inside, told, rfl⟩ := says_of_insideOn h
      rw [eq_of_beq marked]
      exact ⟨first ++ later, .literal inside told, rfl⟩
    · split at h
      · next blank =>
        obtain ⟨said, told, rfl⟩ := says_of_literalsOn h
        exact ⟨said, .blank blank told, rfl⟩
      · contradiction
termination_by field.length

theorem says_of_insideOn {done field text : List Char} (h : insideOn done field = some text) :
    ∃ inner first rest later, field = inner ++ '"' :: rest ∧ Spells inner first ∧
      Says true rest later ∧ text = done.reverse ++ (first ++ later) := by
  match field with
  | [] => simp [insideOn] at h
  | c :: rest =>
    rcases insideOn_cases h with ⟨rfl, d, more, shape, read⟩ | ⟨rfl, read⟩ | ⟨unmarked, unescaped, read⟩
    · have shorter : more.length < rest.length := by simp [shape]
      obtain ⟨inner, first, after, later, same, inside, told, rfl⟩ := says_of_insideOn read
      refine ⟨'\\' :: d :: inner, unescape d ++ first, after, later, ?_, .escape inside, told, ?_⟩
      · rw [shape, same]
        rfl
      · simp [reverse_unescape]
    · obtain ⟨said, told, rfl⟩ := says_of_literalsOn read
      exact ⟨[], [], rest, said, rfl, .nil, told, rfl⟩
    · obtain ⟨inner, first, after, later, same, inside, told, rfl⟩ := says_of_insideOn read
      refine ⟨c :: inner, c :: first, after, later, ?_, .plain unmarked unescaped inside, told, by simp⟩
      rw [same]
      rfl
termination_by field.length
decreasing_by
  all_goals
    simp only [List.length_cons]
    omega

end

theorem literalsOn_eq_some_iff {field text : List Char} :
    literalsOn false [] field = some text ↔ Says false field text := by
  constructor
  · intro h
    obtain ⟨said, told, rfl⟩ := says_of_literalsOn h
    exact told
  · exact fun told => told.literalsOn_eq []

theorem textField_eq_ok_iff {field : List Char} {text : String} :
    textField field = .ok text ↔ Says false field text.toList := by
  rw [← literalsOn_eq_some_iff, textField, literals?]
  cases literalsOn false [] field with
  | none => simp
  | some said => simp [← String.toList_inj, eq_comm]

theorem Says.blanks {seen : Bool} {gap field said : List Char} (blank : ∀ c ∈ gap, isBlank c = true)
    (h : Says seen field said) : Says seen (gap ++ field) said := by
  induction gap with
  | nil => exact h
  | cons c gap ih =>
    exact .blank (blank c List.mem_cons_self) (ih fun d hd => blank d (List.mem_cons_of_mem _ hd))

theorem Says.append {seen : Bool} {field more said further : List Char} (h : Says seen field said)
    (rest : Says true more further) : Says seen (field ++ more) (said ++ further) := by
  induction h with
  | done => exact rest
  | blank blank _ ih => exact .blank blank ih
  | @literal seen inner after first later inside _ ih =>
    have shape : '"' :: (inner ++ '"' :: after) ++ more = '"' :: (inner ++ '"' :: (after ++ more)) := by
      simp
    rw [shape, List.append_assoc]
    exact .literal inside ih

theorem Says.seen {seen : Bool} {field said : List Char} (h : Says seen field said) :
    Says true field said := by
  induction h with
  | done => exact .done
  | blank blank _ ih => exact .blank blank ih
  | literal inside later _ => exact .literal inside later

theorem Spells.literalText {inner said : List Char} (h : Spells inner said) : LiteralText '"' inner := by
  induction h with
  | nil => exact .nil
  | plain unmarked unescaped _ ih => exact .plain unmarked unescaped ih
  | escape _ ih => exact .escape ih

theorem Says.fieldText {seen : Bool} {field said : List Char} (h : Says seen field said) :
    FieldText field := by
  induction h with
  | done => exact .nil
  | @blank seen c field said blank _ ih =>
    have apart {d : Char} (other : isBlank d = false) : c ≠ d := ne_of_isBlank blank other
    have unmarked : isMark c = false := Bool.eq_false_iff.mpr fun marked => by
      rcases isMark_iff.mp marked with same | same <;> exact apart (by decide) same
    exact .plain unmarked (apart (by decide)) (apart (by decide)) (apart (by decide)) ih
  | literal inside _ ih => exact .literal rfl inside.literalText ih

theorem FieldText.balanced {field : List Char} (h : FieldText field) : Balanced field := by
  induction h with
  | nil => exact .nil
  | plain unmarked unopened unclosed _ _ ih => exact .plain unmarked unopened unclosed ih
  | literal marked inside _ ih => exact .literal marked inside ih
  | group inside _ ih => exact .group inside ih

def quote (text : List Char) : List Char :=
  '"' :: (text.flatMap (fun c => if c = '"' ∨ c = '\\' then ['\\', c] else [c]) ++ ['"'])

def quoteAll (pieces : List (List Char × String)) : List Char :=
  pieces.flatMap fun piece => piece.1 ++ quote piece.2.toList

theorem spells_escaped (text : List Char) :
    Spells (text.flatMap fun c => if c = '"' ∨ c = '\\' then ['\\', c] else [c]) text := by
  induction text with
  | nil => exact .nil
  | cons c rest ih =>
    rw [List.flatMap_cons]
    split
    · next special =>
      have kept : unescape c = [c] := by rcases special with rfl | rfl <;> rfl
      have escaped := ih.escape (c := c)
      rw [kept] at escaped
      exact escaped
    · next usual =>
      obtain ⟨unmarked, unescaped⟩ := not_or.mp usual
      exact .plain unmarked unescaped ih

theorem says_quote {seen : Bool} {gap rest later : List Char} (blanks : ∀ c ∈ gap, isBlank c = true)
    (text : List Char) (h : Says true rest later) :
    Says seen (gap ++ quote text ++ rest) (text ++ later) := by
  have literal : Says seen (quote text ++ rest) (text ++ later) := by
    rw [quote, List.cons_append, List.append_assoc, List.singleton_append]
    exact .literal (spells_escaped text) h
  rw [List.append_assoc]
  exact literal.blanks blanks

theorem says_quoteAll {seen : Bool} {pieces : List (List Char × String)} {last : List Char}
    (some_literal : pieces ≠ [] ∨ seen = true) (blanks : ∀ piece ∈ pieces, ∀ c ∈ piece.1, isBlank c = true)
    (blank : ∀ c ∈ last, isBlank c = true) :
    Says seen (quoteAll pieces ++ last) (pieces.flatMap (·.2.toList)) := by
  induction pieces generalizing seen with
  | nil =>
    obtain rfl : seen = true := some_literal.resolve_left (fun none => none rfl)
    have ended := Says.done.blanks blank
    rwa [List.append_nil] at ended
  | cons piece rest ih =>
    have later := ih (.inr rfl) fun other mem => blanks other (List.mem_cons_of_mem _ mem)
    rw [quoteAll, List.flatMap_cons, List.flatMap_cons, List.append_assoc]
    exact says_quote (blanks piece List.mem_cons_self) piece.2.toList later

theorem toList_join (texts : List String) : (String.join texts).toList = texts.flatMap String.toList := by
  induction texts with
  | nil => rfl
  | cons text rest ih => simp [ih]

/-- Texts written as literals are read in a row, and so are fields that can be read. A field that can be
read is the only field of its text, and all of the body that a parenthesis behind it ends, over octets as
over characters. -/
theorem textField_reads_literals :
    (∀ (pieces : List (List Char × String)) (last : List Char), pieces ≠ [] →
      (∀ piece ∈ pieces, ∀ c ∈ piece.1, isBlank c = true) → (∀ c ∈ last, isBlank c = true) →
        textField (quoteAll pieces ++ last) = .ok (String.join (pieces.map Prod.snd))) ∧
    (∀ first second a b, textField first = .ok a → textField second = .ok b →
      textField (first ++ second) = .ok (a ++ b)) ∧
    ∀ field text, textField field = .ok text →
      splitFields field = [field] ∧ splitFields (octets field) = [octets field] ∧
      ∀ after, body? (field ++ ')' :: after) = some (field, after) ∧
        body? (octets (field ++ ')' :: after)) = some (octets field, octets after) := by
  refine ⟨fun pieces last some_piece blanks blank => ?_, fun first second a b read further => ?_,
    fun field text read => ?_⟩
  · rw [textField_eq_ok_iff, toList_join, List.flatMap_map]
    exact says_quoteAll (.inl some_piece) blanks blank
  · rw [textField_eq_ok_iff] at read further ⊢
    rw [String.toList_append]
    exact read.append further.seen
  · have whole := (textField_eq_ok_iff.mp read).fieldText
    have alone : splitFields field = [field] :=
      splitFields_of_splitsInto ⟨List.intercalate_singleton, nofun, by simpa using whole⟩
    have ends (after : List Char) : body? (field ++ ')' :: after) = some (field, after) :=
      body?_eq_some_iff.mpr ⟨whole.balanced, rfl⟩
    refine ⟨alone, ?_, fun after => ⟨ends after, ?_⟩⟩
    · rw [splitFields_octets, alone, List.map_singleton]
    · rw [body?_octets, ends after]
      rfl

theorem two_literals_read :
    let field := quoteAll [([], "a,(\""), ([' '], "\\é")]
    textField field = .ok "a,(\"\\é" ∧ textField (field ++ field) = .ok "a,(\"\\éa,(\"\\é" ∧
      splitFields (octets field) = [octets field] := by
  intro field
  have blanks : ∀ c ∈ [' '], isBlank c = true := List.forall_mem_singleton.mpr (by decide)
  have read : textField (field ++ []) = .ok "a,(\"\\é" :=
    textField_reads_literals.1 _ [] nofun (by simpa using blanks) nofun
  rw [List.append_nil] at read
  exact ⟨read, textField_reads_literals.2.1 field field _ _ read read,
    (textField_reads_literals.2.2 field _ read).2.1⟩

end FlagSurvey.Definition
