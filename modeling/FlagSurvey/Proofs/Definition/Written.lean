import FlagSurvey.Proofs.Definition.Decoding
import FlagSurvey.Proofs.Definition.Record

/-! Definition texts as they are written: calls, and between them blanks and comments. The search for
calls finds the calls of such a text, each on its line and with its own body, and nothing else. -/
namespace FlagSurvey.Definition

open Token

inductive Item where
  | blank (c : Char) (h : isAsciiBlank c = true)
  /-- A comment that ends at the first end mark after it began. -/
  | remark (text : List Char) (h : ¬['*', '/'] <:+: text)
  | lineRemark (text : List Char) (h : '\n' ∉ text)
  | call (gap body : List Char) (blanks : ∀ c ∈ gap, isAsciiBlank c = true) (balanced : Balanced body)

namespace Item

def text : Item → List Char
  | .blank c _ => [c]
  | .remark text _ => '/' :: '*' :: (text ++ ['*', '/'])
  | .lineRemark text _ => '/' :: '/' :: (text ++ ['\n'])
  | .call gap body _ _ => macroName ++ gap ++ '(' :: (body ++ [')'])

def textOf (items : List Item) : List Char := items.flatMap text

def records (line : Nat) : Item → List Record
  | .call _ body _ _ => [⟨line, some body⟩]
  | _ => []

def placed (line : Nat) : List Item → List Record
  | [] => []
  | item :: rest => item.records line ++ placed (line + item.text.count '\n') rest

theorem textOf_cons (item : Item) (rest : List Item) :
    textOf (item :: rest) = item.text ++ textOf rest := List.flatMap_cons

/-- No word goes on after the characters, of which the last comes first. -/
def Clear (before : List Char) : Prop := before.head?.any isWordPart = false

theorem commentLength_eq {text : List Char} (h : ¬['*', '/'] <:+: text) (rest : List Char) :
    commentLength (text ++ '*' :: '/' :: rest) = text.length + 2 := by
  induction text with
  | nil => rfl
  | cons c text ih =>
    have later : ¬['*', '/'] <:+: text := fun ends => h (ends.trans (List.infix_cons (List.infix_refl _)))
    have on : commentLength (c :: (text ++ '*' :: '/' :: rest)) =
        commentLength (text ++ '*' :: '/' :: rest) + 1 := by
      rw [commentLength.eq_def]
      split
      · next same => cases same
      · next ends same =>
        simp only [List.cons.injEq] at same
        obtain ⟨rfl, same⟩ := same
        cases text with
        | nil => exact absurd same (by simp)
        | cons d text =>
          simp only [List.cons_append, List.cons.injEq] at same
          exact absurd ⟨[], text, by rw [same.1]; rfl⟩ h
      · next same =>
        simp only [List.cons.injEq] at same
        rw [same.2]
    rw [List.cons_append, on, ih later, List.length_cons]

theorem recordsFrom_blank {before rest : List Char} {c : Char} (h : isAsciiBlank c = true) :
    recordsFrom ⟨before, c :: rest⟩ = recordsFrom ⟨c :: before, rest⟩ := by
  refine recordsFrom_cons (not_atMacro_of_ne ?_) ?_ ?_ <;> rintro rfl <;> exact absurd h (by decide)

theorem recordsFrom_remark {before text rest : List Char} (h : ¬['*', '/'] <:+: text) :
    recordsFrom ⟨before, '/' :: '*' :: (text ++ ['*', '/']) ++ rest⟩ =
      recordsFrom ⟨('/' :: '*' :: (text ++ ['*', '/'])).reverse ++ before, rest⟩ := by
  refine recordsFrom_pass nofun (not_atMacro_of_ne (by decide)) ?_
  rw [List.cons_append, List.cons_append, List.append_assoc, Position.passed]
  simp only [List.cons_append, List.nil_append, commentLength_eq h, List.length_cons,
    List.length_append, List.length_nil]

theorem recordsFrom_lineRemark {before text rest : List Char} (h : '\n' ∉ text) :
    recordsFrom ⟨before, '/' :: '/' :: (text ++ ['\n']) ++ rest⟩ =
      recordsFrom ⟨('/' :: '/' :: (text ++ ['\n'])).reverse ++ before, rest⟩ := by
  have inside : ∀ c ∈ text, (c != '\n') = true := fun c hc => by
    rw [bne_iff_ne]
    rintro rfl
    exact h hc
  have kept : (text ++ '\n' :: rest).takeWhile (· != '\n') = text := by
    rw [List.takeWhile_append_of_pos inside, List.takeWhile_cons_of_neg (by decide), List.append_nil]
  have step : recordsFrom ⟨before, ('/' :: '/' :: text) ++ '\n' :: rest⟩ =
      recordsFrom ⟨('/' :: '/' :: text).reverse ++ before, '\n' :: rest⟩ := by
    refine recordsFrom_pass nofun (not_atMacro_of_ne (by decide)) ?_
    rw [List.cons_append, List.cons_append, Position.passed]
    simp only [kept, List.length_cons]
  rw [recordsFrom_blank (by decide)] at step
  simpa using step

theorem not_isWordPart_of_isAsciiBlank {c : Char} (h : isAsciiBlank c = true) :
    isWordPart c = false := by
  simp only [isAsciiBlank, Bool.or_eq_true, beq_iff_eq] at h
  rcases h with (((rfl | rfl) | rfl) | rfl) | rfl <;> decide

theorem atMacro_of_clear {before gap inner : List Char} (clear : Clear before)
    (blanks : ∀ c ∈ gap, isAsciiBlank c = true) :
    Position.atMacro ⟨before, macroName ++ (gap ++ '(' :: inner)⟩ = true := by
  have named : macroName.isPrefixOf (macroName ++ (gap ++ '(' :: inner)) = true :=
    List.isPrefixOf_iff_prefix.mpr (List.prefix_append _ _)
  have ended : (gap ++ '(' :: inner).head?.any isWordPart = false := by
    cases gap with
    | nil => exact show isWordPart '(' = false by decide
    | cons c gap => exact not_isWordPart_of_isAsciiBlank (blanks c List.mem_cons_self)
  rw [Position.atMacro, named, clear, List.drop_left, ended]
  rfl

theorem pastName_eq {before gap inner : List Char} (blanks : ∀ c ∈ gap, isAsciiBlank c = true) :
    Position.pastName ⟨before, macroName ++ (gap ++ '(' :: inner)⟩ =
      ⟨gap.reverse ++ (macroName.reverse ++ before), '(' :: inner⟩ := by
  have kept : (gap ++ '(' :: inner).takeWhile isAsciiBlank = gap := by
    rw [List.takeWhile_append_of_pos blanks, List.takeWhile_cons_of_neg (by decide), List.append_nil]
  rw [Position.pastName, Position.advance_append]
  simp only
  rw [kept, Position.advance_append]

theorem recordsFrom_written_call {before gap body rest : List Char} (clear : Clear before)
    (blanks : ∀ c ∈ gap, isAsciiBlank c = true) (balanced : Balanced body) :
    recordsFrom ⟨before, macroName ++ gap ++ '(' :: (body ++ [')']) ++ rest⟩ =
      ⟨before.count '\n' + 1, some body⟩ ::
        recordsFrom ⟨(macroName ++ gap ++ '(' :: (body ++ [')'])).reverse ++ before, rest⟩ := by
  have found : body? (body ++ ')' :: rest) = some (body, rest) := body?_eq_some_iff.mpr ⟨balanced, rfl⟩
  have past : Position.pastName ⟨before, macroName ++ (gap ++ '(' :: (body ++ ')' :: rest))⟩ = _ :=
    pastName_eq blanks
  have step := recordsFrom_call (atMacro_of_clear clear blanks) (congrArg Position.after past) found
  have behind : Position.advance ⟨gap.reverse ++ (macroName.reverse ++ before),
      '(' :: (body ++ [')']) ++ rest⟩ ('(' :: (body ++ [')'])).length = _ :=
    Position.advance_append _ _ _
  rw [past] at step
  simp only [List.length_cons, List.length_append, List.length_nil] at behind
  simp only [List.append_assoc, List.cons_append, List.nil_append, List.reverse_append] at step behind ⊢
  rw [step, behind]
  rfl

theorem recordsFrom_text (item : Item) {before rest : List Char} (clear : Clear before) :
    recordsFrom ⟨before, item.text ++ rest⟩ = item.records (before.count '\n' + 1) ++
      recordsFrom ⟨item.text.reverse ++ before, rest⟩ := by
  cases item with
  | blank c h => exact recordsFrom_blank h
  | remark text h => exact recordsFrom_remark h
  | lineRemark text h => exact recordsFrom_lineRemark h
  | call gap body blanks balanced => exact recordsFrom_written_call clear blanks balanced

theorem clear_of_last {before text : List Char} {c : Char} (h : isWordPart c = false) :
    Clear ((text ++ [c]).reverse ++ before) := by
  rw [List.reverse_append]
  exact h

theorem exists_last (item : Item) : ∃ text c, item.text = text ++ [c] ∧ isWordPart c = false := by
  cases item with
  | blank c h => exact ⟨[], c, rfl, not_isWordPart_of_isAsciiBlank h⟩
  | remark text h => exact ⟨'/' :: '*' :: (text ++ ['*']), '/', by simp [Item.text], by decide⟩
  | lineRemark text h => exact ⟨'/' :: '/' :: text, '\n', rfl, by decide⟩
  | call gap body blanks balanced =>
    exact ⟨macroName ++ gap ++ '(' :: body, ')', by simp [Item.text], by decide⟩

theorem clear_text (item : Item) (before : List Char) : Clear (item.text.reverse ++ before) := by
  obtain ⟨text, c, shape, last⟩ := item.exists_last
  rw [shape]
  exact clear_of_last last

theorem clear_textOf (items : List Item) {before : List Char} (clear : Clear before) :
    Clear ((textOf items).reverse ++ before) := by
  induction items generalizing before with
  | nil => exact clear
  | cons item rest ih =>
    rw [textOf_cons, List.reverse_append, List.append_assoc]
    exact ih (item.clear_text before)

theorem recordsFrom_textOf (items : List Item) {before rest : List Char} (clear : Clear before) :
    recordsFrom ⟨before, textOf items ++ rest⟩ = placed (before.count '\n' + 1) items ++
      recordsFrom ⟨(textOf items).reverse ++ before, rest⟩ := by
  induction items generalizing before with
  | nil => rfl
  | cons item more ih =>
    have later := ih (item.clear_text before)
    have lines : (item.text.reverse ++ before).count '\n' + 1 =
        before.count '\n' + 1 + item.text.count '\n' := by
      rw [List.count_append, List.count_reverse]
      omega
    rw [lines] at later
    rw [textOf_cons, List.append_assoc, item.recordsFrom_text clear, placed, List.reverse_append,
      List.append_assoc, List.append_assoc]
    exact congrArg (item.records (before.count '\n' + 1) ++ ·) later

theorem recordsFrom_end_textOf (items : List Item) {before : List Char} (clear : Clear before) :
    recordsFrom ⟨before, textOf items⟩ = placed (before.count '\n' + 1) items := by
  have whole : recordsFrom ⟨before, textOf items ++ []⟩ = _ := recordsFrom_textOf items clear
  rw [recordsFrom_end, List.append_nil, List.append_nil] at whole
  exact whole

theorem records_of_textOf (items : List Item) : recordsFrom ⟨[], textOf items⟩ = placed 1 items :=
  recordsFrom_end_textOf items rfl

theorem placed_append (line : Nat) (items more : List Item) : placed line (items ++ more) =
    placed line items ++ placed (line + (textOf items).count '\n') more := by
  induction items generalizing line with
  | nil => rfl
  | cons item rest ih =>
    rw [List.cons_append, placed, placed, ih, textOf_cons, List.count_append, List.append_assoc,
      Nat.add_assoc]

theorem placed_add (line lines : Nat) (items : List Item) :
    placed (line + lines) items = (placed line items).map (·.below lines) := by
  induction items generalizing line with
  | nil => rfl
  | cons item rest ih =>
    have here : item.records (line + lines) = (item.records line).map (·.below lines) := by
      cases item <;> rfl
    rw [placed, placed, List.map_append, here, ← ih, Nat.add_right_comm]

theorem exists_body_of_mem_placed {line : Nat} {items : List Item} {r : Record}
    (h : r ∈ placed line items) : ∃ body, Balanced body ∧ r.body = some body := by
  induction items generalizing line with
  | nil => cases h
  | cons item rest ih =>
    rcases List.mem_append.mp h with here | later
    · cases item with
      | call gap body blanks balanced =>
        rw [List.mem_singleton.mp here]
        exact ⟨body, balanced, rfl⟩
      | _ => cases here
    · exact ih later

end Item

/-- Each call of a definition text comes to one definition or to one failure on its line, in the order of
the text, by the fields of its own body alone; blanks and comments come to nothing. -/
theorem ofText_textOf (items : List Item) :
    let document := Document.ofText (String.ofList (Item.textOf items))
    let calls := Item.placed 1 items
    document.definitions = calls.filterMap Record.definition? ∧
      document.failures = calls.filterMap Record.failure? ∧
      ∀ r ∈ calls, ∃ body fields result, r.body = some body ∧
        (∀ others, SplitsInto body others ↔ others = fields) ∧
        (∀ other, Decodes fields other ↔ other = result) ∧
        match result with
        | .ok d => r.definition? = some d ∧ r.failure? = none
        | .error fault => r.definition? = none ∧ r.failure? = some ⟨r.line, shown body, fault⟩ := by
  intro document calls
  have found := Item.records_of_textOf items
  refine ⟨?_, ?_, fun r hr => ?_⟩
  · rw [definitions_ofText, found]
  · rw [failures_ofText, found]
  · obtain ⟨body, balanced, shape⟩ := Item.exists_body_of_mem_placed hr
    have decodes := decodes_ofBody body
    refine ⟨body, splitFields body, ofBody body, shape, fun others => splitsInto_iff balanced,
      fun other => ⟨fun again => again.unique decodes, fun same => same ▸ decodes⟩, ?_⟩
    rw [Record.definition?, Record.failure?, Record.read, shape]
    simp only
    cases ofBody body with
    | ok d => exact ⟨rfl, rfl⟩
    | error fault => exact ⟨rfl, rfl⟩

end FlagSurvey.Definition
