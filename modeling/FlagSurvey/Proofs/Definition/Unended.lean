import Mathlib
import FlagSurvey.Proofs.Definition.Written

/-! A call that does not end, written between the items of a text. The search for its end goes on through
all that follows, comments not excepted. If no parenthesis there closes the call, it fails by itself and
the search for calls takes up again inside of it; if one does, the call has swallowed what stands before
that parenthesis. -/
namespace FlagSurvey.Definition

/-- What follows the parenthesis of a call that its own lines do not close. -/
structure Unended where
  text : List Char
  unmarked : ∀ c ∈ text, isMark c = false
  unslashed : '/' ∉ text
  uncalled : ¬macroName <:+: text
  ended : text.getLast? = some '\n'
  unclosed : ¬∃ body after, Balanced body ∧ text = body ++ ')' :: after

theorem recordsFrom_lines {before line rest : List Char} (unmarked : ∀ c ∈ line, isMark c = false)
    (unslashed : '/' ∉ line) (uncalled : ¬macroName <:+: line ++ ['\n']) :
    recordsFrom ⟨before, line ++ '\n' :: rest⟩ = recordsFrom ⟨'\n' :: (line.reverse ++ before), rest⟩ := by
  induction line generalizing before with
  | nil => exact Item.recordsFrom_blank (by decide)
  | cons c line ih =>
    have apart : Position.atMacro ⟨before, c :: (line ++ '\n' :: rest)⟩ = false := by
      refine Bool.eq_false_iff.mpr fun starts => ?_
      have begins : macroName <+: (c :: line ++ ['\n']) ++ rest := by
        have named := (Bool.and_eq_true_iff.mp (Bool.and_eq_true_iff.mp starts).1).1
        simpa using List.isPrefixOf_iff_prefix.mp named
      -- A name that begins here would have to reach over the end of the line.
      rcases List.prefix_or_prefix_of_prefix begins (List.prefix_append _ _) with within | beyond
      · exact uncalled within.isInfix
      · have newline : '\n' ∈ macroName := beyond.mem (by simp)
        exact absurd newline (by decide)
    have passed := recordsFrom_cons apart (fun same => unslashed (by simp [same]))
      fun same => absurd (unmarked c List.mem_cons_self) (by simp [same, isMark])
    have later : ¬macroName <:+: line ++ ['\n'] := fun named => uncalled (List.infix_cons named)
    rw [List.cons_append, passed, ih (fun d hd => unmarked d (List.mem_cons_of_mem _ hd))
      (fun slash => unslashed (List.mem_cons_of_mem _ slash)) later, List.reverse_cons,
      List.append_assoc, List.singleton_append]

namespace Unended

theorem exists_line (cut : Unended) : ∃ line, cut.text = line ++ ['\n'] :=
  List.getLast?_eq_some_iff.mp cut.ended

theorem recordsFrom_text (cut : Unended) (before rest : List Char) :
    recordsFrom ⟨before, cut.text ++ rest⟩ = recordsFrom ⟨cut.text.reverse ++ before, rest⟩ := by
  obtain ⟨line, shape⟩ := cut.exists_line
  have unmarked := cut.unmarked
  have unslashed := cut.unslashed
  have uncalled := cut.uncalled
  rw [shape] at unmarked unslashed uncalled
  have passed : recordsFrom ⟨before, line ++ '\n' :: rest⟩ = _ :=
    recordsFrom_lines (fun c hc => unmarked c (List.mem_append_left _ hc))
      (fun slash => unslashed (List.mem_append_left _ slash)) uncalled
  rw [shape, List.append_assoc, List.singleton_append, passed, List.reverse_append]
  rfl

theorem exists_of_balanced (cut : Unended) {rest body after : List Char} (balanced : Balanced body)
    (shape : cut.text ++ rest = body ++ ')' :: after) : ∃ more, body = cut.text ++ more := by
  rcases List.append_eq_append_iff.mp shape with ⟨more, shape, -⟩ | ⟨more, shape, later⟩
  · exact ⟨more, shape⟩
  · cases more with
    | nil => exact ⟨[], by rw [shape, List.append_nil, List.append_nil]⟩
    | cons c more =>
      obtain ⟨rfl, -⟩ := List.cons.inj later
      exact absurd ⟨body, more, balanced, shape⟩ cut.unclosed

theorem body?_eq_none_of_balanced (cut : Unended) {rest : List Char} (h : Balanced rest) :
    body? (cut.text ++ rest) = none := by
  obtain ⟨last, depth, passes⟩ := exists_passes_of_bodyOn (body?_eq_none_iff.mpr cut.unclosed)
  have code := passes.code_of_unmarked cut.unmarked
  subst code
  have across : Passes ')' .code depth rest .code depth :=
    h.passes (by decide) (by decide) fun _ => rfl
  have whole := (passes.append across).bodyOn_eq []
  rw [List.append_nil] at whole
  exact whole

def call (cut : Unended) : List Char := macroName ++ '(' :: cut.text

variable {before rest : List Char}

/-- A call that nothing closes is found without a body, and the search goes on behind its lines. -/
theorem recordsFrom_call_of_none (cut : Unended) (clear : Item.Clear before)
    (unclosed : body? (cut.text ++ rest) = none) :
    recordsFrom ⟨before, cut.call ++ rest⟩ = ⟨before.count '\n' + 1, none⟩ ::
      recordsFrom ⟨cut.call.reverse ++ before, rest⟩ := by
  have blanks : ∀ c ∈ ([] : List Char), isAsciiBlank c = true := nofun
  have past : Position.pastName ⟨before, macroName ++ ([] ++ '(' :: (cut.text ++ rest))⟩ = _ :=
    Item.pastName_eq blanks
  have step := recordsFrom_open (Item.atMacro_of_clear clear blanks) (congrArg Position.after past)
    unclosed
  rw [past] at step
  have inside : Position.advance ⟨[].reverse ++ (macroName.reverse ++ before),
      '(' :: (cut.text ++ rest)⟩ 1 = ⟨'(' :: (macroName.reverse ++ before), cut.text ++ rest⟩ := rfl
  rw [inside, cut.recordsFrom_text] at step
  rw [call, List.append_assoc, List.cons_append]
  simpa [Position.line] using step

theorem records_of_none (cut : Unended) (before after : List Item)
    (unclosed : body? (cut.text ++ Item.textOf after) = none) :
    let lines := (Item.textOf before).count '\n'
    recordsFrom ⟨[], Item.textOf before ++ cut.call ++ Item.textOf after⟩ =
      Item.placed 1 before ++ ⟨lines + 1, none⟩ ::
        (Item.placed 1 after).map (·.below (lines + cut.text.count '\n')) := by
  intro lines
  have clear : Item.Clear ((Item.textOf before).reverse ++ []) := Item.clear_textOf before rfl
  have ended : Item.Clear (cut.call.reverse ++ ((Item.textOf before).reverse ++ [])) := by
    obtain ⟨line, shape⟩ := cut.exists_line
    have last : cut.call = (macroName ++ '(' :: line) ++ ['\n'] := by simp [call, shape]
    rw [last]
    exact Item.clear_of_last (by decide)
  have named : macroName.count '\n' = 0 := by decide
  have found : recordsFrom ⟨[], Item.textOf before ++ (cut.call ++ Item.textOf after)⟩ =
      Item.placed 1 before ++ recordsFrom ⟨(Item.textOf before).reverse ++ [], _⟩ :=
    Item.recordsFrom_textOf before rfl
  rw [cut.recordsFrom_call_of_none clear unclosed, Item.recordsFrom_end_textOf after ended] at found
  have counted : (cut.call.reverse ++ ((Item.textOf before).reverse ++ [])).count '\n' + 1 =
      1 + (lines + cut.text.count '\n') := by
    simp only [call, List.count_append, List.count_reverse, List.count_cons, named, List.count_nil]
    simp
    omega
  rw [← Item.placed_add, List.append_assoc, found, counted, List.append_nil, List.count_reverse]

theorem line_lt_of_some (cut : Unended) (clear : Item.Clear before) {body after : List Char}
    (found : body? (cut.text ++ rest) = some (body, after)) {r : Record}
    (h : r ∈ recordsFrom ⟨before, cut.call ++ rest⟩) (none : r.body = none) :
    before.count '\n' + 1 < r.line := by
  obtain ⟨balanced, shape⟩ := body?_eq_some_iff.mp found
  have written : cut.call ++ rest = macroName ++ [] ++ '(' :: (body ++ [')']) ++ after := by
    simp [call, shape]
  have blanks : ∀ c ∈ ([] : List Char), isAsciiBlank c = true := nofun
  rw [written, Item.recordsFrom_written_call clear blanks balanced] at h
  rcases List.mem_cons.mp h with rfl | later
  · cases none
  · have below := line_le_of_mem_recordsFrom later
    obtain ⟨more, rfl⟩ := cut.exists_of_balanced balanced shape
    obtain ⟨line, ended⟩ := cut.exists_line
    have swallowed : 0 < cut.text.count '\n' := List.count_pos_iff.mpr (by simp [ended])
    simp only [Position.line, List.count_append, List.count_reverse, List.count_cons] at below
    omega

end Unended

def Item.Sealed : Item → Prop
  | .remark text _ | .lineRemark text _ => Balanced text
  | _ => True

theorem isPlain_of_isAsciiBlank {c : Char} (h : isAsciiBlank c = true) : isPlain c = true := by
  simp only [isAsciiBlank, Bool.or_eq_true, beq_iff_eq] at h
  rcases h with (((rfl | rfl) | rfl) | rfl) | rfl <;> decide

theorem Item.Sealed.balanced {item : Item} (h : item.Sealed) : Balanced item.text := by
  cases item with
  | blank c blank =>
    exact balanced_of_plain (by rw [Item.text, List.all_cons, isPlain_of_isAsciiBlank blank]; rfl)
  | remark text _ =>
    have opens : Balanced ['/', '*'] := balanced_of_plain (by decide)
    have closes : Balanced ['*', '/'] := balanced_of_plain (by decide)
    exact opens.append (Balanced.append h closes)
  | lineRemark text _ =>
    have opens : Balanced ['/', '/'] := balanced_of_plain (by decide)
    have closes : Balanced ['\n'] := balanced_of_plain (by decide)
    exact opens.append (Balanced.append h closes)
  | call gap body blanks balanced =>
    have named : Balanced macroName := balanced_of_plain (by decide)
    have spaced : Balanced gap :=
      balanced_of_plain (List.all_eq_true.mpr fun c hc => isPlain_of_isAsciiBlank (blanks c hc))
    exact (named.append spaced).append (.group balanced .nil)

theorem Item.balanced_textOf {items : List Item} (h : ∀ item ∈ items, item.Sealed) :
    Balanced (Item.textOf items) := by
  induction items with
  | nil => exact .nil
  | cons item rest ih =>
    rw [Item.textOf_cons]
    exact (h item List.mem_cons_self).balanced.append
      (ih fun other ho => h other (List.mem_cons_of_mem _ ho))

theorem body_eq_none_of_failure? {r : Record} {line : Nat} {text : String}
    (h : r.failure? = some ⟨line, text, .unterminated⟩) : r.body = none ∧ r.line = line := by
  obtain ⟨found, body⟩ := r
  rw [Record.failure?, Record.read] at h
  cases body with
  | none =>
    simp only [Option.some.injEq, FailedCall.mk.injEq] at h
    exact ⟨rfl, h.1⟩
  | some body =>
    have decodes := decodes_ofBody body
    simp only at h
    generalize ofBody body = result at h decodes
    cases result with
    | ok d => cases h
    | error fault =>
      simp only [Option.some.injEq, FailedCall.mk.injEq] at h
      exact absurd (h.2.2 ▸ rfl) decodes.ne_unterminated

theorem Unended.not_mem_failures_of_some (cut : Unended) {before after : List Item}
    {found : List Char × List Char} (closed : body? (cut.text ++ Item.textOf after) = some found)
    {text : String} : ⟨(Item.textOf before).count '\n' + 1, text, .unterminated⟩ ∉
      (Document.ofText (String.ofList (Item.textOf before ++ cut.call ++ Item.textOf after))).failures := by
  have clear : Item.Clear ((Item.textOf before).reverse ++ []) := Item.clear_textOf before rfl
  have start : recordsFrom ⟨[], Item.textOf before ++ (cut.call ++ Item.textOf after)⟩ =
      Item.placed 1 before ++ recordsFrom ⟨(Item.textOf before).reverse ++ [], _⟩ :=
    Item.recordsFrom_textOf before rfl
  rw [failures_ofText, List.append_assoc, start, List.mem_filterMap]
  rintro ⟨r, hr, failed⟩
  obtain ⟨bodiless, line⟩ := body_eq_none_of_failure? failed
  rcases List.mem_append.mp hr with placed | behind
  · obtain ⟨body, -, shape⟩ := Item.exists_body_of_mem_placed placed
    exact absurd (bodiless.symm.trans shape) nofun
  · have below := cut.line_lt_of_some clear closed behind bodiless
    rw [List.append_nil, List.count_reverse, line] at below
    exact Nat.lt_irrefl _ below

/-- A call that does not end fails by itself and leaves the definitions and failures of all other calls as
they are, exactly if no parenthesis behind its lines closes it. That is so if literals are closed and
parentheses match in each comment behind it. -/
theorem ofText_unended (before after : List Item) (cut : Unended) :
    let whole := Document.ofText (String.ofList (Item.textOf (before ++ after)))
    let broken := Document.ofText (String.ofList (Item.textOf before ++ cut.call ++ Item.textOf after))
    let lines := (Item.textOf before).count '\n'
    let earlier := (Document.ofText (String.ofList (Item.textOf before))).failures
    let later := (Document.ofText (String.ofList (Item.textOf after))).failures
    whole.failures = earlier ++ later.map (·.below lines) ∧
      (broken.definitions = whole.definitions ∧ broken.failures = earlier ++
          ⟨lines + 1, "", .unterminated⟩ :: later.map (·.below (lines + cut.text.count '\n')) ↔
        ¬∃ body rest, Balanced body ∧ cut.text ++ Item.textOf after = body ++ ')' :: rest) ∧
      ((∀ item ∈ after, item.Sealed) →
        ¬∃ body rest, Balanced body ∧ cut.text ++ Item.textOf after = body ++ ')' :: rest) := by
  intro whole broken lines earlier later
  have earlier_eq : earlier = (Item.placed 1 before).filterMap Record.failure? := by
    rw [← Item.records_of_textOf]
    exact failures_ofText _
  have later_eq : later = (Item.placed 1 after).filterMap Record.failure? := by
    rw [← Item.records_of_textOf]
    exact failures_ofText _
  have wholeRecords : recordsFrom ⟨[], Item.textOf (before ++ after)⟩ =
      Item.placed 1 before ++ (Item.placed 1 after).map (·.below lines) := by
    rw [Item.records_of_textOf, Item.placed_append, Item.placed_add]
  have wholeDefinitions : whole.definitions = _ := definitions_ofText _
  have wholeFailures : whole.failures = _ := failures_ofText _
  refine ⟨?_, ⟨?_, ?_⟩, ?_⟩
  · rw [wholeFailures, wholeRecords, List.filterMap_append, Record.failures_below, earlier_eq, later_eq]
  · rintro ⟨-, failures⟩ ⟨body, rest, closed⟩
    have fails : ⟨lines + 1, "", .unterminated⟩ ∈ broken.failures := by
      rw [failures]
      exact List.mem_append_right _ List.mem_cons_self
    exact cut.not_mem_failures_of_some (body?_eq_some_iff.mpr closed) fails
  · intro unclosed
    have brokenRecords := cut.records_of_none before after (body?_eq_none_iff.mpr unclosed)
    have definitions : broken.definitions = _ := definitions_ofText _
    have failures : broken.failures = _ := failures_ofText _
    rw [definitions, wholeDefinitions, failures, brokenRecords, wholeRecords]
    simp only [List.filterMap_append, List.filterMap_cons, Record.definitions_below,
      Record.failures_below, ← earlier_eq, ← later_eq]
    exact ⟨rfl, rfl⟩
  · intro sealed
    exact body?_eq_none_iff.mp (cut.body?_eq_none_of_balanced (Item.balanced_textOf sealed))

/-- A parenthesis in a comment closes the call, which has then swallowed the definition between them. -/
theorem definition_lost_before_remark :
    let text := "DEFPARAM(b, \"x\", 1, 0, 2)\n/* :) */\n"
    ∃ (after : List Item) (cut : Unended), Item.textOf after = text.toList ∧ cut.text = "x\n".toList ∧
      Document.ofText text = ⟨[⟨"b", "x", 1, 0, 2⟩], []⟩ ∧
      Document.ofText (String.ofList cut.call ++ text) =
        ⟨[], [⟨1, "x\nDEFPARAM(b, \"x\", 1, 0, 2)\n/* :", .fieldCount 1⟩]⟩ := by
  have balanced : Balanced "b, \"x\", 1, 0, 2".toList := by
    have found : body? ("b, \"x\", 1, 0, 2".toList ++ [')']) = some ("b, \"x\", 1, 0, 2".toList, []) := by
      decide
    exact (body?_eq_some_iff.mp found).1
  have unclosed : body? "x\n".toList = none := by decide
  have unmarked : ∀ c ∈ "x\n".toList, isMark c = false := by simp [isMark]
  let cut : Unended := ⟨"x\n".toList, unmarked, by decide, by decide, by decide,
    body?_eq_none_iff.mp unclosed⟩
  let after : List Item := [.call [] "b, \"x\", 1, 0, 2".toList (by simp) balanced, .blank '\n' rfl,
    .remark " :) ".toList (by decide), .blank '\n' rfl]
  refine ⟨after, cut, rfl, rfl, ?_, ?_⟩
  · cbv
  · cbv

end FlagSurvey.Definition
