import FlagSurvey.Definition.Document
import FlagSurvey.Proofs.Definition.Nesting

/-! Bodies as fields, and fields as definitions. A balanced body is cut in one way into fields, at the
commas outside literals and parentheses, and the fields come to a definition or to the fault of the first
of them that cannot be read. -/
namespace FlagSurvey.Definition

open Text

inductive FieldText : List Char → Prop where
  | nil : FieldText []
  | plain {c : Char} {rest : List Char} (unmarked : isMark c = false) (unopened : c ≠ '(')
    (unclosed : c ≠ ')') (uncut : c ≠ ',') (h : FieldText rest) : FieldText (c :: rest)
  | literal {mark : Char} {inner rest : List Char} (marked : isMark mark = true)
    (inside : LiteralText mark inner) (h : FieldText rest) :
    FieldText (mark :: (inner ++ mark :: rest))
  | group {inner rest : List Char} (inside : Balanced inner) (h : FieldText rest) :
    FieldText ('(' :: (inner ++ ')' :: rest))

/-- The body is made of the fields, with a comma between any two. -/
structure SplitsInto (body : List Char) (fields : List (List Char)) : Prop where
  joined : List.intercalate [','] fields = body
  some_field : fields ≠ []
  whole : ∀ field ∈ fields, FieldText field

theorem FieldText.passes {field : List Char} (h : FieldText field) :
    Passes ',' .code 0 field .code 0 := by
  induction h with
  | nil => exact .nil _ _
  | plain unmarked unopened unclosed uncut _ ih =>
    exact passes_plain unmarked unopened unclosed (fun _ => uncut) ih
  | literal marked inside _ ih => exact passes_literal (by decide) marked inside ih
  | group inside _ ih =>
    have within : Passes ',' .code 1 _ .code 1 := inside.passes (by decide) (by decide) nofun
    exact passes_group (by decide) within ih

theorem splitFields_of_splitsInto {body : List Char} {fields : List (List Char)}
    (h : SplitsInto body fields) : splitFields body = fields := by
  obtain ⟨rfl, some_field, whole⟩ := h
  induction fields with
  | nil => exact absurd rfl some_field
  | cons field more ih =>
    have first := (whole field List.mem_cons_self).passes.splitOn_eq
    cases more with
    | nil =>
      have last := first []
      rw [List.append_nil] at last
      have alone : leadIn field (splitOn .code 0 []) = [field ++ []] := rfl
      rw [splitFields, List.intercalate_singleton, last, alone, List.append_nil]
    | cons next more =>
      have later := ih nofun fun field h => whole field (List.mem_cons_of_mem _ h)
      have cut (rest : List Char) : splitOn .code 0 (',' :: rest) = [] :: splitFields rest :=
        if_pos ⟨rfl, rfl, rfl⟩
      rw [splitFields, List.intercalate_cons_cons, List.append_assoc, List.singleton_append, first, cut,
        later, leadIn, List.append_nil]

theorem forall_mem_leadIn {text : List Char} {fields : List (List Char)} (some_field : fields ≠ [])
    (whole : ∀ field ∈ fields, FieldText field)
    (joins : ∀ field, FieldText field → FieldText (text ++ field)) :
    ∀ field ∈ leadIn text fields, FieldText field := by
  cases fields with
  | nil => exact absurd rfl some_field
  | cons first more =>
    intro field h
    rcases List.mem_cons.mp h with rfl | later
    · exact joins first (whole first List.mem_cons_self)
    · exact whole field (List.mem_cons_of_mem _ later)

theorem fieldText_of_mem_splitFields {body : List Char} (h : Balanced body) :
    ∀ field ∈ splitFields body, FieldText field := by
  induction h with
  | nil =>
    intro field h
    rw [List.mem_singleton.mp h]
    exact .nil
  | @plain c rest unmarked unopened unclosed _ ih =>
    by_cases comma : c = ','
    · have cut : splitFields (c :: rest) = [] :: splitFields rest := if_pos ⟨rfl, rfl, comma⟩
      rw [cut]
      exact List.forall_mem_cons.mpr ⟨.nil, ih⟩
    · have across : Passes ',' .code 0 [c] .code 0 :=
        passes_plain unmarked unopened unclosed (fun _ => comma) (.nil _ _)
      have passed := across.splitOn_eq rest
      rw [List.singleton_append] at passed
      rw [splitFields, passed]
      exact forall_mem_leadIn (splitOn_ne_nil _ _ _) ih
        fun field h => .plain unmarked unopened unclosed comma h
  | @literal mark inner rest marked inside _ ih =>
    have across : Passes ',' .code 0 (mark :: (inner ++ [mark])) .code 0 :=
      passes_literal (by decide) marked inside (.nil _ _)
    have passed := across.splitOn_eq rest
    rw [List.cons_append, List.append_assoc, List.singleton_append] at passed
    rw [splitFields, passed]
    refine forall_mem_leadIn (splitOn_ne_nil _ _ _) ih fun field h => ?_
    rw [List.cons_append, List.append_assoc]
    exact .literal marked inside h
  | @group inner rest inside _ _ ih =>
    have within : Passes ',' .code 1 _ .code 1 := inside.passes (by decide) (by decide) nofun
    have across : Passes ',' .code 0 ('(' :: (inner ++ [')'])) .code 0 :=
      passes_group (by decide) within (.nil _ _)
    have passed := across.splitOn_eq rest
    rw [List.cons_append, List.append_assoc, List.singleton_append] at passed
    rw [splitFields, passed]
    refine forall_mem_leadIn (splitOn_ne_nil _ _ _) ih fun field h => ?_
    rw [List.cons_append, List.append_assoc]
    exact .group inside h

theorem splitsInto_iff {body : List Char} (h : Balanced body) {fields : List (List Char)} :
    SplitsInto body fields ↔ fields = splitFields body := by
  constructor
  · exact fun split => (splitFields_of_splitsInto split).symm
  · rintro rfl
    exact ⟨intercalate_splitOn _ _ _, splitOn_ne_nil _ _ _, fieldText_of_mem_splitFields h⟩

/-- Fields come to a definition if each can be read and the default is not below the minimum, and else to
the fault of the first check that fails. Of six fields the first is passed over. -/
inductive Decodes : List (List Char) → Except Malformed Definition → Prop where
  | definition {name description default min max : List Char} {n t : String} {v least greatest : Int}
    (named : nameField name = .ok n) (described : textField description = .ok t)
    (defaulted : numberField default = .ok v) (bounded : numberField min = .ok least)
    (read : numberField max = .ok greatest) (above : least ≤ v) :
    Decodes [name, description, default, min, max] (.ok ⟨n, t, v, least, greatest⟩)
  | badName {name description default min max : List Char} {fault : Malformed}
    (unnamed : nameField name = .error fault) :
    Decodes [name, description, default, min, max] (.error fault)
  | badDescription {name description default min max : List Char} {n : String} {fault : Malformed}
    (named : nameField name = .ok n) (undescribed : textField description = .error fault) :
    Decodes [name, description, default, min, max] (.error fault)
  | badDefault {name description default min max : List Char} {n t : String} {fault : Malformed}
    (named : nameField name = .ok n) (described : textField description = .ok t)
    (unread : numberField default = .error fault) :
    Decodes [name, description, default, min, max] (.error fault)
  | badMin {name description default min max : List Char} {n t : String} {v : Int} {fault : Malformed}
    (named : nameField name = .ok n) (described : textField description = .ok t)
    (defaulted : numberField default = .ok v) (unread : numberField min = .error fault) :
    Decodes [name, description, default, min, max] (.error fault)
  | badMax {name description default min max : List Char} {n t : String} {v least : Int}
    {fault : Malformed} (named : nameField name = .ok n) (described : textField description = .ok t)
    (defaulted : numberField default = .ok v) (bounded : numberField min = .ok least)
    (unread : numberField max = .error fault) :
    Decodes [name, description, default, min, max] (.error fault)
  | belowMin {name description default min max : List Char} {n t : String} {v least greatest : Int}
    (named : nameField name = .ok n) (described : textField description = .ok t)
    (defaulted : numberField default = .ok v) (bounded : numberField min = .ok least)
    (read : numberField max = .ok greatest) (below : v < least) :
    Decodes [name, description, default, min, max] (.error (.defaultBelowMin v least))
  | sixth {first name description default min max : List Char} {result : Except Malformed Definition}
    (h : Decodes [name, description, default, min, max] result) :
    Decodes [first, name, description, default, min, max] result
  | badCount {fields : List (List Char)} (notFive : fields.length ≠ 5) (notSix : fields.length ≠ 6) :
    Decodes fields (.error (.fieldCount fields.length))

theorem decodes_ofFields (name description default min max : List Char) :
    Decodes [name, description, default, min, max] (ofFields name description default min max) := by
  unfold ofFields
  cases named : nameField name with
  | error fault => exact .badName named
  | ok n =>
    cases described : textField description with
    | error fault => exact .badDescription named described
    | ok t =>
      cases defaulted : numberField default with
      | error fault => exact .badDefault named described defaulted
      | ok v =>
        cases least : numberField min with
        | error fault => exact .badMin named described defaulted least
        | ok low =>
          cases greatest : numberField max with
          | error fault => exact .badMax named described defaulted least greatest
          | ok high =>
            by_cases below : v < low
            · have result : Decodes [name, description, default, min, max] _ :=
                .belowMin named described defaulted least greatest below
              simpa [bind, Except.bind, pure, Except.pure, below] using result
            · have result : Decodes [name, description, default, min, max] (.ok ⟨n, t, v, low, high⟩) :=
                .definition named described defaulted least greatest (Int.not_lt.mp below)
              simpa [bind, Except.bind, pure, Except.pure, below] using result

theorem decodes_ofBody (body : List Char) : Decodes (splitFields body) (ofBody body) := by
  rw [ofBody]
  generalize splitFields body = fields
  split
  · exact decodes_ofFields _ _ _ _ _
  · exact .sixth (decodes_ofFields _ _ _ _ _)
  · next notFive notSix =>
    refine .badCount (fun five => ?_) fun six => ?_
    · match fields, five with
      | [a, b, c, d, e], _ => exact notFive a b c d e rfl
    · match fields, six with
      | [a, b, c, d, e, f], _ => exact notSix a b c d e f rfl

theorem Decodes.unique {fields : List (List Char)} {first second : Except Malformed Definition}
    (h : Decodes fields first) (again : Decodes fields second) : first = second := by
  induction h with
  | sixth h ih =>
    cases again with
    | sixth again => exact ih again
    | badCount notFive notSix => exact absurd rfl notSix
  | badCount notFive notSix =>
    cases again with
    | badCount => rfl
    | sixth => exact absurd rfl notSix
    | _ => exact absurd rfl notFive
  | _ =>
    cases again with
    | badCount notFive => exact absurd rfl notFive
    | _ => grind

theorem textField_ne_unterminated (field : List Char) : textField field ≠ .error .unterminated := by
  unfold textField
  split <;> simp

theorem nameField_ne_unterminated (field : List Char) : nameField field ≠ .error .unterminated := by
  have checked (name : String) : (if name.toList != [] && name.toList.all isNameChar then
      (pure name : Except Malformed String) else .error (.name (shown field))) ≠ .error .unterminated := by
    split <;> exact nofun
  unfold nameField
  simp only
  split
  · cases read : textField (trim field) with
    | error fault =>
      rintro ⟨rfl⟩
      exact textField_ne_unterminated _ read
    | ok name => exact checked name
  · exact checked _

theorem numberField_ne_unterminated (field : List Char) : numberField field ≠ .error .unterminated := by
  unfold numberField
  split <;> simp

theorem Decodes.ne_unterminated {fields : List (List Char)} {result : Except Malformed Definition}
    (h : Decodes fields result) : result ≠ .error .unterminated := by
  induction h with
  | definition => exact nofun
  | badName unread =>
    exact fun same => nameField_ne_unterminated _ (Except.error.inj same ▸ unread)
  | badDescription _ unread =>
    exact fun same => textField_ne_unterminated _ (Except.error.inj same ▸ unread)
  | badDefault _ _ unread =>
    exact fun same => numberField_ne_unterminated _ (Except.error.inj same ▸ unread)
  | badMin _ _ _ unread =>
    exact fun same => numberField_ne_unterminated _ (Except.error.inj same ▸ unread)
  | badMax _ _ _ _ unread =>
    exact fun same => numberField_ne_unterminated _ (Except.error.inj same ▸ unread)
  | belowMin => exact nofun
  | sixth _ ih => exact ih
  | badCount => exact nofun

end FlagSurvey.Definition
