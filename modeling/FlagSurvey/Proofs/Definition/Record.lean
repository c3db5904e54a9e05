import FlagSurvey.Definition.Document

/-! The calls that are found from a place on, each told by its line and its body. That is all a document
takes of them, and a place that holds no call passes the search on to the next one. -/
namespace FlagSurvey.Definition

/-- A call by the line of its name and by its body, which is none if it does not end. -/
structure Record where
  line : Nat
  body : Option (List Char)
  deriving DecidableEq, Repr

def Call.record (call : Call) : Record := ⟨call.head.line, call.body⟩

namespace Record

def read (r : Record) : Except Malformed Definition :=
  match r.body with
  | some body => ofBody body
  | none => .error .unterminated

def definition? (r : Record) : Option Definition :=
  match r.read with
  | .ok definition => some definition
  | .error _ => none

def failure? (r : Record) : Option FailedCall :=
  match r.read with
  | .ok _ => none
  | .error fault => some ⟨r.line, shown (r.body.getD []), fault⟩

def below (r : Record) (lines : Nat) : Record := { r with line := r.line + lines }

end Record

def FailedCall.below (f : FailedCall) (lines : Nat) : FailedCall := { f with line := f.line + lines }

namespace Record

theorem failure?_below (r : Record) (lines : Nat) :
    (r.below lines).failure? = r.failure?.map (·.below lines) := by
  rw [failure?, failure?]
  have same : (r.below lines).read = r.read := rfl
  rw [same]
  cases r.read <;> rfl

theorem definitions_below (records : List Record) (lines : Nat) :
    (records.map (·.below lines)).filterMap definition? = records.filterMap definition? :=
  List.filterMap_map

theorem failures_below (records : List Record) (lines : Nat) :
    (records.map (·.below lines)).filterMap failure? =
      (records.filterMap failure?).map (·.below lines) := by
  rw [List.filterMap_map, List.map_filterMap]
  exact congrArg (List.filterMap · records) (funext fun r => failure?_below r lines)

end Record

def recordsFrom (p : Position) : List Record := (callsFrom p).map Call.record

theorem definitions_ofCalls (calls : List Call) :
    (Document.ofCalls calls).definitions = (calls.map Call.record).filterMap Record.definition? := by
  induction calls with
  | nil => rfl
  | cons call rest ih =>
    have same : call.record.read = call.define := rfl
    rw [Document.ofCalls] at ih ⊢
    rw [List.foldr_cons, Document.add, List.map_cons, List.filterMap_cons, Record.definition?, same]
    cases call.define with
    | ok definition => exact congrArg (definition :: ·) ih
    | error fault => exact ih

theorem failures_ofCalls (calls : List Call) :
    (Document.ofCalls calls).failures = (calls.map Call.record).filterMap Record.failure? := by
  induction calls with
  | nil => rfl
  | cons call rest ih =>
    have same : call.record.read = call.define := rfl
    rw [Document.ofCalls] at ih ⊢
    rw [List.foldr_cons, Document.add, List.map_cons, List.filterMap_cons, Record.failure?, same]
    cases call.define with
    | ok definition => exact ih
    | error fault => exact congrArg (call.failed fault :: ·) ih

theorem definitions_ofText (text : List Char) :
    (Document.ofText (String.ofList text)).definitions =
      (recordsFrom ⟨[], text⟩).filterMap Record.definition? := by
  rw [Document.ofText, String.toList_ofList]
  exact definitions_ofCalls _

theorem failures_ofText (text : List Char) :
    (Document.ofText (String.ofList text)).failures =
      (recordsFrom ⟨[], text⟩).filterMap Record.failure? := by
  rw [Document.ofText, String.toList_ofList]
  exact failures_ofCalls _

theorem Position.advance_append (before text rest : List Char) :
    Position.advance ⟨before, text ++ rest⟩ text.length = ⟨text.reverse ++ before, rest⟩ := by
  simp [advance]

theorem Position.text_pastName (p : Position) : p.pastName.text = p.text := by
  simp only [pastName, text_advance]

theorem recordsFrom_end (before : List Char) : recordsFrom ⟨before, []⟩ = [] := by
  rw [recordsFrom, callsFrom, if_pos rfl]
  rfl

theorem recordsFrom_pass {before text rest : List Char} (some_text : text ≠ [])
    (apart : Position.atMacro ⟨before, text ++ rest⟩ = false)
    (passed : Position.passed ⟨before, text ++ rest⟩ = text.length) :
    recordsFrom ⟨before, text ++ rest⟩ = recordsFrom ⟨text.reverse ++ before, rest⟩ := by
  have onward : text ++ rest ≠ [] := List.append_ne_nil_of_left_ne_nil some_text rest
  rw [recordsFrom, callsFrom, if_neg onward, if_neg (by simp [apart]), passed, Position.advance_append]
  rfl

theorem not_atMacro_of_ne {before rest : List Char} {c : Char} (h : c ≠ 'D') :
    Position.atMacro ⟨before, c :: rest⟩ = false := by
  have apart : ('D' == c) = false := by simpa using h.symm
  simp [Position.atMacro, macroName, List.isPrefixOf, apart]

theorem recordsFrom_cons {before rest : List Char} {c : Char}
    (apart : Position.atMacro ⟨before, c :: rest⟩ = false) (slash : c ≠ '/') (mark : c ≠ '"') :
    recordsFrom ⟨before, c :: rest⟩ = recordsFrom ⟨c :: before, rest⟩ := by
  have one : Position.passed ⟨before, [c] ++ rest⟩ = 1 := by
    rw [Position.passed]
    split <;> simp_all
  have passed : recordsFrom ⟨before, [c] ++ rest⟩ = recordsFrom ⟨[c].reverse ++ before, rest⟩ :=
    recordsFrom_pass nofun apart one
  exact passed

theorem Position.prefix_of_atMacro {p : Position} (h : p.atMacro = true) : macroName <+: p.after := by
  rw [atMacro, Bool.and_eq_true, Bool.and_eq_true, List.isPrefixOf_iff_prefix] at h
  exact h.1.1

theorem Position.after_ne_nil_of_atMacro {p : Position} (h : p.atMacro = true) : p.after ≠ [] := by
  intro ended
  simp [atMacro, macroName, ended] at h

/-- A call that ends is found with its body, and the search goes on behind it. -/
theorem callsFrom_call {p : Position} {inner body after : List Char} (named : p.atMacro = true)
    (opened : p.pastName.after = '(' :: inner) (found : body? inner = some (body, after)) :
    callsFrom p = ⟨p, some body⟩ :: callsFrom (p.pastName.advance (body.length + 2)) := by
  rw [callsFrom, if_neg (Position.after_ne_nil_of_atMacro named), if_pos named]
  simp only [opened, found]

/-- A call that does not end is found without a body, and the search goes on inside of it. -/
theorem callsFrom_open {p : Position} {inner : List Char} (named : p.atMacro = true)
    (opened : p.pastName.after = '(' :: inner) (unfound : body? inner = none) :
    callsFrom p = ⟨p, none⟩ :: callsFrom (p.pastName.advance 1) := by
  rw [callsFrom, if_neg (Position.after_ne_nil_of_atMacro named), if_pos named]
  simp only [opened, unfound]

theorem callsFrom_mention {p : Position} (named : p.atMacro = true)
    (unopened : ∀ inner, p.pastName.after ≠ '(' :: inner) : callsFrom p = callsFrom p.pastName := by
  rw [callsFrom, if_neg (Position.after_ne_nil_of_atMacro named), if_pos named]
  simp only

theorem callsFrom_passed {p : Position} (some_text : p.after ≠ []) (apart : ¬p.atMacro = true) :
    callsFrom p = callsFrom (p.advance p.passed) := by
  rw [callsFrom, if_neg some_text, if_neg apart]

theorem recordsFrom_call {p : Position} {inner body after : List Char} (named : p.atMacro = true)
    (opened : p.pastName.after = '(' :: inner) (found : body? inner = some (body, after)) :
    recordsFrom p = ⟨p.line, some body⟩ :: recordsFrom (p.pastName.advance (body.length + 2)) := by
  rw [recordsFrom, callsFrom_call named opened found]
  rfl

theorem recordsFrom_open {p : Position} {inner : List Char} (named : p.atMacro = true)
    (opened : p.pastName.after = '(' :: inner) (unfound : body? inner = none) :
    recordsFrom p = ⟨p.line, none⟩ :: recordsFrom (p.pastName.advance 1) := by
  rw [recordsFrom, callsFrom_open named opened unfound]
  rfl

theorem line_le_advance (p : Position) (n : Nat) : p.line ≤ (p.advance n).line := by
  rw [Position.line, Position.line, Position.advance, List.count_append]
  omega

theorem line_le_of_mem_recordsFrom {p : Position} {r : Record} (h : r ∈ recordsFrom p) :
    p.line ≤ r.line := by
  have past_le (p : Position) : p.line ≤ p.pastName.line :=
    Nat.le_trans (line_le_advance p _) (line_le_advance _ _)
  induction p using callsFrom.induct with
  | case1 p done =>
    rw [recordsFrom, callsFrom, if_pos done] at h
    cases h
  | case2 p some_text named past inner opened body after found ih =>
    rw [recordsFrom_call named opened found, List.mem_cons] at h
    rcases h with rfl | later
    · exact Nat.le_refl _
    · exact Nat.le_trans (past_le p) (Nat.le_trans (line_le_advance _ _) (ih later))
  | case3 p some_text named past inner opened unfound ih =>
    rw [recordsFrom_open named opened unfound, List.mem_cons] at h
    rcases h with rfl | later
    · exact Nat.le_refl _
    · exact Nat.le_trans (past_le p) (Nat.le_trans (line_le_advance _ 1) (ih later))
  | case4 p some_text named past unopened ih =>
    rw [recordsFrom, callsFrom_mention named unopened] at h
    exact Nat.le_trans (past_le p) (ih h)
  | case5 p some_text apart ih =>
    rw [recordsFrom, callsFrom_passed some_text apart] at h
    exact Nat.le_trans (line_le_advance p _) (ih h)

end FlagSurvey.Definition
