import Mathlib
import FlagSurvey.Proofs.Definition.Decoding
import FlagSurvey.Proofs.Definition.Record
import FlagSurvey.Proofs.Text.Boundary

/-! The search for calls over any text. Each turn of it either passes some text over or finds a call and goes
on where that call ends, or just inside of it if it does not end; so what is found stands in the text in the
order of the list and does not overlap. -/
namespace FlagSurvey.Definition

open Text Token

def Closes (body inner : List Char) : Prop := Balanced body ∧ body ++ [')'] <+: inner

namespace Call

def gap (call : Call) : List Char := (call.head.after.drop macroName.length).takeWhile isAsciiBlank

def written (call : Call) : List Char :=
  macroName ++ (call.gap ++ '(' :: (call.body.map (· ++ [')'])).getD [])

def start (call : Call) : Nat := byteLength call.head.before

def stop (call : Call) : Nat := call.start + byteLength call.written

def span (call : Call) : Set Nat := Set.Ico call.start call.stop

/-- The macro's name stands in the text by itself, blanks and a parenthesis follow, and the body goes to the
first parenthesis that closes that one, or there is none. -/
structure StandsIn (call : Call) (text : List Char) : Prop where
  apart : call.head.before.head?.any isWordPart = false
  ended : (call.gap ++ ['(']).head?.any isWordPart = false
  blanks : ∀ c ∈ call.gap, isAsciiBlank c = true
  exists_inner : ∃ inner, text = call.head.before.reverse ++ (macroName ++ (call.gap ++ '(' :: inner)) ∧
    match call.body with
    | some body => Closes body inner ∧ ∀ other, Closes other inner → body.length ≤ other.length
    | none => ∀ other, ¬Closes other inner

end Call

/-- What a search comes to that begins behind so many octets of the text. -/
inductive Searches (text : List Char) : Nat → List Call → Prop where
  | ended (n : Nat) : Searches text n []
  | passed {n m : Nat} {calls : List Call} (on : n ≤ m) (h : Searches text m calls) : Searches text n calls
  | found {call : Call} {more : List Call} (stands : call.StandsIn text)
    (h : Searches text call.stop more) : Searches text call.start (call :: more)

theorem closes_iff {body inner : List Char} : Closes body inner ↔ ∃ after, body? inner = some (body, after) := by
  unfold Closes
  constructor
  · rintro ⟨balanced, after, shape⟩
    exact ⟨after, body?_eq_some_iff.mpr ⟨balanced, by rw [← shape, List.append_assoc]; rfl⟩⟩
  · rintro ⟨after, found⟩
    obtain ⟨balanced, shape⟩ := body?_eq_some_iff.mp found
    exact ⟨balanced, after, by rw [shape, List.append_assoc]; rfl⟩

theorem Closes.unique {body other inner : List Char} (h : Closes body inner) (again : Closes other inner) :
    body = other := by
  obtain ⟨after, found⟩ := closes_iff.mp h
  obtain ⟨later, same⟩ := closes_iff.mp again
  simp only [found, Option.some.injEq, Prod.mk.injEq] at same
  exact same.1

theorem Position.exists_of_atMacro {p : Position} (h : p.atMacro = true) :
    ∃ rest, p.after = macroName ++ rest ∧ p.before.head?.any isWordPart = false ∧
      rest.head?.any isWordPart = false := by
  simp only [atMacro, Bool.and_eq_true, Bool.not_eq_true'] at h
  obtain ⟨rest, shape⟩ := List.isPrefixOf_iff_prefix.mp h.1.1
  rw [← shape, List.drop_left] at h
  exact ⟨rest, shape.symm, h.1.2, h.2⟩

theorem Position.exists_pastName {p : Position} (h : p.atMacro = true) (body : Option (List Char)) :
    let gap := Call.gap ⟨p, body⟩
    p.after = macroName ++ (gap ++ p.pastName.after) ∧
      p.pastName.before = gap.reverse ++ (macroName.reverse ++ p.before) := by
  obtain ⟨rest, shape, -⟩ := p.exists_of_atMacro h
  have blanks := List.takeWhile_append_dropWhile (p := isAsciiBlank) (l := rest)
  have past : p.pastName = ⟨(rest.takeWhile isAsciiBlank).reverse ++ (macroName.reverse ++ p.before),
      rest.dropWhile isAsciiBlank⟩ := by
    have named : p.advance macroName.length = ⟨macroName.reverse ++ p.before, rest⟩ := by
      have step := advance_append p.before macroName rest
      rwa [← shape] at step
    have step := advance_append (macroName.reverse ++ p.before) (rest.takeWhile isAsciiBlank)
      (rest.dropWhile isAsciiBlank)
    rw [blanks] at step
    rw [pastName, named, step]
  have gap : Call.gap ⟨p, body⟩ = rest.takeWhile isAsciiBlank := by
    rw [Call.gap, shape, List.drop_left]
  simp only [gap, past]
  exact ⟨by rw [blanks, shape], trivial⟩

variable {p : Position} {inner : List Char}

theorem standsIn_of_atMacro (named : p.atMacro = true) (opened : p.pastName.after = '(' :: inner) :
    Call.StandsIn ⟨p, (body? inner).map Prod.fst⟩ p.text := by
  obtain ⟨shape, -⟩ := p.exists_pastName named ((body? inner).map Prod.fst)
  obtain ⟨rest, begins, apart, ended⟩ := p.exists_of_atMacro named
  rw [opened] at shape
  have behind := List.append_cancel_left (shape.symm.trans begins)
  refine ⟨apart, ?_, fun c hc => List.mem_takeWhile_imp hc, inner, ?_, ?_⟩
  · rw [← behind] at ended
    generalize Call.gap _ = gap at ended ⊢
    cases gap <;> exact ended
  · rw [Position.text, ← shape]
  · cases found : body? inner with
    | none => exact fun other closes => by simp [closes_iff, found] at closes
    | some pair =>
      have closes : Closes pair.1 inner := closes_iff.mpr ⟨pair.2, found⟩
      exact ⟨closes, fun other again => by rw [closes.unique again]⟩

theorem stop_of_some {body after : List Char} (named : p.atMacro = true)
    (opened : p.pastName.after = '(' :: inner) (found : body? inner = some (body, after)) :
    byteLength (p.pastName.advance (body.length + 2)).before = Call.stop ⟨p, some body⟩ := by
  obtain ⟨-, before⟩ := p.exists_pastName named (some body)
  have shape : p.pastName = ⟨p.pastName.before, ('(' :: (body ++ [')'])) ++ after⟩ := by
    rw [List.cons_append, List.append_assoc, List.singleton_append, ← (body?_eq_some_iff.mp found).2, ← opened]
  have step := Position.advance_append p.pastName.before ('(' :: (body ++ [')'])) after
  rw [← shape, List.length_cons, List.length_append] at step
  rw [show body.length + 2 = body.length + [')'].length + 1 from rfl, step]
  simp only [Call.stop, Call.start, Call.written, before, Option.map_some, Option.getD_some,
    byteLength_append, byteLength_reverse, byteLength_cons]
  omega

theorem stop_of_none (named : p.atMacro = true) (opened : p.pastName.after = '(' :: inner) :
    byteLength (p.pastName.advance 1).before = Call.stop ⟨p, none⟩ := by
  obtain ⟨-, before⟩ := p.exists_pastName named none
  have inside : (p.pastName.advance 1).before = '(' :: p.pastName.before := by simp [Position.advance, opened]
  simp only [Call.stop, Call.start, Call.written, inside, before, Option.map_none, Option.getD_none,
    byteLength_append, byteLength_reverse, byteLength_cons, byteLength_nil]
  omega

theorem Position.offset_le_advance (p : Position) (n : Nat) :
    byteLength p.before ≤ byteLength (p.advance n).before := by
  rw [advance, byteLength_append]
  omega

/-- Turn by turn the search finds what stands in the text. -/
theorem searches_callsFrom (p : Position) : Searches p.text (byteLength p.before) (callsFrom p) := by
  induction p using callsFrom.induct with
  | case1 p done =>
    rw [callsFrom, if_pos done]
    exact .ended _
  | case2 p some_text named past inner opened body after found ih =>
    have stands := standsIn_of_atMacro named opened
    have stop := stop_of_some named opened found
    rw [found, Option.map_some] at stands
    rw [Position.text_advance, Position.text_pastName, stop] at ih
    rw [callsFrom_call named opened found]
    exact .found stands ih
  | case3 p some_text named past inner opened unfound ih =>
    have stands := standsIn_of_atMacro named opened
    have stop := stop_of_none named opened
    rw [unfound, Option.map_none] at stands
    rw [Position.text_advance, Position.text_pastName, stop] at ih
    rw [callsFrom_open named opened unfound]
    exact .found stands ih
  | case4 p some_text named past unopened ih =>
    have on : byteLength p.before ≤ byteLength past.before :=
      Nat.le_trans (p.offset_le_advance _) (Position.offset_le_advance _ _)
    rw [callsFrom_mention named unopened]
    exact .passed on (p.text_pastName ▸ ih)
  | case5 p some_text apart ih =>
    rw [Position.text_advance] at ih
    rw [callsFrom_passed some_text apart]
    exact .passed (p.offset_le_advance _) ih

namespace Searches

variable {text : List Char} {n : Nat} {calls : List Call}

theorem of_mem (h : Searches text n calls) {call : Call} (mem : call ∈ calls) :
    call.StandsIn text ∧ n ≤ call.start := by
  induction h with
  | ended => cases mem
  | passed on _ ih =>
    obtain ⟨stands, behind⟩ := ih mem
    exact ⟨stands, Nat.le_trans on behind⟩
  | @found first more stands _ ih =>
    rcases List.mem_cons.mp mem with rfl | later
    · exact ⟨stands, Nat.le_refl _⟩
    · obtain ⟨other, behind⟩ := ih later
      exact ⟨other, Nat.le_trans (Nat.le_add_right _ _) behind⟩

theorem pairwise (h : Searches text n calls) : calls.Pairwise fun a b => a.stop ≤ b.start := by
  induction h with
  | ended => exact .nil
  | passed _ _ ih => exact ih
  | found _ later ih => exact .cons (fun other mem => (later.of_mem mem).2) ih

end Searches

theorem Call.start_lt_stop (call : Call) : call.start < call.stop := by
  have named : byteLength macroName = 8 := by decide
  rw [stop, written, byteLength_append, named]
  omega

theorem Call.disjoint_span {a b : Call} (h : a.stop ≤ b.start) : Disjoint a.span b.span := by
  rw [Set.disjoint_left]
  intro n inside other
  have before : n < a.stop := inside.2
  have behind : b.start ≤ n := other.1
  omega

theorem name_of_nameField {field : List Char} {name : String} (h : nameField field = .ok name) :
    name.toList ≠ [] ∧ ∀ c ∈ name.toList, isNameChar c = true := by
  have checked {read : String} (h : (if read.toList != [] && read.toList.all isNameChar then
      (pure read : Except Malformed String) else .error (.name (shown field))) = .ok name) :
      name.toList ≠ [] ∧ ∀ c ∈ name.toList, isNameChar c = true := by
    split at h
    · next valid =>
      cases h
      simpa using valid
    · cases h
  unfold nameField at h
  simp only at h
  split at h
  · cases literal : textField (trim field) with
    | error fault =>
      rw [literal] at h
      cases h
    | ok read =>
      rw [literal] at h
      exact checked h
  · exact checked h

theorem Decodes.sound {fields : List (List Char)} {d : Definition} (h : Decodes fields (.ok d)) :
    d.name.toList ≠ [] ∧ (∀ c ∈ d.name.toList, isNameChar c = true) ∧ d.min ≤ d.default := by
  generalize shape : Except.ok d = result at h
  induction h with
  | definition named _ _ _ _ above =>
    cases shape
    obtain ⟨some_char, valid⟩ := name_of_nameField named
    exact ⟨some_char, valid, above⟩
  | sixth _ ih => exact ih shape
  | _ => cases shape

theorem sound_of_define {call : Call} {d : Definition} (h : call.define = .ok d) :
    d.name.toList ≠ [] ∧ (∀ c ∈ d.name.toList, isNameChar c = true) ∧ d.min ≤ d.default := by
  unfold Call.define at h
  split at h
  · next body _ => exact (h ▸ decodes_ofBody body).sound
  · cases h

/-- The calls found in a text stand there as they are told, one behind the other with no octet in common.
Each comes to one definition or one failure of the document, in their order, failures with the line of the
macro's name; a definition has a name and a default that its minimum allows. -/
theorem calls_stand_in_text (text : String) :
    let found := calls text.toList
    let document := Document.ofText text
    (∀ call ∈ found, call.StandsIn text.toList) ∧
    found.Pairwise (fun a b => a.start < b.start ∧ Disjoint a.span b.span) ∧
    document.definitions = found.filterMap (fun call => call.define.toOption) ∧
    document.failures = found.filterMap (fun call => match call.define with
      | .ok _ => none
      | .error fault => some ⟨call.head.before.count '\n' + 1, shown (call.body.getD []), fault⟩) ∧
    document.definitions.length + document.failures.length = found.length ∧
    ∀ d ∈ document.definitions,
      d.name.toList ≠ [] ∧ (∀ c ∈ d.name.toList, isNameChar c = true) ∧ d.min ≤ d.default := by
  intro found document
  have searches : Searches text.toList 0 found := searches_callsFrom ⟨[], text.toList⟩
  have definitions : document.definitions = found.filterMap (fun call => call.define.toOption) := by
    rw [show document = Document.ofCalls found from rfl, definitions_ofCalls, List.filterMap_map]
    congr
    funext call
    have same : call.record.read = call.define := rfl
    rw [Function.comp_apply, Record.definition?, same]
    cases call.define <;> rfl
  have failures : document.failures = found.filterMap (fun call => match call.define with
      | .ok _ => none
      | .error fault => some ⟨call.head.before.count '\n' + 1, shown (call.body.getD []), fault⟩) := by
    rw [show document = Document.ofCalls found from rfl, failures_ofCalls, List.filterMap_map]
    rfl
  refine ⟨fun call mem => (searches.of_mem mem).1, ?_, definitions, failures, Document.length_ofCalls found,
    fun d mem => ?_⟩
  · refine searches.pairwise.imp fun {a b} behind => ⟨?_, Call.disjoint_span behind⟩
    exact Nat.lt_of_lt_of_le a.start_lt_stop behind
  · rw [definitions, List.mem_filterMap] at mem
    obtain ⟨call, -, defined⟩ := mem
    have comes : call.define = .ok d := by
      cases result : call.define with
      | error fault => simp [result, Except.toOption] at defined
      | ok other =>
        simp only [result, Except.toOption, Option.some.injEq] at defined
        rw [defined]
    exact sound_of_define comes

end FlagSurvey.Definition
