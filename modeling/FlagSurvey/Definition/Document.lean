import FlagSurvey.Definition.Basic
import FlagSurvey.Definition.Call
import FlagSurvey.Definition.Field

/-! Definition texts. Each call defines a parameter or fails by itself: of five fields, or of six with
the first passed over, the first that cannot be read decides, and then a default below the minimum. -/
namespace FlagSurvey.Definition

open Text

structure FailedCall where
  line : Nat
  /-- The arguments without blanks around them, if they end. -/
  text : String
  fault : Malformed
  deriving DecidableEq, Repr

structure Document where
  definitions : List Definition
  failures : List FailedCall
  deriving DecidableEq, Repr

def ofFields (name description default min max : List Char) : Except Malformed Definition := do
  let name ← nameField name
  let description ← textField description
  let default ← numberField default
  let min ← numberField min
  let max ← numberField max
  if default < min then .error (.defaultBelowMin default min)
  else pure ⟨name, description, default, min, max⟩

def ofBody (body : List Char) : Except Malformed Definition :=
  match splitFields body with
  | [name, description, default, min, max] => ofFields name description default min max
  | [_, name, description, default, min, max] => ofFields name description default min max
  | fields => .error (.fieldCount fields.length)

namespace Call

def define (call : Call) : Except Malformed Definition :=
  match call.body with
  | some body => ofBody body
  | none => .error .unterminated

def failed (call : Call) (fault : Malformed) : FailedCall :=
  ⟨call.head.line, shown (call.body.getD []), fault⟩

end Call

def Document.add (call : Call) (document : Document) : Document :=
  match call.define with
  | .ok definition => { document with definitions := definition :: document.definitions }
  | .error fault => { document with failures := call.failed fault :: document.failures }

def Document.ofCalls (calls : List Call) : Document := calls.foldr Document.add ⟨[], []⟩

def Document.ofText (text : String) : Document := .ofCalls (calls text.toList)

theorem Document.length_ofCalls (calls : List Call) :
    (ofCalls calls).definitions.length + (ofCalls calls).failures.length = calls.length := by
  induction calls with
  | nil => rfl
  | cons call rest ih =>
    simp only [ofCalls, List.foldr_cons, add, List.length_cons] at ih ⊢
    split <;> simp only [List.length_cons] <;> omega

end FlagSurvey.Definition
