import FlagSurvey.Proofs.Definition.Octets
import FlagSurvey.Proofs.Definition.Record
import FlagSurvey.Proofs.Text.Boundary

/-! Definition texts read by cursors over their octets. A cursor moves on by an octet or two, behind a literal
or behind something that was looked for, and may come to stand inside of a character or past the end. So each
octet that is asked for, each piece that is cut out, each count that goes down and each turn of a loop is
checked, and a check that fails ends the reading with a fault of its own. -/
namespace FlagSurvey.Definition.Cursor

open Text Number

inductive Fault where
  | octet
  /-- A piece that does not begin and end between characters of the text, or ends before it begins. -/
  | piece
  | count
  /-- A turn that does not move its cursor forward. -/
  | turn
  deriving DecidableEq, Repr

abbrev Checked := Except Fault

@[simp] theorem ok_bind {α β : Type} (a : α) (next : α → Checked β) : (Except.ok a >>= next) = next a := rfl

@[simp] theorem pure_eq_ok {α : Type} (a : α) : (pure a : Checked α) = .ok a := rfl

/-- What a turn of a loop comes to: where the cursor goes on and what the loop carries along, or the end. -/
inductive Turn (σ ρ : Type) where
  | next (cursor : Nat) (state : σ)
  | leave (result : ρ)

def loop {σ ρ : Type} (size : Nat) (turn : Nat → σ → Checked (Turn σ ρ)) (ended : Nat → σ → Checked ρ)
    (i : Nat) (state : σ) : Checked ρ :=
  if i < size then
    match turn i state with
    | .error fault => .error fault
    | .ok (.leave result) => .ok result
    | .ok (.next j state) => if i < j then loop size turn ended j state else .error .turn
  else ended i state
termination_by size - i

def octetAt (text : List Char) (i : Nat) : Checked Char :=
  match (octets text)[i]? with
  | some octet => .ok octet
  | none => .error .octet

def octetsFrom (text : List Char) (i : Nat) : Checked (List Char) :=
  if i ≤ byteLength text then .ok ((octets text).drop i) else .error .octet

def piece (text : List Char) (first last : Nat) : Checked (List Char) :=
  match piece? text first last with
  | some inner => .ok inner
  | none => .error .piece

def lowered : Nat → Checked Nat
  | 0 => .error .count
  | n + 1 => .ok n

def find? (needle : List Char) : List Char → Option Nat
  | [] => if needle.isEmpty then some 0 else none
  | c :: rest => if needle.isPrefixOf (c :: rest) then some 0 else (find? needle rest).map (· + c.utf8Size)

def runTurn (kind : Char → Bool) (text : List Char) (i : Nat) (_ : Unit) : Checked (Turn Unit Nat) := do
  if kind (← octetAt text i) then return .next (i + 1) () else return .leave i

def pastRun (kind : Char → Bool) (text : List Char) (i : Nat) : Checked Nat :=
  loop (byteLength text) (runTurn kind text) (fun i _ => return i) i ()

def literalTurn (text : List Char) (mark : Char) (i : Nat) (_ : Unit) : Checked (Turn Unit Nat) := do
  let octet ← octetAt text i
  if octet == '\\' then return .next (i + 2) ()
  else if octet == mark then return .leave (i + 1)
  else return .next (i + 1) ()

def literalFrom (text : List Char) (mark : Char) (i : Nat) : Checked Nat :=
  loop (byteLength text) (literalTurn text mark) (fun _ _ => return byteLength text) i ()

def pastLiteral (text : List Char) (i : Nat) : Checked Nat := do
  literalFrom text (← octetAt text i) (i + 1)

def bodyTurn (text : List Char) (opening i depth : Nat) : Checked (Turn Nat (Option (List Char) × Nat)) := do
  let octet ← octetAt text i
  if isMark octet then return .next (← pastLiteral text i) depth
  else if octet == '(' then return .next (i + 1) (depth + 1)
  else if octet == ')' then
    let depth ← lowered depth
    if depth == 0 then return .leave (some (← piece text (opening + 1) i), i + 1)
    else return .next (i + 1) depth
  else return .next (i + 1) depth

def bodyFrom (text : List Char) (opening i depth : Nat) : Checked (Option (List Char) × Nat) :=
  loop (byteLength text) (bodyTurn text opening) (fun _ _ => return (none, byteLength text)) i depth

def bodyAt (text : List Char) (opening : Nat) : Checked (Option (List Char) × Nat) :=
  bodyFrom text opening opening 0

structure Splitting where
  fields : List (List Char)
  depth : Nat
  start : Nat

def splitTurn (body : List Char) (i : Nat) (s : Splitting) : Checked (Turn Splitting (List (List Char))) := do
  let octet ← octetAt body i
  if isMark octet then return .next (← pastLiteral body i) s
  else if octet == '(' then return .next (i + 1) { s with depth := s.depth + 1 }
  else if octet == ')' then return .next (i + 1) { s with depth := s.depth - 1 }
  else if octet == ',' && s.depth == 0 then
    return .next (i + 1) ⟨(← piece body s.start i) :: s.fields, 0, i + 1⟩
  else return .next (i + 1) s

def fieldsFrom (body : List Char) (i : Nat) (s : Splitting) : Checked (List (List Char)) :=
  loop (byteLength body) (splitTurn body)
    (fun _ s => return ((← piece body s.start (byteLength body)) :: s.fields).reverse) i s

def fieldsOf (body : List Char) : Checked (List (List Char)) := fieldsFrom body 0 ⟨[], 0, 0⟩

def tokenTurn (field : List Char) (i : Nat) (done : List Token) :
    Checked (Turn (List Token) (Except ExpressionFault (List Token))) := do
  let octet ← octetAt field i
  if Token.isGap octet then return .next (i + 1) done
  else
    match Token.sign? octet with
    | some token => return .next (i + 1) (token :: done)
    | none =>
      if isDigit octet then
        let stop ← pastRun isAlphanumeric field i
        let text ← piece field i stop
        match Token.literalValue? text with
        | some value => return .next stop (.literal value :: done)
        | none => return .leave (.error (.badLiteral (String.ofList text)))
      else if Token.isWordStart octet then
        let stop ← pastRun Token.isWordPart field i
        return .next stop (.word (String.ofList (← piece field i stop)) :: done)
      else return .leave (.error (.unexpectedOctet octet.toNat))

def tokensFrom (field : List Char) (i : Nat) (done : List Token) :
    Checked (Except ExpressionFault (List Token)) :=
  loop (byteLength field) (tokenTurn field) (fun _ done => return .ok done.reverse) i done

def tokensOf (field : List Char) : Checked (Except ExpressionFault (List Token)) := tokensFrom field 0 []

def namedAt (text : List Char) (i : Nat) : Checked Bool := do
  if macroName.isPrefixOf (← octetsFrom text i) then
    let joined ← if i == 0 then pure false else Token.isWordPart <$> octetAt text (i - 1)
    return !joined && !(octets text)[i + macroName.length]?.any Token.isWordPart
  else return false

def searchTurn (text : List Char) (i : Nat) (found : List Record) :
    Checked (Turn (List Record) (List Record)) := do
  let octet ← octetAt text i
  let following := (octets text)[i + 1]?
  if octet == '/' && following == some '*' then
    match find? ['*', '/'] (← piece text (i + 2) (byteLength text)) with
    | some n => return .next (i + 2 + n + 2) found
    | none => return .next (byteLength text) found
  else if octet == '/' && following == some '/' then
    match find? ['\n'] (← piece text i (byteLength text)) with
    | some n => return .next (i + n) found
    | none => return .next (byteLength text) found
  else if octet == '"' then return .next (← pastLiteral text i) found
  else if ← namedAt text i then
    let line := (← piece text 0 i).count '\n' + 1
    let opening ← pastRun isAsciiBlank text (i + macroName.length)
    if (octets text)[opening]? == some '(' then
      let (body, stop) ← bodyAt text opening
      return .next (if body.isSome then stop else opening + 1) (⟨line, body⟩ :: found)
    else return .next opening found
  else return .next (i + 1) found

def searchFrom (text : List Char) (i : Nat) (found : List Record) : Checked (List Record) :=
  loop (byteLength text) (searchTurn text) (fun _ found => return found.reverse) i found

def recordsOf (text : List Char) : Checked (List Record) := searchFrom text 0 []

def numberFrom (field : List Char) (tokens : Except ExpressionFault (List Token)) : Except Malformed Int :=
  let value : Except ExpressionFault Int := do
    let taken ← Expression.sum (← tokens)
    if taken.rest.isEmpty then pure taken.value else .error .trailing
  match value with
  | .ok value => .ok value
  | .error .overflow => .error (.overflow (shown field))
  | .error (.unknownWord name) => .error (.unknownConstant name)
  | .error fault => .error (.number (shown field) fault)

def numberOf (field : List Char) : ExceptT Malformed Checked Int :=
  ExceptT.mk (numberFrom field <$> tokensOf field)

def definitionFrom (name description default min max : List Char) : ExceptT Malformed Checked Definition := do
  let name ← ExceptT.mk (pure (nameField name))
  let description ← ExceptT.mk (pure (textField description))
  let default ← numberOf default
  let min ← numberOf min
  let max ← numberOf max
  if default < min then ExceptT.mk (pure (.error (.defaultBelowMin default min)))
  else pure ⟨name, description, default, min, max⟩

def definitionOf (body : List Char) : Checked (Except Malformed Definition) := do
  match ← fieldsOf body with
  | [name, description, default, min, max] => definitionFrom name description default min max
  | [_, name, description, default, min, max] => definitionFrom name description default min max
  | fields => return .error (.fieldCount fields.length)

def resultOf (r : Record) : Checked (Except Malformed Definition) :=
  match r.body with
  | some body => definitionOf body
  | none => return .error .unterminated

def documentFrom : List Record → Checked Document
  | [] => return ⟨[], []⟩
  | r :: rest => do
    let result ← resultOf r
    let document ← documentFrom rest
    match result with
    | .ok d => return { document with definitions := d :: document.definitions }
    | .error fault =>
      return { document with failures := ⟨r.line, shown (r.body.getD []), fault⟩ :: document.failures }

def documentOf (text : String) : Checked Document := do
  documentFrom (← recordsOf text.toList)

end FlagSurvey.Definition.Cursor
