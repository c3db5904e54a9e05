import FlagSurvey.Definition.Token

/-! Integer expressions: sums and differences of products of signed atoms, an atom being a literal, a
known constant or a sum in parentheses. An expression is evaluated as it is read, from the left, in
signed integers of sixty-four bits; the first thing wrong on that way is what it fails with. -/
namespace FlagSurvey.Definition

open Number

def constants : List (String × Int) :=
  [("GGC_MIN_EXPAND_DEFAULT", 30), ("GGC_MIN_HEAPSIZE_DEFAULT", 4096), ("INT_MAX", ceiling),
   ("INT32_MAX", ceiling), ("HOST_WIDE_INT_MAX", ceiling)]

def constant? (name : String) : Option Int := constants.lookup name

namespace Expression

/-- A value read off the front of some tokens, and fewer than `bound` tokens after it. -/
structure Taken (bound : Nat) where
  value : Int
  rest : List Token
  shorter : rest.length < bound

def Taken.widen {n m : Nat} (taken : Taken n) (h : n ≤ m) : Taken m :=
  ⟨taken.value, taken.rest, Nat.lt_of_lt_of_le taken.shorter h⟩

abbrev Reading (bound : Nat) := Except ExpressionFault (Taken bound)

def within (v : Int) : Except ExpressionFault Int :=
  match checked v with
  | some v => .ok v
  | none => .error .overflow

mutual

def sum (tokens : List Token) : Reading tokens.length := do
  let ⟨value, rest, h⟩ ← product tokens
  let taken ← sumOn value rest
  pure (taken.widen h)
termination_by (tokens.length, 4)

def sumOn (total : Int) (tokens : List Token) : Reading (tokens.length + 1) :=
  match tokens with
  | .plus :: rest => do
    let ⟨value, after, h⟩ ← product rest
    let taken ← sumOn (← within (total + value)) after
    pure (taken.widen (by simp only [List.length_cons]; omega))
  | .minus :: rest => do
    let ⟨value, after, h⟩ ← product rest
    let taken ← sumOn (← within (total - value)) after
    pure (taken.widen (by simp only [List.length_cons]; omega))
  | other => pure ⟨total, other, Nat.lt_succ_self _⟩
termination_by (tokens.length, 0)

def product (tokens : List Token) : Reading tokens.length := do
  let ⟨value, rest, h⟩ ← signed tokens
  let taken ← productOn value rest
  pure (taken.widen h)
termination_by (tokens.length, 3)

def productOn (total : Int) (tokens : List Token) : Reading (tokens.length + 1) :=
  match tokens with
  | .star :: rest => do
    let ⟨value, after, h⟩ ← signed rest
    let taken ← productOn (← within (total * value)) after
    pure (taken.widen (by simp only [List.length_cons]; omega))
  | other => pure ⟨total, other, Nat.lt_succ_self _⟩
termination_by (tokens.length, 0)

def signed (tokens : List Token) : Reading tokens.length :=
  match tokens with
  | .minus :: rest => do
    let ⟨value, after, h⟩ ← signed rest
    pure ⟨← within (-value), after, Nat.lt_succ_of_lt h⟩
  | .plus :: rest => do
    let taken ← signed rest
    pure (taken.widen (Nat.le_succ _))
  | other => atom other
termination_by (tokens.length, 2)

def atom (tokens : List Token) : Reading tokens.length :=
  match tokens with
  | [] => .error .empty
  | .literal value :: rest => pure ⟨value, rest, Nat.lt_succ_self _⟩
  | .word name :: rest =>
    match constant? name with
    | some value => pure ⟨value, rest, Nat.lt_succ_self _⟩
    | none => .error (.unknownWord name)
  | .opening :: rest => do
    let ⟨value, after, h⟩ ← sum rest
    match after, h with
    | .closing :: after, h =>
      pure ⟨value, after, by simp only [List.length_cons] at h ⊢; omega⟩
    | _, _ => .error .unbalanced
  | token :: _ => .error (.unexpectedToken token)
termination_by (tokens.length, 1)

end

def evaluate (text : List Char) : Except ExpressionFault Int := do
  let taken ← sum (← Token.scan text)
  if taken.rest.isEmpty then pure taken.value else .error .trailing

end Expression
end FlagSurvey.Definition
