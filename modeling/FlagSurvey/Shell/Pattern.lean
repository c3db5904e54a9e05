/-! Patterns of a shell: a star for any text, a question mark for any octet, brackets for one of a class.
Quoted characters stand for themselves. -/
namespace FlagSurvey.Shell

structure Glyph where
  char : Char
  quoted : Bool
  deriving DecidableEq, Repr

namespace Glyph

def is (g : Glyph) (c : Char) : Bool := !g.quoted && g.char == c

def quote (c : Char) : Glyph := ⟨c, true⟩

def isActive (g : Glyph) : Bool := g.is '*' || g.is '?' || g.is '['

end Glyph

namespace Pattern

/-- The members of a class up to its bracket, which is a member if it comes first. -/
def extent (first : Bool) : List Glyph → Option (List Glyph × List Glyph)
  | [] => none
  | g :: rest =>
    if g.is ']' && !first then some ([], rest)
    else (extent false rest).map fun (members, after) => (g :: members, after)

def isMember (c : Char) : List Glyph → Bool
  | low :: hyphen :: high :: rest =>
    if hyphen.is '-' then (low.char ≤ c && c ≤ high.char) || isMember c rest
    else low.char == c || isMember c (hyphen :: high :: rest)
  | members => members.any (·.char == c)

def class? (pattern : List Glyph) : Option ((Char → Bool) × List Glyph) :=
  match pattern with
  | g :: rest =>
    if g.is '!' || g.is '^' then
      (extent true rest).map fun (members, after) => (fun c => !isMember c members, after)
    else (extent true pattern).map fun (members, after) => (fun c => isMember c members, after)
  | [] => none

theorem length_lt_of_extent {first : Bool} {pattern members after : List Glyph}
    (h : extent first pattern = some (members, after)) : after.length < pattern.length := by
  induction pattern generalizing first members with
  | nil => simp [extent] at h
  | cons g rest ih =>
    rw [extent] at h
    split at h
    · simp_all
    · obtain ⟨⟨inner, _⟩, found, same⟩ := Option.map_eq_some_iff.mp h
      obtain ⟨rfl, rfl⟩ := Prod.mk.inj same
      have := ih found
      simp only [List.length_cons]
      omega

theorem length_lt_of_class? {pattern after : List Glyph} {holds : Char → Bool}
    (h : class? pattern = some (holds, after)) : after.length < pattern.length := by
  unfold class? at h
  split at h
  · split at h <;> obtain ⟨⟨members, _⟩, found, same⟩ := Option.map_eq_some_iff.mp h <;>
      obtain ⟨rfl, rfl⟩ := Prod.mk.inj same <;>
      have := length_lt_of_extent found <;>
      simp only [List.length_cons] at * <;> omega
  · contradiction

def takes (pattern : List Glyph) (text : List Char) : Bool :=
  match pattern with
  | [] => text.isEmpty
  | g :: rest =>
    if g.is '*' then
      takes rest text ||
        match text with
        | [] => false
        | _ :: more => takes (g :: rest) more
    else
      match text with
      | [] => false
      | c :: more =>
        if g.is '?' then takes rest more
        else if g.is '[' then
          match _ : class? rest with
          | some (holds, after) => holds c && takes after more
          | none => c == '[' && takes rest more
        else g.char == c && takes rest more
termination_by pattern.length + text.length
decreasing_by
  all_goals simp only [List.length_cons]
  any_goals omega
  have := length_lt_of_class? ‹class? rest = _›
  omega

def cutStart (longest : Bool) (pattern : List Glyph) (text : List Char) : List Char :=
  let ends := List.range (text.length + 1)
  let ends := if longest then ends.reverse else ends
  match ends.find? fun n => takes pattern (text.take n) with
  | some n => text.drop n
  | none => text

def cutEnd (longest : Bool) (pattern : List Glyph) (text : List Char) : List Char :=
  let starts := List.range (text.length + 1)
  let starts := if longest then starts else starts.reverse
  match starts.find? fun n => takes pattern (text.drop n) with
  | some n => text.take n
  | none => text

end Pattern
end FlagSurvey.Shell
