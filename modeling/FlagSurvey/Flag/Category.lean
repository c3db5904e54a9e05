/-! The categories of compiler options. The first two characters of an option decide: `-f` begins an
optimizer switch, `-m` a target switch, and anything else is a parameter. -/
namespace FlagSurvey

inductive Category where
  | optimizer
  | target
  | param
  deriving DecidableEq, Repr

namespace Category

def ofChars : List Char → Category
  | '-' :: 'f' :: _ => .optimizer
  | '-' :: 'm' :: _ => .target
  | _ => .param

def of (option : String) : Category := ofChars option.toList

def lead : Category → String
  | .optimizer => "-f"
  | .target => "-m"
  | .param => "--param"

def name : Category → String
  | .optimizer => "optimizer"
  | .target => "target"
  | .param => "param"

def rank : Category → Nat
  | .optimizer => 0
  | .target => 1
  | .param => 2

theorem rank_injective {a b : Category} (h : a.rank = b.rank) : a = b := by
  cases a <;> cases b <;> first | rfl | contradiction

theorem ofChars_eq_optimizer_iff {option : List Char} :
    ofChars option = .optimizer ↔ ∃ body, option = '-' :: 'f' :: body := by
  constructor
  · intro h
    unfold ofChars at h
    split at h <;> first | contradiction | exact ⟨_, rfl⟩
  · rintro ⟨body, rfl⟩
    rfl

end Category

structure Candidate where
  text : String
  category : Category
  deriving DecidableEq, Repr

def Candidate.ofText (text : String) : Candidate := ⟨text, .of text⟩

end FlagSurvey
