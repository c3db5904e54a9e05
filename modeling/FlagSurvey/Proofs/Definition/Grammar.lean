import FlagSurvey.Definition.Expression

/-! The grammar of integer expressions and what they say. A sum is products with pluses and minuses between
them, a product is signed atoms with stars between them, and both go to the left; a signed atom is an atom
after any number of signs. An expression says what to compute, and it comes to that value unless a result on
the way is outside the range. -/
namespace FlagSurvey.Definition

open Number

inductive Operation where
  | product
  | sum
  | difference
  deriving DecidableEq, Repr

namespace Operation

def apply : Operation → Int → Int → Int
  | product, v, w => v * w
  | sum, v, w => v + w
  | difference, v, w => v - w

def token : Operation → Token
  | product => .star
  | sum => .plus
  | difference => .minus

end Operation

inductive Term where
  | value (v : Int)
  | negation (operand : Term)
  | operation (op : Operation) (first second : Term)
  deriving DecidableEq, Repr

namespace Term

def eval : Term → Int
  | value v => v
  | negation operand => -operand.eval
  | operation op first second => op.apply first.eval second.eval

def results : Term → List Int
  | value _ => []
  | negation operand => operand.results ++ [-operand.eval]
  | operation op first second =>
    first.results ++ second.results ++ [op.apply first.eval second.eval]

/-- The value as it is computed, up to the first result outside the range. -/
def checked : Term → Except ExpressionFault Int
  | value v => .ok v
  | negation operand => operand.checked >>= fun v => Expression.within (-v)
  | operation op first second =>
    first.checked >>= fun v => second.checked >>= fun w => Expression.within (op.apply v w)

end Term

inductive Level where
  | sum
  | product
  | signed
  | atom

/-- The tokens are an expression of the level, and the term is what it says. -/
inductive Derives : Level → List Token → Term → Prop where
  | ofProduct {tokens : List Token} {a : Term} (h : Derives .product tokens a) : Derives .sum tokens a
  | add {first second : List Token} {a b : Term} {op : Operation} (additive : op ≠ .product)
    (left : Derives .sum first a) (right : Derives .product second b) :
    Derives .sum (first ++ op.token :: second) (.operation op a b)
  | ofSigned {tokens : List Token} {a : Term} (h : Derives .signed tokens a) :
    Derives .product tokens a
  | multiply {first second : List Token} {a b : Term} (left : Derives .product first a)
    (right : Derives .signed second b) :
    Derives .product (first ++ .star :: second) (.operation .product a b)
  | negative {tokens : List Token} {a : Term} (h : Derives .signed tokens a) :
    Derives .signed (.minus :: tokens) (.negation a)
  | positive {tokens : List Token} {a : Term} (h : Derives .signed tokens a) :
    Derives .signed (.plus :: tokens) a
  | ofAtom {tokens : List Token} {a : Term} (h : Derives .atom tokens a) : Derives .signed tokens a
  | literal (v : Int) : Derives .atom [.literal v] (.value v)
  | constant {name : String} {v : Int} (known : constant? name = some v) :
    Derives .atom [.word name] (.value v)
  | group {tokens : List Token} {a : Term} (inside : Derives .sum tokens a) :
    Derives .atom (.opening :: (tokens ++ [.closing])) a

namespace Expression

theorem within_of_fits {v : Int} (h : Fits v) : within v = .ok v := by
  rw [within, checked_eq_some_iff.mpr ⟨rfl, h⟩]

theorem within_of_not_fits {v : Int} (h : ¬Fits v) : within v = .error .overflow := by
  rw [within, checked_eq_none_iff.mpr h]

end Expression

namespace Term

theorem checked_of_fits {a : Term} (h : ∀ r ∈ a.results, Fits r) : a.checked = .ok a.eval := by
  induction a with
  | value v => rfl
  | negation operand ih =>
    simp only [results, List.forall_mem_append, List.forall_mem_singleton] at h
    rw [checked, ih h.1]
    exact Expression.within_of_fits h.2
  | operation op first second ih_first ih_second =>
    simp only [results, List.forall_mem_append, List.forall_mem_singleton] at h
    rw [checked, ih_first h.1.1, ih_second h.1.2]
    exact Expression.within_of_fits h.2

theorem checked_of_not_fits {a : Term} (h : ¬∀ r ∈ a.results, Fits r) :
    a.checked = .error .overflow := by
  induction a with
  | value v => exact absurd nofun h
  | negation operand ih =>
    rw [checked]
    by_cases before : ∀ r ∈ operand.results, Fits r
    · have last : ¬Fits (-operand.eval) := fun fits => h <| by
        rw [results, List.forall_mem_append, List.forall_mem_singleton]
        exact ⟨before, fits⟩
      rw [checked_of_fits before]
      exact Expression.within_of_not_fits last
    · rw [ih before]
      rfl
  | operation op first second ih_first ih_second =>
    rw [checked]
    by_cases before : ∀ r ∈ first.results, Fits r
    · rw [checked_of_fits before]
      by_cases after : ∀ r ∈ second.results, Fits r
      · have last : ¬Fits (op.apply first.eval second.eval) := fun fits => h <| by
          rw [results, List.forall_mem_append, List.forall_mem_append, List.forall_mem_singleton]
          exact ⟨⟨before, after⟩, fits⟩
        rw [checked_of_fits after]
        exact Expression.within_of_not_fits last
      · rw [ih_second after]
        rfl
    · rw [ih_first before]
      rfl

theorem checked_eq_ok_iff {a : Term} {v : Int} :
    a.checked = .ok v ↔ (∀ r ∈ a.results, Fits r) ∧ a.eval = v := by
  by_cases h : ∀ r ∈ a.results, Fits r
  · rw [checked_of_fits h]
    exact ⟨fun same => ⟨h, Except.ok.inj same⟩, fun same => congrArg _ same.2⟩
  · rw [checked_of_not_fits h]
    exact ⟨nofun, fun same => absurd same.1 h⟩

end Term

end FlagSurvey.Definition
