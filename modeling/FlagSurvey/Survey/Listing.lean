import FlagSurvey.Flag.Category
import FlagSurvey.Number.Digits
import FlagSurvey.Text.Lines

/-! Listings of options. A line lists an option if it is indented by two spaces and a space ends the
option, which consists of a given lead and small letters, digits and hyphens. What takes an argument is
not listed so, and is left out. -/
namespace FlagSurvey

open Text Number

namespace Listing

def isOptionChar (c : Char) : Bool := ('a' ≤ c && c ≤ 'z') || isDigit c || c == '-'

def after? : List Char → List Char → Option (List Char)
  | [], text => some text
  | c :: start, d :: text => if c == d then after? start text else none
  | _ :: _, [] => none

def option? (lead line : List Char) : Option (List Char) :=
  match after? (' ' :: ' ' :: lead) line with
  | none => none
  | some tail =>
    match tail.takeWhile isOptionChar, tail.dropWhile isOptionChar with
    | c :: body, ' ' :: _ => some (lead ++ c :: body)
    | _, _ => none

/-- The items of a list, each where it first stands. -/
def distinct {α : Type} [DecidableEq α] : List α → List α
  | [] => []
  | a :: rest => a :: (distinct rest).filter (· ≠ a)

def options (lead : String) (listing : String) : List String :=
  distinct ((lines listing.toList).filterMap fun line =>
    (option? lead.toList line).map String.ofList)

def switches (listing : String) (category : Category) : List Candidate :=
  (options category.lead listing).map Candidate.ofText

def parameters (listing : String) : List String := options "" listing

theorem after?_eq_some_iff {start text rest : List Char} :
    after? start text = some rest ↔ text = start ++ rest := by
  induction start generalizing text with
  | nil => simp [after?]
  | cons c start ih =>
    cases text with
    | nil => simp [after?]
    | cons d text =>
      rw [after?]
      split
      · next h => simp [ih, beq_iff_eq.mp h]
      · next h =>
        have differ : d ≠ c := fun same => h (by simp [same])
        simp [differ]

theorem mem_distinct {α : Type} [DecidableEq α] {items : List α} {a : α} :
    a ∈ distinct items ↔ a ∈ items := by
  induction items with
  | nil => simp [distinct]
  | cons b rest ih => by_cases h : a = b <;> simp [distinct, ih, h]

theorem nodup_distinct {α : Type} [DecidableEq α] (items : List α) : (distinct items).Nodup := by
  induction items with
  | nil => simp [distinct]
  | cons b rest ih => exact List.nodup_cons.mpr ⟨by simp, ih.sublist List.filter_sublist⟩

end Listing
end FlagSurvey
