import FlagSurvey.Proofs.Probe.Word
import FlagSurvey.Survey.Compiler
import FlagSurvey.Survey.Listing

/-! What a listing lists. A line lists an option exactly if it consists of two spaces, the lead, one or
more option characters, a space, and anything; the options of a listing are those of its lines. -/
namespace FlagSurvey

open Text Number

/-- One of the two scans for switches comes upon the flag. -/
def Compiler.Lists (compiler : Compiler) (flag : String) : Prop :=
  ∃ c ∈ Listing.switches compiler.optimizerHelp .optimizer ++
    Listing.switches compiler.targetHelp .target, c.text = flag

namespace Listing

theorem isBlank_of_isOptionChar {c : Char} (h : isOptionChar c = true) : isBlank c = false := by
  simp only [isOptionChar, isDigit, isBlank, Bool.or_eq_true, Bool.and_eq_true, decide_eq_true_eq,
    beq_iff_eq, Char.le_def, UInt32.le_iff_toNat_le, Char.ext_iff, ← UInt32.toNat_inj,
    Bool.eq_false_iff, ne_eq] at h ⊢
  simp at h ⊢
  omega

theorem option?_eq_some_iff {lead line text : List Char} :
    option? lead line = some text ↔ ∃ body rest, body ≠ [] ∧ (∀ c ∈ body, isOptionChar c = true) ∧
      text = lead ++ body ∧ line = ' ' :: ' ' :: lead ++ (body ++ ' ' :: rest) := by
  constructor
  · intro h
    rw [option?] at h
    cases found : after? (' ' :: ' ' :: lead) line with
    | none => simp [found] at h
    | some tail =>
      have shape := after?_eq_some_iff.mp found
      simp only [found] at h
      split at h
      · next _ _ c body rest taken dropped =>
        have whole : tail = (c :: body) ++ ' ' :: rest := by
          rw [← taken, ← dropped, List.takeWhile_append_dropWhile]
        refine ⟨c :: body, rest, by simp, fun d hd => ?_, (Option.some.inj h).symm, ?_⟩
        · rw [← taken] at hd
          exact List.all_eq_true.mp List.all_takeWhile d hd
        · rw [shape, whole]
      · contradiction
  · rintro ⟨body, rest, nonempty, plain, rfl, rfl⟩
    obtain ⟨c, more, rfl⟩ := List.exists_cons_of_ne_nil nonempty
    have space : isOptionChar ' ' = false := by decide
    have found := after?_eq_some_iff.mpr (rfl : ' ' :: ' ' :: lead ++ (c :: more ++ ' ' :: rest) = _)
    have taken : (c :: more ++ ' ' :: rest).takeWhile isOptionChar = c :: more := by
      rw [List.takeWhile_append_of_pos plain, List.takeWhile_cons_of_neg (by simp [space]),
        List.append_nil]
    have dropped : (c :: more ++ ' ' :: rest).dropWhile isOptionChar = ' ' :: rest := by
      rw [List.dropWhile_append_of_pos plain, List.dropWhile_cons_of_neg (by simp [space])]
    rw [option?, found]
    simp only [taken, dropped]

theorem mem_options_iff {lead listing text : String} :
    text ∈ options lead listing ↔
      ∃ line ∈ lines listing.toList, option? lead.toList line = some text.toList := by
  rw [options, mem_distinct, List.mem_filterMap]
  constructor
  · rintro ⟨line, hline, h⟩
    obtain ⟨chars, found, rfl⟩ := Option.map_eq_some_iff.mp h
    exact ⟨line, hline, by rw [found, String.toList_ofList]⟩
  · rintro ⟨line, hline, found⟩
    exact ⟨line, hline, by rw [found, Option.map_some, String.ofList_toList]⟩

theorem exists_body_of_mem_options {lead listing text : String} (h : text ∈ options lead listing) :
    ∃ body, text.toList = lead.toList ++ body ∧ body ≠ [] ∧ ∀ c ∈ body, isBlank c = false := by
  obtain ⟨line, _, found⟩ := mem_options_iff.mp h
  obtain ⟨body, _, nonempty, plain, shape, _⟩ := option?_eq_some_iff.mp found
  exact ⟨body, shape, nonempty, fun c hc => isBlank_of_isOptionChar (plain c hc)⟩

theorem mem_switches_iff {listing : String} {category : Category} {candidate : Candidate} :
    candidate ∈ switches listing category ↔
      candidate = .ofText candidate.text ∧ candidate.text ∈ options category.lead listing := by
  rw [switches, List.mem_map]
  constructor
  · rintro ⟨text, h, rfl⟩
    exact ⟨rfl, h⟩
  · rintro ⟨same, h⟩
    exact ⟨candidate.text, h, same.symm⟩

theorem texts_switches (listing : String) (category : Category) :
    (switches listing category).map Candidate.text = options category.lead listing := by
  rw [switches, List.map_map]
  exact List.map_id _

theorem category_eq_of_mem_switches {listing : String} {category : Category} {c : Candidate}
    (h : c ∈ switches listing category) : c.category = category := by
  obtain ⟨same, listed⟩ := mem_switches_iff.mp h
  obtain ⟨body, shape, -, -⟩ := exists_body_of_mem_options listed
  rw [same, Candidate.ofText, Category.of, shape]
  cases category <;> rfl

end Listing
end FlagSurvey
