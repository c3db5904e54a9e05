import FlagSurvey.Flag.Tunable
import FlagSurvey.Probe.Switch
import FlagSurvey.Proofs.Number.Digits

/-! Flags of a single word. Such a flag is one argument of its trial, so the request shows which flag it
was made for. -/
namespace FlagSurvey

namespace Text

def IsWord (text : List Char) : Prop := text ≠ [] ∧ ∀ c ∈ text, isBlank c = false

theorem isWord_iff {text : List Char} : IsWord text ↔ text ≠ [] ∧ text.any isBlank = false := by
  simp [IsWord]

theorem IsWord.append {first second : List Char} (h : IsWord first)
    (more : ∀ c ∈ second, isBlank c = false) : IsWord (first ++ second) := by
  refine ⟨by simp [h.1], fun c hc => ?_⟩
  rcases List.mem_append.mp hc with inFirst | inSecond
  · exact h.2 c inFirst
  · exact more c inSecond

theorem words_of_isWord {text : List Char} (h : IsWord text) : words text = [text] := by
  obtain ⟨nonempty, plain⟩ := h
  induction text with
  | nil => exact absurd rfl nonempty
  | cons c rest ih =>
    have hc : isBlank c = false := plain c (List.mem_cons_self)
    cases rest with
    | nil => simp [words, hc]
    | cons d more =>
      have hd : isBlank d = false := plain d (by simp)
      have tail := ih (by simp) fun e he => plain e (List.mem_cons_of_mem _ he)
      rw [words, if_neg (by simp [hc])]
      simp only [hd, Bool.false_eq_true, if_false, tail]

theorem wordsOf_of_isWord {text : String} (h : IsWord text.toList) : wordsOf text = [text] := by
  rw [wordsOf, words_of_isWord h, List.map_singleton, String.ofList_toList]

theorem flatten_words (text : List Char) : (words text).flatten = text.filter (!isBlank ·) := by
  fun_induction words text <;> simp_all

theorem not_isBlank_of_isDigit {c : Char} (h : Number.isDigit c = true) : isBlank c = false := by
  have ⟨lower, upper⟩ : '0' ≤ c ∧ c ≤ '9' := by simpa [Number.isDigit] using h
  have low : ¬c ≤ '\r' := fun le => absurd (Char.le_trans lower le) (by decide)
  have high : ¬('\u2000' ≤ c) := fun le => absurd (Char.le_trans le upper) (by decide)
  simp [isBlank, low, high, Number.ne_of_isDigit h, Number.isDigit]

theorem not_isBlank_of_mem_decimalInt {v : Int} {c : Char} (h : c ∈ Number.decimalInt v) :
    isBlank c = false := by
  rcases Number.eq_minus_or_isDigit_of_mem_decimalInt h with rfl | digit
  · decide
  · exact not_isBlank_of_isDigit digit

end Text

/-- A parameter's text is one word if what stands before the value is. -/
theorem isWord_renderParam {lead name separator : String}
    (h : Text.IsWord (lead ++ name ++ separator).toList) (value : Int) :
    Text.IsWord (renderParam lead name separator value).toList := by
  rw [renderParam, String.toList_append, Number.decimalText, String.toList_ofList]
  exact h.append fun c hc => Text.not_isBlank_of_mem_decimalInt hc

/-- Flags with the same request have the same letters, blanks apart. -/
theorem Probe.filter_eq_of_request_eq {p : Probe} {flag other : String}
    (same : p.request flag = p.request other) :
    flag.toList.filter (!Text.isBlank ·) = other.toList.filter (!Text.isBlank ·) := by
  have args : Text.wordsOf flag ++ [p.testProgram] = Text.wordsOf other ++ [p.testProgram] :=
    congrArg (fun request => request.command.args) same
  have words : Text.words flag.toList = Text.words other.toList :=
    List.map_injective_iff.mpr (fun _ _ => String.ofList_injective) (List.append_cancel_right args)
  rw [← Text.flatten_words, words, Text.flatten_words]

theorem Probe.request_injective (p : Probe) {flag other : String} (h : Text.IsWord flag.toList)
    (h' : Text.IsWord other.toList) (same : p.request flag = p.request other) : flag = other := by
  have letters {text : List Char} (plain : Text.IsWord text) : text.filter (!Text.isBlank ·) = text :=
    List.filter_eq_self.mpr fun c hc => by rw [plain.2 c hc, Bool.not_false]
  have texts := filter_eq_of_request_eq same
  rw [letters h, letters h'] at texts
  exact String.toList_inj.mp texts

end FlagSurvey
