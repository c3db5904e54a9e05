import FlagSurvey.Proofs.Flag.Inverse
import FlagSurvey.Proofs.Probe.Usable
import FlagSurvey.Proofs.Survey.Listing
import FlagSurvey.Survey.Extraction
import FlagSurvey.Trial.Script

/-! Switches of a survey. Every listed switch is checked, those that are usable become entries, and the
trials of a run are the direct forms of all candidates and the inverses of those that were taken. An entry
writes its off form with `no-` in front of the name, which is the form that its check tried only if the
name does not begin with `no-` itself. -/
namespace FlagSurvey

open Text

namespace Extractor

variable (x : Extractor) (answer : Request → Outcome)

def requestsFor (candidates : List Candidate) : List Request :=
  candidates.flatMap fun candidate => x.probe.trialsOf answer candidate.text

theorem gives_keep? (candidate : Candidate) :
    (x.keep? candidate).Gives answer
      (if x.probe.usable answer candidate.text then some candidate else none)
      (x.probe.trialsOf answer candidate.text) := by
  have step := (x.probe.gives_isValid answer candidate.text).map
    fun valid => if valid then some candidate else none
  rw [map_eq_pure_bind] at step
  exact step

theorem gives_validate (schedule : Schedule Candidate) (candidates : List Candidate) :
    (x.validate schedule candidates).Gives answer
      ((schedule.order candidates).filter fun c => x.probe.usable answer c.text)
      (x.requestsFor answer (schedule.order candidates)) := by
  have step := (Plan.Gives.gather schedule candidates (x.gives_keep? answer)).map
    (List.filterMap id)
  rw [map_eq_pure_bind, List.filterMap_map] at step
  have kept : (schedule.order candidates).filterMap (id ∘ fun c =>
        if x.probe.usable answer c.text then some c else none) =
      (schedule.order candidates).filter fun c => x.probe.usable answer c.text := by
    rw [← List.filterMap_eq_filter]
    rfl
  rw [kept] at step
  exact step

def entriesOf (candidates : List Candidate) : List Tunable :=
  (candidates.filter fun c => x.probe.usable answer c.text).map fun c => .ofSwitch c.text

theorem gives_extract (schedule : Schedule Candidate) (compiler : Compiler) :
    (x.extract schedule compiler).Gives answer
      (x.entriesOf answer (schedule.order (candidates compiler)))
      (x.requestsFor answer (schedule.order (candidates compiler))) := by
  have step := (x.gives_validate answer schedule (candidates compiler)).map
    fun accepted => accepted.map fun candidate => Tunable.ofSwitch candidate.text
  rw [map_eq_pure_bind] at step
  exact step

variable {answer}

theorem exists_body_of_mem_candidates {compiler : Compiler} {c : Candidate}
    (h : c ∈ candidates compiler) : ∃ letter body, c.text.toList = '-' :: letter :: body ∧
      (letter = 'f' ∨ letter = 'm') ∧ body ≠ [] ∧ ∀ d ∈ body, isBlank d = false := by
  rcases List.mem_append.mp h with optimizer | target
  · obtain ⟨body, shape, plain⟩ :=
      Listing.exists_body_of_mem_options (Listing.mem_switches_iff.mp optimizer).2
    exact ⟨'f', body, shape, .inl rfl, plain⟩
  · obtain ⟨body, shape, plain⟩ :=
      Listing.exists_body_of_mem_options (Listing.mem_switches_iff.mp target).2
    exact ⟨'m', body, shape, .inr rfl, plain⟩

theorem isWord_of_mem_candidates {compiler : Compiler} {c : Candidate}
    (h : c ∈ candidates compiler) : IsWord c.text.toList := by
  obtain ⟨letter, body, shape, lead, -, plain⟩ := exists_body_of_mem_candidates h
  refine ⟨by simp [shape], fun d hd => ?_⟩
  rw [shape, List.mem_cons, List.mem_cons] at hd
  rcases hd with rfl | rfl | inBody
  · decide
  · rcases lead with rfl | rfl <;> decide
  · exact plain d inBody

theorem isWord_inverse {compiler : Compiler} {c : Candidate} {inverse : String}
    (h : c ∈ candidates compiler) (inverted : invert? c.text = some inverse) :
    IsWord inverse.toList := by
  obtain ⟨body, shape, shape'⟩ := invert?_eq_some_iff.mp inverted
  have plain : ∀ d ∈ body, isBlank d = false := fun d hd =>
    (isWord_of_mem_candidates h).2 d (by simp [shape, hd])
  have inverted : ∀ d ∈ invertBody body, isBlank d = false := by
    intro d hd
    by_cases negative : Negative body
    · obtain ⟨rest, rfl⟩ := negative
      exact plain d (List.mem_append_right _ hd)
    · rw [invertBody_of_not_negative negative, List.mem_cons, List.mem_cons, List.mem_cons] at hd
      rcases hd with rfl | rfl | rfl | inBody
      · decide
      · decide
      · decide
      · exact plain d inBody
  have lead : IsWord ['-', 'f'] := isWord_iff.mpr (by decide)
  rw [shape']
  exact lead.append inverted

theorem request_mem_requestsFor_iff {compiler : Compiler} {items : List Candidate} {flag : String}
    (listed : ∀ c, c ∈ items ↔ c ∈ candidates compiler) (word : IsWord flag.toList) :
    x.probe.request flag ∈ x.requestsFor answer items ↔ compiler.Lists flag ∨
      ∃ c ∈ candidates compiler, x.probe.takes answer c.text = true ∧ invert? c.text = some flag := by
  rw [requestsFor, List.mem_flatMap]
  constructor
  · rintro ⟨c, hc, tried⟩
    have hc := (listed c).mp hc
    rcases (x.probe.mem_trialsOf).mp tried with direct | ⟨taken, inverse, inverted, second⟩
    · exact .inl ⟨c, hc, (x.probe.request_injective word (isWord_of_mem_candidates hc) direct).symm⟩
    · have same := x.probe.request_injective word (isWord_inverse hc inverted) second
      exact .inr ⟨c, hc, taken, same ▸ inverted⟩
  · rintro (⟨c, hc, rfl⟩ | ⟨c, hc, taken, inverted⟩)
    · exact ⟨c, (listed c).mpr hc, (x.probe.mem_trialsOf).mpr (.inl rfl)⟩
    · exact ⟨c, (listed c).mpr hc, (x.probe.mem_trialsOf).mpr (.inr ⟨taken, flag, inverted, rfl⟩)⟩

theorem exists_of_optimizer_mem_entriesOf {items : List Candidate} {name onLead offLead : String}
    (h : Tunable.onOff name onLead offLead ∈ x.entriesOf answer items)
    (optimizer : Category.of onLead = .optimizer) :
    ∃ c ∈ items, x.probe.usable answer c.text = true ∧ c.text = onLead ++ name ∧
      onLead = "-f" ∧ offLead = "-fno-" := by
  obtain ⟨c, hc, split⟩ := List.mem_map.mp h
  obtain ⟨hc, usable⟩ := List.mem_filter.mp hc
  simp only [Tunable.ofSwitch, Tunable.onOff.injEq] at split
  obtain ⟨rfl, rfl, rfl⟩ := split
  rw [Category.of, String.toList_ofList, Category.ofChars_eq_optimizer_iff] at optimizer
  obtain ⟨rest, lead⟩ := optimizer
  have short := congrArg List.length lead
  simp only [List.length_take, List.length_cons] at short
  have nil : rest = [] := List.length_eq_zero_iff.mp (by omega)
  subst nil
  refine ⟨c, hc, usable, ?_, ?_, ?_⟩
  · rw [← String.toList_inj, String.toList_append, String.toList_ofList, String.toList_ofList,
      List.take_append_drop]
  · rw [lead]
  · rw [lead]
    rfl

/-- Both forms of an optimizer entry are written as its check tried them exactly if the name does not
begin with `no-`. If it does, the off form was tried and taken only where it, or its own negative form, is
listed as well. -/
theorem extract_forms_proven_iff (schedule : Schedule Candidate) (compiler : Compiler)
    (answer : Request → Outcome) :
    ∃ entries asked,
      (x.extract schedule compiler).run (.reliable answer) () = ⟨.ok entries, asked, ()⟩ ∧
      ∀ name onLead offLead, Tunable.onOff name onLead offLead ∈ entries →
        Category.of onLead = .optimizer →
        x.probe.Proven answer asked (onLead ++ name) ∧
        (invert? (onLead ++ name) = some (offLead ++ name) ↔ ¬Negative name.toList) ∧
        (x.probe.Proven answer asked (offLead ++ name) ↔ ¬Negative name.toList ∨
          x.probe.takes answer (offLead ++ name) = true ∧
            (compiler.Lists (offLead ++ name) ∨ compiler.Lists (offLead ++ "no-" ++ name) ∧
              x.probe.takes answer (offLead ++ "no-" ++ name) = true)) := by
  refine ⟨_, _, x.gives_extract answer schedule compiler, fun name onLead offLead entry optimizer => ?_⟩
  obtain ⟨c, hc, usable, text, rfl, rfl⟩ := x.exists_of_optimizer_mem_entriesOf entry optimizer
  have listed : ∀ d, d ∈ schedule.order (candidates compiler) ↔ d ∈ candidates compiler :=
    fun d => (schedule.order_perm _).mem_iff
  have hc : c ∈ candidates compiler := (listed c).mp hc
  obtain ⟨taken, inverseTaken⟩ := Bool.and_eq_true_iff.mp usable
  have chars : c.text.toList = '-' :: 'f' :: name.toList := by simp [text]
  have offWord : IsWord ("-fno-" ++ name).toList := by
    have lead : IsWord "-fno-".toList := isWord_iff.mpr (by decide)
    rw [String.toList_append]
    exact lead.append fun d hd => (isWord_of_mem_candidates hc).2 d (by simp [chars, hd])
  have forms : invert? c.text = some ("-fno-" ++ name) ↔ ¬Negative name.toList := by
    rw [invert?_eq_negative_iff, text]
    constructor
    · rintro (⟨-, positive⟩ | same)
      · exact positive
      · have lengths := congrArg String.length same
        simp only [String.length_append, Nat.add_right_cancel_iff] at lengths
        exact absurd lengths (by decide)
    · exact fun positive => .inl ⟨rfl, positive⟩
  rw [← text]
  refine ⟨⟨?_, taken⟩, forms, ?_⟩
  · exact (x.request_mem_requestsFor_iff listed (isWord_of_mem_candidates hc)).mpr (.inl ⟨c, hc, rfl⟩)
  · rw [Probe.Proven, x.request_mem_requestsFor_iff listed offWord]
    constructor
    · rintro ⟨tried, offTaken⟩
      -- The check of a negative name drops its `no-`, so another listed switch led to the off form.
      by_cases negative : Negative name.toList
      · refine .inr ⟨offTaken, ?_⟩
        rcases tried with direct | ⟨d, hd, dTaken, inverted⟩
        · exact .inl direct
        · rcases invert?_eq_negative_iff.mp inverted with ⟨-, positive⟩ | dText
          · exact absurd negative positive
          · exact .inr ⟨⟨d, hd, dText⟩, dText ▸ dTaken⟩
      · exact .inl negative
    · rintro (positive | ⟨offTaken, direct | ⟨⟨d, hd, dText⟩, dTaken⟩⟩)
      · have inverted := forms.mpr positive
        rw [inverted, Option.all_some] at inverseTaken
        exact ⟨.inr ⟨c, hc, taken, inverted⟩, inverseTaken⟩
      · exact ⟨.inl direct, offTaken⟩
      · refine ⟨.inr ⟨d, hd, dText ▸ dTaken, ?_⟩, offTaken⟩
        exact invert?_eq_negative_iff.mpr (.inr dText)

/-- A listing of the negative form alone: the entry's off form negates it again, and no trial was made of
that, whatever the compiler takes. -/
theorem off_form_of_negative_untried :
    let x : Extractor := .ofSize ⟨"cc", "hello.c", ⟨5000000000⟩⟩ 1
    let compiler : Compiler := ⟨"cc", none, "", "  -fno-foo   Disable foo.\n", ""⟩
    ∃ entries asked,
      (x.extract .listed compiler).run (.reliable fun _ => .passing) () = ⟨.ok entries, asked, ()⟩ ∧
      Tunable.onOff "no-foo" "-f" "-fno-" ∈ entries ∧
      ¬x.probe.Proven (fun _ => .passing) asked ("-fno-" ++ "no-foo") := by
  refine ⟨_, _, gives_extract _ _ _ _, ?_, ?_⟩
  · decide +kernel
  · rw [Probe.Proven]
    decide +kernel

end Extractor
end FlagSurvey
