import FlagSurvey.Proofs.Survey.Lines
import FlagSurvey.Proofs.Survey.Switches

/-! Entries of switches. A switch and its entry tell each other, so entries are as distinct as the switches
that the two scans come upon, none of which is listed under two categories. A run turns those that their
checks accept into entries, each of them once; the schedule settles the order alone. -/
namespace FlagSurvey

theorem Tunable.ofSwitch_eq (text : String) :
    ∃ name onLead offLead, ofSwitch text = .onOff name onLead offLead ∧ onLead ++ name = text := by
  refine ⟨_, _, _, rfl, ?_⟩
  rw [← String.toList_inj, String.toList_append, String.toList_ofList, String.toList_ofList,
    List.take_append_drop]

theorem Tunable.ofSwitch_injective {text other : String} (h : ofSwitch text = ofSwitch other) :
    text = other := by
  obtain ⟨name, onLead, offLead, entry, whole⟩ := ofSwitch_eq text
  obtain ⟨name', onLead', offLead', entry', whole'⟩ := ofSwitch_eq other
  rw [entry, entry'] at h
  obtain ⟨rfl, rfl, rfl⟩ := Tunable.onOff.inj h
  exact whole.symm.trans whole'

namespace Listing

theorem category_of_mem_switches {listing : String} {category : Category} {c : Candidate}
    (h : c ∈ switches listing category) (switch : category ≠ .param) :
    c.category = category ∧ (Tunable.ofSwitch c.text).category = category := by
  refine ⟨category_eq_of_mem_switches h, ?_⟩
  obtain ⟨body, shape, -, -⟩ := exists_body_of_mem_options (mem_switches_iff.mp h).2
  rw [Tunable.ofSwitch, Tunable.category, Category.of, String.toList_ofList, shape]
  cases category with
  | optimizer => rfl
  | target => rfl
  | param => exact absurd rfl switch

theorem nodup_text_switches (listing : String) (category : Category) :
    ((switches listing category).map Candidate.text).Nodup := by
  rw [texts_switches]
  exact nodup_distinct _

end Listing

namespace Extractor

theorem nodup_text_candidates (compiler : Compiler) :
    ((candidates compiler).map Candidate.text).Nodup := by
  rw [candidates, List.map_append, List.nodup_append]
  refine ⟨Listing.nodup_text_switches _ _, Listing.nodup_text_switches _ _, ?_⟩
  rintro text optimizer _ target rfl
  obtain ⟨c, hc, rfl⟩ := List.mem_map.mp optimizer
  obtain ⟨d, hd, same⟩ := List.mem_map.mp target
  have first := (Listing.category_of_mem_switches hc (by decide)).2
  have second := (Listing.category_of_mem_switches hd (by decide)).2
  rw [same, first] at second
  contradiction

theorem eq_ofText_of_mem_candidates {compiler : Compiler} {c : Candidate}
    (h : c ∈ candidates compiler) : c = .ofText c.text := by
  rcases List.mem_append.mp h with optimizer | target
  · exact (Listing.mem_switches_iff.mp optimizer).1
  · exact (Listing.mem_switches_iff.mp target).1

variable (x : Extractor) (answer : Request → Outcome)

theorem entriesOf_perm (schedule : Schedule Candidate) (compiler : Compiler) :
    (x.entriesOf answer (schedule.order (candidates compiler))).Perm
      (((candidates compiler).filter fun c => x.probe.judged answer c.text = .accepted).map
        fun c => .ofSwitch c.text) := by
  have judged (c : Candidate) : decide (x.probe.judged answer c.text = .accepted) =
      x.probe.usable answer c.text := by
    rw [← x.probe.isAccepted_judged]
    cases x.probe.judged answer c.text <;> rfl
  simp only [judged]
  exact ((schedule.order_perm _).filter _).map _

theorem nodup_entriesOf (schedule : Schedule Candidate) (compiler : Compiler) :
    (x.entriesOf answer (schedule.order (candidates compiler))).Nodup := by
  rw [(x.entriesOf_perm answer schedule compiler).nodup_iff]
  have kept := List.filter_sublist (p := fun c => x.probe.judged answer c.text = .accepted)
    (l := candidates compiler)
  have texts := (nodup_text_candidates compiler).sublist (kept.map Candidate.text)
  have entries : List.Nodup (List.map Tunable.ofSwitch _) :=
    List.pairwise_map.mpr (texts.imp fun differ same => differ (Tunable.ofSwitch_injective same))
  rwa [List.map_map] at entries

/-- The scans come upon every switch that a line lists, once and under one category, which its entry has
too, and the switch is read off that entry. Under every schedule the entries of a run are those of the
scanned switches that their checks accept, each of them once. -/
theorem extract_perm_accepted (x : Extractor) (answer : Request → Outcome) (compiler : Compiler) :
    let scanned := Listing.switches compiler.optimizerHelp .optimizer ++
      Listing.switches compiler.targetHelp .target
    (∀ scan ∈ [(compiler.optimizerHelp, Category.optimizer), (compiler.targetHelp, Category.target)],
      Listing.Scanned scan.2.lead scan.1 ((Listing.switches scan.1 scan.2).map Candidate.text) ∧
      ∀ c ∈ Listing.switches scan.1 scan.2,
        c.category = scan.2 ∧ (Tunable.ofSwitch c.text).category = scan.2 ∧
        ∃ name onLead offLead, Tunable.ofSwitch c.text = .onOff name onLead offLead ∧
          onLead ++ name = c.text) ∧
    (scanned.map Candidate.text).Nodup ∧
    (∀ c ∈ scanned, ∀ d ∈ scanned, Tunable.ofSwitch c.text = Tunable.ofSwitch d.text → c = d) ∧
    ∃ verdict : String → Verdict,
      (∀ flag, ∃ trials, (x.probe.check flag).Gives answer (verdict flag) trials) ∧
      ∀ schedule, ∃ entries asked,
        (x.extract schedule compiler).run (.reliable answer) () = ⟨.ok entries, asked, ()⟩ ∧
        entries.Nodup ∧
        entries.Perm ((scanned.filter fun c => verdict c.text = .accepted).map
          fun c => .ofSwitch c.text) := by
  intro scanned
  refine ⟨fun scan mem => ?_, nodup_text_candidates compiler, fun c hc d hd same => ?_,
    x.probe.judged answer, fun flag => ⟨_, x.probe.gives_check answer flag⟩, fun schedule => ⟨_, _,
      x.gives_extract answer schedule compiler, x.nodup_entriesOf answer schedule compiler,
      x.entriesOf_perm answer schedule compiler⟩⟩
  · have switch : scan.2 ≠ .param := by
      simp only [List.mem_cons, List.not_mem_nil, or_false] at mem
      rcases mem with rfl | rfl <;> exact nofun
    refine ⟨?_, fun c hc => ?_⟩
    · rw [Listing.texts_switches]
      exact Listing.scanned_options scan.2.lead scan.1
    · obtain ⟨listed, kept⟩ := Listing.category_of_mem_switches hc switch
      exact ⟨listed, kept, Tunable.ofSwitch_eq c.text⟩
  · rw [eq_ofText_of_mem_candidates hc, eq_ofText_of_mem_candidates hd,
      Tunable.ofSwitch_injective same]

end Extractor
end FlagSurvey
