import FlagSurvey.Proofs.Flag.Order
import FlagSurvey.Proofs.Survey.Parameters
import FlagSurvey.Proofs.Survey.Switches
import FlagSurvey.Survey.Basic
import FlagSurvey.Trial.Script
import Mathlib

/-! Reports and schedules. Against a reliable executor the schedule settles in which order entries are
gathered and nothing else. The arrangement of a report undoes that order, except for entries alike in
category and name, and these are parameters: a report is reproducible exactly if no two of its entries
are alike and differ. -/
namespace FlagSurvey

open Plan

/-- One item is done with first, and the others as they are listed. -/
def Schedule.favouring {α : Type} [DecidableEq α] (item : α) : Schedule α where
  order jobs := if item ∈ jobs then item :: jobs.erase item else jobs
  order_perm jobs := by
    split
    · next h => exact (List.perm_cons_erase h).symm
    · exact .refl jobs

theorem Schedule.favouring_order {α : Type} [DecidableEq α] {item : α} {jobs : List α}
    (h : item ∈ jobs) : (Schedule.favouring item).order jobs = item :: jobs.erase item := by
  rw [favouring]
  exact if_pos h

theorem Compiler.sure_resolve (config : CompilerSection) (limit : Duration) :
    Sure (Compiler.resolve config limit) := by
  have captured (path invocation : String) : Sure (capture path invocation limit) :=
    (sure_trial _).map Outcome.stdout
  exact (captured _ _).bind fun _ => (captured _ _).bind fun _ => (captured _ _).bind fun _ =>
    (captured _ _).bind fun _ => .done _

namespace Extractor

variable (x : Extractor) (answer : Request → Outcome) (lead separator : String)

def gathered (schedule : SurveySchedule) (compiler : Compiler) (definitions : List Definition) :
    List Tunable :=
  x.entriesOf answer (schedule.candidates.order (candidates compiler)) ++
    (schedule.definitions.order (known compiler definitions)).filterMap
      (x.entry? answer lead separator)

theorem gathered_perm (schedule other : SurveySchedule) (compiler : Compiler)
    (definitions : List Definition) :
    (x.gathered answer lead separator schedule compiler definitions).Perm
      (x.gathered answer lead separator other compiler definitions) := by
  refine List.Perm.append (((?_ : List.Perm _ _).filter _).map _) (List.Perm.filterMap _ ?_)
  · exact (schedule.candidates.order_perm _).trans (other.candidates.order_perm _).symm
  · exact (schedule.definitions.order_perm _).trans (other.definitions.order_perm _).symm

def report (schedule : SurveySchedule) (compiler : Compiler) (definitions : List Definition) :
    Report where
  compilerName := compiler.path
  version := compiler.version
  tunables := Tunable.arrange (x.gathered answer lead separator schedule compiler definitions)
  unresolved := (ParamOutcome.ofRanges lead separator ((schedule.definitions.order
    (known compiler definitions)).filterMap (x.settled answer lead separator))).unresolved

variable {x answer lead separator}

theorem report_eq (schedule : SurveySchedule) (compiler : Compiler) (definitions : List Definition) :
    let params := ParamOutcome.ofRanges lead separator ((schedule.definitions.order
      (known compiler definitions)).filterMap (x.settled answer lead separator))
    (⟨compiler.path, compiler.version, Tunable.arrange
      (x.entriesOf answer (schedule.candidates.order (candidates compiler)) ++ params.tunables),
      params.unresolved⟩ : Report) =
      x.report answer lead separator schedule compiler definitions := by
  simp only [ParamOutcome.tunables_ofRanges, List.filterMap_filterMap]
  rfl

theorem of_mem_gathered {schedule : SurveySchedule} {compiler : Compiler}
    {definitions : List Definition} {t : Tunable}
    (h : t ∈ x.gathered answer lead separator schedule compiler definitions) :
    (∃ c ∈ candidates compiler, Tunable.ofSwitch c.text = t) ∨
      ∃ d ∈ known compiler definitions, x.entry? answer lead separator d = some t := by
  rcases List.mem_append.mp h with switch | parameter
  · obtain ⟨c, hc, rfl⟩ := List.mem_map.mp switch
    exact .inl ⟨c, (schedule.candidates.order_perm _).mem_iff.mp (List.mem_filter.mp hc).1, rfl⟩
  · obtain ⟨d, hd, entry⟩ := List.mem_filterMap.mp parameter
    exact .inr ⟨d, (schedule.definitions.order_perm _).mem_iff.mp hd, entry⟩

theorem ofSwitch_eq_of_alike {compiler : Compiler} {c d : Candidate} (hc : c ∈ candidates compiler)
    (hd : d ∈ candidates compiler) (alike : Tunable.Alike (.ofSwitch c.text) (.ofSwitch d.text)) :
    Tunable.ofSwitch c.text = Tunable.ofSwitch d.text := by
  obtain ⟨letter, body, shape, begins, -, -⟩ := exists_body_of_mem_candidates hc
  obtain ⟨letter', body', shape', begins', -, -⟩ := exists_body_of_mem_candidates hd
  obtain ⟨category, name⟩ := alike
  simp only [Tunable.ofSwitch, shape, shape', Tunable.category, Tunable.name, Category.of,
    String.toList_ofList, String.ofList_inj, List.take_succ_cons, List.take_zero,
    List.drop_succ_cons, List.drop_zero] at category name
  rw [Tunable.ofSwitch, Tunable.ofSwitch, shape, shape', name]
  rcases begins with rfl | rfl <;> rcases begins' with rfl | rfl <;>
    first | rfl | simp [Category.ofChars] at category

theorem category_ofSwitch_ne {compiler : Compiler} {c : Candidate} (hc : c ∈ candidates compiler) :
    (Tunable.ofSwitch c.text).category ≠ .param := by
  obtain ⟨letter, body, shape, begins, -, -⟩ := exists_body_of_mem_candidates hc
  simp only [Tunable.ofSwitch, shape, Tunable.category, Category.of, String.toList_ofList,
    List.take_succ_cons, List.take_zero]
  rcases begins with rfl | rfl <;> decide

theorem exists_definitions_of_alike {schedule : SurveySchedule} {compiler : Compiler}
    {definitions : List Definition} {t u : Tunable}
    (ht : t ∈ x.gathered answer lead separator schedule compiler definitions)
    (hu : u ∈ x.gathered answer lead separator schedule compiler definitions)
    (alike : Tunable.Alike t u) (differ : t ≠ u) :
    ∃ d ∈ known compiler definitions, ∃ e ∈ known compiler definitions, d.name = e.name ∧
      x.entry? answer lead separator d = some t ∧ x.entry? answer lead separator e = some u := by
  rcases of_mem_gathered ht with ⟨c, hc, rfl⟩ | ⟨d, hd, first⟩
  · rcases of_mem_gathered hu with ⟨c', hc', rfl⟩ | ⟨e, he, second⟩
    · exact absurd (ofSwitch_eq_of_alike hc hc' alike) differ
    · exact absurd (alike.1.trans (x.name_of_entry? second).1) (category_ofSwitch_ne hc)
  · rcases of_mem_gathered hu with ⟨c', hc', rfl⟩ | ⟨e, he, second⟩
    · exact absurd (alike.1.symm.trans (x.name_of_entry? first).1) (category_ofSwitch_ne hc')
    · obtain ⟨-, dName⟩ := x.name_of_entry? first
      obtain ⟨-, eName⟩ := x.name_of_entry? second
      exact ⟨d, hd, e, he, dName.symm.trans (alike.2.trans eName), first, second⟩

/-- The schedule that favours a definition puts its entry before the ones alike. -/
theorem head?_filter_alike_gathered {compiler : Compiler} {definitions : List Definition}
    {d : Definition} {t u : Tunable} (hd : d ∈ known compiler definitions)
    (entry : x.entry? answer lead separator d = some t) (alike : Tunable.Alike t u) :
    ((x.gathered answer lead separator ⟨.listed, .favouring d⟩ compiler definitions).filter
      fun v => Tunable.Alike v u).head? = some t := by
  have parameter : u.category = .param := alike.1.symm.trans (x.name_of_entry? entry).1
  have noSwitch : (x.entriesOf answer (Schedule.listed.order (candidates compiler))).filter
      (fun v => Tunable.Alike v u) = [] := by
    refine List.filter_eq_nil_iff.mpr fun v hv near => ?_
    obtain ⟨c, hc, rfl⟩ := List.mem_map.mp hv
    have near := (of_decide_eq_true near).1
    exact category_ofSwitch_ne (List.mem_filter.mp hc).1 (near.trans parameter)
  rw [gathered, List.filter_append, noSwitch, List.nil_append, Schedule.favouring_order hd,
    List.filterMap_cons, entry]
  simp only
  rw [List.filter_cons, if_pos (decide_eq_true alike), List.head?_cons]

theorem report_eq_with (schedule other : SurveySchedule) (compiler : Compiler)
    (definitions : List Definition) :
    x.report answer lead separator schedule compiler definitions =
      { x.report answer lead separator other compiler definitions with
        tunables := Tunable.arrange
          (x.gathered answer lead separator schedule compiler definitions) } := by
  have sorted : ((schedule.definitions.order (known compiler definitions)).filterMap
      (x.settled answer lead separator)).Perm ((other.definitions.order
        (known compiler definitions)).filterMap (x.settled answer lead separator)) :=
    ((schedule.definitions.order_perm _).trans (other.definitions.order_perm _).symm).filterMap _
  rw [report, ParamOutcome.unresolved_eq_of_perm lead separator sorted]
  rfl

theorem mem_report_tunables_iff {schedule : SurveySchedule} {compiler : Compiler}
    {definitions : List Definition} {t : Tunable} :
    t ∈ (x.report answer lead separator schedule compiler definitions).tunables ↔
      t ∈ x.gathered answer lead separator schedule compiler definitions :=
  (Tunable.arrange_perm _).mem_iff

theorem report_constant_iff (compiler : Compiler) (definitions : List Definition) :
    (∀ schedule, x.report answer lead separator schedule compiler definitions =
        x.report answer lead separator .listed compiler definitions) ↔
      ∀ t ∈ (x.report answer lead separator .listed compiler definitions).tunables,
        ∀ u ∈ (x.report answer lead separator .listed compiler definitions).tunables,
          Tunable.Alike t u → t = u := by
  simp only [mem_report_tunables_iff]
  constructor
  · intro same t ht u hu alike
    refine Decidable.byContradiction fun differ => ?_
    obtain ⟨d, hd, e, he, -, first, second⟩ := exists_definitions_of_alike ht hu alike differ
    have leads := head?_filter_alike_gathered hd first alike
    have leads' := head?_filter_alike_gathered he second (u := u) ⟨rfl, rfl⟩
    have arranged (f : Definition) : Tunable.arrange (x.gathered answer lead separator
        ⟨.listed, .favouring f⟩ compiler definitions) = _ :=
      congrArg Report.tunables (same ⟨.listed, .favouring f⟩)
    rw [← Tunable.filter_alike_arrange, arranged] at leads leads'
    exact differ (Option.some.inj (leads.symm.trans leads'))
  · intro apart schedule
    have arranged := Tunable.arrange_eq_of_perm
      (x.gathered_perm answer lead separator .listed schedule compiler definitions) apart
    rw [report_eq_with schedule .listed, ← arranged]
    rfl

theorem eq_of_alike_of_nodup {schedule : SurveySchedule} {compiler : Compiler}
    {definitions : List Definition} (distinct : (definitions.map Definition.name).Nodup) {t u : Tunable}
    (ht : t ∈ (x.report answer lead separator schedule compiler definitions).tunables)
    (hu : u ∈ (x.report answer lead separator schedule compiler definitions).tunables)
    (alike : Tunable.Alike t u) : t = u := by
  refine Decidable.byContradiction fun differ => ?_
  obtain ⟨d, hd, e, he, names, first, second⟩ := exists_definitions_of_alike
    (mem_report_tunables_iff.mp ht) (mem_report_tunables_iff.mp hu) alike differ
  have same : d = e := List.inj_on_of_nodup_map distinct (List.mem_filter.mp hd).1
    (List.mem_filter.mp he).1 names
  rw [same, second] at first
  exact differ (Option.some.inj first).symm

end Extractor

namespace Survey

variable (readText : String → Except Failure String) (config : Config) (answer : Request → Outcome)
  (poolSize : Nat)

def outcome (schedule : SurveySchedule) : Except Failure Report :=
  ((plan readText schedule poolSize config).run (.reliable answer) ()).result

variable {readText config answer poolSize}

theorem exists_definitions_eq_done
    (readable : ∀ path, config.params.definitions = some path → ∃ text, readText path = .ok text) :
    ∃ defined, definitions readText config = .done defined := by
  rw [definitions]
  cases given : config.params.definitions with
  | none => exact ⟨[], rfl⟩
  | some path =>
    obtain ⟨text, read⟩ := readable path given
    simp only [read]
    exact ⟨_, rfl⟩

theorem outcome_eq {helpLimit compileLimit : Duration} {compiler : Compiler} {shown : List Request}
    {defined : List Definition} (help : config.helpLimit? = some helpLimit)
    (compile : config.compileLimit? = some compileLimit)
    (described : (Compiler.resolve config.compiler helpLimit).Gives answer compiler shown)
    (read : definitions readText config = .done defined) (schedule : SurveySchedule) :
    outcome readText config answer poolSize schedule =
      .ok ((Extractor.ofSize ⟨compiler.path, config.probe.testProgram, compileLimit⟩ poolSize).report
        answer config.params.lead config.params.separator schedule compiler defined) := by
  let x := Extractor.ofSize ⟨compiler.path, config.probe.testProgram, compileLimit⟩ poolSize
  have switches := x.gives_extract answer schedule.candidates compiler
  have params : Gives answer (x.extractParams schedule.definitions compiler defined
    config.params.lead config.params.separator) _ _ := x.gives_extractParams _ _ _
  have gives : ∃ asked, Gives answer (plan readText schedule poolSize config)
      (x.report answer config.params.lead config.params.separator schedule compiler defined) asked := by
    rw [plan, help, compile, read, ← x.report_eq]
    exact ⟨_, described.bind (switches.bind (params.bind (gives_done _)))⟩
  obtain ⟨asked, gives⟩ := gives
  rw [outcome, gives]

/-- Schedules may reorder the entries of a report and change nothing else of it. All of them lead to one
report exactly if no two of its entries are alike and differ, so always if no name is defined twice. -/
theorem outcome_constant_iff (readText : String → Except Failure String) (config : Config)
    (answer : Request → Outcome) (poolSize : Nat) {helpLimit compileLimit : Duration}
    (help : config.helpLimit? = some helpLimit) (compile : config.compileLimit? = some compileLimit)
    (readable : ∀ path, config.params.definitions = some path → ∃ text, readText path = .ok text) :
    ∃ defined report, definitions readText config = .done defined ∧
      outcome readText config answer poolSize .listed = .ok report ∧
      (∀ schedule, ∃ entries, entries.Perm report.tunables ∧
        outcome readText config answer poolSize schedule = .ok { report with tunables := entries }) ∧
      ((∀ schedule, outcome readText config answer poolSize schedule = .ok report) ↔
        ∀ t ∈ report.tunables, ∀ u ∈ report.tunables, Tunable.Alike t u → t = u) ∧
      ((defined.map Definition.name).Nodup →
        ∀ schedule, outcome readText config answer poolSize schedule = .ok report) := by
  obtain ⟨defined, read⟩ := exists_definitions_eq_done readable
  obtain ⟨compiler, shown, described⟩ :=
    (Compiler.sure_resolve config.compiler helpLimit).exists_gives answer
  let x := Extractor.ofSize ⟨compiler.path, config.probe.testProgram, compileLimit⟩ poolSize
  let ending := fun schedule => x.report answer config.params.lead config.params.separator schedule
    compiler defined
  have ended : ∀ schedule, outcome readText config answer poolSize schedule = .ok (ending schedule) :=
    outcome_eq help compile described read
  have constant : (∀ schedule, outcome readText config answer poolSize schedule = .ok (ending .listed)) ↔
      ∀ schedule, ending schedule = ending .listed := by
    simp only [ended, Except.ok.injEq]
  have told : (∀ schedule, ending schedule = ending .listed) ↔ _ :=
    x.report_constant_iff compiler defined
  refine ⟨defined, ending .listed, read, ended .listed, fun schedule => ?_, constant.trans told, ?_⟩
  · refine ⟨(ending schedule).tunables, ?_, ?_⟩
    · exact (Tunable.arrange_perm _).trans ((x.gathered_perm _ _ _ schedule .listed _ _).trans
        (Tunable.arrange_perm _).symm)
    · rw [ended]
      exact congrArg Except.ok (x.report_eq_with schedule .listed compiler defined)
  · intro distinct
    exact constant.mpr (told.mpr fun t ht u hu => x.eq_of_alike_of_nodup distinct ht hu)

theorem outcome_of_single_name_constant :
    let text := "DEFPARAM(max-foo, \"x\", 1, 0, 20)\n"
    let readText : String → Except Failure String := fun _ => .ok text
    let config : Config := { params := { definitions := some "params.def" } }
    let answer : Request → Outcome := fun _ => { Outcome.passing with stdout := "  max-foo   Once.\n" }
    (config.helpLimit? = some ⟨30000000000⟩ ∧ config.compileLimit? = some ⟨5000000000⟩) ∧
      ∃ report, ∀ schedule, outcome readText config answer 1 schedule = .ok report := by
  intro text readText config answer
  have help : config.helpLimit? = some ⟨30000000000⟩ := by decide +kernel
  have compile : config.compileLimit? = some ⟨5000000000⟩ := by decide +kernel
  have parsed : (Definition.Document.ofText text).definitions = [⟨"max-foo", "x", 1, 0, 20⟩] := by cbv
  obtain ⟨defined, report, read, -, -, -, constant⟩ :=
    outcome_constant_iff readText config answer 1 help compile fun _ _ => ⟨text, rfl⟩
  have same : (Definition.Document.ofText text).definitions = defined := Plan.done.inj read
  rw [← same, parsed] at constant
  exact ⟨⟨help, compile⟩, report, constant (by decide)⟩

/-- Two definitions of one name and different bounds lead to two reports. -/
theorem outcome_of_doubled_name_varies :
    let text := "DEFPARAM(max-foo, \"x\", 1, 0, 20)\nDEFPARAM(max-foo, \"x\", 1, 0, 10)\n"
    let readText : String → Except Failure String := fun _ => .ok text
    let config : Config := { params := { definitions := some "params.def" } }
    let answer : Request → Outcome := fun _ => { Outcome.passing with stdout := "  max-foo   Twice.\n" }
    config.helpLimit?.isSome = true ∧ config.compileLimit?.isSome = true ∧
      outcome readText config answer 1 .listed ≠
        outcome readText config answer 1 ⟨.listed, .favouring ⟨"max-foo", "x", 1, 0, 10⟩⟩ := by
  intro text readText config answer
  have help : config.helpLimit? = some ⟨30000000000⟩ := by decide +kernel
  have compile : config.compileLimit? = some ⟨5000000000⟩ := by decide +kernel
  have parsed : (Definition.Document.ofText text).definitions =
      [⟨"max-foo", "x", 1, 0, 20⟩, ⟨"max-foo", "x", 1, 0, 10⟩] := by cbv
  have read : definitions readText config = _ := congrArg Plan.done parsed
  have described : (Compiler.resolve config.compiler ⟨30000000000⟩).Gives answer _ _ := rfl
  refine ⟨by rw [help]; rfl, by rw [compile]; rfl, fun same => ?_⟩
  rw [outcome_eq help compile described read, outcome_eq help compile described read] at same
  have arranged := congrArg Report.tunables (Except.ok.inj same)
  have kept := congrArg (List.filter fun u => Tunable.Alike u
    (.range "max-foo" "--param " "=" 0 20)) arranged
  simp only [Extractor.report, Tunable.filter_alike_arrange] at kept
  revert kept
  decide +kernel

end Survey
end FlagSurvey
