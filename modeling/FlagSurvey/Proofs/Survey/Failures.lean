import FlagSurvey.Proofs.Probe.Faults
import FlagSurvey.Proofs.Survey.Listing
import FlagSurvey.Proofs.Survey.Parameters
import FlagSurvey.Survey.Basic
import FlagSurvey.Trial.Script

/-! Failures of surveys. A survey describes the compiler, tries its switches, reads the definitions and
surveys the parameters, in this order. It fails exactly if something that one of these phases requires
fails, with a failure of the earliest such phase; a report is the sign that nothing failed. -/
namespace FlagSurvey

open Plan

namespace Compiler

variable (answer : Request → Except Failure Outcome) (config : CompilerSection) (limit : Duration)

def invocations : List String :=
  ["--version", config.targetHelp, config.optimizerHelp, config.paramsHelp]

def Prints (invocation text : String) : Prop :=
  ∃ outcome, answer ⟨.inform config.path invocation, limit⟩ = .ok outcome ∧ outcome.stdout = text

structure Described (compiler : Compiler) : Prop where
  path : compiler.path = config.path
  version : ∃ text, Prints answer config limit "--version" text ∧ compiler.version = Version.scan text
  targetHelp : Prints answer config limit config.targetHelp compiler.targetHelp
  optimizerHelp : Prints answer config limit config.optimizerHelp compiler.optimizerHelp
  paramsHelp : Prints answer config limit config.paramsHelp compiler.paramsHelp

variable {answer config limit}

theorem capture_eq_error_iff {invocation : String} {cause : Failure} :
    result answer (capture config.path invocation limit) = .error cause ↔
      answer ⟨.inform config.path invocation, limit⟩ = .error cause := by
  rw [capture, map_eq_error_iff, result_trial]

theorem capture_eq_ok_iff {invocation text : String} :
    result answer (capture config.path invocation limit) = .ok text ↔
      Prints answer config limit invocation text := by
  rw [capture, map_eq_ok_iff, result_trial]
  rfl

theorem exists_of_resolve_eq_error {cause : Failure}
    (h : result answer (resolve config limit) = .error cause) :
    ∃ invocation ∈ invocations config, answer ⟨.inform config.path invocation, limit⟩ = .error cause := by
  have failed {invocation : String} (mem : invocation ∈ invocations config)
      (h : result answer (capture config.path invocation limit) = .error cause) :
      ∃ invocation ∈ invocations config,
        answer ⟨.inform config.path invocation, limit⟩ = .error cause :=
    ⟨invocation, mem, capture_eq_error_iff.mp h⟩
  rcases bind_eq_error_iff.mp h with version | ⟨_, -, h⟩
  · exact failed (by simp [invocations]) version
  rcases bind_eq_error_iff.mp h with target | ⟨_, -, h⟩
  · exact failed (by simp [invocations]) target
  rcases bind_eq_error_iff.mp h with optimizer | ⟨_, -, h⟩
  · exact failed (by simp [invocations]) optimizer
  rcases bind_eq_error_iff.mp h with params | ⟨_, -, final⟩
  · exact failed (by simp [invocations]) params
  · contradiction

theorem resolve_eq_ok_iff {compiler : Compiler} :
    result answer (resolve config limit) = .ok compiler ↔ Described answer config limit compiler := by
  simp only [resolve, bind_eq_ok_iff, capture_eq_ok_iff, pure_eq, result_done, Except.ok.injEq]
  constructor
  · rintro ⟨version, printed, target, ht, optimizer, ho, params, hp, rfl⟩
    exact ⟨rfl, ⟨version, printed, rfl⟩, ht, ho, hp⟩
  · rintro ⟨path, ⟨version, printed, scanned⟩, ht, ho, hp⟩
    refine ⟨version, printed, _, ht, _, ho, _, hp, ?_⟩
    rw [← path, ← scanned]

theorem Described.unique {compiler other : Compiler} (h : Described answer config limit compiler)
    (h' : Described answer config limit other) : compiler = other :=
  Except.ok.inj ((resolve_eq_ok_iff.mpr h).symm.trans (resolve_eq_ok_iff.mpr h'))

theorem Described.exists_outcome {compiler : Compiler} (h : Described answer config limit compiler)
    {invocation : String} (mem : invocation ∈ invocations config) :
    ∃ outcome, answer ⟨.inform config.path invocation, limit⟩ = .ok outcome := by
  have printed : ∃ text, Prints answer config limit invocation text := by
    simp only [invocations, List.mem_cons, List.not_mem_nil, or_false] at mem
    rcases mem with rfl | rfl | rfl | rfl
    · obtain ⟨text, printed, -⟩ := h.version
      exact ⟨text, printed⟩
    · exact ⟨_, h.targetHelp⟩
    · exact ⟨_, h.optimizerHelp⟩
    · exact ⟨_, h.paramsHelp⟩
  obtain ⟨_, outcome, told, -⟩ := printed
  exact ⟨outcome, told⟩

end Compiler

namespace Extractor

variable {x : Extractor} {answer : Request → Except Failure Outcome} {lead separator : String}

theorem keep?_eq_error_iff {c : Candidate} {cause : Failure} :
    result answer (x.keep? c) = .error cause ↔ x.probe.CheckFault answer c.text cause := by
  rw [keep?, bind_eq_error_iff, Probe.isValid_eq_error_iff]
  simp

theorem exists_of_extract_eq_error {schedule : Schedule Candidate} {compiler : Compiler}
    {cause : Failure} (h : result answer (x.extract schedule compiler) = .error cause) :
    ∃ flag, compiler.Lists flag ∧ x.probe.CheckFault answer flag cause := by
  rcases bind_eq_error_iff.mp h with failed | ⟨_, -, final⟩
  · rcases bind_eq_error_iff.mp failed with gathered | ⟨_, -, final⟩
    · obtain ⟨c, hc, failed⟩ := exists_of_gather_eq_error gathered
      exact ⟨c.text, ⟨c, hc, rfl⟩, keep?_eq_error_iff.mp failed⟩
    · contradiction
  · contradiction

theorem not_checkFault_of_extract_eq_ok {schedule : Schedule Candidate} {compiler : Compiler}
    {entries : List Tunable} (h : result answer (x.extract schedule compiler) = .ok entries)
    {flag : String} (listed : compiler.Lists flag) {cause : Failure} :
    ¬x.probe.CheckFault answer flag cause := by
  obtain ⟨c, hc, rfl⟩ := listed
  obtain ⟨_, validated, -⟩ := bind_eq_ok_iff.mp h
  obtain ⟨_, gathered, -⟩ := bind_eq_ok_iff.mp validated
  obtain ⟨_, kept⟩ := exists_of_gather_eq_ok gathered hc
  rw [← keep?_eq_error_iff, kept]
  exact nofun

theorem range?_eq_error_iff {d : Definition} {cause : Failure} :
    result answer (x.range? lead separator d) = .error cause ↔
      x.probe.CheckFault answer (renderParam lead d.name separator d.default) cause ∨
      x.probe.Passes answer (renderParam lead d.name separator d.default) ∧ d.max ≤ d.min ∧
        x.probe.SearchFault answer (renderParam lead d.name separator) d.min cause := by
  rw [range?, bind_eq_error_iff, Probe.isValid_eq_error_iff]
  refine or_congr_right ?_
  constructor
  · rintro ⟨valid, checked, later⟩
    cases valid with
    | false => contradiction
    | true =>
      exact ⟨Probe.isValid_eq_true_iff.mp checked,
        Probe.resolve_eq_error_iff.mp (map_eq_error_iff.mp later)⟩
  · rintro ⟨passes, search⟩
    exact ⟨true, Probe.isValid_eq_true_iff.mpr passes,
      map_eq_error_iff.mpr (Probe.resolve_eq_error_iff.mpr search)⟩

theorem exists_of_extractParams_eq_error {schedule : Schedule Definition} {compiler : Compiler}
    {definitions : List Definition} {cause : Failure}
    (h : result answer (x.extractParams schedule compiler definitions lead separator) = .error cause) :
    ∃ d ∈ known compiler definitions, result answer (x.range? lead separator d) = .error cause := by
  rcases bind_eq_error_iff.mp h with gathered | ⟨_, -, final⟩
  · exact exists_of_gather_eq_error gathered
  · contradiction

theorem exists_of_extractParams_eq_ok {schedule : Schedule Definition} {compiler : Compiler}
    {definitions : List Definition} {outcome : ParamOutcome}
    (h : result answer (x.extractParams schedule compiler definitions lead separator) = .ok outcome)
    {d : Definition} (hd : d ∈ known compiler definitions) :
    ∃ range, result answer (x.range? lead separator d) = .ok range := by
  obtain ⟨_, gathered, -⟩ := bind_eq_ok_iff.mp h
  exact exists_of_gather_eq_ok gathered hd

end Extractor

namespace Survey

inductive Phase where
  | description
  | switches
  | definitions
  | parameters
  deriving DecidableEq

def Phase.rank : Phase → Nat
  | .description => 0
  | .switches => 1
  | .definitions => 2
  | .parameters => 3

theorem Phase.rank_injective {phase other : Phase} (h : phase.rank = other.rank) : phase = other := by
  cases phase <;> cases other <;> first | rfl | contradiction

theorem Phase.rank_lt (phase : Phase) : phase.rank < 4 := by
  cases phase <;> decide

variable (readText : String → Except Failure String) (config : Config)
  (answer : Request → Except Failure Outcome) (helpLimit compileLimit : Duration)

def probe : Probe := ⟨config.compiler.path, config.probe.testProgram, compileLimit⟩

/-- What can fail in a phase: a trial that it requires, or the text of the definitions. -/
inductive Fault : Phase → Failure → Prop where
  | description {invocation : String} {cause : Failure}
    (listed : invocation ∈ Compiler.invocations config.compiler)
    (failed : answer ⟨.inform config.compiler.path invocation, helpLimit⟩ = .error cause) :
    Fault .description cause
  | switch {compiler : Compiler} {flag : String} {cause : Failure}
    (described : Compiler.Described answer config.compiler helpLimit compiler)
    (listed : compiler.Lists flag)
    (failed : (probe config compileLimit).CheckFault answer flag cause) : Fault .switches cause
  | definitions {path : String} {cause : Failure} (given : config.params.definitions = some path)
    (failed : readText path = .error cause) : Fault .definitions cause
  | default {compiler : Compiler} {defined : List Definition} {d : Definition} {cause : Failure}
    (described : Compiler.Described answer config.compiler helpLimit compiler)
    (read : definitions readText config = .done defined) (known : d ∈ Extractor.known compiler defined)
    (failed : (probe config compileLimit).CheckFault answer
      (renderParam config.params.lead d.name config.params.separator d.default) cause) :
    Fault .parameters cause
  | search {compiler : Compiler} {defined : List Definition} {d : Definition} {cause : Failure}
    (described : Compiler.Described answer config.compiler helpLimit compiler)
    (read : definitions readText config = .done defined) (known : d ∈ Extractor.known compiler defined)
    (passes : (probe config compileLimit).Passes answer
      (renderParam config.params.lead d.name config.params.separator d.default))
    (placeholder : d.max ≤ d.min)
    (failed : (probe config compileLimit).SearchFault answer
      (renderParam config.params.lead d.name config.params.separator) d.min cause) :
    Fault .parameters cause

def Clear (place : Nat) : Prop :=
  ∀ phase cause, phase.rank < place → ¬Fault readText config answer helpLimit compileLimit phase cause

/-- What the end of a survey tells: a failure is a fault of the earliest phase that has one, and a report
is the sign that there is none. -/
def Tells : Except Failure Report → Prop
  | .error cause => ∃ phase, Fault readText config answer helpLimit compileLimit phase cause ∧
      Clear readText config answer helpLimit compileLimit phase.rank
  | .ok _ => ∀ phase cause, ¬Fault readText config answer helpLimit compileLimit phase cause

variable {readText config answer helpLimit compileLimit}

theorem clear_zero : Clear readText config answer helpLimit compileLimit 0 :=
  fun _ _ lower => absurd lower (Nat.not_lt_zero _)

theorem Clear.next {phase : Phase} (h : Clear readText config answer helpLimit compileLimit phase.rank)
    (none : ∀ cause, ¬Fault readText config answer helpLimit compileLimit phase cause) :
    Clear readText config answer helpLimit compileLimit (phase.rank + 1) := by
  intro other cause within
  rcases Nat.lt_succ_iff_lt_or_eq.mp within with before | same
  · exact h other cause before
  · rw [Phase.rank_injective same]
    exact none cause

theorem definitions_eq_error_iff {cause : Failure} :
    result answer (definitions readText config) = .error cause ↔
      ∃ path, config.params.definitions = some path ∧ readText path = .error cause := by
  rw [definitions]
  cases config.params.definitions with
  | none => simp
  | some path => simp [map_eq_error_iff, result_ofExcept]

theorem definitions_eq_done_of_ok {defined : List Definition}
    (h : result answer (definitions readText config) = .ok defined) :
    definitions readText config = .done defined := by
  rw [definitions] at h ⊢
  cases given : config.params.definitions with
  | none =>
    simp only [given] at h ⊢
    exact congrArg Plan.done (Except.ok.inj h)
  | some path =>
    simp only [given] at h ⊢
    cases read : readText path with
    | error cause =>
      rw [read] at h
      contradiction
    | ok text =>
      rw [read] at h
      exact congrArg Plan.done (Except.ok.inj h)

theorem plan_eq (help : config.helpLimit? = some helpLimit)
    (compile : config.compileLimit? = some compileLimit) (schedule : SurveySchedule) (poolSize : Nat) :
    plan readText schedule poolSize config =
      Compiler.resolve config.compiler helpLimit >>= fun compiler =>
        let x := Extractor.ofSize ⟨compiler.path, config.probe.testProgram, compileLimit⟩ poolSize
        x.extract schedule.candidates compiler >>= fun switches =>
          definitions readText config >>= fun defined =>
            x.extractParams schedule.definitions compiler defined config.params.lead
              config.params.separator >>= fun params =>
                .done ⟨compiler.path, compiler.version, Tunable.arrange (switches ++ params.tunables),
                  params.unresolved⟩ := by
  rw [plan, help, compile]
  rfl

theorem not_fault_description {compiler : Compiler}
    (described : Compiler.Described answer config.compiler helpLimit compiler) {cause : Failure} :
    ¬Fault readText config answer helpLimit compileLimit .description cause := by
  intro fault
  cases fault with
  | description listed failed =>
    obtain ⟨_, told⟩ := described.exists_outcome listed
    rw [told] at failed
    contradiction

theorem not_fault_switches {compiler : Compiler} {poolSize : Nat} {schedule : Schedule Candidate}
    {entries : List Tunable} (described : Compiler.Described answer config.compiler helpLimit compiler)
    (h : result answer ((Extractor.ofSize (probe config compileLimit) poolSize).extract schedule
      compiler) = .ok entries) {cause : Failure} :
    ¬Fault readText config answer helpLimit compileLimit .switches cause := by
  intro fault
  cases fault with
  | switch described' listed failed =>
    rw [described'.unique described] at listed
    exact Extractor.not_checkFault_of_extract_eq_ok h listed failed

theorem not_fault_definitions {defined : List Definition}
    (h : result answer (definitions readText config) = .ok defined) {cause : Failure} :
    ¬Fault readText config answer helpLimit compileLimit .definitions cause := by
  intro fault
  cases fault with
  | definitions given failed =>
    rw [definitions_eq_error_iff.mpr ⟨_, given, failed⟩] at h
    contradiction

theorem fault_parameters_iff {compiler : Compiler} {defined : List Definition} (poolSize : Nat)
    (described : Compiler.Described answer config.compiler helpLimit compiler)
    (read : definitions readText config = .done defined) {cause : Failure} :
    Fault readText config answer helpLimit compileLimit .parameters cause ↔
      ∃ d ∈ Extractor.known compiler defined,
        result answer ((Extractor.ofSize (probe config compileLimit) poolSize).range?
          config.params.lead config.params.separator d) = .error cause := by
  simp only [Extractor.range?_eq_error_iff]
  constructor
  · intro fault
    cases fault with
    | default described' read' known failed =>
      cases described'.unique described
      cases read.symm.trans read'
      exact ⟨_, known, .inl failed⟩
    | search described' read' known passes placeholder failed =>
      cases described'.unique described
      cases read.symm.trans read'
      exact ⟨_, known, .inr ⟨passes, placeholder, failed⟩⟩
  · rintro ⟨d, known, failed | ⟨passes, placeholder, failed⟩⟩
    · exact .default described read known failed
    · exact .search described read known passes placeholder failed

theorem not_fault_parameters {compiler : Compiler} {defined : List Definition} {poolSize : Nat}
    {schedule : Schedule Definition} {outcome : ParamOutcome}
    (described : Compiler.Described answer config.compiler helpLimit compiler)
    (read : definitions readText config = .done defined)
    (h : result answer ((Extractor.ofSize (probe config compileLimit) poolSize).extractParams schedule
      compiler defined config.params.lead config.params.separator) = .ok outcome) {cause : Failure} :
    ¬Fault readText config answer helpLimit compileLimit .parameters cause := by
  intro fault
  obtain ⟨d, known, failed⟩ := (fault_parameters_iff poolSize described read).mp fault
  obtain ⟨_, ended⟩ := Extractor.exists_of_extractParams_eq_ok h known
  rw [ended] at failed
  contradiction

theorem tells_plan (help : config.helpLimit? = some helpLimit)
    (compile : config.compileLimit? = some compileLimit) (schedule : SurveySchedule) (poolSize : Nat) :
    Tells readText config answer helpLimit compileLimit
      (result answer (plan readText schedule poolSize config)) := by
  rw [plan_eq help compile]
  refine result_bind_cases (fun cause failed => ?_) fun compiler resolved => ?_
  · obtain ⟨invocation, listed, failed⟩ := Compiler.exists_of_resolve_eq_error failed
    exact ⟨.description, .description listed failed, clear_zero⟩
  have described := Compiler.resolve_eq_ok_iff.mp resolved
  have clear : Clear readText config answer helpLimit compileLimit Phase.switches.rank :=
    clear_zero.next fun _ => not_fault_description described
  rw [described.path]
  refine result_bind_cases (fun cause failed => ?_) fun entries extracted => ?_
  · obtain ⟨flag, listed, failed⟩ := Extractor.exists_of_extract_eq_error failed
    exact ⟨.switches, .switch described listed failed, clear⟩
  have clear : Clear readText config answer helpLimit compileLimit Phase.definitions.rank :=
    clear.next fun _ => not_fault_switches described extracted
  refine result_bind_cases (fun cause failed => ?_) fun defined read => ?_
  · obtain ⟨path, given, failed⟩ := definitions_eq_error_iff.mp failed
    exact ⟨.definitions, .definitions given failed, clear⟩
  have clear : Clear readText config answer helpLimit compileLimit Phase.parameters.rank :=
    clear.next fun _ => not_fault_definitions read
  have read := definitions_eq_done_of_ok read
  refine result_bind_cases (fun cause failed => ?_) fun params surveyed => ?_
  · have failed := Extractor.exists_of_extractParams_eq_error failed
    exact ⟨.parameters, (fault_parameters_iff poolSize described read).mpr failed, clear⟩
  intro phase cause
  exact clear.next (fun _ => not_fault_parameters described read surveyed) phase cause phase.rank_lt

/-- Where no trial fails the definitions alone can. -/
theorem Fault.exists_path {phase : Phase} {cause : Failure}
    (h : Fault readText config answer helpLimit compileLimit phase cause)
    (answered : ∀ request, ∃ outcome, answer request = .ok outcome) :
    ∃ path, config.params.definitions = some path ∧ readText path = .error cause := by
  have refuted {request : Request} : answer request ≠ .error cause := by
    obtain ⟨_, told⟩ := answered request
    rw [told]
    exact nofun
  cases h with
  | definitions given failed => exact ⟨_, given, failed⟩
  | description _ failed => exact absurd failed refuted
  | switch _ _ failed => exact absurd failed.exists_request.choose_spec refuted
  | default _ _ _ failed => exact absurd failed.exists_request.choose_spec refuted
  | search _ _ _ _ _ failed => exact absurd failed.exists_request.choose_spec refuted

/-- A survey fails exactly if something that it requires fails: an invocation that describes the compiler,
a trial of a switch, the text of the definitions, or a trial of a parameter. The failure is one of the
earliest phase in which there is one. A report comes of a run whose trials all came out, and comes of
every executor that never fails, unless the definitions cannot be read. -/
theorem fails_iff_fault (readText : String → Except Failure String) (config : Config)
    (answer : Request → Except Failure Outcome) (schedule : SurveySchedule) (poolSize : Nat)
    {helpLimit compileLimit : Duration} (help : config.helpLimit? = some helpLimit)
    (compile : config.compileLimit? = some compileLimit) :
    let run := (plan readText schedule poolSize config).run (.ofFunction answer) ()
    let Faulty := Fault readText config answer helpLimit compileLimit
    ((∃ cause, run.result = .error cause) ↔ ∃ phase cause, Faulty phase cause) ∧
    (∀ cause, run.result = .error cause → ∃ phase, Faulty phase cause ∧
      ∀ earlier other, earlier.rank < phase.rank → ¬Faulty earlier other) ∧
    (∀ report, run.result = .ok report →
      ∀ request ∈ run.requests, ∃ outcome, answer request = .ok outcome) ∧
    ((∀ request, ∃ outcome, answer request = .ok outcome) → ((∃ report, run.result = .ok report) ↔
      ∀ path, config.params.definitions = some path → ∃ text, readText path = .ok text)) := by
  intro run Faulty
  have told : Tells readText config answer helpLimit compileLimit run.result :=
    tells_plan help compile schedule poolSize
  cases ended : run.result with
  | error cause =>
    rw [ended] at told
    obtain ⟨phase, faulty, clear⟩ := told
    refine ⟨⟨fun _ => ⟨phase, cause, faulty⟩, fun _ => ⟨cause, rfl⟩⟩, ?_, ?_, fun answered => ⟨?_, ?_⟩⟩
    · rintro _ ⟨⟩
      exact ⟨phase, faulty, clear⟩
    · intro report other
      contradiction
    · rintro ⟨report, other⟩
      contradiction
    · intro readable
      obtain ⟨path, given, failed⟩ := faulty.exists_path answered
      obtain ⟨text, read⟩ := readable path given
      rw [read] at failed
      contradiction
  | ok report =>
    rw [ended] at told
    refine ⟨⟨?_, ?_⟩, ?_, fun _ _ request => exists_outcome_of_result_eq_ok ended,
      fun answered => ⟨fun _ path given => ?_, fun _ => ⟨report, rfl⟩⟩⟩
    · rintro ⟨cause, other⟩
      contradiction
    · rintro ⟨phase, cause, faulty⟩
      exact absurd faulty (told phase cause)
    · intro cause other
      contradiction
    · cases read : readText path with
      | ok text => exact ⟨text, rfl⟩
      | error cause => exact absurd (.definitions given read) (told .definitions cause)

theorem fails_of_interrupted_inverse :
    let listing := "  -ffoo   Foo.\n"
    let answer : Request → Except Failure Outcome := fun request =>
      if request.command.args = ["-fno-foo", "test/helloworld.c"] then .error .interrupted
      else .ok { Outcome.passing with stdout := listing }
    let config : Config := {}
    (config.helpLimit? = some ⟨30000000000⟩ ∧ config.compileLimit? = some ⟨5000000000⟩) ∧
      ∃ cause, ((plan (fun _ => .ok "") .listed 4 config).run (.ofFunction answer) ()).result =
        .error cause := by
  intro listing answer config
  have help : config.helpLimit? = some ⟨30000000000⟩ := by decide +kernel
  have compile : config.compileLimit? = some ⟨5000000000⟩ := by decide +kernel
  have prints (invocation : String) (other : Text.wordsOf invocation ≠ ["-fno-foo", "test/helloworld.c"]) :
      Compiler.Prints answer config.compiler ⟨30000000000⟩ invocation listing :=
    ⟨_, if_neg other, rfl⟩
  have described : Compiler.Described answer config.compiler ⟨30000000000⟩
      ⟨"gcc", Version.scan listing, listing, listing, listing⟩ :=
    ⟨rfl, ⟨listing, prints _ (by decide +kernel), rfl⟩, prints _ (by decide +kernel),
      prints _ (by decide +kernel), prints _ (by decide +kernel)⟩
  have taken : (probe config ⟨5000000000⟩).Accepts answer "-ffoo" :=
    ⟨{ Outcome.passing with stdout := listing }, by rfl, by decide +kernel⟩
  have fault : Fault (fun _ => .ok "") config answer ⟨30000000000⟩ ⟨5000000000⟩ .switches .interrupted :=
    .switch described ⟨.ofText "-ffoo", by decide +kernel, rfl⟩
      (.inverse taken (by decide +kernel : invert? "-ffoo" = some "-fno-foo") rfl)
  exact ⟨⟨help, compile⟩, (fails_iff_fault (fun _ => .ok "") config answer .listed 4 help compile).1.mpr
    ⟨.switches, .interrupted, fault⟩⟩

end Survey
end FlagSurvey
