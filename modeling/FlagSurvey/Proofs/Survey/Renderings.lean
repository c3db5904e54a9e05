import FlagSurvey.Proofs.Flag.Inverse
import FlagSurvey.Proofs.Probe.Requests
import FlagSurvey.Proofs.Probe.Word
import FlagSurvey.Proofs.Survey.Parameters

/-! Trials of parameters. A survey tries a listed definition at its default and at values from its least one
up to the ceiling. The check of the default also tries an inverse where the default is written like an
optimizer switch, and then a refused inverse loses a definition whose default was taken. -/
namespace FlagSurvey

open Plan

def Probe.NextTakes {σ : Type} (p : Probe) (executor : Executor σ) (state : σ) (flag : String) : Prop :=
  ∃ outcome, (executor.execute (p.request flag) state).1 = .ok outcome ∧ Verdict.of outcome = .accepted

theorem category_renderParam_iff {lead : String} (h : 2 ≤ lead.length) (name separator : String)
    (value : Int) :
    Category.of (renderParam lead name separator value) = .optimizer ↔ Category.of lead = .optimizer := by
  obtain ⟨c, d, rest, shape⟩ : ∃ c d rest, lead.toList = c :: d :: rest := by
    rw [← String.length_toList] at h
    rcases chars : lead.toList with _ | ⟨c, _ | ⟨d, rest⟩⟩
    · simp [chars] at h
    · simp [chars] at h
    · exact ⟨c, d, rest, rfl⟩
  simp [Category.of, Category.ofChars_eq_optimizer_iff, renderParam, shape]

namespace Extractor

variable (x : Extractor) (lead separator : String)

/-- The request tries the definition at its default, or at a value from its least one up to the ceiling. -/
def Renders (d : Definition) (request : Request) : Prop :=
  ∃ value, (value = d.default ∨ d.min ≤ value ∧ value ≤ ceiling) ∧
    request = x.probe.request (renderParam lead d.name separator value)

def Inverts (d : Definition) (request : Request) : Prop :=
  ∃ inverse, invert? (renderParam lead d.name separator d.default) = some inverse ∧
    request = x.probe.request inverse

variable {x lead separator}

theorem asks_range? (d : Definition) :
    Asks (fun request => x.Renders lead separator d request ∨ x.Inverts lead separator d request)
      (x.range? lead separator d) := by
  refine Asks.bind (Probe.asks_isValid ?direct ?second) fun valid => ?_
  case direct => exact .inl ⟨d.default, .inl rfl, rfl⟩
  case second => exact fun inverse inverted => .inr ⟨inverse, inverted, rfl⟩
  cases valid with
  | false => exact .done none
  | true =>
    refine Asks.map some ((Probe.asks_resolve lead separator d).mono fun request tried => ?_)
    obtain ⟨value, lower, upper, same⟩ := tried
    exact .inl ⟨value, .inr ⟨lower, upper⟩, same⟩

theorem asks_extractParams (schedule : Schedule Definition) (compiler : Compiler)
    (definitions : List Definition) :
    Asks (fun request => ∃ d ∈ known compiler definitions,
        x.Renders lead separator d request ∨ x.Inverts lead separator d request)
      (x.extractParams schedule compiler definitions lead separator) := by
  refine Asks.bind (asks_gather schedule fun d hd => ?_) fun ranges => .done _
  exact (asks_range? d).mono fun request tried => ⟨d, hd, tried⟩

theorem canAsk_of_inverts {compiler : Compiler} {definitions : List Definition} {d : Definition}
    {request : Request} (hd : d ∈ known compiler definitions) (h : x.Inverts lead separator d request) :
    (x.extractParams .listed compiler definitions lead separator).CanAsk request := by
  obtain ⟨inverse, inverted, rfl⟩ := h
  have checked := x.probe.gives_isValid (fun _ => .passing) (renderParam lead d.name separator d.default)
  rw [x.probe.usable_passing] at checked
  obtain ⟨range, searching, resolved, -⟩ :=
    x.probe.exists_gives_resolve (fun _ => .passing) lead separator d
  have given : (x.range? lead separator d).Gives (fun _ => .passing) (some range) _ :=
    checked.bind (resolved.map some)
  have made := (given.unique (x.gives_range? _ lead separator d)).2
  have tried : x.probe.request inverse ∈ x.probe.trialsOf (fun _ => .passing)
      (renderParam lead d.name separator d.default) :=
    x.probe.mem_trialsOf.mpr (.inr ⟨x.probe.takes_passing _, inverse, inverted, rfl⟩)
  refine ⟨Unit, .reliable fun _ => .passing, (), ?_⟩
  rw [x.gives_extractParams .listed compiler definitions]
  refine List.mem_flatMap.mpr ⟨d, hd, ?_⟩
  rw [← made]
  exact List.mem_append_left _ tried

theorem range?_eq_ask {d : Definition}
    (h : Category.of (renderParam lead d.name separator d.default) ≠ .optimizer) :
    x.range? lead separator d =
      .ask (x.probe.request (renderParam lead d.name separator d.default)) fun outcome =>
        if (Verdict.of outcome).isAccepted then some <$> x.probe.resolve lead separator d
        else .done none := by
  rw [range?, Probe.isValid, x.probe.check_of_invert?_none (invert?_eq_none_iff.mpr h)]
  rfl

theorem kept_iff (d : Definition) :
    (∀ {σ : Type} (executor : Executor σ) (state : σ),
      x.probe.NextTakes executor state (renderParam lead d.name separator d.default) →
        ((x.range? lead separator d).run executor state).result ≠ .ok none) ↔
      Category.of (renderParam lead d.name separator d.default) ≠ .optimizer := by
  constructor
  · intro kept optimizer
    obtain ⟨inverse, inverted⟩ := Option.ne_none_iff_exists'.mp
      fun none => invert?_eq_none_iff.mp none optimizer
    -- It takes the first trial, which is the default's, and refuses the second, which is the inverse's.
    let fickle : Executor Bool :=
      ⟨fun _ first => (.ok (if first then .passing else .ended 1 "" ""), false)⟩
    have taken : Verdict.of .passing = .accepted := by decide
    have refused : Verdict.of (.ended 1 "" "") = .rejected .compileError := by decide
    refine kept fickle true ⟨.passing, rfl, taken⟩ ?_
    simp [range?, Probe.isValid, Probe.check, Probe.trial_eq, inverted, map_eq_pure_bind, run, fickle,
      taken, refused, Verdict.isAccepted]
  · rintro plain σ executor state ⟨outcome, answered, taken⟩ dropped
    rw [range?_eq_ask plain, run] at dropped
    rcases executed : executor.execute
      (x.probe.request (renderParam lead d.name separator d.default)) state with ⟨answer, middle⟩
    rw [executed] at answered dropped
    simp only at answered
    subst answered
    simp only [taken, Verdict.isAccepted, if_true] at dropped
    obtain ⟨transcript, ended, -⟩ := exists_ends_of_run dropped
    obtain ⟨range, -, same⟩ := ended.of_map
    contradiction

/-- A survey tries listed definitions at their defaults and at values from their least ones up to the
ceiling, and besides at most the inverses of defaults. So it tries nothing but such values exactly if these
inverses are some, and it keeps a definition whose default is taken exactly if the default is not written
like an optimizer switch, which a lead of two characters decides. -/
theorem parameter_trials_iff (x : Extractor) (compiler : Compiler) (definitions : List Definition)
    (lead separator : String) :
    (∀ schedule request,
      (x.extractParams schedule compiler definitions lead separator).CanAsk request →
        ∃ d ∈ known compiler definitions,
          x.Renders lead separator d request ∨ x.Inverts lead separator d request) ∧
    ((∀ schedule request,
        (x.extractParams schedule compiler definitions lead separator).CanAsk request →
          ∃ d ∈ known compiler definitions, x.Renders lead separator d request) ↔
      ∀ d ∈ known compiler definitions, ∀ request, x.Inverts lead separator d request →
        ∃ e ∈ known compiler definitions, x.Renders lead separator e request) ∧
    (∀ d : Definition,
      (∀ {σ : Type} (executor : Executor σ) (state : σ),
        x.probe.NextTakes executor state (renderParam lead d.name separator d.default) →
          ((x.range? lead separator d).run executor state).result ≠ .ok none) ↔
        Category.of (renderParam lead d.name separator d.default) ≠ .optimizer) ∧
    (2 ≤ lead.length → ∀ d : Definition,
      Category.of (renderParam lead d.name separator d.default) = .optimizer ↔
        Category.of lead = .optimizer) := by
  have asked (schedule : Schedule Definition) :
      Asks _ (x.extractParams schedule compiler definitions lead separator) :=
    asks_extractParams schedule compiler definitions
  refine ⟨fun schedule request possible => (asked schedule).of_canAsk possible, ⟨?_, ?_⟩, kept_iff, ?_⟩
  · intro own d hd request inverts
    exact own .listed request (canAsk_of_inverts hd inverts)
  · intro own schedule request possible
    obtain ⟨d, hd, renders | inverts⟩ := (asked schedule).of_canAsk possible
    · exact ⟨d, hd, renders⟩
    · exact own d hd request inverts
  · exact fun long d => category_renderParam_iff long d.name separator d.default

/-- A lead that begins optimizer switches, and a compiler that takes no negative form: the inverse of the
default is tried, which is no value of the parameter, and the definition is lost though its default is
taken. -/
theorem inverse_of_default_loses_definition :
    let x : Extractor := .ofSize ⟨"cc", "hello.c", ⟨5000000000⟩⟩ 1
    let compiler : Compiler := ⟨"cc", none, "", "", "  max-foo   Foo.\n"⟩
    let d : Definition := ⟨"max-foo", "x", 5, 0, 10⟩
    let answer : Request → Outcome := fun request =>
      if request = x.probe.request "-fno-max-foo=5" then .ended 1 "" "" else .passing
    (x.extractParams .listed compiler [d] "-f" "=").Gives answer ⟨[], []⟩
        [x.probe.request "-fmax-foo=5", x.probe.request "-fno-max-foo=5"] ∧
      renderParam "-f" d.name "=" d.default = "-fmax-foo=5" ∧
      x.probe.takes answer "-fmax-foo=5" = true ∧
      ∀ e ∈ known compiler [d], ¬x.Renders "-f" "=" e (x.probe.request "-fno-max-foo=5") := by
  intro x compiler d answer
  have given : (x.extractParams .listed compiler [d] "-f" "=").Gives answer _ _ :=
    x.gives_extractParams .listed compiler [d]
  have outcome : ParamOutcome.ofRanges "-f" "=" ((known compiler [d]).filterMap
      (x.settled answer "-f" "=")) = ⟨[], []⟩ := by decide +kernel
  have asked : (known compiler [d]).flatMap (x.requestsForDefinition answer "-f" "=") =
      [x.probe.request "-fmax-foo=5", x.probe.request "-fno-max-foo=5"] := by decide +kernel
  refine ⟨outcome ▸ asked ▸ given, by decide +kernel, by decide +kernel, ?_⟩
  rintro e he ⟨value, -, same⟩
  have name : e = d := List.mem_singleton.mp (List.mem_filter.mp he).1
  subst name
  have word : Text.IsWord (renderParam "-f" d.name "=" value).toList :=
    isWord_renderParam (Text.isWord_iff.mpr (by decide)) value
  have texts := x.probe.request_injective (Text.isWord_iff.mpr (by decide)) word same
  have chars := congrArg String.toList texts
  simp [renderParam, d] at chars

end Extractor
end FlagSurvey
