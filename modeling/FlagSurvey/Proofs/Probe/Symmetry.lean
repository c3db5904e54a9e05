import FlagSurvey.Proofs.Flag.Inverse
import FlagSurvey.Proofs.Probe.Usable
import FlagSurvey.Proofs.Probe.Word
import FlagSurvey.Proofs.Trial.Course

/-! Both forms of a switch. A check tries the flag, and the inverse of a switch that was taken, and says
what these trials say. The inverse of the inverse is the switch again unless its text goes on with two
`no-`, and so the checks of both forms are of the same two trials, or of different ones. -/
namespace FlagSurvey

/-- The two forms undo each other, unless a second `no-` stands behind the one that is dropped. -/
theorem invertBody_invertBody_iff {body : List Char} :
    invertBody (invertBody body) = body ↔ ¬"no-no-".toList <+: body := by
  by_cases negative : Negative body
  · obtain ⟨rest, rfl⟩ := negative
    have dropped : invertBody (['n', 'o', '-'] ++ rest) = rest := invertBody_negative rest
    have twice : "no-no-".toList <+: ['n', 'o', '-'] ++ rest ↔ Negative rest :=
      List.prefix_append_right_inj ['n', 'o', '-']
    rw [dropped, twice]
    by_cases again : Negative rest
    · obtain ⟨last, rfl⟩ := again
      have shorter : invertBody (['n', 'o', '-'] ++ last) = last := invertBody_negative last
      rw [shorter]
      refine iff_of_false (fun same => ?_) fun positive => positive ⟨last, rfl⟩
      have lengths := congrArg List.length same
      simp only [List.length_append, List.length_cons] at lengths
      omega
    · exact iff_of_true (invertBody_of_not_negative again) again
  · have gained := invertBody_of_not_negative negative
    refine iff_of_true ?_ fun twice => negative (List.IsPrefix.trans ⟨['n', 'o', '-'], rfl⟩ twice)
    rw [gained, invertBody_negative]

theorem invert?_invert?_iff {flag inverse : String} (h : invert? flag = some inverse) :
    invert? inverse = some flag ↔ ¬"no-no-".toList <+: flag.toList.drop 2 := by
  obtain ⟨body, shape, shape'⟩ := invert?_eq_some_iff.mp h
  have text : flag.toList.drop 2 = body := by rw [shape]; rfl
  rw [text, ← invertBody_invertBody_iff, invert?_eq_some_iff]
  constructor
  · rintro ⟨other, shape'', again⟩
    have same : invertBody body = other := by simpa [shape'] using shape''
    have back : body = invertBody other := by simpa [shape] using again
    rw [same, ← back]
  · intro back
    exact ⟨invertBody body, shape', by rw [back, shape]⟩

theorem exists_of_invert?_ne {flag inverse third : String} (h : invert? flag = some inverse)
    (again : invert? inverse = some third) (other : third ≠ flag) :
    ∃ rest, flag.toList = ['-', 'f'] ++ "no-no-".toList ++ rest ∧
      inverse.toList = ['-', 'f'] ++ "no-".toList ++ rest ∧ third.toList = ['-', 'f'] ++ rest := by
  have twice : "no-no-".toList <+: flag.toList.drop 2 := by
    by_contra once
    have back := (invert?_invert?_iff h).mpr once
    exact other (Option.some.inj (again.symm.trans back))
  obtain ⟨body, shape, shape'⟩ := invert?_eq_some_iff.mp h
  obtain ⟨middle, shape'', last⟩ := invert?_eq_some_iff.mp again
  rw [shape] at twice
  obtain ⟨rest, rfl⟩ : "no-no-".toList <+: body := twice
  have dropped : inverse.toList = '-' :: 'f' :: 'n' :: 'o' :: '-' :: rest := shape'
  obtain rfl : middle = 'n' :: 'o' :: '-' :: rest := by simpa [dropped] using shape''.symm
  exact ⟨rest, shape, shape', last⟩

theorem invert?_ne {flag inverse : String} (h : invert? flag = some inverse) : inverse ≠ flag := by
  obtain ⟨body, shape, shape'⟩ := invert?_eq_some_iff.mp h
  rintro rfl
  have same : body = invertBody body := by simpa [shape] using shape'
  exact invertBody_ne body same.symm

theorem exists_invert? {flag : String} (h : Category.of flag = .optimizer) :
    ∃ inverse, invert? flag = some inverse :=
  Option.ne_none_iff_exists'.mp fun none => invert?_eq_none_iff.mp none h

theorem category_of_invert? {flag inverse : String} (h : invert? flag = some inverse) :
    Category.of inverse = .optimizer := by
  obtain ⟨body, -, shape⟩ := invert?_eq_some_iff.mp h
  exact Category.ofChars_eq_optimizer_iff.mpr ⟨_, shape⟩

def Executor.Answers {σ : Type} (executor : Executor σ) (answer : Request → Outcome) : Prop :=
  ∀ request state, (executor.execute request state).1 = .ok (answer request)

namespace Executor

theorem answers_reliable (answer : Request → Outcome) : (reliable answer).Answers answer := fun _ _ => rfl

theorem Answers.of_mem_exchange {σ : Type} {executor : Executor σ} {answer : Request → Outcome}
    (h : executor.Answers answer) {requests : List Request} {state : σ}
    {trial : Request × Except Failure Outcome} (mem : trial ∈ executor.exchange requests state) :
    trial.2 = .ok (answer trial.1) := by
  obtain ⟨reached, same⟩ := exists_state_of_mem_exchange mem
  exact same.symm.trans (h trial.1 reached)

end Executor

namespace Probe

def Takes (answer : Except Failure Outcome) : Prop :=
  ∃ outcome, answer = .ok outcome ∧ Verdict.of outcome = .accepted

def RefusesFor (answer : Except Failure Outcome) (reason : Rejection) : Prop :=
  ∃ outcome, answer = .ok outcome ∧ Verdict.of outcome = .rejected reason

@[simp] theorem takes_ok {outcome : Outcome} : Takes (.ok outcome) ↔ Verdict.of outcome = .accepted := by
  simp [Takes]

@[simp] theorem not_takes_error {cause : Failure} : ¬Takes (.error cause) := by
  simp [Takes]

@[simp] theorem refusesFor_ok {outcome : Outcome} {reason : Rejection} :
    RefusesFor (.ok outcome) reason ↔ Verdict.of outcome = .rejected reason := by
  simp [RefusesFor]

@[simp] theorem not_refusesFor_error {cause : Failure} {reason : Rejection} :
    ¬RefusesFor (.error cause) reason := by
  simp [RefusesFor]

inductive Checked (p : Probe) (flag : String) :
    List (Request × Except Failure Outcome) → Except Failure Verdict → Prop where
  | broken {cause : Failure} : Checked p flag [(p.request flag, .error cause)] (.error cause)
  | refused {outcome : Outcome} {reason : Rejection} (told : Verdict.of outcome = .rejected reason) :
    Checked p flag [(p.request flag, .ok outcome)] (.ok (.rejected reason))
  | single {outcome : Outcome} (told : Verdict.of outcome = .accepted) (none : invert? flag = none) :
    Checked p flag [(p.request flag, .ok outcome)] (.ok .accepted)
  | inverseBroken {outcome : Outcome} {inverse : String} {cause : Failure}
    (told : Verdict.of outcome = .accepted) (inverted : invert? flag = some inverse) :
    Checked p flag [(p.request flag, .ok outcome), (p.request inverse, .error cause)] (.error cause)
  | inverseRefused {outcome second : Outcome} {inverse : String} {reason : Rejection}
    (told : Verdict.of outcome = .accepted) (inverted : invert? flag = some inverse)
    (refused : Verdict.of second = .rejected reason) :
    Checked p flag [(p.request flag, .ok outcome), (p.request inverse, .ok second)]
      (.ok (.rejected .asymmetricInverse))
  | both {outcome second : Outcome} {inverse : String} (told : Verdict.of outcome = .accepted)
    (inverted : invert? flag = some inverse) (taken : Verdict.of second = .accepted) :
    Checked p flag [(p.request flag, .ok outcome), (p.request inverse, .ok second)] (.ok .accepted)

variable {p : Probe} {flag : String}

theorem checked_of_course {course : List (Request × Except Failure Outcome)}
    {ended : Except Failure Verdict} (h : (p.check flag).Course course ended) :
    p.Checked flag course ended := by
  rw [check, trial_eq, Plan.ask_bind] at h
  rcases h.of_ask with ⟨cause, rfl, rfl⟩ | ⟨outcome, rest, rfl, later⟩
  · exact .broken
  simp only [Plan.done_bind] at later
  cases told : Verdict.of outcome with
  | rejected reason =>
    rw [told] at later
    obtain ⟨rfl, rfl⟩ := later.of_done
    exact .refused told
  | accepted =>
    rw [told] at later
    cases inverted : invert? flag with
    | none =>
      simp only [inverted] at later
      obtain ⟨rfl, rfl⟩ := later.of_done
      exact .single told inverted
    | some inverse =>
      simp only [inverted] at later
      rw [trial_eq, Plan.ask_bind] at later
      rcases later.of_ask with ⟨cause, rfl, rfl⟩ | ⟨second, rest, rfl, last⟩
      · exact .inverseBroken told inverted
      cases taken : Verdict.of second with
      | rejected reason =>
        rw [taken] at last
        obtain ⟨rfl, rfl⟩ := last.of_done
        exact .inverseRefused told inverted taken
      | accepted =>
        rw [taken] at last
        obtain ⟨rfl, rfl⟩ := last.of_done
        exact .both told inverted taken

theorem checked_run {σ : Type} (p : Probe) (executor : Executor σ) (state : σ) (flag : String) :
    let run := (p.check flag).run executor state
    p.Checked flag (executor.exchange run.requests state) run.result :=
  checked_of_course (Plan.course_run _ executor state)

namespace Checked

variable {direct : Except Failure Outcome} {later course : List (Request × Except Failure Outcome)}
  {ended : Except Failure Verdict}

theorem exists_direct (h : p.Checked flag course ended) :
    ∃ direct later, course = (p.request flag, direct) :: later := by
  cases h <;> exact ⟨_, _, rfl⟩

theorem later_cases (h : p.Checked flag ((p.request flag, direct) :: later) ended) :
    later = [] ∨ ∃ inverse second, invert? flag = some inverse ∧ later = [(p.request inverse, second)] := by
  cases h with
  | broken | refused | single => exact .inl rfl
  | inverseBroken told inverted | inverseRefused told inverted | both told inverted =>
    exact .inr ⟨_, _, inverted, rfl⟩

theorem later_ne_nil_iff (h : p.Checked flag ((p.request flag, direct) :: later) ended) :
    later ≠ [] ↔ Takes direct ∧ Category.of flag = .optimizer := by
  cases h with
  | broken => simp
  | refused told => simp [told]
  | single told none => simpa [told] using invert?_eq_none_iff.mp none
  | inverseBroken told inverted | inverseRefused told inverted | both told inverted =>
    have optimizer : Category.of flag = .optimizer := by
      refine not_ne_iff.mp fun other => ?_
      rw [invert?_eq_none_iff.mpr other] at inverted
      contradiction
    simp [told, optimizer]

theorem accepted_iff (h : p.Checked flag ((p.request flag, direct) :: later) ended) :
    ended = .ok .accepted ↔ Takes direct ∧ ∀ trial ∈ later, Takes trial.2 := by
  cases h with
  | broken => simp
  | refused told => simp [told]
  | single told => simp [told]
  | inverseBroken told => simp [told]
  | inverseRefused told inverted refused => simp [told, refused]
  | both told inverted taken => simp [told, taken]

theorem of_refusesFor (h : p.Checked flag ((p.request flag, direct) :: later) ended) {reason : Rejection}
    (refuses : RefusesFor direct reason) : ended = .ok (.rejected reason) := by
  obtain ⟨outcome, rfl, told⟩ := refuses
  cases h with
  | refused other => exact congrArg Except.ok (other.symm.trans told)
  | single taken | inverseBroken taken | inverseRefused taken | both taken =>
    exact absurd (taken.symm.trans told) nofun

theorem of_later_refusesFor (h : p.Checked flag ((p.request flag, direct) :: later) ended)
    {trial : Request × Except Failure Outcome} (mem : trial ∈ later) {reason : Rejection}
    (refuses : RefusesFor trial.2 reason) : ended = .ok (.rejected .asymmetricInverse) := by
  cases h with
  | broken | refused | single => contradiction
  | inverseBroken =>
    obtain rfl := List.mem_singleton.mp mem
    exact absurd refuses not_refusesFor_error
  | inverseRefused => rfl
  | both told inverted taken =>
    obtain rfl := List.mem_singleton.mp mem
    exact absurd (taken.symm.trans (refusesFor_ok.mp refuses)) nofun

theorem of_error (h : p.Checked flag ((p.request flag, direct) :: later) ended) {cause : Failure}
    (broken : direct = .error cause ∨ ∃ trial ∈ later, trial.2 = .error cause) : ended = .error cause := by
  cases h with
  | broken | inverseBroken => simpa using broken
  | refused | single | inverseRefused | both => simp at broken

theorem accepted_iff_usable {answer : Request → Outcome} (h : p.Checked flag course ended)
    (told : ∀ trial ∈ course, trial.2 = .ok (answer trial.1)) :
    ended = .ok .accepted ↔ p.usable answer flag = true := by
  rw [usable, takes]
  cases h with
  | broken => simp at told
  | refused refused =>
    simp only [List.mem_singleton, forall_eq, Except.ok.injEq] at told
    simp [← told, refused, Verdict.isAccepted]
  | single taken none =>
    simp only [List.mem_singleton, forall_eq, Except.ok.injEq] at told
    simp [← told, taken, none, Verdict.isAccepted]
  | inverseBroken => simp at told
  | inverseRefused taken inverted refused =>
    obtain ⟨first, second⟩ : _ = answer _ ∧ _ = answer _ := by simpa using told
    simp [takes, ← first, ← second, taken, refused, inverted, Verdict.isAccepted]
  | both taken inverted both =>
    obtain ⟨first, second⟩ : _ = answer _ ∧ _ = answer _ := by simpa using told
    simp [takes, ← first, ← second, taken, both, inverted, Verdict.isAccepted]

end Checked

def RunAccepts {σ : Type} (p : Probe) (executor : Executor σ) (state : σ) (flag : String) : Prop :=
  ((p.check flag).run executor state).result = .ok .accepted

def Together (p : Probe) (flag other : String) : Prop :=
  ∀ (σ : Type) (executor : Executor σ) (answer : Request → Outcome), executor.Answers answer →
    ∀ first second, p.RunAccepts executor first flag ↔ p.RunAccepts executor second other

theorem runAccepts_iff {σ : Type} {executor : Executor σ} {answer : Request → Outcome}
    (h : executor.Answers answer) (state : σ) :
    p.RunAccepts executor state flag ↔ p.usable answer flag = true :=
  (checked_run p executor state flag).accepted_iff_usable fun _ mem => h.of_mem_exchange mem

theorem together_iff {other : String} :
    p.Together flag other ↔ ∀ answer, p.usable answer flag = p.usable answer other := by
  constructor
  · intro together answer
    have reliable := Executor.answers_reliable answer
    have both := together Unit _ answer reliable () ()
    rw [runAccepts_iff reliable, runAccepts_iff reliable] at both
    exact Bool.eq_iff_iff.mpr both
  · intro same σ executor answer answers first second
    rw [runAccepts_iff answers, runAccepts_iff answers, same]

def refusing (refused request : Request) : Outcome :=
  if request = refused then .ended 1 "" "" else .passing

theorem takes_refusing {refused : Request} :
    p.takes (refusing refused) flag = true ↔ p.request flag ≠ refused := by
  rw [takes, refusing]
  split
  · next same => exact iff_of_false (by decide) (absurd same)
  · next differ => exact iff_of_true (by decide) differ

theorem request_ne_of_shape {other : String} {start lead rest : List Char}
    (shape : flag.toList = start ++ lead ++ rest) (shape' : other.toList = start ++ rest)
    (nonempty : lead ≠ []) (plain : lead.all (!Text.isBlank ·) = true) :
    p.request flag ≠ p.request other := by
  intro same
  have letters := congrArg List.length (filter_eq_of_request_eq same)
  have kept : lead.filter (!Text.isBlank ·) = lead := List.filter_eq_self.mpr (List.all_eq_true.mp plain)
  rw [shape, shape'] at letters
  simp only [List.filter_append, List.length_append, kept] at letters
  have positive := List.length_pos_iff.mpr nonempty
  omega

/-- Both forms are accepted together exactly if they undo each other. Where they do not, the check of the
inverse makes a trial that the check of the flag does not make. -/
theorem together_inverse_iff {inverse : String} (h : invert? flag = some inverse) :
    p.Together flag inverse ↔ invert? inverse = some flag := by
  rw [together_iff]
  constructor
  · intro same
    obtain ⟨third, again⟩ := exists_invert? (category_of_invert? h)
    by_contra other
    obtain ⟨rest, shape, shape', shape''⟩ :=
      exists_of_invert?_ne h again fun back => other (back ▸ again)
    have first : p.takes (refusing (p.request third)) flag = true :=
      takes_refusing.mpr (request_ne_of_shape shape shape'' (by simp) (by decide))
    have second : p.takes (refusing (p.request third)) inverse = true :=
      takes_refusing.mpr (request_ne_of_shape shape' shape'' (by simp) (by decide))
    have refused : p.takes (refusing (p.request third)) third = false :=
      Bool.eq_false_iff.mpr fun taken => takes_refusing.mp taken rfl
    have usable := same (refusing (p.request third))
    simp [Probe.usable, h, again, first, second, refused] at usable
  · intro back answer
    rw [usable, usable, h, back, Option.all_some, Option.all_some, Bool.and_comm]

/-- What the check of a flag tries and says, and what it says of the other form of a switch. -/
theorem check_both_forms (p : Probe) :
    (∀ flag, Category.of flag = .optimizer → ∃ inverse,
      invert? flag = some inverse ∧ Category.of inverse = .optimizer ∧ inverse ≠ flag ∧
      (invert? inverse = some flag ↔ ¬"no-no-".toList <+: flag.toList.drop 2) ∧
      (p.Together flag inverse ↔ invert? inverse = some flag)) ∧
    ∀ (σ : Type) (executor : Executor σ) (state : σ) (flag : String),
      let run := (p.check flag).run executor state
      ∃ direct later, executor.exchange run.requests state = (p.request flag, direct) :: later ∧
        (later = [] ∨ ∃ inverse second, invert? flag = some inverse ∧
          later = [(p.request inverse, second)]) ∧
        (later ≠ [] ↔ Takes direct ∧ Category.of flag = .optimizer) ∧
        (run.result = .ok .accepted ↔ Takes direct ∧ ∀ trial ∈ later, Takes trial.2) ∧
        (∀ reason, RefusesFor direct reason → run.result = .ok (.rejected reason)) ∧
        (∀ trial ∈ later, ∀ reason, RefusesFor trial.2 reason →
          run.result = .ok (.rejected .asymmetricInverse)) ∧
        ∀ cause, (direct = .error cause ∨ ∃ trial ∈ later, trial.2 = .error cause) →
          run.result = .error cause := by
  constructor
  · intro flag optimizer
    obtain ⟨inverse, inverted⟩ := exists_invert? optimizer
    exact ⟨inverse, inverted, category_of_invert? inverted, invert?_ne inverted,
      invert?_invert?_iff inverted, together_inverse_iff inverted⟩
  · intro σ executor state flag run
    have checked : p.Checked flag (executor.exchange run.requests state) run.result :=
      checked_run p executor state flag
    obtain ⟨direct, later, course⟩ := checked.exists_direct
    rw [course] at checked
    exact ⟨direct, later, course, checked.later_cases, checked.later_ne_nil_iff, checked.accepted_iff,
      fun _ => checked.of_refusesFor, fun _ mem _ => checked.of_later_refusesFor mem,
      fun _ => checked.of_error⟩

theorem forms_of_strict_together :
    let p : Probe := ⟨"cc", "hello.c", ⟨5000000000⟩⟩
    Category.of "-fstrict" = .optimizer ∧ Category.of "-fno-no-strict" = .optimizer ∧
      p.Together "-fstrict" "-fno-strict" ∧ ¬p.Together "-fno-no-strict" "-fno-strict" := by
  intro p
  have once : Category.of "-fstrict" = .optimizer := by decide
  have twice : Category.of "-fno-no-strict" = .optimizer := by decide
  refine ⟨once, twice, ?_, ?_⟩
  · obtain ⟨inverse, inverted, -, -, back, together⟩ := (check_both_forms p).1 "-fstrict" once
    obtain rfl : "-fno-strict" = inverse := Option.some.inj (Eq.trans (by decide) inverted)
    exact together.mpr (back.mpr (by decide))
  · obtain ⟨inverse, inverted, -, -, back, together⟩ := (check_both_forms p).1 "-fno-no-strict" twice
    obtain rfl : "-fno-strict" = inverse := Option.some.inj (Eq.trans (by decide) inverted)
    exact fun both => back.mp (together.mp both) (by decide)

end Probe
end FlagSurvey
