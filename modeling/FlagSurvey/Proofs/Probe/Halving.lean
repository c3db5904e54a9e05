import Mathlib
import FlagSurvey.Probe.Range
import FlagSurvey.Proofs.Trial.Reliable
import FlagSurvey.Trial.Script

/-! The search in closed form. Against a compiler that judges a value by itself alone, the values tried
after the least one lie above it by the distance of the ceiling divided by powers of two, and the first of
them that is taken is the bound. The least value is one of them before the steps run out, unless its
distance from the ceiling is no signed integer of sixty-four bits. -/
namespace FlagSurvey

open Number

namespace Plan

variable {α β σ : Type} {executor : Executor σ}

def Yields (executor : Executor σ) (plan : Plan α) (value : α) (asked : List Request) : Prop :=
  ∀ state, ∃ last, plan.run executor state = ⟨.ok value, asked, last⟩

theorem yields_done (value : α) : Yields executor (.done value) value [] := fun state => ⟨state, rfl⟩

theorem Yields.bind {plan : Plan α} {next : α → Plan β} {value : α} {final : β}
    {asked further : List Request} (first : Yields executor plan value asked)
    (rest : Yields executor (next value) final further) :
    Yields executor (plan >>= next) final (asked ++ further) := by
  intro state
  obtain ⟨middle, ran⟩ := first state
  obtain ⟨last, later⟩ := rest middle
  refine ⟨last, ?_⟩
  rw [run_bind, ran]
  simp only [later]

end Plan

namespace Probe

open Plan

variable {σ : Type} {p : Probe} {executor : Executor σ} {render : Int → String} {min : Int}
  {judge : Int → Verdict}

variable (p executor render min judge) in
/-- Every trial of a value from the least one up to the ceiling comes out, and the value alone decides its
verdict, whatever state the executor is in. -/
def Judges : Prop :=
  ∀ value, min ≤ value → value ≤ ceiling → ∀ state, ∃ outcome,
    (executor.execute (p.request (render value)) state).1 = .ok outcome ∧ Verdict.of outcome = judge value

theorem Judges.yields_trial (h : p.Judges executor render min judge) {value : Int} (lower : min ≤ value)
    (upper : value ≤ ceiling) :
    Yields executor (p.trial (render value)) (judge value) [p.request (render value)] := by
  intro state
  obtain ⟨outcome, answered, judged⟩ := h value lower upper state
  rcases executed : executor.execute (p.request (render value)) state with ⟨answer, last⟩
  rw [executed] at answered
  simp only at answered
  refine ⟨last, ?_⟩
  rw [trial_eq, run, executed, answered]
  simp only [run, judged]

theorem judges_reliable (p : Probe) (answer : Request → Outcome) (render : Int → String) (min : Int) :
    p.Judges (.reliable answer) render min
      fun value => Verdict.of (answer (p.request (render value))) :=
  fun _ _ _ _ => ⟨_, rfl, rfl⟩

/-- The value that lies above the least one by the distance of the ceiling over a power of two. -/
def halved (min : Int) (k : Nat) : Int := min + (ceiling - min) / 2 ^ k

@[simp] theorem halved_zero (min : Int) : halved min 0 = ceiling := by simp [halved]

theorem min_le_halved (within : min ≤ ceiling) (k : Nat) : min ≤ halved min k := by
  have share : 0 ≤ (ceiling - min) / 2 ^ k := Int.ediv_nonneg (by omega) (by positivity)
  rw [halved]
  omega

theorem halved_le_ceiling (within : min ≤ ceiling) (k : Nat) : halved min k ≤ ceiling := by
  have share : (ceiling - min) / 2 ^ k ≤ ceiling - min := Int.ediv_le_self _ (by omega)
  rw [halved]
  omega

theorem halved_eq_min (within : min ≤ ceiling) {k : Nat} (h : (ceiling - min).toNat < 2 ^ k) :
    halved min k = min := by
  have share : (ceiling - min) / 2 ^ k = 0 := by
    refine Int.ediv_eq_zero_of_lt (by omega) ?_
    have powers : ((2 ^ k : Nat) : Int) = 2 ^ k := Nat.cast_pow 2 k
    omega
  rw [halved, share, Int.add_zero]

theorem halfway?_halved (within : min ≤ ceiling) (near : ceiling - min ≤ greatest) (k : Nat) :
    halfway? min (halved min k) = some (halved min (k + 1)) := by
  have lower := min_le_halved within k
  have upper := halved_le_ceiling within k
  have share : (ceiling - min) / 2 ^ (k + 1) = (ceiling - min) / 2 ^ k / 2 := by
    rw [pow_succ, Int.ediv_ediv_of_nonneg (by positivity)]
  refine (halfway?_eq_some_iff lower upper).mpr ⟨by omega, ?_⟩
  simp only [halved, share]
  omega

theorem halfway?_ceiling (far : greatest < ceiling - min) : halfway? min ceiling = none := by
  have outside : ¬Fits (ceiling - min) := fun fits => by
    have upper := fits.2
    omega
  simp only [halfway?, checked_eq_none_iff.mpr outside]

/-- The search goes through the values in order up to the first that is taken, if its steps last. -/
theorem Judges.yields_narrow (h : p.Judges executor render min judge) (within : min ≤ ceiling)
    (near : ceiling - min ≤ greatest) {k : Nat}
    (first : IsLeast {k | judge (halved min k) = .accepted} k) {left j steps : Nat} (gap : j + left = k)
    (enough : left < steps) :
    Yields executor (p.narrow render min steps (halved min j)) ⟨halved min k, true⟩
      ((List.range' j (left + 1)).map fun i => p.request (render (halved min i))) := by
  -- On the values left before the first that is taken; each of them costs one of the steps.
  induction left generalizing j steps with
  | zero =>
    obtain ⟨more, rfl⟩ := Nat.exists_eq_succ_of_ne_zero (Nat.ne_of_gt enough)
    obtain rfl : j = k := gap
    have tried := h.yields_trial (min_le_halved within j) (halved_le_ceiling within j)
    rw [first.1] at tried
    exact tried.bind (yields_done _)
  | succ left ih =>
    obtain ⟨more, rfl⟩ := Nat.exists_eq_succ_of_ne_zero (Nat.ne_of_gt (Nat.zero_lt_of_lt enough))
    have tried := h.yields_trial (min_le_halved within j) (halved_le_ceiling within j)
    have later : Yields executor (p.narrow render min more (halved min (j + 1))) _ _ :=
      ih (by omega) (by omega)
    cases verdict : judge (halved min j) with
    | accepted =>
      have earlier : k ≤ j := first.2 verdict
      omega
    | rejected reason =>
      rw [verdict] at tried
      rw [List.range'_succ, List.map_cons, narrow]
      refine tried.bind ?_
      simp only [halfway?_halved within near]
      exact later

theorem Judges.yields_narrow_far (h : p.Judges executor render min judge) (within : min ≤ ceiling)
    (far : greatest < ceiling - min) (steps : Nat) :
    Yields executor (p.narrow render min (steps + 1) ceiling)
      (if judge ceiling = .accepted then ⟨ceiling, true⟩ else ⟨min, false⟩)
      [p.request (render ceiling)] := by
  have tried := h.yields_trial within (Int.le_refl ceiling)
  cases verdict : judge ceiling with
  | accepted =>
    rw [verdict] at tried
    exact tried.bind (yields_done _)
  | rejected reason =>
    rw [verdict] at tried
    refine (tried.bind ?_ : Yields executor _ _ ([p.request (render ceiling)] ++ []))
    simp only [halfway?_ceiling far]
    exact yields_done _

theorem Judges.yields_findMax {lead name separator : String} {bound : UpperBound} {asked : List Request}
    (h : p.Judges executor (renderParam lead name separator) min judge) (within : min ≤ ceiling)
    (least : judge min = .accepted)
    (narrowed : Yields executor
      (p.narrow (renderParam lead name separator) min narrowingSteps ceiling) bound asked) :
    Yields executor (p.findMax lead name separator min) bound
      (p.request (renderParam lead name separator min) :: asked) := by
  have tried := h.yields_trial (Int.le_refl min) within
  rw [least] at tried
  rw [findMax, if_neg (Int.not_lt.mpr within)]
  exact tried.bind narrowed

theorem exists_isLeast_taken (within : min ≤ ceiling) (least : judge min = .accepted) :
    ∃ k, IsLeast {k | judge (halved min k) = .accepted} k ∧ k ≤ (ceiling - min).toNat.log2 + 1 ∧
      (min = ceiling → k = 0) := by
  have last : judge (halved min ((ceiling - min).toNat.log2 + 1)) = .accepted := by
    rw [halved_eq_min within Nat.lt_log2_self, least]
  have taken : ∃ k, judge (halved min k) = .accepted := ⟨_, last⟩
  refine ⟨Nat.find taken, ⟨Nat.find_spec taken, fun _ => Nat.find_min' taken⟩, Nat.find_min' taken last, ?_⟩
  rintro rfl
  exact (Nat.find_eq_zero taken).mpr (by rwa [halved_zero])

/-- The bound that the search finds against a compiler that judges a value by itself alone and takes the
least one, and the trials it takes to find it. -/
theorem findMax_closed_form (lead name separator : String) (within : min ≤ ceiling)
    (judges : p.Judges executor (renderParam lead name separator) min judge)
    (least : judge min = .accepted) (state : σ) :
    let run := (p.findMax lead name separator min).run executor state
    let tried value := p.request (renderParam lead name separator value)
    (ceiling - min ≤ greatest →
      ∃ k ≤ 63, IsLeast {k | judge (halved min k) = .accepted} k ∧
        run.result = .ok ⟨halved min k, true⟩ ∧
        run.requests = tried min :: (List.range (k + 1)).map (fun i => tried (halved min i)) ∧
        run.requests.length = k + 2 ∧
        (min < ceiling → run.requests.length ≤ (ceiling - min).toNat.log2 + 3) ∧
        (min = ceiling → run.requests.length = 2)) ∧
    (greatest < ceiling - min →
      run.result = .ok (if judge ceiling = .accepted then ⟨ceiling, true⟩ else ⟨min, false⟩) ∧
        run.requests = [tried min, tried ceiling]) := by
  intro run tried
  constructor
  · intro near
    obtain ⟨k, first, logarithmic, alone⟩ := exists_isLeast_taken within least
    have capped : k ≤ 63 := by
      have below : (ceiling - min).toNat < 2 ^ 63 := by
        rw [greatest] at near
        omega
      have taken : judge (halved min 63) = .accepted := by rw [halved_eq_min within below, least]
      exact first.2 taken
    have enough : k < narrowingSteps := by
      rw [narrowingSteps]
      omega
    have narrowed := judges.yields_narrow within near first (Nat.zero_add k) enough
    rw [halved_zero, ← List.range_eq_range'] at narrowed
    obtain ⟨last, ran⟩ := judges.yields_findMax within least narrowed state
    have requests : run.requests = _ := congrArg Run.requests ran
    have length : run.requests.length = k + 2 := by
      rw [requests, List.length_cons, List.length_map, List.length_range]
    refine ⟨k, capped, first, congrArg Run.result ran, requests, length, fun _ => by omega, fun same => ?_⟩
    rw [length, alone same]
  · intro far
    obtain ⟨last, ran⟩ :=
      judges.yields_findMax within least (judges.yields_narrow_far within far 63) state
    exact ⟨congrArg Run.result ran, congrArg Run.requests ran⟩

theorem bound_below_500 :
    let p : Probe := ⟨"cc", "hello.c", ⟨5000000000⟩⟩
    let answer (request : Request) : Outcome :=
      if (Script.valueOf (Script.lineOf (some "hello.c") request.command)).any (· ≤ 500) then .passing
      else .ended 1 "" "cc1: error: value out of range"
    let run := (p.findMax "--param " "max-foo" "=" 0).run (.reliable answer) ()
    run.result = .ok ⟨255, true⟩ ∧ run.requests.length = 25 := by
  intro p answer run
  let judge value := Verdict.of (answer (p.request (renderParam "--param " "max-foo" "=" value)))
  obtain ⟨k, -, bound, result, -, length, -⟩ :=
    (findMax_closed_form "--param " "max-foo" "=" (by decide)
      (p.judges_reliable answer _ 0) (by decide +kernel) ()).1 (by decide)
  have refused : ∀ j < 23, judge (halved 0 j) ≠ .accepted := by decide +kernel
  have taken : judge (halved 0 23) = .accepted := by decide +kernel
  obtain rfl : k = 23 :=
    Nat.le_antisymm (bound.2 taken) (Nat.le_of_not_lt fun earlier => refused k earlier bound.1)
  exact ⟨result, length⟩

end Probe
end FlagSurvey
