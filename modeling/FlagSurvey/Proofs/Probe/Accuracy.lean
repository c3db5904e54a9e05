import FlagSurvey.Proofs.Number.Digits
import FlagSurvey.Proofs.Probe.Descent
import FlagSurvey.Proofs.Probe.Word
import FlagSurvey.Proofs.Trial.Reliable
import FlagSurvey.Trial.Script

/-! Accuracy of the search. Against a compiler that takes the values up to a threshold and refuses those
above it, the bound found is the threshold or lies below it by at most the distance from the least value
to the bound: a refused value is above the threshold, and the step down from it halves the distance. So a
parameter with a second usable value always has a range to show for it. -/
namespace FlagSurvey

open Number Plan

namespace Probe

variable {σ : Type} {p : Probe} {executor : Executor σ} {render : Int → String} {min threshold : Int}

variable (p executor render min threshold) in
/-- Every trial of a value from the least one up to the ceiling comes out, and the value is taken exactly
if it is at most the threshold. What it is refused for may be anything. -/
def TakesUpTo : Prop :=
  ∀ value, min ≤ value → value ≤ ceiling → ∀ state, ∃ outcome,
    (executor.execute (p.request (render value)) state).1 = .ok outcome ∧
      (Verdict.of outcome = .accepted ↔ value ≤ threshold)

variable (threshold) in
def Attempt.Keeps (a : Attempt) : Prop :=
  ∃ verdict, a.verdict = .ok verdict ∧ (verdict = .accepted ↔ a.value ≤ threshold)

theorem TakesUpTo.keeps {requests : List Request} {state : σ} {attempts : List Attempt}
    (h : p.TakesUpTo executor render min threshold)
    (shown : p.Shows render (executor.exchange requests state) attempts)
    (bounded : ∀ a ∈ attempts, min ≤ a.value ∧ a.value ≤ ceiling) :
    ∀ a ∈ attempts, a.Keeps threshold := by
  intro a mem
  have pair := List.mem_map_of_mem (f := fun a : Attempt => (p.request (render a.value), a.verdict)) mem
  rw [← shown] at pair
  obtain ⟨⟨request, answer⟩, told, same⟩ := List.mem_map.mp pair
  obtain ⟨rfl, judged⟩ := Prod.mk.inj same
  obtain ⟨reached, executed⟩ := Executor.exists_state_of_mem_exchange told
  obtain ⟨lower, upper⟩ := bounded a mem
  obtain ⟨outcome, answered, taken⟩ := h a.value lower upper reached
  refine ⟨Verdict.of outcome, ?_, taken⟩
  rw [← judged, ← executed, answered]
  rfl

theorem Attempt.Keeps.le {value : Int} (h : Keeps threshold ⟨value, .ok .accepted⟩) :
    value ≤ threshold := by
  obtain ⟨verdict, same, taken⟩ := h
  exact taken.mp (Except.ok.inj same).symm

theorem Attempt.Keeps.lt {value : Int} {reason : Rejection}
    (h : Keeps threshold ⟨value, .ok (.rejected reason)⟩) : threshold < value := by
  obtain ⟨verdict, same, taken⟩ := h
  refine Int.not_le.mp fun le => ?_
  have accepted := (Except.ok.inj same).trans (taken.mpr le)
  contradiction

theorem Attempt.not_keeps_error {value : Int} {cause : Failure} :
    ¬Keeps threshold ⟨value, .error cause⟩ := by
  rintro ⟨verdict, same, -⟩
  contradiction

/-- From a value whose distance covers half of the threshold's, the descent ends at such a value. -/
theorem Descends.covers {steps : Nat} {value : Int} {attempts : List Attempt}
    {ended : Except Failure UpperBound} (h : Descends min steps value attempts ended)
    (keeps : ∀ a ∈ attempts, a.Keeps threshold) (lower : min ≤ value) (upper : value ≤ ceiling)
    (near : value - min ≤ greatest) (least : min ≤ threshold)
    (half : threshold - min ≤ 2 * (value - min)) (pos : 0 < steps)
    (enough : 2 * (value - min) < 2 ^ steps) :
    ∃ m, ended = .ok ⟨m, true⟩ ∧ min ≤ m ∧ m ≤ threshold ∧ threshold - min ≤ 2 * (m - min) := by
  -- Each step halves the distance, so a value that is refused leaves a step for the next one.
  induction h with
  | exhausted => exact absurd pos (Nat.lt_irrefl 0)
  | failed value cause => exact absurd (keeps _ List.mem_cons_self) Attempt.not_keeps_error
  | taken value => exact ⟨value, rfl, lower, (keeps _ List.mem_cons_self).le, half⟩
  | @stuck _ value reason stop =>
    have goes := (halfway?_eq_some_iff lower upper).mpr ⟨near, rfl⟩
    rw [stop] at goes
    contradiction
  | @down steps value next rest ended reason halved later ih =>
    obtain ⟨-, rfl⟩ := (halfway?_eq_some_iff lower upper).mp halved
    have above : threshold < value := (keeps _ List.mem_cons_self).lt
    have power : (2 : Int) ^ (steps + 1) = 2 * 2 ^ steps := pow_succ' 2 steps
    rw [power] at enough
    have later_steps : 0 < steps := by
      rcases Nat.eq_zero_or_pos steps with rfl | pos
      · omega
      · exact pos
    exact ih (fun a mem => keeps a (List.mem_cons_of_mem _ mem)) (by omega) (by omega) (by omega)
      (by omega) later_steps (by omega)

theorem Descends.eq_ceiling {steps : Nat} {attempts : List Attempt} {ended : Except Failure UpperBound}
    (h : Descends min (steps + 1) ceiling attempts ended) (keeps : ∀ a ∈ attempts, a.Keeps threshold)
    (above : ceiling ≤ threshold) : ended = .ok ⟨ceiling, true⟩ := by
  cases h with
  | failed => exact absurd (keeps _ List.mem_cons_self) Attempt.not_keeps_error
  | taken => rfl
  | stuck | down =>
    have refused := (keeps _ List.mem_cons_self).lt
    omega

theorem Searches.covers {attempts : List Attempt} {ended : Except Failure UpperBound}
    (h : Searches min attempts ended) (keeps : ∀ a ∈ attempts, a.Keeps threshold)
    (within : min ≤ ceiling) (near : ceiling - min ≤ greatest) (least : min ≤ threshold) :
    ∃ m, ended = .ok ⟨m, true⟩ ∧ (ceiling ≤ threshold → m = ceiling) ∧
      (threshold < ceiling → min ≤ m ∧ m ≤ threshold ∧ threshold - min ≤ 2 * (m - min)) := by
  cases h with
  | above far => omega
  | failed => exact absurd (keeps _ List.mem_cons_self) Attempt.not_keeps_error
  | refused =>
    have refused := (keeps _ List.mem_cons_self).lt
    omega
  | taken _ later =>
    have keeps := fun a mem => keeps a (List.mem_cons_of_mem _ mem)
    by_cases above : ceiling ≤ threshold
    · exact ⟨ceiling, later.eq_ceiling keeps above, fun _ => rfl, fun below => by omega⟩
    · have enough : 2 * (ceiling - min) < 2 ^ narrowingSteps := by
        rw [narrowingSteps]
        rw [greatest] at near
        omega
      obtain ⟨m, rfl, covered⟩ := later.covers keeps within (Int.le_refl ceiling) near least (by omega)
        (by decide) enough
      exact ⟨m, rfl, fun reached => absurd reached above, fun _ => covered⟩

theorem result_resolve {lead separator : String} {d : Definition} {m : Int} {state : σ}
    (placeholder : d.max ≤ d.min)
    (h : ((p.findMax lead d.name separator d.min).run executor state).result = .ok ⟨m, true⟩) :
    ((p.resolve lead separator d).run executor state).result = .ok ⟨d.name, d.min, m, true⟩ := by
  rw [resolve, if_pos (show d.needsSearch = true from decide_eq_true placeholder), run_bind]
  rcases ran : (p.findMax lead d.name separator d.min).run executor state with ⟨result, requests, last⟩
  rw [ran] at h
  obtain rfl : result = .ok ⟨m, true⟩ := h
  rfl

/-- The bound found below a threshold, and the range that a definition has for it. -/
theorem findMax_covers_half (lead name separator : String) (below : min < ceiling)
    (near : ceiling - min ≤ greatest) (least : min ≤ threshold)
    (takes : p.TakesUpTo executor (renderParam lead name separator) min threshold) (state : σ) :
    ∃ m, ((p.findMax lead name separator min).run executor state).result = .ok ⟨m, true⟩ ∧
      (ceiling ≤ threshold → m = ceiling) ∧
      (threshold < ceiling → min ≤ m ∧ m ≤ threshold ∧ threshold - min ≤ 2 * (m - min)) ∧
      ∀ d : Definition, d.name = name → d.min = min → d.max ≤ d.min →
        ∃ range, ((p.resolve lead separator d).run executor state).result = .ok range ∧
          Tunable.ofRange? range lead separator =
            if min < threshold then some (.range name lead separator min m) else none := by
  obtain ⟨attempts, shown, searches⟩ :=
    exists_searches_run (p := p) executor lead name separator min state
  have keeps := takes.keeps shown searches.bounded
  obtain ⟨m, found, top, half⟩ := searches.covers keeps (Int.le_of_lt below) near least
  refine ⟨m, found, top, half, ?_⟩
  rintro d rfl rfl placeholder
  refine ⟨_, result_resolve placeholder found, ?_⟩
  have several : d.min < m ↔ d.min < threshold := by
    by_cases above : ceiling ≤ threshold
    · have reached := top above
      omega
    · have covered := half (Int.not_le.mp above)
      omega
  simp only [Tunable.ofRange?, several]

theorem valueOf_lineOf_request {lead name : String} (word : Text.IsWord (lead ++ name ++ "=").toList)
    {value : Int} (fits : Fits value) :
    Script.valueOf (Script.lineOf (some p.testProgram)
      (p.request (renderParam lead name "=" value)).command) = some value := by
  have line : Script.lineOf (some p.testProgram) (p.request (renderParam lead name "=" value)).command =
      renderParam lead name "=" value := by
    simp only [request, Command.compile, Text.wordsOf_of_isWord (isWord_renderParam word value),
      Script.lineOf]
    simp [String.intercalate_singleton]
  have digits : ∀ c ∈ decimalInt value, (c != '=') = true := by
    intro c mem
    rcases eq_minus_or_isDigit_of_mem_decimalInt mem with rfl | digit
    · rfl
    · exact bne_iff_ne.mpr (ne_of_isDigit digit (by decide))
  have reversed : (renderParam lead name "=" value).toList.reverse =
      (decimalInt value).reverse ++ '=' :: (lead ++ name).toList.reverse := by
    simp [renderParam, decimalText]
  rw [line, Script.valueOf, reversed, List.takeWhile_append_of_pos (by simpa using digits)]
  simp only [List.takeWhile_cons, bne_self_eq_false, Bool.false_eq_true, if_false, List.append_nil,
    List.reverse_reverse]
  exact readSigned?_decimalText fits

theorem half_of_500_covered :
    let p : Probe := ⟨"cc", "hello.c", ⟨5000000000⟩⟩
    let answer (request : Request) : Outcome :=
      if (Script.valueOf (Script.lineOf (some "hello.c") request.command)).any (· ≤ 500) then .passing
      else .ended 1 "" "cc1: error: value out of range"
    p.TakesUpTo (.reliable answer) (renderParam "--param=" "max-foo" "=") 0 500 ∧
      ∃ m, ((p.findMax "--param=" "max-foo" "=" 0).run (.reliable answer) ()).result = .ok ⟨m, true⟩ ∧
        250 ≤ m ∧ m ≤ 500 ∧
        ∃ range, ((p.resolve "--param=" "=" ⟨"max-foo", "", 0, 0, 0⟩).run (.reliable answer) ()).result =
            .ok range ∧
          Tunable.ofRange? range "--param=" "=" = some (.range "max-foo" "--param=" "=" 0 m) := by
  intro p answer
  have takes : p.TakesUpTo (.reliable answer) (renderParam "--param=" "max-foo" "=") 0 500 := by
    intro value lower upper state
    have top : ceiling ≤ greatest := by decide
    have fits : Fits value := by
      rw [Fits, least]
      omega
    have read : Script.valueOf (Script.lineOf (some "hello.c")
        (p.request (renderParam "--param=" "max-foo" "=" value)).command) = some value :=
      p.valueOf_lineOf_request (Text.isWord_iff.mpr (by decide)) fits
    refine ⟨_, rfl, ?_⟩
    simp only [answer, read, Option.any_some, decide_eq_true_eq]
    split
    · next small => exact iff_of_true (by decide) small
    · next large => exact iff_of_false (by decide) large
  obtain ⟨m, found, -, half, ranges⟩ :=
    findMax_covers_half "--param=" "max-foo" "=" (by decide) (by decide) (by decide) takes ()
  have covered := half (by decide)
  exact ⟨takes, m, found, by omega, covered.2.1, ranges ⟨"max-foo", "", 0, 0, 0⟩ rfl rfl (by decide)⟩

end Probe
end FlagSurvey
