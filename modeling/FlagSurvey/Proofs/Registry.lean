import FlagSurvey.Registry

/-! Groups in a registry along a session. A step puts a group in, takes it out or leaves it, so a group is
live exactly if it was put in and each step that took it out is followed by one that put it back. A
registration counts no others: letting one go takes its group out even while another holds it. -/
namespace FlagSurvey.Registry

def Step.Puts (pid : Nat) : Step → Prop
  | .register other => other = pid
  | .track other => other = pid
  | _ => False

theorem Step.puts_iff {pid : Nat} {step : Step} :
    step.Puts pid ↔ step = .register pid ∨ step = .track pid := by
  cases step <;> simp [Puts]

namespace Session

def after (s : Session) (steps : List Step) : Session := (s.takeAll steps).2

def Holds (s : Session) (registration pid : Nat) : Prop :=
  s.registrations[registration]? = some (some pid)

instance (s : Session) (registration pid : Nat) : Decidable (s.Holds registration pid) :=
  inferInstanceAs (Decidable (_ = _))

def Removes (s : Session) (pid : Nat) : Step → Prop
  | .unregister other => other = pid
  | .letGo registration => s.Holds registration pid
  | .killAll => True
  | _ => False

/-- Each of the steps that takes the group out is followed by one that puts it in. -/
def Restores (s : Session) (pid : Nat) (steps : List Step) : Prop :=
  ∀ before step later, steps = before ++ step :: later → (s.after before).Removes pid step →
    ∃ put ∈ later, put.Puts pid

theorem after_cons (s : Session) (step : Step) (rest : List Step) :
    s.after (step :: rest) = (s.take step).2.after rest := rfl

theorem after_append (s : Session) (first second : List Step) :
    s.after (first ++ second) = (s.after first).after second := by
  induction first generalizing s with
  | nil => rfl
  | cons step rest ih => exact ih _

theorem restores_cons {s : Session} {pid : Nat} {first : Step} {rest : List Step} :
    s.Restores pid (first :: rest) ↔
      (s.Removes pid first → ∃ put ∈ rest, put.Puts pid) ∧ (s.take first).2.Restores pid rest := by
  constructor
  · intro all
    exact ⟨all [] first rest rfl, fun before step later shape =>
      all (first :: before) step later (congrArg (List.cons first) shape)⟩
  · rintro ⟨now, others⟩ before step later shape removes
    cases before with
    | nil =>
      obtain ⟨rfl, rfl⟩ := List.cons.inj shape
      exact now removes
    | cons head more =>
      obtain ⟨rfl, tail⟩ := List.cons.inj shape
      exact others more step later tail removes

theorem not_removes_of_puts {s : Session} {pid : Nat} {step : Step} (h : step.Puts pid) :
    ¬s.Removes pid step := by
  cases step <;> first | contradiction | exact id

theorem mem_take_iff {s : Session} {pid : Nat} {step : Step} :
    pid ∈ (s.take step).2.registry.live ↔
      step.Puts pid ∨ pid ∈ s.registry.live ∧ ¬s.Removes pid step := by
  cases step with
  | register other => simp [take, mem_register, Step.Puts, Removes, eq_comm]
  | unregister other => simp [take, mem_unregister, Step.Puts, Removes, and_comm, eq_comm]
  | contains other => simp [take, Step.Puts, Removes]
  | track other => simp [take, mem_register, Step.Puts, Removes, eq_comm]
  | letGo registration =>
    simp only [take, Step.Puts, Removes, Holds, false_or]
    split
    · next other held => simp [mem_unregister, held, and_comm, eq_comm]
    · next free =>
      have free : s.registrations[registration]? ≠ some (some pid) := free pid
      simp [free]
  | killAll => simp [take, killAll, Step.Puts, Removes]

/-- A group is live after some steps exactly if it was live or was put in, and each step that takes it out is
followed by one that puts it in. -/
theorem mem_after_iff {s : Session} {pid : Nat} {steps : List Step} :
    pid ∈ (s.after steps).registry.live ↔
      (pid ∈ s.registry.live ∨ ∃ put ∈ steps, put.Puts pid) ∧ s.Restores pid steps := by
  induction steps generalizing s with
  | nil =>
    have live : pid ∈ (s.after []).registry.live ↔ pid ∈ s.registry.live := Iff.rfl
    have none : s.Restores pid [] := fun before step later shape => by simp at shape
    simp [live, none]
  | cons first rest ih =>
    -- No step both puts the group in and takes it out, so the first one can be settled by itself.
    have exclusive : first.Puts pid → ¬s.Removes pid first := not_removes_of_puts
    rw [after_cons, ih, mem_take_iff, restores_cons]
    simp only [List.mem_cons, exists_eq_or_imp]
    grind

theorem length_registrations_le_take (s : Session) (step : Step) :
    s.registrations.length ≤ (s.take step).2.registrations.length := by
  cases step with
  | track other => simp [take]
  | letGo registration =>
    simp only [take]
    split <;> simp
  | _ => exact Nat.le_refl _

theorem Holds.of_take {s : Session} {step : Step} {registration pid : Nat}
    (h : (s.take step).2.Holds registration pid) (made : registration < s.registrations.length) :
    s.Holds registration pid := by
  cases step with
  | track other =>
    simp only [take, Holds, List.getElem?_append_left made] at h
    exact h
  | letGo other =>
    simp only [take] at h
    split at h
    · simp only [Holds, List.getElem?_set] at h
      split at h
      · split at h <;> simp at h
      · exact h
    · exact h
  | _ => exact h

theorem Holds.of_after {s : Session} {steps : List Step} {registration pid : Nat}
    (h : (s.after steps).Holds registration pid) (made : registration < s.registrations.length) :
    s.Holds registration pid := by
  induction steps generalizing s with
  | nil => exact h
  | cons step rest ih =>
    have made' := Nat.lt_of_lt_of_le made (s.length_registrations_le_take step)
    exact (ih h made').of_take made

theorem not_holds_of_letGo (s : Session) (registration pid : Nat) :
    ¬(s.take (.letGo registration)).2.Holds registration pid := by
  intro h
  simp only [take] at h
  split at h
  · simp only [Holds, List.getElem?_set, if_true] at h
    split at h <;> simp at h
  · next free => exact free pid h

theorem Holds.not_held_before_letGo {s : Session} {before later : List Step} {registration pid : Nat}
    (h : (s.after (before ++ .letGo registration :: later)).Holds registration pid) :
    ¬(s.after before).Holds registration pid := by
  intro lost
  have made := (List.getElem?_eq_some_iff.mp lost).1
  rw [after_append, after_cons] at h
  have still := h.of_after (Nat.lt_of_lt_of_le made (length_registrations_le_take _ _))
  exact not_holds_of_letGo _ _ _ still

/-- A group that a held registration was made for is live, unless it was unregistered or all were killed,
exactly if each other registration of it that was let go meanwhile was followed by a new entry of it. -/
theorem held_live_iff {s : Session} {pid : Nat} {steps : List Step}
    (spared : ∀ step ∈ steps, step ≠ .killAll ∧ step ≠ .unregister pid)
    (held : (s.after (.track pid :: steps)).Holds s.registrations.length pid) :
    (s.after (.track pid :: steps)).registry.contains pid = true ↔
      ∀ before other later, steps = before ++ .letGo other :: later →
        other ≠ s.registrations.length → (s.after (.track pid :: before)).Holds other pid →
          .register pid ∈ later ∨ .track pid ∈ later := by
  have made : pid ∈ (s.take (.track pid)).2.registry.live := mem_take_iff.mpr (.inl rfl)
  rw [contains, List.contains_iff_mem, after_cons, mem_after_iff]
  constructor
  · rintro ⟨-, restores⟩ before other later shape - lost
    obtain ⟨put, mem, puts⟩ := restores before (.letGo other) later shape lost
    rcases Step.puts_iff.mp puts with rfl | rfl
    · exact .inl mem
    · exact .inr mem
  · refine fun restored => ⟨.inl made, fun before step later shape removes => ?_⟩
    have mem : step ∈ steps := shape ▸ List.mem_append_right before List.mem_cons_self
    cases step with
    | register other => contradiction
    | track other => contradiction
    | contains other => contradiction
    | unregister other =>
      cases removes
      exact absurd rfl (spared _ mem).2
    | killAll => exact absurd rfl (spared _ mem).1
    | letGo other =>
      have another : other ≠ s.registrations.length := by
        rintro rfl
        rw [after_cons, shape] at held
        exact held.not_held_before_letGo removes
      rcases restored before other later shape another removes with put | put
      · exact ⟨_, put, rfl⟩
      · exact ⟨_, put, rfl⟩

theorem held_live_after_reentry :
    let s : Session := {}
    let steps : List Step := [.register 7, .track 5, .letGo 1, .register 5]
    (∀ step ∈ steps, step ≠ .killAll ∧ step ≠ .unregister 5) ∧
      (s.after (.track 5 :: steps)).Holds s.registrations.length 5 ∧
      ((s.after (.track 5 :: steps)).registry.contains 5 = true ↔
        ∀ before other later, steps = before ++ .letGo other :: later →
          other ≠ s.registrations.length → (s.after (.track 5 :: before)).Holds other 5 →
            .register 5 ∈ later ∨ .track 5 ∈ later) := by
  intro s steps
  have spared : ∀ step ∈ steps, step ≠ .killAll ∧ step ≠ .unregister 5 := by decide
  have held : (s.after (.track 5 :: steps)).Holds s.registrations.length 5 := by decide
  exact ⟨spared, held, held_live_iff spared held⟩

/-- The first of two registrations of a group is let go: the second is held and the group is not live. -/
theorem held_not_live_after_letGo :
    let s : Session := Session.after {} [.track 5]
    let steps : List Step := [.letGo 0]
    (∀ step ∈ steps, step ≠ .killAll ∧ step ≠ .unregister 5) ∧
      (s.after (.track 5 :: steps)).Holds s.registrations.length 5 ∧
      (s.after (.track 5 :: steps)).registry.contains 5 = false := by
  decide

end Session
end FlagSurvey.Registry
