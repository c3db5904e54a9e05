/-! Registries of running process groups. Each is named by the process that leads it and stands in the
registry once at most. A registration holds its group there until it is let go, which takes the group out
whoever else put it in. -/
namespace FlagSurvey

structure Registry where
  live : List Nat := []
  live_nodup : live.Nodup := by exact .nil

namespace Registry

def contains (r : Registry) (pid : Nat) : Bool := r.live.contains pid

def size (r : Registry) : Nat := r.live.length

def isEmpty (r : Registry) : Bool := r.live.isEmpty

def register (r : Registry) (pid : Nat) : Registry :=
  if h : pid ∈ r.live then r else ⟨pid :: r.live, List.nodup_cons.mpr ⟨h, r.live_nodup⟩⟩

def unregister (r : Registry) (pid : Nat) : Registry := ⟨r.live.erase pid, r.live_nodup.erase pid⟩

def killAll (r : Registry) : Registry × Nat := ({}, r.size)

theorem mem_register {r : Registry} {pid other : Nat} :
    other ∈ (r.register pid).live ↔ other = pid ∨ other ∈ r.live := by
  rw [register]
  split
  · simp_all
  · simp

theorem mem_unregister {r : Registry} {pid other : Nat} :
    other ∈ (r.unregister pid).live ↔ other ≠ pid ∧ other ∈ r.live := r.live_nodup.mem_erase_iff

inductive Step where
  | register (pid : Nat)
  | unregister (pid : Nat)
  | contains (pid : Nat)
  | track (pid : Nat)
  | letGo (registration : Nat)
  | killAll
  deriving DecidableEq, Repr

inductive Answer where
  | nothing
  | truth (value : Bool)
  | count (value : Nat)
  deriving DecidableEq, Repr

/-- A registry and its registrations, by number; one that was let go holds no group. -/
structure Session where
  registry : Registry := {}
  registrations : List (Option Nat) := []

def Session.take (s : Session) : Step → Answer × Session
  | .register pid => (.nothing, { s with registry := s.registry.register pid })
  | .unregister pid => (.nothing, { s with registry := s.registry.unregister pid })
  | .contains pid => (.truth (s.registry.contains pid), s)
  | .track pid =>
    (.count s.registrations.length,
      ⟨s.registry.register pid, s.registrations ++ [some pid]⟩)
  | .letGo registration =>
    match s.registrations[registration]? with
    | some (some pid) =>
      (.truth true, ⟨s.registry.unregister pid, s.registrations.set registration none⟩)
    | _ => (.truth false, s)
  | .killAll =>
    let (registry, count) := s.registry.killAll
    (.count count, { s with registry })

def Session.takeAll (s : Session) : List Step → List (Answer × Registry) × Session
  | [] => ([], s)
  | step :: rest =>
    let (answer, next) := s.take step
    let (answers, last) := next.takeAll rest
    ((answer, next.registry) :: answers, last)

/-- A registry at the end of a run, when every group left is killed. -/
def Session.shutdown (s : Session) : Registry := s.registry.killAll.1

end Registry
end FlagSurvey
