import FlagSurvey.Flag.Tunable

/-! The order of a report. It looks at the category and the name of an entry alone, so the order settles
a list of entries up to entries alike in both; those stay as they came. -/
namespace FlagSurvey.Tunable

def Alike (t u : Tunable) : Prop := t.category = u.category ∧ t.name = u.name

instance (t u : Tunable) : Decidable (Alike t u) := inferInstanceAs (Decidable (_ ∧ _))

theorem precedes_iff {t u : Tunable} : precedes t u = true ↔
    t.category.rank < u.category.rank ∨ t.category.rank = u.category.rank ∧ t.name ≤ u.name := by
  simp [precedes]

theorem precedes_total (t u : Tunable) : (precedes t u || precedes u t) = true := by
  rw [Bool.or_eq_true, precedes_iff, precedes_iff]
  have names := String.le_total t.name u.name
  by_cases same : t.category.rank = u.category.rank
  · rcases names with first | second
    · exact .inl (.inr ⟨same, first⟩)
    · exact .inr (.inr ⟨same.symm, second⟩)
  · omega

theorem precedes_trans (t u v : Tunable) (first : precedes t u = true)
    (second : precedes u v = true) : precedes t v = true := by
  rw [precedes_iff] at first second ⊢
  rcases first with lower | ⟨same, names⟩ <;> rcases second with lower' | ⟨same', names'⟩
  · exact .inl (by omega)
  · exact .inl (by omega)
  · exact .inl (by omega)
  · exact .inr ⟨same.trans same', String.le_trans names names'⟩

theorem alike_of_precedes {t u : Tunable} (first : precedes t u = true)
    (second : precedes u t = true) : Alike t u := by
  rw [precedes_iff] at first second
  rcases first with lower | ⟨same, names⟩
  · omega
  · rcases second with lower' | ⟨-, names'⟩
    · omega
    · exact ⟨Category.rank_injective same, String.le_antisymm names names'⟩

theorem precedes_of_alike {t u : Tunable} (h : Alike t u) : precedes t u = true := by
  rw [precedes_iff, h.1, h.2]
  exact .inr ⟨rfl, String.le_refl _⟩

theorem pairwise_arrange (tunables : List Tunable) :
    (arrange tunables).Pairwise (precedes · ·) :=
  List.pairwise_mergeSort precedes_trans precedes_total tunables

/-- Entries that are told apart by their place have one arrangement, in whatever order they come. -/
theorem arrange_eq_of_perm {tunables others : List Tunable} (perm : tunables.Perm others)
    (apart : ∀ t ∈ tunables, ∀ u ∈ tunables, Alike t u → t = u) :
    arrange tunables = arrange others := by
  refine List.Perm.eq_of_pairwise (fun t u ht hu first second => ?_) (pairwise_arrange tunables)
    (pairwise_arrange others) ((arrange_perm tunables).trans (perm.trans (arrange_perm others).symm))
  have hu := perm.mem_iff.mpr ((arrange_perm others).mem_iff.mp hu)
  exact apart t ((arrange_perm tunables).mem_iff.mp ht) u hu (alike_of_precedes first second)

theorem filter_alike_arrange (t : Tunable) (tunables : List Tunable) :
    (arrange tunables).filter (fun u => Alike u t) = tunables.filter (fun u => Alike u t) := by
  have sorted : (tunables.filter fun u => Alike u t).Pairwise (precedes · ·) := by
    refine List.pairwise_of_forall_mem_list fun u hu v hv => ?_
    have hu : Alike u t := of_decide_eq_true (List.mem_filter.mp hu).2
    have hv : Alike v t := of_decide_eq_true (List.mem_filter.mp hv).2
    exact precedes_of_alike ⟨hu.1.trans hv.1.symm, hu.2.trans hv.2.symm⟩
  have sub := List.sublist_mergeSort precedes_trans precedes_total sorted List.filter_sublist
  have within := sub.filter fun u => decide (Alike u t)
  rw [List.filter_filter] at within
  simp only [Bool.and_self] at within
  exact (within.eq_of_length ((arrange_perm tunables).filter _).length_eq.symm).symm

end FlagSurvey.Tunable
