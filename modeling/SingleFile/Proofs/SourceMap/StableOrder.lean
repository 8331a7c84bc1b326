import Mathlib.Data.List.Perm.Subperm
import SingleFile.SourceMap.Position

/-! # Stable order by points

A list is in stable order if its points never go back and elements at one point keep the order in
which they were given. The merge sort of the builder arranges any list this way, and no other list
of the same elements is in stable order, so what is proved of the order holds of the sort.
-/

namespace SingleFile

theorem Point.le_antisymm {first second : Point} (lower : first.le second)
    (upper : second.le first) : first = second := by
  obtain ⟨firstLine, firstColumn⟩ := first
  obtain ⟨secondLine, secondColumn⟩ := second
  simp only [Point.le, Bool.or_eq_true, Bool.and_eq_true, decide_eq_true_eq, beq_iff_eq,
    UInt32.lt_iff_toNat_lt, UInt32.le_iff_toNat_le, ← UInt32.toNat_inj, Point.mk.injEq] at *
  omega

theorem Point.le_refl (point : Point) : point.le point := by
  simp only [Point.le, beq_self_eq_true, Bool.true_and, UInt32.le_refl, decide_true, Bool.or_true]

variable {α β : Type} {place : α → Point} {given sorted other : List α}

/-- `sorted` holds the elements of `given` by their points, and those at one point as given. -/
structure IsStableSort (place : α → Point) (given sorted : List α) : Prop where
  perm : sorted.Perm given
  ordered : sorted.Pairwise fun first second => (place first).le (place second)
  stable : ∀ point, sorted.filter (place · = point) = given.filter (place · = point)

/-- Two lists hold the same elements, and those at one point in the same order. -/
structure Rearranges (place : α → Point) (given other : List α) : Prop where
  perm : other.Perm given
  stable : ∀ point, other.filter (place · = point) = given.filter (place · = point)

theorem Rearranges.append_left (before : List α) (rearranges : Rearranges place given other) :
    Rearranges place (before ++ given) (before ++ other) where
  perm := rearranges.perm.append_left before
  stable point := by rw [List.filter_append, List.filter_append, rearranges.stable]

private theorem place_trans (place : α → Point) (first second third : α)
    (lower : (place first).le (place second)) (upper : (place second).le (place third)) :
    (place first).le (place third) :=
  Point.le_trans _ _ _ lower upper

private theorem place_total (place : α → Point) (first second : α) :
    (place first).le (place second) || (place second).le (place first) :=
  Point.le_total _ _

/-- The elements at one point, being a sorted part of the list, survive the sort in their order. -/
private theorem filter_mergeSort (place : α → Point) (given : List α) (point : Point) :
    (given.mergeSort fun first second => (place first).le (place second)).filter (place · = point) =
      given.filter (place · = point) := by
  have perm := List.mergeSort_perm given fun first second => (place first).le (place second)
  have sorted : (given.filter (place · = point)).Pairwise
      fun first second => (place first).le (place second) := by
    apply List.pairwise_of_forall_mem_list
    intro first firstMember second secondMember
    have firstAt := of_decide_eq_true (List.mem_filter.mp firstMember).2
    have secondAt := of_decide_eq_true (List.mem_filter.mp secondMember).2
    rw [firstAt, secondAt]
    exact point.le_refl
  have part := List.sublist_mergeSort (place_trans place) (place_total place) sorted
    List.filter_sublist
  have kept := part.filter (place · = point)
  rw [List.filter_filter] at kept
  simp only [Bool.and_self] at kept
  exact (kept.eq_of_length (perm.filter _).length_eq.symm).symm

theorem isStableSort_mergeSort (place : α → Point) (given : List α) :
    IsStableSort place given
      (given.mergeSort fun first second => (place first).le (place second)) where
  perm := List.mergeSort_perm _ _
  ordered := List.pairwise_mergeSort (place_trans place) (place_total place) given
  stable := filter_mergeSort place given

/-- Sorted lists with the same elements, in the same order at every point, are equal. -/
private theorem eq_of_filter_eq {first second : List α}
    (firstOrdered : first.Pairwise fun a b => (place a).le (place b))
    (secondOrdered : second.Pairwise fun a b => (place a).le (place b))
    (same : ∀ point, first.filter (place · = point) = second.filter (place · = point)) :
    first = second := by
  induction first generalizing second with
  | nil =>
    refine (List.eq_nil_iff_forall_not_mem.mpr fun element member => ?_).symm
    have kept : element ∈ second.filter (place · = place element) :=
      List.mem_filter.mpr ⟨member, decide_eq_true rfl⟩
    rw [← same] at kept
    exact List.not_mem_nil kept
  | cons head rest ih =>
    have mem_iff (element : α) : element ∈ head :: rest ↔ element ∈ second := by
      have there := congrArg (element ∈ ·) (same (place element))
      simpa only [List.mem_filter, decide_true, and_true, eq_iff_iff] using there
    cases second with
    | nil => exact absurd ((mem_iff head).mp List.mem_cons_self) List.not_mem_nil
    | cons front others =>
      -- each head is in the other list, so neither point lies before the other
      have level : place head = place front := by
        have lower : (place head).le (place front) := by
          rcases List.mem_cons.mp ((mem_iff front).mpr List.mem_cons_self) with equal | member
          · rw [equal]
            exact Point.le_refl _
          · exact (List.pairwise_cons.mp firstOrdered).1 front member
        have upper : (place front).le (place head) := by
          rcases List.mem_cons.mp ((mem_iff head).mp List.mem_cons_self) with equal | member
          · rw [equal]
            exact Point.le_refl _
          · exact (List.pairwise_cons.mp secondOrdered).1 head member
        exact Point.le_antisymm lower upper
      have heads := same (place head)
      simp only [List.filter_cons, level, decide_true, if_true, List.cons.injEq] at heads
      obtain ⟨rfl, _⟩ := heads
      congr 1
      apply ih (List.pairwise_cons.mp firstOrdered).2 (List.pairwise_cons.mp secondOrdered).2
      intro point
      have filtered := same point
      by_cases at_point : place head = point
      · simpa only [List.filter_cons, at_point, decide_true, if_true, List.cons.injEq, true_and]
          using filtered
      · simpa only [List.filter_cons, at_point, decide_false, Bool.false_eq_true, if_false]
          using filtered

namespace IsStableSort

theorem unique (first : IsStableSort place given sorted) (second : IsStableSort place given other) :
    sorted = other :=
  eq_of_filter_eq first.ordered second.ordered fun point =>
    (first.stable point).trans (second.stable point).symm

/-- Lists that rearrange each other have the same stable sort. -/
theorem of_rearranges (sort : IsStableSort place given sorted)
    (rearranges : Rearranges place given other) : IsStableSort place other sorted where
  perm := sort.perm.trans rearranges.perm.symm
  ordered := sort.ordered
  stable point := (sort.stable point).trans (rearranges.stable point).symm

theorem map {target : β → Point} (f : α → β) (same : ∀ element, target (f element) = place element)
    (sort : IsStableSort place given sorted) :
    IsStableSort target (given.map f) (sorted.map f) where
  perm := sort.perm.map f
  ordered := by
    simpa only [List.pairwise_map, same] using sort.ordered
  stable point := by
    simp only [List.filter_map, Function.comp_def, same, sort.stable]

/-- Leaving elements out commutes with sorting. -/
theorem filter (keep : α → Bool) (sort : IsStableSort place given sorted) :
    IsStableSort place (given.filter keep) (sorted.filter keep) where
  perm := sort.perm.filter keep
  ordered := sort.ordered.filter keep
  stable point := by
    rw [List.filter_comm, sort.stable, List.filter_comm]

/-- A list already in order is its own stable sort. -/
theorem of_ordered (ordered : given.Pairwise fun first second => (place first).le (place second)) :
    IsStableSort place given given :=
  ⟨.refl given, ordered, fun _ => rfl⟩

end IsStableSort

end SingleFile
