import DataBridge.Path

/-!
# The order of paths

Paths are ordered like the lists of their parts.  So the order is total, and two
paths are level in it only if they have the same parts.
-/

namespace DataBridge

open Std (LawfulEqCmp OrientedCmp TransCmp)

namespace PathPart

/-- The text that tells two parts of one kind apart. -/
def label : PathPart → String
  | .name text => text
  | _ => ""

theorem compare_eq_compareLex :
    PathPart.compare = compareLex (compareOn rank) (compareOn label) := by
  funext first second
  cases first <;> cases second <;> rfl

instance : TransCmp PathPart.compare :=
  compare_eq_compareLex ▸ inferInstance

instance : LawfulEqCmp PathPart.compare where
  compare_self := Std.ReflCmp.compare_self
  eq_of_compare {first second} level := by
    rw [compare_eq_compareLex] at level
    obtain ⟨rank, label⟩ := compareLex_eq_eq.mp level
    have rank := Std.LawfulEqOrd.eq_of_compare rank
    have label := Std.LawfulEqOrd.eq_of_compare label
    cases first <;> cases second <;> simp_all [PathPart.rank, PathPart.label]

end PathPart

namespace Path

theorem compareParts_eq_compareLex :
    compareParts = List.compareLex PathPart.compare := by
  funext first second
  induction first generalizing second with
  | nil => cases second <;> rfl
  | cons part rest induction =>
      cases second with
      | nil => rfl
      | cons other others =>
          rw [compareParts, List.compareLex_cons_cons, induction]
          cases part.compare other <;> rfl

private theorem isLE_or_isLE (first second : String) :
    ((compare first second).isLE || (compare second first).isLE) = true := by
  have swap : compare first second = (compare second first).swap := by
    simp only [compare, compareParts_eq_compareLex]
    exact OrientedCmp.eq_swap
  rw [swap]
  cases compare second first <;> rfl

theorem isLE_trans (first second third : String)
    (before : (compare first second).isLE = true)
    (after : (compare second third).isLE = true) :
    (compare first third).isLE = true := by
  simp only [compare, compareParts_eq_compareLex] at before after ⊢
  exact TransCmp.isLE_trans before after

theorem parts_eq_of_compare {first second : String}
    (level : compare first second = .eq) : parts first = parts second := by
  rw [compare, compareParts_eq_compareLex] at level
  exact LawfulEqCmp.eq_of_compare level

/-- Sorting paths whose parts differ puts each strictly before the next. -/
theorem pairwise_mergeSort {paths : List String} (distinct : paths.Nodup)
    (apart : ∀ first ∈ paths,
      ∀ second ∈ paths, parts first = parts second → first = second) :
    (paths.mergeSort fun first second => (compare first second).isLE).Pairwise
      (compare · · = .lt) := by
  have sorted :
      (paths.mergeSort fun first second => (compare first second).isLE).Pairwise
        fun first second => (compare first second).isLE = true :=
    List.pairwise_mergeSort isLE_trans isLE_or_isLE paths
  have permutation := List.mergeSort_perm paths fun first second =>
    (compare first second).isLE
  have unlike := permutation.nodup_iff.mpr distinct
  have both := sorted.and unlike
  apply both.imp_of_mem
  intro first second firstInside secondInside ⟨below, different⟩
  cases order : compare first second with
  | lt => rfl
  | eq =>
      have same := apart first (permutation.mem_iff.mp firstInside) second
        (permutation.mem_iff.mp secondInside) (parts_eq_of_compare order)
      exact (different same).elim
  | gt =>
      rw [order] at below
      exact nomatch below

end Path

end DataBridge
