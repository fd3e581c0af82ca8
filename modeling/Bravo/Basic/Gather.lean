import Mathlib.Algebra.BigOperators.Group.List.Basic
import Mathlib.Algebra.BigOperators.Intervals
import Mathlib.Algebra.BigOperators.Ring.Finset
import Mathlib.Data.List.GetD

/-! # Vectors gathered from segments

A vector put together from segments of a longer one, and the product of a row with it. The product
splits over the segments (`dot_append`, `dot_segment`), so a row that is zero outside some of them has the same
product with the vector gathered from those alone (`sum_map_eq_of_subset`).
-/

namespace Bravo.Gather

open List

def segment {R : Type} (x : Nat → R) (start size : Nat) : List R :=
  (List.range size).map fun k => x (start + k)

@[simp] theorem length_segment {R : Type} (x : Nat → R) (start size : Nat) :
    (segment x start size).length = size := by
  simp [segment]

variable {R : Type} [Semiring R]

/-- The product of the row with the entries `f` and the vector `v`. -/
def dot (f : Nat → R) (v : List R) : R := ∑ j ∈ Finset.range v.length, f j * v.getD j 0

@[simp] theorem dot_nil (f : Nat → R) : dot f [] = 0 := rfl

theorem dot_append (f : Nat → R) (u v : List R) :
    dot f (u ++ v) = dot f u + dot (fun j => f (u.length + j)) v := by
  unfold dot
  rw [length_append, Finset.sum_range_add]
  congr 1
  · refine Finset.sum_congr rfl fun j hj => ?_
    rw [getD_append _ _ _ _ (Finset.mem_range.mp hj)]
  · refine Finset.sum_congr rfl fun j _ => ?_
    rw [getD_append_right _ _ _ _ (Nat.le_add_right _ _), Nat.add_sub_cancel_left]

theorem dot_segment (f x : Nat → R) (start size : Nat) :
    dot f (segment x start size) = ∑ k ∈ Finset.range size, f k * x (start + k) := by
  unfold dot
  rw [length_segment]
  refine Finset.sum_congr rfl fun k hk => ?_
  have hk' : k < size := Finset.mem_range.mp hk
  simp [segment, List.getD, hk']

theorem sum_map_eq_of_subset {α : Type} [DecidableEq α] {us vs : List α} (hu : us.Nodup)
    (hv : vs.Nodup) (hsub : us ⊆ vs) {g : α → R} (hzero : ∀ v ∈ vs, v ∉ us → g v = 0) :
    (vs.map g).sum = (us.map g).sum := by
  rw [← sum_toFinset g hu, ← sum_toFinset g hv]
  symm
  apply Finset.sum_subset
  · intro a ha
    exact mem_toFinset.mpr (hsub (mem_toFinset.mp ha))
  · intro a ha hout
    exact hzero a (mem_toFinset.mp ha) fun hin => hout (mem_toFinset.mpr hin)

end Bravo.Gather
