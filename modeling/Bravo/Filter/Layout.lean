import Bravo.Filter.Update
import Mathlib.Algebra.BigOperators.Group.List.Basic

/-! # The layout of the covariance

The ids of the variables in list order partition the covariance without a gap, and the objects of a
variable stand where their place in it says. `Laid` is that layout with what it takes to keep it:
no object belongs to two variables, and the maps point into the list.
-/

namespace Bravo.Filter

open Bravo.Linear

/-! ## Contiguous ids -/

section Contiguous

variable {K : Type}

/-- The variables follow each other from `start` to `stop`. -/
def Contiguous (h : Heap K) : Nat → List Var → Nat → Prop
  | start, [], stop => start = stop
  | start, v :: rest, stop =>
    h.id v.ptr = start ∧ 0 < v.size ∧ Contiguous h (start + v.size) rest stop

variable {h h' : Heap K} {vs ws : List Var} {start stop : Nat}

theorem Contiguous.stop_eq (hc : Contiguous h start vs stop) : stop = start + sizeOfVars vs := by
  induction vs generalizing start with
  | nil => simpa [sizeOfVars] using hc.symm
  | cons v rest ih =>
    obtain ⟨-, -, hrest⟩ := hc
    rw [ih hrest]
    simp [sizeOfVars, Nat.add_assoc]

theorem Contiguous.range (hc : Contiguous h start vs stop) {v : Var} (hv : v ∈ vs) :
    ∃ at' : Nat, h.id v.ptr = at' ∧ start ≤ at' ∧ at' + v.size ≤ stop ∧ 0 < v.size := by
  induction vs generalizing start with
  | nil => cases hv
  | cons w rest ih =>
    obtain ⟨hid, hpos, hrest⟩ := hc
    have hstop := Contiguous.stop_eq hrest
    rcases List.mem_cons.mp hv with rfl | hv
    · exact ⟨start, hid, le_refl _, by omega, hpos⟩
    · obtain ⟨at', hat, hle, hfits, hsize⟩ := ih hrest hv
      exact ⟨at', hat, by omega, hfits, hsize⟩

end Contiguous

/-! ## Sub-variables -/

/-- `v` is the variable or one of its sub-variables. -/
def Var.Includes (top v : Var) : Prop := top = v ∨ top.checkIfSubvariable v.ptr = some v

theorem PoseJPL.part_of_check {x : PoseJPL} {check : Ptr} {v : Var}
    (h : x.checkIfSubvariable check = some v) :
    ∃ offset, (v.ptr, offset) ∈ (Var.poseJPL x).parts ∧ offset + v.size ≤ 6 ∧ 0 < v.size := by
  unfold PoseJPL.checkIfSubvariable at h
  split at h
  · cases h
    exact ⟨0, by simp [Var.parts, Var.ptr], by simp [Var.size], by simp [Var.size]⟩
  · split at h
    · cases h
      exact ⟨3, by simp [Var.parts, Var.ptr], by simp [Var.size], by simp [Var.size]⟩
    · cases h

theorem Var.part_of_check {top v : Var} {check : Ptr} (h : top.checkIfSubvariable check = some v) :
    ∃ offset, (v.ptr, offset) ∈ top.parts ∧ offset + v.size ≤ top.size ∧ 0 < v.size := by
  cases top with
  | vec => cases h
  | jplQuat => cases h
  | poseJPL x => exact PoseJPL.part_of_check h
  | imu x =>
    simp only [Var.checkIfSubvariable, IMU.checkIfSubvariable] at h
    split at h
    · cases h
      exact ⟨0, by simp [Var.parts, Var.ptr], by simp [Var.size], by simp [Var.size]⟩
    split at h
    · rename_i part hpart
      cases h
      obtain ⟨offset, hmem, hfits, hpos⟩ := PoseJPL.part_of_check hpart
      refine ⟨offset, ?_, ?_, hpos⟩
      · simp only [Var.parts, List.mem_cons, List.not_mem_nil, or_false, Prod.mk.injEq] at hmem ⊢
        grind
      · simp only [Var.size] at hfits ⊢
        omega
    split at h
    · cases h
      exact ⟨6, by simp [Var.parts, Var.ptr], by simp [Var.size], by simp [Var.size]⟩
    split at h
    · cases h
      exact ⟨9, by simp [Var.parts, Var.ptr], by simp [Var.size], by simp [Var.size]⟩
    split at h
    · cases h
      exact ⟨12, by simp [Var.parts, Var.ptr], by simp [Var.size], by simp [Var.size]⟩
    · cases h

theorem Var.Includes.part {top v : Var} (hsize : 0 < top.size) (h : top.Includes v) :
    ∃ offset, (v.ptr, offset) ∈ top.parts ∧ offset + v.size ≤ top.size ∧ 0 < v.size := by
  rcases h with rfl | h
  · exact ⟨0, top.ptr_mem_parts, by omega, hsize⟩
  · exact Var.part_of_check h

/-! ## The layout -/

section Laid

variable {K : Type} [Zero K]

structure Laid (st : State K) : Prop where
  square : st.cov.rows = st.cov.cols
  contiguous : Contiguous st.heap 0 st.vars st.cov.rows
  consistent : ∀ v ∈ st.vars, v.Consistent st.heap
  nodup : (st.vars.flatMap Var.ptrs).Nodup
  allocated : ∀ x ∈ st.vars.flatMap Var.ptrs, x < st.heap.next
  clones : ∀ clone ∈ st.clonesIMU, .poseJPL clone.2 ∈ st.vars
  features : ∀ feature ∈ st.featuresSLAM, feature.2.toVar ∈ st.vars

/-- `v` is in the state, as a variable or below one. -/
def State.Holds (st : State K) (v : Var) : Prop := ∃ top ∈ st.vars, top.Includes v

variable {st : State K}

theorem Laid.holds_range (hl : Laid st) {v : Var} (hv : st.Holds v) :
    st.id v = st.at v ∧ st.at v + v.size ≤ st.cov.rows ∧ 0 < v.size := by
  obtain ⟨top, htop, hincludes⟩ := hv
  obtain ⟨at', hat, -, hfits, hsize⟩ := hl.contiguous.range htop
  obtain ⟨offset, hpart, hwithin, hpos⟩ := hincludes.part hsize
  have hid : st.heap.id v.ptr = st.heap.id top.ptr + offset := hl.consistent top htop _ hpart
  have hid' : st.id v = (at' + offset : Nat) := by
    unfold State.id
    rw [hid, hat]
    push_cast
    ring
  have hnat : st.at v = at' + offset := by
    unfold State.at
    rw [hid']
    rfl
  refine ⟨by rw [hid', hnat], by omega, hpos⟩

theorem Laid.inRange (hl : Laid st) {vs : List Var} (hvs : ∀ v ∈ vs, st.Holds v) :
    st.inRange vs = true := by
  refine List.all_eq_true.mpr fun v hv => ?_
  obtain ⟨hid, hfits, -⟩ := hl.holds_range (hvs v hv)
  rw [decide_eq_true_eq, hid]
  omega

theorem holds_of_mem {v : Var} (hv : v ∈ st.vars) : st.Holds v := ⟨v, hv, .inl rfl⟩

end Laid

end Bravo.Filter
