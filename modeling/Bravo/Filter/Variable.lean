import Mathlib.Data.List.Nodup
import Mathlib.Logic.Function.Basic
import Mathlib.Tactic.Ring

/-! # `ov_type::Type` and its classes

A variable is known by the address of its object. A pose owns two objects and an IMU owns six, and
each of them has an id of its own that `set_local_id` has to move along. Where every object stands
in its variable is the list `Var.parts`; what the virtual functions do is stated over it.
-/

namespace Bravo.Filter

open List

/-! ## Variables -/

abbrev Ptr := Nat

structure PoseJPL where
  ptr : Ptr
  q : Ptr
  p : Ptr
deriving DecidableEq, Repr

structure IMU where
  ptr : Ptr
  pose : PoseJPL
  v : Ptr
  bg : Ptr
  ba : Ptr
deriving DecidableEq, Repr

/-- A `shared_ptr<Type>` with the class behind it. A landmark is a `Vec`. -/
inductive Var
  | vec (ptr : Ptr) (size : Nat)
  | jplQuat (ptr : Ptr)
  | poseJPL (x : PoseJPL)
  | imu (x : IMU)
deriving DecidableEq, Repr

def Var.ptr : Var → Ptr
  | .vec ptr _ => ptr
  | .jplQuat ptr => ptr
  | .poseJPL pose => pose.ptr
  | .imu x => x.ptr

def Var.size : Var → Nat
  | .vec _ size => size
  | .jplQuat _ => 3
  | .poseJPL _ => 6
  | .imu _ => 15

def Var.parts : Var → List (Ptr × Nat)
  | .vec ptr _ => [(ptr, 0)]
  | .jplQuat ptr => [(ptr, 0)]
  | .poseJPL pose => [(pose.ptr, 0), (pose.q, 0), (pose.p, 3)]
  | .imu x => [(x.ptr, 0), (x.pose.ptr, 0), (x.pose.q, 0), (x.pose.p, 3), (x.v, 6),
      (x.bg, 9), (x.ba, 12)]

def Var.ptrs (v : Var) : List Ptr := v.parts.map (·.1)

theorem Var.ptr_mem_parts (v : Var) : (v.ptr, 0) ∈ v.parts := by
  cases v <;> simp [Var.ptr, Var.parts]

theorem Var.ptr_mem_ptrs (v : Var) : v.ptr ∈ v.ptrs :=
  mem_map.mpr ⟨_, v.ptr_mem_parts, rfl⟩

/-! ## The heap -/

/-- `_id`, `_value` and `_fej`, and the flag that a landmark has besides. -/
structure Cell (K : Type) where
  id : Int := -1
  value : List K := []
  fej : List K := []
  shouldMarg : Bool := false

/-- The objects, and the next address `make_shared` gives out. -/
structure Heap (K : Type) where
  cells : Ptr → Cell K
  next : Ptr

section Heap

variable {K : Type}

def Heap.id (h : Heap K) (ptr : Ptr) : Int := (h.cells ptr).id

def Heap.value (h : Heap K) (ptr : Ptr) : List K := (h.cells ptr).value

def Heap.fej (h : Heap K) (ptr : Ptr) : List K := (h.cells ptr).fej

def Heap.setId (h : Heap K) (ptr : Ptr) (id : Int) : Heap K :=
  { h with cells := Function.update h.cells ptr { h.cells ptr with id := id } }

def Heap.setValue (h : Heap K) (ptr : Ptr) (value : List K) : Heap K :=
  { h with cells := Function.update h.cells ptr { h.cells ptr with value := value } }

def Heap.setFej (h : Heap K) (ptr : Ptr) (fej : List K) : Heap K :=
  { h with cells := Function.update h.cells ptr { h.cells ptr with fej := fej } }

variable {h : Heap K} {ptr : Ptr}

theorem Heap.id_setId (id : Int) (x : Ptr) :
    (h.setId ptr id).id x = if x = ptr then id else h.id x := by
  unfold Heap.setId Heap.id
  by_cases hx : x = ptr
  · simp [hx]
  · simp [hx]

theorem Heap.value_setId (id : Int) (x : Ptr) : (h.setId ptr id).value x = h.value x := by
  unfold Heap.setId Heap.value
  by_cases hx : x = ptr
  · simp [hx]
  · simp [hx]

@[simp] theorem Heap.next_setId (id : Int) : (h.setId ptr id).next = h.next := rfl
@[simp] theorem Heap.next_setValue (value : List K) : (h.setValue ptr value).next = h.next := rfl
@[simp] theorem Heap.next_setFej (fej : List K) : (h.setFej ptr fej).next = h.next := rfl

@[simp] theorem Heap.id_setValue (value : List K) (x : Ptr) :
    (h.setValue ptr value).id x = h.id x := by
  unfold Heap.setValue Heap.id
  by_cases hx : x = ptr
  · simp [hx]
  · simp [hx]

theorem Heap.value_setValue_of_ne (value : List K) {x : Ptr} (hx : x ≠ ptr) :
    (h.setValue ptr value).value x = h.value x := by
  unfold Heap.setValue Heap.value
  simp [hx]

@[simp] theorem Heap.value_setFej (fej : List K) (x : Ptr) :
    (h.setFej ptr fej).value x = h.value x := by
  unfold Heap.setFej Heap.value
  by_cases hx : x = ptr
  · simp [hx]
  · simp [hx]

@[simp] theorem Heap.id_setFej (fej : List K) (x : Ptr) : (h.setFej ptr fej).id x = h.id x := by
  unfold Heap.setFej Heap.id
  by_cases hx : x = ptr
  · simp [hx]
  · simp [hx]

end Heap

/-! ## Virtual functions -/

section Virtual

variable {K : Type}

def PoseJPL.setLocalId (x : PoseJPL) (newId : Int) (h : Heap K) : Heap K :=
  let h := h.setId x.ptr newId
  let h := h.setId x.q newId
  h.setId x.p (newId + if newId ≠ -1 then 3 else 0)

def IMU.setLocalId (x : IMU) (newId : Int) (h : Heap K) : Heap K :=
  let h := h.setId x.ptr newId
  let h := x.pose.setLocalId newId h
  let h := h.setId x.v (h.id x.pose.ptr + if newId ≠ -1 then 6 else 0)
  let h := h.setId x.bg (h.id x.v + if newId ≠ -1 then 3 else 0)
  h.setId x.ba (h.id x.bg + if newId ≠ -1 then 3 else 0)

def Var.setLocalId : Var → Int → Heap K → Heap K
  | .vec ptr _, newId, h => h.setId ptr newId
  | .jplQuat ptr, newId, h => h.setId ptr newId
  | .poseJPL pose, newId, h => pose.setLocalId newId h
  | .imu x, newId, h => x.setLocalId newId h

def PoseJPL.checkIfSubvariable (x : PoseJPL) (check : Ptr) : Option Var :=
  if check = x.q then some (.jplQuat x.q) else if check = x.p then some (.vec x.p 3) else none

def IMU.checkIfSubvariable (x : IMU) (check : Ptr) : Option Var :=
  if check = x.pose.ptr then some (.poseJPL x.pose)
  else
    match x.pose.checkIfSubvariable check with
    | some part => some part
    | none =>
      if check = x.v then some (.vec x.v 3)
      else if check = x.bg then some (.vec x.bg 3)
      else if check = x.ba then some (.vec x.ba 3)
      else none

/-- `check_if_subvariable`; the other classes have no sub-variable. -/
def Var.checkIfSubvariable : Var → Ptr → Option Var
  | .poseJPL pose, check => pose.checkIfSubvariable check
  | .imu x, check => x.checkIfSubvariable check
  | _, _ => none

def PoseJPL.setValue (x : PoseJPL) (new : List K) (h : Heap K) : Heap K :=
  ((h.setValue x.q (new.take 4)).setValue x.p ((new.drop 4).take 3)).setValue x.ptr new

/-- `set_value`, which writes the sub-variables first. -/
def Var.setValue : Var → List K → Heap K → Heap K
  | .vec ptr _, new, h => h.setValue ptr new
  | .jplQuat ptr, new, h => h.setValue ptr new
  | .poseJPL pose, new, h => pose.setValue new h
  | .imu x, new, h =>
    let h := x.pose.setValue (new.take 7) h
    let h := h.setValue x.v ((new.drop 7).take 3)
    let h := h.setValue x.bg ((new.drop 10).take 3)
    let h := h.setValue x.ba ((new.drop 13).take 3)
    h.setValue x.ptr new

def PoseJPL.setFej (x : PoseJPL) (new : List K) (h : Heap K) : Heap K :=
  ((h.setFej x.q (new.take 4)).setFej x.p ((new.drop 4).take 3)).setFej x.ptr new

def Var.setFej : Var → List K → Heap K → Heap K
  | .vec ptr _, new, h => h.setFej ptr new
  | .jplQuat ptr, new, h => h.setFej ptr new
  | .poseJPL pose, new, h => pose.setFej new h
  | .imu x, new, h =>
    let h := x.pose.setFej (new.take 7) h
    let h := h.setFej x.v ((new.drop 7).take 3)
    let h := h.setFej x.bg ((new.drop 10).take 3)
    let h := h.setFej x.ba ((new.drop 13).take 3)
    h.setFej x.ptr new

/-- A new object of the class, at the addresses from `next` on. -/
def Var.allocate (next : Ptr) : Var → Var
  | .vec _ size => .vec next size
  | .jplQuat _ => .jplQuat next
  | .poseJPL _ => .poseJPL ⟨next, next + 1, next + 2⟩
  | .imu _ => .imu ⟨next, ⟨next + 1, next + 2, next + 3⟩, next + 4, next + 5, next + 6⟩

def Heap.reserve (h : Heap K) (count : Nat) : Heap K where
  cells ptr := if h.next ≤ ptr then { id := -1 } else h.cells ptr
  next := h.next + count

def Var.clone (v : Var) (h : Heap K) : Var × Heap K :=
  let copy := v.allocate h.next
  let fresh := h.reserve v.parts.length
  (copy, copy.setFej (h.fej v.ptr) (copy.setValue (h.value v.ptr) fresh))

section Update

variable [Add K] (rotate : List K → List K → List K)

/-- The new value of a variable from its value, that of its orientation and the increment; `rotate`
is the update of a quaternion. -/
def Var.boxplus (v : Var) (h : Heap K) (dx : List K) : List K :=
  let plus := List.zipWith (· + ·)
  match v with
  | .vec ptr _ => plus (h.value ptr) dx
  | .jplQuat ptr => rotate dx (h.value ptr)
  | .poseJPL pose =>
    rotate (dx.take 3) (h.value pose.q) ++ plus ((h.value pose.ptr).drop 4) (dx.drop 3)
  | .imu x =>
    rotate (dx.take 3) (h.value x.pose.q) ++ plus ((h.value x.ptr).drop 4) (dx.drop 3)

def Var.update (v : Var) (dx : List K) (h : Heap K) : Heap K := v.setValue (v.boxplus rotate h dx) h

end Update

/-! ## What they do to the ids -/

variable {h : Heap K}

def Var.Consistent (v : Var) (h : Heap K) : Prop :=
  ∀ part ∈ v.parts, h.id part.1 = h.id v.ptr + part.2

@[simp] theorem Var.id_setValue (v : Var) (new : List K) (x : Ptr) :
    (v.setValue new h).id x = h.id x := by
  cases v <;> simp [Var.setValue, PoseJPL.setValue]

@[simp] theorem Var.id_setFej (v : Var) (new : List K) (x : Ptr) :
    (v.setFej new h).id x = h.id x := by
  cases v <;> simp [Var.setFej, PoseJPL.setFej]

@[simp] theorem Var.next_setValue (v : Var) (new : List K) : (v.setValue new h).next = h.next := by
  cases v <;> rfl

@[simp] theorem Var.next_setFej (v : Var) (new : List K) : (v.setFej new h).next = h.next := by
  cases v <;> rfl

@[simp] theorem Var.next_setLocalId (v : Var) (newId : Int) : (v.setLocalId newId h).next = h.next := by
  cases v <;> rfl

variable {v : Var}

theorem Var.id_setLocalId_of_notMem {newId : Int} {x : Ptr} (hx : x ∉ v.ptrs) :
    (v.setLocalId newId h).id x = h.id x := by
  cases v <;>
    simp only [Var.ptrs, Var.parts, map_cons, map_nil, mem_cons, not_mem_nil,
      or_false, not_or] at hx <;>
    simp [Var.setLocalId, PoseJPL.setLocalId, IMU.setLocalId, Heap.id_setId, hx]

theorem Var.id_setLocalId (hnodup : v.ptrs.Nodup) {newId : Int} (hid : newId ≠ -1) :
    ∀ part ∈ v.parts, (v.setLocalId newId h).id part.1 = newId + part.2 := by
  cases v with
  | vec ptr size => simp [Var.parts, Var.setLocalId, Heap.id_setId]
  | jplQuat ptr => simp [Var.parts, Var.setLocalId, Heap.id_setId]
  | poseJPL pose =>
    simp only [Var.ptrs, Var.parts, map_cons, map_nil, nodup_cons, mem_cons,
      not_mem_nil, or_false, not_or, not_false_eq_true, nodup_nil, and_true] at hnodup
    obtain ⟨⟨hq, hp⟩, hqp⟩ := hnodup
    simp [Var.parts, Var.setLocalId, PoseJPL.setLocalId, Heap.id_setId, hid, hq, hp, hqp]
  | imu x =>
    simp only [Var.ptrs, Var.parts, map_cons, map_nil, nodup_cons, mem_cons,
      not_mem_nil, or_false, not_or, not_false_eq_true, nodup_nil, and_true] at hnodup
    obtain ⟨⟨h1, h2, h3, h4, h5, h6⟩, ⟨g2, g3, g4, g5, g6⟩, ⟨e3, e4, e5, e6⟩, ⟨d4, d5, d6⟩,
      ⟨c5, c6⟩, b6⟩ := hnodup
    simp [Var.parts, Var.setLocalId, IMU.setLocalId, PoseJPL.setLocalId, Heap.id_setId, hid, h1, h2,
      h3, h4, h5, h6, g2, g3, g4, g5, g6, e3, e4, e5, e6, d4, d5, d6, c5, c6, b6]
    omega

theorem Var.id_ptr_setLocalId (hnodup : v.ptrs.Nodup) {newId : Int} (hid : newId ≠ -1) :
    (v.setLocalId newId h).id v.ptr = newId := by
  have hptr := Var.id_setLocalId (h := h) hnodup hid _ v.ptr_mem_parts
  simpa using hptr

theorem Var.consistent_setLocalId (hnodup : v.ptrs.Nodup) {newId : Int}
    (hid : newId ≠ -1) : v.Consistent (v.setLocalId newId h) := by
  intro part hpart
  rw [Var.id_setLocalId hnodup hid part hpart, Var.id_ptr_setLocalId hnodup hid]

theorem Var.Consistent.of_eq {h' : Heap K} (hv : v.Consistent h)
    (heq : ∀ x ∈ v.ptrs, h'.id x = h.id x) : v.Consistent h' := by
  intro part hpart
  rw [heq _ (mem_map_of_mem hpart), heq _ v.ptr_mem_ptrs]
  exact hv part hpart

theorem Var.ptrs_allocate (v : Var) (next : Ptr) :
    (v.allocate next).ptrs = (List.range v.parts.length).map (next + ·) := by
  cases v <;> rfl

@[simp] theorem Var.size_allocate (v : Var) (next : Ptr) : (v.allocate next).size = v.size := by
  cases v <;> rfl

theorem Var.nodup_ptrs_allocate (v : Var) (next : Ptr) : (v.allocate next).ptrs.Nodup := by
  rw [Var.ptrs_allocate]
  exact nodup_range.map (fun _ _ hab => Nat.add_left_cancel hab)

theorem Var.mem_ptrs_allocate {next x : Nat} :
    x ∈ (v.allocate next).ptrs ↔ next ≤ x ∧ x < next + v.parts.length := by
  rw [Var.ptrs_allocate, mem_map]
  constructor
  · rintro ⟨k, hk, rfl⟩
    have hlt := mem_range.mp hk
    omega
  · rintro ⟨hle, hlt⟩
    exact ⟨x - next, mem_range.mpr (by omega), by omega⟩

theorem Var.id_clone {x : Ptr} (hx : x < h.next) : (v.clone h).2.id x = h.id x := by
  have hfresh : (h.reserve v.parts.length).id x = h.id x := by
    have hcell : (h.reserve v.parts.length).cells x = h.cells x := if_neg (Nat.not_le.mpr hx)
    rw [Heap.id, hcell]
    rfl
  unfold Var.clone
  simpa using hfresh

@[simp] theorem Var.value_setFej (v : Var) (new : List K) (x : Ptr) :
    (v.setFej new h).value x = h.value x := by
  cases v <;> simp [Var.setFej, PoseJPL.setFej]

@[simp] theorem Var.value_setLocalId (v : Var) (newId : Int) (x : Ptr) :
    (v.setLocalId newId h).value x = h.value x := by
  cases v <;> simp [Var.setLocalId, PoseJPL.setLocalId, IMU.setLocalId, Heap.value_setId]

theorem Var.value_setValue_of_notMem {new : List K} {x : Ptr} (hx : x ∉ v.ptrs) :
    (v.setValue new h).value x = h.value x := by
  cases v <;>
    simp only [Var.ptrs, Var.parts, map_cons, map_nil, mem_cons, not_mem_nil,
      or_false, not_or] at hx <;>
    simp [Var.setValue, PoseJPL.setValue, Heap.value_setValue_of_ne, hx]

theorem Var.value_clone {x : Nat} (hx : x < h.next) : (v.clone h).2.value x = h.value x := by
  have hfresh : (h.reserve v.parts.length).value x = h.value x := by
    have hcell : (h.reserve v.parts.length).cells x = h.cells x := if_neg (Nat.not_le.mpr hx)
    rw [Heap.value, hcell]
    rfl
  have hout : x ∉ (v.allocate h.next).ptrs := fun hin => by
    have hbound := (Var.mem_ptrs_allocate.mp hin).1
    omega
  unfold Var.clone
  rw [Var.value_setFej, Var.value_setValue_of_notMem hout, hfresh]

end Virtual

end Bravo.Filter
