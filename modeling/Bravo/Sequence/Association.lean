import Bravo.Basic.LowerBound

/-! # Nearest ground truth, twice

`cp2_sequence_math.py` and the transport codec `cp2_sequence_math_codec.py` both join estimator timestamps
with ground-truth rows, the one by the library's bisection, the other by halving an interval of its own. Both
look at two rows only. `associateNearestGroundTruth_spec` and `nearestAssociations_spec` say that either finds
the row that is least in (distance, index) over the whole list.
-/

namespace Bravo.Sequence

open Bravo.LowerBound List

/-! ## Errors -/

inductive Error
  | sequenceMathError (message : String)
  | sequenceMathCodecError (message : String)
  | sequenceMathWorkerError (message : String)
  | indexError
  | valueError
deriving DecidableEq, Repr

/-- `xs[i]` of a Python sequence. -/
def item {α : Type} (xs : List α) (i : Nat) : Except Error α :=
  match xs[i]? with
  | some a => .ok a
  | none => .error .indexError

theorem item_of_getElem? {α : Type} {xs : List α} {i : Nat} {a : α} (h : xs[i]? = some a) :
    item xs i = .ok a := by rw [item, h]

def u64Max : ℤ := 2 ^ 64 - 1

def groundTruthMaxDifferenceNs : ℤ := 10000000

structure TimestampAssociation where
  estimatorIndex : Nat
  estimatorTimestampNs : ℤ
  groundTruthIndex : Nat
  groundTruthTimestampNs : ℤ
  absoluteDifferenceNs : ℤ
deriving DecidableEq, Repr

/-! ## The checks of the timestamps -/

def isU64 (value : ℤ) : Bool := decide (0 ≤ value ∧ value ≤ u64Max)

def adjacent (bad : ℤ → ℤ → Bool) : List ℤ → Bool
  | a :: b :: rest => bad a b || adjacent bad (b :: rest)
  | _ => false

/-- `_timestamps` of `cp2_sequence_math` -/
def timestamps (label : String) (values : List ℤ) : Except Error (List ℤ) :=
  if values.all isU64 then
    if adjacent (fun a b => decide (b ≤ a)) values then
      .error (.sequenceMathError (label ++ " timestamps must be strictly increasing and unique"))
    else .ok values
  else .error (.sequenceMathError (label ++ " timestamp is outside u64"))

def groundTruthTimestamps (values : List ℤ) : Except Error (List ℤ) :=
  if values.all isU64 then
    if adjacent (fun a b => decide (b < a)) values then
      .error (.sequenceMathError "ground-truth timestamps must be nondecreasing")
    else .ok values
  else .error (.sequenceMathError "ground truth timestamp is outside u64")

theorem adjacent_eq_false {bad : ℤ → ℤ → Bool} {r : ℤ → ℤ → Prop} [IsTrans ℤ r]
    (hbad : ∀ a b, bad a b = false ↔ r a b) (values : List ℤ) :
    adjacent bad values = false ↔ values.Pairwise r := by
  rw [← isChain_iff_pairwise]
  induction values with
  | nil => simp [adjacent]
  | cons a rest ih =>
    cases rest with
    | nil => simp [adjacent]
    | cons b rest => rw [adjacent, Bool.or_eq_false_iff, hbad, ih, isChain_cons_cons]

/-- What `_timestamps` accepts. -/
structure Increasing (values : List ℤ) : Prop where
  u64 : ∀ v ∈ values, 0 ≤ v ∧ v ≤ u64Max
  sorted : values.Pairwise (· < ·)

/-- What `_ground_truth_timestamps` accepts. -/
structure Nondecreasing (values : List ℤ) : Prop where
  u64 : ∀ v ∈ values, 0 ≤ v ∧ v ≤ u64Max
  sorted : values.Pairwise (· ≤ ·)

theorem Increasing.sublist {values kept : List ℤ} (h : Increasing values) (hsub : kept.Sublist values) :
    Increasing kept :=
  ⟨fun v hv => h.u64 v (hsub.subset hv), h.sorted.sublist hsub⟩

theorem all_isU64 {values : List ℤ} : values.all isU64 = true ↔ ∀ v ∈ values, 0 ≤ v ∧ v ≤ u64Max := by
  simp [isU64]

theorem timestamps_eq_ok {label : String} {values : List ℤ} (h : Increasing values) :
    timestamps label values = .ok values := by
  have hadjacent : adjacent (fun a b => decide (b ≤ a)) values = false :=
    (adjacent_eq_false (by simp) values).mpr h.sorted
  rw [timestamps, if_pos (all_isU64.mpr h.u64), hadjacent]
  rfl

theorem groundTruthTimestamps_eq_ok {values : List ℤ} (h : Nondecreasing values) :
    groundTruthTimestamps values = .ok values := by
  have hadjacent : adjacent (fun a b => decide (b < a)) values = false :=
    (adjacent_eq_false (by simp) values).mpr h.sorted
  rw [groundTruthTimestamps, if_pos (all_isU64.mpr h.u64), hadjacent]
  rfl

/-! ## The intersection -/

def sharedTimestampIntersection (nullspace schur : List ℤ) : Except Error (List ℤ) := do
  let nullspace ← timestamps "nullspace trajectory" nullspace
  let schur ← timestamps "schur trajectory" schur
  return intersect nullspace schur

/-- `_shared` of the codec, which does not check its arguments. -/
def shared (left right : List ℤ) : List ℤ := intersect left right

/-! ## The loop over the estimator rows -/

/-- The rows of an association, given what is selected for one timestamp: the ground-truth index and the
distance, or nothing. -/
def joinRows (groundTruth : List ℤ) (select : ℤ → Except Error (Option (Nat × ℤ))) :
    Nat → List ℤ → Except Error (List TimestampAssociation)
  | _, [] => return []
  | estimatorIndex, timestamp :: rest => do
    match ← select timestamp with
    | none => joinRows groundTruth select (estimatorIndex + 1) rest
    | some (index, difference) =>
      let stamp ← item groundTruth index
      let rows ← joinRows groundTruth select (estimatorIndex + 1) rest
      return ⟨estimatorIndex, timestamp, index, stamp, difference⟩ :: rows

/-- The row of a selection is the nearest one and near enough; without a selection no row is near enough. -/
def Selects (groundTruth : List ℤ) (timestamp : ℤ) : Option (Nat × ℤ) → Prop
  | none => ∀ (k : Nat) (b : ℤ), groundTruth[k]? = some b → groundTruthMaxDifferenceNs < |timestamp - b|
  | some (index, difference) =>
    IsNearest groundTruth timestamp index ∧ difference ≤ groundTruthMaxDifferenceNs ∧
      ∃ a, groundTruth[index]? = some a ∧ difference = |timestamp - a|

variable {groundTruth : List ℤ}

theorem Selects.unique {timestamp : ℤ} {r r' : Option (Nat × ℤ)}
    (h : Selects groundTruth timestamp r) (h' : Selects groundTruth timestamp r') : r = r' := by
  match r, r', h, h' with
  | none, none, _, _ => rfl
  | none, some (index, difference), h, ⟨_, hle, a, ha, hd⟩ =>
    have := h index a ha
    omega
  | some (index, difference), none, ⟨_, hle, a, ha, hd⟩, h =>
    have := h index a ha
    omega
  | some (index, difference), some (index', difference'), ⟨hn, _, a, ha, hd⟩, ⟨hn', _, a', ha', hd'⟩ =>
    obtain rfl := hn.unique hn'
    obtain rfl : a = a' := Option.some.inj (ha.symm.trans ha')
    rw [hd, hd']

/-- What the association is: one row for each estimator row with a ground-truth row within the
limit, in order, with the ground-truth row that is least in (distance, index). -/
structure NearestRows (estimator groundTruth : List ℤ) (rows : List TimestampAssociation) : Prop where
  exact : ∀ i, (∃ row ∈ rows, row.estimatorIndex = i) ↔
    ∃ t, estimator[i]? = some t ∧ ∃ (k : Nat) (b : ℤ), groundTruth[k]? = some b ∧
      |t - b| ≤ groundTruthMaxDifferenceNs
  ordered : rows.Pairwise fun row row' => row.estimatorIndex < row'.estimatorIndex
  fields : ∀ row ∈ rows, estimator[row.estimatorIndex]? = some row.estimatorTimestampNs ∧
    groundTruth[row.groundTruthIndex]? = some row.groundTruthTimestampNs ∧
    row.absoluteDifferenceNs = |row.estimatorTimestampNs - row.groundTruthTimestampNs|
  nearest : ∀ row ∈ rows, IsNearest groundTruth row.estimatorTimestampNs row.groundTruthIndex

theorem joinRows_spec {select : ℤ → Except Error (Option (Nat × ℤ))}
    (hselect : ∀ t, ∃ r, select t = .ok r ∧ Selects groundTruth t r) :
    ∀ (ts : List ℤ) (before : List ℤ), ∃ rows, joinRows groundTruth select before.length ts = .ok rows ∧
      (∀ row ∈ rows, before.length ≤ row.estimatorIndex) ∧
      (∀ i, before.length ≤ i → ((∃ row ∈ rows, row.estimatorIndex = i) ↔
        ∃ t, (before ++ ts)[i]? = some t ∧ ∃ (k : Nat) (b : ℤ), groundTruth[k]? = some b ∧
          |t - b| ≤ groundTruthMaxDifferenceNs)) ∧
      (rows.Pairwise fun row row' => row.estimatorIndex < row'.estimatorIndex) ∧
      (∀ row ∈ rows, (before ++ ts)[row.estimatorIndex]? = some row.estimatorTimestampNs ∧
        groundTruth[row.groundTruthIndex]? = some row.groundTruthTimestampNs ∧
        row.absoluteDifferenceNs = |row.estimatorTimestampNs - row.groundTruthTimestampNs|) ∧
      ∀ row ∈ rows, IsNearest groundTruth row.estimatorTimestampNs row.groundTruthIndex := by
  intro ts
  induction ts with
  | nil =>
    refine fun before => ⟨[], rfl, nofun, fun i hi => ?_, List.Pairwise.nil, nofun, nofun⟩
    rw [append_nil, getElem?_eq_none hi]
    simp
  | cons t ts ih =>
    intro before
    have hassoc : before ++ t :: ts = (before ++ [t]) ++ ts := by simp
    have hhead : (before ++ t :: ts)[before.length]? = some t := by simp
    obtain ⟨r, hr, hsel⟩ := hselect t
    obtain ⟨rows, hrows, hge, hexact, hordered, hfields, hnearest⟩ := ih (before ++ [t])
    rw [length_append, length_singleton] at hrows hge hexact
    rw [← hassoc] at hexact hfields
    -- the rows behind are those of the induction; this time adds one or none
    cases r with
    | none =>
      refine ⟨rows, ?_, fun row hrow => by have := hge row hrow; omega, fun i hi => ?_, hordered, hfields,
        hnearest⟩
      · rw [joinRows, hr]
        exact hrows
      · rcases Nat.eq_or_lt_of_le hi with rfl | hlt
        · constructor
          · rintro ⟨row, hrow, heq⟩
            have := hge row hrow
            omega
          · rintro ⟨t', ht', k, b, hb, hle⟩
            obtain rfl : t = t' := Option.some.inj (hhead.symm.trans ht')
            exact absurd (hsel k b hb) (not_lt.mpr hle)
        · exact hexact i hlt
    | some p =>
      obtain ⟨index, difference⟩ := p
      obtain ⟨hnear, hmax, a, ha, hd⟩ := hsel
      refine ⟨⟨before.length, t, index, a, difference⟩ :: rows, ?_, ?_, fun i hi => ?_, ?_, ?_, ?_⟩
      · rw [joinRows, hr]
        simp only [bind, Except.bind, item_of_getElem? ha, hrows]
        rfl
      · rintro row (_ | ⟨_, hrow⟩)
        · exact le_rfl
        · have := hge row hrow
          omega
      · rcases Nat.eq_or_lt_of_le hi with rfl | hlt
        · exact ⟨fun _ => ⟨t, hhead, index, a, ha, hd ▸ hmax⟩, fun _ => ⟨_, mem_cons_self, rfl⟩⟩
        · rw [← hexact i hlt]
          constructor
          · rintro ⟨row, _ | ⟨_, hrow⟩, heq⟩
            · exact absurd heq (Nat.ne_of_lt hlt)
            · exact ⟨row, hrow, heq⟩
          · rintro ⟨row, hrow, heq⟩
            exact ⟨row, mem_cons_of_mem _ hrow, heq⟩
      · exact pairwise_cons.mpr ⟨fun row hrow => hge row hrow, hordered⟩
      · rintro row (_ | ⟨_, hrow⟩)
        · exact ⟨hhead, ha, hd⟩
        · exact hfields row hrow
      · rintro row (_ | ⟨_, hrow⟩)
        · exact hnear
        · exact hnearest row hrow

theorem joinRows_nearestRows {select : ℤ → Except Error (Option (Nat × ℤ))}
    (hselect : ∀ t, ∃ r, select t = .ok r ∧ Selects groundTruth t r) (estimator : List ℤ) :
    ∃ rows, joinRows groundTruth select 0 estimator = .ok rows ∧ NearestRows estimator groundTruth rows := by
  obtain ⟨rows, hrows, -, hexact, hordered, hfields, hnearest⟩ := joinRows_spec hselect estimator []
  exact ⟨rows, hrows, fun i => hexact i (Nat.zero_le i), hordered, hfields, hnearest⟩

theorem joinRows_congr {select select' : ℤ → Except Error (Option (Nat × ℤ))}
    (hselect : ∀ t, ∃ r, select t = .ok r ∧ Selects groundTruth t r)
    (hselect' : ∀ t, ∃ r, select' t = .ok r ∧ Selects groundTruth t r) (i : Nat) (ts : List ℤ) :
    joinRows groundTruth select i ts = joinRows groundTruth select' i ts := by
  have hsame : select = select' := by
    funext t
    obtain ⟨r, hr, h⟩ := hselect t
    obtain ⟨r', hr', h'⟩ := hselect' t
    rw [hr, hr', h.unique h']
  rw [hsame]

/-! ## By bisection -/

/-- The rows that are looked at: the first of the entries just below the timestamp, and the one at the
insertion point. -/
def candidates (first : ℤ → Except Error Nat) (groundTruth : List ℤ) (insertion : Nat) : Except Error (List Nat) := do
  let lower ← if 0 < insertion then do
      let value ← item groundTruth (insertion - 1)
      let index ← first value
      pure [index]
    else pure []
  return lower ++ if insertion < groundTruth.length then [insertion] else []

/-- The best index, `-1` before there is one, and its distance. -/
structure Best where
  index : ℤ
  difference : ℤ

def improve (groundTruth : List ℤ) (timestamp : ℤ) (best : Best) (candidate : Nat) : Except Error Best := do
  let stamp ← item groundTruth candidate
  let difference := |timestamp - stamp|
  return if difference < best.difference then ⟨candidate, difference⟩ else best

/-- One estimator row of `associate_nearest_ground_truth`. -/
def selectByBisection (groundTruth : List ℤ) (timestamp : ℤ) : Except Error (Option (Nat × ℤ)) := do
  let rows ← candidates (fun value => pure (bisectLeft groundTruth value)) groundTruth
    (bisectLeft groundTruth timestamp)
  let best ← rows.foldlM (improve groundTruth timestamp) ⟨-1, u64Max⟩
  return if 0 ≤ best.index ∧ best.difference ≤ groundTruthMaxDifferenceNs then
    some (best.index.toNat, best.difference) else none

def associateNearestGroundTruth (estimator groundTruth : List ℤ) : Except Error (List TimestampAssociation) := do
  let estimator ← timestamps "estimator shared" estimator
  let groundTruth ← groundTruthTimestamps groundTruth
  if groundTruth = [] ∧ estimator ≠ [] then
    .error (.sequenceMathError "ground-truth timestamp population is empty")
  else joinRows groundTruth (selectByBisection groundTruth) 0 estimator

/-! ## By halving an interval -/

/-- The loop that halves `[low, high)`. -/
def lowerBound (groundTruth : List ℤ) (timestamp : ℤ) (low high : Nat) : Except Error Nat :=
  if low < high then do
    let middle := (low + high) / 2
    let value ← item groundTruth middle
    if value < timestamp then lowerBound groundTruth timestamp (middle + 1) high
    else lowerBound groundTruth timestamp low middle
  else return low
termination_by high - low

/-- `min` with the key (distance, index) over the candidates behind the first. -/
def minByKey (groundTruth : List ℤ) (timestamp : ℤ) : Nat → List Nat → Except Error Nat
  | best, [] => return best
  | best, candidate :: rest => do
    let bestStamp ← item groundTruth best
    let stamp ← item groundTruth candidate
    if |stamp - timestamp| < |bestStamp - timestamp| ∨
        |stamp - timestamp| = |bestStamp - timestamp| ∧ candidate < best then
      minByKey groundTruth timestamp candidate rest
    else minByKey groundTruth timestamp best rest

/-- One estimator row of `_nearest_associations`. -/
def selectByHalving (groundTruth : List ℤ) (timestamp : ℤ) : Except Error (Option (Nat × ℤ)) := do
  let low ← lowerBound groundTruth timestamp 0 groundTruth.length
  let rows ← candidates (fun value => lowerBound groundTruth value 0 low) groundTruth low
  match rows with
  | [] => .error .valueError
  | first :: rest => do
    let index ← minByKey groundTruth timestamp first rest
    let stamp ← item groundTruth index
    let delta := |stamp - timestamp|
    return if delta ≤ groundTruthMaxDifferenceNs then some (index, delta) else none

def nearestAssociations (estimator groundTruth : List ℤ) : Except Error (List TimestampAssociation) :=
  if groundTruth = [] then return []
  else joinRows groundTruth (selectByHalving groundTruth) 0 estimator

/-! ## The two rows are enough -/

/-- The candidates come in increasing order and one of them comes not after any row of the list. -/
structure Covers (groundTruth : List ℤ) (timestamp : ℤ) (rows : List Nat) : Prop where
  increasing : rows.Pairwise (· < ·)
  present : ∀ c ∈ rows, ∃ a, groundTruth[c]? = some a
  cover : ∀ (k : Nat) (b : ℤ), groundTruth[k]? = some b →
    ∃ c ∈ rows, ∃ a, groundTruth[c]? = some a ∧ NotAfter timestamp a c b k

section Candidates

variable {groundTruth : List ℤ} {timestamp : ℤ}

theorem bisectLeft_le_pred (hs : groundTruth.Pairwise (· ≤ ·)) {i : Nat} {a : ℤ} (hpos : 0 < i)
    (ha : groundTruth[i - 1]? = some a) : bisectLeft groundTruth a < i := by
  by_contra hnot
  exact absurd ((isLowerBound_bisectLeft hs a).below (i - 1) a ha (by omega)) (lt_irrefl a)

theorem candidates_covers (hs : groundTruth.Pairwise (· ≤ ·)) (first : ℤ → Except Error Nat) {i : Nat}
    (hi : IsLowerBound groundTruth timestamp i)
    (hfirst : ∀ a, 0 < i → groundTruth[i - 1]? = some a → first a = .ok (bisectLeft groundTruth a)) :
    ∃ rows, candidates first groundTruth i = .ok rows ∧ Covers groundTruth timestamp rows := by
  -- The row at the insertion point, when there is one.
  have hlast : ∀ c ∈ (if i < groundTruth.length then [i] else []),
      c = i ∧ ∃ a, groundTruth[c]? = some a := by
    intro c hc
    split_ifs at hc with hlen
    · obtain rfl := mem_singleton.mp hc
      exact ⟨rfl, _, getElem?_eq_getElem hlen⟩
    · exact absurd hc (not_mem_nil)
  have hsingle : (if i < groundTruth.length then [i] else []).Pairwise (· < ·) := by
    split_ifs
    · exact pairwise_singleton _ _
    · exact List.Pairwise.nil
  by_cases hpos : 0 < i
  · have hlen : i - 1 < groundTruth.length := by have := hi.le_length; omega
    have hget : groundTruth[i - 1]? = some groundTruth[i - 1] := getElem?_eq_getElem hlen
    refine ⟨[bisectLeft groundTruth groundTruth[i - 1]] ++ if i < groundTruth.length then [i] else [], ?_, ?_⟩
    · simp only [candidates, if_pos hpos, item_of_getElem? hget, bind, Except.bind, hfirst _ hpos hget]
      rfl
    have hlt := bisectLeft_le_pred hs hpos hget
    refine ⟨?_, ?_, fun k b hb => ?_⟩
    · refine pairwise_append.mpr ⟨pairwise_singleton _ _, hsingle, fun c hc d hd => ?_⟩
      obtain rfl := mem_singleton.mp hc
      rw [(hlast d hd).1]
      exact hlt
    · intro c hc
      rcases mem_append.mp hc with hc | hc
      · obtain rfl := mem_singleton.mp hc
        exact ⟨_, getElem?_eq_getElem (by omega : bisectLeft groundTruth groundTruth[i - 1] < groundTruth.length)⟩
      · exact (hlast c hc).2
    · rcases exists_candidate hs hi hb with ⟨a, -, ha, hfirst', hle⟩ | ⟨a, hilen, ha, hle⟩
      · obtain rfl : groundTruth[i - 1] = a := Option.some.inj (hget.symm.trans ha)
        exact ⟨_, mem_append_left _ mem_cons_self, _, hfirst', hle⟩
      · refine ⟨i, mem_append_right _ ?_, a, ha, hle⟩
        rw [if_pos hilen]
        exact mem_cons_self
  · refine ⟨if i < groundTruth.length then [i] else [], ?_, hsingle, fun c hc => (hlast c hc).2,
      fun k b hb => ?_⟩
    · simp only [candidates, if_neg hpos]
      rfl
    · rcases exists_candidate hs hi hb with ⟨a, hpos', -⟩ | ⟨a, hilen, ha, hle⟩
      · exact absurd hpos' hpos
      · refine ⟨i, ?_, a, ha, hle⟩
        rw [if_pos hilen]
        exact mem_cons_self

theorem Covers.isNearest {rows : List Nat} (h : Covers groundTruth timestamp rows) {c : Nat} {a : ℤ}
    (ha : groundTruth[c]? = some a)
    (hleast : ∀ d ∈ rows, ∀ b, groundTruth[d]? = some b → NotAfter timestamp a c b d) :
    IsNearest groundTruth timestamp c := by
  refine ⟨a, ha, fun k b hb => ?_⟩
  obtain ⟨d, hd, x, hx, hle⟩ := h.cover k b hb
  exact (hleast d hd x hx).trans hle

/-! ### The strict improvement -/

/-- What the loop has found behind the candidates `visited`. -/
def Found (groundTruth : List ℤ) (timestamp : ℤ) (visited : List Nat) (best : Best) : Prop :=
  (best.index = -1 ∧ best.difference = u64Max ∧
      ∀ d ∈ visited, ∀ b, groundTruth[d]? = some b → u64Max ≤ |timestamp - b|) ∨
    ∃ c ∈ visited, ∃ a, best.index = (c : Nat) ∧ best.difference = |timestamp - a| ∧ groundTruth[c]? = some a ∧
      ∀ d ∈ visited, ∀ b, groundTruth[d]? = some b → NotAfter timestamp a c b d

theorem improve_found {visited : List Nat} {best : Best} {c : Nat} {a : ℤ}
    (h : Found groundTruth timestamp visited best) (ha : groundTruth[c]? = some a)
    (hlt : ∀ d ∈ visited, d < c) :
    ∃ best', improve groundTruth timestamp best c = .ok best' ∧
      Found groundTruth timestamp (visited ++ [c]) best' := by
  have hvisit : ∀ {P : Nat → ℤ → Prop}, (∀ d ∈ visited, ∀ b, groundTruth[d]? = some b → P d b) → P c a →
      ∀ d ∈ visited ++ [c], ∀ b, groundTruth[d]? = some b → P d b := by
    intro P hold hnew d hd b hb
    rcases mem_append.mp hd with hd | hd
    · exact hold d hd b hb
    · obtain rfl := mem_singleton.mp hd
      obtain rfl : a = b := Option.some.inj (ha.symm.trans hb)
      exact hnew
  refine ⟨_, by simp only [improve, item_of_getElem? ha, bind, Except.bind]; rfl, ?_⟩
  split_ifs with hbetter
  · -- The new candidate is strictly nearer than all before it.
    refine .inr ⟨c, mem_append_right _ mem_cons_self, a, rfl, rfl, ha,
      hvisit (fun d hd b hb => ?_) (.inr ⟨rfl, le_rfl⟩)⟩
    rcases h with ⟨-, hmax, hfar⟩ | ⟨x, -, y, -, hdiff, -, hleast⟩
    · exact .inl (lt_of_lt_of_le (hmax ▸ hbetter) (hfar d hd b hb))
    · rw [hdiff] at hbetter
      rcases hleast d hd b hb with hlt' | ⟨heq, -⟩
      · exact .inl (lt_trans hbetter hlt')
      · exact .inl (heq ▸ hbetter)
  · rcases h with ⟨hindex, hmax, hfar⟩ | ⟨x, hx, y, hindex, hdiff, hy, hleast⟩
    · refine .inl ⟨hindex, hmax, hvisit hfar ?_⟩
      rw [← hmax]
      exact not_lt.mp hbetter
    · refine .inr ⟨x, mem_append_left _ hx, y, hindex, hdiff, hy, hvisit hleast ?_⟩
      rw [hdiff, not_lt] at hbetter
      rcases lt_or_eq_of_le hbetter with hlt' | heq
      · exact .inl hlt'
      · exact .inr ⟨heq, (hlt x hx).le⟩

theorem foldlM_improve_found : ∀ (rows visited : List Nat) (best : Best),
    Found groundTruth timestamp visited best → (∀ c ∈ rows, ∃ a, groundTruth[c]? = some a) →
      (visited ++ rows).Pairwise (· < ·) →
      ∃ best', rows.foldlM (improve groundTruth timestamp) best = .ok best' ∧
        Found groundTruth timestamp (visited ++ rows) best' := by
  intro rows
  induction rows with
  | nil => exact fun visited best h _ _ => ⟨best, rfl, by rwa [append_nil]⟩
  | cons c rows ih =>
    intro visited best h hpresent hsorted
    obtain ⟨a, ha⟩ := hpresent c mem_cons_self
    have hlt : ∀ d ∈ visited, d < c := fun d hd =>
      (pairwise_append.mp hsorted).2.2 d hd c mem_cons_self
    obtain ⟨best', hbest', hfound⟩ := improve_found h ha hlt
    have hassoc : visited ++ c :: rows = (visited ++ [c]) ++ rows := by simp
    rw [hassoc] at hsorted ⊢
    obtain ⟨best'', hbest'', hfound'⟩ :=
      ih (visited ++ [c]) best' hfound (fun d hd => hpresent d (mem_cons_of_mem _ hd)) hsorted
    exact ⟨best'', by rw [foldlM_cons, hbest']; exact hbest'', hfound'⟩

theorem selectByBisection_selects (hs : groundTruth.Pairwise (· ≤ ·)) (timestamp : ℤ) :
    ∃ r, selectByBisection groundTruth timestamp = .ok r ∧ Selects groundTruth timestamp r := by
  obtain ⟨rows, hrows, hcovers⟩ := candidates_covers hs (fun value => pure (bisectLeft groundTruth value))
    (isLowerBound_bisectLeft hs timestamp) fun _ _ _ => rfl
  have hstart : Found groundTruth timestamp [] ⟨-1, u64Max⟩ := .inl ⟨rfl, rfl, nofun⟩
  obtain ⟨best, hbest, hfound⟩ := foldlM_improve_found rows [] _ hstart hcovers.present hcovers.increasing
  rw [nil_append] at hfound
  refine ⟨_, by simp only [selectByBisection, hrows, hbest, bind, Except.bind]; rfl, ?_⟩
  rcases hfound with ⟨hindex, hmax, hfar⟩ | ⟨c, hc, a, hindex, hdiff, ha, hleast⟩
  · rw [if_neg (by rw [hindex]; omega)]
    intro k b hb
    obtain ⟨d, hd, x, hx, hle⟩ := hcovers.cover k b hb
    have hmany := hfar d hd x hx
    unfold NotAfter at hle
    unfold u64Max at hmany
    unfold groundTruthMaxDifferenceNs
    omega
  · have hnearest := hcovers.isNearest ha hleast
    split_ifs with hnear
    · rw [hindex, Int.toNat_natCast]
      exact ⟨hnearest, hnear.2, a, ha, hdiff⟩
    · intro k b hb
      have hpos : 0 ≤ best.index := by omega
      have hfar : groundTruthMaxDifferenceNs < best.difference := not_le.mp fun h => hnear ⟨hpos, h⟩
      obtain ⟨x, hx, hle⟩ := hnearest
      obtain rfl : a = x := Option.some.inj (ha.symm.trans hx)
      have := hle k b hb
      unfold NotAfter at this
      omega

/-! ### The halved interval -/

theorem lowerBound_isLowerBound (hs : groundTruth.Pairwise (· ≤ ·)) (value : ℤ) {low high : Nat}
    (hle : low ≤ high) (hlen : high ≤ groundTruth.length)
    (hbelow : ∀ j a, groundTruth[j]? = some a → j < low → a < value)
    (habove : ∀ j a, groundTruth[j]? = some a → high ≤ j → value ≤ a) :
    ∃ i, lowerBound groundTruth value low high = .ok i ∧ IsLowerBound groundTruth value i := by
  induction hspan : high - low using Nat.strong_induction_on generalizing low high with
  | _ span ih =>
    rw [lowerBound]
    split_ifs with hlt
    · have hmid : (low + high) / 2 < groundTruth.length := by omega
      have hget : groundTruth[(low + high) / 2]? = some groundTruth[(low + high) / 2] :=
        getElem?_eq_getElem hmid
      simp only [item_of_getElem? hget, bind, Except.bind]
      split_ifs with hcmp
      · refine ih (high - ((low + high) / 2 + 1)) (by omega) (by omega) hlen (fun j a ha hj => ?_) habove rfl
        exact lt_of_le_of_lt (sorted_getElem? hs ha hget (by omega)) hcmp
      · refine ih ((low + high) / 2 - low) (by omega) (by omega) (by omega) hbelow (fun j a ha hj => ?_) rfl
        exact le_trans (not_lt.mp hcmp) (sorted_getElem? hs hget ha hj)
    · obtain rfl : low = high := by omega
      exact ⟨low, rfl, hlen, hbelow, habove⟩

theorem minByKey_least : ∀ (rest visited : List Nat) (best : Nat) (a : ℤ),
    groundTruth[best]? = some a → (∀ c ∈ rest, ∃ b, groundTruth[c]? = some b) →
      (∀ d ∈ visited, ∀ b, groundTruth[d]? = some b → NotAfter timestamp a best b d) →
      ∃ c x, minByKey groundTruth timestamp best rest = .ok c ∧ groundTruth[c]? = some x ∧
        ∀ d ∈ visited ++ rest, ∀ b, groundTruth[d]? = some b → NotAfter timestamp x c b d := by
  intro rest
  induction rest with
  | nil => exact fun visited best a ha _ hleast => ⟨best, a, rfl, ha, by rwa [append_nil]⟩
  | cons c rest ih =>
    intro visited best a ha hpresent hleast
    obtain ⟨b, hb⟩ := hpresent c mem_cons_self
    have hrest : ∀ d ∈ rest, ∃ b, groundTruth[d]? = some b := fun d hd =>
      hpresent d (mem_cons_of_mem _ hd)
    have hassoc : visited ++ c :: rest = (visited ++ [c]) ++ rest := by simp
    rw [minByKey, hassoc]
    simp only [item_of_getElem? ha, item_of_getElem? hb, bind, Except.bind, abs_sub_comm _ timestamp]
    -- The loop goes on with the smaller of the two keys.
    have hvisit : ∀ {y : ℤ} {n : Nat}, NotAfter timestamp y n a best → NotAfter timestamp y n b c →
        ∀ d ∈ visited ++ [c], ∀ z, groundTruth[d]? = some z → NotAfter timestamp y n z d := by
      intro y n hbest hc d hd z hz
      rcases mem_append.mp hd with hd | hd
      · exact hbest.trans (hleast d hd z hz)
      · obtain rfl := mem_singleton.mp hd
        obtain rfl : b = z := Option.some.inj (hb.symm.trans hz)
        exact hc
    split_ifs with hcmp
    · refine ih (visited ++ [c]) c b hb hrest (hvisit ?_ (.inr ⟨rfl, le_rfl⟩))
      exact hcmp.imp id fun h => ⟨h.1, h.2.le⟩
    · refine ih (visited ++ [c]) best a ha hrest (hvisit (.inr ⟨rfl, le_rfl⟩) ?_)
      unfold NotAfter
      omega

theorem selectByHalving_selects (hs : groundTruth.Pairwise (· ≤ ·)) (hne : groundTruth ≠ []) (timestamp : ℤ) :
    ∃ r, selectByHalving groundTruth timestamp = .ok r ∧ Selects groundTruth timestamp r := by
  have hend : ∀ {v : ℤ} (j : Nat) (a : ℤ), groundTruth[j]? = some a → groundTruth.length ≤ j → v ≤ a := by
    intro v j a ha hj
    rw [getElem?_eq_none hj] at ha
    exact absurd ha nofun
  obtain ⟨low, hlow, hbound⟩ := lowerBound_isLowerBound hs timestamp (Nat.zero_le groundTruth.length)
    le_rfl (fun j a _ hj => absurd hj (Nat.not_lt_zero j)) hend
  obtain ⟨rows, hrows, hcovers⟩ := candidates_covers hs (fun value => lowerBound groundTruth value 0 low)
    hbound (by
      intro a hpos ha
      obtain ⟨i, hi, hfirst⟩ := lowerBound_isLowerBound hs a (Nat.zero_le low) hbound.le_length
        (fun j b _ hj => absurd hj (Nat.not_lt_zero j)) fun j b hb hj => sorted_getElem? hs ha hb (by omega)
      rw [hi, hfirst.unique (isLowerBound_bisectLeft hs a)])
  cases rows with
  | nil =>
    have hget : groundTruth[0]? = some (groundTruth.head hne) := by
      rw [← head?_eq_getElem?, head?_eq_some_head hne]
    obtain ⟨c, hc, -⟩ := hcovers.cover 0 _ hget
    exact absurd hc (not_mem_nil)
  | cons first rest =>
    obtain ⟨a, ha⟩ := hcovers.present first mem_cons_self
    have hself : ∀ d ∈ [first], ∀ b, groundTruth[d]? = some b → NotAfter timestamp a first b d := by
      intro d hd b hb
      obtain rfl := mem_singleton.mp hd
      obtain rfl : a = b := Option.some.inj (ha.symm.trans hb)
      exact .inr ⟨rfl, le_rfl⟩
    obtain ⟨c, x, hmin, hx, hleast⟩ := minByKey_least rest [first] first a ha
      (fun d hd => hcovers.present d (mem_cons_of_mem _ hd)) hself
    have hnearest := hcovers.isNearest hx hleast
    refine ⟨_, by
      simp only [selectByHalving, hlow, hrows, hmin, item_of_getElem? hx, bind, Except.bind,
        abs_sub_comm x timestamp]
      rfl, ?_⟩
    split_ifs with hnear
    · exact ⟨hnearest, hnear, x, hx, rfl⟩
    · intro k b hb
      obtain ⟨y, hy, hle⟩ := hnearest
      obtain rfl : x = y := Option.some.inj (hx.symm.trans hy)
      have := hle k b hb
      unfold NotAfter at this
      omega

end Candidates

/-! ## The two implementations -/

section Implementations

variable {estimator groundTruth : List ℤ}

theorem associateNearestGroundTruth_spec (he : Increasing estimator) (hg : Nondecreasing groundTruth)
    (hne : groundTruth ≠ []) :
    ∃ rows, associateNearestGroundTruth estimator groundTruth = .ok rows ∧
      NearestRows estimator groundTruth rows := by
  obtain ⟨rows, hrows, hspec⟩ :=
    joinRows_nearestRows (selectByBisection_selects hg.sorted) estimator
  refine ⟨rows, ?_, hspec⟩
  simp only [associateNearestGroundTruth, timestamps_eq_ok he, groundTruthTimestamps_eq_ok hg, bind, Except.bind]
  rw [if_neg fun h => hne h.1]
  exact hrows

theorem associateNearestGroundTruth_nil (he : Increasing estimator) (hne : estimator ≠ []) :
    associateNearestGroundTruth estimator [] =
      .error (.sequenceMathError "ground-truth timestamp population is empty") := by
  simp only [associateNearestGroundTruth, timestamps_eq_ok he, bind, Except.bind,
    groundTruthTimestamps_eq_ok (⟨nofun, List.Pairwise.nil⟩ : Nondecreasing [])]
  rw [if_pos ⟨trivial, hne⟩]

theorem nearestAssociations_eq (he : Increasing estimator) (hg : Nondecreasing groundTruth)
    (hne : groundTruth ≠ []) :
    nearestAssociations estimator groundTruth = associateNearestGroundTruth estimator groundTruth := by
  simp only [associateNearestGroundTruth, timestamps_eq_ok he, groundTruthTimestamps_eq_ok hg, bind, Except.bind]
  rw [nearestAssociations, if_neg hne, if_neg fun h => hne h.1]
  exact joinRows_congr (selectByHalving_selects hg.sorted hne) (selectByBisection_selects hg.sorted) 0 estimator

theorem sharedTimestampIntersection_eq {nullspace schur : List ℤ} (hn : Increasing nullspace)
    (hs : Increasing schur) : sharedTimestampIntersection nullspace schur = .ok (shared nullspace schur) := by
  simp only [sharedTimestampIntersection, timestamps_eq_ok hn, timestamps_eq_ok hs, bind, Except.bind]
  rfl

end Implementations

end Bravo.Sequence
