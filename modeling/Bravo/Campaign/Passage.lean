import Mathlib.Data.Finset.Sort
import Mathlib.Data.List.AList
import Mathlib.Tactic

/-! # The passage verdict

`mechanical_passage_summary` of `cross_dataset_aggregate.py`. The label is decided from counts over all pairs
and a flag that the loop sets; it is the comparison of the pairs themselves.
-/

namespace Bravo.Passage

open List

/-! ## The code -/

/-- A value of a scored cell. Of one that is neither a Boolean, an integer nor a string, which is hashable,
only the truth value is read. -/
inductive Value
  | none
  | bool (b : Bool)
  | int (n : Int)
  | str (s : String)
  | other (truth : Bool)
deriving DecidableEq

/-- `bool(value)` -/
def Value.truth : Value → Bool
  | .none => false
  | .bool b => b
  | .int n => n ≠ 0
  | .str s => s ≠ ""
  | .other truth => truth

inductive System
  | U0 | S1
deriving DecidableEq

/-- What `get` returns for the keys that are read. -/
structure Cell where
  order : Value
  system : Value
  evidenceValidity : Value
  passageComplete : Value
  dataset : Value
deriving DecidableEq

inductive Label
  | PASSAGE_UNASSESSABLE | PASSAGE_REGRESSION | PASSAGE_DOMINANT | PASSAGE_PARITY | PASSAGE_MIXED
deriving DecidableEq

def DATASETS : List String := ["euroc_mav", "tum_vi", "kaist_vio"]

def passageLabelFromFacts (evidenceComplete hasU0CompleteS1Incomplete : Bool)
    (datasetCounts : String → System → Nat) (overall : System → Nat) : Label :=
  if !evidenceComplete then .PASSAGE_UNASSESSABLE
  else if hasU0CompleteS1Incomplete then .PASSAGE_REGRESSION
  else if (∀ name ∈ DATASETS, datasetCounts name .U0 ≤ datasetCounts name .S1) ∧
      overall .U0 < overall .S1 then .PASSAGE_DOMINANT
  else if (∀ name ∈ DATASETS, datasetCounts name .S1 = datasetCounts name .U0) ∧
      overall .S1 = overall .U0 then .PASSAGE_PARITY
  else .PASSAGE_MIXED

/-- The place of a cell, if its order is an integer and its system one of `SYSTEMS`. -/
def Cell.key (cell : Cell) : Option (Int × System) :=
  match cell.order, cell.system with
  | .int order, .str "U0" => some (order, .U0)
  | .int order, .str "S1" => some (order, .S1)
  | _, _ => none

/-- `grouped`, the cells by their places. -/
abbrev Grouped := AList fun _ : Int × System => Cell

/-- `sorted(grouped)` -/
def Grouped.orders (g : Grouped) : List Int := (g.keys.map (·.1)).toFinset.sort

def group : List Cell → Grouped → Except String Grouped
  | [], g => .ok g
  | cell :: rest, g =>
    match cell.key with
    | none => .error "MALFORMED_CELL_SET"
    | some place => if place ∈ g then .error "DUPLICATE_CELL" else group rest (g.insert place cell)

def Cell.valid (cell : Cell) : Bool :=
  cell.evidenceValidity = .str "VALID" && match cell.passageComplete with | .bool _ => true | _ => false

section Pairs

variable (cellAt : Int × System → Option Cell)

/-- `evidence_complete` before the second loop; the order of the pairs does not matter to it. -/
def evidenceComplete (orders : List Int) (expectedPairCount : Int) : Bool :=
  orders.length = expectedPairCount &&
    (orders.all fun o => (cellAt (o, .U0)).isSome && (cellAt (o, .S1)).isSome) &&
    orders.all fun o => (cellAt (o, .U0)).all (·.valid) && (cellAt (o, .S1)).all (·.valid)

inductive PairState
  | lacking
  | inconsistent
  | counted (dataset : String) (complete : System → Bool)

def pairState (order : Int) : PairState :=
  match cellAt (order, .U0), cellAt (order, .S1) with
  | some u0, some s1 =>
    match u0.dataset with
    | .str dataset =>
      if dataset ∈ DATASETS ∧ s1.dataset = .str dataset then
        .counted dataset fun
          | .U0 => u0.passageComplete.truth
          | .S1 => s1.passageComplete.truth
      else .inconsistent
    | _ => .inconsistent
  | _, _ => .lacking

structure Totals where
  evidenceComplete : Bool
  counts : String → System → Nat := fun _ _ => 0
  overall : System → Nat := fun _ => 0
  discordances : List (Int × String × System) := []
  hasRegression : Bool := false

def tally (t : Totals) (order : Int) : Totals :=
  match pairState cellAt order with
  | .lacking => t
  | .inconsistent => { t with evidenceComplete := false }
  | .counted dataset complete =>
    let counted : Totals :=
      { t with
        counts := fun d s => t.counts d s + (decide (d = dataset) && complete s).toNat
        overall := fun s => t.overall s + (complete s).toNat }
    if complete .U0 ≠ complete .S1 then
      let direction : System := if complete .U0 then .U0 else .S1
      { counted with
        discordances := t.discordances ++ [(order, dataset, direction)]
        hasRegression := t.hasRegression || decide (direction = .U0) }
    else counted

structure Counted extends Totals where
  label : Label
  scheduledPairCount : Int
  u0CompleteS1IncompleteCount : Nat
  s1CompleteU0IncompleteCount : Nat
  s1LocalPassage25Of25 : Bool

def summarize (orders : List Int) (expectedPairCount : Int) : Counted :=
  let t := orders.foldl (tally cellAt) { evidenceComplete := evidenceComplete cellAt orders expectedPairCount }
  { toTotals := t
    label := passageLabelFromFacts t.evidenceComplete t.hasRegression t.counts t.overall
    scheduledPairCount := expectedPairCount
    u0CompleteS1IncompleteCount := t.discordances.countP fun item => item.2.2 = .U0
    s1CompleteU0IncompleteCount := t.discordances.countP fun item => item.2.2 = .S1
    s1LocalPassage25Of25 := expectedPairCount = 25 && t.evidenceComplete && t.overall .S1 = 25 }

end Pairs

/-- The label, and the rest of the summary unless the cells are malformed. -/
inductive Summary
  | refused (reason : String)
  | counted (c : Counted)

def Summary.label : Summary → Label
  | .refused _ => .PASSAGE_UNASSESSABLE
  | .counted c => c.label

def mechanicalPassageSummary (scoredCells : List Cell) (expectedPairCount : Int) : Summary :=
  match group scoredCells ∅ with
  | .error reason => .refused reason
  | .ok g => .counted (summarize g.lookup g.orders expectedPairCount)

/-! ## The loops -/

def Placed (cells : List Cell) : Prop := none ∉ cells.map (·.key) ∧ (cells.map (·.key)).Nodup

structure Groups (cells : List Cell) (g : Grouped) : Prop where
  placed : Placed cells
  lookup : ∀ place c, g.lookup place = some c ↔ c ∈ cells ∧ c.key = some place

theorem group_spec (rest : List Cell) {done : List Cell} {g : Grouped} (h : Groups done g) :
    match group rest g with
    | .ok g' => Groups (done ++ rest) g'
    | .error _ => ¬ Placed (done ++ rest) := by
  induction rest generalizing done g with
  | nil => simpa [group] using h
  | cons cell rest ih =>
    rw [group]
    cases hkey : cell.key with
    | none => exact fun hplaced => hplaced.1 (by simp [hkey])
    | some place =>
      dsimp only
      split_ifs with hmem
      · rintro ⟨-, hnodup⟩
        obtain ⟨other, hother⟩ := Option.isSome_iff_exists.mp (AList.lookup_isSome.mpr hmem)
        obtain ⟨hother, hkey'⟩ := (h.lookup _ _).mp hother
        rw [map_append, nodup_append] at hnodup
        exact hnodup.2.2 _ (mem_map_of_mem hother) _ (by simp) (hkey'.trans hkey.symm)
      · have hnew : ∀ c ∈ done, c.key ≠ some place := fun c hc hk =>
          hmem (AList.lookup_isSome.mp (by rw [(h.lookup _ _).mpr ⟨hc, hk⟩]; rfl))
        have hstep : Groups (done ++ [cell]) (g.insert place cell) := by
          refine ⟨⟨by simpa [hkey] using h.placed.1, ?_⟩, fun place' c => ?_⟩
          · rw [map_append, nodup_append]
            refine ⟨h.placed.2, by simp, ?_⟩
            simpa [hkey] using hnew
          · rw [mem_append, mem_singleton]
            by_cases heq : place' = place
            · rw [heq, AList.lookup_insert]
              constructor
              · rintro ⟨⟩
                exact ⟨.inr rfl, hkey⟩
              · rintro ⟨hc | rfl, hk⟩
                · exact absurd hk (hnew c hc)
                · rfl
            · rw [AList.lookup_insert_ne heq, h.lookup]
              refine and_congr_left fun hk => (or_iff_left ?_).symm
              rintro rfl
              exact heq (Option.some.inj (hk.symm.trans hkey))
        simpa using ih hstep

def System.other : System → System
  | .U0 => .S1
  | .S1 => .U0

def PairState.only (p : PairState) (s : System) : Bool :=
  match p with
  | .counted _ complete => complete s && !complete s.other
  | _ => false

def PairState.consistent : PairState → Bool
  | .inconsistent => false
  | _ => true

structure Tallied (cellAt : Int × System → Option Cell) (start : Bool) (os : List Int) (t : Totals) : Prop where
  evidence : t.evidenceComplete = (start && os.all fun o => (pairState cellAt o).consistent)
  regression : t.hasRegression = os.any fun o => (pairState cellAt o).only .U0
  only : ∀ s, t.discordances.countP (fun item => item.2.2 = s) = os.countP fun o => (pairState cellAt o).only s
  overall : ∀ s, t.overall s = (DATASETS.map fun d => t.counts d s).sum
  balance : t.overall .S1 + t.discordances.countP (fun item => item.2.2 = .U0) =
    t.overall .U0 + t.discordances.countP (fun item => item.2.2 = .S1)
  datasets : ∀ d, t.counts d .S1 + t.discordances.countP (fun item => item.2 = (d, .U0)) =
    t.counts d .U0 + t.discordances.countP (fun item => item.2 = (d, .S1))

variable {cellAt : Int × System → Option Cell}

theorem dataset_of_counted {o : Int} {dataset : String} {complete : System → Bool}
    (h : pairState cellAt o = .counted dataset complete) : dataset ∈ DATASETS := by
  unfold pairState at h
  split at h
  · split at h
    · split at h
      · rename_i hmem
        cases h
        exact hmem.1
      · cases h
    · cases h
  · cases h

theorem Tallied.step {start : Bool} {os : List Int} {t : Totals} (h : Tallied cellAt start os t)
    (o : Int) : Tallied cellAt start (os ++ [o]) (tally cellAt t o) := by
  obtain ⟨hevidence, hregression, honly, hoverall, hbalance, hdatasets⟩ := h
  unfold tally
  cases hp : pairState cellAt o with
  | lacking =>
    exact ⟨by simp [hevidence, hp, PairState.consistent], by simp [hregression, hp, PairState.only],
      by simp [honly, hp, PairState.only], hoverall, hbalance, hdatasets⟩
  | inconsistent =>
    exact ⟨by simp [hp, PairState.consistent], by simp [hregression, hp, PairState.only],
      by simp [honly, hp, PairState.only], hoverall, hbalance, hdatasets⟩
  | counted dataset complete =>
    have hsum : ∀ b : Bool, (DATASETS.map fun d => (decide (d = dataset) && b).toNat).sum = b.toNat := by
      have hmem := dataset_of_counted hp
      simp only [DATASETS, mem_cons, not_mem_nil, or_false] at hmem
      rcases hmem with rfl | rfl | rfl <;> decide
    have hoverall' : ∀ s, t.overall s + (complete s).toNat =
        (DATASETS.map fun d => t.counts d s + (decide (d = dataset) && complete s).toNat).sum := fun s => by
      rw [sum_map_add, hsum, hoverall]
    cases h0 : complete .U0 <;> cases h1 : complete .S1 <;>
      refine ⟨by simp [hevidence, hp, h0, h1, PairState.consistent],
        by simp [hregression, hp, h0, h1, PairState.only, System.other],
        fun s => by cases s <;> simp [honly, hp, h0, h1, PairState.only, System.other],
        by simpa [h0, h1] using hoverall', by simp [h0, h1]; omega, fun d => ?_⟩
    all_goals
      have hd := hdatasets d
      by_cases heq : d = dataset
      · simp [h0, h1, heq] at hd ⊢
        omega
      · simp [h0, h1, heq, Ne.symm heq] at hd ⊢
        omega

theorem tallied_foldl (start : Bool) (os : List Int) :
    Tallied cellAt start os (os.foldl (tally cellAt) { evidenceComplete := start }) := by
  induction os using List.reverseRecOn with
  | nil => exact ⟨by simp, rfl, fun _ => rfl, fun _ => by simp [DATASETS], rfl, fun _ => rfl⟩
  | append_singleton os o ih =>
    rw [foldl_append]
    exact ih.step o

theorem Tallied.label_eq {start : Bool} {os : List Int} {t : Totals} (h : Tallied cellAt start os t) :
    passageLabelFromFacts t.evidenceComplete t.hasRegression t.counts t.overall =
      if !t.evidenceComplete then .PASSAGE_UNASSESSABLE
      else if os.any fun o => (pairState cellAt o).only .U0 then .PASSAGE_REGRESSION
      else if os.any fun o => (pairState cellAt o).only .S1 then .PASSAGE_DOMINANT
      else .PASSAGE_PARITY := by
  have hnone : ∀ s d, (os.any fun o => (pairState cellAt o).only s) = false →
      t.discordances.countP (fun item => item.2.2 = s) = 0 ∧
        t.discordances.countP (fun item => item.2 = (d, s)) = 0 := by
    intro s d hany
    have hzero : t.discordances.countP (fun item => item.2.2 = s) = 0 := by
      rw [h.only, countP_eq_zero]
      simpa using hany
    refine ⟨hzero, Nat.le_zero.mp (hzero ▸ countP_mono_left fun item _ hitem => ?_)⟩
    simp_all
  unfold passageLabelFromFacts
  rw [h.regression]
  cases t.evidenceComplete with
  | false => rfl
  | true =>
    cases hU0 : os.any fun o => (pairState cellAt o).only .U0 with
    | true => rfl
    | false =>
      have hle : ∀ name ∈ DATASETS, t.counts name .U0 ≤ t.counts name .S1 := fun d _ => by
        have := (hnone .U0 d hU0).2
        have := h.datasets d
        omega
      have hover := h.balance
      rw [(hnone .U0 "" hU0).1] at hover
      -- without a pair that U0 alone completed, S1 is ahead or the two agree everywhere
      cases hS1 : os.any fun o => (pairState cellAt o).only .S1 with
      | true =>
        obtain ⟨o, ho, honly⟩ := any_eq_true.mp hS1
        have hpos : 0 < t.discordances.countP fun item => item.2.2 = .S1 := by
          rw [h.only]
          exact countP_pos_iff.mpr ⟨o, ho, honly⟩
        exact if_pos (And.intro hle (by omega))
      | false =>
        have hcounts : ∀ name ∈ DATASETS, t.counts name .S1 = t.counts name .U0 := fun d _ => by
          have := (hnone .U0 d hU0).2
          have := (hnone .S1 d hS1).2
          have := h.datasets d
          omega
        have := (hnone .S1 "" hS1).1
        simpa [show t.overall .S1 = t.overall .U0 by omega] using hcounts

/-! ## The pairs of the cells -/

def CompleteAt (cells : List Cell) (o : Int) (s : System) : Prop :=
  ∃ c ∈ cells, c.key = some (o, s) ∧ c.passageComplete = .bool true

def ordersOf (cells : List Cell) : Finset Int := ((cells.filterMap (·.key)).map (·.1)).toFinset

/-- No cell is malformed, double or without evidence, the pairs are as many as expected, and each has both
systems on one known dataset. -/
structure Assessable (cells : List Cell) (expectedPairCount : Int) : Prop where
  placed : Placed cells
  pairs : ((ordersOf cells).card : Int) = expectedPairCount
  valid : ∀ c ∈ cells, c.valid = true
  paired : ∀ o, (∃ s, ∃ c ∈ cells, c.key = some (o, s)) →
    ∃ d ∈ DATASETS, ∀ s, ∃ c ∈ cells, c.key = some (o, s) ∧ c.dataset = .str d

variable {cells : List Cell} {g : Grouped} {u0 s1 : Cell} {o : Int}

theorem dataset_of_consistent (hu0 : cellAt (o, .U0) = some u0) (hs1 : cellAt (o, .S1) = some s1)
    (h : (pairState cellAt o).consistent = true) :
    ∃ d ∈ DATASETS, u0.dataset = .str d ∧ s1.dataset = .str d := by
  simp only [pairState, hu0, hs1] at h
  split at h
  · rename_i d hd
    split at h
    · rename_i hmem
      exact ⟨d, hmem.1, hd, hmem.2⟩
    · cases h
  · cases h

theorem Groups.orders_eq (h : Groups cells g) : g.orders = (ordersOf cells).sort := by
  have hkeys : ∀ place, place ∈ g.keys ↔ ∃ c ∈ cells, c.key = some place := fun place => by
    rw [show place ∈ g.keys ↔ place ∈ g from Iff.rfl, ← AList.lookup_isSome, Option.isSome_iff_exists]
    simp only [h.lookup]
  unfold Grouped.orders
  congr 1
  ext o
  simp [ordersOf, hkeys]

theorem Groups.mem_orders (h : Groups cells g) : o ∈ g.orders ↔ ∃ s, ∃ c ∈ cells, c.key = some (o, s) := by
  rw [h.orders_eq]
  simp [ordersOf]

theorem complete_iff (h : Groups cells g) {c : Cell} {s : System} (hc : c ∈ cells) (hkey : c.key = some (o, s))
    (hvalid : c.valid = true) : c.passageComplete.truth = true ↔ CompleteAt cells o s := by
  have hbool : c.passageComplete.truth = true ↔ c.passageComplete = .bool true := by
    unfold Cell.valid at hvalid
    cases hp : c.passageComplete <;> simp_all [Value.truth]
  rw [hbool]
  refine ⟨fun htrue => ⟨c, hc, hkey, htrue⟩, ?_⟩
  rintro ⟨c', hc', hkey', htrue⟩
  -- a place has one cell
  have hsame := ((h.lookup _ _).mpr ⟨hc, hkey⟩).symm.trans ((h.lookup _ _).mpr ⟨hc', hkey'⟩)
  rwa [Option.some.inj hsame]

theorem Groups.pair (h : Groups cells g) {expected : Int} (ha : Assessable cells expected) (ho : o ∈ g.orders) :
    ∃ d complete, pairState g.lookup o = .counted d complete ∧
      ∀ s, complete s = true ↔ CompleteAt cells o s := by
  obtain ⟨d, hd, hcells⟩ := ha.paired o (h.mem_orders.mp ho)
  obtain ⟨u0, hu0, hk0, hd0⟩ := hcells .U0
  obtain ⟨s1, hs1, hk1, hd1⟩ := hcells .S1
  refine ⟨d, _, by simp [pairState, (h.lookup _ _).mpr ⟨hu0, hk0⟩, (h.lookup _ _).mpr ⟨hs1, hk1⟩, hd0, hd1, hd]; rfl,
    fun s => ?_⟩
  cases s with
  | U0 => exact complete_iff h hu0 hk0 (ha.valid u0 hu0)
  | S1 => exact complete_iff h hs1 hk1 (ha.valid s1 hs1)

theorem Groups.only_iff (h : Groups cells g) {expected : Int} (ha : Assessable cells expected) (s : System) :
    (g.orders.any fun o => (pairState g.lookup o).only s) = true ↔
      ∃ o, CompleteAt cells o s ∧ ¬ CompleteAt cells o s.other := by
  have hiff : ∀ o ∈ g.orders, (pairState g.lookup o).only s = true ↔
      CompleteAt cells o s ∧ ¬ CompleteAt cells o s.other := fun o ho => by
    obtain ⟨d, complete, hpair, hcomplete⟩ := h.pair ha ho
    rw [hpair, ← hcomplete, ← hcomplete]
    simp [PairState.only]
  rw [any_eq_true]
  refine exists_congr fun o => ⟨fun ⟨ho, honly⟩ => (hiff o ho).mp honly, fun honly => ?_⟩
  obtain ⟨c, hc, hkey, -⟩ := honly.1
  have ho := h.mem_orders.mpr ⟨s, c, hc, hkey⟩
  exact ⟨ho, (hiff o ho).mpr honly⟩

theorem Groups.evidence_iff (h : Groups cells g) (expected : Int) :
    (evidenceComplete g.lookup g.orders expected &&
      g.orders.all fun o => (pairState g.lookup o).consistent) = true ↔ Assessable cells expected := by
  have hlength : g.orders.length = (ordersOf cells).card := by rw [h.orders_eq, Finset.length_sort]
  simp only [evidenceComplete, Bool.and_eq_true, decide_eq_true_eq, all_eq_true, Option.isSome_iff_exists,
    hlength, Option.all_eq_true, h.lookup]
  constructor
  · rintro ⟨⟨⟨hpairs, hboth⟩, hvalid⟩, hconsistent⟩
    refine ⟨h.placed, hpairs, fun c hc => ?_, fun o ho => ?_⟩
    · obtain ⟨⟨o, s⟩, hkey⟩ := Option.ne_none_iff_exists'.mp fun hnone =>
        h.placed.1 (mem_map.mpr ⟨c, hc, hnone⟩)
      have ho := hvalid o (h.mem_orders.mpr ⟨s, c, hc, hkey⟩)
      cases s with
      | U0 => exact ho.1 c ⟨hc, hkey⟩
      | S1 => exact ho.2 c ⟨hc, hkey⟩
    · have ho := h.mem_orders.mpr ho
      obtain ⟨⟨u0, hu0⟩, s1, hs1⟩ := hboth o ho
      obtain ⟨d, hd, hu0d, hs1d⟩ := dataset_of_consistent ((h.lookup _ _).mpr hu0) ((h.lookup _ _).mpr hs1)
        (hconsistent o ho)
      refine ⟨d, hd, fun s' => ?_⟩
      cases s' with
      | U0 => exact ⟨u0, hu0.1, hu0.2, hu0d⟩
      | S1 => exact ⟨s1, hs1.1, hs1.2, hs1d⟩
  · intro ha
    refine ⟨⟨⟨ha.pairs, fun o ho => ?_⟩, fun o _ => ⟨fun c hc => ha.valid c hc.1, fun c hc => ha.valid c hc.1⟩⟩,
      fun o ho => ?_⟩
    · obtain ⟨d, -, hcells⟩ := ha.paired o (h.mem_orders.mp ho)
      exact ⟨(hcells .U0).imp fun c hc => ⟨hc.1, hc.2.1⟩, (hcells .S1).imp fun c hc => ⟨hc.1, hc.2.1⟩⟩
    · obtain ⟨d, complete, hpair, -⟩ := h.pair ha ho
      rw [hpair]
      rfl

/-! ## The verdict -/

theorem groups_nil : Groups [] ∅ := ⟨⟨by simp, by simp⟩, by simp⟩

theorem Placed.perm {cells' : List Cell} (h : Placed cells) (hperm : cells.Perm cells') : Placed cells' :=
  ⟨fun hnone => h.1 ((hperm.map _).mem_iff.mpr hnone), (hperm.map _).nodup_iff.mp h.2⟩

theorem summary_cases (cells : List Cell) (expected : Int) :
    (∃ g, Groups cells g ∧
      mechanicalPassageSummary cells expected = .counted (summarize g.lookup g.orders expected)) ∨
      ¬ Placed cells ∧ ∃ reason, mechanicalPassageSummary cells expected = .refused reason := by
  have h := group_spec cells groups_nil
  unfold mechanicalPassageSummary
  cases hgroup : group cells ∅ with
  | ok g =>
    rw [hgroup] at h
    exact .inl ⟨g, h, rfl⟩
  | error reason =>
    rw [hgroup] at h
    exact .inr ⟨h, reason, rfl⟩

theorem summary_perm {cells' : List Cell} (hperm : cells'.Perm cells) (expected : Int) {c : Counted}
    (hc : mechanicalPassageSummary cells expected = .counted c) :
    mechanicalPassageSummary cells' expected = .counted c := by
  rcases summary_cases cells expected with ⟨g, h, heq⟩ | ⟨-, reason, heq⟩
  · rcases summary_cases cells' expected with ⟨g', h', heq'⟩ | ⟨hplaced, -⟩
    · have hlookup : g'.lookup = g.lookup := by
        funext place
        refine Option.ext fun c => ?_
        rw [h'.lookup, h.lookup, hperm.mem_iff]
      have horders : g'.orders = g.orders := by
        rw [h'.orders_eq, h.orders_eq, ordersOf, toFinset_eq_of_perm _ _ ((hperm.filterMap _).map _)]
        rfl
      rw [heq', hlookup, horders, ← heq, hc]
    · exact absurd (h.placed.perm hperm.symm) hplaced
  · rw [hc] at heq
    cases heq

/-- The verdict is the comparison of the pairs, and no other is returned. -/
theorem passage_verdict_pairwise (cells : List Cell) (expected : Int) :
    let summary := mechanicalPassageSummary cells expected
    (summary.label = .PASSAGE_UNASSESSABLE ↔ ¬ Assessable cells expected) ∧
      (summary.label = .PASSAGE_REGRESSION ↔ Assessable cells expected ∧
        ∃ o, CompleteAt cells o .U0 ∧ ¬ CompleteAt cells o .S1) ∧
      (summary.label = .PASSAGE_DOMINANT ↔ Assessable cells expected ∧
        (¬ ∃ o, CompleteAt cells o .U0 ∧ ¬ CompleteAt cells o .S1) ∧
        ∃ o, CompleteAt cells o .S1 ∧ ¬ CompleteAt cells o .U0) ∧
      (summary.label = .PASSAGE_PARITY ↔ Assessable cells expected ∧
        ∀ o, CompleteAt cells o .U0 ↔ CompleteAt cells o .S1) ∧
      summary.label ≠ .PASSAGE_MIXED ∧
      (∀ cells', cells'.Perm cells → (mechanicalPassageSummary cells' expected).label = summary.label ∧
        ∀ c, summary = .counted c → mechanicalPassageSummary cells' expected = .counted c) ∧
      ∀ c, summary = .counted c → (∀ s, c.overall s = (DATASETS.map fun d => c.counts d s).sum) ∧
        (c.overall .S1 : Int) - c.overall .U0 = c.s1CompleteU0IncompleteCount - c.u0CompleteS1IncompleteCount := by
  rcases summary_cases cells expected with ⟨g, h, heq⟩ | ⟨hplaced, reason, heq⟩
  · have htallied : Tallied g.lookup _ g.orders _ := tallied_foldl (evidenceComplete g.lookup g.orders expected) _
    have hperm : ∀ cells', cells'.Perm cells →
        mechanicalPassageSummary cells' expected = mechanicalPassageSummary cells expected := fun cells' hperm =>
      (summary_perm hperm expected heq).trans heq.symm
    have hlabel := congrArg Summary.label heq
    rw [show (Summary.counted (summarize g.lookup g.orders expected)).label = _ from htallied.label_eq] at hlabel
    have hevidence := h.evidence_iff expected
    rw [← htallied.evidence] at hevidence
    have hagree : (∀ o, CompleteAt cells o .U0 ↔ CompleteAt cells o .S1) ↔
        (¬ ∃ o, CompleteAt cells o .U0 ∧ ¬ CompleteAt cells o .S1) ∧
          ¬ ∃ o, CompleteAt cells o .S1 ∧ ¬ CompleteAt cells o .U0 := by
      simp only [not_exists, not_and_not_right, ← forall_and, iff_def]
    have hcounts : ∀ c, mechanicalPassageSummary cells expected = .counted c →
        (∀ s, c.overall s = (DATASETS.map fun d => c.counts d s).sum) ∧
          (c.overall .S1 : Int) - c.overall .U0 =
            c.s1CompleteU0IncompleteCount - c.u0CompleteS1IncompleteCount := by
      intro c hc
      cases heq.symm.trans hc
      have hbalance := htallied.balance
      refine ⟨htallied.overall, ?_⟩
      simp only [summarize]
      omega
    -- each label is read off the evidence and the two discordances
    refine ⟨?_, ?_, ?_, ?_, ?_, fun cells' hcells => ⟨congrArg Summary.label (hperm cells' hcells),
      fun c hc => (hperm cells' hcells).trans hc⟩, hcounts⟩
    all_goals
      rw [hlabel]
      by_cases ha : Assessable cells expected
      · have hU0 : _ ↔ ∃ o, CompleteAt cells o .U0 ∧ ¬ CompleteAt cells o .S1 := h.only_iff ha .U0
        have hS1 : _ ↔ ∃ o, CompleteAt cells o .S1 ∧ ¬ CompleteAt cells o .U0 := h.only_iff ha .S1
        simp only [hevidence.mpr ha, ha, hagree, ← hU0, ← hS1, Bool.not_true, Bool.false_eq_true, if_false,
          not_true_eq_false, true_and]
        split_ifs <;> simp_all
      · simp [ha, Bool.eq_false_iff.mpr (mt hevidence.mp ha)]
  -- a cell without a place of its own: refused, in every order
  · have hnot : ¬ Assessable cells expected := fun ha => hplaced ha.placed
    simp only [heq, Summary.label, hnot, false_and, not_false_eq_true, reduceCtorEq, true_and, ne_eq]
    refine ⟨fun cells' hperm => ⟨?_, nofun⟩, nofun⟩
    rcases summary_cases cells' expected with ⟨g, h, -⟩ | ⟨-, reason', heq'⟩
    · exact absurd (h.placed.perm hperm) hplaced
    · rw [heq']

end Bravo.Passage
