import Mathlib.Data.String.Basic
import Bravo.Campaign.EventLog

/-! # The event log resumes

The directory `events` holds the directories `000001`, `000002`, … of the events that were appended, and the
state of event `k` lists the actions of the events up to `k`. An append that returns adds its event. One that
raises adds nothing, unless the rename had taken effect. A later construction recovers the log, unless a
`.staging-…` directory is left, which an append leaves only where it is killed or its clean-up raises.
-/

namespace Bravo.Campaign

open List

variable {β : Type}

/-! ## Names -/

theorem length_digits (width n : Nat) : (digits width n).length = width := by
  induction width generalizing n with
  | zero => rfl
  | succ width ih => simp [digits, ih]

theorem digitChar_lt {i j : Nat} (hij : i < j) (hj : j < 10) : Nat.digitChar i < Nat.digitChar j := by
  have hall : ∀ i j : Fin 10, i < j → Nat.digitChar i < Nat.digitChar j := by decide
  exact hall ⟨i, hij.trans hj⟩ ⟨j, hj⟩ hij

theorem append_lt_append {as bs cs ds : List Char} (hlength : as.length = bs.length) (h : as < bs) :
    as ++ cs < bs ++ ds := by
  induction as generalizing bs with
  | nil =>
    rw [eq_nil_of_length_eq_zero hlength.symm] at h
    exact absurd h (List.lt_irrefl [])
  | cons a as ih =>
    cases bs with
    | nil => simp at hlength
    | cons b bs =>
      rw [cons_append, cons_append, cons_lt_cons_iff]
      rcases cons_lt_cons_iff.mp h with hlt | ⟨heq, hlt⟩
      · exact .inl hlt
      · exact .inr ⟨heq, ih (Nat.succ.inj hlength) hlt⟩

theorem digits_lt {width i j : Nat} (hij : i < j) (hj : j < 10 ^ width) : digits width i < digits width j := by
  induction width generalizing i j with
  | zero =>
    rw [Nat.pow_zero] at hj
    omega
  | succ width ih =>
    rw [digits, digits]
    by_cases hdiv : i / 10 = j / 10
    · rw [hdiv]
      refine append_left_lt (cons_lt_cons_iff.mpr (.inl ?_))
      exact digitChar_lt (by omega) (by omega)
    · refine append_lt_append (by rw [length_digits, length_digits]) (ih (by omega) ?_)
      rw [Nat.pow_succ] at hj
      omega

theorem eventName_lt {i j : Nat} (hij : i < j) (hj : j < 10 ^ 6) : eventName i < eventName j := by
  rw [eventName, eventName, if_pos (hij.trans hj), if_pos hj, String.lt_iff_toList_lt, String.toList_ofList,
    String.toList_ofList]
  exact digits_lt hij hj

/-! ## Published events -/

/-- The directory of an event that follows the actions `completed`. -/
def published (completed : List String) (e : Entry) : String × EventDir :=
  (eventName (completed.length + 1),
    { receipt := some (.written (e.receipt (completed.length + 1)))
      state := some (.written (stateRecord (completed ++ [e.action]) e.action (completed.length + 1))) })

def publishedFrom (completed : List String) : List Entry → List (String × EventDir)
  | [] => []
  | e :: entries => published completed e :: publishedFrom (completed ++ [e.action]) entries

/-- The events of the tree are exactly `entries`, from 1 on. -/
def Holds (entries : List Entry) (t : Tree) : Prop := t.events = publishedFrom [] entries

theorem publishedFrom_append (completed : List String) (entries more : List Entry) :
    publishedFrom completed (entries ++ more) = publishedFrom completed entries ++
      publishedFrom (completed ++ entries.map (·.action)) more := by
  induction entries generalizing completed with
  | nil => simp [publishedFrom]
  | cons e entries ih => simp [publishedFrom, ih]

variable {e : Entry}

theorem Holds.snoc {entries : List Entry} {t t' : Tree} (h : Holds entries t)
    (ht : t'.events = t.events ++ [published (entries.map (·.action)) e]) : Holds (entries ++ [e]) t' := by
  rw [Holds, ht, h, publishedFrom_append]
  rfl

theorem names_publishedFrom (completed : List String) (entries : List Entry) :
    (publishedFrom completed entries).map (·.1) =
      (List.range' (completed.length + 1) entries.length).map eventName := by
  induction entries generalizing completed with
  | nil => rfl
  | cons e entries ih =>
    rw [publishedFrom, map_cons, ih, length_cons, range'_succ, map_cons,
      length_append]
    rfl

theorem length_publishedFrom (completed : List String) (entries : List Entry) :
    (publishedFrom completed entries).length = entries.length := by
  have h := congrArg List.length (names_publishedFrom completed entries)
  simpa using h

variable {entries : List Entry} {t : Tree}

theorem taken_of_le (h : Holds entries t) {k : Nat} (hk : 1 ≤ k)
    (hle : k ≤ entries.length) : (t.events.any fun entry => entry.1 = eventName k) = true := by
  have hmem : eventName k ∈ (publishedFrom [] entries).map (·.1) := by
    rw [names_publishedFrom]
    refine mem_map.mpr ⟨k, mem_range'_1.mpr ⟨hk, ?_⟩, rfl⟩
    show k < 0 + 1 + entries.length
    omega
  obtain ⟨entry, hentry, hname⟩ := mem_map.mp hmem
  rw [h]
  exact any_eq_true.mpr ⟨entry, hentry, decide_eq_true hname⟩

theorem not_taken_succ (h : Holds entries t) (hroom : entries.length + 1 < 10 ^ 6) :
    (t.events.any fun entry => entry.1 = eventName (entries.length + 1)) = false := by
  rw [h, any_eq_false]
  intro entry hentry hname
  have hmem := mem_map.mpr ⟨entry, hentry, of_decide_eq_true hname⟩
  rw [names_publishedFrom] at hmem
  obtain ⟨i, hi, heq⟩ := mem_map.mp hmem
  have hlt : i < entries.length + 1 := by
    have h' : i < 0 + 1 + entries.length := (mem_range'_1.mp hi).2
    omega
  exact absurd heq (ne_of_lt (eventName_lt hlt hroom))

theorem pairwise_publishedFrom (entries : List Entry) (hroom : entries.length < 10 ^ 6) :
    (publishedFrom [] entries).Pairwise fun a b => decide (a.1 ≤ b.1) = true := by
  have hnames : ((publishedFrom [] entries).map (·.1)).Pairwise (· ≤ ·) := by
    rw [names_publishedFrom]
    refine List.Pairwise.map eventName (fun i j hij => hij) ?_
    refine List.Pairwise.imp_of_mem (fun _ hj hij => le_of_lt (eventName_lt hij ?_)) pairwise_lt_range'
    have h' := (mem_range'_1.mp hj).2
    simp only [length_nil] at h'
    omega
  exact (pairwise_map.mp hnames).imp fun h => decide_eq_true h

/-! ## Records -/

/-- The fields of an event do not replace the keys that the log itself writes and reads back. -/
def Entry.Additional (e : Entry) : Prop :=
  ∀ field ∈ e.fields, field.1 ∉ ["schema", "event_index", "action"]

instance (e : Entry) : Decidable e.Additional := by
  unfold Entry.Additional
  infer_instance

theorem field_overlay {base fields : List (String × Json)} {key : String}
    (h : ∀ field ∈ fields, field.1 ≠ key) : (Json.obj (overlay base fields)).field key = (Json.obj base).field key := by
  have hfields : fields.find? (fun entry => entry.1 = key) = none :=
    find?_eq_none.mpr fun field hfield hname => h field hfield (of_decide_eq_true hname)
  have hbase : (base.filter fun entry => !(fields.map (·.1)).contains entry.1).find?
      (fun entry => entry.1 = key) = base.find? fun entry => entry.1 = key := by
    rw [find?_filter]
    refine find?_congr fun entry _ => ?_
    by_cases hentry : entry.1 = key
    · simpa [hentry] using fun value hfield => h (key, value) hfield rfl
    · simp [hentry]
  rw [Json.field, overlay, find?_append, hfields, Option.none_or, hbase]
  rfl

theorem Entry.Additional.field (h : e.Additional) (index : Nat) {key : String}
    (hkey : key ∈ ["schema", "event_index", "action"]) :
    (e.receipt index).field key = (Json.obj [("schema", .str eventSchema), ("event_index", .int index),
      ("recorded_utc", .str e.recordedUtc), ("action", .str e.action)]).field key :=
  field_overlay fun field hfield heq => h field hfield (heq ▸ hkey)

theorem Entry.Additional.schema (h : e.Additional) (index : Nat) :
    (e.receipt index).field "schema" = some (.str eventSchema) := h.field index (by simp)

theorem Entry.Additional.eventIndex (h : e.Additional) (index : Nat) :
    (e.receipt index).field "event_index" = some (.int index) := h.field index (by simp)

theorem Entry.Additional.action_eq (h : e.Additional) (index : Nat) :
    (e.receipt index).field "action" = some (.str e.action) := h.field index (by simp)

theorem actionsOf_stateRecord (completed : List String) (action : String) (index : Nat) :
    actionsOf ((stateRecord completed action index).field "completed_actions") = completed := by
  show (completed.map Json.str).filterMap _ = completed
  rw [filterMap_map]
  exact filterMap_some

/-! ## Loading -/

theorem wp_loadJson (label : String) {value : Json} {entries : List (String × Json)}
    (hvalue : value = .obj entries) (m : Machine (Exit LogError) Tree) :
    wp (loadJson label (some (.written value)))
      (fun read m' => m'.state = m.state ∧ (m.script = [] → m'.script = []) ∧ read = value)
      (fun _ m' => m'.state = m.state ∧ m.script ≠ []) m := by
  rw [hvalue, loadJson, wp_bind]
  refine wp_operate_head (fun _ => ?_) (fun r hr => ?_)
  · exact ⟨rfl, fun h => by rw [h]; rfl, rfl⟩
  · refine ⟨by cases r.applied <;> rfl, fun h => ?_⟩
    rw [h] at hr
    cases hr

theorem wp_loadEvents_publishedFrom (hentries : ∀ e ∈ entries, e.Additional) :
    ∀ (completed : List String) (m : Machine (Exit LogError) Tree),
    wp (loadEvents ⟨completed, completed.length⟩ (completed.length + 1) (publishedFrom completed entries))
      (fun log m' => m'.state = m.state ∧ (m.script = [] → m'.script = []) ∧
        log = ⟨completed ++ entries.map (·.action), completed.length + entries.length⟩)
      (fun _ m' => m'.state = m.state ∧ m.script ≠ []) m := by
  induction entries with
  | nil =>
    intro completed m
    exact ⟨rfl, fun h => h, by simp⟩
  | cons e entries ih =>
    intro completed m
    have he := hentries e mem_cons_self
    rw [publishedFrom, published, loadEvents, wp_bind, wp_onlyIf]
    refine ⟨fun h => absurd rfl (of_decide_eq_true h), fun _ => ?_⟩
    rw [wp_bind]
    refine wp_mono (wp_loadJson _ (show e.receipt _ = _ from rfl) m) (fun receipt m₁ h₁ => ?_) (fun _ _ h => h)
    obtain ⟨hstate₁, hscript₁, rfl⟩ := h₁
    rw [wp_bind]
    refine wp_mono (wp_loadJson _ (show stateRecord _ _ _ = _ from rfl) m₁) (fun state m₂ h₂ => ?_)
      (fun _ _ h => ⟨h.1.trans hstate₁, fun hnil => h.2 (hscript₁ hnil)⟩)
    obtain ⟨hstate₂, hscript₂, rfl⟩ := h₂
    -- what the loop reads of the receipt is what `append` put there
    rw [wp_bind, wp_onlyIf, he.schema, he.eventIndex]
    refine ⟨fun h => by simp [Json.isStr, Json.isNat] at h, fun _ => ?_⟩
    rw [wp_bind, wp_onlyIf]
    refine ⟨fun h => by simp [Json.isStr, Json.isNat, Json.field, stateRecord] at h, fun _ => ?_⟩
    rw [wp_bind, wp_onlyIf, he.action_eq]
    refine ⟨fun h => by simp [sameText, Json.field, stateRecord] at h, fun _ => ?_⟩
    have hih := ih (fun e' he' => hentries e' (mem_cons_of_mem e he')) (completed ++ [e.action]) m₂
    rw [length_append, length_singleton] at hih
    rw [actionsOf_stateRecord]
    refine wp_mono hih (fun log m₃ h₃ => ?_) (fun _ m₃ h₃ => ?_)
    · refine ⟨h₃.1.trans (hstate₂.trans hstate₁), fun hnil => h₃.2.1 (hscript₂ (hscript₁ hnil)), ?_⟩
      rw [h₃.2.2]
      simp only [append_assoc, singleton_append, map_cons, length_cons]
      congr 1
      omega
    · exact ⟨h₃.1.trans (hstate₂.trans hstate₁), fun hnil => h₃.2 (hscript₂ (hscript₁ hnil))⟩

theorem reports_loadJson (label : String) (file : Option File) : Reports (loadJson label file) := by
  match file with
  | none | some .torn => exact Keeps.of_throw _
  | some (.written (.obj _)) => exact Keeps.bind reports_operate_id fun _ => Keeps.of_pure _
  | some (.written .null) | some (.written (.bool _)) | some (.written (.int _)) | some (.written (.str _))
  | some (.written (.arr _)) => exact Keeps.of_throw _

theorem wp_loadEvents_names (directories : List (String × EventDir)) :
    ∀ (log : EventLog) (expected : Nat) (m : Machine (Exit LogError) Tree),
    wp (loadEvents log expected directories) (fun _ m' => m'.state = m.state ∧
        directories.map (·.1) = (List.range' expected directories.length).map eventName)
      (fun _ m' => m'.state = m.state) m := by
  induction directories with
  | nil =>
    intro log expected m
    exact ⟨rfl, rfl⟩
  | cons directory rest ih =>
    intro log expected m
    obtain ⟨name, directory⟩ := directory
    rw [loadEvents, wp_bind, wp_onlyIf]
    refine ⟨fun _ => rfl, fun hname => ?_⟩
    refine (reports_loadJson _ _).wp_then (fun receipt m₁ h₁ => ?_) (fun _ _ h => h)
    refine (reports_loadJson _ _).wp_then (fun state m₂ h₂ => ?_) (fun _ _ h => h.trans h₁)
    rw [wp_bind, wp_onlyIf]
    refine ⟨fun _ => h₂.trans h₁, fun _ => ?_⟩
    rw [wp_bind, wp_onlyIf]
    refine ⟨fun _ => h₂.trans h₁, fun _ => ?_⟩
    rw [wp_bind, wp_onlyIf]
    refine ⟨fun _ => h₂.trans h₁, fun _ => ?_⟩
    refine wp_mono (ih _ _ m₂) (fun _ m₃ h₃ => ⟨h₃.1.trans (h₂.trans h₁), ?_⟩)
      (fun _ m₃ h₃ => h₃.trans (h₂.trans h₁))
    rw [map_cons, h₃.2, length_cons, range'_succ, map_cons]
    rw [not_not.mp (of_decide_eq_false hname)]

theorem names_sorted_ne (hroom : ¬ entries.length < 10 ^ 6) :
    ((publishedFrom [] entries).mergeSort fun a b => a.1 ≤ b.1).map (·.1) ≠
      (List.range' 1 ((publishedFrom [] entries).mergeSort fun a b => a.1 ≤ b.1).length).map eventName := by
  intro hnames
  have hsorted : (((publishedFrom [] entries).mergeSort fun a b => a.1 ≤ b.1).map (·.1)).Pairwise (· ≤ ·) := by
    refine pairwise_map.mpr ((pairwise_mergeSort ?_ ?_ _).imp fun h => of_decide_eq_true h)
    · intro a b c hab hbc
      exact decide_eq_true (le_trans (of_decide_eq_true hab) (of_decide_eq_true hbc))
    · intro a b
      rcases le_total a.1 b.1 with h | h
      · rw [decide_eq_true h, Bool.true_or]
      · rw [decide_eq_true h, Bool.or_true]
  rw [hnames, length_mergeSort, length_publishedFrom] at hsorted
  have hle : eventName 999999 ≤ eventName 1000000 := by
    have hget := pairwise_iff_getElem.mp hsorted 999998 999999 (by simp; omega) (by simp; omega) (by omega)
    simpa using hget
  exact absurd hle (by decide)

theorem wp_query_nil (g : Tree → β) (m : Machine (Exit LogError) Tree) :
    wp (query g) (fun a m' => m'.state = m.state ∧ (m.script = [] → m'.script = []) ∧ a = g m.state)
      (fun _ m' => m'.state = m.state ∧ m.script ≠ []) m := by
  rw [query, wp_bind]
  refine wp_operate_head (fun _ => ?_) (fun r hr => ?_)
  · rw [wp_bind, wp_get]
    exact ⟨rfl, fun h => by rw [h]; rfl, rfl⟩
  · refine ⟨by cases r.applied <;> rfl, fun h => ?_⟩
    rw [h] at hr
    cases hr

theorem wp_load (hentries : ∀ e ∈ entries, e.Additional)
    {m : Machine (Exit LogError) Tree} (h : Holds entries m.state) :
    wp load
      (fun log m' => m'.state = m.state ∧ m.state.staging = [] ∧ (m.script = [] → m'.script = []) ∧
        log = ⟨entries.map (·.action), entries.length⟩)
      (fun _ m' => m'.state = m.state ∧
        (m.state.staging = [] → entries.length < 10 ^ 6 → m.script ≠ [])) m := by
  rw [load, wp_bind]
  refine wp_mono (wp_query_nil _ m) (fun control m₁ h₁ => ?_) (fun _ _ he => ⟨he.1, fun _ _ => he.2⟩)
  obtain ⟨hstate₁, hscript₁, rfl⟩ := h₁
  cases hcontrol : m.state.control with
  | none =>
    have hnone : m.state.events = [] := by rw [Tree.events, hcontrol]; rfl
    have hentries' : entries = [] := by
      rw [Holds, hnone] at h
      exact eq_nil_of_length_eq_zero (by rw [← length_publishedFrom [], ← h]; rfl)
    refine ⟨hstate₁, by rw [Tree.staging, hcontrol]; rfl, hscript₁, ?_⟩
    rw [hentries']
    rfl
  | some control =>
    have hstaging : m.state.staging = control.staging := by rw [Tree.staging, hcontrol]; rfl
    have hevents : m.state.events = control.events.getD [] := by rw [Tree.events, hcontrol]; rfl
    rw [wp_bind, wp_onlyIf]
    refine ⟨fun hleft => ⟨hstate₁, fun hnil => ?_⟩, fun hleft => ?_⟩
    · rw [← hstaging, hnil] at hleft
      cases hleft
    have hempty : m.state.staging = [] := by
      rw [hstaging]
      exact List.isEmpty_iff.mp (by simpa using hleft)
    rw [wp_bind]
    refine wp_mono (wp_query_nil _ m₁) (fun events m₂ h₂ => ?_)
      (fun _ _ he => ⟨he.1.trans hstate₁, fun _ _ hnil => he.2 (hscript₁ hnil)⟩)
    obtain ⟨hstate₂, hscript₂, rfl⟩ := h₂
    cases hlisted : control.events with
    | none =>
      rw [hlisted] at hevents
      have hentries' : entries = [] := by
        rw [Holds, hevents] at h
        exact eq_nil_of_length_eq_zero (by rw [← length_publishedFrom [], ← h]; rfl)
      refine ⟨hstate₂.trans hstate₁, hempty, fun hnil => hscript₂ (hscript₁ hnil), ?_⟩
      rw [hentries']
      rfl
    | some listed =>
      rw [hlisted] at hevents
      have hlist : listed = publishedFrom [] entries := hevents.symm.trans h
      rw [hlist]
      dsimp only
      by_cases hroom : entries.length < 10 ^ 6
      · rw [mergeSort_of_pairwise (pairwise_publishedFrom entries hroom)]
        refine wp_mono (wp_loadEvents_publishedFrom hentries [] m₂) (fun log m₃ h₃ => ?_) (fun _ m₃ h₃ => ?_)
        · refine ⟨h₃.1.trans (hstate₂.trans hstate₁), hempty,
            fun hnil => h₃.2.1 (hscript₂ (hscript₁ hnil)), ?_⟩
          rw [h₃.2.2, nil_append, length_nil, Nat.zero_add]
        · exact ⟨h₃.1.trans (hstate₂.trans hstate₁), fun _ _ hnil => h₃.2 (hscript₂ (hscript₁ hnil))⟩
      · refine wp_mono (wp_loadEvents_names _ _ _ m₂) (fun log m₃ h₃ => ?_)
          (fun _ m₃ h₃ => ⟨h₃.trans (hstate₂.trans hstate₁), fun _ hlt => absurd hlt hroom⟩)
        exact absurd h₃.2 (names_sorted_ne hroom)

/-! ## Appending -/

/-- The tree while an event is built in the staging directory `name`. -/
def staged (old : List (String × EventDir)) (events : List (String × EventDir)) (name : String)
    (d : EventDir) : Tree :=
  ⟨some ⟨old ++ [(name, d)], some events⟩⟩

def settled (old events : List (String × EventDir)) : Tree := ⟨some ⟨old, some events⟩⟩

section Staged

variable {old events : List (String × EventDir)} {name : String} {d : EventDir}

theorem mapStaging_staged (hnew : ∀ entry ∈ old, entry.1 ≠ name) (f : EventDir → EventDir) :
    mapStaging name f (staged old events name d) = staged old events name (f d) := by
  have hold : old.map (fun entry => if entry.1 = name then (name, f entry.2) else entry) = old := by
    calc old.map (fun entry => if entry.1 = name then (name, f entry.2) else entry)
        = old.map id := map_congr_left fun entry hentry => if_neg (hnew entry hentry)
      _ = old := List.map_id old
  simp only [mapStaging, mapControl, staged, Option.map_some, map_append, hold, map_cons, map_nil,
    if_true]

theorem filter_ne_of_new (hnew : ∀ entry ∈ old, entry.1 ≠ name) :
    old.filter (fun entry => entry.1 ≠ name) = old :=
  filter_eq_self.mpr fun entry hentry => decide_eq_true (hnew entry hentry)

theorem filter_eq_of_new (hnew : ∀ entry ∈ old, entry.1 ≠ name) :
    old.filter (fun entry => entry.1 = name) = [] :=
  filter_eq_nil_iff.mpr fun entry hentry heq => hnew entry hentry (of_decide_eq_true heq)

theorem removeStaging_staged (hnew : ∀ entry ∈ old, entry.1 ≠ name) :
    removeStaging name (staged old events name d) = settled old events := by
  simp only [removeStaging, mapControl, staged, settled, Option.map_some, filter_append,
    filter_ne_of_new hnew]
  simp

/-- Whether the rename of an append took effect: nothing before it raised, and it did not raise before its
effect. -/
def Renamed (script : List (Option (Raise (Exit LogError)))) : Prop :=
  Quiet 14 script ∧ ∀ r, (script.drop 14).head?.join = some r → r.applied = true

variable {m : Machine (Exit LogError) Tree}

theorem performs_call {B : Tree → Prop} {s : Tree} (f : Tree → Tree) (hm : m.state = s) (hB : B s) :
    Performs 1 (call f) (fun _ t => t = f s) B m := by
  show Performs (1 + 0) _ _ _ m
  refine (performs_operate id (hm ▸ hB) (hm ▸ hB)).bind fun _ m₁ h₁ => ?_
  exact ⟨⟨quiet_zero _, rfl⟩, congrArg f (h₁.trans hm)⟩

/-- An event is built in the staging directory `name`. -/
def Building (old events : List (String × EventDir)) (name : String) (t : Tree) : Prop :=
  ∃ d, t = staged old events name d

theorem performs_atomicWriteNew (hnew : ∀ entry ∈ old, entry.1 ≠ name) (hm : m.state = staged old events name d)
    (set : Option File → EventDir → EventDir) (value : Json) (hset : ∀ a b d, set a (set b d) = set a d) :
    Performs 4 (atomicWriteNew name set value)
      (fun _ t => t = staged old events name (set (some (.written value)) d)) (Building old events name) m := by
  have hbuilding : ∀ d, Building old events name (staged old events name d) := fun d => ⟨d, rfl⟩
  show Performs (1 + (1 + ((1 + 1) + 0))) _ _ _ m
  refine (performs_operate id ⟨d, hm⟩ ⟨d, hm⟩).bind fun _ m₁ h₁ => ?_
  refine (performs_call _ (h₁.trans hm) (hbuilding d)).bind fun _ m₂ h₂ => ?_
  rw [mapStaging_staged hnew] at h₂
  refine Performs.rescue (G := fun _ t => t = staged old events name (set (some (.written value)) d)) ?_
    (fun _ _ h => .pure h) (fun e m₃ h₃ => ?_)
  · refine (performs_operate id ⟨_, h₂⟩ ⟨_, h₂⟩).bind fun _ m₃ h₃ => ?_
    have hm₃ : mapStaging name (set (some (.written value))) m₃.state =
        staged old events name (set (some (.written value)) d) := by
      rw [h₃.trans h₂, mapStaging_staged hnew, hset]
    show wp (operate id) _ _ ⟨mapStaging name (set (some (.written value))) m₃.state, m₃.script⟩
    rw [hm₃]
    exact wp_mono (performs_operate id (hbuilding _) (hbuilding _))
      (fun _ _ h => ⟨⟨h.1.quiet, h.1.rest⟩, h.2⟩) (fun _ _ h => h)
  · -- the write or the sync raised: the file is unlinked, if it can be
    obtain ⟨d', hd'⟩ := h₃
    rw [wp_bind]
    refine wp_rescue (wp_mono (performs_call _ hd' (hbuilding d')) (fun _ m₄ h₄ => ?_) (fun _ m₄ h₄ => ?_))
    · exact ⟨_, h₄.2.trans (mapStaging_staged hnew _)⟩
    · exact ⟨fun _ _ => h₄.2, fun _ => h₄.2⟩

theorem wp_publish {log : EventLog} {e : Entry} (hnew : ∀ entry ∈ old, entry.1 ≠ name)
    (hlog : log.lastEventIndex = log.completedActions.length)
    (hfree : (events.any fun entry => entry.1 = eventName (log.lastEventIndex + 1)) = false)
    (hm : m.state = staged old events name {}) :
    wp (publish log e name)
      (fun _ m' => Passed 11 m m' ∧
        m'.state = settled old (events ++ [published log.completedActions e]))
      (fun _ m' => ¬ Quiet 11 m.script ∧ (Building old events name m'.state ∨
        Quiet 9 m.script ∧ (∀ r, (m.script.drop 9).head?.join = some r → r.applied = true) ∧
          m'.state = settled old (events ++ [published log.completedActions e]))) m := by
  have hdirectory : EventDir.setState
      (some (.written (stateRecord (log.completedActions ++ [e.action]) e.action (log.lastEventIndex + 1))))
      (EventDir.setReceipt (some (.written (e.receipt (log.lastEventIndex + 1)))) {}) =
        (published log.completedActions e).2 := by rw [hlog]; rfl
  have hname : eventName (log.lastEventIndex + 1) = (published log.completedActions e).1 := by rw [hlog]; rfl
  rw [publish, wp_bind]
  refine wp_mono (performs_atomicWriteNew hnew hm EventDir.setReceipt _ fun _ _ _ => rfl) (fun _ m₁ h₁ => ?_)
    (fun _ _ h => ⟨(Passed.refl m).not_quiet h.1 (by omega), .inl h.2⟩)
  rw [wp_bind]
  refine wp_mono (performs_atomicWriteNew hnew h₁.2 EventDir.setState _ fun _ _ _ => rfl) (fun _ m₂ h₂ => ?_)
    (fun _ _ h => ⟨h₁.1.not_quiet h.1 (by omega), .inl h.2⟩)
  rw [hdirectory] at h₂
  rw [wp_bind]
  refine wp_mono (wp_operate_passed id m₂) (fun _ m₃ h₃ => ?_)
    (fun _ _ h => ⟨(h₁.1.trans h₂.1).not_quiet h.1 (by omega), .inl ⟨_, (h.2.elim id id).trans h₂.2⟩⟩)
  have hpassed : Passed 9 m m₃ := (h₁.1.trans h₂.1).trans h₃.1
  have hm₃ := h₃.2.trans h₂.2
  -- nothing has the name of the event, so the rename is not refused
  have hrename : m₃.state.events = events := by rw [hm₃]; rfl
  have heffect : (m₃.state.control.map fun control =>
      ({ staging := control.staging.filter fun entry => entry.1 ≠ name
         events := control.events.map fun entries => entries ++
          ((control.staging.filter fun entry => entry.1 = name).map fun entry =>
            (eventName (log.lastEventIndex + 1), entry.2)) } : Control)) =
      (settled old (events ++ [published log.completedActions e])).control := by
    rw [hm₃]
    simp only [staged, settled, Option.map_some, filter_append, filter_ne_of_new hnew,
      filter_eq_of_new hnew, hname]
    simp
  have hafter : ∀ control, control = (settled old (events ++ [published log.completedActions e])).control →
      ({ m₃.state with control := control } : Tree) = settled old (events ++ [published log.completedActions e]) :=
    fun control h => by rw [h]
  rw [wp_bind, renameStaging, operateChecked, wp_bind, wp_get, hrename, hfree]
  simp only [Bool.false_eq_true, if_false]
  refine wp_operate_head (fun hhead => ?_) (fun r hr => ⟨?_, ?_⟩)
  · have hlast : Passed 10 m ⟨settled old (events ++ [published log.completedActions e]), m₃.script.tail⟩ :=
      hpassed.trans ⟨quiet_succ.mpr ⟨hhead, quiet_zero _⟩, drop_one.symm⟩
    rw [hafter _ heffect]
    refine wp_mono (wp_operate_passed id _) (fun _ m₅ h₅ => ⟨hlast.trans h₅.1, h₅.2⟩) (fun _ m₅ h₅ => ?_)
    refine ⟨hlast.not_quiet h₅.1 (by omega), .inr ⟨hpassed.quiet, fun r hr => ?_, h₅.2.elim id id⟩⟩
    rw [← hpassed.rest, hhead] at hr
    cases hr
  · refine hpassed.not_quiet (j := 1) (fun hquiet => ?_) (by omega)
    rw [(quiet_succ.mp hquiet).1] at hr
    cases hr
  · cases happlied : r.applied with
    | false => exact .inl ⟨_, hm₃⟩
    | true =>
      refine .inr ⟨hpassed.quiet, fun r' hr' => ?_, hafter _ heffect⟩
      rw [← hpassed.rest, hr] at hr'
      exact Option.some.inj hr' ▸ happlied

/-- What the clean-up of an append starts from and stops at: its directory is there or not. -/
def Unsettled (old events : List (String × EventDir)) (name : String) (t : Tree) : Prop :=
  Building old events name t ∨ t = settled old events

theorem wp_removeTree (hnew : ∀ entry ∈ old, entry.1 ≠ name) (hm : Unsettled old events name m.state) :
    wp (removeTree name) (fun _ m' => m'.state = settled old events)
      (fun _ m' => Unsettled old events name m'.state) m := by
  refine (performs_query _ hm).wp_then (fun found m₁ h₁ => ?_) (fun _ _ h => h)
  obtain ⟨hstate, rfl⟩ := h₁
  rw [← hstate] at hm ⊢
  rw [wp_onlyIf]
  rcases hm with ⟨d', hm₁⟩ | hm
  · have hstaged : ∀ d, Unsettled old events name (staged old events name d) := fun d => .inl ⟨d, rfl⟩
    refine ⟨fun _ => ?_, fun hfound => ?_⟩
    · refine (performs_call _ hm₁ (hstaged _)).wp_then (fun _ m₂ h₂ => ?_) (fun _ _ h => h)
      rw [mapStaging_staged hnew] at h₂
      refine (performs_call _ h₂ (hstaged _)).wp_then (fun _ m₃ h₃ => ?_) (fun _ _ h => h)
      rw [mapStaging_staged hnew] at h₃
      refine wp_mono (performs_call _ h₃ (hstaged _)) (fun _ _ h => h.2.trans ?_) (fun _ _ h => h.2)
      exact removeStaging_staged hnew
    · rw [hm₁] at hfound
      simp [staged, Tree.staging] at hfound
  · refine ⟨fun hfound => ?_, fun _ => hm⟩
    rw [hm] at hfound
    obtain ⟨entry, hentry, hname⟩ := any_eq_true.mp hfound
    exact absurd (of_decide_eq_true hname) (hnew entry hentry)

theorem wp_discardStaging (original : LogError) (hnew : ∀ entry ∈ old, entry.1 ≠ name)
    (hm : Unsettled old events name m.state) :
    wp (discardStaging name original) (fun _ _ => False)
      (fun failure m' => Unsettled old events name m'.state ∧
        ∀ error, failure = .raised error → error.handling = false → m'.state = settled old events) m := by
  rw [discardStaging, wp_bind]
  refine wp_rescue (wp_mono (wp_removeTree hnew hm) (fun _ m₁ h₁ => ⟨.inr h₁, fun _ _ _ => h₁⟩)
    (fun failure m₁ h₁ => ⟨fun e _ => ⟨h₁, fun error herror hhandling => ?_⟩, fun _ => ⟨h₁, fun _ herror => ?_⟩⟩))
  · cases herror
    cases hhandling
  · cases herror

end Staged

theorem wp_openStaging (log : EventLog) (uuid : String) (m : Machine (Exit LogError) Tree) :
    let taken := m.state.events.any fun entry => entry.1 = eventName (log.lastEventIndex + 1)
    let found := m.state.staging.any fun entry => entry.1 = stagingName uuid
    wp (openStaging log uuid)
      (fun _ m' => Passed 5 m m' ∧ m'.state = staged m.state.staging m.state.events (stagingName uuid) {} ∧
        taken = false ∧ found = false)
      (fun _ m' => (m'.state.events = m.state.events ∧ m'.state.staging = m.state.staging) ∧
        (taken = false → found = false → ¬ Quiet 5 m.script)) m := by
  intro taken found
  let Untouched (s : Tree) : Prop := s.events = m.state.events ∧ s.staging = m.state.staging
  have hsettled : Untouched (settled m.state.staging m.state.events) := ⟨rfl, rfl⟩
  have hcontrol : ∀ t : Tree, mapControl (fun control => { control with events := some (control.events.getD []) })
      { t with control := some (t.control.getD {}) } = settled t.staging t.events := by
    rintro ⟨_ | control⟩ <;> rfl
  have hmade : ∀ t : Tree, ({ t with control := some (t.control.getD {}) } : Tree).events = t.events ∧
      ({ t with control := some (t.control.getD {}) } : Tree).staging = t.staging := by
    rintro ⟨_ | control⟩ <;> exact ⟨rfl, rfl⟩
  have hraises : ∀ {n : Nat} {m' m'' : Machine (Exit LogError) Tree}, Passed n m m' → ¬ Quiet 1 m'.script →
      n + 1 ≤ 5 → Untouched m''.state → Untouched m''.state ∧ (taken = false → found = false → ¬ Quiet 5 m.script) :=
    fun hpassed hquiet hle huntouched => ⟨huntouched, fun _ _ => hpassed.not_quiet hquiet hle⟩
  rw [openStaging, wp_bind]
  refine wp_mono (performs_call (B := Untouched) _ rfl ⟨rfl, rfl⟩) (fun _ m₁ h₁ => ?_)
    (fun _ m₁ h₁ => hraises (.refl m) h₁.1 (by omega) h₁.2)
  rw [wp_bind]
  refine wp_mono (performs_call (B := Untouched) _ h₁.2 (hmade m.state)) (fun _ m₂ h₂ => ?_)
    (fun _ m₂ h₂ => hraises h₁.1 h₂.1 (by omega) h₂.2)
  obtain ⟨hpassed₂, hm₂⟩ : Passed 2 m m₂ ∧ m₂.state = settled m.state.staging m.state.events :=
    ⟨h₁.1.trans h₂.1, h₂.2.trans (hcontrol m.state)⟩
  rw [wp_bind]
  refine wp_mono (performs_query (B := Untouched) _ (hm₂ ▸ hsettled)) (fun _ m₃ h₃ => ?_)
    (fun _ m₃ h₃ => hraises hpassed₂ h₃.1 (by omega) h₃.2)
  obtain ⟨hpass₃, hstate₃, rfl⟩ := h₃
  have hpassed₃ := hpassed₂.trans hpass₃
  have hm₃ := hstate₃.trans hm₂
  rw [hm₂, wp_bind, wp_onlyIf]
  refine ⟨fun htaken => ⟨hm₃ ▸ hsettled, fun hfree => absurd (htaken.symm.trans hfree) (by simp)⟩, fun hfree => ?_⟩
  rw [makeStaging, wp_bind]
  refine wp_mono (performs_operate (B := Untouched) id (hm₃ ▸ hsettled) (hm₃ ▸ hsettled)) (fun _ m₄ h₄ => ?_)
    (fun _ m₄ h₄ => hraises hpassed₃ h₄.1 (by omega) h₄.2)
  have hm₄ := h₄.2.trans hm₃
  rw [wp_bind]
  refine wp_mono (performs_query (B := Untouched) _ (hm₄ ▸ hsettled)) (fun _ m₅ h₅ => ?_)
    (fun _ m₅ h₅ => hraises (hpassed₃.trans h₄.1) h₅.1 (by omega) h₅.2)
  obtain ⟨hpass₅, hstate₅, rfl⟩ := h₅
  have hm₅ := hstate₅.trans hm₄
  rw [hm₄, wp_bind, wp_onlyIf]
  refine ⟨fun hused => ⟨hm₅ ▸ hsettled, fun _ hfresh => absurd (hused.symm.trans hfresh) (by simp)⟩, fun hfresh => ?_⟩
  have hpassed₅ := (hpassed₃.trans h₄.1).trans hpass₅
  refine ⟨⟨hpassed₅.quiet, hpassed₅.rest⟩, ?_, hfree, hfresh⟩
  show mapControl _ m₅.state = _
  rw [hm₅]
  rfl

/-- The log of a process that has read the first events: those of `entries`, or fewer. -/
def Behind (entries : List Entry) (log : EventLog) : Prop :=
  ∃ k ≤ entries.length, log = ⟨(entries.map (·.action)).take k, k⟩

variable {log : EventLog}

theorem Behind.length (h : Behind entries log) :
    log.lastEventIndex = log.completedActions.length := by
  obtain ⟨k, hk, rfl⟩ := h
  rw [length_take, length_map, Nat.min_eq_left hk]

theorem Behind.eq_of_free (h : Behind entries log) (ht : Holds entries t)
    (hfree : (t.events.any fun entry => entry.1 = eventName (log.lastEventIndex + 1)) = false) :
    log = ⟨entries.map (·.action), entries.length⟩ := by
  obtain ⟨k, hk, rfl⟩ := h
  rcases Nat.lt_or_ge k entries.length with hlt | hge
  · rw [taken_of_le ht (Nat.succ_le_succ (Nat.zero_le k)) hlt] at hfree
    cases hfree
  · rw [Nat.le_antisymm hk hge, take_of_length_le (length_map _).le]

theorem Behind.snoc {entries : List Entry} (h : Behind entries log) (e : Entry) :
    Behind (entries ++ [e]) log := by
  obtain ⟨k, hk, rfl⟩ := h
  refine ⟨k, by rw [length_append]; omega, ?_⟩
  rw [map_append, take_append_of_le_length (by rw [length_map]; exact hk)]

theorem behind_all (entries : List Entry) : Behind entries ⟨entries.map (·.action), entries.length⟩ :=
  ⟨entries.length, le_rfl, by rw [take_of_length_le (length_map _).le]⟩

structure Appended (entries : List Entry) (e : Entry) (uuid : String)
    (script : List (Option (Raise (Exit LogError)))) (t t' : Tree) : Prop where
  /-- Its event is added or nothing is, and it is added only by the rename. -/
  events : Holds entries t' ∨ Holds (entries ++ [e]) t' ∧ Renamed script
  staging : t'.staging = t.staging ∨ ∃ d, t'.staging = t.staging ++ [(stagingName uuid, d)]

theorem wp_append (e : Entry) (uuid : String)
    {m : Machine (Exit LogError) Tree} (h : Holds entries m.state) (hlog : Behind entries log) :
    wp (append log e uuid)
      (fun log' m' => Holds (entries ++ [e]) m'.state ∧ m'.state.staging = m.state.staging ∧
        Quiet 16 m.script ∧ log' = ⟨(entries ++ [e]).map (·.action), entries.length + 1⟩)
      (fun failure m' => Appended entries e uuid m.script m.state m'.state ∧
        (∀ error, failure = .raised error → error.handling = false → m'.state.staging = m.state.staging) ∧
        ((m.state.events.any fun entry => entry.1 = eventName (log.lastEventIndex + 1)) = false →
          (m.state.staging.any fun entry => entry.1 = stagingName uuid) = false → ¬ Quiet 16 m.script)) m := by
  rw [append, wp_bind]
  refine wp_mono (wp_openStaging log uuid m) (fun _ m₁ h₁ => ?_) (fun _ m₁ h₁ => ?_)
  case refine_2 =>
    obtain ⟨⟨hevents, hstaging⟩, hraised⟩ := h₁
    exact ⟨⟨.inl (hevents.trans h), .inl hstaging⟩, fun _ _ _ => hstaging,
      fun hfree hfresh => (Passed.refl m).not_quiet (hraised hfree hfresh) (by omega)⟩
  obtain ⟨hpassed, hm₁, hfree, hfresh⟩ := h₁
  have hlog' := hlog.eq_of_free h hfree
  have hnew : ∀ entry ∈ m.state.staging, entry.1 ≠ stagingName uuid :=
    fun entry hentry heq => any_eq_false.mp hfresh entry hentry (decide_eq_true heq)
  have hpublished : published log.completedActions e = published (entries.map (·.action)) e := by rw [hlog']
  have hquiet : ∀ {k : Nat}, Quiet k m₁.script → Quiet (5 + k) m.script := fun hk =>
    quiet_add.mpr ⟨hpassed.quiet, hpassed.rest ▸ hk⟩
  rw [wp_bind]
  refine wp_rescue (wp_mono (wp_publish hnew hlog.length hfree hm₁) (fun _ m₂ h₂ => ?_) (fun failure m₂ h₂ => ?_))
  · obtain ⟨hpass₂, hm₂⟩ := h₂
    rw [hpublished] at hm₂
    have hevents : m₂.state.events = m.state.events ++ [published (entries.map (·.action)) e] := by
      rw [hm₂]
      rfl
    refine ⟨h.snoc hevents, by rw [hm₂]; rfl, hquiet hpass₂.quiet, ?_⟩
    rw [hlog', map_append]
    rfl
  · obtain ⟨hraised, hafter⟩ := h₂
    have hnotQuiet : ¬ Quiet 16 m.script := hpassed.not_quiet hraised (by omega)
    rw [hpublished] at hafter
    -- what the clean-up starts from, with the directory or without it
    obtain ⟨events', hevents', hm₂⟩ : ∃ events', (Holds entries (settled m.state.staging events') ∨
        Holds (entries ++ [e]) (settled m.state.staging events') ∧ Renamed m.script) ∧
        Unsettled m.state.staging events' (stagingName uuid) m₂.state := by
      rcases hafter with hstaged | ⟨hbefore, hrename, hsettled⟩
      · exact ⟨m.state.events, .inl h, .inl hstaged⟩
      · refine ⟨_, .inr ⟨h.snoc rfl, hquiet hbefore, fun r hr => hrename r ?_⟩, .inr hsettled⟩
        show (m₁.script.drop 9).head?.join = some r
        rwa [hpassed.rest, drop_drop]
    have hleaves : ∀ {t : Tree}, Unsettled m.state.staging events' (stagingName uuid) t →
        Appended entries e uuid m.script m.state t := by
      rintro t (⟨d', rfl⟩ | rfl)
      · exact ⟨hevents', .inr ⟨d', rfl⟩⟩
      · exact ⟨hevents', .inl rfl⟩
    refine ⟨fun original _ => ?_, fun hkilled => ⟨hleaves hm₂, fun _ herror => ?_, fun _ _ => hnotQuiet⟩⟩
    · refine wp_mono (wp_discardStaging original hnew hm₂) (fun _ _ => False.elim) (fun failure' m₃ h₃ => ?_)
      refine ⟨hleaves h₃.1, fun error herror hhandling => ?_, fun _ _ => hnotQuiet⟩
      rw [h₃.2 error herror hhandling]
      rfl
    · cases herror

/-! ## Runs -/

def Command.Additional : Command → Prop
  | .construct _ => True
  | .append _ e _ _ => e.Additional

/-- The tree holds the events of `entries`, and every log of the process has read the first of them. -/
structure Consistent (entries : List Entry) (s : Site) : Prop where
  holds : Holds entries s.tree
  additional : ∀ e ∈ entries, e.Additional
  behind : ∀ log ∈ s.logs, Behind entries log

def Performed (s : Site) (i : Command × Outcome) (s' : Site) : Prop :=
  ∃ entries, Consistent entries s ∧
    match i.1 with
    | .construct _ => s'.tree = s.tree
    | .append _ e uuid script =>
      (i.2 = .returned → Holds (entries ++ [e]) s'.tree ∧ s'.tree.staging = s.tree.staging) ∧
      (i.2 ≠ .returned → Appended entries e uuid script s.tree s'.tree) ∧
      (∀ error, i.2 = .raised error → error.handling = false → s'.tree.staging = s.tree.staging)

variable {s s' : Site}

theorem Consistent.of_append
    (h : Consistent entries s) (he : e.Additional) (hholds : Holds (entries ++ [e]) s'.tree)
    (hlogs : ∀ log ∈ s'.logs, log ∈ s.logs ∨ log = ⟨(entries ++ [e]).map (·.action), entries.length + 1⟩) :
    Consistent (entries ++ [e]) s' where
  holds := hholds
  additional e' he' := by
    rcases mem_append.mp he' with hmem | hmem
    · exact h.additional e' hmem
    · rw [mem_singleton.mp hmem]
      exact he
  behind log hlog := by
    rcases hlogs log hlog with hmem | rfl
    · exact (h.behind log hmem).snoc e
    · have hall := behind_all (entries ++ [e])
      rwa [length_append, length_singleton] at hall

theorem step_consistent {i : Command × Outcome}
    (h : Consistent entries s) (hi : i.1.Additional) (hstep : s.Step i s') :
    (∃ entries', Consistent entries' s') ∧ Performed s i s' := by
  obtain ⟨command, outcome⟩ := i
  cases command with
  | construct script =>
    have hload := wp_load h.additional (m := ⟨s.tree, script⟩) h.holds
    have hperform : s.after (fun log => s.logs ++ [log]) (load.run ⟨s.tree, script⟩) = (outcome, s') :=
      Option.some.inj hstep
    cases hrun : load.run ⟨s.tree, script⟩ with
    | ok log m =>
      rw [wp_of_ok hrun] at hload
      rw [hrun] at hperform
      obtain ⟨hstate, -, -, rfl⟩ := hload
      cases hperform
      refine ⟨⟨entries, hstate ▸ h.holds, h.additional, fun log hlog => ?_⟩, entries, h, hstate⟩
      rcases mem_append.mp hlog with hmem | hmem
      · exact h.behind log hmem
      · rw [mem_singleton.mp hmem]
        exact behind_all entries
    | error failure m =>
      rw [wp_of_error hrun] at hload
      rw [hrun] at hperform
      cases failure with
      | raised e =>
        cases hperform
        exact ⟨⟨entries, hload.1 ▸ h.holds, h.additional, h.behind⟩, entries, h, hload.1⟩
      | killed =>
        cases hperform
        exact ⟨⟨entries, hload.1 ▸ h.holds, h.additional, fun _ hlog => (by cases hlog)⟩, entries, h, hload.1⟩
  | append i e uuid script =>
    obtain ⟨log, hlog, hperform⟩ := Option.map_eq_some_iff.mp hstep
    have hmem : log ∈ s.logs := mem_of_getElem? hlog
    have happend := wp_append e uuid (m := ⟨s.tree, script⟩) h.holds (h.behind log hmem)
    cases hrun : (append log e uuid).run ⟨s.tree, script⟩ with
    | ok log' m =>
      rw [wp_of_ok hrun] at happend
      rw [hrun] at hperform
      obtain ⟨hholds, hstaging, -, rfl⟩ := happend
      cases hperform
      refine ⟨⟨_, h.of_append hi hholds fun log' hlog' => ?_⟩, entries, h, fun _ => ⟨hholds, hstaging⟩,
        fun hreturned => absurd rfl hreturned, fun _ herror => (by cases herror)⟩
      exact (mem_or_eq_of_mem_set hlog')
    | error failure m =>
      rw [wp_of_error hrun] at happend
      rw [hrun] at hperform
      obtain ⟨happended, hclean, -⟩ := happend
      -- the append raised or was killed: its event is there or not, for whatever logs are left
      have hafter : ∀ logs, (∀ log ∈ logs, log ∈ s.logs) → ∃ entries', Consistent entries' ⟨m.state, logs⟩ := by
        intro logs hlogs
        rcases happended.events with hsame | ⟨hadded, -⟩
        · exact ⟨entries, hsame, h.additional, fun log hlog => h.behind log (hlogs log hlog)⟩
        · exact ⟨_, h.of_append hi hadded fun log hlog => .inl (hlogs log hlog)⟩
      cases failure with
      | raised error =>
        cases hperform
        refine ⟨hafter _ fun _ hlog => hlog, entries, h, fun hreturned => (by cases hreturned),
          fun _ => happended, fun error' herror hhandling => ?_⟩
        cases herror
        exact hclean error rfl hhandling
      | killed =>
        cases hperform
        exact ⟨hafter _ fun _ hlog => (by cases hlog), entries, h, fun hreturned => (by cases hreturned),
          fun _ => happended, fun _ herror => (by cases herror)⟩

/-- A construction that no operation disturbs recovers the log, and such an append goes on from there. -/
def Resumes (entries : List Entry) (t : Tree) : Prop :=
  load.run ⟨t, []⟩ = .ok ⟨entries.map (·.action), entries.length⟩ ⟨t, []⟩ ∧
    ∀ e uuid, ∃ t' script, (append ⟨entries.map (·.action), entries.length⟩ e uuid).run ⟨t, []⟩ =
      .ok ⟨(entries ++ [e]).map (·.action), entries.length + 1⟩ ⟨t', script⟩ ∧ Holds (entries ++ [e]) t'

theorem resumes_of_holds (h : Holds entries t)
    (hadditional : ∀ e ∈ entries, e.Additional) (hstaging : t.staging = [])
    (hroom : entries.length + 1 < 10 ^ 6) : Resumes entries t := by
  refine ⟨?_, fun e uuid => ?_⟩
  · have hload := wp_load hadditional (m := ⟨t, []⟩) h
    cases hrun : load.run ⟨t, []⟩ with
    | ok log m =>
      rw [wp_of_ok hrun] at hload
      obtain ⟨hstate, -, hscript, rfl⟩ := hload
      obtain ⟨t', script⟩ := m
      rw [show t' = t from hstate, show script = [] from hscript rfl]
    | error failure m =>
      rw [wp_of_error hrun] at hload
      exact absurd rfl (hload.2 hstaging (by omega))
  · have happend := wp_append e uuid (m := ⟨t, []⟩) h (behind_all entries)
    cases hrun : (append ⟨entries.map (·.action), entries.length⟩ e uuid).run ⟨t, []⟩ with
    | ok log m =>
      rw [wp_of_ok hrun] at happend
      obtain ⟨hholds, -, -, rfl⟩ := happend
      exact ⟨m.state, m.script, rfl, hholds⟩
    | error failure m =>
      rw [wp_of_error hrun] at happend
      -- the name is free and so is the staging directory: no operation can have raised
      refine absurd (fun _ hentry => (by simp at hentry)) (happend.2.2 (not_taken_succ h hroom) ?_)
      rw [show (⟨t, []⟩ : Machine (Exit LogError) Tree).state.staging = [] from hstaging]
      rfl

def LeavesStaging (i : Command × Outcome) : Prop :=
  (∃ k e uuid script, i.1 = .append k e uuid script) ∧
    (i.2 = .killed ∨ ∃ error, i.2 = .raised error ∧ error.handling = true)

theorem leavesStaging_of_performed {i : Command × Outcome} (h : Performed s i s')
    (hbefore : s.tree.staging = []) (hafter : s'.tree.staging ≠ []) : LeavesStaging i := by
  obtain ⟨command, outcome⟩ := i
  obtain ⟨entries, -, hcommand⟩ := h
  cases command with
  | construct script =>
    have hsame : s'.tree = s.tree := hcommand
    exact absurd (by rw [hsame, hbefore]) hafter
  | append k e uuid script =>
    obtain ⟨hreturned, -, hclean⟩ := hcommand
    refine ⟨⟨k, e, uuid, script, rfl⟩, ?_⟩
    cases outcome with
    | returned => exact absurd ((hreturned rfl).2.trans hbefore) hafter
    | killed => exact .inl rfl
    | raised error =>
      by_cases hhandling : error.handling = true
      · exact .inr ⟨error, rfl, hhandling⟩
      · exact absurd ((hclean error rfl (Bool.eq_false_iff.mpr hhandling)).trans hbefore) hafter

/-- In every run of constructions and appends the tree holds exactly the events 1 to n, each with the actions up
to it; an append that returns adds its event, one that raises adds none unless its rename had taken effect; a
later construction recovers the log and the next append goes on, unless a staging directory is left, which only
an append leaves that was killed or whose clean-up raised. -/
theorem event_log_resumes {es : List (Bravo.Entry Site (Command × Outcome))} {s : Site}
    (hrun : Run Site.Step {} es s) (hfields : ∀ e ∈ es, e.input.1.Additional) :
    (∃ entries, Consistent entries s ∧
      (s.tree.staging = [] → entries.length + 1 < 10 ^ 6 → Resumes entries s.tree) ∧
      (s.tree.staging ≠ [] → ∀ script, wp load (fun _ _ => False) (fun _ m' => m'.state = s.tree) ⟨s.tree, script⟩)) ∧
    (s.tree.staging ≠ [] → ∃ e ∈ es, LeavesStaging e.input) ∧
    ∀ e ∈ es, Performed e.pre e.input e.post := by
  have hinvariant : (∀ e ∈ es, e.input.1.Additional) → (∃ entries, Consistent entries s) ∧
      (s.tree.staging ≠ [] → ∃ e ∈ es, LeavesStaging e.input) ∧ ∀ e ∈ es, Performed e.pre e.input e.post := by
    induction hrun with
    | nil =>
      intro _
      refine ⟨⟨[], rfl, fun _ he => (by cases he), fun _ hlog => (by cases hlog)⟩, fun hleft => ?_,
        fun _ he => (by cases he)⟩
      exact absurd rfl hleft
    | snoc hbefore_run hstep ih =>
      rename_i es s s' i
      intro hall
      have hlast : i.1.Additional := hall ⟨s, i, s'⟩ (mem_append_right es mem_cons_self)
      obtain ⟨⟨entries, hconsistent⟩, hleft, hperformed⟩ :=
        ih (fun e he => hfields e (mem_append_left _ he)) fun e he => hall e (mem_append_left _ he)
      obtain ⟨hafter, hdone⟩ := step_consistent hconsistent hlast hstep
      refine ⟨hafter, fun hnow => ?_, fun e he => ?_⟩
      · by_cases hbefore : s.tree.staging = []
        · exact ⟨_, mem_append_right es mem_cons_self, leavesStaging_of_performed hdone hbefore hnow⟩
        · obtain ⟨e, he, hleaves⟩ := hleft hbefore
          exact ⟨e, mem_append_left _ he, hleaves⟩
      · rcases mem_append.mp he with hmem | hmem
        · exact hperformed e hmem
        · rw [mem_singleton.mp hmem]
          exact hdone
  obtain ⟨⟨entries, hconsistent⟩, hleft, hperformed⟩ := hinvariant hfields
  refine ⟨⟨entries, hconsistent, fun hstaging hroom => ?_, fun hstaging script => ?_⟩, hleft, hperformed⟩
  · exact resumes_of_holds hconsistent.holds hconsistent.additional hstaging hroom
  · refine wp_mono (wp_load hconsistent.additional (m := ⟨s.tree, script⟩) hconsistent.holds)
      (fun _ _ h => hstaging h.2.1) (fun _ _ h => h.1)

def campaignStart : Entry := ⟨"campaign-start-scored", [("lane", .str "scored")], "2026-01-01T00:00:00Z"⟩

def campaignEnd : Entry := ⟨"campaign-end-scored", [("lane", .str "scored")], "2026-01-02T00:00:00Z"⟩

/-- The sync of the receipt raises and the event is taken back; the next append is killed at its rename. -/
theorem event_log_resumes_start :
    let started : Site := ⟨settled [] [published [] campaignStart], [⟨["campaign-start-scored"], 1⟩]⟩
    let s : Site := ⟨staged [] [published [] campaignStart] ".staging-2b"
      (published ["campaign-start-scored"] campaignEnd).2, []⟩
    let es : List (Bravo.Entry Site (Command × Outcome)) := [⟨{}, (.construct [], .returned), ⟨{}, [{}]⟩⟩,
      ⟨⟨{}, [{}]⟩, (.append 0 campaignStart "0f" [], .returned), started⟩,
      ⟨started, (.append 0 campaignEnd "1a" (List.replicate 8 none ++
        [some ⟨.raised ⟨"Input/output error", false⟩, false⟩]), .raised ⟨"Input/output error", false⟩), started⟩,
      ⟨started, (.append 0 campaignEnd "2b" (List.replicate 14 none ++ [some ⟨.killed, false⟩]), .killed), s⟩]
    (∃ entries, Consistent entries s ∧
      (s.tree.staging = [] → entries.length + 1 < 10 ^ 6 → Resumes entries s.tree) ∧
      (s.tree.staging ≠ [] → ∀ script, wp load (fun _ _ => False) (fun _ m' => m'.state = s.tree) ⟨s.tree, script⟩)) ∧
    (s.tree.staging ≠ [] → ∃ e ∈ es, LeavesStaging e.input) ∧
    ∀ e ∈ es, Performed e.pre e.input e.post := by
  intro started s es
  have hconstruct : Site.Step {} (.construct [], .returned) ⟨{}, [{}]⟩ := rfl
  have happend : Site.Step ⟨{}, [{}]⟩ (.append 0 campaignStart "0f" [], .returned) started := by
    rw [Site.Step]
    rfl
  have hraise : Site.Step started (.append 0 campaignEnd "1a" (List.replicate 8 none ++
      [some ⟨.raised ⟨"Input/output error", false⟩, false⟩]), .raised ⟨"Input/output error", false⟩) started := by
    rw [Site.Step]
    rfl
  have hkill : Site.Step started
      (.append 0 campaignEnd "2b" (List.replicate 14 none ++ [some ⟨.killed, false⟩]), .killed) s := by
    rw [Site.Step]
    rfl
  refine event_log_resumes ((((Run.nil).snoc hconstruct).snoc happend).snoc hraise |>.snoc hkill) fun e he => ?_
  have hfields : campaignStart.Additional ∧ campaignEnd.Additional := by decide
  simp only [es, mem_cons, not_mem_nil, or_false] at he
  rcases he with rfl | rfl | rfl | rfl
  exacts [trivial, hfields.1, hfields.2, hfields.2]

/-- The sync after the rename raises: the append raises, and its event is there. Killed at the rename: the next
construction is refused. A field in the place of the index makes it refused as well, and the names of a million
events do not sort by index. -/
theorem event_log_not_always_resumable :
    (Site.perform ⟨{}, [{}]⟩ (.append 0 campaignStart "0f"
      (List.replicate 15 none ++ [some ⟨.raised ⟨"Input/output error", false⟩, false⟩]))).map
        (fun r => (r.1, r.2.tree.events.map (·.1))) =
          some (.raised ⟨"Input/output error", false⟩, ["000001"]) ∧
    ((Site.perform ⟨{}, [{}]⟩ (.append 0 campaignStart "0f"
      (List.replicate 14 none ++ [some ⟨.killed, false⟩]))).bind fun r => r.2.perform (.construct [])).map (·.1) =
        some (.raised ⟨"unfinished atomic campaign event exists", false⟩) ∧
    ((Site.perform ⟨{}, [{}]⟩ (.append 0 { campaignStart with fields := [("event_index", .int 7)] } "0f" [])).bind
      fun r => r.2.perform (.construct [])).map (·.1) =
        some (.raised ⟨"campaign receipt schema/index mismatch", false⟩) ∧
    eventName 1000000 < eventName 999999 := by
  refine ⟨?_, ?_, ?_, ?_⟩ <;> decide +kernel

end Bravo.Campaign
