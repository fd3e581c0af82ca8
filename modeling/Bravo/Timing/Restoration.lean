import Bravo.Timing.Controls

/-! # What a host-control transaction leaves behind

A restoration that returns has proved the captured state: it read every control back. Until the journal
holds the captured snapshot no operation changes a control, and a restoration of the captured values
does not change a host that has them. So at every instant the host has its captured values or they are
in the journal.
-/

namespace Bravo.Timing

open List

/-! ## Captured and desired values -/

/-- The controls of the profile have the values they have in `s₀`. -/
structure Agrees (p : Profile) (s s₀ : Settings) : Prop where
  texts : ∀ write ∈ p.writes, s.texts write.path = s₀.texts write.path
  modules : ∀ action ∈ p.moduleActions, s.modules action.name = s₀.modules action.name
  services : ∀ action ∈ p.serviceActions, s.services action.name = s₀.services action.name
  affinity : s.affinity = s₀.affinity

structure Desired (p : Profile) (h : Host) : Prop where
  texts : ∀ write ∈ p.writes, h.settings.texts write.path = write.desiredText
  modules : ∀ action ∈ p.moduleActions, h.settings.modules action.name = true
  services : ∀ action ∈ p.serviceActions, h.settings.services action.name = false
  affinity : h.settings.affinity = p.cpuIds
  dma : h.dmaHeld = true

def valuesOf (writes : List Write) (s : Settings) : List ControlValue :=
  writes.map fun write => ⟨write.path, write.parser, s.texts write.path⟩

/-- What `_capture` reads. -/
def captureOf (p : Profile) (s : Settings) : ControlSnapshot where
  values := valuesOf p.writes s
  modulesPreexisting := sortedNames ((p.moduleActions.map (·.name)).filter s.modules)
  servicesActive := sortedNames ((p.serviceActions.map (·.name)).filter s.services)
  processAffinity := s.affinity

@[simp] theorem mem_sortedNames {name : String} {names : List String} :
    name ∈ sortedNames names ↔ name ∈ names := mem_mergeSort

theorem filter_eq_of_sortedNames {names : List String} {f g : String → Bool}
    (h : sortedNames (names.filter f) = sortedNames (names.filter g)) {name : String}
    (hname : name ∈ names) : f name = g name := by
  have hmem : name ∈ names.filter f ↔ name ∈ names.filter g := by
    rw [← mem_sortedNames, h, mem_sortedNames]
  rw [mem_filter, mem_filter] at hmem
  simp only [hname, true_and] at hmem
  exact Bool.eq_iff_iff.mpr hmem

theorem captureOf_eq_iff {p : Profile} {s s₀ : Settings} :
    captureOf p s = captureOf p s₀ ↔ Agrees p s s₀ := by
  constructor
  · intro h
    have hvalues := congrArg ControlSnapshot.values h
    have hmodules := congrArg ControlSnapshot.modulesPreexisting h
    have hservices := congrArg ControlSnapshot.servicesActive h
    refine ⟨fun write hwrite => ?_, fun action haction => ?_, fun action haction => ?_,
      congrArg ControlSnapshot.processAffinity h⟩
    · have hvalue := map_inj_left.mp hvalues write hwrite
      exact congrArg ControlValue.text hvalue
    · exact filter_eq_of_sortedNames hmodules (mem_map_of_mem haction)
    · exact filter_eq_of_sortedNames hservices (mem_map_of_mem haction)
  · intro h
    have hvalues : (captureOf p s).values = (captureOf p s₀).values :=
      map_congr_left fun write hwrite => by rw [h.texts write hwrite]
    have hmodules : (p.moduleActions.map (·.name)).filter s.modules =
        (p.moduleActions.map (·.name)).filter s₀.modules := by
      refine filter_congr (fun name hname => ?_)
      obtain ⟨action, haction, rfl⟩ := mem_map.mp hname
      exact h.modules action haction
    have hservices : (p.serviceActions.map (·.name)).filter s.services =
        (p.serviceActions.map (·.name)).filter s₀.services := by
      refine filter_congr (fun name hname => ?_)
      obtain ⟨action, haction, rfl⟩ := mem_map.mp hname
      exact h.services action haction
    unfold captureOf at hvalues ⊢
    rw [hmodules, hservices, h.affinity]
    exact congrArg (fun values => ControlSnapshot.mk values _ _ _) hvalues

/-! ## Reading -/

theorem observes_read {α : Type} (f : Control → α) : Observes (read f) f := fun _ => ⟨rfl, rfl⟩

@[simp] theorem wp_read {α : Type} {f : Control → α} {Q : α → Machine (Exit ControlError) Control → Prop}
    {E : Exit ControlError → Machine (Exit ControlError) Control → Prop}
    {m : Machine (Exit ControlError) Control} : wp (read f) Q E m ↔ Q (f m.state) m := .rfl

theorem reports_parseControlValue (b : Backend) (text parser : String) :
    Reports (parseControlValue b text parser) := by
  unfold parseControlValue
  cases b.parseControlValue text parser with
  | ok _ => exact .of_pure _
  | error e => exact .of_throw _

theorem observes_namesWhere {ask : String → Controlling Bool} {g : String → Control → Bool}
    (hask : ∀ name, Observes (ask name) (g name)) (names : List String) :
    Observes (namesWhere ask names) fun s => names.filter fun name => g name s := by
  induction names with
  | nil => exact observes_pure []
  | cons name names ih =>
    simp only [filter_cons]
    exact .bind
      (h := fun yes s => if yes then name :: names.filter (fun name => g name s)
        else names.filter fun name => g name s)
      (hask name) fun yes => .bind
        (h := fun rest _ => if yes then name :: rest else rest) ih fun rest => observes_pure _

theorem observes_captureValues (b : Backend) (writes : List Write) :
    Observes (captureValues b writes) fun s => valuesOf writes s.host.settings := by
  induction writes with
  | nil => exact observes_pure []
  | cons write writes ih =>
    exact .bind
      (h := fun text (s : Control) =>
        ⟨write.path, write.parser, text⟩ :: valuesOf writes s.host.settings)
      (observes_query _) fun text => .of_reports (reports_parseControlValue b text write.parser)
        fun _ => .bind (h := fun rest _ => ⟨write.path, write.parser, text⟩ :: rest) ih
          fun rest => observes_pure _

theorem observes_readValues (writes : List Write) :
    Observes (readValues writes) fun s => valuesOf writes s.host.settings := by
  induction writes with
  | nil => exact observes_pure []
  | cons write writes ih =>
    exact .bind
      (h := fun text (s : Control) =>
        ⟨write.path, write.parser, text⟩ :: valuesOf writes s.host.settings)
      (observes_query _) fun text => .bind
        (h := fun rest _ => ⟨write.path, write.parser, text⟩ :: rest) ih fun rest => observes_pure _

theorem observes_capture (p : Profile) (b : Backend) :
    Observes (capture p b) fun s => captureOf p s.host.settings := by
  let services (s : Control) := sortedNames ((p.serviceActions.map (·.name)).filter s.host.settings.services)
  let modules (s : Control) := sortedNames ((p.moduleActions.map (·.name)).filter s.host.settings.modules)
  refine .bind (h := fun values (s : Control) =>
    ControlSnapshot.mk values (modules s) (services s) s.host.settings.affinity)
    (observes_captureValues b _) fun values => ?_
  refine .bind (h := fun loaded (s : Control) =>
    ControlSnapshot.mk values (sortedNames loaded) (services s) s.host.settings.affinity)
    (observes_namesWhere (fun name => observes_query _) _) fun loaded => ?_
  refine .bind (h := fun active (s : Control) =>
    ControlSnapshot.mk values (sortedNames loaded) (sortedNames active) s.host.settings.affinity)
    (observes_namesWhere (fun name => observes_query _) _) fun active => ?_
  refine .bind (h := fun cpus _ =>
    ControlSnapshot.mk values (sortedNames loaded) (sortedNames active) cpus)
    (observes_query _) fun cpus => ?_
  exact .of_reports (.of_onlyIf (.of_throw _)) fun _ => observes_pure _

/-! ## Frames -/

/-- A part of the state that the settings of the host, the boundary history and the guardian are no part
of. -/
structure Frame {β : Type} (f : Control → β) : Prop where
  settings : ∀ s settings, f { s with host := { s.host with settings := settings } } = f s
  history : ∀ s history, f { s with boundaryHistory := history } = f s
  guardian : ∀ s guardian, f { s with guardian := guardian } = f s

/-- Whatever its outcome, the program leaves the part `f` as it was. -/
abbrev Leaves {α β : Type} (f : Control → β) (x : Controlling α) : Prop :=
  Keeps (fun m : Machine (Exit ControlError) Control => f m.state) x

section Frames

variable {β : Type} {f : Control → β}

theorem reports_verifyJournalName : Reports verifyJournalName := by
  intro m
  refine wp_operateChecked (fun s script hs => ?_) (fun _ _ => rfl) (fun _ s script hs => ?_)
  all_goals
    cases hdurable : m.state.durable with
    | none => simp [hdurable] at hs
    | some snapshot =>
      simp only [hdurable] at hs
      cases hs
      rfl

theorem reports_journalAppend : Reports journalAppend :=
  .bind reports_verifyJournalName fun _ => reports_operate_id

theorem leaves_assertAlive (hg : ∀ s guardian, f { s with guardian := guardian } = f s) (g : Guardian) :
    Leaves f (assertAlive g) := by
  refine .bind (.of_onlyIf (.of_throw _)) (fun _ => ?_)
  refine .bind reports_operate_id.keeps (fun _ => ?_)
  refine .bind (.of_rescue reports_operate_id.keeps) (fun outcome => ?_)
  cases outcome with
  | ok _ => exact .of_pure _
  | error _ => exact .bind (.of_update fun s => hg s _) fun _ => .of_throw _

theorem leaves_checkpoint (hh : ∀ s history, f { s with boundaryHistory := history } = f s)
    (hg : ∀ s guardian, f { s with guardian := guardian } = f s) (phase : Phase) (name : String)
    (journal : Bool) : Leaves f (checkpoint phase name journal) := by
  refine .bind (observes_read _).reports.keeps (fun _ => ?_)
  refine .bind (.of_onlyIf reports_journalAppend.keeps) (fun _ => ?_)
  refine .bind (.of_update fun s => hh s _) (fun _ => ?_)
  refine .bind (observes_read _).reports.keeps (fun guardian => ?_)
  refine .bind ?_ (fun _ => reports_operate_id.keeps)
  cases guardian with
  | none => exact .of_pure _
  | some g => exact .of_onlyIf (leaves_assertAlive hg g)

variable {x : Controlling Unit} {label : String}

theorem leaves_collect (hx : Leaves f x) : Leaves f (collect label x) := by
  refine .bind (.of_rescue hx) (fun outcome => ?_)
  cases outcome <;> exact .of_pure _

variable {boundary : Option (String → Controlling Unit)}

theorem leaves_operation
    (hb : ∀ call ∈ boundary, ∀ name, Leaves f (call name)) (hx : Leaves f x) :
    Leaves f (operation boundary label x) := by
  cases boundary with
  | none => exact leaves_collect hx
  | some call =>
    refine .bind (leaves_collect (hb call rfl _)) (fun _ => ?_)
    refine .bind (leaves_collect hx) (fun _ => ?_)
    exact .bind (leaves_collect (hb call rfl _)) fun _ => .of_pure _

theorem reports_collect (hx : Reports x) : Reports (collect label x) := by
  refine .bind (.of_rescue hx) (fun outcome => ?_)
  cases outcome <;> exact .of_pure _

theorem reports_verifySnapshotExact (p : Profile) (b : Backend) (snapshot : ControlSnapshot)
    (processLocal : Bool) : Reports (verifySnapshotExact p b snapshot processLocal) := by
  have hquery : ∀ {α : Type} (g : Control → α) (k : α → Controlling Unit), (∀ a, Reports (k a)) →
      ∀ label, Reports (collect label (query g >>= k)) :=
    fun g k hk label => reports_collect (.bind (reports_query g) hk)
  refine .bind (.of_gather (fun v => hquery _ _ (fun observed => ?_) _) _) (fun _ => ?_)
  · exact .bind (reports_parseControlValue _ _ _) fun _ => .of_onlyIf (.of_throw _)
  refine .bind (.of_gather (fun _ => hquery _ _ (fun _ => .of_onlyIf (.of_throw _)) _) _)
    (fun _ => ?_)
  refine .bind (.of_gather (fun _ => hquery _ _ (fun _ => .of_onlyIf (.of_throw _)) _) _)
    (fun _ => ?_)
  refine .bind (.ite ?_ (.of_pure _)) (fun _ => .of_pure _)
  exact hquery _ _ (fun _ => .of_onlyIf (.of_throw _)) _

theorem leaves_restoreWrite (hf : Frame f) (b : Backend) (path : String) (prior : ControlValue) :
    Leaves f (restoreWrite b path prior) := by
  refine .bind (.of_operate fun s => hf.settings s _) (fun _ => ?_)
  refine .bind (reports_query _).keeps (fun _ => ?_)
  exact .bind (reports_parseControlValue _ _ _).keeps fun _ => .of_onlyIf (.of_throw _)

theorem leaves_restoreNamed (hf : Frame f) {b : Backend} {ask : String → Controlling Bool}
    (hask : ∀ name, Reports (ask name)) (name : String) (prior : Bool) (onArgv offArgv : List String)
    (message : String) : Leaves f (restoreNamed b ask name prior onArgv offArgv message) := by
  refine .bind (hask name).keeps (fun _ => ?_)
  refine .bind (.of_onlyIf (.of_operate fun s => hf.settings s _)) (fun _ => ?_)
  exact .bind (hask name).keeps fun _ => .of_onlyIf (.of_throw _)

theorem leaves_recoverSettings (hf : Frame f) (p : Profile) (b : Backend) (snapshot : ControlSnapshot)
    (processLocal : Bool) (hb : ∀ call ∈ boundary, ∀ name, Leaves f (call name)) :
    Leaves f (recoverSettings p b snapshot processLocal boundary) := by
  refine .bind (.ite ?_ (.of_pure _)) (fun _ => ?_)
  · exact leaves_operation hb (.of_operate fun s => hf.settings s _)
  refine .bind (.of_gather (fun entry => ?_) _) (fun _ => ?_)
  · unfold restoreWriteAt
    cases priorByPath snapshot entry.1.path with
    | none => exact .of_throw _
    | some prior => exact leaves_operation hb (leaves_restoreWrite hf b _ prior)
  refine .bind (.of_gather (fun entry => leaves_operation hb ?_) _) (fun _ => ?_)
  · exact leaves_restoreNamed hf (fun _ => reports_query _) _ _ _ _ _
  refine .bind (.of_gather (fun entry => leaves_operation hb ?_) _) (fun _ => ?_)
  · exact leaves_restoreNamed hf (fun _ => reports_query _) _ _ _ _ _
  exact .bind (reports_verifySnapshotExact p b snapshot processLocal).keeps fun _ => .of_pure _

theorem leaves_recoverSnapshotExact (hf : Frame f)
    (hd : ∀ s held, f { s with host := { s.host with dmaHeld := held } } = f s) (p : Profile) (b : Backend)
    (snapshot : ControlSnapshot) (processLocal : Bool)
    (hb : ∀ call ∈ boundary, ∀ name, Leaves f (call name)) :
    Leaves f (recoverSnapshotExact p b snapshot processLocal boundary) := by
  refine .bind (.ite ?_ (.of_pure _)) (fun _ => ?_)
  · exact leaves_operation hb (.of_operate fun s => hd s _)
  refine .bind (leaves_recoverSettings hf p b snapshot processLocal hb) (fun _ => ?_)
  exact .of_onlyIf (.of_throw _)

end Frames

/-! ## Restoring a host that has its prior values -/

/-- The host has the values of `h₀`, and no DMA hold that `h₀` does not have. -/
structure Restored (p : Profile) (h₀ : Host) (h : Host) : Prop where
  agrees : Agrees p h.settings h₀.settings
  released : h.dmaHeld = true → h₀.dmaHeld = true

section Restoring

variable {p : Profile} {b : Backend} {h₀ : Host}

/-- Whatever its outcome, the program started on a restored host ends on one. -/
abbrev StaysRestored {α : Type} (p : Profile) (h₀ : Host) (x : Controlling α) : Prop :=
  Preserves (fun m : Machine (Exit ControlError) Control => Restored p h₀ m.state.host) x

theorem staysRestored_of_leaves {α : Type} {x : Controlling α} (hx : Leaves (·.host) x) :
    StaysRestored p h₀ x := by
  refine .of_keeps hx (fun {s t} heq h => ?_)
  have heq : t.state.host = s.state.host := heq
  rwa [heq]

theorem staysRestored_of_reports {α : Type} {x : Controlling α} (hx : Reports x) : StaysRestored p h₀ x :=
  staysRestored_of_leaves hx.keeps

theorem staysRestored_operate {f : Control → Control}
    (h : ∀ s, Restored p h₀ s.host → Restored p h₀ (f s).host) : StaysRestored p h₀ (operate f) :=
  .of_operate (P := fun s : Control => Restored p h₀ s.host) h

theorem staysRestored_collect {label : String} {x : Controlling Unit} (hx : StaysRestored p h₀ x) :
    StaysRestored p h₀ (collect label x) := by
  refine .bind (.of_rescue hx) (fun outcome => ?_)
  cases outcome <;> exact .of_pure _

variable {boundary : Option (String → Controlling Unit)}

theorem staysRestored_operation {label : String}
    {x : Controlling Unit} (hb : ∀ call ∈ boundary, ∀ name, Leaves (·.host) (call name))
    (hx : StaysRestored p h₀ x) : StaysRestored p h₀ (operation boundary label x) := by
  cases boundary with
  | none => exact staysRestored_collect hx
  | some call =>
    refine .bind (staysRestored_collect (staysRestored_of_leaves (hb call rfl _))) (fun _ => ?_)
    refine .bind (staysRestored_collect hx) (fun _ => ?_)
    exact .bind (staysRestored_collect (staysRestored_of_leaves (hb call rfl _))) fun _ => .of_pure _

theorem priorByPath_text {path : String} {prior : ControlValue}
    (h : priorByPath (captureOf p h₀.settings) path = some prior) : prior.text = h₀.settings.texts path := by
  have hmem := mem_reverse.mp (mem_of_find?_eq_some h)
  have hpath : prior.path = path := by simpa using find?_some h
  obtain ⟨write, _, rfl⟩ := mem_map.mp hmem
  exact congrArg h₀.settings.texts hpath

theorem staysRestored_restoreWrite {path : String} {prior : ControlValue}
    (h : priorByPath (captureOf p h₀.settings) path = some prior) :
    StaysRestored p h₀ (restoreWrite b path prior) := by
  refine .bind (staysRestored_operate fun s hs => ?_) (fun _ => ?_)
  · refine ⟨⟨fun write hwrite => ?_, hs.agrees.modules, hs.agrees.services, hs.agrees.affinity⟩,
      hs.released⟩
    show (if write.path = path then prior.text else s.host.settings.texts write.path) = _
    split
    · next heq => rw [heq, priorByPath_text h]
    · exact hs.agrees.texts write hwrite
  refine .bind (staysRestored_of_reports (observes_query _).reports) (fun _ => ?_)
  refine .bind (staysRestored_of_reports (reports_parseControlValue _ _ _)) (fun _ => ?_)
  exact .of_onlyIf (.of_throw _)

theorem staysRestored_restoreNamed {ask : Settings → String → Bool} {name : String} {prior : Bool}
    {onArgv offArgv : List String} {message : String}
    (hprior : ∀ h, Restored p h₀ h → ask h.settings name = prior) :
    StaysRestored p h₀ (restoreNamed b (fun n => query fun s => ask s.host.settings n) name prior onArgv
      offArgv message) := by
  intro m hm
  rw [restoreNamed, wp_bind]
  refine (observes_query _).wp (fun m₁ h₁ => ?_) (fun _ m₁ h₁ => ?_)
  · have hm₁ : Restored p h₀ m₁.state.host := by rwa [h₁]
    rw [hprior _ hm, wp_bind, wp_onlyIf]
    refine ⟨fun hne => by simp at hne, fun _ => ?_⟩
    have hrest : StaysRestored p h₀ (do
        let settled ← query fun s : Control => ask s.host.settings name
        onlyIf (settled ≠ prior) (failControl message)) := by
      refine .bind (staysRestored_of_reports (observes_query _).reports) (fun _ => ?_)
      exact .of_onlyIf (.of_throw _)
    exact hrest m₁ hm₁
  · show Restored p h₀ m₁.state.host
    rwa [h₁]

theorem contains_sortedNames_filter {names : List String} {f : String → Bool} {name : String}
    (h : name ∈ names) : (sortedNames (names.filter f)).contains name = f name := by
  rw [Bool.eq_iff_iff, contains_iff_mem, mem_sortedNames, mem_filter]
  simp [h]

theorem staysRestored_recoverSettings {processLocal : Bool}
    (hb : ∀ call ∈ boundary, ∀ name, Leaves (·.host) (call name)) :
    StaysRestored p h₀ (recoverSettings p b (captureOf p h₀.settings) processLocal boundary) := by
  refine .bind (.ite ?_ (.of_pure _)) (fun _ => ?_)
  · refine staysRestored_operation hb (staysRestored_operate fun s hs => ?_)
    exact ⟨⟨hs.agrees.texts, hs.agrees.modules, hs.agrees.services, rfl⟩, hs.released⟩
  refine .bind (.of_gather fun entry _ => ?_) (fun _ => ?_)
  · unfold restoreWriteAt
    cases hprior : priorByPath (captureOf p h₀.settings) entry.1.path with
    | none => exact .of_throw _
    | some prior => exact staysRestored_operation hb (staysRestored_restoreWrite hprior)
  refine .bind (.of_gather fun entry hentry => ?_) (fun _ => ?_)
  · have hmem := fst_mem_of_mem_zipIdx (mem_reverse.mp hentry)
    refine staysRestored_operation hb (staysRestored_restoreNamed fun h hh => ?_)
    rw [hh.agrees.services _ hmem]
    exact (contains_sortedNames_filter (mem_map_of_mem hmem)).symm
  refine .bind (.of_gather fun entry hentry => ?_) (fun _ => ?_)
  · have hmem := fst_mem_of_mem_zipIdx (mem_reverse.mp hentry)
    refine staysRestored_operation hb (staysRestored_restoreNamed fun h hh => ?_)
    rw [hh.agrees.modules _ hmem]
    exact (contains_sortedNames_filter (mem_map_of_mem hmem)).symm
  exact .bind (staysRestored_of_reports (reports_verifySnapshotExact _ _ _ _)) fun _ => .of_pure _

theorem staysRestored_recoverSnapshotExact {processLocal : Bool}
    (hb : ∀ call ∈ boundary, ∀ name, Leaves (·.host) (call name)) :
    StaysRestored p h₀ (recoverSnapshotExact p b (captureOf p h₀.settings) processLocal boundary) := by
  refine .bind (.ite ?_ (.of_pure _)) (fun _ => ?_)
  · exact staysRestored_operation hb (staysRestored_operate fun s hs => ⟨hs.agrees, fun hheld => by cases hheld⟩)
  refine .bind (staysRestored_recoverSettings hb) (fun _ => ?_)
  exact .of_onlyIf (.of_throw _)

end Restoring

/-! ## The parts of a restoration -/

/-- The journal file, the clock and the fields of the transaction, but for the boundary history and the
guardian. -/
def books (s : Control) :=
  (s.durable, s.readings, s.snapshot, s.priorReceipt, s.appliedReceipt, s.restoredReceipt, s.state,
    s.hadAbnormalRecovery, s.journal)

/-- All of the state but the boundary history and the guardian: what a checkpoint leaves as it was. -/
def calm (s : Control) := (s.host, books s)

theorem frame_books : Frame books := ⟨fun _ _ => rfl, fun _ _ => rfl, fun _ _ => rfl⟩

def Safe (p : Profile) (h₀ : Host) (s : Control) : Prop :=
  Restored p h₀ s.host ∨ s.durable = some (captureOf p h₀.settings)

section Parts

variable {p : Profile} {b : Backend} {h₀ : Host} {clock : Nat → Nat}
variable {m : Machine (Exit ControlError) Control}

theorem leaves_boundary {β : Type} {f : Control → β}
    (hh : ∀ s history, f { s with boundaryHistory := history } = f s)
    (hg : ∀ s guardian, f { s with guardian := guardian } = f s) :
    ∀ call ∈ some fun name => checkpoint .restore name, ∀ name, Leaves f (call name) := by
  intro call hcall name
  cases hcall
  exact leaves_checkpoint hh hg _ _ _

variable {E : Exit ControlError → Machine (Exit ControlError) Control → Prop}

theorem wp_collect {label : String} {x : Controlling Unit}
    {Q : List String → Machine (Exit ControlError) Control → Prop} (h : wp x (fun _ m' => Q [] m')
      (fun e m' => (∀ e', e = .raised e' → Q [label ++ e'.text] m') ∧ (e = .killed → E .killed m')) m) :
    wp (collect label x) Q E m := by
  rw [collect, wp_bind]
  exact wp_rescue (wp_mono h (fun _ _ hq => hq) (fun e _ he => ⟨fun e' heq => he.1 e' heq, he.2⟩))

theorem keeps_safe {α : Type} {x : Controlling α} (hbooks : Leaves books x) (hx : StaysRestored p h₀ x) :
    Preserves (fun m : Machine (Exit ControlError) Control => Safe p h₀ m.state) x := by
  refine .or hx (.of_keeps hbooks (fun {s t} heq h => ?_))
  have heq : t.state.durable = s.state.durable := congrArg Prod.fst heq
  rwa [heq]

/-- A release without an error released the hold, and nothing of the recovery takes it again. -/
theorem wp_recoverSnapshotExact (snapshot : ControlSnapshot) :
    wp (recoverSnapshotExact p b snapshot true (some fun name => checkpoint .restore name))
      (fun _ m' => m'.state.host.dmaHeld = false) (fun _ _ => True) m := by
  have hframe : Frame fun s : Control => s.host.dmaHeld := ⟨fun _ _ => rfl, fun _ _ => rfl, fun _ _ => rfl⟩
  have hboundary : ∀ name, Leaves (fun s : Control => s.host.dmaHeld) (checkpoint .restore name) :=
    fun name => leaves_checkpoint hframe.history hframe.guardian _ _ _
  have hrelease : ∀ m : Machine (Exit ControlError) Control,
      wp (operation (some fun name => checkpoint .restore name) "dma_latency_release" releaseDmaLatency)
        (fun errors m' => errors = [] → m'.state.host.dmaHeld = false) (fun _ _ => True) m := by
    intro m
    rw [operation, wp_bind]
    refine wp_mono (leaves_collect (hboundary _) m) (fun before m₁ _ => ?_) (fun _ _ _ => trivial)
    rw [wp_bind]
    refine wp_collect (wp_operate (fun script => ?_) (fun _ _ => ⟨fun e' _ => ?_, fun _ => trivial⟩)
      (fun _ _ => ⟨fun e' _ => ?_, fun _ => trivial⟩))
    · refine Keeps.wp_then (leaves_collect (hboundary _)) (fun after m₂ h₂ _ => h₂) (fun _ _ _ => trivial)
    all_goals
      rw [wp_bind]
      refine wp_mono (leaves_collect (hboundary _) _) (fun after m₂ _ herrors => ?_) (fun _ _ _ => trivial)
      simp at herrors
  rw [recoverSnapshotExact, if_pos rfl, wp_bind]
  refine wp_mono (hrelease m) (fun dma m₁ hdma => ?_) (fun _ _ _ => trivial)
  refine Keeps.wp_then (leaves_recoverSettings hframe p b snapshot true
    (leaves_boundary hframe.history hframe.guardian)) (fun settings m₂ h₂ => ?_) (fun _ _ _ => trivial)
  rw [wp_onlyIf]
  refine ⟨fun _ => trivial, fun herrors => ?_⟩
  have hnil : dma = [] := by
    have happ : dma ++ settings = [] := by simpa using herrors
    exact (append_eq_nil_iff.mp happ).1
  exact Eq.trans h₂ (hdma hnil)

theorem wp_receipt {phase : String} {state : StateRecord}
    {Q : ControlStateReceipt → Machine (Exit ControlError) Control → Prop} :
    wp (receipt p clock phase state) Q E m ↔ Q ⟨p.sha256, phase, clock m.state.readings, state⟩
      { m with state := { m.state with readings := m.state.readings + 1 } } := .rfl

theorem wp_recapture {snapshot : ControlSnapshot} :
    wp (recapture p b clock snapshot)
      (fun _ m' => captureOf p m.state.host.settings = snapshot ∧
        m'.state = { m.state with
          readings := m.state.readings + 1
          restoredReceipt := some ⟨p.sha256, "restored", clock m.state.readings, .prior snapshot⟩ })
      (fun _ m' => m'.state = m.state) m := by
  rw [recapture, wp_bind]
  refine (observes_capture p b).wp (fun m₁ h₁ => ?_) (fun _ m₁ h₁ => h₁)
  rw [wp_bind, wp_onlyIf]
  refine ⟨fun _ => h₁, fun heq => ?_⟩
  have heq : captureOf p m.state.host.settings = snapshot := by simpa using heq
  rw [wp_bind, wp_receipt, wp_update, heq, h₁]
  exact ⟨rfl, rfl⟩

/-! ### The guardian -/

theorem leaves_guardianFinish {β : Type} {f : Control → β}
    (hg : ∀ s guardian, f { s with guardian := guardian } = f s) {g : Guardian} {work : Controlling Bool}
    (hwork : Leaves f work) : Leaves f (guardianFinish g work) := by
  refine .bind (.of_onlyIf (.of_throw _)) (fun _ => ?_)
  refine .bind reports_operate_id.keeps (fun _ => ?_)
  refine .bind hwork (fun _ => ?_)
  refine .bind reports_operate_id.keeps (fun _ => ?_)
  exact .bind (.of_update fun s => hg s _) fun _ => .of_pure _

theorem leaves_guardianCancel {β : Type} {f : Control → β}
    (hg : ∀ s guardian, f { s with guardian := guardian } = f s) (g : Guardian) :
    Leaves f (guardianCancel g) :=
  .bind (leaves_guardianFinish hg (.of_pure _)) fun _ => .of_onlyIf (.of_throw _)

theorem reports_refreshAppend : Reports (do refreshChain; journalAppend) :=
  .bind reports_operate_id fun _ => reports_journalAppend

theorem leaves_guardianRecover {β : Type} {f : Control → β} (hf : Frame f)
    (hd : ∀ s held, f { s with host := { s.host with dmaHeld := held } } = f s)
    (snapshot : ControlSnapshot) (g : Guardian) : Leaves f (guardianRecover p b snapshot g) := by
  have hrefresh : Leaves f (attempt (do refreshChain; journalAppend)) :=
    .of_attempt reports_refreshAppend.keeps
  have hrecover : Leaves f (recoverSnapshotExact p b snapshot false none) :=
    leaves_recoverSnapshotExact hf hd p b snapshot false (fun _ hcall => by cases hcall)
  refine .bind (leaves_guardianFinish hf.guardian ?_) fun _ => .of_onlyIf (.of_throw _)
  refine .bind hrefresh (fun _ => .bind (.of_attempt hrecover) (fun outcome => ?_))
  cases outcome with
  | ok _ => exact .bind hrefresh fun _ => .of_pure _
  | error _ => exact .bind hrefresh fun _ => .of_pure _

theorem Preserves.of_attempt {ε τ α : Type} {P : τ → Prop} {x : EStateM ε τ α} (hx : Preserves P x) :
    Preserves P (attempt x) := by
  intro s hs
  rw [wp_attempt]
  exact hx s hs

theorem staysRestored_guardianRecover (g : Guardian) :
    StaysRestored p h₀ (guardianRecover p b (captureOf p h₀.settings) g) := by
  have hrefresh : StaysRestored p h₀ (attempt (do refreshChain; journalAppend)) :=
    staysRestored_of_reports (.of_attempt reports_refreshAppend)
  have hrecover : StaysRestored p h₀ (recoverSnapshotExact p b (captureOf p h₀.settings) false none) :=
    staysRestored_recoverSnapshotExact (fun _ hcall => by cases hcall)
  refine .bind ?_ fun _ => .of_onlyIf (.of_throw _)
  refine .bind (.of_onlyIf (.of_throw _)) (fun _ => ?_)
  refine .bind (staysRestored_of_reports reports_operate_id) (fun _ => ?_)
  refine .bind ?_ (fun _ => ?_)
  · refine Preserves.bind hrefresh (fun _ => Preserves.bind (Preserves.of_attempt hrecover) (fun outcome => ?_))
    cases outcome with
    | ok _ => exact .bind hrefresh fun _ => .of_pure _
    | error _ => exact .bind hrefresh fun _ => .of_pure _
  refine .bind (staysRestored_of_reports reports_operate_id) (fun _ => ?_)
  exact .bind (staysRestored_of_leaves (.of_update fun _ => rfl)) fun _ => .of_pure _

/-! ### The two ends -/

structure Abnormal (s s' : Control) : Prop where
  had : s'.hadAbnormalRecovery = true
  state : s'.state = .indeterminate ∨ s'.state = .recoveredByGuardian
  snapshot : s'.snapshot = s.snapshot

theorem wp_recoverByGuardian (hsafe : Safe p h₀ m.state) :
    wp (recoverByGuardian p b (captureOf p h₀.settings))
      (fun _ m' => Safe p h₀ m'.state ∧ books m'.state = books m.state)
      (fun e m' => e = .killed ∧ Safe p h₀ m'.state) m := by
  rw [recoverByGuardian, wp_bind, wp_read]
  have hrecover : wp (guardianRecover p b (captureOf p h₀.settings) {})
      (fun _ m' => Safe p h₀ m'.state ∧ books m'.state = books m.state)
      (fun _ m' => Safe p h₀ m'.state ∧ books m'.state = books m.state) m := by
    have hleaves : Leaves books (guardianRecover p b (captureOf p h₀.settings) {}) :=
      leaves_guardianRecover frame_books (fun _ _ => rfl) _ _
    exact wp_and (keeps_safe hleaves (staysRestored_guardianRecover {}) m hsafe) (hleaves m)
  split
  · rw [wp_bind]
    exact wp_rescue (wp_mono hrecover (fun _ _ h => h) (fun _ _ h => ⟨fun _ _ => h, fun _ => ⟨rfl, h.1⟩⟩))
  · exact ⟨hsafe, rfl⟩

variable {errors : List String}

theorem wp_restoreAbnormal (hsafe : Safe p h₀ m.state) :
    wp (restoreAbnormal p b (captureOf p h₀.settings) errors) (fun _ _ => False)
      (fun e m' => Safe p h₀ m'.state ∧ (e ≠ .killed → Abnormal m.state m'.state)) m := by
  rw [restoreAbnormal, wp_bind, wp_update, wp_bind]
  have hsafe₁ : Safe p h₀ { m.state with hadAbnormalRecovery := true } := hsafe
  refine wp_mono (wp_recoverByGuardian hsafe₁) (fun recovery m₂ h₂ => ?_) (fun e m₂ h₂ => ?_)
  · obtain ⟨hsafe₂, hbooks⟩ := h₂
    simp only [books, Prod.mk.injEq] at hbooks
    refine ⟨hsafe₂, fun _ => ⟨hbooks.2.2.2.2.2.2.2.1, ?_, hbooks.2.2.1⟩⟩
    cases hrecovered : recovery.1
    · exact .inl (by simp)
    · exact .inr (by simp)
  · exact ⟨h₂.2, fun hne => absurd h₂.1 hne⟩

/-- The fields that a restoration does not write. -/
def ledger (s : Control) := (s.snapshot, s.priorReceipt, s.appliedReceipt, s.hadAbnormalRecovery)

theorem wp_restoreCleanup :
    wp restoreCleanup
      (fun _ m' => m'.state.host = m.state.host ∧ ledger m'.state = ledger m.state ∧
        m'.state.restoredReceipt = m.state.restoredReceipt ∧ m'.state.state = .restored)
      (fun _ m' => m'.state.host = m.state.host ∧ ledger m'.state = ledger m.state) m := by
  -- everything up to the last assignment leaves the host and the ledger
  let f (s : Control) := (s.host, ledger s, s.restoredReceipt)
  have hcheckpoint : ∀ name, Leaves f (checkpoint .restore name) :=
    fun name => leaves_checkpoint (fun _ _ => rfl) (fun _ _ => rfl) _ _ _
  have hcancel : Leaves f cancelGuardian := by
    refine .bind (observes_read _).reports.keeps (fun guardian => ?_)
    split
    · refine .bind (hcheckpoint _) (fun _ => ?_)
      exact .bind (leaves_guardianCancel (fun _ _ => rfl) _) fun _ => hcheckpoint _
    · exact .of_pure _
  have hremove : Leaves f journalRemove := by
    refine .bind reports_verifyJournalName.keeps (fun _ => ?_)
    exact .bind (.of_operate fun _ => rfl) fun _ => reports_operate_id.keeps
  have hjournal : ∀ journal, Leaves f (onlyIf journal (do
      checkpoint .restore "before_journal_remove"
      journalRemove
      update fun s => { s with journal := false })) := by
    intro journal
    refine .of_onlyIf (.bind (hcheckpoint _) fun _ => .bind hremove fun _ => ?_)
    exact .of_update fun _ => rfl
  have hfields : ∀ {m' : Machine (Exit ControlError) Control}, f m'.state = f m.state →
      m'.state.host = m.state.host ∧ ledger m'.state = ledger m.state ∧
        m'.state.restoredReceipt = m.state.restoredReceipt := by
    intro m' h
    simp only [f, Prod.mk.injEq] at h
    exact h
  have herr : ∀ {m' : Machine (Exit ControlError) Control}, f m'.state = f m.state →
      m'.state.host = m.state.host ∧ ledger m'.state = ledger m.state :=
    fun h => ⟨(hfields h).1, (hfields h).2.1⟩
  refine Keeps.wp_then hcancel (fun _ m₁ h₁ => ?_) (fun _ m₁ h₁ => herr h₁)
  rw [wp_bind, wp_read]
  refine Keeps.wp_then (hjournal _) (fun _ m₂ h₂ => ?_) (fun _ m₂ h₂ => herr (h₂.trans h₁))
  have h := hfields (h₂.trans h₁)
  exact ⟨h.1, h.2.1, h.2.2, rfl⟩

structure Finished (p : Profile) (h₀ : Host) (clock : Nat → Nat) (s s' : Control) : Prop where
  state : s'.state = .restored
  restored : Restored p h₀ s'.host
  ledger : Timing.ledger s' = Timing.ledger s
  receipt : ∃ reading ≥ s.readings, s'.restoredReceipt =
    some ⟨p.sha256, "restored", clock reading, .prior (captureOf p h₀.settings)⟩

theorem wp_collect_leaves {β : Type} {f : Control → β} {label : String} {x : Controlling Unit}
    (hx : Leaves f x) {Q : List String → Machine (Exit ControlError) Control → Prop}
    (hQ : ∀ errors m', f m'.state = f m.state → Q errors m')
    (hE : ∀ m', f m'.state = f m.state → E .killed m') : wp (collect label x) Q E m :=
  wp_collect (hx.wp (fun _ m' h => hQ _ m' h) (fun _ m' h => ⟨fun _ _ => hQ _ m' h, fun _ => hE m' h⟩))

/-- Between its parts a restoration keeps the ledger and stays safe; as long as it has no error, the host
has been proved restored and the receipt is there. -/
structure Underway (p : Profile) (h₀ : Host) (clock : Nat → Nat) (s : Control) (errors : List String)
    (s' : Control) : Prop where
  safe : Safe p h₀ s'
  ledger : Timing.ledger s' = Timing.ledger s
  proved : errors = [] → Restored p h₀ s'.host ∧ ∃ reading ≥ s.readings, s'.restoredReceipt =
    some ⟨p.sha256, "restored", clock reading, .prior (captureOf p h₀.settings)⟩

theorem Underway.abnormal {s s' t : Control} (h : Underway p h₀ clock s errors s')
    (ha : Abnormal s' t) : Abnormal s t :=
  ⟨ha.had, ha.state, ha.snapshot.trans (congrArg Prod.fst h.ledger)⟩

theorem wp_recoverRecapture {s : Control} {begun : List String} (hsafe : Safe p h₀ m.state)
    (hbooks : books m.state = books { s with state := .restoring }) :
    wp (recoverRecapture p b clock (captureOf p h₀.settings) begun)
      (fun errors m' => Underway p h₀ clock s errors m'.state)
      (fun e m' => e = .killed ∧ Safe p h₀ m'.state) m := by
  have hboundary : ∀ call ∈ some fun name => checkpoint .restore name, ∀ name,
      Leaves (·.host) (call name) := leaves_boundary (fun _ _ => rfl) (fun _ _ => rfl)
  have hleaves : Leaves books (recoverSnapshotExact p b (captureOf p h₀.settings) true
      (some fun name => checkpoint .restore name)) :=
    leaves_recoverSnapshotExact frame_books (fun _ _ => rfl) _ _ _ _
      (leaves_boundary (fun _ _ => rfl) (fun _ _ => rfl))
  have hrecover := wp_and (wp_and
    (keeps_safe hleaves (staysRestored_recoverSnapshotExact (b := b) hboundary) m hsafe) (hleaves m))
    (wp_recoverSnapshotExact (p := p) (b := b) (m := m) (captureOf p h₀.settings))
  have hledger : ∀ {t : Control}, books t = books m.state →
      ledger t = ledger s ∧ t.readings = s.readings := by
    intro t h
    have h := h.trans hbooks
    simp only [books, Prod.mk.injEq] at h
    simp only [ledger, Prod.mk.injEq]
    exact ⟨⟨h.2.2.1, h.2.2.2.1, h.2.2.2.2.1, h.2.2.2.2.2.2.2.1⟩, h.2.1⟩
  rw [recoverRecapture, wp_bind]
  refine wp_collect (wp_mono hrecover (fun _ m₁ h₁ => ?_)
    (fun e m₁ h₁ => ⟨fun e' _ => ?_, fun heq => ⟨heq ▸ rfl, h₁.1.1⟩⟩))
  · -- the recovery had no error
    obtain ⟨⟨hsafe₁, hbooks₁⟩, hreleased⟩ := h₁
    obtain ⟨hledger₁, hreadings₁⟩ := hledger hbooks₁
    rw [wp_bind, append_nil]
    by_cases hbegun : begun = []
    · rw [if_pos hbegun]
      refine wp_collect (wp_mono wp_recapture (fun _ m₂ h₂ => ?_) (fun e m₂ h₂ => ⟨fun e' _ => ?_, fun heq => ?_⟩))
      · obtain ⟨hcapture, hstate⟩ := h₂
        rw [wp_pure, hstate]
        have hrestored : Restored p h₀ m₁.state.host :=
          ⟨captureOf_eq_iff.mp hcapture, fun hheld => by rw [hreleased] at hheld; cases hheld⟩
        exact ⟨.inl hrestored, hledger₁, fun _ => ⟨hrestored, m₁.state.readings, hreadings₁.ge, rfl⟩⟩
      · rw [wp_pure, h₂]
        exact ⟨hsafe₁, hledger₁, fun hnil => by simp at hnil⟩
      · rw [h₂]
        exact ⟨heq ▸ rfl, hsafe₁⟩
    · rw [if_neg hbegun, wp_pure, wp_pure]
      exact ⟨hsafe₁, hledger₁, fun hnil => absurd (by simpa using hnil) hbegun⟩
  · -- the recovery raised
    rw [wp_bind, if_neg (by simp), wp_pure, wp_pure]
    exact ⟨h₁.1.1, (hledger h₁.1.2).1, fun hnil => by simp at hnil⟩

theorem safe_of_eq {s t : Control} (h : calm t = calm s) (hs : Safe p h₀ s) : Safe p h₀ t := by
  simp only [calm, books, Prod.mk.injEq] at h
  rw [Safe, h.1, h.2.1]
  exact hs

theorem wp_restoreErrors (hsafe : Safe p h₀ m.state) :
    wp (restoreErrors p b clock (captureOf p h₀.settings))
      (fun errors m' => Underway p h₀ clock m.state errors m'.state)
      (fun e m' => e = .killed ∧ Safe p h₀ m'.state) m := by
  have hcheckpoint : ∀ name, Leaves calm (checkpoint .restore name) :=
    fun name => leaves_checkpoint (fun _ _ => rfl) (fun _ _ => rfl) _ _ _
  rw [restoreErrors, setState, wp_bind, wp_update, wp_bind]
  have hsafe₁ : Safe p h₀ { m.state with state := .restoring } := hsafe
  refine wp_collect_leaves (hcheckpoint _) (fun begun m₂ h₂ => ?_)
    (fun m₂ h₂ => ⟨rfl, safe_of_eq h₂ hsafe₁⟩)
  rw [wp_bind]
  refine wp_mono (wp_recoverRecapture (s := m.state) (safe_of_eq h₂ hsafe₁) (congrArg Prod.snd h₂))
    (fun recovered m₃ h₃ => ?_) (fun _ _ he => he)
  rw [wp_bind]
  refine wp_collect_leaves (hcheckpoint _) (fun verified m₄ h₄ => ?_)
    (fun m₄ h₄ => ⟨rfl, safe_of_eq h₄ h₃.safe⟩)
  rw [wp_pure]
  have hfields := h₄
  simp only [calm, books, Prod.mk.injEq] at hfields
  refine ⟨safe_of_eq h₄ h₃.safe, ?_, fun hnil => ?_⟩
  · rw [← h₃.ledger]
    simp only [ledger, hfields]
  · rw [hfields.1, hfields.2.2.2.2.2.2.1]
    exact h₃.proved (append_eq_nil_iff.mp hnil).1

theorem wp_restoreFinish {s : Control} (h : Underway p h₀ clock s errors m.state) :
    wp (restoreFinish p b (captureOf p h₀.settings) errors)
      (fun _ m' => Finished p h₀ clock s m'.state)
      (fun e m' => Safe p h₀ m'.state ∧ (e ≠ .killed → Abnormal s m'.state)) m := by
  rw [restoreFinish, wp_ite]
  refine ⟨fun _ => ?_, fun hnil => ?_⟩
  · refine wp_mono (wp_restoreAbnormal h.safe) (fun _ _ hfalse => hfalse.elim) (fun e m' he => ?_)
    exact ⟨he.1, fun hne => h.abnormal (he.2 hne)⟩
  · obtain ⟨hrestored, reading, hreading, hreceipt⟩ := h.proved (not_not.mp hnil)
    have hsafe : ∀ {t : Control}, t.host = m.state.host → Safe p h₀ t := fun heq => .inl (heq ▸ hrestored)
    rw [wp_bind]
    refine wp_rescue (wp_mono wp_restoreCleanup (fun _ m' h' => ?_)
      (fun e m' h' => ⟨fun e' _ => ?_, fun _ => ⟨hsafe h'.1, fun hne => absurd rfl hne⟩⟩))
    · exact ⟨h'.2.2.2, h'.1 ▸ hrestored, h'.2.1.trans h.ledger, reading, hreading, h'.2.2.1.trans hreceipt⟩
    · -- the cleanup raised
      refine ⟨hsafe h'.1, fun _ => ⟨rfl, .inl rfl, ?_⟩⟩
      exact congrArg Prod.fst (h'.2.trans h.ledger)

/-- A restoration, from any state that is safe: it returns with the captured values back and proved, or
raises with the transaction marked; safe it stays throughout. -/
theorem wp_restoreSnapshot (hsafe : Safe p h₀ m.state) :
    wp (restoreSnapshot p b clock (captureOf p h₀.settings))
      (fun _ m' => Finished p h₀ clock m.state m'.state)
      (fun e m' => Safe p h₀ m'.state ∧ (e ≠ .killed → Abnormal m.state m'.state)) m := by
  have hrefresh : ∀ (c : Bool) {Q : Unit → Machine (Exit ControlError) Control → Prop}
      {E : Exit ControlError → Machine (Exit ControlError) Control → Prop},
      (∀ m', m'.state = m.state → Q ⟨⟩ m') → (∀ m', m'.state = m.state → E .killed m') →
      wp (onlyIf c (do let _ ← rescue refreshChain; return ⟨⟩)) Q E m := by
    intro c Q E hQ hE
    rw [wp_onlyIf]
    refine ⟨fun _ => ?_, fun _ => hQ m rfl⟩
    rw [wp_bind]
    exact Keeps.wp_rescue (f := Machine.state) reports_operate_id (fun _ m' h => hQ m' h) hE
  rw [restoreSnapshot, wp_bind, wp_read, wp_bind, wp_read, wp_bind]
  refine hrefresh _ (fun m₁ h₁ => ?_) (fun m₁ h₁ => ⟨h₁ ▸ hsafe, fun hne => absurd rfl hne⟩)
  rw [wp_bind]
  refine wp_mono (wp_restoreErrors (h₁ ▸ hsafe)) (fun errors m₂ h₂ => ?_) (fun e m₂ h₂ => ?_)
  · exact wp_restoreFinish (h₁ ▸ h₂)
  · exact ⟨h₂.2, fun hne => absurd h₂.1 hne⟩

end Parts

end Bravo.Timing
