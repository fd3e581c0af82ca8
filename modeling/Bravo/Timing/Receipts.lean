import Bravo.Timing.Transaction

/-! # What the control receipts certify

`control_receipts` decides from four fields that `apply` and `restore` set at different points. The
history of a transaction says what these fields stand for: nothing was applied yet, one `apply` returned,
one `restore` returned after it, or the transaction can no longer pass.
-/

namespace Bravo.Timing

open List

variable {t : Setup} {h₀ : Host} {es : List (Entry Control Invocation)} {s s' : Control} {i : Invocation}

/-! ## The certificate -/

/-- A restoration raised in the call: the one called, or the one inside a failing `apply`, which leaves
the transaction indeterminate or recovered by its guardian. -/
def RestoreRaised (e : Entry Control Invocation) : Prop :=
  match e.input.call, e.input.outcome with
  | .restore, .error _ => True
  | .apply, .error _ => e.post.state = .indeterminate ∨ e.post.state = .recoveredByGuardian
  | _, _ => False

/-- The call is no `apply` that returned, and no restoration raised in it. -/
def Quiet (e : Entry Control Invocation) : Prop :=
  (e.input.call = .apply → ∃ error, e.input.outcome = .error error) ∧ ¬ RestoreRaised e

/-- The receipts of the one `apply` that returned, `e₁`, and the `restore` that returned after it, `e₂`:
each record is of the host at its instant, and the controls had their desired values in between. -/
structure Certificate (t : Setup) (e₁ e₂ : Entry Control Invocation) (r : ControlReceipts) : Prop where
  apply : e₁.input.call = .apply ∧ ∃ reply, e₁.input.outcome = .ok reply
  restore : e₂.input.call = .restore ∧ ∃ reply, e₂.input.outcome = .ok reply
  prior : r.prior.state = .prior (captureOf t.profile e₁.pre.host.settings)
  applied : r.applied.state = .applied (appliedOf t.profile e₁.post.host.settings)
  restored : r.restored.state = .prior (captureOf t.profile e₂.post.host.settings)
  same : r.prior.state = r.restored.state
  desired : Desired t.profile e₁.post.host
  instants : ∃ i j k, i < j ∧ j < k ∧ r.prior.capturedMonotonicNs = t.clock i ∧
    r.applied.capturedMonotonicNs = t.clock j ∧ r.restored.capturedMonotonicNs = t.clock k

def Certified (t : Setup) (es : List (Entry Control Invocation)) (r : ControlReceipts) : Prop :=
  ∃ es₁ e₁ es₂ e₂ es₃, es = es₁ ++ e₁ :: (es₂ ++ e₂ :: es₃) ∧ Certificate t e₁ e₂ r ∧
    (∀ e ∈ es₁ ++ es₂ ++ es₃, Quiet e) ∧ ∀ e ∈ es, ¬ RestoreRaised e

/-! ## The history of a transaction -/

/-- One `apply` returned, and its receipts are the ones held. -/
structure AppliedBy (t : Setup) (h₀ : Host) (e₁ : Entry Control Invocation) (s : Control) : Prop where
  call : e₁.input.call = .apply ∧ ∃ reply, e₁.input.outcome = .ok reply
  before : Restored t.profile h₀ e₁.pre.host
  desired : Desired t.profile e₁.post.host
  had : s.hadAbnormalRecovery = false
  receipts : ∃ i j, i < j ∧ j < s.readings ∧
    s.priorReceipt = some ⟨t.profile.sha256, "prior", t.clock i, .prior (captureOf t.profile h₀.settings)⟩ ∧
    s.appliedReceipt = some ⟨t.profile.sha256, "applied", t.clock j,
      .applied (appliedOf t.profile e₁.post.host.settings)⟩

/-- What the history of a transaction says about its fields. -/
inductive Progress (t : Setup) (h₀ : Host) (es : List (Entry Control Invocation)) (s : Control) : Prop
  | fresh (quiet : ∀ e ∈ es, Quiet e) (state : s.state = .new) (had : s.hadAbnormalRecovery = false)
      (applied : s.appliedReceipt = none)
  /-- one `apply` returned and nothing was restored yet -/
  | applied (es₁ es₂ : List (Entry Control Invocation)) (e₁ : Entry Control Invocation)
      (history : es = es₁ ++ e₁ :: es₂) (quiet : ∀ e ∈ es₁ ++ es₂, Quiet e)
      (applied : AppliedBy t h₀ e₁ s) (state : s.state = .applied)
  /-- one `apply` returned, and then one `restore` -/
  | restored (r : ControlReceipts) (certified : Certified t es r) (state : s.state = .restored)
      (prior : s.priorReceipt = some r.prior) (applied : s.appliedReceipt = some r.applied)
      (restored : s.restoredReceipt = some r.restored)
  /-- an `apply` failed and restored the host by itself -/
  | failed (state : s.state = .restored) (applied : s.appliedReceipt = none)
  | lost (state : s.state ≠ .new) (had : s.hadAbnormalRecovery = true)

/-! ## Steps -/

theorem step_refused (hcall : i.call = .apply) (hstate : s.state ≠ .new) (hstep : t.step s i s') :
    s' = s ∧ ∃ e, i.outcome = .error e := by
  have hwp : wp (t.invoke i.call) (fun _ _ => False) (fun _ m' => m'.state = s) ⟨s, i.script⟩ := by
    rw [hcall, Setup.invoke, wp_bind, apply, wp_bind, applyCapture, wp_bind, wp_read, wp_bind, wp_onlyIf]
    exact ⟨fun _ => rfl, fun h => by simp [hstate] at h⟩
  rcases wp_of_step hstep hwp with ⟨_, _, _, hfalse⟩ | ⟨e, script, houtcome, hs⟩
  · exact hfalse.elim
  · exact ⟨hs, e, houtcome⟩

theorem step_reports (hreports : Reports (t.invoke i.call)) (hstep : t.step s i s') : s' = s := by
  rcases wp_of_step hstep (hreports ⟨s, i.script⟩) with ⟨_, _, _, hs⟩ | ⟨_, _, _, hs⟩ <;> exact hs

theorem reports_invoke {c : Call} (happly : c ≠ .apply) (hrestore : c ≠ .restore) : Reports (t.invoke c) := by
  cases c with
  | apply => exact absurd rfl happly
  | restore => exact absurd rfl hrestore
  | validateApplied => exact Keeps.bind reports_validateApplied fun _ => Keeps.of_pure _
  | captureAppliedState => exact Keeps.bind observes_captureAppliedState.reports fun _ => Keeps.of_pure _
  | controlReceipts => exact Keeps.bind reports_controlReceipts fun _ => Keeps.of_pure _

theorem quiet_of_call {e : Entry Control Invocation} (happly : e.input.call ≠ .apply)
    (hrestore : e.input.call = .restore → ∃ reply, e.input.outcome = .ok reply) : Quiet e := by
  refine ⟨fun h => absurd h happly, fun h => ?_⟩
  unfold RestoreRaised at h
  split at h
  · next error hcall houtcome =>
      obtain ⟨reply, hreply⟩ := hrestore hcall
      rw [houtcome] at hreply
      cases hreply
  · next error hcall _ => exact happly hcall
  · exact h

theorem quiet_of_refused {e : Entry Control Invocation} (hcall : e.input.call = .apply)
    (houtcome : ∃ error, e.input.outcome = .error error) (hstate : e.post.state ≠ .indeterminate)
    (hstate' : e.post.state ≠ .recoveredByGuardian) : Quiet e := by
  refine ⟨fun _ => houtcome, fun h => ?_⟩
  obtain ⟨error, houtcome⟩ := houtcome
  unfold RestoreRaised at h
  rw [hcall, houtcome] at h
  exact h.elim hstate hstate'

theorem Progress.quiet {e : Entry Control Invocation} (h : Progress t h₀ es s) (he : Quiet e) :
    Progress t h₀ (es ++ [e]) s := by
  have happend : ∀ {as : List (Entry Control Invocation)}, (∀ a ∈ as, Quiet a) →
      ∀ a ∈ as ++ [e], Quiet a := by
    intro as has a ha
    rcases mem_append.mp ha with ha | ha
    · exact has a ha
    · rw [mem_singleton.mp ha]
      exact he
  cases h with
  | fresh quiet state had applied => exact .fresh (happend quiet) state had applied
  | applied es₁ es₂ e₁ history quiet applied state =>
    refine .applied es₁ (es₂ ++ [e]) e₁ ?_ ?_ applied state
    · rw [history, append_assoc, cons_append]
    · rw [← append_assoc]
      exact happend quiet
  | restored r certified state prior applied restored =>
    obtain ⟨es₁, e₁, es₂, e₂, es₃, hes, hcertificate, hquiet, hclean⟩ := certified
    refine .restored r ⟨es₁, e₁, es₂, e₂, es₃ ++ [e], ?_, hcertificate, ?_, ?_⟩ state prior applied restored
    · rw [hes]
      simp
    · rw [← append_assoc]
      exact happend hquiet
    · intro a ha
      rcases mem_append.mp ha with ha | ha
      · exact hclean a ha
      · rw [mem_singleton.mp ha]
        exact he.2
  | failed state applied => exact .failed state applied
  | lost state had => exact .lost state had

theorem progress_refused (h : Progress t h₀ es s) (hcall : i.call = .apply) (hstate : s.state ≠ .new)
    (hstep : t.step s i s') : Progress t h₀ (es ++ [⟨s, i, s'⟩]) s' := by
  obtain ⟨rfl, houtcome⟩ := step_refused hcall hstate hstep
  have hquiet : ∀ {state}, s'.state = state → state ≠ .indeterminate → state ≠ .recoveredByGuardian →
      Quiet ⟨s', i, s'⟩ := by
    rintro state rfl h₁ h₂
    exact quiet_of_refused hcall houtcome h₁ h₂
  cases h with
  | fresh quiet state had applied => exact absurd state hstate
  | applied es₁ es₂ e₁ history quiet applied state =>
    exact Progress.quiet (.applied es₁ es₂ e₁ history quiet applied state) (hquiet state (by simp) (by simp))
  | restored r certified state prior applied restored =>
    exact Progress.quiet (.restored r certified state prior applied restored)
      (hquiet state (by simp) (by simp))
  | failed state applied => exact .failed state applied
  | lost state had => exact .lost state had

theorem Abnormal.not_new {s s' : Control} (h : Abnormal s s') : s'.state ≠ .new := by
  rcases h.state with h | h <;> rw [h] <;> simp

theorem progress_apply (hquiet : ∀ e ∈ es, Quiet e) (hstate : s.state = .new)
    (hhad : s.hadAbnormalRecovery = false) (happlied : s.appliedReceipt = none)
    (hrestored : Restored t.profile h₀ s.host) (hcall : i.call = .apply)
    (hvalidates : Validates t.profile t.backend t.clock t.guardianEnabled ⟨s, i.script⟩)
    (hstep : t.step s i s') : Progress t h₀ (es ++ [⟨s, i, s'⟩]) s' := by
  have hwp := wp_apply (m := ⟨s, i.script⟩) True hstate hrestored fun _ => hvalidates
  have hinvoke : wp (t.invoke i.call)
      (fun _ m' => Applied t.profile h₀ t.clock (s.capturedAs t.profile t.clock) m'.state)
      (fun e m' => Safe t.profile h₀ m'.state ∧
        ∀ e', e = .raised e' → ApplyFailed t.profile h₀ t.clock True s e' m'.state) ⟨s, i.script⟩ := by
    rw [hcall, Setup.invoke, wp_bind]
    exact hwp
  rcases wp_of_step hstep hinvoke with ⟨reply, script, houtcome, h⟩ | ⟨e, script, houtcome, _, h⟩
  · obtain ⟨j, hj, hreadings, hreceipt⟩ := h.receipt
    have hledger := h.ledger
    simp only [Control.capturedAs, Prod.mk.injEq] at hledger hj
    rw [captureOf_eq_iff.mpr hrestored.agrees] at hledger
    refine .applied es [] ⟨s, i, s'⟩ rfl (by simpa using hquiet) ?_ h.state
    exact ⟨⟨hcall, reply, houtcome⟩, hrestored, h.desired, hledger.2.2.1.trans hhad, s.readings, j,
      hj, hreadings ▸ Nat.lt_succ_self j, hledger.2.1, hreceipt⟩
  · cases h e rfl with
    | uncaptured hhost hbooks =>
      have hfields : s'.state = .new ∧ s'.hadAbnormalRecovery = false ∧ s'.appliedReceipt = none := by
        rcases hbooks with hbooks | hbooks <;> simp only [books, Prod.mk.injEq] at hbooks
        · simp [hbooks, hstate, hhad, happlied]
        · simp [hbooks, hhad, happlied]
      refine .fresh (fun a ha => ?_) hfields.1 hfields.2.1 hfields.2.2
      rcases mem_append.mp ha with ha | ha
      · exact hquiet a ha
      · rw [mem_singleton.mp ha]
        exact quiet_of_refused hcall ⟨e, houtcome⟩ (by simp [hfields.1]) (by simp [hfields.1])
    | restored between hfinished hbetween =>
      have hledger := hfinished.ledger
      simp only [ledger, Prod.mk.injEq] at hledger
      exact .failed hfinished.state (by rw [hledger.2.2.1, hbetween trivial, happlied])
    | abnormal message hmessage between habnormal hsnapshot =>
      exact .lost habnormal.not_new habnormal.had

theorem step_restore (hsettled : Settled t.profile h₀ s) (hcall : i.call = .restore)
    (hnew : s.state ≠ .new) (hrestored : s.state ≠ .restored) (hstep : t.step s i s') :
    (∃ reply, i.outcome = .ok reply) ∧ Finished t.profile h₀ t.clock s s' ∨ Abnormal s s' := by
  have hheld : Safe t.profile h₀ s ∧ s.snapshot = some (captureOf t.profile h₀.settings) := by
    unfold Settled at hsettled
    cases hstate : s.state <;> simp only [hstate] at hsettled hnew hrestored
    all_goals first
      | exact hsettled
      | exact absurd rfl hnew
      | exact absurd rfl hrestored
  have hinvoke : wp (t.invoke i.call) (fun _ m' => Finished t.profile h₀ t.clock s m'.state)
      (fun e m' => Safe t.profile h₀ m'.state ∧ (e ≠ .killed → Abnormal s m'.state)) ⟨s, i.script⟩ := by
    rw [hcall, Setup.invoke, wp_bind]
    exact wp_restore hrestored hheld.2 hheld.1
  rcases wp_of_step hstep hinvoke with ⟨reply, _, houtcome, h⟩ | ⟨e, _, _, h⟩
  · exact .inl ⟨⟨reply, houtcome⟩, h⟩
  · exact .inr (h.2 (by simp))

theorem step_restore_idle (hcall : i.call = .restore)
    (hidle : s.state = .restored ∨ s.snapshot = none) (hstep : t.step s i s') :
    s' = s ∧ ∃ reply, i.outcome = .ok reply := by
  have hinvoke : wp (t.invoke i.call) (fun _ m' => m'.state = s) (fun _ _ => False) ⟨s, i.script⟩ := by
    rw [hcall, Setup.invoke, wp_bind, restore, wp_bind, wp_read, wp_bind, wp_read, wp_ite]
    refine ⟨fun _ => rfl, fun hstate => ?_⟩
    rw [hidle.resolve_left hstate]
    exact rfl
  rcases wp_of_step hstep hinvoke with ⟨reply, _, houtcome, h⟩ | ⟨_, _, _, hfalse⟩
  · exact ⟨h, reply, houtcome⟩
  · exact hfalse.elim

theorem progress_restore {es₁ es₂ : List (Entry Control Invocation)} {e₁ : Entry Control Invocation}
    (hsettled : Settled t.profile h₀ s) (hes : es = es₁ ++ e₁ :: es₂) (hquiet : ∀ e ∈ es₁ ++ es₂, Quiet e)
    (happlied : AppliedBy t h₀ e₁ s) (hstate : s.state = .applied) (hcall : i.call = .restore)
    (hstep : t.step s i s') : Progress t h₀ (es ++ [⟨s, i, s'⟩]) s' := by
  rcases step_restore hsettled hcall (by simp [hstate]) (by simp [hstate]) hstep with ⟨hreply, h⟩ | h
  · obtain ⟨a, j, haj, hj, hprior, happlied'⟩ := happlied.receipts
    obtain ⟨k, hk, hrestored⟩ := h.receipt
    have hledger := h.ledger
    simp only [ledger, Prod.mk.injEq] at hledger
    have hbefore := captureOf_eq_iff.mpr happlied.before.agrees
    have hafter := captureOf_eq_iff.mpr h.restored.agrees
    let r : ControlReceipts := ⟨⟨t.profile.sha256, "prior", t.clock a, .prior (captureOf t.profile h₀.settings)⟩,
      ⟨t.profile.sha256, "applied", t.clock j, .applied (appliedOf t.profile e₁.post.host.settings)⟩,
      ⟨t.profile.sha256, "restored", t.clock k, .prior (captureOf t.profile h₀.settings)⟩⟩
    have hcertificate : Certificate t e₁ ⟨s, i, s'⟩ r :=
      ⟨happlied.call, ⟨hcall, hreply⟩, by rw [hbefore], rfl, by rw [hafter], rfl, happlied.desired,
        a, j, k, haj, hj.trans_le hk, rfl, rfl, rfl⟩
    refine .restored r ⟨es₁, e₁, es₂, ⟨s, i, s'⟩, [], ?_, hcertificate, by simpa using hquiet, ?_⟩ h.state
      (by rw [hledger.2.1, hprior]) (by rw [hledger.2.2.1, happlied']) hrestored
    · rw [hes]
      simp
    · intro e he
      have hcase : e ∈ es₁ ++ es₂ ∨ e = e₁ ∨ e = ⟨s, i, s'⟩ := by
        rw [hes] at he
        simp only [mem_append, mem_cons, not_mem_nil, or_false] at he ⊢
        tauto
      rcases hcase with he | rfl | rfl
      · exact (hquiet e he).2
      · obtain ⟨hcall₁, reply, houtcome⟩ := happlied.call
        unfold RestoreRaised
        rw [hcall₁, houtcome]
        exact id
      · exact (quiet_of_call (by simp [hcall]) fun _ => hreply).2
  · exact .lost h.not_new h.had

theorem progress_step (hsettled : Settled t.profile h₀ s) (h : Progress t h₀ es s)
    (hvalidates : i.call = .apply →
      Validates t.profile t.backend t.clock t.guardianEnabled ⟨s, i.script⟩)
    (hstep : t.step s i s') : Progress t h₀ (es ++ [⟨s, i, s'⟩]) s' := by
  by_cases happly : i.call = .apply
  · by_cases hnew : s.state = .new
    · cases h with
      | fresh quiet state had applied =>
        have hfresh := hsettled
        simp only [Settled, hnew] at hfresh
        exact progress_apply quiet state had applied hfresh.1 happly (hvalidates happly) hstep
      | applied _ _ _ _ _ _ state => rw [hnew] at state; cases state
      | restored _ _ state => rw [hnew] at state; cases state
      | failed state => rw [hnew] at state; cases state
      | lost state => exact absurd hnew state
    · exact progress_refused h happly hnew hstep
  by_cases hrestore : i.call = .restore
  · have hidle : s.state = .restored ∨ s.snapshot = none → Progress t h₀ (es ++ [⟨s, i, s'⟩]) s' := by
      intro hidle
      obtain ⟨rfl, hreply⟩ := step_restore_idle hrestore hidle hstep
      exact h.quiet (quiet_of_call happly fun _ => hreply)
    cases h with
    | fresh quiet state had applied =>
      simp only [Settled, state] at hsettled
      exact hidle (.inr hsettled.2)
    | applied es₁ es₂ e₁ history quiet applied state =>
      exact progress_restore hsettled history quiet applied state hrestore hstep
    | restored r certified state prior applied restored => exact hidle (.inl state)
    | failed state applied => exact hidle (.inl state)
    | lost state had =>
      by_cases hrestored : s.state = .restored
      · exact hidle (.inl hrestored)
      rcases step_restore hsettled hrestore state hrestored hstep with ⟨_, hfinished⟩ | habnormal
      · have hledger := hfinished.ledger
        simp only [ledger, Prod.mk.injEq] at hledger
        exact .lost (by simp [hfinished.state]) (by rw [hledger.2.2.2, had])
      · exact .lost habnormal.not_new habnormal.had
  · rw [step_reports (reports_invoke happly hrestore) hstep]
    exact h.quiet (quiet_of_call happly fun hcall => absurd hcall hrestore)

/-! ## The certificate of a run -/

theorem wp_controlReceipts {m : Machine (Exit ControlError) Control} :
    wp controlReceipts
      (fun r _ => m.state.state = .restored ∧ m.state.hadAbnormalRecovery = false ∧
        m.state.priorReceipt = some r.prior ∧ m.state.appliedReceipt = some r.applied ∧
        m.state.restoredReceipt = some r.restored)
      (fun _ _ => True) m := by
  rw [controlReceipts, wp_bind, wp_get]
  dsimp only
  split
  · next prior applied restored hprior happlied hrestored =>
      rw [wp_ite]
      refine ⟨fun _ => trivial, fun hpass => ?_⟩
      rw [wp_ite]
      refine ⟨fun _ => trivial, fun _ => ?_⟩
      rw [not_or, not_not] at hpass
      exact ⟨hpass.1, by simpa using hpass.2, hprior, happlied, hrestored⟩
  · trivial

/-- On every run in which no `apply` fails at its last checkpoint: receipts that `control_receipts`
returns are those of one clean complete transaction. -/
theorem control_receipts_certify (t : Setup) (h₀ : Host) {es : List (Entry Control Invocation)}
    {s : Control} (hrun : Run t.step { host := h₀ } es s)
    (hvalidates : ∀ e ∈ es, e.input.call = .apply →
      Validates t.profile t.backend t.clock t.guardianEnabled ⟨e.pre, e.input.script⟩)
    {script : List (Option (Raise (Exit ControlError)))} {r : ControlReceipts}
    {m : Machine (Exit ControlError) Control} (hreceipts : controlReceipts.run ⟨s, script⟩ = .ok r m) :
    Certified t es r := by
  have hinit : Settled t.profile h₀ { host := h₀ } :=
    ⟨⟨⟨fun _ _ => rfl, fun _ _ => rfl, fun _ _ => rfl, rfl⟩, id⟩, rfl⟩
  have hprogress : Settled t.profile h₀ s ∧ ((∀ e ∈ es, e.input.call = .apply →
      Validates t.profile t.backend t.clock t.guardianEnabled ⟨e.pre, e.input.script⟩) →
      Progress t h₀ es s) := by
    refine hrun.history (P := fun es s => Settled t.profile h₀ s ∧ ((∀ e ∈ es, e.input.call = .apply →
      Validates t.profile t.backend t.clock t.guardianEnabled ⟨e.pre, e.input.script⟩) →
      Progress t h₀ es s)) ⟨hinit, fun _ => ?_⟩ (fun es s i s' h hstep => ⟨(settled_step h.1 hstep).1, fun hv => ?_⟩)
    · exact .fresh (fun _ he => by cases he) rfl rfl rfl
    · refine progress_step h.1 (h.2 fun e he => hv e (mem_append_left _ he)) (fun hcall => ?_) hstep
      exact hv ⟨s, i, s'⟩ (mem_append_right _ mem_cons_self) hcall
  obtain ⟨hstate, hhad, hprior, happlied, hrestored⟩ := (wp_of_ok hreceipts).mp wp_controlReceipts
  cases hprogress.2 hvalidates with
  | fresh _ state => rw [hstate] at state; cases state
  | applied _ _ _ _ _ _ state => rw [hstate] at state; cases state
  | restored r' certified state prior applied restored =>
    have h₁ := Option.some.inj (prior.symm.trans hprior)
    have h₂ := Option.some.inj (applied.symm.trans happlied)
    have h₃ := Option.some.inj (restored.symm.trans hrestored)
    have hr : r' = r := by
      cases r
      cases r'
      cases h₁
      cases h₂
      cases h₃
      rfl
    exact hr ▸ certified
  | failed _ applied => rw [happlied] at applied; cases applied
  | lost _ had => rw [hhad] at had; cases had

/-! ### The small transaction -/

def smallHistory (calls : List (Call × List (Option (Raise (Exit ControlError))))) :
    List (Entry Control Invocation) :=
  smallSetup.history { host := smallHost } calls

def smallReceipts (calls : List (Call × List (Option (Raise (Exit ControlError))))) :
    EStateM.Result (Exit ControlError) (Machine (Exit ControlError) Control) ControlReceipts :=
  controlReceipts.run ⟨smallSetup.after { host := smallHost } calls, []⟩

def returns {ε σ α : Type} : EStateM.Result ε σ α → Bool
  | .ok _ _ => true
  | .error _ _ => false

theorem ok_of_returns {ε σ α : Type} {result : EStateM.Result ε σ α} (h : returns result = true) :
    ∃ a s, result = .ok a s := by
  cases result with
  | ok a s => exact ⟨a, s, rfl⟩
  | error e s => cases h

theorem control_receipts_certify_small :
    ∃ r, Certified smallSetup (smallHistory [(.apply, []), (.restore, [])]) r := by
  have hreturns : returns (smallReceipts [(.apply, []), (.restore, [])]) = true := by decide +kernel
  obtain ⟨r, m, hreceipts⟩ := ok_of_returns hreturns
  have hrun := run_history (t := smallSetup) [(.apply, []), (.restore, [])] (s := { host := smallHost })
    (by decide +kernel)
  exact ⟨r, control_receipts_certify smallSetup smallHost hrun (by decide +kernel) hreceipts⟩

/-- A fault at the last checkpoint of `apply` raises after the applied receipt, and the restoration inside
the failing `apply` completes the set: receipts of a transaction whose `apply` never returned. -/
theorem control_receipts_uncertified :
    ∃ (es : List (Entry Control Invocation)) (s : Control) (r : ControlReceipts)
      (m : Machine (Exit ControlError) Control),
      Run smallSetup.step { host := smallHost } es s ∧ controlReceipts.run ⟨s, []⟩ = .ok r m ∧
        ¬ Certified smallSetup es r := by
  let script : List (Option (Raise (Exit ControlError))) :=
    List.replicate 47 none ++ [some ⟨.raised (.other "injected boundary apply:validated"), false⟩]
  have hreturns : returns (smallReceipts [(.apply, script)]) = true := by decide +kernel
  obtain ⟨r, m, hreceipts⟩ := ok_of_returns hreturns
  have hlength : (smallHistory [(.apply, script)]).length = 1 := by decide +kernel
  refine ⟨_, _, r, m, run_history [(.apply, script)] hlength, hreceipts, ?_⟩
  rintro ⟨es₁, e₁, es₂, e₂, es₃, hes, -, -, -⟩
  have htwo : (smallHistory [(.apply, script)]).length ≥ 2 := by
    unfold smallHistory
    rw [hes]
    simp only [length_append, length_cons]
    omega
  omega

end Bravo.Timing
