import Bravo.Basic.Fault

/-! # Publication of a sealed timing artifact

`publish_artifact_noreplace` moves one held directory inode from its staging name to its destination
name and verifies the result; its handler observes the two names and rolls the rename back. The
directory is the two names and the inodes they are bound to. Every call to the system, to the hook, to
the validator and to the rename and fsync operations can raise, and no other process changes the two
names. A stat that finds no entry reports it (`FileNotFoundError`), which is not a raise of the script;
closing a descriptor does not raise. The paths are the two distinct siblings that the checks of the
arguments let through.
-/

namespace Bravo.Timing

/-- `(st_dev, st_ino)`. -/
structure Identity where
  device : Nat
  inode : Nat
deriving DecidableEq, Repr

/-- The exceptions as the handlers tell them apart: the three of the module, an `OSError` with its
errno, and any other one. -/
inductive PublicationError
  | publication (message : String)
  | collision (message : String)
  | indeterminate (message : String)
  | osError (errno : Nat)
  | other (kind : String)
deriving DecidableEq, Repr

def ENOENT : Nat := 2

def EEXIST : Nat := 17

/-- `TimingPublicationError` and its two subclasses. -/
def PublicationError.isPublication : PublicationError → Bool
  | .publication _ | .collision _ | .indeterminate _ => true
  | _ => false

def PublicationError.isIndeterminate : PublicationError → Bool
  | .indeterminate _ => true
  | _ => false

/-- The two names in the parent directory with the inodes they are bound to, and the two locals of the
call that its handler reads. -/
structure Publication where
  staging : Option Identity
  destination : Option Identity
  heldIdentity : Option Identity := none
  forwardAttempted : Bool := false
deriving DecidableEq, Repr

inductive Name
  | staging
  | destination
deriving DecidableEq, Repr

namespace Publication

def bound (s : Publication) : Name → Option Identity
  | .staging => s.staging
  | .destination => s.destination

def bind (s : Publication) (n : Name) (inode : Option Identity) : Publication :=
  match n with
  | .staging => { s with staging := inode }
  | .destination => { s with destination := inode }

/-- `renameat2` with `RENAME_NOREPLACE`. -/
def rename (s : Publication) (old new : Name) : Except PublicationError Publication :=
  match s.bound old, s.bound new with
  | none, _ => .error (.osError ENOENT)
  | some _, some _ => .error (.osError EEXIST)
  | some inode, none => .ok ((s.bind old none).bind new (some inode))

end Publication

abbrev Publishing (α : Type) := Faulty PublicationError Publication α

/-! ## The operations -/

def openParent : Publishing Unit := operate id

def revalidateParentPath : Publishing Unit := operate id

def walkAndValidateSealed : Publishing Unit := operate id

def hook : Publishing Unit := operate id

def fsync : Publishing Unit := operate id

def publishedValidator : Publishing Unit := operate id

def statAt (n : Name) : Publishing (Option Identity) := query fun s => s.bound n

def existing (n : Name) : Publishing Identity := do
  match ← statAt n with
  | some inode => return inode
  | none => throw (.osError ENOENT)

/-- `os.stat` of a name -/
def osStat (n : Name) : Publishing Identity := existing n

/-- `_open_directory_at`: the descriptor stands for its inode. -/
def openDirectoryAt (n : Name) : Publishing Identity := existing n

def fstat (descriptor : Identity) : Publishing Identity := query fun _ => descriptor

def renameOperation (old new : Name) : Publishing Unit := operateChecked fun s => s.rename old new

/-! ## Where the held inode is -/

inductive Location
  | partialName
  | finalName
  | collision
  | finalWithObstruction
  | irreconcilable
deriving DecidableEq, Repr

def Location.text : Location → String
  | .partialName => "partial"
  | .finalName => "final"
  | .collision => "collision"
  | .finalWithObstruction => "final_with_obstruction"
  | .irreconcilable => "irreconcilable"

def Location.of (part final : Option Identity) (held : Identity) : Location :=
  let partialExact := part = some held
  let finalExact := final = some held
  if partialExact ∧ final = none then .partialName
  else if finalExact ∧ part = none then .finalName
  else if partialExact ∧ final ≠ none ∧ ¬ finalExact then .collision
  else if finalExact ∧ part ≠ none ∧ ¬ partialExact then .finalWithObstruction
  else .irreconcilable

def location (held : Identity) : Publishing Location := do
  let part ← statAt .staging
  let final ← statAt .destination
  return Location.of part final held

/-! ## The call -/

/-- The path of the parent after the rename: a failed validation is indeterminate, any other exception
passes. -/
def revalidateOrIndeterminate (message : String) : Publishing Unit := do
  match ← attempt revalidateParentPath with
  | .ok _ => return ⟨⟩
  | .error e => if e.isPublication then throw (.indeterminate message) else throw e

/-- One detached verification of the published name. The first and the third look at the held
descriptor as well. -/
def verifyBinding (held : Identity) (walkHeld : Bool) (parentMessage nameMessage inodeMessage : String) :
    Publishing Unit := do
  revalidateOrIndeterminate parentMessage
  let observed ← location held
  onlyIf (observed ≠ .finalName) (throw (.indeterminate nameMessage))
  let descriptor ← openDirectoryAt .destination
  let identity ← fstat descriptor
  onlyIf (identity ≠ held) (throw (.indeterminate inodeMessage))
  walkAndValidateSealed
  onlyIf walkHeld walkAndValidateSealed

def holdStaging : Publishing Identity := do
  revalidateParentPath
  let descriptor ← openDirectoryAt .staging
  let held ← fstat descriptor
  update fun s => { s with heldIdentity := some held }
  return held

def syncParent : Publishing Unit := do
  hook
  fsync
  hook
  revalidateParentPath
  hook

/-- Everything before the forward rename. -/
def prepare (expected : Option Identity) : Publishing Identity := do
  let held ← holdStaging
  onlyIf (expected.any (· ≠ held))
    (throw (.publication "staging inode differs from the caller-held assembly identity"))
  walkAndValidateSealed
  let named ← osStat .staging
  onlyIf (named ≠ held) (throw (.publication "staging name differs from the held sealed inode"))
  let final ← statAt .destination
  onlyIf final.isSome (throw (.collision "artifact destination already exists"))
  syncParent
  return held

/-- Everything after the forward rename. -/
def verifyPublished (validator : Bool) (held : Identity) : Publishing Unit := do
  hook
  fsync
  hook
  verifyBinding held true "publication parent absolute path changed after rename"
    "forward publication left an irreconcilable held-inode binding"
    "published name differs from the held artifact inode"
  hook
  onlyIf validator publishedValidator
  verifyBinding held false "publication parent absolute path changed during verification"
    "published name changed during detached verification"
    "published inode changed during detached verification"
  hook
  verifyBinding held true "publication parent absolute path changed at the final return boundary"
    "published name changed at the final return boundary"
    "published inode changed at the final return boundary"
  onlyIf validator publishedValidator
  verifyBinding held false "publication parent path changed during final detached verification"
    "published name changed during final detached verification"
    "published inode changed during final detached verification"

/-- The `try` block. -/
def publishForward (expected : Option Identity) (validator : Bool) : Publishing Identity := do
  let held ← prepare expected
  update fun s => { s with forwardAttempted := true }
  renameOperation .staging .destination
  verifyPublished validator held
  return held

def rollback : Publishing Unit := do
  hook
  renameOperation .destination .staging
  hook
  fsync
  hook

def publicationFailure (original : PublicationError) (held : Identity) : Publishing Identity := do
  match ← location held with
  | .collision =>
    if original = .osError EEXIST then throw (.collision "artifact destination already exists")
    else throw original
  | .partialName => throw original
  | .finalName =>
    match ← attempt rollback with
    | .error _ => do
      let locationAfter ← location held
      throw (.indeterminate ("publication rollback failed; exact durable state is indeterminate "
        ++ "(observed " ++ locationAfter.text ++ ")"))
    | .ok _ => do
      let locationAfter ← location held
      if locationAfter ≠ .partialName then
        throw (.indeterminate "publication rollback did not restore the exact partial inode")
      else throw original
  | _ => throw (.indeterminate "publication failure left an irreconcilable exact held inode")

/-- The `except BaseException` block. -/
def publishHandled (original : PublicationError) : Publishing Identity := do
  let m ← get
  match m.state.heldIdentity, m.state.forwardAttempted with
  | some held, true => publicationFailure original held
  | _, _ => throw original

def publishArtifactNoreplace (expected : Option Identity) (validator : Bool) : Publishing Identity := do
  openParent
  match ← attempt (publishForward expected validator) with
  | .ok held => return held
  | .error original => publishHandled original

/-! ## What the parts do -/

section Parts

variable {m : Machine PublicationError Publication} {held : Identity}

theorem reports_existing (n : Name) : Reports (existing n) := by
  refine .bind (reports_query _) (fun inode => ?_)
  cases inode with
  | none => exact .of_throw _
  | some inode => exact .of_pure _

theorem wp_existing {n : Name} {Q : Identity → Machine PublicationError Publication → Prop}
    {E : PublicationError → Machine PublicationError Publication → Prop}
    (hok : ∀ inode m', m'.state = m.state → m.state.bound n = some inode → Q inode m')
    (herr : ∀ e m', m'.state = m.state → E e m') : wp (existing n) Q E m := by
  rw [existing, statAt, wp_bind]
  refine wp_query (fun script => ?_) (fun e script => herr e _ rfl)
  cases hbound : m.state.bound n with
  | none => exact herr _ _ rfl
  | some inode => exact hok inode _ rfl hbound

theorem reports_location (held : Identity) : Reports (location held) :=
  .bind (reports_query _) fun _ => .bind (reports_query _) fun _ => .of_pure _

theorem wp_location {Q : Location → Machine PublicationError Publication → Prop}
    {E : PublicationError → Machine PublicationError Publication → Prop}
    (hok : ∀ m', m'.state = m.state → Q (Location.of m.state.staging m.state.destination held) m')
    (herr : ∀ e m', m'.state = m.state → E e m') : wp (location held) Q E m := by
  rw [location, statAt, wp_bind]
  refine wp_query (fun script => ?_) (fun e script => herr e _ rfl)
  rw [statAt, wp_bind]
  exact wp_query (fun script' => hok _ rfl) (fun e script' => herr e _ rfl)

theorem reports_revalidateOrIndeterminate (message : String) :
    Reports (revalidateOrIndeterminate message) := by
  refine .bind (.of_attempt reports_operate_id) (fun outcome => ?_)
  cases outcome with
  | ok _ => exact .of_pure _
  | error e => exact .ite (.of_throw _) (.of_throw _)

theorem reports_verifyBinding (held : Identity) (walkHeld : Bool)
    (parentMessage nameMessage inodeMessage : String) :
    Reports (verifyBinding held walkHeld parentMessage nameMessage inodeMessage) := by
  refine .bind (reports_revalidateOrIndeterminate _) (fun _ => ?_)
  refine .bind (reports_location _) (fun _ => ?_)
  refine .bind (.of_onlyIf (.of_throw _)) (fun _ => ?_)
  refine .bind (reports_existing _) (fun _ => ?_)
  refine .bind (reports_query _) (fun _ => ?_)
  refine .bind (.of_onlyIf (.of_throw _)) (fun _ => ?_)
  exact .bind reports_operate_id (fun _ => .of_onlyIf reports_operate_id)

theorem reports_syncParent : Reports syncParent := by
  refine .bind reports_operate_id (fun _ => ?_)
  refine .bind reports_operate_id (fun _ => ?_)
  refine .bind reports_operate_id (fun _ => ?_)
  exact .bind reports_operate_id (fun _ => reports_operate_id)

theorem reports_verifyPublished (validator : Bool) (held : Identity) :
    Reports (verifyPublished validator held) := by
  refine .bind reports_operate_id (fun _ => ?_)
  refine .bind reports_operate_id (fun _ => ?_)
  refine .bind reports_operate_id (fun _ => ?_)
  refine .bind (reports_verifyBinding _ _ _ _ _) (fun _ => ?_)
  refine .bind reports_operate_id (fun _ => ?_)
  refine .bind (.of_onlyIf reports_operate_id) (fun _ => ?_)
  refine .bind (reports_verifyBinding _ _ _ _ _) (fun _ => ?_)
  refine .bind reports_operate_id (fun _ => ?_)
  refine .bind (reports_verifyBinding _ _ _ _ _) (fun _ => ?_)
  refine .bind (.of_onlyIf reports_operate_id) (fun _ => ?_)
  exact reports_verifyBinding _ _ _ _ _

end Parts

/-! ## The two phases of a call -/

/-- Until the forward rename is attempted the names are as they were, and a held inode is the one of the
staging name. -/
structure Before (s₀ s : Publication) : Prop where
  attempted : s.forwardAttempted = false
  staging : s.staging = s₀.staging
  destination : s.destination = s₀.destination
  held : ∀ held, s.heldIdentity = some held → s₀.staging = some held

/-- Afterwards the held inode is bound to exactly one of the two names, and the destination was free. -/
structure After (s₀ : Publication) (held : Identity) (s : Publication) : Prop where
  attempted : s.forwardAttempted = true
  heldIdentity : s.heldIdentity = some held
  staging₀ : s₀.staging = some held
  destination₀ : s₀.destination = none
  names : s.staging = some held ∧ s.destination = none ∨ s.staging = none ∧ s.destination = some held

section Phases

variable {m : Machine PublicationError Publication} {s₀ : Publication} {held : Identity}

theorem Before.of_eq {s s' : Publication} (h : Before s₀ s) (heq : s' = s) : Before s₀ s' := heq ▸ h

theorem wp_holdStaging (h : Before s₀ m.state) :
    wp holdStaging
      (fun held m' => Before s₀ m'.state ∧ m'.state.heldIdentity = some held ∧ s₀.staging = some held)
      (fun _ m' => Before s₀ m'.state) m := by
  refine Keeps.wp_then reports_operate_id (fun _ m₁ h₁ => ?_) (fun _ m₁ h₁ => h.of_eq h₁)
  have b₁ := h.of_eq h₁
  rw [openDirectoryAt, wp_bind]
  refine wp_existing (fun inode m₂ h₂ hinode => ?_) (fun _ m₂ h₂ => b₁.of_eq h₂)
  have hheld : s₀.staging = some inode := b₁.staging.symm.trans hinode
  have b₂ := b₁.of_eq h₂
  rw [fstat, wp_bind]
  refine wp_query (fun script => ?_) (fun _ script => b₂)
  rw [wp_bind, wp_update, wp_pure]
  refine ⟨⟨b₂.attempted, b₂.staging, b₂.destination, fun held hs => hheld.trans hs⟩, rfl, hheld⟩

theorem wp_prepare {expected : Option Identity} (h : Before s₀ m.state) :
    wp (prepare expected)
      (fun held m' => Before s₀ m'.state ∧ m'.state.heldIdentity = some held ∧
        s₀.staging = some held ∧ s₀.destination = none)
      (fun _ m' => Before s₀ m'.state) m := by
  rw [prepare, wp_bind]
  refine wp_mono (wp_holdStaging h) (fun held m₁ hm₁ => ?_) (fun _ _ he => he)
  obtain ⟨b₁, hheld, hstaging⟩ := hm₁
  refine Keeps.wp_then (Keeps.of_onlyIf (Keeps.of_throw _)) (fun _ m₂ h₂ => ?_)
    (fun _ m₂ h₂ => b₁.of_eq h₂)
  refine Keeps.wp_then reports_operate_id (fun _ m₃ h₃ => ?_) (fun _ m₃ h₃ => b₁.of_eq (h₃.trans h₂))
  refine Keeps.wp_then (reports_existing _) (fun named m₄ h₄ => ?_)
    (fun _ m₄ h₄ => b₁.of_eq (h₄.trans (h₃.trans h₂)))
  refine Keeps.wp_then (Keeps.of_onlyIf (Keeps.of_throw _)) (fun _ m₅ h₅ => ?_)
    (fun _ m₅ h₅ => b₁.of_eq (h₅.trans (h₄.trans (h₃.trans h₂))))
  have hsame : m₅.state = m₁.state := h₅.trans (h₄.trans (h₃.trans h₂))
  have b₅ := b₁.of_eq hsame
  rw [statAt, wp_bind]
  refine wp_query (fun script => ?_) (fun _ script => b₅)
  rw [wp_bind, wp_onlyIf]
  refine ⟨fun _ => b₅, fun hfree => ?_⟩
  -- the destination was free when it was looked at
  have hdestination : s₀.destination = none := by
    rw [← b₅.destination]
    simpa [Publication.bound] using hfree
  refine Keeps.wp_then reports_syncParent (fun _ m₇ h₇ => ?_) (fun _ m₇ h₇ => b₅.of_eq h₇)
  rw [wp_pure]
  exact ⟨b₅.of_eq h₇, by rw [h₇, hsame, hheld], hstaging, hdestination⟩

theorem wp_forwardRename (h : Before s₀ m.state) (hheld : m.state.heldIdentity = some held)
    (hstaging : s₀.staging = some held) (hdestination : s₀.destination = none) :
    wp (do update fun s => { s with forwardAttempted := true }
           renameOperation .staging .destination)
      (fun _ m' => After s₀ held m'.state ∧ m'.state.staging = none ∧ m'.state.destination = some held)
      (fun _ m' => After s₀ held m'.state) m := by
  have hs : m.state.staging = some held := h.staging.trans hstaging
  have hd : m.state.destination = none := h.destination.trans hdestination
  rw [wp_bind, wp_update, renameOperation]
  refine wp_operateChecked (fun s script hrename => ?_) (fun _ script => ?_)
    (fun _ s script hrename => ?_)
  · simp only [Publication.rename, Publication.bound, hs, hd] at hrename
    cases hrename
    exact ⟨⟨rfl, hheld, hstaging, hdestination, .inr ⟨rfl, rfl⟩⟩, rfl, rfl⟩
  · exact ⟨rfl, hheld, hstaging, hdestination, .inl ⟨hs, hd⟩⟩
  · simp only [Publication.rename, Publication.bound, hs, hd] at hrename
    cases hrename
    exact ⟨rfl, hheld, hstaging, hdestination, .inr ⟨rfl, rfl⟩⟩

/-- The `try` block returns with the artifact published; where it raises, the forward rename was not
attempted or the held inode has one of the two names. -/
theorem wp_publishForward (expected : Option Identity) (validator : Bool) (h : Before s₀ m.state) :
    wp (publishForward expected validator)
      (fun held m' => After s₀ held m'.state ∧ m'.state.staging = none ∧
        m'.state.destination = some held)
      (fun _ m' => Before s₀ m'.state ∨ ∃ held, After s₀ held m'.state) m := by
  rw [publishForward, wp_bind]
  refine wp_mono (wp_prepare h) (fun held m₁ hm₁ => ?_) (fun _ _ he => .inl he)
  obtain ⟨b₁, hheld, hstaging, hdestination⟩ := hm₁
  have hrename := wp_forwardRename b₁ hheld hstaging hdestination
  rw [wp_bind] at hrename ⊢
  refine wp_mono hrename (fun _ m₂ hm₂ => ?_) (fun _ _ he => .inr ⟨held, he⟩)
  rw [wp_bind]
  refine wp_mono hm₂ (fun _ m₃ hm₃ => ?_) (fun _ _ he => .inr ⟨held, he⟩)
  refine Keeps.wp_then (reports_verifyPublished _ _) (fun _ m₄ h₄ => ?_) (fun _ m₄ h₄ => ?_)
  · rw [wp_pure, h₄]
    exact hm₃
  · exact .inr ⟨held, by rw [h₄]; exact hm₃.1⟩

end Phases

/-! ## Failure atomicity -/

/-- A normal return leaves the destination bound to the held staging inode and the staging name absent;
an exception other than the indeterminate one leaves both names as they were, the staging name bound to
the inode that was held. -/
def FailureAtomic (s₀ : Publication) :
    EStateM.Result PublicationError (Machine PublicationError Publication) Identity → Prop
  | .ok held m =>
    s₀.staging = some held ∧ m.state.destination = some held ∧ m.state.staging = none
  | .error e m => e.isIndeterminate = false →
      m.state.staging = s₀.staging ∧ m.state.destination = s₀.destination ∧
        ∀ held, m.state.heldIdentity = some held → m.state.staging = some held

/-- An entry that was at the destination is still there, and no rename was attempted. -/
def NeverReplaced (s₀ s : Publication) : Prop :=
  ∀ inode, s₀.destination = some inode → s.destination = some inode ∧ s.forwardAttempted = false

/-- Where the destination is bound to the held inode, observing the two names returns or raises the
indeterminate exception. -/
def Sees (held : Identity) (m : Machine PublicationError Publication) : Prop :=
  m.state.destination = some held →
    wp (location held) (fun _ _ => True) (fun e _ => e.isIndeterminate = true) m

/-- The handler's observations see: the first one, and the one after a rollback that raised. -/
def HandlerSees (held : Identity) (m : Machine PublicationError Publication) : Prop :=
  Sees held m ∧
    wp (location held)
      (fun observed m' => observed = .finalName →
        wp rollback (fun _ _ => True) (fun _ m'' => Sees held m'') m')
      (fun _ _ => True) m

/-- Where the `try` block raises after the forward rename was attempted, the handler's observations
see. -/
def Observed (expected : Option Identity) (validator : Bool)
    (m : Machine PublicationError Publication) : Prop :=
  wp (do openParent; publishForward expected validator) (fun _ _ => True)
    (fun _ m' => ∀ held, m'.state.heldIdentity = some held → m'.state.forwardAttempted = true →
      HandlerSees held m') m

section Atomicity

variable {m : Machine PublicationError Publication} {s₀ : Publication} {held : Identity}

theorem After.of_eq {s s' : Publication} (h : After s₀ held s) (heq : s' = s) : After s₀ held s' :=
  heq ▸ h

variable {m' : Machine PublicationError Publication}

theorem raised_iff_sees {e : PublicationError}
    (h : After s₀ held m.state) (hrun : (location held).run m = .error e m') :
    FailureAtomic s₀ (.error e m') ↔ Sees held m := by
  have hsame : m'.state = m.state := (wp_of_error hrun).mp (reports_location held m)
  rw [FailureAtomic, Sees, wp_of_error hrun, hsame]
  rcases h.names with ⟨hs, hd⟩ | ⟨hs, hd⟩
  · -- nothing was renamed
    rw [hs, hd, h.staging₀, h.destination₀, h.heldIdentity]
    simp
  · rw [hs, hd, h.staging₀]
    cases e.isIndeterminate <;> simp

theorem failureAtomic_partial {e : PublicationError}
    (h : After s₀ held m'.state) (hs : m'.state.staging = some held)
    (hd : m'.state.destination = none) : FailureAtomic s₀ (.error e m') := by
  intro _
  refine ⟨hs.trans h.staging₀.symm, hd.trans h.destination₀.symm, fun inode hinode => ?_⟩
  rw [hs, ← hinode, h.heldIdentity]

theorem wp_rollback (h : After s₀ held m.state) (hs : m.state.staging = none)
    (hd : m.state.destination = some held) :
    wp rollback
      (fun _ m' => After s₀ held m'.state ∧ m'.state.staging = some held ∧ m'.state.destination = none)
      (fun _ m' => After s₀ held m'.state) m := by
  refine Keeps.wp_then reports_operate_id (fun _ m₁ h₁ => ?_) (fun _ m₁ h₁ => h.of_eq h₁)
  have a₁ := h.of_eq h₁
  have hback : ∀ s, m₁.state.rename .destination .staging = .ok s →
      After s₀ held s ∧ s.staging = some held ∧ s.destination = none := by
    intro s hrename
    simp only [h₁, Publication.rename, Publication.bound, hs, hd] at hrename
    cases hrename
    exact ⟨⟨h.attempted, h.heldIdentity, h.staging₀, h.destination₀, .inl ⟨rfl, rfl⟩⟩, rfl, rfl⟩
  rw [renameOperation, wp_bind]
  refine wp_operateChecked (fun s script hrename => ?_) (fun _ script => a₁)
    (fun _ s script hrename => (hback s hrename).1)
  have hrest : Reports (do hook; fsync; hook) :=
    .bind reports_operate_id fun _ => .bind reports_operate_id fun _ => reports_operate_id
  refine hrest.wp (fun _ m₂ h₂ => ?_) (fun _ m₂ h₂ => ?_)
  · rw [h₂]
    exact hback s hrename
  · rw [h₂]
    exact (hback s hrename).1

theorem location_run {l : Location} (hrun : (location held).run m = .ok l m') :
    l = Location.of m.state.staging m.state.destination held ∧ m'.state = m.state := by
  have h : wp (location held)
      (fun l m' => l = Location.of m.state.staging m.state.destination held ∧ m'.state = m.state)
      (fun _ _ => True) m := wp_location (fun _ h => ⟨rfl, h⟩) (fun _ _ _ => trivial)
  exact (wp_of_ok hrun).mp h

theorem wp_failureAtomic {x : Publishing Identity} :
    wp x (fun held m' => FailureAtomic s₀ (.ok held m')) (fun e m' => FailureAtomic s₀ (.error e m')) m ↔
      FailureAtomic s₀ (x.run m) := by
  unfold wp
  cases x.run m <;> rfl

theorem Location.of_partial : Location.of (some held) none held = .partialName := by
  simp [Location.of]

theorem Location.of_final : Location.of none (some held) held = .finalName := by
  simp [Location.of]

theorem observeRollback_iff {l : Location → PublicationError} (h : After s₀ held m.state)
    (hl : ∀ observed, (l observed).isIndeterminate = true) :
    FailureAtomic s₀
        ((do let locationAfter ← location held
             throw (l locationAfter) : Publishing Identity).run m) ↔ Sees held m := by
  rw [← wp_failureAtomic, wp_bind]
  cases hrun : (location held).run m with
  | error e m' =>
    rw [wp_of_error hrun]
    exact raised_iff_sees h hrun
  | ok observed m' =>
    rw [wp_of_ok hrun, wp_throw, FailureAtomic, Sees, wp_of_ok hrun, hl]
    simp

theorem wp_rolledBack (original : PublicationError) (h : After s₀ held m.state)
    (hs : m.state.staging = some held) (hd : m.state.destination = none) :
    wp (do let locationAfter ← location held
           if locationAfter ≠ .partialName then
             throw (.indeterminate "publication rollback did not restore the exact partial inode")
           else throw original : Publishing Identity)
      (fun held m' => FailureAtomic s₀ (.ok held m')) (fun e m' => FailureAtomic s₀ (.error e m')) m := by
  rw [wp_bind]
  refine wp_location (fun m' h' => ?_) (fun _ m' h' => ?_)
  · rw [hs, hd, Location.of_partial]
    exact failureAtomic_partial (h.of_eq h') (h' ▸ hs) (h' ▸ hd)
  · exact failureAtomic_partial (h.of_eq h') (h' ▸ hs) (h' ▸ hd)

theorem publicationFailure_iff (original : PublicationError) (h : After s₀ held m.state) :
    FailureAtomic s₀ ((publicationFailure original held).run m) ↔ HandlerSees held m := by
  rw [← wp_failureAtomic, publicationFailure, wp_bind, HandlerSees]
  cases hrun : (location held).run m with
  | error e m₁ =>
    rw [wp_of_error hrun, wp_of_error hrun, and_true]
    exact raised_iff_sees h hrun
  | ok observed m₁ =>
    obtain ⟨rfl, h₁⟩ := location_run hrun
    have a₁ := h.of_eq h₁
    have hsees : Sees held m := fun _ => (wp_of_ok hrun).mpr trivial
    rw [wp_of_ok hrun, wp_of_ok hrun]
    simp only [hsees, true_and]
    rcases h.names with ⟨hs, hd⟩ | ⟨hs, hd⟩
    · rw [hs, hd, Location.of_partial]
      have hatomic := failureAtomic_partial (e := original) a₁ (h₁ ▸ hs) (h₁ ▸ hd)
      exact iff_of_true hatomic (fun hne => by cases hne)
    · rw [hs, hd, Location.of_final]
      simp only [forall_const]
      rw [wp_bind, wp_attempt]
      have hroll := wp_rollback a₁ (h₁ ▸ hs) (h₁ ▸ hd)
      cases hrun₂ : rollback.run m₁ with
      | error e m₂ =>
        rw [wp_of_error hrun₂] at hroll
        rw [wp_of_error hrun₂, wp_of_error hrun₂]
        exact wp_failureAtomic.trans (observeRollback_iff hroll (fun _ => rfl))
      | ok _ m₂ =>
        rw [wp_of_ok hrun₂] at hroll
        rw [wp_of_ok hrun₂, wp_of_ok hrun₂, iff_true]
        exact wp_rolledBack original hroll.1 hroll.2.1 hroll.2.2

theorem Before.failureAtomic {e : PublicationError} (h : Before s₀ m.state) :
    FailureAtomic s₀ (.error e m) := by
  intro _
  exact ⟨h.staging, h.destination, fun held hheld => h.staging.trans (h.held held hheld)⟩

theorem publishHandled_before {original : PublicationError} (h : Before s₀ m.state) :
    (publishHandled original).run m = .error original m := by
  show (match m.state.heldIdentity, m.state.forwardAttempted with
    | some held, true => publicationFailure original held
    | _, _ => throw original : Publishing Identity).run m = _
  rw [h.attempted]
  cases m.state.heldIdentity <;> rfl

theorem publishHandled_after {original : PublicationError} (h : After s₀ held m.state) :
    (publishHandled original).run m = (publicationFailure original held).run m := by
  show (match m.state.heldIdentity, m.state.forwardAttempted with
    | some held, true => publicationFailure original held
    | _, _ => throw original : Publishing Identity).run m = _
  rw [h.attempted, h.heldIdentity]

theorem publish_atomic_iff {expected : Option Identity} {validator : Bool} (h : Before s₀ m.state) :
    FailureAtomic s₀ ((publishArtifactNoreplace expected validator).run m) ↔
      Observed expected validator m := by
  rw [← wp_failureAtomic, publishArtifactNoreplace, Observed, wp_bind, wp_bind]
  cases hopen : openParent.run m with
  | error e m₁ =>
    have h₁ : m₁.state = m.state := (wp_of_error hopen).mp (reports_operate_id m)
    have b₁ := h.of_eq h₁
    rw [wp_of_error hopen, wp_of_error hopen]
    refine iff_of_true b₁.failureAtomic (fun held _ hattempted => ?_)
    rw [b₁.attempted] at hattempted
    cases hattempted
  | ok _ m₁ =>
    have h₁ : m₁.state = m.state := (wp_of_ok hopen).mp (reports_operate_id m)
    rw [wp_of_ok hopen, wp_of_ok hopen, wp_bind, wp_attempt]
    have hforward := wp_publishForward expected validator (h.of_eq h₁)
    cases hrun : (publishForward expected validator).run m₁ with
    | ok held m₂ =>
      rw [wp_of_ok hrun] at hforward
      rw [wp_of_ok hrun, wp_of_ok hrun, iff_true]
      obtain ⟨a₂, hs, hd⟩ := hforward
      exact ⟨a₂.staging₀, hd, hs⟩
    | error e m₂ =>
      rw [wp_of_error hrun] at hforward
      rw [wp_of_error hrun, wp_of_error hrun, wp_failureAtomic]
      rcases hforward with b₂ | ⟨held, a₂⟩
      · rw [publishHandled_before b₂]
        refine iff_of_true b₂.failureAtomic (fun held _ hattempted => ?_)
        rw [b₂.attempted] at hattempted
        cases hattempted
      · rw [publishHandled_after a₂, publicationFailure_iff e a₂]
        constructor
        · intro hsees inode hinode _
          rw [a₂.heldIdentity] at hinode
          cases hinode
          exact hsees
        · intro hall
          exact hall held a₂.heldIdentity a₂.attempted

theorem publish_neverReplaced {expected : Option Identity} {validator : Bool} (h : Before s₀ m.state) :
    NeverReplaced s₀ (finalState ((publishArtifactNoreplace expected validator).run m)).state := by
  intro inode hinode
  -- the destination was not free, so that the forward rename is never attempted
  have hnever : ∀ held s, ¬ After s₀ held s := by
    intro held s hafter
    rw [hafter.destination₀] at hinode
    cases hinode
  have hbefore : ∀ {s}, Before s₀ s → s.destination = some inode ∧ s.forwardAttempted = false :=
    fun hs => ⟨hs.destination.trans hinode, hs.attempted⟩
  refine (wp_iff_finalState (P := fun m' : Machine PublicationError Publication =>
    m'.state.destination = some inode ∧ m'.state.forwardAttempted = false)).mp ?_
  refine Keeps.wp_then reports_operate_id (fun _ m₁ h₁ => ?_) (fun _ m₁ h₁ => hbefore (h.of_eq h₁))
  rw [wp_bind, wp_attempt]
  refine wp_mono (wp_publishForward _ _ (h.of_eq h₁)) (fun held m₂ hm₂ => ?_) (fun e m₂ hm₂ => ?_)
  · exact absurd hm₂.1 (hnever held _)
  · rcases hm₂ with b₂ | ⟨held, a₂⟩
    · exact (wp_of_error (publishHandled_before b₂)).mpr (hbefore b₂)
    · exact absurd a₂ (hnever held _)

end Atomicity

/-- For every directory, every fault and every argument: an entry at the destination is never touched,
and the call is failure-atomic exactly where no observation of its handler fails while the destination
is bound to the held inode. -/
theorem publish_artifact_noreplace_atomic_iff (expected : Option Identity) (validator : Bool)
    (staging destination : Option Identity) (script : List (Option (Raise PublicationError))) :
    let s₀ : Publication := ⟨staging, destination, none, false⟩
    let result := (publishArtifactNoreplace expected validator).run ⟨s₀, script⟩
    FailureAtomic s₀ result ∧ NeverReplaced s₀ (finalState result).state ↔
      Observed expected validator ⟨s₀, script⟩ := by
  intro s₀ result
  have h : Before s₀ (⟨s₀, script⟩ : Machine PublicationError Publication).state :=
    ⟨rfl, rfl, rfl, fun held hheld => by cases hheld⟩
  rw [publish_atomic_iff h]
  exact and_iff_left (publish_neverReplaced h)

/-- The hook raises right after the forward rename and the handler's first stat raises as well: the
artifact stays published and the exception is the stat's. -/
theorem publish_artifact_noreplace_unobserved :
    let s₀ : Publication := ⟨some ⟨1, 7⟩, none, none, false⟩
    let script := List.replicate 13 none ++
      [some ⟨.other "KeyboardInterrupt", false⟩, some ⟨.osError 5, false⟩]
    let result := (publishArtifactNoreplace none false).run ⟨s₀, script⟩
    ¬ (FailureAtomic s₀ result ∧ NeverReplaced s₀ (finalState result).state) := by
  intro s₀ script result h
  have hstaging : (none : Option Identity) = some ⟨1, 7⟩ := (h.1 rfl).1
  cases hstaging

end Bravo.Timing
