import Bravo.Trace.CompositeState

/-! # Prepared post-commit snapshots

`PreparePostcommit`, `FillPostcommitNoAlloc` and `HandoffPostcommitNoAlloc` on any number of prepared
objects. A phase-0 token is shared by the captures that come from it and is consumed by the first
preparation; a prepared object is filled once and hands its snapshot off once
(`postcommit_single_use`). A call that an entry check refuses leaves everything as it was, so an empty
object that was refused may still be prepared (`refused_fill_then_prepared`).
-/

namespace Bravo.Trace

open List

inductive CP2PreparedPostcommitState
  | kEmpty
  | kPrepared
  | kComplete
  | kFailed
  | kHandedOff
deriving DecidableEq, Repr

/-- `CP2CompositePointerGraphData` besides its flag; `G` are its owning pointers. -/
structure PointerGraphData (G : Type) where
  capturePhase : CP2StatePhase
  capturedSnapshot : CP2CompositeStateSnapshot
  graph : G

/-- `CP2CompositeStateCapture`; a token that was moved from is empty. -/
structure CP2CompositeStateCapture where
  snapshot : CP2CompositeStateSnapshot
  pointerGraph : Option Nat

/-- `CP2PreparedPostcommitCapture`, as it is constructed. -/
structure CP2PreparedPostcommitCapture where
  snapshot : Option CP2CompositeStateSnapshot := none
  state : CP2PreparedPostcommitState := .kEmpty
  pointerGraph : Option Nat := none

/-- What a fill reads of a live state `L`. -/
structure LiveAccess (G L : Type) where
  /-- The comparisons of `PointerGraphMatches` behind its test of the token. -/
  matchesGraph : L → G → Bool
  /-- The copying of `FillPostcommitNoAlloc`: what it has written when it ends, and its status. -/
  copy : G → L → CP2CompositeStateSnapshot → CP2CompositeStateSnapshot × CP2CompositeStateStatus

structure PostcommitStore where
  postcommitPrepared : Nat → Bool
  objects : Nat → CP2PreparedPostcommitCapture

def PostcommitStore.initial : PostcommitStore := ⟨fun _ => false, fun _ => {}⟩

def PostcommitStore.put (w : PostcommitStore) (o : Nat) (p : CP2PreparedPostcommitCapture) :
    PostcommitStore :=
  { w with objects := fun o' => if o' = o then p else w.objects o' }

inductive PostcommitCall (L : Type)
  /-- `allocates` is false when an allocation throws. -/
  | prepare (allocates : Bool) (phase0 : CP2CompositeStateCapture) (o : Nat)
  | fill (state : Option L) (o : Nat)
  /-- `occupied` is whether the destination holds a snapshot already. -/
  | handoff (occupied : Bool) (o : Nat)

def PostcommitCall.object {L : Type} : PostcommitCall L → Nat
  | .prepare _ _ o => o
  | .fill _ o => o
  | .handoff _ o => o

structure PostcommitReturn where
  status : CP2CompositeStateStatus
  output : Option CP2CompositeStateSnapshot := none

/-! ## The calls -/

def MatrixXd.setZero (M : MatrixXd) : MatrixXd :=
  { M with
    coeffs := List.replicate (M.rows * M.cols) ⟨0⟩
    length_eq := length_replicate }

def clearedSnapshot (s : CP2CompositeStateSnapshot) : CP2CompositeStateSnapshot :=
  { s with
    phase := .kPhase3LivePostcommit
    covariance := s.covariance.setZero
    activeTypes := s.activeTypes.map fun active =>
      { active with nominal := active.nominal.setZero, fej := active.fej.setZero }
    fixedImuCalibrations := s.fixedImuCalibrations.map fun fixed =>
      { fixed with nominal := fixed.nominal.setZero, fej := fixed.fej.setZero }
    timeOffsetNominal := s.timeOffsetNominal.setZero
    timeOffsetFej := s.timeOffsetFej.setZero
    cameraCalibrations := s.cameraCalibrations.map fun camera =>
      { camera with
        extrinsicNominal := camera.extrinsicNominal.setZero
        extrinsicFej := camera.extrinsicFej.setZero
        intrinsicNominal := camera.intrinsicNominal.setZero
        intrinsicFej := camera.intrinsicFej.setZero }
    cameraCaches := s.cameraCaches.map fun cache =>
      { cache with
        calibration := cache.calibration.setZero
        K := cache.K.setZero
        D := cache.D.setZero } }

section Calls

variable {G L : Type} (unitNorm : List Binary64 → Bool) (tokens : Nat → PointerGraphData G)
  (live : LiveAccess G L)

def preparePostcommit (allocates : Bool) (phase0 : CP2CompositeStateCapture) (o : Nat)
    (w : PostcommitStore) : PostcommitStore × PostcommitReturn :=
  if (w.objects o).state ≠ .kEmpty then (w, ⟨.kNotPrepared, none⟩)
  else
    match phase0.pointerGraph with
    | none => (w, ⟨.kInvalidPhase, none⟩)
    | some token =>
      if phase0.snapshot.phase ≠ .kPhase0Prior ∨ (tokens token).capturePhase ≠ .kPhase0Prior then
        (w, ⟨.kInvalidPhase, none⟩)
      else if !canonicallyEqual phase0.snapshot (tokens token).capturedSnapshot then
        (w, ⟨.kInvalidPointerGraph, none⟩)
      else if validate unitNorm phase0.snapshot ≠ .kAccepted then
        (w, ⟨validate unitNorm phase0.snapshot, none⟩)
      else if !allocates then (w, ⟨.kIncompleteStructure, none⟩)
      else if w.postcommitPrepared token then (w, ⟨.kNotPrepared, none⟩)
      else
        ({ w with postcommitPrepared := fun t => if t = token then true else
            w.postcommitPrepared t }.put o
          ⟨some (clearedSnapshot phase0.snapshot), .kPrepared, some token⟩, ⟨.kAccepted, none⟩)

def fillPostcommitNoAlloc (state : Option L) (o : Nat) (w : PostcommitStore) :
    PostcommitStore × PostcommitReturn :=
  let prepared := w.objects o
  match prepared.state, prepared.snapshot with
  | .kPrepared, some snapshot =>
    if snapshot.phase ≠ .kPhase3LivePostcommit then (w, ⟨.kNotPrepared, none⟩)
    else
      -- The transition is one-way: what follows leaves a failed object unless it ends.
      let failed := { prepared with state := .kFailed }
      match state with
      | none => (w.put o failed, ⟨.kNullState, none⟩)
      | some st =>
        match prepared.pointerGraph with
        | none => (w.put o failed, ⟨.kInvalidPointerGraph, none⟩)
        | some token =>
          if (tokens token).capturePhase ≠ .kPhase0Prior ∨
              live.matchesGraph st (tokens token).graph = false then
            (w.put o failed, ⟨.kInvalidPointerGraph, none⟩)
          else
            let copied := live.copy (tokens token).graph st snapshot
            if copied.2 = .kAccepted then
              (w.put o { prepared with snapshot := some copied.1, state := .kComplete },
                ⟨.kAccepted, none⟩)
            else (w.put o { failed with snapshot := some copied.1 }, ⟨copied.2, none⟩)
  | _, _ => (w, ⟨.kNotPrepared, none⟩)

def handoffPostcommitNoAlloc (occupied : Bool) (o : Nat) (w : PostcommitStore) :
    PostcommitStore × PostcommitReturn :=
  let prepared := w.objects o
  match prepared.state, prepared.snapshot with
  | .kComplete, some snapshot =>
    if occupied then (w.put o { prepared with state := .kFailed }, ⟨.kInvalidProposal, none⟩)
    else (w.put o { prepared with state := .kHandedOff, snapshot := none },
      ⟨.kAccepted, some snapshot⟩)
  | _, _ => (w, ⟨.kNotPrepared, none⟩)

def postcommitStep (w : PostcommitStore) :
    PostcommitCall L → PostcommitStore × PostcommitReturn
  | .prepare allocates phase0 o => preparePostcommit unitNorm tokens allocates phase0 o w
  | .fill state o => fillPostcommitNoAlloc tokens live state o w
  | .handoff occupied o => handoffPostcommitNoAlloc occupied o w

def afterCalls (calls : List (PostcommitCall L)) : PostcommitStore :=
  calls.foldl (fun w call => (postcommitStep unitNorm tokens live w call).1) .initial

def AcceptedAfter (calls : List (PostcommitCall L)) (call : PostcommitCall L) : Prop :=
  (postcommitStep unitNorm tokens live (afterCalls unitNorm tokens live calls) call).2.status =
    .kAccepted

end Calls

/-! ## What a call can do -/

/-- The lifecycle in its order; both ends are final. -/
def CP2PreparedPostcommitState.rank : CP2PreparedPostcommitState → Nat
  | .kEmpty => 0
  | .kPrepared => 1
  | .kComplete => 2
  | .kFailed => 3
  | .kHandedOff => 3

inductive LifecycleEdge : CP2PreparedPostcommitState → CP2PreparedPostcommitState → Prop
  | prepare : LifecycleEdge .kEmpty .kPrepared
  | complete : LifecycleEdge .kPrepared .kComplete
  | fillFails : LifecycleEdge .kPrepared .kFailed
  | handoff : LifecycleEdge .kComplete .kHandedOff
  | handoffFails : LifecycleEdge .kComplete .kFailed

theorem LifecycleEdge.rank_lt {a b : CP2PreparedPostcommitState} (h : LifecycleEdge a b) :
    a.rank < b.rank := by
  cases h <;> decide

def PostcommitCall.stage {L : Type} : PostcommitCall L → Nat
  | .prepare _ _ _ => 0
  | .fill _ _ => 1
  | .handoff _ _ => 2

/-- The call passes its entry check; a preparation has none that it can fail behind. -/
def PostcommitCall.Enters {L : Type} (w : PostcommitStore) : PostcommitCall L → Prop
  | .prepare _ _ _ => False
  | .fill _ o => (w.objects o).state = .kPrepared ∧
      ∃ snapshot, (w.objects o).snapshot = some snapshot ∧ snapshot.phase = .kPhase3LivePostcommit
  | .handoff _ o => (w.objects o).state = .kComplete ∧ ∃ snapshot, (w.objects o).snapshot = some snapshot

section Moves

variable {G L : Type} {unitNorm : List Binary64 → Bool} {tokens : Nat → PointerGraphData G}
  {live : LiveAccess G L}

inductive PostcommitMove (tokens : Nat → PointerGraphData G) (live : LiveAccess G L)
    (w : PostcommitStore) : PostcommitCall L → PostcommitStore → PostcommitReturn → Prop
  | refused (call : PostcommitCall L) (ret : PostcommitReturn) (hstatus : ret.status ≠ .kAccepted)
      (hentry : ¬ call.Enters w) : PostcommitMove tokens live w call w ret
  | prepared {allocates : Bool} {phase0 : CP2CompositeStateCapture} {o token : Nat}
      (hstate : (w.objects o).state = .kEmpty) (htoken : phase0.pointerGraph = some token)
      (hunprepared : w.postcommitPrepared token = false) :
      PostcommitMove tokens live w (.prepare allocates phase0 o)
        ({ w with postcommitPrepared := fun t => if t = token then true else
            w.postcommitPrepared t }.put o
          ⟨some (clearedSnapshot phase0.snapshot), .kPrepared, some token⟩) ⟨.kAccepted, none⟩
  | completed {st : L} {o token : Nat} {snapshot : CP2CompositeStateSnapshot}
      (hstate : (w.objects o).state = .kPrepared) (hsnapshot : (w.objects o).snapshot = some snapshot)
      (htoken : (w.objects o).pointerGraph = some token)
      (hphase : (tokens token).capturePhase = .kPhase0Prior)
      (hmatches : live.matchesGraph st (tokens token).graph = true)
      (hcopied : (live.copy (tokens token).graph st snapshot).2 = .kAccepted) :
      PostcommitMove tokens live w (.fill (some st) o)
        (w.put o { w.objects o with
          snapshot := some (live.copy (tokens token).graph st snapshot).1, state := .kComplete })
        ⟨.kAccepted, none⟩
  | fillFailed {state : Option L} {o : Nat} {snapshot : Option CP2CompositeStateSnapshot}
      {ret : PostcommitReturn} (hentry : (PostcommitCall.fill state o).Enters w)
      (hstatus : ret.status ≠ .kAccepted) :
      PostcommitMove tokens live w (.fill state o)
        (w.put o { w.objects o with snapshot := snapshot, state := .kFailed }) ret
  | handedOff {o : Nat} {snapshot : CP2CompositeStateSnapshot}
      (hstate : (w.objects o).state = .kComplete)
      (hsnapshot : (w.objects o).snapshot = some snapshot) :
      PostcommitMove tokens live w (.handoff false o)
        (w.put o { w.objects o with state := .kHandedOff, snapshot := none })
        ⟨.kAccepted, some snapshot⟩
  | handoffFailed {o : Nat} (hentry : (PostcommitCall.handoff true o : PostcommitCall L).Enters w) :
      PostcommitMove tokens live w (.handoff true o)
        (w.put o { w.objects o with state := .kFailed }) ⟨.kInvalidProposal, none⟩

theorem preparePostcommit_move (w : PostcommitStore) (allocates : Bool)
    (phase0 : CP2CompositeStateCapture) (o : Nat) :
    PostcommitMove tokens live w (.prepare allocates phase0 o)
      (preparePostcommit unitNorm tokens allocates phase0 o w).1
      (preparePostcommit unitNorm tokens allocates phase0 o w).2 := by
  have hrefused : ∀ ret : PostcommitReturn, ret.status ≠ .kAccepted →
      PostcommitMove tokens live w (.prepare allocates phase0 o) w ret := fun ret h =>
    .refused _ ret h id
  unfold preparePostcommit
  by_cases hstate : (w.objects o).state = .kEmpty
  · rw [if_neg (not_not_intro hstate)]
    cases htoken : phase0.pointerGraph with
    | none => exact hrefused _ nofun
    | some token =>
      simp only
      split_ifs with hphase hequal hvalid hallocates hused
      · exact hrefused _ nofun
      · exact hrefused _ nofun
      · exact hrefused _ hvalid
      · exact hrefused _ nofun
      · exact hrefused _ nofun
      · exact .prepared hstate htoken (by simpa using hused)
  · rw [if_pos hstate]
    exact hrefused _ nofun

theorem fillPostcommitNoAlloc_move (w : PostcommitStore) (state : Option L) (o : Nat) :
    PostcommitMove tokens live w (.fill state o) (fillPostcommitNoAlloc tokens live state o w).1
      (fillPostcommitNoAlloc tokens live state o w).2 := by
  unfold fillPostcommitNoAlloc
  simp only
  split
  · rename_i snapshot hstate hsnapshot
    split_ifs with hphase
    · refine .refused _ _ nofun ?_
      rintro ⟨-, other, hother, hphase'⟩
      rw [hsnapshot] at hother
      exact hphase (Option.some.inj hother ▸ hphase')
    · have hentry : ∀ state : Option L, (PostcommitCall.fill state o).Enters w := fun _ =>
        ⟨hstate, snapshot, hsnapshot, not_not.mp hphase⟩
      cases state with
      | none => exact .fillFailed (hentry _) nofun
      | some st =>
        simp only
        cases htoken : (w.objects o).pointerGraph with
        | none =>
          simp only
          rw [← htoken]
          exact .fillFailed (hentry _) nofun
        | some token =>
          simp only
          split_ifs with hmatches hcopied
          · rw [← htoken]
            exact .fillFailed (hentry _) nofun
          · have hmatches' := not_or.mp hmatches
            rw [← htoken]
            exact .completed hstate hsnapshot htoken (not_not.mp hmatches'.1)
              (Bool.not_eq_false _ ▸ hmatches'.2) hcopied
          · rw [← htoken]
            exact .fillFailed (hentry _) hcopied
  · rename_i hnot
    refine .refused _ _ nofun ?_
    rintro ⟨hstate, snapshot, hsnapshot, -⟩
    exact hnot snapshot hstate hsnapshot

theorem handoffPostcommitNoAlloc_move (w : PostcommitStore) (occupied : Bool) (o : Nat) :
    PostcommitMove tokens live w (.handoff occupied o : PostcommitCall L)
      (handoffPostcommitNoAlloc occupied o w).1 (handoffPostcommitNoAlloc occupied o w).2 := by
  unfold handoffPostcommitNoAlloc
  simp only
  split
  · rename_i snapshot hstate hsnapshot
    cases occupied with
    | true => exact .handoffFailed ⟨hstate, snapshot, hsnapshot⟩
    | false => exact .handedOff hstate hsnapshot
  · rename_i hnot
    refine .refused _ _ nofun ?_
    rintro ⟨hstate, snapshot, hsnapshot⟩
    exact hnot snapshot hstate hsnapshot

theorem postcommitStep_move (w : PostcommitStore) (call : PostcommitCall L) :
    PostcommitMove tokens live w call (postcommitStep unitNorm tokens live w call).1
      (postcommitStep unitNorm tokens live w call).2 := by
  cases call with
  | prepare allocates phase0 o => exact preparePostcommit_move w allocates phase0 o
  | fill state o => exact fillPostcommitNoAlloc_move w state o
  | handoff occupied o => exact handoffPostcommitNoAlloc_move w occupied o

theorem put_lifecycle {w : PostcommitStore} {target : Nat} {p : CP2PreparedPostcommitCapture}
    (h : LifecycleEdge (w.objects target).state p.state) (o : Nat) :
    (w.put target p).objects o = w.objects o ∨
      LifecycleEdge (w.objects o).state ((w.put target p).objects o).state := by
  by_cases ho : o = target
  · subst ho
    right
    simpa [PostcommitStore.put] using h
  · exact .inl (if_neg ho)

theorem PostcommitMove.lifecycle {w w' : PostcommitStore} {call : PostcommitCall L}
    {ret : PostcommitReturn} (h : PostcommitMove tokens live w call w' ret) (o : Nat) :
    w'.objects o = w.objects o ∨ LifecycleEdge (w.objects o).state (w'.objects o).state := by
  cases h with
  | refused => exact .inl rfl
  | prepared hstate => exact put_lifecycle (hstate ▸ .prepare) o
  | completed hstate => exact put_lifecycle (hstate ▸ .complete) o
  | fillFailed hentry => exact put_lifecycle (hentry.1 ▸ .fillFails) o
  | handedOff hstate => exact put_lifecycle (hstate ▸ .handoff) o
  | handoffFailed hentry => exact put_lifecycle (hentry.1 ▸ .handoffFails) o

theorem PostcommitMove.rank_of_accepted {w w' : PostcommitStore} {call : PostcommitCall L}
    {ret : PostcommitReturn} (h : PostcommitMove tokens live w call w' ret)
    (haccepted : ret.status = .kAccepted) :
    (w.objects call.object).state.rank = call.stage ∧
      (w'.objects call.object).state.rank = call.stage + 1 := by
  cases h with
  | refused _ _ hstatus => exact absurd haccepted hstatus
  | prepared hstate => exact ⟨congrArg _ hstate, by simp [PostcommitStore.put,
      PostcommitCall.object, PostcommitCall.stage, CP2PreparedPostcommitState.rank]⟩
  | completed hstate => exact ⟨congrArg _ hstate, by simp [PostcommitStore.put,
      PostcommitCall.object, PostcommitCall.stage, CP2PreparedPostcommitState.rank]⟩
  | fillFailed _ hstatus => exact absurd haccepted hstatus
  | handedOff hstate => exact ⟨congrArg _ hstate, by simp [PostcommitStore.put,
      PostcommitCall.object, PostcommitCall.stage, CP2PreparedPostcommitState.rank]⟩
  | handoffFailed => exact absurd haccepted nofun

end Moves

/-! ## Runs -/

section Runs

variable {G L : Type} {unitNorm : List Binary64 → Bool} {tokens : Nat → PointerGraphData G}
  {live : LiveAccess G L}

theorem afterCalls_append_singleton (calls : List (PostcommitCall L)) (call : PostcommitCall L) :
    afterCalls unitNorm tokens live (calls ++ [call]) =
      (postcommitStep unitNorm tokens live (afterCalls unitNorm tokens live calls) call).1 := by
  simp [afterCalls, foldl_append]

/-- Where the snapshot of a complete object comes from: a fill of this object, against a live state
with the pointers of its token, that copied everything. -/
def FilledBy (unitNorm : List Binary64 → Bool) (tokens : Nat → PointerGraphData G)
    (live : LiveAccess G L) (calls : List (PostcommitCall L)) (o : Nat)
    (filled : CP2CompositeStateSnapshot) : Prop :=
  ∃ before between st snapshot token, calls = before ++ .fill (some st) o :: between ∧
    AcceptedAfter unitNorm tokens live before (.fill (some st) o) ∧
    ((afterCalls unitNorm tokens live before).objects o).pointerGraph = some token ∧
    ((afterCalls unitNorm tokens live before).objects o).snapshot = some snapshot ∧
    (tokens token).capturePhase = .kPhase0Prior ∧
    live.matchesGraph st (tokens token).graph = true ∧
    (live.copy (tokens token).graph st snapshot).2 = .kAccepted ∧
    filled = (live.copy (tokens token).graph st snapshot).1

variable {calls : List (PostcommitCall L)}

theorem FilledBy.append {o : Nat}
    {filled : CP2CompositeStateSnapshot} (h : FilledBy unitNorm tokens live calls o filled)
    (call : PostcommitCall L) : FilledBy unitNorm tokens live (calls ++ [call]) o filled := by
  obtain ⟨before, between, st, snapshot, token, hcalls, hrest⟩ := h
  exact ⟨before, between ++ [call], st, snapshot, token, by rw [hcalls]; simp, hrest⟩

theorem filledBy_of_complete (calls : List (PostcommitCall L)) (o : Nat)
    (hcomplete : ((afterCalls unitNorm tokens live calls).objects o).state = .kComplete) :
    ∃ filled, ((afterCalls unitNorm tokens live calls).objects o).snapshot = some filled ∧
      FilledBy unitNorm tokens live calls o filled := by
  induction calls using List.reverseRecOn with
  | nil => exact absurd hcomplete nofun
  | append_singleton calls call ih =>
    have hmove := @postcommitStep_move G L unitNorm tokens live
      (afterCalls unitNorm tokens live calls) call
    rw [afterCalls_append_singleton] at hcomplete ⊢
    generalize hresult : postcommitStep unitNorm tokens live
      (afterCalls unitNorm tokens live calls) call = result at hmove hcomplete
    obtain ⟨w', ret⟩ := result
    simp only at hmove hcomplete ⊢
    rcases hmove.lifecycle o with hstays | hedge
    · -- An object that stays has the same origin.
      rw [hstays] at hcomplete ⊢
      obtain ⟨filled, hfilled, horigin⟩ := ih hcomplete
      exact ⟨filled, hfilled, horigin.append call⟩
    · rw [hcomplete] at hedge
      have hprepared : ((afterCalls unitNorm tokens live calls).objects o).state = .kPrepared := by
        generalize ((afterCalls unitNorm tokens live calls).objects o).state = state at hedge ⊢
        cases hedge
        rfl
      cases hmove with
      | completed hstate hsnapshot htoken hphase hmatches hcopied =>
        rename_i st target token snapshot
        by_cases ho : o = target
        · subst ho
          refine ⟨_, by simp [PostcommitStore.put], calls, [], st, snapshot, token, rfl, ?_, htoken,
            hsnapshot, hphase, hmatches, hcopied, rfl⟩
          rw [AcceptedAfter, hresult]
        · simp only [PostcommitStore.put, if_neg ho, hprepared] at hcomplete
          exact absurd hcomplete nofun
      | refused => rw [hprepared] at hcomplete; exact absurd hcomplete nofun
      | _ =>
        simp only [PostcommitStore.put] at hcomplete
        split at hcomplete
        · exact absurd hcomplete nofun
        · rw [hprepared] at hcomplete
          exact absurd hcomplete nofun

theorem rank_mono (calls later : List (PostcommitCall L)) (o : Nat) :
    ((afterCalls unitNorm tokens live calls).objects o).state.rank ≤
      ((afterCalls unitNorm tokens live (calls ++ later)).objects o).state.rank := by
  induction later using List.reverseRecOn with
  | nil => rw [append_nil]
  | append_singleton later call ih =>
    rw [← append_assoc, afterCalls_append_singleton]
    have hmove := @postcommitStep_move G L unitNorm tokens live
      (afterCalls unitNorm tokens live (calls ++ later)) call
    rcases hmove.lifecycle o with hstays | hedge
    · rw [hstays]
      exact ih
    · exact ih.trans hedge.rank_lt.le

theorem postcommitPrepared_mono (calls later : List (PostcommitCall L)) (token : Nat)
    (h : (afterCalls unitNorm tokens live calls).postcommitPrepared token = true) :
    (afterCalls unitNorm tokens live (calls ++ later)).postcommitPrepared token = true := by
  induction later using List.reverseRecOn with
  | nil => rwa [append_nil]
  | append_singleton later call ih =>
    rw [← append_assoc, afterCalls_append_singleton]
    have hmove := @postcommitStep_move G L unitNorm tokens live
      (afterCalls unitNorm tokens live (calls ++ later)) call
    generalize postcommitStep unitNorm tokens live
      (afterCalls unitNorm tokens live (calls ++ later)) call = result at hmove
    obtain ⟨w', ret⟩ := result
    cases hmove with
    | prepared => simp only [ih, ite_self]
    | _ => exact ih

variable {call : PostcommitCall L}

theorem rank_of_acceptedAfter
    (h : AcceptedAfter unitNorm tokens live calls call) :
    ((afterCalls unitNorm tokens live calls).objects call.object).state.rank = call.stage ∧
      ((afterCalls unitNorm tokens live (calls ++ [call])).objects call.object).state.rank =
        call.stage + 1 := by
  rw [afterCalls_append_singleton]
  exact (postcommitStep_move (afterCalls unitNorm tokens live calls) call).rank_of_accepted h

theorem stage_lt_of_accepted {calls later : List (PostcommitCall L)} {call call' : PostcommitCall L}
    (h : AcceptedAfter unitNorm tokens live calls call) (hobject : call'.object = call.object)
    (h' : AcceptedAfter unitNorm tokens live (calls ++ call :: later) call') :
    call.stage < call'.stage := by
  have hbehind := (rank_of_acceptedAfter h).2
  have hnext := (rank_of_acceptedAfter h').1
  have hmono := @rank_mono G L unitNorm tokens live (calls ++ [call]) later call.object
  rw [append_assoc, singleton_append, hbehind, ← hobject, hnext] at hmono
  omega

theorem prepare_once {calls later : List (PostcommitCall L)} {a a' : Bool}
    {phase0 phase0' : CP2CompositeStateCapture} {o o' : Nat}
    (htoken : phase0'.pointerGraph = phase0.pointerGraph)
    (h : AcceptedAfter unitNorm tokens live calls (.prepare a phase0 o)) :
    ¬ AcceptedAfter unitNorm tokens live (calls ++ .prepare a phase0 o :: later)
      (.prepare a' phase0' o') := by
  intro h'
  have hconsumed : ∃ token, phase0.pointerGraph = some token ∧
      (afterCalls unitNorm tokens live (calls ++ [.prepare a phase0 o])).postcommitPrepared token =
        true := by
    rw [afterCalls_append_singleton]
    have hmove := @postcommitStep_move G L unitNorm tokens live
      (afterCalls unitNorm tokens live calls) (.prepare a phase0 o)
    unfold AcceptedAfter at h
    generalize postcommitStep unitNorm tokens live (afterCalls unitNorm tokens live calls)
      (.prepare a phase0 o) = result at hmove h
    obtain ⟨w', ret⟩ := result
    cases hmove with
    | refused _ _ hstatus => exact absurd h hstatus
    | prepared _ htoken => exact ⟨_, htoken, if_pos rfl⟩
  obtain ⟨token, hphase0, hflag⟩ := hconsumed
  have hlater := @postcommitPrepared_mono G L unitNorm tokens live (calls ++ [.prepare a phase0 o])
    later token hflag
  rw [append_assoc, singleton_append] at hlater
  have hmove := @postcommitStep_move G L unitNorm tokens live
    (afterCalls unitNorm tokens live (calls ++ .prepare a phase0 o :: later)) (.prepare a' phase0' o')
  unfold AcceptedAfter at h'
  generalize postcommitStep unitNorm tokens live (afterCalls unitNorm tokens live
    (calls ++ .prepare a phase0 o :: later)) (.prepare a' phase0' o') = result at hmove h'
  obtain ⟨w', ret⟩ := result
  cases hmove with
  | refused _ _ hstatus => exact absurd h' hstatus
  | prepared _ htoken' hunprepared =>
    rw [htoken, hphase0] at htoken'
    rw [← Option.some.inj htoken', hlater] at hunprepared
    exact absurd hunprepared (by decide)

/-- A fill or a hand-off that passes its entry check and fails ends the object. -/
theorem rank_of_failed
    (henters : call.Enters (afterCalls unitNorm tokens live calls))
    (hfailed : ¬ AcceptedAfter unitNorm tokens live calls call) :
    ((afterCalls unitNorm tokens live (calls ++ [call])).objects call.object).state = .kFailed := by
  rw [afterCalls_append_singleton]
  have hmove := @postcommitStep_move G L unitNorm tokens live
    (afterCalls unitNorm tokens live calls) call
  unfold AcceptedAfter at hfailed
  generalize postcommitStep unitNorm tokens live (afterCalls unitNorm tokens live calls) call =
    result at hmove hfailed
  obtain ⟨w', ret⟩ := result
  cases hmove with
  | refused _ _ _ hentry => exact absurd henters hentry
  | prepared => exact absurd rfl hfailed
  | completed => exact absurd rfl hfailed
  | fillFailed => simp [PostcommitCall.object]
  | handedOff => exact absurd rfl hfailed
  | handoffFailed => simp [PostcommitCall.object]

theorem afterCalls_of_refused
    (henters : ¬ call.Enters (afterCalls unitNorm tokens live calls))
    (hfailed : ¬ AcceptedAfter unitNorm tokens live calls call) :
    afterCalls unitNorm tokens live (calls ++ [call]) = afterCalls unitNorm tokens live calls := by
  rw [afterCalls_append_singleton]
  have hmove := @postcommitStep_move G L unitNorm tokens live
    (afterCalls unitNorm tokens live calls) call
  unfold AcceptedAfter at hfailed
  generalize postcommitStep unitNorm tokens live (afterCalls unitNorm tokens live calls) call =
    result at hmove hfailed
  obtain ⟨w', ret⟩ := result
  cases hmove with
  | refused => rfl
  | prepared => exact absurd rfl hfailed
  | completed => exact absurd rfl hfailed
  | fillFailed hentry => exact absurd hentry henters
  | handedOff => exact absurd rfl hfailed
  | handoffFailed hentry => exact absurd hentry henters

theorem filledBy_of_handoff {occupied : Bool} {o : Nat}
    (h : AcceptedAfter unitNorm tokens live calls (.handoff occupied o)) :
    ∃ filled, (postcommitStep unitNorm tokens live (afterCalls unitNorm tokens live calls)
        (.handoff occupied o : PostcommitCall L)).2.output = some filled ∧
      FilledBy unitNorm tokens live calls o filled := by
  have hmove := @postcommitStep_move G L unitNorm tokens live
    (afterCalls unitNorm tokens live calls) (.handoff occupied o)
  unfold AcceptedAfter at h
  generalize postcommitStep unitNorm tokens live (afterCalls unitNorm tokens live calls)
    (.handoff occupied o : PostcommitCall L) = result at hmove h ⊢
  obtain ⟨w', ret⟩ := result
  cases hmove with
  | refused _ _ hstatus => exact absurd h hstatus
  | handedOff hstate hsnapshot =>
    obtain ⟨filled, hfilled, horigin⟩ := filledBy_of_complete calls o hstate
    rw [hsnapshot] at hfilled
    exact ⟨filled, hfilled, horigin⟩
  | handoffFailed => exact absurd h nofun

/-- **Single use.** For every sequence of calls: a token yields one preparation; an object accepts its
calls in the order of the lifecycle, each kind once; a hand-off gives out what a complete fill of the
same object copied from a live state with the pointers of its token; nothing is accepted behind a
failure that passed an entry check, a refusal changes nothing, and the lifecycle moves one way. -/
theorem postcommit_single_use (unitNorm : List Binary64 → Bool) (tokens : Nat → PointerGraphData G)
    (live : LiveAccess G L) (calls later : List (PostcommitCall L)) :
    (∀ a phase0 o a' phase0' o', phase0'.pointerGraph = phase0.pointerGraph →
      AcceptedAfter unitNorm tokens live calls (.prepare a phase0 o) →
      ¬ AcceptedAfter unitNorm tokens live (calls ++ .prepare a phase0 o :: later)
        (.prepare a' phase0' o')) ∧
    (∀ call call' : PostcommitCall L, call'.object = call.object →
      AcceptedAfter unitNorm tokens live calls call →
      AcceptedAfter unitNorm tokens live (calls ++ call :: later) call' → call.stage < call'.stage) ∧
    (∀ occupied o, AcceptedAfter unitNorm tokens live calls (.handoff occupied o) →
      ∃ filled, (postcommitStep unitNorm tokens live (afterCalls unitNorm tokens live calls)
          (.handoff occupied o : PostcommitCall L)).2.output = some filled ∧
        FilledBy unitNorm tokens live calls o filled) ∧
    (∀ call call' : PostcommitCall L, call.Enters (afterCalls unitNorm tokens live calls) →
      ¬ AcceptedAfter unitNorm tokens live calls call → call'.object = call.object →
      ¬ AcceptedAfter unitNorm tokens live (calls ++ call :: later) call') ∧
    (∀ call : PostcommitCall L, ¬ call.Enters (afterCalls unitNorm tokens live calls) →
      ¬ AcceptedAfter unitNorm tokens live calls call →
      afterCalls unitNorm tokens live (calls ++ [call]) = afterCalls unitNorm tokens live calls) ∧
    ∀ (call : PostcommitCall L) (o : Nat),
      (afterCalls unitNorm tokens live (calls ++ [call])).objects o =
          (afterCalls unitNorm tokens live calls).objects o ∨
        LifecycleEdge ((afterCalls unitNorm tokens live calls).objects o).state
          ((afterCalls unitNorm tokens live (calls ++ [call])).objects o).state := by
  refine ⟨fun a phase0 o a' phase0' o' htoken h => prepare_once htoken h,
    fun call call' hobject h h' => stage_lt_of_accepted h hobject h',
    fun occupied o h => filledBy_of_handoff h, fun call call' henters hfailed hobject h' => ?_,
    fun call henters hfailed => afterCalls_of_refused henters hfailed, fun call o => ?_⟩
  · have hended := rank_of_failed henters hfailed
    have hmono := @rank_mono G L unitNorm tokens live (calls ++ [call]) later call.object
    rw [append_assoc, singleton_append, hended, ← hobject,
      (rank_of_acceptedAfter h').1] at hmono
    cases call' with
    | prepare => exact absurd (show 3 ≤ 0 from hmono) (by decide)
    | fill => exact absurd (show 3 ≤ 1 from hmono) (by decide)
    | handoff => exact absurd (show 3 ≤ 2 from hmono) (by decide)
  · rw [afterCalls_append_singleton]
    exact (postcommitStep_move (afterCalls unitNorm tokens live calls) call).lifecycle o

end Runs

/-! ## A state at rest -/

def quaternionColumn (rows : Nat) (h : rows < indexLimit) : MatrixXd :=
  ⟨rows, 1, [⟨0⟩, ⟨0⟩, ⟨0⟩, ⟨0x3ff0000000000000⟩].take rows ++ List.replicate (rows - 4) ⟨0⟩,
    by simp; omega, h, one_lt_indexLimit⟩

def zeroMatrix (rows cols : Nat) (h : rows < indexLimit) (h' : cols < indexLimit) : MatrixXd :=
  ⟨rows, cols, List.replicate (rows * cols) ⟨0⟩, length_replicate, h, h'⟩

def restSnapshot : CP2CompositeStateSnapshot where
  phase := .kPhase0Prior
  timestamp := ⟨0x3ff0000000000000⟩
  covariance := zeroMatrix 15 15 (by decide) (by decide)
  semanticBlocks := imuBlocks.map fun block => ⟨block.1, block.2, 3, ⟨0⟩, {}⟩
  activeTypes := [⟨.kImu, 0, 15, ⟨0⟩, {}, quaternionColumn 16 (by decide),
    quaternionColumn 16 (by decide)⟩]
  fixedImuCalibrations :=
    [⟨.kDw, quaternionColumn 6 (by decide), quaternionColumn 6 (by decide)⟩,
      ⟨.kDa, quaternionColumn 6 (by decide), quaternionColumn 6 (by decide)⟩,
      ⟨.kTg, quaternionColumn 9 (by decide), quaternionColumn 9 (by decide)⟩,
      ⟨.kGyroToImu, quaternionColumn 4 (by decide), quaternionColumn 4 (by decide)⟩,
      ⟨.kAccelToImu, quaternionColumn 4 (by decide), quaternionColumn 4 (by decide)⟩]
  timeOffsetNominal := zeroMatrix 1 1 one_lt_indexLimit one_lt_indexLimit
  timeOffsetFej := zeroMatrix 1 1 one_lt_indexLimit one_lt_indexLimit
  cameraCalibrations := [⟨0, quaternionColumn 7 (by decide), quaternionColumn 7 (by decide),
    quaternionColumn 8 (by decide), quaternionColumn 8 (by decide)⟩]
  cameraCaches := [⟨0, 640, 480, quaternionColumn 8 (by decide),
    zeroMatrix 3 3 (by decide) (by decide), zeroMatrix 4 1 (by decide) one_lt_indexLimit⟩]

/-- The test of the norm on the quaternions of the state at rest. -/
def restUnitNorm (q : List Binary64) : Bool := q == [⟨0⟩, ⟨0⟩, ⟨0⟩, ⟨0x3ff0000000000000⟩]

def restCapture : CP2CompositeStateCapture := ⟨restSnapshot, some 0⟩

def restTokens : Nat → PointerGraphData Unit := fun _ => ⟨.kPhase0Prior, restSnapshot, ()⟩

def restAccess : LiveAccess Unit Unit := ⟨fun _ _ => true, fun _ _ s => (s, .kAccepted)⟩

/-- A fill of an empty object fails, and a later preparation of this object is accepted. -/
theorem refused_fill_then_prepared :
    ¬ AcceptedAfter restUnitNorm restTokens restAccess [] (.fill (some ()) 0) ∧
      AcceptedAfter restUnitNorm restTokens restAccess [.fill (some ()) 0]
        (.prepare true restCapture 0) := by
  constructor
  · exact nofun
  · unfold AcceptedAfter
    decide +kernel

example : AcceptedAfter restUnitNorm restTokens restAccess [] (.prepare true restCapture 0) ∧
    AcceptedAfter restUnitNorm restTokens restAccess [.prepare true restCapture 0] (.fill (some ()) 0) ∧
    AcceptedAfter restUnitNorm restTokens restAccess [.prepare true restCapture 0, .fill (some ()) 0]
      (.handoff false 0) := by
  unfold AcceptedAfter
  decide +kernel

end Bravo.Trace
