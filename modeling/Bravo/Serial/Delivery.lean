import Bravo.Serial.CameraQueue

/-! # Every pair is delivered once, in order, and covered by IMU data

The log of a run is a delivery (`Delivered`): a pair joins the queue at its end, the head is fed, and it leaves
the queue where its processing returns. The stamps of the pairs that were queued are one period of the tracking
frequency apart, so that the queue is sorted as it is.
-/

namespace Bravo.Visualizer

open List

variable {ε σ Image Context : Type} {α : Type}
variable {C : Callees ε σ Image Context} {p : Params Image} {s : ROS1Visualizer σ Image Context}

/-! ## Deliveries -/

/-- The log of a queue that is served from its head, with the pairs that are pending after it. -/
inductive Delivered : List (Event σ Image Context) → List (QueuedCameraData Image Context) → Prop
  | nil : Delivered [] []
  | imuFed {log queue} (message : ImuData) : Delivered log queue → Delivered (log ++ [.imuFed message]) queue
  | bounded {log queue} (message : ImuData) (app : σ) :
      Delivered log queue → Delivered (log ++ [.bounded message app]) queue
  | queued {log queue} (pair : QueuedCameraData Image Context) :
      Delivered log queue → Delivered (log ++ [.queued pair]) (queue ++ [pair])
  | processed {log pair rest} : Delivered log (pair :: rest) → Delivered (log ++ [.fed pair, .processed pair]) rest
  | threw {log pair rest} :
      Delivered log (pair :: rest) → Delivered (log ++ [.fed pair, .threw pair]) (pair :: rest)

def queuedOf (log : List (Event σ Image Context)) : List (QueuedCameraData Image Context) :=
  log.filterMap fun event =>
    match event with
    | .queued pair => some pair
    | _ => none

def processedOf (log : List (Event σ Image Context)) : List (QueuedCameraData Image Context) :=
  log.filterMap fun event =>
    match event with
    | .processed pair => some pair
    | _ => none

variable {log more : List (Event σ Image Context)} {queue : List (QueuedCameraData Image Context)}

theorem queuedOf_append : queuedOf (log ++ more) = queuedOf log ++ queuedOf more := filterMap_append

theorem processedOf_append : processedOf (log ++ more) = processedOf log ++ processedOf more :=
  filterMap_append

theorem Delivered.queued_eq (h : Delivered log queue) : queuedOf log = processedOf log ++ queue := by
  induction h with
  | nil => rfl
  | imuFed message _ ih | bounded message app _ ih =>
    rw [queuedOf_append, processedOf_append, ih]
    simp [queuedOf, processedOf]
  | queued pair _ ih =>
    rw [queuedOf_append, processedOf_append, ih]
    simp [queuedOf, processedOf]
  | processed _ ih | threw _ ih =>
    rw [queuedOf_append, processedOf_append, ih]
    simp [queuedOf, processedOf]

/-- Where a pair is fed: it is the first that was queued and not processed, and its processing returns or throws
before anything else happens. -/
def FedAt (log : List (Event σ Image Context)) (i : Nat) (pair : QueuedCameraData Image Context) : Prop :=
  (queuedOf (log.take i))[(processedOf (log.take i)).length]? = some pair ∧
    (log[i + 1]? = some (.processed pair) ∨ log[i + 1]? = some (.threw pair))

variable {pair : QueuedCameraData Image Context}

theorem FedAt.append {i : Nat} (h : FedAt log i pair) : FedAt (log ++ more) i pair := by
  obtain ⟨hfirst, hnext⟩ := h
  have hlt : i + 1 < log.length := by
    rcases hnext with hnext | hnext <;> exact (List.getElem?_eq_some_iff.mp hnext).1
  rw [FedAt, take_append_of_le_length (by omega), getElem?_append_left hlt]
  exact ⟨hfirst, hnext⟩

theorem Delivered.fedAt (h : Delivered log queue) :
    ∀ (i : Nat) (pair : QueuedCameraData Image Context), log[i]? = some (.fed pair) → FedAt log i pair := by
  -- one event that feeds nothing
  have hsingle : ∀ {log : List (Event σ Image Context)} {event : Event σ Image Context},
      (∀ pair, event ≠ .fed pair) → (∀ i pair, log[i]? = some (.fed pair) → FedAt log i pair) →
      ∀ i pair, (log ++ [event])[i]? = some (.fed pair) → FedAt (log ++ [event]) i pair := by
    intro log event hevent ih i pair hi
    rcases Nat.lt_or_ge i log.length with hlt | hge
    · rw [getElem?_append_left hlt] at hi
      exact (ih i pair hi).append
    · rw [getElem?_append_right hge] at hi
      rcases Nat.eq_or_lt_of_le hge with rfl | hgt
      · rw [Nat.sub_self] at hi
        exact absurd (Option.some.inj hi) (hevent pair)
      · rw [getElem?_eq_none (by simp; omega)] at hi
        cases hi
  -- the head is fed, and `last` says how that ends
  have hpair : ∀ {log : List (Event σ Image Context)} {head : QueuedCameraData Image Context}
      {rest : List (QueuedCameraData Image Context)} {last : Event σ Image Context},
      (last = .processed head ∨ last = .threw head) → Delivered log (head :: rest) →
      (∀ i pair, log[i]? = some (.fed pair) → FedAt log i pair) →
      ∀ i pair, (log ++ [.fed head, last])[i]? = some (.fed pair) → FedAt (log ++ [.fed head, last]) i pair := by
    intro log head rest last hlast hdelivered ih i pair hi
    rcases Nat.lt_or_ge i log.length with hlt | hge
    · rw [getElem?_append_left hlt] at hi
      exact (ih i pair hi).append
    · rw [getElem?_append_right hge] at hi
      rcases Nat.eq_or_lt_of_le hge with rfl | hgt
      · rw [Nat.sub_self] at hi
        cases Option.some.inj hi
        refine ⟨?_, ?_⟩
        · rw [take_append_of_le_length le_rfl, take_length, hdelivered.queued_eq,
            getElem?_append_right le_rfl, Nat.sub_self]
          rfl
        · rw [getElem?_append_right (by omega), show log.length + 1 - log.length = 1 by omega]
          rcases hlast with rfl | rfl
          · exact .inl rfl
          · exact .inr rfl
      · rcases Nat.eq_or_lt_of_le (Nat.succ_le_of_lt hgt) with heq | hbeyond
        · rw [show i - log.length = 1 by omega] at hi
          have hfed : last = .fed pair := Option.some.inj hi
          rcases hlast with rfl | rfl <;> cases hfed
        · rw [getElem?_eq_none (by simp; omega)] at hi
          cases hi
  induction h with
  | nil =>
    intro i pair hi
    simp at hi
  | imuFed message _ ih => exact hsingle (fun _ h => by cases h) ih
  | bounded message app _ ih => exact hsingle (fun _ h => by cases h) ih
  | queued pair _ ih => exact hsingle (fun _ h => by cases h) ih
  | processed hdelivered ih => exact hpair (.inl rfl) hdelivered ih
  | threw hdelivered ih => exact hpair (.inr rfl) hdelivered ih

/-- The stamps of successive pairs are at least `delta` apart. -/
def Spaced (delta : ℚ) (pairs : List (QueuedCameraData Image Context)) : Prop :=
  pairs.Pairwise fun a b => a.message.timestamp + delta ≤ b.message.timestamp

theorem Delivered.threw_of_fed_again {delta : ℚ} (h : Delivered log queue) (hdelta : 0 < delta)
    (hspaced : Spaced delta (queuedOf log)) {i j : Nat} (hij : i < j)
    (hi : log[i]? = some (.fed pair)) (hj : log[j]? = some (.fed pair)) : log[i + 1]? = some (.threw pair) := by
  obtain ⟨hfirst, hnext⟩ := h.fedAt i pair hi
  refine hnext.resolve_left fun hprocessed => ?_
  obtain ⟨hagain, -⟩ := h.fedAt j pair hj
  have hprefix_queued : ∀ {n : Nat} {k : Nat}, (queuedOf (log.take n))[k]? = some pair → (queuedOf log)[k]? = some pair := by
    intro n k hk
    rw [← take_append_drop n log, queuedOf_append,
      getElem?_append_left (List.getElem?_eq_some_iff.mp hk).1]
    exact hk
  -- what was processed before `j` has the pair of `i` in it
  have hlonger : (processedOf (log.take i)).length < (processedOf (log.take j)).length := by
    have hne : i + 1 ≠ j := by
      rintro rfl
      rw [hprocessed] at hj
      cases hj
    have hlength : i + 1 < log.length := (List.getElem?_eq_some_iff.mp hprocessed).1
    have htake : log.take (i + 2) = log.take i ++ [.fed pair, .processed pair] := by
      rw [take_add_one, take_add_one, hi, hprocessed, append_assoc]
      rfl
    have hsplit : log.take j = log.take (i + 2) ++ (log.take j).drop (i + 2) := by
      have hcut := take_append_drop (i + 2) (log.take j)
      rw [take_take, Nat.min_eq_left (by omega)] at hcut
      exact hcut.symm
    rw [hsplit, processedOf_append, htake, processedOf_append]
    simp [processedOf]
  obtain ⟨hk, hpair⟩ := List.getElem?_eq_some_iff.mp (hprefix_queued hfirst)
  obtain ⟨hk', hpair'⟩ := List.getElem?_eq_some_iff.mp (hprefix_queued hagain)
  have hapart := pairwise_iff_getElem.mp hspaced _ _ hk hk' hlonger
  rw [hpair, hpair'] at hapart
  linarith

/-! ## Callees -/

/-- What the callees do not touch. -/
def view (s : ROS1Visualizer σ Image Context) :
    List (QueuedCameraData Image Context) × (Int → Option ℚ) × Bool × List (Event σ Image Context) :=
  (s.cameraQueue, s.cameraLastTimestamp, s.threadUpdateRunning, s.log)

theorem wp_app {x : EStateM ε σ α} {Q : α → ROS1Visualizer σ Image Context → Prop}
    {E : ε → ROS1Visualizer σ Image Context → Prop} :
    wp (app x) Q E s ↔ wp x (fun a t => Q a { s with app := t }) (fun e t => E e { s with app := t }) s.app := by
  unfold wp app EStateM.run
  dsimp only
  cases x s.app <;> rfl

theorem keeps_app (x : EStateM ε σ α) : Keeps view (app x : Callback ε σ Image Context α) := fun s =>
  wp_app.mpr (wp_mono (wp_finalState x s.app) (fun _ _ _ => rfl) fun _ _ _ => rfl)

theorem keeps_liftExcept (x : Except ε α) : Keeps view (liftExcept x : Callback ε σ Image Context α) := by
  intro s
  rw [wp_liftExcept]
  exact ⟨fun _ _ => rfl, fun _ _ => rfl⟩

theorem keeps_observeFailure (event : ProcessingEvent Context) :
    Keeps view (observeFailure C event : Callback ε σ Image Context Unit) := by
  rw [observeFailure]
  split
  · exact .of_pure _
  · exact .bind (.of_attempt (keeps_app _)) fun _ => .of_pure _

theorem keeps_observe (event : ProcessingEvent Context) :
    Keeps view (observe C event : Callback ε σ Image Context Unit) := by
  rw [observe]
  split
  · exact .of_throw _
  · exact .bind (keeps_app _) fun _ => .of_onlyIf (.of_throw _)

/-- The first thing that the program does to the log is that it feeds the pair, and it is the only one. -/
def Feeds (pair : QueuedCameraData Image Context) (x : Callback ε σ Image Context α) : Prop :=
  ∀ s : ROS1Visualizer σ Image Context, wp x (fun _ t => view t = view { s with log := s.log ++ [.fed pair] })
    (fun _ t => view t = view { s with log := s.log ++ [.fed pair] }) s

theorem Feeds.bind {β : Type} {x : Callback ε σ Image Context β} {g : β → Callback ε σ Image Context α}
    (hx : Feeds pair x) (hg : ∀ b, Keeps view (g b)) : Feeds pair (x >>= g) := by
  intro s
  rw [wp_bind]
  refine wp_mono (hx s) (fun b t ht => ?_) (fun _ _ ht => ht)
  exact (hg b).wp (fun _ _ hu => hu.trans ht) (fun _ _ hu => hu.trans ht)

theorem feeds_app (x : EStateM ε σ α) : Feeds pair (do note (.fed pair); app x : Callback ε σ Image Context α) := by
  intro s
  rw [note, wp_bind, wp_modify]
  exact keeps_app x _

theorem feeds_process (pair : QueuedCameraData Image Context) : Feeds pair (process C pair) := by
  obtain ⟨message, _ | context⟩ := pair
  · exact .bind (feeds_app _) fun _ => keeps_app _
  · refine Feeds.bind (fun s => wp_attempt.mpr (feeds_app _ s)) fun fed => .of_get fun s => ?_
    refine .bind (.of_attempt ?_) fun done => ?_
    · refine .bind (keeps_liftExcept fed) fun accepted => ?_
      refine .bind (.of_onlyIf (.of_throw _)) fun _ => .of_get fun s => ?_
      exact .bind (keeps_app _) fun _ => .of_get fun s => .of_pure _
    · split
      · exact keeps_observe _
      · exact .bind (keeps_observeFailure _) fun _ => .of_throw _

/-! ## The loop -/

def deliveredEvents (pair : QueuedCameraData Image Context) : List (Event σ Image Context) :=
  [.fed pair, .processed pair]

theorem wp_processHead {rest : List (QueuedCameraData Image Context)}
    (hqueue : s.cameraQueue = pair :: rest) :
    wp (processHead C pair)
      (fun _ t => view t = (rest, s.cameraLastTimestamp, s.threadUpdateRunning, s.log ++ deliveredEvents pair))
      (fun _ t => view t = (pair :: rest, s.cameraLastTimestamp, s.threadUpdateRunning,
        s.log ++ [.fed pair, .threw pair])) s := by
  rw [processHead, wp_bind, wp_attempt]
  refine wp_mono (feeds_process pair s) (fun _ t ht => ?_) (fun e t ht => ?_)
  · simp only [view, Prod.mk.injEq] at ht
    obtain ⟨htqueue, hlast, hrunning, hlog⟩ := ht
    rw [wp_bind, wp_modify, note, wp_modify]
    simp only [view, htqueue, hlast, hrunning, hlog, hqueue, List.tail_cons, append_assoc]
    rfl
  · simp only [view, Prod.mk.injEq] at ht
    obtain ⟨htqueue, hlast, hrunning, hlog⟩ := ht
    rw [wp_bind, note, wp_modify, wp_throw]
    simp only [view, htqueue, hlast, hrunning, hlog, hqueue, append_assoc]
    rfl

theorem wp_drain (bound : ℚ) (queue : List (QueuedCameraData Image Context)) :
    ∀ {s : ROS1Visualizer σ Image Context}, s.cameraQueue = queue →
      wp (drain C bound queue)
        (fun _ t => ∃ done rest, queue = done ++ rest ∧
          view t = (rest, s.cameraLastTimestamp, s.threadUpdateRunning, s.log ++ done.flatMap deliveredEvents) ∧
          (∀ pair ∈ done, pair.message.timestamp < bound) ∧
          ∀ pair, rest.head? = some pair → bound ≤ pair.message.timestamp)
        (fun _ t => ∃ done pair rest, queue = done ++ pair :: rest ∧
          view t = (pair :: rest, s.cameraLastTimestamp, s.threadUpdateRunning,
            s.log ++ done.flatMap deliveredEvents ++ [.fed pair, .threw pair]) ∧
          ∀ other ∈ done ++ [pair], other.message.timestamp < bound) s := by
  induction queue with
  | nil =>
    intro s hs
    refine ⟨[], [], rfl, ?_, fun _ h => (by cases h), fun _ h => (by cases h)⟩
    simp [view, hs]
  | cons pair rest ih =>
    intro s hs
    rw [drain, wp_ite]
    refine ⟨fun hlt => ?_, fun hge => ?_⟩
    · rw [wp_bind]
      refine wp_mono (wp_processHead hs) (fun _ t ht => ?_) (fun _ t ht => ?_)
      · simp only [view, Prod.mk.injEq] at ht
        obtain ⟨hqueue, hlast, hrunning, hlog⟩ := ht
        refine wp_mono (ih hqueue) (fun _ t' h => ?_) (fun _ t' h => ?_)
        · obtain ⟨done, rest', hsplit, hview, hdone, hrest⟩ := h
          refine ⟨pair :: done, rest', by rw [hsplit]; rfl, ?_, ?_, hrest⟩
          · rw [hview, hlast, hrunning, hlog, flatMap_cons, append_assoc]
          · intro other hother
            rcases mem_cons.mp hother with rfl | hother
            · exact hlt
            · exact hdone other hother
        · obtain ⟨done, failed, rest', hsplit, hview, hdone⟩ := h
          refine ⟨pair :: done, failed, rest', by rw [hsplit]; rfl, ?_, ?_⟩
          · rw [hview, hlast, hrunning, hlog, flatMap_cons, append_assoc s.log]
          · intro other hother
            rcases mem_cons.mp hother with rfl | hother
            · exact hlt
            · exact hdone other hother
      · refine ⟨[], pair, rest, rfl, ?_, ?_⟩
        · rw [ht, flatMap_nil, append_nil]
        · intro other hother
          rw [nil_append, mem_singleton] at hother
          rw [hother]
          exact hlt
    · refine ⟨[], pair :: rest, rfl, ?_, fun _ h => (by cases h), fun other hother => ?_⟩
      · simp [view, hs]
      · cases hother
        exact not_lt.mp hge

theorem Delivered.flatMap {done rest : List (QueuedCameraData Image Context)} (h : Delivered log (done ++ rest)) :
    Delivered (log ++ done.flatMap deliveredEvents) rest := by
  induction done generalizing log with
  | nil => simpa using h
  | cons pair done ih =>
    rw [flatMap_cons, ← append_assoc]
    exact ih h.processed

/-! ## The callbacks -/

/-- Between two callbacks: no update is running, the log is a delivery, and the stamps that were queued are spaced
and not after the last one of the camera. -/
structure Waiting (p : Params Image) (s : ROS1Visualizer σ Image Context) : Prop where
  idle : s.threadUpdateRunning = false
  delivered : Delivered s.log s.cameraQueue
  spaced : Spaced (timeDelta p) (queuedOf s.log)
  latest : ∀ pair ∈ queuedOf s.log, ∃ last, s.cameraLastTimestamp 0 = some last ∧ pair.message.timestamp ≤ last
  cameras : ∀ pair ∈ queuedOf s.log, pair.message.sensorIds = [0, 1]

theorem Waiting.mem_queued (h : Waiting p s) (hpair : pair ∈ s.cameraQueue) :
    pair ∈ queuedOf s.log := by
  rw [h.delivered.queued_eq]
  exact mem_append_right _ hpair

/-- The bound of a message, with the time offset of the estimator `app`. -/
def bound (C : Callees ε σ Image Context) (message : ImuData) (app : σ) : ℚ :=
  message.timestamp - C.calibDtCamToImu app

/-- What a call of `callback_inertial` adds to the log: first its message is fed, then the bound is evaluated, and
every pair that is fed comes before it. Where the call returns, no pair before the bound is left. -/
def Served (C : Callees ε σ Image Context) (message : ImuData) (returned : Bool)
    (s t : ROS1Visualizer σ Image Context) : Prop :=
  ∃ added, t.log = s.log ++ added ∧
    ((added = [] ∨ added = [.imuFed message]) ∧ (returned = true → t.cameraQueue = []) ∨
      ∃ app after, added = [.imuFed message, .bounded message app] ++ after ∧
        (∀ pair, .fed pair ∈ after → pair.message.timestamp < bound C message app) ∧
        (returned = true → ∀ pair ∈ t.cameraQueue, bound C message app ≤ pair.message.timestamp))

theorem uniqueCamIds_length {queue : List (QueuedCameraData Image Context)} (hne : queue ≠ [])
    (hids : ∀ pair ∈ queue, pair.message.sensorIds = [0, 1]) :
    (queue.map fun pair => pair.message.sensorIds.head?).dedup.length = 1 := by
  have hmap : queue.map (fun pair => pair.message.sensorIds.head?) = List.replicate queue.length (some 0) := by
    rw [eq_replicate_iff]
    refine ⟨length_map _, fun id hid => ?_⟩
    obtain ⟨pair, hpair, rfl⟩ := mem_map.mp hid
    rw [hids pair hpair]
    rfl
  rw [hmap, replicate_dedup (by simpa using hne)]
  rfl

theorem mem_deliveredEvents {done : List (QueuedCameraData Image Context)}
    (h : (.fed pair : Event σ Image Context) ∈ done.flatMap deliveredEvents) : pair ∈ done := by
  obtain ⟨other, hother, hmem⟩ := mem_flatMap.mp h
  simp only [deliveredEvents, mem_cons, not_mem_nil, or_false] at hmem
  rcases hmem with hmem | hmem
  · cases hmem
    exact hother
  · cases hmem

theorem queuedOf_deliveredEvents (done : List (QueuedCameraData Image Context)) :
    queuedOf (done.flatMap deliveredEvents : List (Event σ Image Context)) = [] := by
  refine filterMap_eq_nil_iff.mpr fun event hevent => ?_
  obtain ⟨pair, -, hmem⟩ := mem_flatMap.mp hevent
  simp only [deliveredEvents, mem_cons, not_mem_nil, or_false] at hmem
  rcases hmem with rfl | rfl <;> rfl

structure Updated (s t : ROS1Visualizer σ Image Context) : Prop where
  last : t.cameraLastTimestamp = s.cameraLastTimestamp
  delivered : Delivered t.log t.cameraQueue
  queued : queuedOf t.log = queuedOf s.log

theorem wp_updateThread (message : ImuData) (hcameras : p.numCameras = 2)
    (hids : ∀ pair ∈ s.cameraQueue, pair.message.sensorIds = [0, 1])
    (hspaced : s.cameraQueue.Pairwise fun a b => a.message.timestamp ≤ b.message.timestamp)
    (hdelivered : Delivered s.log s.cameraQueue) :
    wp (updateThread C p message)
      (fun _ t => Updated s t ∧
        (t.log = s.log ∧ t.cameraQueue = [] ∨ ∃ after, t.log = s.log ++ .bounded message s.app :: after ∧
          (∀ pair, .fed pair ∈ after → pair.message.timestamp < bound C message s.app) ∧
          (∀ pair ∈ t.cameraQueue, bound C message s.app ≤ pair.message.timestamp)))
      (fun _ t => Updated s t ∧ ∃ after, t.log = s.log ++ .bounded message s.app :: after ∧
          ∀ pair, .fed pair ∈ after → pair.message.timestamp < bound C message s.app) s := by
  rw [updateThread, wp_bind, wp_get, wp_ite]
  refine ⟨fun hcount => ?_, fun hcount => ?_⟩
  · rw [wp_bind, note, wp_modify]
    refine wp_mono (wp_drain (s := { s with log := s.log ++ [.bounded message s.app] }) _ s.cameraQueue rfl)
      (fun _ t h => ?_) (fun _ t h => ?_)
    · -- the queue is served up to the bound
      obtain ⟨done, rest, hsplit, hview, hdone, hrest⟩ := h
      simp only [view, Prod.mk.injEq] at hview
      obtain ⟨hqueue, hlast, hrunning, hlog⟩ := hview
      have hsorted : rest.Pairwise fun a b => a.message.timestamp ≤ b.message.timestamp :=
        (pairwise_append.mp (hsplit ▸ hspaced)).2.1
      refine ⟨⟨hlast, ?_, ?_⟩, .inr ⟨done.flatMap deliveredEvents, ?_, ?_, ?_⟩⟩
      · rw [hlog, hqueue]
        exact ((hsplit ▸ hdelivered).bounded message s.app).flatMap
      · rw [hlog, queuedOf_append, queuedOf_append, queuedOf_deliveredEvents]
        simp [queuedOf]
      · rw [hlog, append_assoc]
        rfl
      · exact fun pair hpair => hdone pair (mem_deliveredEvents hpair)
      · rw [hqueue]
        intro pair hpair
        cases rest with
        | nil => cases hpair
        | cons head rest =>
          have hhead := hrest head rfl
          rcases mem_cons.mp hpair with rfl | hpair
          · exact hhead
          · exact hhead.trans ((pairwise_cons.mp hsorted).1 pair hpair)
    · -- the processing of `pair` threw
      obtain ⟨done, pair, rest, hsplit, hview, hdone⟩ := h
      simp only [view, Prod.mk.injEq] at hview
      obtain ⟨hqueue, hlast, hrunning, hlog⟩ := hview
      refine ⟨⟨hlast, ?_, ?_⟩, done.flatMap deliveredEvents ++ [.fed pair, .threw pair], ?_, ?_⟩
      · rw [hlog, hqueue]
        exact ((hsplit ▸ hdelivered).bounded message s.app).flatMap.threw
      · rw [hlog, queuedOf_append, queuedOf_append, queuedOf_append, queuedOf_deliveredEvents]
        simp [queuedOf]
      · rw [hlog]
        simp
      · intro other hother
        refine hdone other (mem_append.mpr ?_)
        rcases mem_append.mp hother with hother | hother
        · exact .inl (mem_deliveredEvents hother)
        · right
          simp only [mem_cons, not_mem_nil, or_false] at hother ⊢
          rcases hother with hother | hother
          · cases hother
            rfl
          · cases hother
  · have hempty : s.cameraQueue = [] := by
      by_contra hne
      exact hcount ((uniqueCamIds_length hne hids).trans (by rw [numUniqueCameras, if_pos hcameras]))
    exact ⟨⟨rfl, hdelivered, rfl⟩, .inl ⟨rfl, hempty⟩⟩

theorem Spaced.le {delta : ℚ} (hdelta : 0 < delta) {pairs : List (QueuedCameraData Image Context)}
    (h : Spaced delta pairs) : pairs.Pairwise fun a b => a.message.timestamp ≤ b.message.timestamp :=
  h.imp fun hab => by linarith

theorem Waiting.of_same {t : ROS1Visualizer σ Image Context} (h : Waiting p s)
    (hqueued : queuedOf t.log = queuedOf s.log) (hidle : t.threadUpdateRunning = false)
    (hlast : t.cameraLastTimestamp = s.cameraLastTimestamp) (hdelivered : Delivered t.log t.cameraQueue) :
    Waiting p t where
  idle := hidle
  delivered := hdelivered
  spaced := hqueued ▸ h.spaced
  latest := hqueued ▸ hlast ▸ h.latest
  cameras := hqueued ▸ h.cameras

theorem wp_callbackInertial {message : ImuData} (hfrequency : 0 < timeDelta p) (hcameras : p.numCameras = 2)
    (h : Waiting p s) :
    wp (callbackInertial C p message) (fun _ t => Waiting p t ∧ Served C message true s t)
      (fun _ t => Waiting p t ∧ Served C message false s t) s := by
  rw [callbackInertial]
  refine (keeps_app _).wp_then (fun _ s₁ h₁ => ?_) (fun _ s₁ h₁ => ?_)
  case refine_2 =>
    simp only [view, Prod.mk.injEq] at h₁
    obtain ⟨hqueue, hlast, hrunning, hlog⟩ := h₁
    refine ⟨h.of_same (by rw [hlog]) (hrunning.trans h.idle) hlast (by rw [hlog, hqueue]; exact h.delivered), ?_⟩
    exact ⟨[], by rw [hlog, append_nil], .inl ⟨.inl rfl, fun hfalse => (by cases hfalse)⟩⟩
  simp only [view, Prod.mk.injEq] at h₁
  obtain ⟨hqueue₁, hlast₁, hrunning₁, hlog₁⟩ := h₁
  rw [note, wp_bind, wp_modify]
  have hqueued : queuedOf (s.log ++ [Event.imuFed message]) = queuedOf s.log := by
    rw [queuedOf_append]
    simp [queuedOf]
  refine (keeps_app _).wp_then (fun _ s₂ h₂ => ?_) (fun _ s₂ h₂ => ?_)
  case refine_2 =>
    simp only [view, Prod.mk.injEq, hqueue₁, hlast₁, hrunning₁, hlog₁] at h₂
    obtain ⟨hqueue, hlast, hrunning, hlog⟩ := h₂
    refine ⟨h.of_same (by rw [hlog, hqueued]) (hrunning.trans h.idle) hlast
      (by rw [hlog, hqueue]; exact h.delivered.imuFed message), ?_⟩
    exact ⟨[.imuFed message], hlog, .inl ⟨.inr rfl, fun hfalse => (by cases hfalse)⟩⟩
  simp only [view, Prod.mk.injEq, hqueue₁, hlast₁, hrunning₁, hlog₁] at h₂
  obtain ⟨hqueue, hlast, hrunning, hlog⟩ := h₂
  rw [wp_bind, wp_get, wp_ite]
  refine ⟨fun hbusy => ?_, fun _ => ?_⟩
  · rw [hrunning, h.idle] at hbusy
    cases hbusy
  rw [wp_bind, wp_modify, wp_bind, wp_attempt]
  -- the thread starts with the queue of the call and the log that has the message
  have hthread := wp_updateThread (C := C) (s := { s₂ with threadUpdateRunning := true }) message hcameras
    (by rw [hqueue]; exact fun pair hpair => h.cameras pair (h.mem_queued hpair))
    (by
      rw [hqueue]
      have hall := h.spaced.le hfrequency
      rw [h.delivered.queued_eq] at hall
      exact (pairwise_append.mp hall).2.1)
    (by rw [hlog, hqueue]; exact h.delivered.imuFed message)
  have hwaiting : ∀ {t : ROS1Visualizer σ Image Context}, Updated { s₂ with threadUpdateRunning := true } t →
      Waiting p { t with threadUpdateRunning := false } := by
    intro t ht
    refine h.of_same (ht.queued.trans ?_) rfl (ht.last.trans hlast) ht.delivered
    show queuedOf s₂.log = queuedOf s.log
    rw [hlog, hqueued]
  have hadded : ∀ {t : ROS1Visualizer σ Image Context} {after : List (Event σ Image Context)},
      t.log = s₂.log ++ .bounded message s₂.app :: after →
        t.log = s.log ++ ([.imuFed message, .bounded message s₂.app] ++ after) := by
    intro t after ht
    rw [ht, hlog, append_assoc]
    rfl
  refine wp_mono hthread (fun _ t ht => ?_) (fun e t ht => ?_)
  · rw [wp_bind, wp_modify]
    refine ⟨hwaiting ht.1, ?_⟩
    rcases ht.2 with ⟨htlog, hempty⟩ | ⟨after, htlog, hbefore, hleft⟩
    · exact ⟨[.imuFed message], htlog.trans hlog, .inl ⟨.inr rfl, fun _ => hempty⟩⟩
    · exact ⟨_, hadded htlog, .inr ⟨s₂.app, after, rfl, hbefore, fun _ => hleft⟩⟩
  · rw [wp_bind, wp_modify]
    obtain ⟨after, htlog, hbefore⟩ := ht.2
    exact ⟨hwaiting ht.1, _, hadded htlog, .inr ⟨s₂.app, after, rfl, hbefore, fun hfalse => (by cases hfalse)⟩⟩

theorem sortQueue_eq {delta : ℚ} (hdelta : 0 < delta) {queue : List (QueuedCameraData Image Context)}
    (h : Spaced delta queue) : sortQueue queue = queue := by
  refine mergeSort_of_pairwise (h.imp fun {a b} hab => ?_)
  have hlt : a.message.timestamp < b.message.timestamp := by linarith
  rw [CameraData.lt, if_neg hlt.ne', decide_eq_false (not_lt.mpr hlt.le)]
  rfl

/-- The pair that a stereo callback accepts, made of its two messages. -/
def acceptedPair (p : Params Image) (s : ROS1Visualizer σ Image Context) (msg0 msg1 : ImageMsg Image)
    (context : Option Context) : Option (QueuedCameraData Image Context) :=
  if dropped p s 0 msg0.stamp then none
  else msg0.decoded.bind fun image0 =>
    msg1.decoded.map fun image1 => p.queuedPair msg0.stamp 0 1 image0 image1 context

/-- A stereo callback: the pair joins the queue at its end, if it is accepted. -/
def Queued (pair : Option (QueuedCameraData Image Context)) (s t : ROS1Visualizer σ Image Context) : Prop :=
  t.cameraQueue = s.cameraQueue ++ pair.toList ∧ t.log = s.log ++ pair.toList.map .queued

theorem queued_none {cameraLastTimestamp : Int → Option ℚ} :
    Queued none s { s with cameraLastTimestamp := cameraLastTimestamp } :=
  ⟨(append_nil _).symm, (append_nil _).symm⟩

theorem wp_callbackStereoImpl {msg0 msg1 : ImageMsg Image} {context : Option Context}
    (hfrequency : 0 < timeDelta p) (h : Waiting p s) :
    wp (callbackStereoImpl p msg0 msg1 0 1 context : Callback ε σ Image Context EnqueueStatus)
      (fun _ t => Waiting p t ∧ Queued (acceptedPair p s msg0 msg1 context) s t) (fun _ _ => False) s := by
  unfold acceptedPair
  rw [callbackStereoImpl, wp_bind, wp_get, wp_ite]
  refine ⟨fun hdropped => ?_, fun hkept => ?_⟩
  · rw [if_pos hdropped]
    exact ⟨h, queued_none⟩
  rw [if_neg hkept]
  -- every pair that was queued is one period older
  have hlater : ∀ pair ∈ queuedOf s.log, pair.message.timestamp + timeDelta p ≤ msg0.stamp := by
    intro pair hpair
    obtain ⟨last, hlast, hle⟩ := h.latest pair hpair
    simp only [dropped, hlast, decide_eq_true_eq, not_lt] at hkept
    linarith
  have hlatest : ∀ pair ∈ queuedOf s.log, ∃ last,
      Function.update s.cameraLastTimestamp 0 (some msg0.stamp) 0 = some last ∧ pair.message.timestamp ≤ last := by
    intro pair hpair
    refine ⟨msg0.stamp, Function.update_self .., ?_⟩
    have hone := hlater pair hpair
    linarith
  rw [wp_bind, wp_modify]
  have hdecode : Waiting p { s with
      cameraLastTimestamp := Function.update s.cameraLastTimestamp 0 (some msg0.stamp) } :=
    ⟨h.idle, h.delivered, h.spaced, hlatest, h.cameras⟩
  match msg0.decoded, msg1.decoded with
  | none, _ => exact ⟨hdecode, queued_none⟩
  | some _, none => exact ⟨hdecode, queued_none⟩
  | some image0, some image1 =>
    rw [wp_bind, wp_modify, note, wp_bind, wp_modify, wp_pure]
    set pair := p.queuedPair msg0.stamp 0 1 image0 image1 context with hpair
    have hspaced : Spaced (timeDelta p) (queuedOf s.log ++ [pair]) := by
      refine pairwise_append.mpr ⟨h.spaced, pairwise_singleton _ _, fun a ha b hb => ?_⟩
      rw [mem_singleton.mp hb]
      exact hlater a ha
    have hqueued : queuedOf (s.log ++ [.queued pair]) = queuedOf s.log ++ [pair] := by
      rw [queuedOf_append]
      rfl
    have hsorted : sortQueue (s.cameraQueue ++ [pair]) = s.cameraQueue ++ [pair] := by
      refine sortQueue_eq hfrequency ?_
      have hall := hspaced
      rw [h.delivered.queued_eq, append_assoc] at hall
      exact (pairwise_append.mp hall).2.1
    refine ⟨⟨h.idle, ?_, ?_, ?_, ?_⟩, hsorted, rfl⟩
    · show Delivered (s.log ++ [.queued pair]) (sortQueue (s.cameraQueue ++ [pair]))
      rw [hsorted]
      exact h.delivered.queued pair
    · show Spaced (timeDelta p) (queuedOf (s.log ++ [.queued pair]))
      rw [hqueued]
      exact hspaced
    · show ∀ other ∈ queuedOf (s.log ++ [.queued pair]), _
      rw [hqueued]
      intro other hother
      rcases mem_append.mp hother with hother | hother
      · exact hlatest other hother
      · rw [mem_singleton.mp hother]
        show ∃ last, Function.update s.cameraLastTimestamp 0 (some msg0.stamp) 0 = some last ∧ msg0.stamp ≤ last
        exact ⟨msg0.stamp, Function.update_self .., le_rfl⟩
    · show ∀ other ∈ queuedOf (s.log ++ [.queued pair]), _
      rw [hqueued]
      intro other hother
      rcases mem_append.mp hother with hother | hother
      · exact h.cameras other hother
      · rw [mem_singleton.mp hother]
        rfl

/-! ## Runs -/

/-- What a callback does: a stereo callback queues the pair of its messages or drops it, and an IMU message
serves the queue. -/
def Performed (C : Callees ε σ Image Context) (p : Params Image) (i : Input Image Context × Bool)
    (s t : ROS1Visualizer σ Image Context) : Prop :=
  match i.1 with
  | .stereo msg0 msg1 context => i.2 = true ∧ Queued (acceptedPair p s msg0 msg1 context) s t
  | .inertial message => Served C message i.2 s t

theorem waiting_start (app : σ) : Waiting p ({ app := app } : ROS1Visualizer σ Image Context) where
  idle := rfl
  delivered := Delivered.nil
  spaced := List.Pairwise.nil
  latest := fun _ hpair => (by cases hpair)
  cameras := fun _ hpair => (by cases hpair)

theorem Step.waiting {i : Input Image Context × Bool} {t : ROS1Visualizer σ Image Context}
    (hfrequency : 0 < timeDelta p) (hcameras : p.numCameras = 2) (h : Waiting p s) (hstep : Step C p s i t) :
    Waiting p t ∧ Performed C p i s t := by
  obtain ⟨input, returned⟩ := i
  -- the goal is about one callback, whatever its final state is
  suffices hrun : wp (perform C p input) (fun _ _ => Waiting p t ∧ Performed C p (input, returned) s t)
      (fun _ _ => Waiting p t ∧ Performed C p (input, returned) s t) s from
    (wp_iff_finalState (P := fun _ => _)).mp hrun
  cases input with
  | stereo msg0 msg1 context =>
    have hcallback : wp (perform C p (.stereo msg0 msg1 context))
        (fun _ t => Waiting p t ∧ Queued (acceptedPair p s msg0 msg1 context) s t) (fun _ _ => False) s := by
      rw [perform, wp_bind]
      exact wp_mono (wp_callbackStereoImpl hfrequency h) (fun _ _ ht => ht) (fun _ _ ht => ht)
    refine wp_mono (wp_and hcallback hstep) (fun _ u hu => ?_) (fun _ _ hu => hu.1.elim)
    obtain ⟨⟨hwaiting, hjoined⟩, hreturned, rfl⟩ := hu
    exact ⟨hwaiting, hreturned, hjoined⟩
  | inertial message =>
    have hcallback : wp (perform C p (.inertial message))
        (fun _ t => Waiting p t ∧ Served C message true s t)
        (fun _ t => Waiting p t ∧ Served C message false s t) s := by
      rw [perform, wp_bind]
      exact wp_mono (wp_callbackInertial hfrequency hcameras h) (fun _ _ ht => ht) (fun _ _ ht => ht)
    refine wp_mono (wp_and hcallback hstep) (fun _ u hu => ?_) (fun _ u hu => ?_)
    · obtain ⟨⟨hwaiting, hserved⟩, hreturned, rfl⟩ := hu
      cases hreturned
      exact ⟨hwaiting, hserved⟩
    · obtain ⟨⟨hwaiting, hserved⟩, hreturned, rfl⟩ := hu
      cases hreturned
      exact ⟨hwaiting, hserved⟩

/-- In every run of the callbacks, in any order, with any stamps and callees, the log is a delivery: the pairs
that were queued are one period of the tracking frequency apart, the first of the queue is fed to the estimator,
and it leaves the queue where its processing returns; so the pairs are fed in the order in which they were queued,
and one is fed again only where its processing threw. Every callback does what `Performed` says: a pair is fed
only by a `callback_inertial`, behind its message and before its bound, and none before the bound is left where
the callback returns. No update runs between two callbacks. -/
theorem camera_queue_delivers {app : σ} {es : List (Entry (ROS1Visualizer σ Image Context) (Input Image Context × Bool))}
    (hfrequency : 0 < p.trackFrequency) (hcameras : p.numCameras = 2) (hrun : Run (Step C p) { app := app } es s) :
    Spaced (1 / p.trackFrequency) (queuedOf s.log) ∧
    ((queuedOf s.log).map fun pair => pair.message.timestamp).Pairwise (· < ·) ∧
    Delivered s.log s.cameraQueue ∧
    queuedOf s.log = processedOf s.log ++ s.cameraQueue ∧
    (∀ i pair, s.log[i]? = some (.fed pair) → FedAt s.log i pair) ∧
    (∀ i j pair, i < j → s.log[i]? = some (.fed pair) → s.log[j]? = some (.fed pair) →
      s.log[i + 1]? = some (.threw pair)) ∧
    s.threadUpdateRunning = false ∧
    ∀ e ∈ es, Performed C p e.input e.pre e.post := by
  have hdelta : 0 < timeDelta p := one_div_pos.mpr hfrequency
  have hstep : ∀ t i t', Waiting p t → Step C p t i t' → Waiting p t' :=
    fun _ _ _ h hstep => (hstep.waiting hdelta hcameras h).1
  have hwaiting : Waiting p s := hrun.invariant (waiting_start app) hstep
  refine ⟨hwaiting.spaced, ?_, hwaiting.delivered, hwaiting.delivered.queued_eq, hwaiting.delivered.fedAt, ?_,
    hwaiting.idle, ?_⟩
  · rw [pairwise_map]
    exact hwaiting.spaced.imp fun hab => by linarith
  · intro i j pair hij hi hj
    exact hwaiting.delivered.threw_of_fed_again hdelta hwaiting.spaced hij hi hj
  · intro e he
    obtain ⟨hpre, hentry⟩ := hrun.entry (waiting_start app) hstep e he
    exact (hentry.waiting hdelta hcameras hpre).2

/-- An estimator that throws until the second IMU message. -/
def lateCallees : Callees String Nat Unit Unit where
  feedMeasurementImu := fun _ => modify (· + 1)
  visualizeOdometry := fun _ => return ⟨⟩
  calibDtCamToImu := fun _ => 0
  feedMeasurementCamera := fun _ => do
    let messages ← get
    onlyIf (messages < 2) (throw "not initialized")
  feedMeasurementCameraWithCp2Context := fun _ _ => return true
  updaterInvoked := fun _ => false
  initialized := fun _ => false
  stateTimestamp := fun _ => 0
  lastVisualizationTimestamp := fun _ => 0
  pose := fun _ => []
  visualize := return ⟨⟩
  observer := none
  contextRejected := "CP2 serial camera context was rejected before processing"
  observerRejected := "CP2 serial processing observer rejected an event"

/-- A pair at one second is fed to it twice, and then it has been delivered. -/
theorem camera_queue_delivers_one :
    let p : Params Unit := { trackFrequency := 21, numCameras := 2, mask := fun _ image => image }
    let pair : QueuedCameraData Unit Unit := p.queuedPair 1 0 1 () () none
    let first : ImuData := { timestamp := 2, wm := 0, am := 0 }
    let second : ImuData := { timestamp := 3, wm := 0, am := 0 }
    Delivered [.queued pair, .imuFed first, .bounded first 1, .fed pair, .threw pair, .imuFed second,
      .bounded second 2, .fed pair, .processed pair] [] := by
  intro p pair first second
  let s₁ : ROS1Visualizer Nat Unit Unit :=
    { app := 0, cameraQueue := [pair], cameraLastTimestamp := Function.update (fun _ => none) 0 (some 1)
      log := [.queued pair] }
  let s₂ := { s₁ with
    app := 1, log := [.queued pair, .imuFed first, .bounded first 1, .fed pair, .threw pair] }
  let s₃ := { s₂ with
    app := 2, cameraQueue := [], log := [.queued pair, .imuFed first, .bounded first 1, .fed pair, .threw pair,
      .imuFed second, .bounded second 2, .fed pair, .processed pair] }
  have hqueue : Step lateCallees p { app := 0 } (.stereo ⟨1, some ()⟩ ⟨1, some ()⟩ none, true) s₁ := by
    rw [Step, perform, callbackStereoImpl]
    simp [-bind_pure_comp, dropped, note, sortQueue, s₁, pair, p]
  have hthrow : Step lateCallees p s₁ (.inertial first, false) s₂ := by
    rw [Step, perform, callbackInertial]
    simp [-bind_pure_comp, wp_app, note, updateThread, drain, processHead, process, feedCamera, numUniqueCameras,
      lateCallees, p, s₁, s₂, pair, first, Params.queuedPair]
  have hserve : Step lateCallees p s₂ (.inertial second, true) s₃ := by
    rw [Step, perform, callbackInertial]
    simp [-bind_pure_comp, wp_app, note, updateThread, drain, processHead, process, feedCamera, numUniqueCameras,
      lateCallees, p, s₁, s₂, s₃, pair, second, Params.queuedPair]
  exact (camera_queue_delivers (by norm_num [p]) rfl (((Run.nil.snoc hqueue).snoc hthrow).snoc hserve)).2.2.1

end Bravo.Visualizer
