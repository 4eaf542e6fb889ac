import EventBus.Analysis.EffectivelyOnce
import EventBus.Interface.KvLayers

/-!
# Workers over the KV store

`try_claim` over the KV store is two requests, and a worker can fail, be overtaken or die between
them.  `kv_workers_refine` says that it does not show: what the workers do is what workers do over
the store as it is meant, as long as no `get` finds that its key has vanished since the `create`.
The bucket ages on both sides.  So the handlers are called effectively once over the KV store as
well, as long as no entry expires (`kv_effectively_once`).
-/

set_option autoImplicit false

namespace EventBus.Analysis

open EventBus.Model EventBus.Lib EventBus.Interface

variable {U E : Type} [UuidCrate U] {K : KvDeployment U E}

/-- The workers over the KV store, and workers over the store as it is meant, worker `i` with
number `2 * i`: clock, bucket and dead letters are the same, the log is but for claims and
stand-ins, and so are the calls that the workers await beside those of the store.  The stand-ins
have odd numbers and are dead. -/
structure Matched (s : State (kvBusWorld K) (Option (KvBusCall U E)))
    (t : State (world K.meant) (Option (Call U E))) : Prop where
  shared : SharedBelow s.shared t.shared
  awaits : ∀ i d c, ofStore c = false →
    (s.awaits i = some (d, .inr c) ↔ t.awaits (2 * i) = some (d, c))
  standIns : ∀ n th, t.threads (2 * n + 1) = some th → th.ctl = .dead

/-- INTERNAL: a place and its point come to the same calls beside those of the store. -/
theorem head_point {d : Delivery K.meant} {p : Point E} {c : Call U E} (hc : ofStore c = false) :
    (kvPlaces K).head d (.point p) = some (.inr c) ↔ (pointMachine K.meant).head d p = some c := by
  unfold Machine.head
  show ((p.view d).map KvPlace.opening).map Sigma.fst = _ ↔ (p.view d).map Sigma.fst = _
  rcases p.view d with _ | ⟨c', k⟩
  · exact iff_of_false (by simp) (by simp)
  · cases c' with
    | tryClaim key | markDone key | release key =>
      constructor
      · intro h
        cases h
      · intro h
        cases h
        cases hc
    | _ =>
      constructor
      · intro h
        cases h
        rfl
      · intro h
        cases h
        rfl

/-- INTERNAL: what is seen of two layers matches. -/
theorem Matched.of_below {s : State (kvBusWorld K) (kvPlaces K).Point}
    {t : State (world K.meant) (pointMachine K.meant).Point} (h : Below s t) :
    Matched (look (kvPlaces K) s) (look (pointMachine K.meant) t) where
  shared := h.shared
  awaits i d c hc := by
    have hthread := h.threads i
    generalize hx : s.threads i = x at hthread
    generalize hy : t.threads (2 * i) = y at hthread
    cases hthread with
    | none =>
      unfold State.awaits
      rw [look_threads, look_threads, hx, hy]
      exact iff_of_false (by simp) (by simp)
    | some hctl =>
      cases hctl with
      | waiting p hp =>
        rw [look_awaits _ hx, look_awaits _ hy]
        simp only [Option.map_eq_some_iff, Prod.mk.injEq]
        constructor
        · rintro ⟨c', hc', rfl, rfl⟩
          exact ⟨c, (head_point hc).mp hc', rfl, rfl⟩
        · rintro ⟨c', hc', rfl, rfl⟩
          exact ⟨.inr c', (head_point hc).mpr hc', rfl, rfl⟩
      | answered p hp =>
        rw [look_awaits_of_answered _ hx, look_awaits_of_answered _ hy]
        exact iff_of_false (by simp) (by simp)
      | looking =>
        rw [look_awaits _ hx, look_awaits _ hy]
        refine iff_of_false (fun heq => by cases heq) (fun heq => ?_)
        cases heq
        cases hc
      | toLook =>
        rw [look_awaits_of_answered _ hx, look_awaits _ hy]
        refine iff_of_false (fun heq => by cases heq) (fun heq => ?_)
        cases heq
        cases hc
      | dead =>
        unfold State.awaits
        rw [look_threads, look_threads, hx, hy]
        exact iff_of_false (by simp [Thread.map, Ctl.map]) (by simp [Thread.map, Ctl.map])
  standIns n th hth := by
    rw [look_threads] at hth
    obtain ⟨th₀, hth₀, rfl⟩ := Option.map_eq_some_iff.mp hth
    simp only [Thread.map, h.standIns n th₀ hth₀, Ctl.map]

/-- INTERNAL: before any worker both layers are the same. -/
theorem below_fresh (now : ℕ) (bucket : AgedBucket) (dlq : List DlqRecord) :
    Below (fresh (kvPlaces K) (.initial now bucket dlq))
      (fresh (pointMachine K.meant) (.initial now bucket dlq)) where
  shared := ⟨rfl, rfl, rfl, rfl, fun _ he => absurd he List.not_mem_nil⟩
  threads _ := .none
  underWay := .nil
  standIns n th hth := by cases hth
  free := ⟨0, fun _ _ => rfl⟩

section

variable (K) (now : ℕ) (bucket : AgedBucket) (dlq : List DlqRecord) (as : List (Action (kvBusWorld K)))
  (hfinds : Along (step (kvWorkers K))
    (fun s a s' => Finds (look (kvWorkers K) s) a (look (kvWorkers K) s'))
    (fresh (kvWorkers K) (.initial now bucket dlq)) as)

include hfinds

end

/-! ## Effectively once -/

/-- The handler of worker `i` is running for the delivery `d`. -/
def KvHandling (s : State (kvBusWorld K) (Option (KvBusCall U E))) (i : ℕ) (d : Delivery K.meant) :
    Prop :=
  ∃ ctx event, s.awaits i = some (d, .inr (.handle ctx event))

/-- No two handler invocations for one id overlap. -/
def KvNoOverlap (s : State (kvBusWorld K) (Option (KvBusCall U E))) : Prop :=
  ∀ i j d e, KvHandling s i d → KvHandling s j e → d.msgId = e.msgId → i = j

section

variable {s : State (kvBusWorld K) (Option (KvBusCall U E))}
  {t : State (world K.meant) (Option (Call U E))}

/-- INTERNAL: a handler that runs below runs above. -/
theorem Matched.handling (h : Matched s t) {i : ℕ} {d : Delivery K.meant} (hi : KvHandling s i d) :
    Handling t (2 * i) d := by
  obtain ⟨ctx, event, hi⟩ := hi
  have habove := (h.awaits i d (.handle ctx event) rfl).mp hi
  refine ⟨ctx, event, ?_⟩
  unfold State.awaits at habove
  split at habove
  · rename_i heq
    cases habove
    exact heq
  · cases habove

/-- INTERNAL: handlers that do not overlap above do not below. -/
theorem Matched.noOverlap (h : Matched s t) (ht : NoOverlap t) : KvNoOverlap s := by
  intro i j d e hi hj hid
  have hsame := ht (2 * i) (2 * j) d e (h.handling hi) (h.handling hj) hid
  omega

/-- INTERNAL: what is handled once above is handled once below. -/
theorem Matched.okOnce (h : Matched s t) (ht : OkOnce t.shared.log) : OkOnce s.shared.log := by
  have hshown := List.Pairwise.filter shown ht
  rw [h.shared.log] at hshown
  exact List.pairwise_map.mp hshown

end

/-- **Effectively once over the KV store.**  In every run of that kind in which no entry of the
bucket expires, no two handler invocations for one id overlap, and at most one for each id returns
`Ok`.
SRC: nats_kv.rs:22-57, nats_kv.rs:68-107, subscriber.rs:352-596 -/
theorem kv_effectively_once (K : KvDeployment U E) (now : ℕ) (bucket : AgedBucket)
    (dlq : List DlqRecord) (as : List (Action (kvBusWorld K)))
    (hfinds : Along (step (kvWorkers K))
      (fun s a s' => Finds (look (kvWorkers K) s) a (look (kvWorkers K) s'))
      (fresh (kvWorkers K) (.initial now bucket dlq)) as)
    (hlive : Along (step (kvWorkers K))
      (fun s a s' => KvNoExpiry (look (kvWorkers K) s) a (look (kvWorkers K) s'))
      (fresh (kvWorkers K) (.initial now bucket dlq)) as) :
    Always (step (kvWorkers K))
      (fun s => KvNoOverlap (look (kvWorkers K) s) ∧ OkOnce s.shared.log)
      (fresh (kvWorkers K) (.initial now bucket dlq)) as := by
  have hfinds := (along_look_hom (placesOfWorkers K) (C := Finds) _ as).mp hfinds
  have hlive := (along_look_hom (placesOfWorkers K) (C := KvNoExpiry) _ as).mp hlive
  refine (always_look_hom (placesOfWorkers K)
    (Q := fun s => KvNoOverlap s ∧ OkOnce s.shared.log) _ as).mpr ?_
  refine always_of_simulation
    (fun _ _ _ _ hstep hC hst => hst.step_noExpiry hstep hC.1 hC.2)
    (J := fun t => NoOverlap (look (pointMachine K.meant) t) ∧ OkOnce t.shared.log)
    (fun s t hst ht => ?_) (fun bs hbs => ?_) (along_and.mpr ⟨hfinds, hlive⟩)
    (below_fresh now bucket dlq)
  · exact ⟨(Matched.of_below hst).noOverlap ht.1, (Matched.of_below hst).okOnce ht.2⟩
  · refine (always_look_hom (pointsOfCode K.meant)
      (Q := fun t => NoOverlap t ∧ OkOnce t.shared.log) _ bs).mp ?_
    refine once_of_contract K.meant (NatsKvIdempotencyStore.contract K.maxAge) now bucket dlq bs ?_
    exact (along_look_hom (pointsOfCode K.meant)
      (C := NoExpiry (NatsKvIdempotencyStore.contract K.maxAge)) _ bs).mpr hbs

/-! ## A run -/

/-- Subscriptions named by their durables over one bucket, with default settings. -/
def kvEvents : KvDeployment HyphenatedUuid Bytes where
  Sub := String
  options := eventsOptions
  fromSlice _ payload := .ok payload
  duplicateWindow _ := 300000

def kvDelivery (id : String) (streamSequence : ℕ) (delivered : ℤ) : Delivery kvEvents.meant where
  sub := "billing"
  msg :=
    { subject := "events.order.created"
      headers := some [(hdrNatsMsgId, id)]
      payload := [123, 125]
      info := .ok ⟨streamSequence, delivered⟩ }

/-- A worker that runs undisturbed through `calls` requests and calls. -/
def kvUndisturbed (i : ℕ) (d : Delivery kvEvents.meant) (result : Except HandlerError Unit)
    (calls : ℕ) : List (Action (kvBusWorld kvEvents)) :=
  .spawn i d :: (List.replicate calls [.serve i ⟨(), result⟩, .resume i]).flatten

def kvTimeout : KvBusError := ⟨"timeout", .idempotency "timeout", .sendTimeout⟩

/-- A `create` whose answer is lost, and a release that takes effect late, after the next delivery
has been turned away; an hour passes until it is made again. -/
def lostAnswersRun : List (Action (kvBusWorld kvEvents)) :=
  [.spawn 0 (kvDelivery "6ba7b810-9dad-11d1-80b4-00c04fd430c8" 1 1),
      .fail 0 .served ⟨(), .ok ()⟩ kvTimeout, .resume 0] ++
    kvUndisturbed 1 (kvDelivery "6ba7b811-9dad-11d1-80b4-00c04fd430c8" 2 1)
      (.error (.transient "timeout")) 2 ++
    [.fail 1 .late ⟨(), .ok ()⟩ kvTimeout, .serve 0 ⟨(), .ok ()⟩, .resume 0] ++
    kvUndisturbed 2 (kvDelivery "6ba7b811-9dad-11d1-80b4-00c04fd430c8" 2 2) (.ok ()) 3 ++
    [.land 0 ⟨(), .ok ()⟩, .drift 3600000] ++
    kvUndisturbed 3 (kvDelivery "6ba7b811-9dad-11d1-80b4-00c04fd430c8" 2 3) (.ok ()) 4

/-- INTERNAL: nothing expires while the clock is below the `max_age`. -/
theorem kvNoExpiry_of_early {s s' : State (kvBusWorld K) (kvWorkers K).Point}
    {a : Action (kvBusWorld K)} (hstep : step (kvWorkers K) s a = some s')
    (hearly : Duration.fromMillis s'.shared.now < K.maxAge) :
    KvNoExpiry (look (kvWorkers K) s) a (look (kvWorkers K) s') := by
  cases a with
  | drift elapsed =>
    obtain rfl := Option.some.inj hstep
    intro name value hvalue
    have hbefore : Duration.fromMillis s.shared.now < K.maxAge :=
      Nat.lt_of_le_of_lt (Nat.mul_le_mul_right 1000000 (Nat.le_add_right ..)) hearly
    rw [← hvalue]
    exact (AgedBucket.live_of_early hearly).trans (AgedBucket.live_of_early hbefore).symm
  | _ => trivial

/-- INTERNAL: the result on the run before, within the first seven days. -/
theorem kv_effectively_once_lostAnswers :
    Always (step (kvWorkers kvEvents))
      (fun s => KvNoOverlap (look (kvWorkers kvEvents) s) ∧ OkOnce s.shared.log)
      (fresh (kvWorkers kvEvents) (.initial 0 (fun _ => none) [])) lostAnswersRun := by
  have hfinds : Along (step (kvWorkers kvEvents))
      (fun s a s' => Finds (look (kvWorkers kvEvents) s) a (look (kvWorkers kvEvents) s'))
      (fresh (kvWorkers kvEvents) (.initial 0 (fun _ => none) [])) lostAnswersRun := by
    decide +kernel
  have hearly : Along (step (kvWorkers kvEvents))
      (fun _ _ s' => Duration.fromMillis s'.shared.now < kvEvents.maxAge)
      (fresh (kvWorkers kvEvents) (.initial 0 (fun _ => none) [])) lostAnswersRun := by
    decide +kernel
  exact kv_effectively_once kvEvents 0 _ [] _ hfinds
    (hearly.mono fun _ _ _ hstep => kvNoExpiry_of_early hstep)

end EventBus.Analysis
