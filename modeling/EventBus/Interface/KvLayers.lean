import Mathlib.Data.List.Forall2
import EventBus.Interface.Effects
import EventBus.Interface.Faults
import EventBus.Interface.KvPlaces

/-!
# The two layers of the KV store

A worker over the KV store is matched with a worker over the store as it is meant
(`NatsKvIdempotencyStore.store`), on the same bucket at the same time.  Between two calls both are at the same point; between the `create` and the `get`
of a `try_claim` the worker above still waits for its call, which is served when the `get` is.

A `create` that fails for its caller and reaches the bucket all the same is the one thing that
the store above cannot do: its caller goes on and asks what is there.  It is matched by a
stand-in, a worker of its own that dies in its `try_claim`.  So that there are always numbers for
stand-ins, worker `i` below has number `2 * i` above.
-/

set_option autoImplicit false

namespace EventBus.Interface

open Function (update)
open EventBus.Model EventBus.Lib

variable {U E : Type} [UuidCrate U] {K : KvDeployment U E}

/-! ## Lists side by side -/

section

variable {α β : Type}

/-- INTERNAL: a list is split at one of its members. -/
theorem split_of_getElem? {l : List α} {n : ℕ} {x : α} (h : l[n]? = some x) :
    ∃ a b, l = a ++ x :: b ∧ l.eraseIdx n = a ++ b := by
  obtain ⟨hn, rfl⟩ := List.getElem?_eq_some_iff.mp h
  refine ⟨l.take n, l.drop (n + 1), ?_, List.eraseIdx_eq_take_drop_succ ..⟩
  rw [← List.drop_eq_getElem_cons hn, List.take_append_drop]

/-- INTERNAL: a member in the middle has its like in the middle. -/
theorem forall₂_middle {R : α → β → Prop} {a b : List α} {x : α} {l : List β}
    (h : List.Forall₂ R (a ++ x :: b) l) :
    ∃ a' y b', l = a' ++ y :: b' ∧ R x y ∧ List.Forall₂ R (a ++ b) (a' ++ b') := by
  induction a generalizing l with
  | nil =>
    cases h with
    | cons hxy hrest => exact ⟨[], _, _, rfl, hxy, hrest⟩
  | cons z a ih =>
    cases h with
    | cons hz hrest =>
      obtain ⟨a', y, b', rfl, hxy, hrest'⟩ := ih hrest
      exact ⟨_ :: a', y, b', rfl, hxy, .cons hz hrest'⟩

end

/-! ## What is shared -/

/-- A line above that has its like below: none of a stand-in, and no claim. -/
def shown (e : Entry K.meant) : Bool := decide (e.worker % 2 = 0) && decide (e.what ≠ .claimed)

/-- A line below as it is above. -/
def lifted (e : Entry K.meant) : Entry K.meant := { e with worker := 2 * e.worker }

/-- What is shared below, and what is shared above. -/
structure SharedBelow (sh th : Shared K.meant) : Prop where
  now : th.now = sh.now
  store : th.store = sh.store
  dlq : th.dlq = sh.dlq
  log : th.log.filter shown = sh.log.map lifted
  hidden : ∀ e ∈ th.log, shown e = false → e.what = .delivered ∨ e.what = .claimed

section

variable {sh th : Shared K.meant} {i j : ℕ} {d : Delivery K.meant} {what : Occurrence}

/-- INTERNAL: a line on both sides. -/
theorem SharedBelow.note (h : SharedBelow sh th) (hwhat : what ≠ .claimed) :
    SharedBelow (sh.note i d what) (th.note (2 * i) d what) where
  now := h.now
  store := h.store
  dlq := h.dlq
  log := by
    have hshown : shown (K := K) ⟨2 * i, d, th.now, what⟩ = true := by
      simp [shown, hwhat]
    show List.filter shown (_ :: th.log) = List.map lifted (_ :: sh.log)
    rw [List.filter_cons_of_pos hshown, h.log, h.now]
    rfl
  hidden e he hhidden := by
    rcases List.mem_cons.mp he with rfl | hold
    · simp [shown, hwhat] at hhidden
    · exact h.hidden e hold hhidden

/-- INTERNAL: a line that is only above. -/
theorem SharedBelow.conceal (h : SharedBelow sh th)
    (hwhat : (j % 2 = 1 ∧ what = .delivered) ∨ what = .claimed) :
    SharedBelow sh (th.note j d what) where
  now := h.now
  store := h.store
  dlq := h.dlq
  log := by
    have hshown : shown (K := K) ⟨j, d, th.now, what⟩ = false := by
      rcases hwhat with ⟨hodd, -⟩ | rfl
      · simp [shown, hodd]
      · simp [shown]
    show List.filter shown (_ :: th.log) = List.map lifted sh.log
    rw [List.filter_cons_of_neg (by rw [hshown]; exact Bool.false_ne_true), h.log]
  hidden e he hhidden := by
    rcases List.mem_cons.mp he with rfl | hold
    · exact hwhat.imp And.right id
    · exact h.hidden e hold hhidden

/-- INTERNAL: the same change of the bucket on both sides. -/
theorem SharedBelow.write (h : SharedBelow sh th) {b b' : AgedBucket} (hb : b' = b) :
    SharedBelow (K := K) { sh with store := b } { th with store := b' } :=
  ⟨h.now, hb, h.dlq, h.log, h.hidden⟩

/-! ### Claims -/

variable {key : MessageId U} {ch : Choice K.meant} {value : Bytes}

/-- The live value under a key. -/
abbrev liveAt (sh : Shared K.meant) (name : String) : Option Bytes :=
  AgedBucket.live K.maxAge sh.now sh.store name

/-- INTERNAL: a key is live on both sides or on none. -/
theorem SharedBelow.live (h : SharedBelow sh th) (name : String) :
    liveAt th name = liveAt sh name := by
  unfold liveAt
  rw [h.now, h.store]

/-- INTERNAL: a key that is free above is claimed. -/
theorem tryClaim_free (hfree : liveAt th key.toString = none) :
    th.tryClaim j d ch key = { th with
      store := update th.store key.toString (some ⟨some kvPending, th.now⟩) }.note
        j d .claimed := by
  have hclaim : K.meant.store.tryClaim th.now ch.store key th.store = _ :=
    NatsKvIdempotencyStore.store_tryClaim_free hfree
  unfold Shared.tryClaim
  rw [hclaim]

/-- INTERNAL: the caller of a claim on a free key is told that it is claimed. -/
theorem answer_free (hfree : liveAt th key.toString = none) :
    Shared.answer (.tryClaim key) ch th = .ok .claimed := by
  have hclaim := NatsKvIdempotencyStore.store_tryClaim_free hfree
  exact congrArg Prod.fst hclaim

/-- INTERNAL: a key that is taken above is not claimed. -/
theorem tryClaim_taken (htaken : liveAt th key.toString = some value) :
    th.tryClaim j d ch key = th := by
  have hclaim : K.meant.store.tryClaim th.now ch.store key th.store = _ :=
    NatsKvIdempotencyStore.store_tryClaim_taken htaken
  unfold Shared.tryClaim
  rw [hclaim]
  by_cases hdone : value = kvDone
  · rw [if_pos hdone]
  · rw [if_neg hdone]

/-- INTERNAL: the caller of a claim on a taken key is told what is there. -/
theorem answer_taken (htaken : liveAt th key.toString = some value) :
    Shared.answer (.tryClaim key) ch th =
      .ok (if value = kvDone then .alreadyDone else .alreadyPending) := by
  have hclaim := NatsKvIdempotencyStore.store_tryClaim_taken htaken
  exact congrArg Prod.fst hclaim

/-- INTERNAL: a `create` below, and a `try_claim` above, of whatever worker. -/
theorem SharedBelow.create (h : SharedBelow sh th) (i j : ℕ) (d : Delivery K.meant)
    (key : MessageId U) (ch : Choice K.meant) : SharedBelow
      (KvShared.request i d (.create key.toString kvPending) sh) (th.tryClaim j d ch key) := by
  have habove := h.live key.toString
  cases hlive : AgedBucket.live K.maxAge sh.now sh.store key.toString with
  | none =>
    rw [tryClaim_free (habove.trans hlive)]
    refine SharedBelow.conceal ?_ (.inr rfl)
    simp only [KvShared.request, AgedBucket.serve, hlive]
    exact h.write (by rw [h.store, h.now])
  | some value =>
    rw [tryClaim_taken (habove.trans hlive)]
    simp only [KvShared.request, AgedBucket.serve, hlive]
    exact h

end

/-! ## Calls that are one request -/

/-- The operations of the store. -/
def ofStore : Call U E → Bool
  | .tryClaim _ | .markDone _ | .release _ => true
  | _ => false

/-- What a worker awaits below for a call above, and how it reads the answer; a `try_claim` is
more than that. -/
inductive Carries : (c : KvBusCall U E) → (c' : Call U E) → (c.Resp → c'.Resp) → Prop where
  | put (key : MessageId U) : Carries (.inl (.put key.toString kvDone)) (.markDone key) readEnd
  | purge (key : MessageId U) : Carries (.inl (.purge key.toString)) (.release key) readEnd
  | other (c : Call U E) (hc : ofStore c = false) : Carries (.inr c) c id

section

variable {c : KvBusCall U E} {c' : Call U E} {read : c.Resp → c'.Resp} {sh th : Shared K.meant}
  {i : ℕ} {d : Delivery K.meant}

/-- INTERNAL: a dead letter on both sides. -/
theorem SharedBelow.publish (h : SharedBelow sh th) (subject : String) (headers : HeaderMap)
    (payload : Bytes) :
    SharedBelow (sh.publish subject headers payload) (th.publish subject headers payload) := by
  have hduplicate : th.isDuplicate subject (headers.get hdrNatsMsgId) =
      sh.isDuplicate subject (headers.get hdrNatsMsgId) := by
    unfold Shared.isDuplicate
    rw [h.dlq, h.now]
  unfold Shared.publish
  rw [hduplicate]
  split
  · exact h
  · refine ⟨h.now, h.store, ?_, h.log, h.hidden⟩
    show _ :: th.dlq = _ :: sh.dlq
    rw [h.dlq, h.now]

/-- INTERNAL: the effects agree. -/
theorem Carries.effect (hc : Carries c c' read) (h : SharedBelow sh th) (seen : Bool)
    (ch : Choice K.meant) : SharedBelow (KvShared.effect seen i d c ch sh)
      (Shared.effect seen (2 * i) d c' ch th) := by
  cases hc with
  | put key =>
    have hstore : update th.store key.toString (some ⟨some kvDone, th.now⟩) =
        update sh.store key.toString (some ⟨some kvDone, sh.now⟩) := by
      rw [h.store, h.now]
    exact (h.write hstore).note (by simp : Occurrence.markedDone ≠ .claimed)
  | purge key =>
    have hstore : update th.store key.toString (some ⟨none, th.now⟩) =
        update sh.store key.toString (some ⟨none, sh.now⟩) := by
      rw [h.store, h.now]
    exact (h.write hstore).note (by simp : Occurrence.released ≠ .claimed)
  | other _ hc =>
    cases c' with
    | tryClaim key | markDone key | release key => cases hc
    | handle ctx event => exact h.note (by simp)
    | unixTimestampSeconds => exact h
    | publishWithHeaders subject headers payload timeout =>
      refine (h.publish subject headers payload).note ?_
      cases seen <;> simp
    | doubleAck | nakWithDelay delay | term => exact h.note (by simp)

/-- INTERNAL: the answers agree. -/
theorem Carries.answer (hc : Carries c c' read) (h : SharedBelow sh th) (ch : Choice K.meant) :
    read (KvShared.answer c ch sh) = Shared.answer c' ch th := by
  cases hc with
  | put key => rfl
  | purge key => rfl
  | other _ hc =>
    cases c' with
    | tryClaim key | markDone key | release key => cases hc
    | unixTimestampSeconds =>
      show toString (sh.now / 1000) = toString (th.now / 1000)
      rw [h.now]
    | _ => rfl

/-- INTERNAL: a request that can fail fails its call. -/
theorem Carries.failure (hc : Carries c c' read) {e : KvBusError} {r : c.Resp}
    (hr : KvBusCall.failure c e = some r) : ∃ e', Call.failure c' e' = some (read r) := by
  cases hc with
  | put key | purge key =>
    obtain rfl := Option.some.inj hr
    exact ⟨⟨.idempotency e.request, e.call.publish⟩, rfl⟩
  | other c hc => exact ⟨e.call, hr⟩

/-- INTERNAL: who is aborted below can be aborted above. -/
theorem Carries.remote (hc : Carries c c' read) :
    (kvBusWorld K).remote c = (world K.meant).remote c' := by
  cases hc <;> rfl

end

/-! ## Places and points -/

/-- What a worker awaits at a place that is a point: the `create` of its `try_claim`, or what
carries out its call. -/
inductive Opens (d : Delivery K.meant) (p : Point E) :
    (c : KvBusCall U E) → (c.Resp → KvPlace E) → Prop where
  | create (hp : p = .claim) : Opens d p (.inl (.create d.msgId.toString kvPending))
      (KvPlace.afterCreate (Point.afterTryClaim d))
  | carried {c : KvBusCall U E} {c' : Call U E} {k : c'.Resp → Point E}
      {read : c.Resp → c'.Resp} (hv : p.view d = some ⟨c', k⟩) (hc : Carries c c' read) :
      Opens d p c fun r => .point (k (read r))

/-- INTERNAL: what a worker awaits at a place opens what the worker above awaits at its point. -/
theorem opens_of_view {d : Delivery K.meant} {p : Point E} {c : KvBusCall U E}
    {k : c.Resp → KvPlace E} (hv : (KvPlace.point p).view d = some ⟨c, k⟩) : Opens d p c k := by
  obtain ⟨⟨c', k'⟩, hview, hopening⟩ := Option.map_eq_some_iff.mp hv
  cases c' with
  | tryClaim key =>
    obtain ⟨hp, rfl, rfl⟩ := claim_of_view hview
    cases hopening
    exact .create hp
  | markDone key =>
    cases hopening
    exact .carried hview (.put key)
  | release key =>
    cases hopening
    exact .carried hview (.purge key)
  | _ =>
    cases hopening
    exact .carried hview (.other _ rfl)

/-- INTERNAL: no worker comes to claim again. -/
theorem ne_claim_of_view {d : Delivery K.meant} {p : Point E} {c : Call U E}
    {k : c.Resp → Point E} (hv : p.view d = some ⟨c, k⟩) (r : c.Resp) : k r ≠ .claim := by
  have hterminal : ∀ cause, (Point.terminal d cause : Point E) ≠ .claim := by
    intro cause
    unfold Point.terminal
    cases d.options.dlqOpts <;> simp
  cases p with
  | finished => cases hv
  | claim =>
    cases hv
    rcases r with e | (_ | _ | _)
    · simp [Point.afterTryClaim]
    · simp only [Point.afterTryClaim, Point.afterClaim]
      split
      · exact hterminal _
      · simp
    · simp [Point.afterTryClaim]
    · simp [Point.afterTryClaim]
  | handle event =>
    cases hv
    rcases r with (reason | reason) | ⟨⟩
    · simp only [Point.afterHandler]
      split
      · exact hterminal _
      · simp
    · exact hterminal _
    · simp [Point.afterHandler]
  | publish config cause failedAt =>
    cases hv
    rcases r with failure | ⟨⟩ <;> simp [Point.afterPublish]
  | markAck | ack | stamp config cause | markTerm | term | release delay | nak delay =>
    cases hv
    simp

/-- How far a worker is below, and how far above. -/
inductive CtlBelow (d : Delivery K.meant) : Ctl (KvPlace E) → Ctl (Point E) → Prop where
  | waiting (p : Point E) (hp : p = .claim → d.readable = true) :
      CtlBelow d (.waiting (.point p)) (.waiting p)
  | answered (p : Point E) (hp : p ≠ .claim) : CtlBelow d (.answered (.point p)) (.answered p)
  | looking : CtlBelow d (.waiting .looking) (.waiting .claim)
  | toLook : CtlBelow d (.answered .looking) (.waiting .claim)
  | dead : CtlBelow d .dead .dead

/-- A worker below, and a worker above. -/
inductive ThreadBelow : Option (Thread (kvBusWorld K) (KvPlace E)) →
    Option (Thread (world K.meant) (Point E)) → Prop where
  | none : ThreadBelow none none
  | some {d : Delivery K.meant} {x : Ctl (KvPlace E)} {y : Ctl (Point E)} (h : CtlBelow d x y) :
      ThreadBelow (some ⟨d, x⟩) (some ⟨d, y⟩)

/-- A call under way below, and a call under way above. -/
inductive UnderWayBelow : ℕ × Delivery K.meant × KvBusCall U E →
    ℕ × Delivery K.meant × Call U E → Prop where
  | create (i j : ℕ) (d : Delivery K.meant) (key : MessageId U) :
      UnderWayBelow (i, d, .inl (.create key.toString kvPending)) (j, d, .tryClaim key)
  | carried {c : KvBusCall U E} {c' : Call U E} {read : c.Resp → c'.Resp} (i : ℕ)
      (d : Delivery K.meant) (hc : Carries c c' read) : UnderWayBelow (i, d, c) (2 * i, d, c')

/-- A `get` that nobody waits for is nothing. -/
def matters (x : ℕ × Delivery K.meant × KvBusCall U E) : Bool :=
  match x.2.2 with
  | .inl (.get _) => false
  | _ => true

/-- A state below, and a state above. -/
structure Below (s : State (kvBusWorld K) (KvPlace E)) (t : State (world K.meant) (Point E)) :
    Prop where
  shared : SharedBelow s.shared t.shared
  threads : ∀ i, ThreadBelow (s.threads i) (t.threads (2 * i))
  underWay : List.Forall₂ UnderWayBelow (s.detached.filter matters) t.detached
  /-- Stand-ins are dead. -/
  standIns : ∀ n th, t.threads (2 * n + 1) = some th → th.ctl = .dead
  /-- There are numbers for stand-ins. -/
  free : ∃ g, ∀ n, g ≤ n → t.threads (2 * n + 1) = none

/-! ## Lost calls -/

section

variable {x : ℕ × Delivery K.meant × KvBusCall U E} {y : ℕ × Delivery K.meant × Call U E}
  {sh th : Shared K.meant}

/-- INTERNAL: a call under way takes effect on both sides. -/
theorem UnderWayBelow.effect (hxy : UnderWayBelow x y) (h : SharedBelow sh th) (seen : Bool)
    (ch : Choice K.meant) : SharedBelow (KvShared.effect seen x.1 x.2.1 x.2.2 ch sh)
      (Shared.effect seen y.1 y.2.1 y.2.2 ch th) := by
  cases hxy with
  | create i j d key => exact h.create i j d key ch
  | carried i d hc => exact hc.effect h seen ch

/-- INTERNAL: a call under way above has one below that matters. -/
theorem UnderWayBelow.matters (hxy : UnderWayBelow x y) : matters x = true := by
  cases hxy with
  | create i j d key => rfl
  | carried i d hc => cases hc <;> rfl

/-- What is left behind of a state, without its threads. -/
def RestBelow (s : State (kvBusWorld K) (KvPlace E)) (t : State (world K.meant) (Point E)) : Prop :=
  SharedBelow s.shared t.shared ∧
    List.Forall₂ UnderWayBelow (s.detached.filter Interface.matters) t.detached

/-- INTERNAL: a call is lost on both sides. -/
theorem RestBelow.lose {s : State (kvBusWorld K) (KvPlace E)}
    {t : State (world K.meant) (Point E)} (h : RestBelow s t) {i j : ℕ} {d : Delivery K.meant}
    {c : KvBusCall U E} {c' : Call U E} (hc : UnderWayBelow (i, d, c) (j, d, c')) (fate : Fate)
    (ch : Choice K.meant) : RestBelow (s.lose i d c fate ch) (t.lose j d c' fate ch) := by
  cases fate with
  | dropped => exact h
  | served => exact ⟨hc.effect h.1 false ch, h.2⟩
  | late =>
    refine ⟨h.1, ?_⟩
    show List.Forall₂ _ (List.filter _ (s.detached ++ [(i, d, c)])) (t.detached ++ [(j, d, c')])
    rw [List.filter_append, List.filter_cons_of_pos hc.matters, List.filter_nil]
    exact List.rel_append h.2 (.cons hc .nil)

/-- INTERNAL: a `get` that is lost is nothing. -/
theorem RestBelow.lose_get {s : State (kvBusWorld K) (KvPlace E)}
    {t : State (world K.meant) (Point E)} (h : RestBelow s t) (i : ℕ) (d : Delivery K.meant)
    (name : String) (fate : Fate) (ch : Choice K.meant) :
    RestBelow (s.lose i d (.inl (.get name)) fate ch) t := by
  cases fate with
  | dropped => exact h
  | served => exact h
  | late =>
    refine ⟨h.1, ?_⟩
    show List.Forall₂ _ (List.filter _ (s.detached ++ [(i, d, .inl (.get name))])) t.detached
    rw [List.filter_append, List.filter_cons_of_neg (by simp [Interface.matters]), List.filter_nil,
      List.append_nil]
    exact h.2

end

/-! ## The simulation -/

section

variable {s s' : State (kvBusWorld K) (KvPlace E)} {t t' : State (world K.meant) (Point E)}

/-- INTERNAL: what is left of two layers without their workers. -/
theorem Below.rest (h : Below s t) : RestBelow s t := ⟨h.shared, h.underWay⟩

/-- INTERNAL: a worker moves below, and its like above at most. -/
theorem Below.move (h : Below s t) (hrest : RestBelow s' t') {i : ℕ}
    {x : Thread (kvBusWorld K) (KvPlace E)} {y : Option (Thread (world K.meant) (Point E))}
    (hxy : ThreadBelow (some x) y) (hs : s'.threads = update s.threads i (some x))
    (ht : t'.threads = update t.threads (2 * i) y) : Below s' t' where
  shared := hrest.1
  underWay := hrest.2
  threads k := by
    rw [hs, ht]
    by_cases hk : k = i
    · subst hk
      rw [Function.update_self, Function.update_self]
      exact hxy
    · rw [Function.update_of_ne hk, Function.update_of_ne (by omega)]
      exact h.threads k
  standIns n := by
    rw [ht, Function.update_of_ne (by omega)]
    exact h.standIns n
  free := by
    obtain ⟨g, hg⟩ := h.free
    refine ⟨g, fun n hn => ?_⟩
    rw [ht, Function.update_of_ne (by omega)]
    exact hg n hn

/-- INTERNAL: the worker above stays where it is. -/
theorem Below.wait (h : Below s t) (hrest : RestBelow s' t) {i : ℕ}
    {x : Thread (kvBusWorld K) (KvPlace E)} (hxy : ThreadBelow (some x) (t.threads (2 * i)))
    (hs : s'.threads = update s.threads i (some x)) : Below s' t :=
  h.move hrest hxy hs (Function.update_eq_self ..).symm

/-- INTERNAL: a stand-in is started, and dies in its `try_claim`. -/
theorem Below.standIn (h : Below s t) {d : Delivery K.meant} (hd : d.readable = true) (i : ℕ)
    (fate : Fate) (ch : Choice K.meant) :
    ∃ bs t', Along (step (pointMachine K.meant)) (fun _ b _ => b.isDrift = false) t bs ∧
      run (step (pointMachine K.meant)) t bs = some t' ∧
      Below (s.lose i d (.inl (.create d.msgId.toString kvPending)) fate ch) t' ∧
      ∀ k, t'.threads (2 * k) = t.threads (2 * k) := by
  obtain ⟨g, hg⟩ := h.free
  -- the stand-in comes to its claim
  have hstart : (pointMachine K.meant).start d = .claim := if_pos hd
  let t₁ := State.enter (pointMachine K.meant)
    { t with shared := t.shared.note (2 * g + 1) d .delivered } (2 * g + 1) d .claim
  have hspawn : Step (pointMachine K.meant) t (.spawn (2 * g + 1) d) t₁ := by
    have hrule : Step (pointMachine K.meant) t (.spawn (2 * g + 1) d) _ :=
      .spawn (hg g (Nat.le_refl g))
    rw [hstart] at hrule
    exact hrule
  have hrest : RestBelow s t₁ := ⟨h.shared.conceal (.inl ⟨by omega, rfl⟩), h.underWay⟩
  -- and dies there
  let t₂ := (t₁.lose (2 * g + 1) d (.tryClaim d.msgId) fate ch).setThread (2 * g + 1) ⟨d, .dead⟩
  have habort : Step (pointMachine K.meant) t₁ (.abort (2 * g + 1) fate ch) t₂ :=
    .abortWaiting (Function.update_self ..) rfl (.inr rfl)
  have hthreads : ∀ n, n ≠ 2 * g + 1 → t₂.threads n = t.threads n := by
    intro n hn
    show update (t₁.lose _ _ _ _ _).threads _ _ _ = _
    rw [Function.update_of_ne hn, lose_threads]
    exact Function.update_of_ne hn ..
  refine ⟨[.spawn (2 * g + 1) d, .abort (2 * g + 1) fate ch], t₂,
    fun _ _ => ⟨rfl, fun _ _ => ⟨rfl, trivial⟩⟩, run_cons_eq_some.mpr ⟨t₁, hspawn.enabled, run_single habort.enabled⟩, ?_,
    fun k => hthreads _ (by omega)⟩
  have hlose := hrest.lose (.create i (2 * g + 1) d d.msgId) fate ch
  refine ⟨hlose.1, fun k => ?_, hlose.2, fun n th hn => ?_, g + 1, fun n hn => ?_⟩
  · rw [lose_threads, hthreads _ (by omega)]
    exact h.threads k
  · by_cases hg' : n = g
    · subst hg'
      obtain rfl := Option.some.inj ((setThread_self ..).symm.trans hn)
      rfl
    · rw [hthreads _ (by omega)] at hn
      exact h.standIns n th hn
  · rw [hthreads _ (by omega)]
    exact hg n (by omega)

/-- INTERNAL: a worker comes to a point on both sides. -/
theorem reach_below {sh th : Shared K.meant} (h : SharedBelow sh th) (i : ℕ)
    (d : Delivery K.meant) (p : Point E) :
    SharedBelow (reachPoint (kvPlaces K) i d (.point p) sh)
      (reachPoint (pointMachine K.meant) (2 * i) d p th) := by
  cases p with
  | handle event => exact h.note (by simp)
  | _ => exact h

/-- INTERNAL: where the worker above is. -/
theorem Below.above (h : Below s t) {i : ℕ} {d : Delivery K.meant} {x : Ctl (KvPlace E)}
    (hi : s.threads i = some ⟨d, x⟩) :
    ∃ y, t.threads (2 * i) = some ⟨d, y⟩ ∧ CtlBelow d x y := by
  have hthread := h.threads i
  rw [hi] at hthread
  generalize t.threads (2 * i) = thread at hthread
  cases hthread with
  | some hctl => exact ⟨_, rfl, hctl⟩

/-- Mirrored by the workers over the store as it is meant, at one time. -/
abbrev MirroredAbove (s' : State (kvBusWorld K) (KvPlace E))
    (t : State (world K.meant) (Point E)) : Prop :=
  Mirrored (step (pointMachine K.meant)) (fun _ b _ => b.isDrift = false) Below s' t

/-- INTERNAL: a worker is started on both sides. -/
theorem Below.spawn (h : Below s t) {i : ℕ} (d : Delivery K.meant) (hfree : s.threads i = none) :
    MirroredAbove (State.enter (kvPlaces K) { s with shared := s.shared.note i d .delivered } i d
      (.point ((pointMachine K.meant).start d))) t := by
  have hthread := h.threads i
  rw [hfree] at hthread
  have hnone : t.threads (2 * i) = none := by
    generalize t.threads (2 * i) = thread at hthread
    cases hthread
    rfl
  refine .single (.spawn (2 * i) d) rfl (Step.spawn hnone).enabled ?_
  refine h.move ⟨reach_below (h.shared.note (by simp)) i d _, h.underWay⟩
    (.some (.waiting _ fun hclaim => ?_)) rfl rfl
  by_cases hd : d.readable = true
  · exact hd
  · have hfinished : (pointMachine K.meant).start d = .finished := if_neg hd
    cases hfinished.symm.trans hclaim

/-- INTERNAL: a `create` is served: it makes the claim, or changes nothing. -/
theorem Below.serve_create (h : Below s t) {i : ℕ} {d : Delivery K.meant} (ch : Choice K.meant)
    (hy : t.threads (2 * i) = some ⟨d, .waiting .claim⟩) :
    MirroredAbove { s.setThread i ⟨d, .answered (KvPlace.afterCreate (Point.afterTryClaim d)
        (KvShared.answer (.inl (.create d.msgId.toString kvPending)) ch s.shared))⟩ with
      shared := KvShared.request i d (.create d.msgId.toString kvPending) s.shared } t := by
  have hcreate := h.shared.create i (2 * i) d d.msgId ch
  cases hlive : AgedBucket.live K.maxAge s.shared.now s.shared.store d.msgId.toString with
  | none =>
    have hbelow : KvShared.answer (.inl (.create d.msgId.toString kvPending)) ch s.shared =
        .ok () := by
      simp only [KvShared.answer, AgedBucket.serve, hlive]
    refine .single (.serve (2 * i) ch) rfl (Step.serve hy rfl).enabled ?_
    refine h.move ⟨hcreate, h.underWay⟩ (.some ?_) rfl rfl
    show CtlBelow d (.answered (KvPlace.afterCreate _ _))
      (.answered (Point.afterTryClaim d (Shared.answer (.tryClaim d.msgId) ch t.shared)))
    rw [hbelow, answer_free ((h.shared.live _).trans hlive)]
    exact .answered _ (ne_claim_of_view (p := .claim) rfl _)
  | some value =>
    have hbelow : KvShared.answer (.inl (.create d.msgId.toString kvPending)) ch s.shared =
        .error "key already exists" := by
      simp only [KvShared.answer, AgedBucket.serve, hlive]
    refine .stutter (h.wait ⟨?_, h.underWay⟩ ?_ rfl)
    · rw [tryClaim_taken ((h.shared.live _).trans hlive)] at hcreate
      exact hcreate
    · rw [hy, hbelow]
      exact .some .toLook

/-- INTERNAL: a `get` that finds an entry is served: the claim is answered. -/
theorem Below.serve_get (h : Below s t) {i : ℕ} {d : Delivery K.meant} (ch : Choice K.meant)
    (hy : t.threads (2 * i) = some ⟨d, .waiting .claim⟩)
    (hfinds : (liveAt s.shared d.msgId.toString).isSome = true) :
    MirroredAbove { s.setThread i ⟨d, .answered (.point (Point.afterTryClaim d
        (readClaim (KvShared.answer (.inl (.get d.msgId.toString)) ch s.shared))))⟩ with
      shared := s.shared } t := by
  obtain ⟨value, hlive⟩ := Option.isSome_iff_exists.mp hfinds
  have habove := (h.shared.live d.msgId.toString).trans hlive
  have hanswer : readClaim (KvShared.answer (.inl (.get d.msgId.toString)) ch s.shared) =
      Shared.answer (.tryClaim d.msgId) ch t.shared := by
    rw [answer_taken habove]
    simp only [KvShared.answer, AgedBucket.serve, hlive, readClaim]
    split <;> rfl
  refine .single (.serve (2 * i) ch) rfl (Step.serve hy rfl).enabled ?_
  refine h.move ⟨?_, h.underWay⟩ (.some ?_) rfl rfl
  · show SharedBelow s.shared (t.shared.tryClaim (2 * i) d ch d.msgId)
    rw [tryClaim_taken habove]
    exact h.shared
  · rw [hanswer]
    exact .answered _ (ne_claim_of_view (p := .claim) rfl _)

/-- INTERNAL: what a worker awaits is served. -/
theorem Below.serve (h : Below s t) {i : ℕ} {d : Delivery K.meant} {place : KvPlace E}
    {c : KvBusCall U E} {k : c.Resp → KvPlace E} (ch : Choice K.meant)
    (hi : s.threads i = some ⟨d, .waiting place⟩) (hv : place.view d = some ⟨c, k⟩)
    (hfinds : place = .looking → (liveAt s.shared d.msgId.toString).isSome = true) :
    MirroredAbove { s.setThread i ⟨d, .answered (k (KvShared.answer c ch s.shared))⟩ with
      shared := KvShared.effect true i d c ch s.shared } t := by
  obtain ⟨y, hy, hctl⟩ := h.above hi
  cases hctl with
  | looking =>
    cases hv
    exact h.serve_get ch hy (hfinds rfl)
  | waiting p hp =>
    cases opens_of_view hv with
    | create hclaim =>
      subst hclaim
      exact h.serve_create ch hy
    | carried hview hc =>
      refine .single (.serve (2 * i) ch) rfl (Step.serve hy hview).enabled ?_
      refine h.move ⟨hc.effect h.shared true ch, h.underWay⟩ (.some ?_) rfl rfl
      show CtlBelow d (.answered (.point _)) (.answered _)
      rw [hc.answer h.shared ch]
      exact .answered _ (ne_claim_of_view hview _)

/-- INTERNAL: what a worker awaits fails. -/
theorem Below.fail (h : Below s t) {i : ℕ} {d : Delivery K.meant} {place : KvPlace E}
    {c : KvBusCall U E} {k : c.Resp → KvPlace E} {e : KvBusError} {r : c.Resp} (fate : Fate)
    (ch : Choice K.meant) (hi : s.threads i = some ⟨d, .waiting place⟩)
    (hv : place.view d = some ⟨c, k⟩) (hr : KvBusCall.failure c e = some r) :
    MirroredAbove ((s.lose i d c fate ch).setThread i ⟨d, .answered (k r)⟩) t := by
  have hthreads : ((s.lose i d c fate ch).setThread i ⟨d, .answered (k r)⟩).threads =
      update s.threads i (some ⟨d, .answered (k r)⟩) := by
    show update (s.lose i d c fate ch).threads _ _ = _
    rw [lose_threads]
  obtain ⟨y, hy, hctl⟩ := h.above hi
  cases hctl with
  | looking =>
    cases hv
    obtain rfl := Option.some.inj hr
    refine .single (.fail (2 * i) .dropped ch ⟨.idempotency e.request, e.call.publish⟩) rfl
      (Step.fail hy rfl rfl).enabled ?_
    exact h.move (h.rest.lose_get i d _ fate ch)
      (.some (.answered _ (ne_claim_of_view (p := .claim) rfl _))) hthreads rfl
  | waiting p hp =>
    cases opens_of_view hv with
    | create hclaim =>
      subst hclaim
      obtain rfl := Option.some.inj hr
      obtain ⟨bs, t', hquiet, hrun, hbelow, hsame⟩ := h.standIn (hp rfl) i fate ch
      refine ⟨bs, t', hquiet, hrun, hbelow.wait ⟨hbelow.shared, hbelow.underWay⟩ ?_ rfl⟩
      rw [hsame, hy]
      exact .some .toLook
    | carried hview hc =>
      obtain ⟨e', he'⟩ := hc.failure hr
      refine .single (.fail (2 * i) fate ch e') rfl (Step.fail hy hview he').enabled ?_
      refine h.move (h.rest.lose (.carried i d hc) fate ch)
        (.some (.answered _ (ne_claim_of_view hview _))) hthreads ?_
      show update (t.lose _ _ _ _ _).threads _ _ = _
      rw [lose_threads]

/-- INTERNAL: a worker goes on. -/
theorem Below.resume (h : Below s t) {i : ℕ} {d : Delivery K.meant} {place : KvPlace E}
    (hi : s.threads i = some ⟨d, .answered place⟩) :
    MirroredAbove (State.enter (kvPlaces K) s i d place) t := by
  obtain ⟨y, hy, hctl⟩ := h.above hi
  cases hctl with
  | toLook =>
    refine .stutter (h.wait ⟨h.shared, h.underWay⟩ ?_ rfl)
    rw [hy]
    exact .some .looking
  | answered p hp =>
    refine .single (.resume (2 * i)) rfl (Step.resume hy).enabled ?_
    exact h.move ⟨reach_below h.shared i d p, h.underWay⟩
      (.some (.waiting p fun hclaim => absurd hclaim hp)) rfl rfl

/-- INTERNAL: a worker is aborted at what it awaits. -/
theorem Below.abortWaiting (h : Below s t) {i : ℕ} {d : Delivery K.meant} {place : KvPlace E}
    {c : KvBusCall U E} (fate : Fate) (ch : Choice K.meant)
    (hi : s.threads i = some ⟨d, .waiting place⟩) (hc : (kvPlaces K).head d place = some c)
    (hfate : fate = .dropped ∨ (kvBusWorld K).remote c) :
    MirroredAbove ((s.lose i d c fate ch).setThread i ⟨d, .dead⟩) t := by
  have hthreads : ((s.lose i d c fate ch).setThread i ⟨d, .dead⟩).threads =
      update s.threads i (some ⟨d, .dead⟩) := by
    show update (s.lose i d c fate ch).threads _ _ = _
    rw [lose_threads]
  obtain ⟨⟨c, k⟩, hv, rfl⟩ := Option.map_eq_some_iff.mp hc
  obtain ⟨y, hy, hctl⟩ := h.above hi
  cases hctl with
  | looking =>
    cases hv
    refine .single (.abort (2 * i) .dropped ch) rfl
      (Step.abortWaiting hy rfl (.inl rfl)).enabled ?_
    exact h.move (h.rest.lose_get i d _ fate ch) (.some .dead) hthreads rfl
  | waiting p hp =>
    cases opens_of_view hv with
    | create hclaim =>
      subst hclaim
      refine .single (.abort (2 * i) fate ch) rfl
        (Step.abortWaiting hy rfl (.inr rfl)).enabled ?_
      refine h.move (h.rest.lose (.create i (2 * i) d d.msgId) fate ch) (.some .dead) hthreads ?_
      show update (t.lose _ _ _ _ _).threads _ _ = _
      rw [lose_threads]
    | carried hview hc' =>
      have hremote : fate = .dropped ∨ (world K.meant).remote _ := hc'.remote (K := K) ▸ hfate
      refine .single (.abort (2 * i) fate ch) rfl
        (Step.abortWaiting hy (Machine.head_of_view hview) hremote).enabled ?_
      refine h.move (h.rest.lose (.carried i d hc') fate ch) (.some .dead) hthreads ?_
      show update (t.lose _ _ _ _ _).threads _ _ = _
      rw [lose_threads]

/-- INTERNAL: a worker is aborted before it goes on. -/
theorem Below.abortAnswered (h : Below s t) {i : ℕ} {d : Delivery K.meant} {place : KvPlace E}
    (fate : Fate) (ch : Choice K.meant) (hi : s.threads i = some ⟨d, .answered place⟩) :
    MirroredAbove (s.setThread i ⟨d, .dead⟩) t := by
  obtain ⟨y, hy, hctl⟩ := h.above hi
  cases hctl with
  | toLook =>
    refine .single (.abort (2 * i) .dropped ch) rfl
      (Step.abortWaiting hy rfl (.inl rfl)).enabled ?_
    exact h.move ⟨h.shared, h.underWay⟩ (.some .dead) rfl rfl
  | answered p hp =>
    refine .single (.abort (2 * i) fate ch) rfl (Step.abortAnswered hy).enabled ?_
    exact h.move ⟨h.shared, h.underWay⟩ (.some .dead) rfl rfl

/-- INTERNAL: a call under way takes effect. -/
theorem Below.land (h : Below s t) {n i : ℕ} {d : Delivery K.meant} {c : KvBusCall U E}
    (ch : Choice K.meant) (hn : s.detached[n]? = some (i, d, c)) :
    MirroredAbove { s with
      shared := KvShared.effect false i d c ch s.shared
      detached := s.detached.eraseIdx n } t := by
  obtain ⟨before, after, hsplit, herase⟩ := split_of_getElem? hn
  have hall := h.underWay
  rw [hsplit, List.filter_append] at hall
  cases hmatters : matters (i, d, c) with
  | false =>
    -- a `get`, which changes nothing
    rw [List.filter_cons_of_neg (by rw [hmatters]; exact Bool.false_ne_true)] at hall
    have hsame : KvShared.effect false i d c ch s.shared = s.shared := by
      rcases c with (_ | _ | _ | _ | _) | c <;> first | rfl | cases hmatters
    refine .stutter ⟨?_, h.threads, ?_, h.standIns, h.free⟩
    · show SharedBelow (KvShared.effect false i d c ch s.shared) t.shared
      rw [hsame]
      exact h.shared
    · show List.Forall₂ _ (List.filter _ (s.detached.eraseIdx n)) _
      rw [herase, List.filter_append]
      exact hall
  | true =>
    rw [List.filter_cons_of_pos hmatters] at hall
    obtain ⟨before', y, after', habove, hxy, hrest⟩ := forall₂_middle hall
    have hy : t.detached[before'.length]? = some y := by
      rw [habove]
      simp
    have herase' : t.detached.eraseIdx before'.length = before' ++ after' := by
      rw [habove, List.eraseIdx_append_of_length_le (Nat.le_refl _), Nat.sub_self,
        List.eraseIdx_cons_zero]
    refine .single (.land before'.length ch) rfl (Step.land hy).enabled ?_
    refine ⟨hxy.effect h.shared false ch, h.threads, ?_, h.standIns, h.free⟩
    show List.Forall₂ _ (List.filter _ (s.detached.eraseIdx n)) (t.detached.eraseIdx _)
    rw [herase, herase', List.filter_append]
    exact hrest

/-- A `get` that is answered finds an entry. -/
def findsEntry (sh : KvShared K) : KvBusCall U E → Bool
  | .inl (.get name) => (liveAt sh name).isSome
  | _ => true

/-- Every `get` that is answered finds an entry. -/
def Finds (s : State (kvBusWorld K) (Option (KvBusCall U E))) (a : Action (kvBusWorld K))
    (_ : State (kvBusWorld K) (Option (KvBusCall U E))) : Prop :=
  match a with
  | .serve i _ => ∀ x ∈ s.awaits i, findsEntry s.shared x.2 = true
  | _ => True

instance (s s' : State (kvBusWorld K) (Option (KvBusCall U E))) (a : Action (kvBusWorld K)) :
    Decidable (Finds s a s') :=
  match a with
  | .serve i _ => inferInstanceAs (Decidable (∀ x ∈ s.awaits i, _))
  | .spawn _ _ | .fail _ _ _ _ | .resume _ | .abort _ _ _ | .land _ _ | .drift _ => isTrue trivial

/-- Time passes without an entry of the bucket expiring. -/
def KvNoExpiry (s : State (kvBusWorld K) (Option (KvBusCall U E))) (a : Action (kvBusWorld K))
    (s' : State (kvBusWorld K) (Option (KvBusCall U E))) : Prop :=
  match a with
  | .drift _ => ∀ name value, liveAt s.shared name = some value →
      liveAt s'.shared name = some value
  | _ => True

/-- INTERNAL: time goes by on both sides. -/
theorem Below.drift (h : Below s t) (elapsed : ℕ) :
    Below { s with shared := { s.shared with now := s.shared.now + elapsed } }
      { t with shared := { t.shared with now := t.shared.now + elapsed } } where
  shared := ⟨congrArg (· + elapsed) h.shared.now, h.shared.store, h.shared.dlq, h.shared.log,
    h.shared.hidden⟩
  threads := h.threads
  underWay := h.underWay
  standIns := h.standIns
  free := h.free

/-- INTERNAL: where no entry of the bucket expires below, no status changes above. -/
theorem SharedBelow.noExpiry {sh th : Shared K.meant} (h : SharedBelow sh th) {elapsed : ℕ}
    (hlive : ∀ name value, liveAt sh name = some value →
      liveAt { sh with now := sh.now + elapsed } name = some value) (key : MessageId U) :
    (NatsKvIdempotencyStore.contract K.maxAge).status (th.now + elapsed) th.store key =
      (NatsKvIdempotencyStore.contract K.maxAge).status th.now th.store key := by
  show AgedBucket.status _ _ _ _ = AgedBucket.status _ _ _ _
  have hsame : AgedBucket.live K.maxAge (sh.now + elapsed) sh.store key.toString =
      AgedBucket.live K.maxAge sh.now sh.store key.toString := by
    cases hlater : AgedBucket.live K.maxAge (sh.now + elapsed) sh.store key.toString with
    | some value => exact (AgedBucket.live_of_later (Nat.le_add_right ..) hlater).symm
    | none =>
      cases hnow : AgedBucket.live K.maxAge sh.now sh.store key.toString with
      | none => rfl
      | some value => cases hlater.symm.trans (hlive _ _ hnow)
  unfold AgedBucket.status
  rw [h.now, h.store, hsame]

/-- **A step below, in which no `get` finds its key gone, is answered by steps above.**  Time goes
by above only when it does below, and then by as much. -/
theorem Below.step {D : State (world K.meant) (Point E) → Action (world K.meant) →
      State (world K.meant) (Point E) → Prop}
    {s s' : State (kvBusWorld K) (kvPlaces K).Point} {a : Action (kvBusWorld K)}
    (hstep : Lib.step (kvPlaces K) s a = some s')
    (hfinds : Finds (look (kvPlaces K) s) a (look (kvPlaces K) s')) (h : Below s t)
    (hquiet : ∀ t b t', b.isDrift = false → D t b t')
    (hdrift : ∀ elapsed, a = .drift elapsed → D t (.drift ⟨elapsed, ()⟩)
      { t with shared := { t.shared with now := t.shared.now + elapsed } }) :
    Mirrored (Lib.step (pointMachine K.meant)) D Below s' t := by
  have of_quiet : MirroredAbove s' t → Mirrored (Lib.step (pointMachine K.meant)) D Below s' t :=
    fun hmirrored => hmirrored.mono fun _ _ _ _ hb => hquiet _ _ _ hb
  cases step_cases hstep with
  | spawn hfree => exact of_quiet (h.spawn _ hfree)
  | serve hi hv =>
    refine of_quiet (h.serve _ hi hv ?_)
    rintro rfl
    exact hfinds _ (look_waiting hi rfl)
  | fail hi hv hr => exact of_quiet (h.fail _ _ hi hv hr)
  | resume hi => exact of_quiet (h.resume hi)
  | abortWaiting hi hc hfate => exact of_quiet (h.abortWaiting _ _ hi hc hfate)
  | @abortAnswered i fate ch d place hi => exact of_quiet (h.abortAnswered fate ch hi)
  | land hn => exact of_quiet (h.land _ hn)
  | @drift elapsed => exact .single _ (hdrift elapsed rfl) Step.drift.enabled (h.drift elapsed)

/-- Above, time passes without an entry of the bucket expiring. -/
abbrev NoExpiryAbove (t : State (world K.meant) (Point E)) (b : Action (world K.meant))
    (t' : State (world K.meant) (Point E)) : Prop :=
  NoExpiry (NatsKvIdempotencyStore.contract K.maxAge) (look (pointMachine K.meant) t) b
    (look (pointMachine K.meant) t')

/-- INTERNAL: where no entry expires below, none does above. -/
theorem Below.step_noExpiry {s s' : State (kvBusWorld K) (kvPlaces K).Point}
    {a : Action (kvBusWorld K)} (hstep : Lib.step (kvPlaces K) s a = some s')
    (hfinds : Finds (look (kvPlaces K) s) a (look (kvPlaces K) s'))
    (hlive : KvNoExpiry (look (kvPlaces K) s) a (look (kvPlaces K) s')) (h : Below s t) :
    Mirrored (Lib.step (pointMachine K.meant)) NoExpiryAbove Below s' t := by
  refine h.step hstep hfinds (fun t b t' => noExpiry_of_not_drift) fun elapsed ha => ?_
  subst ha
  obtain rfl := Option.some.inj hstep
  exact h.shared.noExpiry hlive

end

end EventBus.Interface
