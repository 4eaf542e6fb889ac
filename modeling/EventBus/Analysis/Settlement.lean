import EventBus.Interface.Effects

/-!
# Settlement is never unfounded

A message is acknowledged or terminated, and its key marked done, only on evidence: a
handler has returned `Ok` for its id, or the dead letter stream has acknowledged a
publish for its id to the worker.  Nothing is assumed of claims and nothing of the
network: the argument needs of the store only that it is honest about done keys.

The invariant `founded` ties the evidence in the log to the store, to the place of every
worker and to the calls still under way; a call is licensed by the point it was made at.
-/

set_option autoImplicit false

namespace EventBus.Analysis

open EventBus.Model EventBus.Lib EventBus.Interface

variable {U E : Type} {Γ : Deployment U E}

/-! ## Evidence -/

/-- The handler succeeded, or the dead letter stream acknowledged a publish. -/
inductive Occurrence.IsEvidence : Occurrence → Prop where
  | handled : IsEvidence (.handled (.ok ()))
  | dlqAcked : IsEvidence .dlqAcked

/-- The message is settled at the server. -/
inductive Occurrence.Settles : Occurrence → Prop where
  | acked : Settles .acked
  | termed : Settles .termed

/-- The log has evidence of a delivery that satisfies `P`. -/
def Evidence (P : Delivery Γ → Prop) (log : List (Entry Γ)) : Prop :=
  ∃ e ∈ log, P e.delivery ∧ Occurrence.IsEvidence e.what

/-- Every settlement in the log comes after evidence of a delivery to which it is related
by `P`. -/
def SettledOn (P : Delivery Γ → Delivery Γ → Prop) : List (Entry Γ) → Prop
  | [] => True
  | e :: older =>
    (Occurrence.Settles e.what → Evidence (P e.delivery) older) ∧ SettledOn P older

instance : DecidablePred Occurrence.IsEvidence := fun what =>
  decidable_of_iff (what = .handled (.ok ()) ∨ what = .dlqAcked)
    ⟨by rintro (rfl | rfl) <;> constructor, by rintro ⟨⟩ <;> simp⟩

instance : DecidablePred Occurrence.Settles := fun what =>
  decidable_of_iff (what = .acked ∨ what = .termed)
    ⟨by rintro (rfl | rfl) <;> constructor, by rintro ⟨⟩ <;> simp⟩

instance (P : Delivery Γ → Prop) [DecidablePred P] (log : List (Entry Γ)) :
    Decidable (Evidence P log) :=
  inferInstanceAs (Decidable (∃ e ∈ log, P e.delivery ∧ Occurrence.IsEvidence e.what))

instance SettledOn.decidable (P : Delivery Γ → Delivery Γ → Prop) [∀ d, DecidablePred (P d)] :
    (log : List (Entry Γ)) → Decidable (SettledOn P log)
  | [] => isTrue trivial
  | e :: older =>
    have := SettledOn.decidable P older
    inferInstanceAs (Decidable
      ((Occurrence.Settles e.what → Evidence (P e.delivery) older) ∧ SettledOn P older))

/-- INTERNAL: evidence stays in a log that grows. -/
theorem Evidence.mono {P : Delivery Γ → Prop} {log log' : List (Entry Γ)} (h : Evidence P log)
    (hlog : log ⊆ log') : Evidence P log' := by
  obtain ⟨e, he, h⟩ := h
  exact ⟨e, hlog he, h⟩

/-- INTERNAL: evidence stays when a line is added. -/
theorem Evidence.addLine {P : Delivery Γ → Prop} {sh : Shared Γ} (h : Evidence P sh.log)
    (i : ℕ) (d : Delivery Γ) (what : Option Occurrence) :
    Evidence P (addLine sh i d what) :=
  h.mono (log_subset_addLine i d sh what)

/-- INTERNAL: a line that settles nothing needs no evidence. -/
theorem SettledOn.addLine {P : Delivery Γ → Delivery Γ → Prop} {sh : Shared Γ}
    (h : SettledOn P sh.log) (i : ℕ) (d : Delivery Γ) {what : Option Occurrence}
    (hw : ∀ w, what = some w → Occurrence.Settles w → Evidence (P d) sh.log) :
    SettledOn P (addLine sh i d what) := by
  cases what with
  | none => exact h
  | some w => exact ⟨hw w rfl, h⟩

/-- INTERNAL: only an ack or a term settles a message. -/
theorem settles_noted {seen : Bool} {c : Call U E} {ch : Choice Γ} {sh : Shared Γ}
    {w : Occurrence} (hw : noted seen c ch sh = some w) (hs : Occurrence.Settles w) :
    c = .doubleAck ∨ c = .term := by
  cases notes_of_noted hw with
  | acked => exact .inl rfl
  | termed => exact .inr rfl
  | _ => cases hs

/-! ## The invariant -/

section

variable [UuidCrate U]

/-- The deliveries that carry the id of `d`. -/
def SameId (d d' : Delivery Γ) : Prop := d'.msgId = d.msgId

instance [DecidableEq U] (d d' : Delivery Γ) : Decidable (SameId d d') :=
  inferInstanceAs (Decidable (d'.msgId = d.msgId))

/-- The points a worker reaches only on evidence. -/
def Warranted : Point E → Prop
  | .markAck | .ack | .markTerm | .term => True
  | _ => False

/-- A call that was made at a point where it had to be warranted was warranted. -/
def Licensed (log : List (Entry Γ)) (d : Delivery Γ) (c : Call U E) : Prop :=
  ∃ p, (pointMachine Γ).head d p = some c ∧ (Warranted p → Evidence (SameId d) log)

/-- The store and the log are founded. -/
structure FoundedShared (H : Γ.store.Honest) (sh : Shared Γ) : Prop where
  done : ∀ key, H.isDone sh.now sh.store key → Evidence (fun d => d.msgId = key) sh.log
  settled : SettledOn SameId sh.log

/-- The invariant: the store and the log are founded, workers are where they are on
evidence, and calls under way are licensed. -/
def founded (H : Γ.store.Honest) : Local (pointMachine Γ) where
  shared := FoundedShared H
  site sh d p := Warranted p → Evidence (SameId d) sh.log
  underWay sh d c := Licensed sh.log d c

/-- INTERNAL: serving a licensed call keeps the store and the log founded. -/
theorem FoundedShared.effect {H : Γ.store.Honest} {sh : Shared Γ} (hsh : FoundedShared H sh)
    {d : Delivery Γ} {c : Call U E} (hc : Licensed sh.log d c) (seen : Bool) (i : ℕ)
    (ch : Choice Γ) : FoundedShared H (Shared.effect seen i d c ch sh) := by
  obtain ⟨p, hp, hev⟩ := hc
  constructor
  · intro key hdone
    rw [effect_now, effect_store] at hdone
    rw [effect_log]
    refine Evidence.addLine ?_ i d _
    cases c with
    | tryClaim k => exact hsh.done key (H.tryClaim_done _ _ _ _ _ hdone)
    | markDone k =>
      rcases H.markDone_done _ _ _ _ _ hdone with rfl | hold
      · -- `mark_done` is called on the id of the delivery, at two points, both warranted
        cases p <;> cases hp
        · exact hev trivial
        · exact hev trivial
      · exact hsh.done key hold
    | release k => exact hsh.done key (H.release_done _ _ _ _ _ hdone)
    | _ => exact hsh.done key hdone
  · rw [effect_log]
    refine hsh.settled.addLine i d fun w hw hset => ?_
    rcases settles_noted hw hset with rfl | rfl
    · cases p <;> cases hp
      exact hev trivial
    · cases p <;> cases hp
      exact hev trivial

omit [UuidCrate U] in
/-- INTERNAL: with dead letters, failing for good goes on to one.
SRC: subscriber.rs:532-535 -/
theorem terminal_of_dlq {d : Delivery Γ} (hdlq : d.options.dlqOpts.isSome) (cause : Cause) :
    ∃ config, (Point.terminal d cause : Point E) = .stamp config cause := by
  obtain ⟨dlqOpts, hopts⟩ := Option.isSome_iff_exists.mp hdlq
  refine ⟨dlqOpts.config, ?_⟩
  rw [Point.terminal, hopts]

/-- INTERNAL: a worker that is answered reaches a warranted point only on evidence. -/
theorem FoundedShared.answered {H : Γ.store.Honest}
    (hdlq : ∀ sub, (Γ.options sub).dlqOpts.isSome) {sh : Shared Γ} (hsh : FoundedShared H sh)
    (i : ℕ) {d : Delivery Γ} {p : Point E} {c : Call U E} {k : c.Resp → Point E}
    (hp : Warranted p → Evidence (SameId d) sh.log) (hv : Point.view d p = some ⟨c, k⟩)
    (ch : Choice Γ) (hw : Warranted (k (Shared.answer c ch sh))) :
    Evidence (SameId d) (Shared.effect true i d c ch sh).log := by
  rw [effect_log]
  cases p with
  | claim =>
    cases hv
    refine Evidence.addLine ?_ i d _
    simp only [Shared.answer] at hw
    cases hans : (Γ.store.tryClaim sh.now ch.store d.msgId sh.store).1 with
    | error e => simp [hans, Point.afterTryClaim, Warranted] at hw
    | ok outcome =>
      cases outcome with
      | claimed =>
        simp only [hans, Point.afterTryClaim, Point.afterClaim] at hw
        split at hw
        · obtain ⟨config, ht⟩ :=
            terminal_of_dlq (hdlq d.sub) ⟨reasonInvalidPayload, classPoison, ‹_›⟩
          rw [ht] at hw
          exact hw.elim
        · exact hw.elim
      | alreadyPending => simp [hans, Point.afterTryClaim, Warranted] at hw
      | alreadyDone => exact hsh.done _ (H.alreadyDone _ _ _ _ hans)
  | handle event =>
    cases hv
    simp only [Shared.answer] at hw
    rcases hres : ch.handler with (reason | reason) | ⟨⟩
    · simp only [hres, Point.afterHandler] at hw
      split at hw
      · obtain ⟨config, ht⟩ :=
          terminal_of_dlq (hdlq d.sub) ⟨reasonMaxRetriesExceeded, classTransientExhausted, reason⟩
        rw [ht] at hw
        exact hw.elim
      · exact hw.elim
    · obtain ⟨config, ht⟩ :=
        terminal_of_dlq (hdlq d.sub) ⟨reasonHandlerPermanent, classPermanent, reason⟩
      simp only [hres, Point.afterHandler, ht] at hw
      exact hw.elim
    · refine ⟨⟨i, d, sh.now, .handled (.ok ())⟩, ?_, rfl, .handled⟩
      simp [noted, Interface.addLine, hres]
  | publish config cause failedAt =>
    cases hv
    exact ⟨⟨i, d, sh.now, .dlqAcked⟩, by simp [noted, Interface.addLine], rfl, .dlqAcked⟩
  | markAck | markTerm =>
    cases hv
    exact (hp trivial).addLine i d _
  | ack | stamp config cause | term | release delay | nak delay =>
    cases hv
    exact hw.elim
  | finished => cases hv

/-- INTERNAL: a worker whose call has failed is at a warranted point only if it was at
one. -/
theorem warranted_of_lost {d d' : Delivery Γ} {p p' : Point E}
    (hnext : Lost (pointMachine Γ) d p (some (d', p'))) (hw : Warranted p') :
    d' = d ∧ Warranted p := by
  cases hnext with
  | failed hv hr =>
    refine ⟨rfl, ?_⟩
    cases p with
    | markAck | markTerm => trivial
    | claim =>
      cases hv
      obtain rfl := Option.some.inj hr
      exact hw.elim
    | publish config cause failedAt =>
      cases hv
      simp only [world, Call.failure] at hr
      split at hr
      · obtain rfl := Option.some.inj hr
        exact hw.elim
      · cases hr
    | handle event | stamp config cause =>
      cases hv
      cases hr
    | ack | term | release delay | nak delay =>
      cases hv
      exact hw.elim
    | finished => cases hv

/-- INTERNAL: a line that settles nothing keeps the store and the log founded. -/
theorem FoundedShared.addLine {H : Γ.store.Honest} {sh : Shared Γ} (hsh : FoundedShared H sh)
    (i : ℕ) (d : Delivery Γ) {what : Option Occurrence}
    (hw : ∀ w, what = some w → ¬ Occurrence.Settles w) :
    FoundedShared H ⟨sh.now, sh.store, sh.dlq, Interface.addLine sh i d what⟩ :=
  ⟨fun key hdone => (hsh.done key hdone).addLine i d what,
    hsh.settled.addLine i d fun w h hset => absurd hset (hw w h)⟩

/-- **Every step keeps the store, the log, the workers and the calls under way
founded.** -/
theorem founded_kept {H : Γ.store.Honest} (hdlq : ∀ sub, (Γ.options sub).dlqOpts.isSome) :
    (founded H).Kept (fun _ _ => True) fun sh sh' => sh.log ⊆ sh'.log where
  site_stable hlog hev hw := (hev hw).mono hlog
  underWay_stable hlog := fun ⟨p, hp, hev⟩ => ⟨p, hp, fun hw => (hev hw).mono hlog⟩
  start i d sh hsh _ := by
    have hline : ∀ w, some Occurrence.delivered = some w → ¬ Occurrence.Settles w := by
      rintro w hw hset
      obtain rfl := Option.some.inj hw
      cases hset
    rw [spawn_eq]
    refine ⟨fun e he => List.mem_cons_of_mem _ he, hsh.addLine i d hline, fun hw => ?_⟩
    rcases start_cases d with hstart | hstart <;>
      (rw [hstart] at hw; exact hw.elim)
  reach i d p sh hsh _ := by
    rw [reachPoint_eq]
    refine ⟨log_subset_addLine i d sh _, hsh.addLine i d fun w hw hset => ?_⟩
    cases p <;> cases hw
    cases hset
  made hev hc := ⟨_, hc, hev⟩
  effect seen i d c ch sh hsh hlicensed :=
    ⟨log_subset_effect seen i d c ch sh, hsh.effect hlicensed seen i ch⟩
  answered i d p c k ch sh hsh hev hv hw := hsh.answered hdlq i hev hv ch hw
  lost hsh hev hnext hw := by
    obtain ⟨rfl, hp⟩ := warranted_of_lost hnext hw
    exact hev hp
  drift e sh hsh :=
    ⟨fun _ he => he, fun key hdone =>
      hsh.done key (H.tick_done _ _ _ _ _ (Nat.le_add_right sh.now e.elapsed) hdone), hsh.settled⟩

/-- INTERNAL: every state of a run is founded. -/
theorem founded_always {H : Γ.store.Honest} (hdlq : ∀ sub, (Γ.options sub).dlqOpts.isSome)
    {now : ℕ} {store : Γ.store.State} (dlq : List DlqRecord)
    (hstore : ∀ key, ¬ H.isDone now store key) (as : List (Action (world Γ))) :
    Always (step (pointMachine Γ)) (founded H).Holds
      (fresh (pointMachine Γ) (.initial now store dlq)) as :=
  always_of_step (fun _ _ _ h hs => (founded_kept hdlq).step h (fun _ _ _ => trivial) hs)
    (.fresh ⟨fun key hdone => absurd hdone (hstore key), trivial⟩)

/-! ## The result -/

/-- **Settlement is never unfounded.**  Take any subscriptions with dead letter streams
over a store that is honest about done keys and has none at the beginning.  In every
state of every run, whatever is delivered, however the workers interleave, and whichever
calls fail, are lost or take effect late: a done key has evidence for its id, and every
ack and every term in the log comes after evidence for the id of its message.
SRC: subscriber.rs:398-596, dlq.rs:171-197 -/
theorem settlement_founded (Γ : Deployment U E) (H : Γ.store.Honest)
    (hdlq : ∀ sub, (Γ.options sub).dlqOpts.isSome) (now : ℕ) (store : Γ.store.State)
    (dlq : List DlqRecord) (hstore : ∀ key, ¬ H.isDone now store key)
    (as : List (Action (world Γ))) :
    Always (step (codeMachine Γ)) (fun s => FoundedShared H s.shared)
      (fresh (codeMachine Γ) (.initial now store dlq)) as := by
  refine (always_shared_hom (pointsOfCode Γ) _ as).mpr ?_
  exact (founded_always hdlq dlq hstore as).mono fun s hs => hs.shared

end

/-! ## A run -/

/-- A subscription to the stream `EVENTS` with a dead letter stream and five deliveries. -/
def eventsOptions (durable : String) : ProcessingOptions where
  dlqOpts := some {}
  source := "EVENTS"
  durable := durable
  maxDeliver := 5
  backoff := [.fromSecs 1, .fromSecs 5]

/-- Subscriptions named by their durables over one Redis store, with default settings. -/
def events : Deployment HyphenatedUuid Bytes :=
  .overRedis (.connect {}) eventsOptions (fun _ payload => .ok payload)
    fun _ => defaultDlqDuplicateWindow.asMillis

/-- Delivery number `delivered` of the message `streamSequence` with the id `id`. -/
def eventsDelivery (durable id : String) (streamSequence : ℕ) (delivered : ℤ) :
    Delivery events where
  sub := durable
  msg :=
    { subject := "events.order.created"
      headers := some [(hdrNatsMsgId, id)]
      payload := [123, 125]
      info := .ok ⟨streamSequence, delivered⟩ }

/-- Calls are answered by the store, and handlers return `result`. -/
def eventsChoice (result : Except HandlerError Unit) : Choice events :=
  ⟨(), result⟩

/-- A worker that runs undisturbed through `calls` calls. -/
def undisturbed (i : ℕ) (d : Delivery events) (result : Except HandlerError Unit)
    (calls : ℕ) : List (Action (world events)) :=
  .spawn i d :: (List.replicate calls [.serve i (eventsChoice result), .resume i]).flatten

/-- INTERNAL: the result on an undisturbed worker. -/
theorem settlement_founded_events :
    Always (step (codeMachine events))
      (fun s => FoundedShared (RedisIdempotencyStore.honest _) s.shared)
      (fresh (codeMachine events) (.initial 0 (fun _ => none) []))
      (undisturbed 0 (eventsDelivery "billing" "6ba7b810-9dad-11d1-80b4-00c04fd430c8" 1 1)
        (.ok ()) 4) := by
  have hempty : ∀ key, ¬ (RedisIdempotencyStore.honest (U := HyphenatedUuid)
      (.connect {})).isDone 0 (fun _ => none) key := by
    intro key hdone
    cases hdone
  exact settlement_founded events _ (fun _ => rfl) 0 _ [] hempty _

end EventBus.Analysis
