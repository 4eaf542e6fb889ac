import EventBus.Analysis.ClaimOwnership
import EventBus.Analysis.DeadLetters
import EventBus.Analysis.EffectivelyOnce

/-!
# No silent loss

The server delivers a message a bounded number of times, whatever becomes of the copies.
A copy that finds the claim of its message pending is sent back at once, so while one slow
worker holds the claim the other deliveries can be used up on refusals.  If the handler of
the slow worker then fails for a transient reason, and its own delivery was not the last
one, the claim is released for a retry that will never come.

The counterexample is such a run.  The result says what is enough for no message to be
lost: the last worker that could still handle the message does not give up its claim, and
is not refused the claim on account of another message with the same id.  The invariant
is `Hope`: a message is accounted for, or has deliveries left, or some copy of it may still
be handled.
-/

set_option autoImplicit false

namespace EventBus.Analysis

open EventBus.Model EventBus.Lib EventBus.Interface

variable {U E : Type} {Γ : Deployment U E}

/-! ## The deliveries of a message -/

/-- The line of a delivery. -/
def Delivers (e : Entry Γ) : Prop := e.what = .delivered

instance (e : Entry Γ) : Decidable (Delivers e) :=
  inferInstanceAs (Decidable (_ = _))

/-- The workers to which copies of a message were delivered. -/
def copies (origin : String × String × ℕ) (log : List (Entry Γ)) : List ℕ :=
  (log.filter fun e => decide (Delivers e ∧ e.delivery.origin = origin)).map Entry.worker

/-- INTERNAL: only a delivery makes a copy. -/
theorem copies_addLine {origin : String × String × ℕ} {sh : Shared Γ} {i : ℕ} {d : Delivery Γ}
    {what : Option Occurrence} (hw : what ≠ some .delivered) :
    copies origin (addLine sh i d what) = copies origin sh.log := by
  cases what with
  | none => rfl
  | some w =>
    have hnot : ¬ Delivers (⟨i, d, sh.now, w⟩ : Entry Γ) :=
      fun hdel => hw (congrArg some hdel)
    simp [copies, addLine, hnot]

/-- INTERNAL: only a delivery adds the line of one. -/
theorem delivers_addLine {sh : Shared Γ} {i : ℕ} {d : Delivery Γ} {what : Option Occurrence}
    (hw : what ≠ some .delivered) {e : Entry Γ} (he : e ∈ addLine sh i d what)
    (hdel : Delivers e) : e ∈ sh.log := by
  rcases of_mem_addLine i d sh he with hold | ⟨w, rfl, rfl⟩
  · exact hold
  · exact absurd (congrArg some hdel) hw

/-- INTERNAL: a delivery makes a copy of its own message. -/
theorem copies_delivered {origin : String × String × ℕ} {sh : Shared Γ} {i : ℕ} {d : Delivery Γ} :
    copies origin (addLine sh i d (some .delivered)) =
      if d.origin = origin then i :: copies origin sh.log else copies origin sh.log := by
  have hdel : Delivers (⟨i, d, sh.now, .delivered⟩ : Entry Γ) := rfl
  by_cases horigin : d.origin = origin
  · simp [copies, addLine, hdel, horigin]
  · simp [copies, addLine, horigin]

/-- INTERNAL: no call notes a delivery. -/
theorem noted_ne_delivered {seen : Bool} {c : Call U E} {ch : Choice Γ} {sh : Shared Γ} :
    noted seen c ch sh ≠ some .delivered := by
  intro h
  generalize hw : Occurrence.delivered = what at h
  cases notes_of_noted h <;> cases hw

/-- INTERNAL: the workers that were given a message. -/
theorem mem_copies {origin : String × String × ℕ} {log : List (Entry Γ)} {i : ℕ} :
    i ∈ copies origin log ↔
      ∃ e ∈ log, Delivers e ∧ e.delivery.origin = origin ∧ e.worker = i := by
  simp [copies, and_assoc]

/-- All deliveries of the message have been made. -/
def Exhausted (d : Delivery Γ) (log : List (Entry Γ)) : Prop :=
  ((copies d.origin log).length : ℤ) = d.options.maxDeliver

/-- The deliveries are of one message. -/
def SameMessage (d e : Delivery Γ) : Prop :=
  d.msg.subject = e.msg.subject ∧ d.msg.headers = e.msg.headers ∧ d.msg.payload = e.msg.payload

/-- The server delivers to one subscription: every copy of a message is the same but for
its delivery count, which counts the copies and does not exceed the limit.
SRC: consumer.rs:5-22 -/
def ServerDelivers (sub : Γ.Sub) {P : Type} (s : State (world Γ) P) (a : Action (world Γ))
    (_ : State (world Γ) P) : Prop :=
  match a with
  | .spawn _ d => d.sub = sub ∧ d.readable = true ∧
      d.info.delivered = (copies d.origin s.shared.log).length + 1 ∧
      d.info.delivered ≤ d.options.maxDeliver ∧
      ∀ e ∈ s.shared.log, e.delivery.origin = d.origin → SameMessage e.delivery d
  | _ => True

/-- The dead letter stream of the consumer has a record of the message. -/
def DeadLettered (dlq : List DlqRecord) (origin : String × String × ℕ) : Prop :=
  ∃ r ∈ dlq, r.subject = dlqSubject origin.1 origin.2.1 ∧ DlqRecord.isOf r origin

section

variable [UuidCrate U]

/-- The handler has returned `Ok` for the id of the message. -/
def HandledOk (log : List (Entry Γ)) (d : Delivery Γ) : Prop :=
  ∃ e ∈ log, e.delivery.msgId = d.msgId ∧ Succeeded e

/-- The message is handled or dead lettered. -/
def Accounted (sh : Shared Γ) (d : Delivery Γ) : Prop :=
  HandledOk sh.log d ∨ DeadLettered sh.dlq d.origin

/-- No message is lost: when all deliveries of a message have been made and have been
processed, the message is accounted for. -/
def NoLoss (s : State (world Γ) (Option (Call U E))) : Prop :=
  ∀ e ∈ s.shared.log, Delivers e → Exhausted e.delivery s.shared.log →
    (∀ i ∈ copies e.delivery.origin s.shared.log, s.ended i = true) →
      Accounted s.shared e.delivery

/-! ## The condition -/

/-- The calls after which a worker may still handle its message or dead letter it. -/
def Call.mayHandle : Call U E → Bool
  | .tryClaim _ => true
  | c => Call.ownsClaim c

/-- The call is a claim. -/
def Call.isTryClaim : Call U E → Bool
  | .tryClaim _ => true
  | _ => false

/-- The next call of the worker. -/
def nextCall (s : State (world Γ) (Option (Call U E))) (i : ℕ) : Option (Call U E) :=
  (s.sites i).bind Prod.snd

/-- The worker may still handle its message or dead letter it. -/
def MayHandle (s : State (world Γ) (Option (Call U E))) (i : ℕ) : Prop :=
  ∃ c ∈ nextCall s i, Call.mayHandle c = true

/-- The worker owns the claim of its message. -/
def OwnsClaim (s : State (world Γ) (Option (Call U E))) (i : ℕ) : Prop :=
  ∃ c ∈ nextCall s i, Call.ownsClaim c = true

/-- All deliveries of the message have been made, and no other copy of it may still be
handled. -/
def LastChance (s : State (world Γ) (Option (Call U E))) (i : ℕ) (d : Delivery Γ) : Prop :=
  Exhausted d s.shared.log ∧ ∀ j ∈ copies d.origin s.shared.log, j ≠ i → ¬ MayHandle s j

/-- Another message with the same id owns the claim, or has been handled or dead lettered. -/
def Rival (s : State (world Γ) (Option (Call U E))) (d : Delivery Γ) : Prop :=
  ∃ e ∈ s.shared.log, e.delivery.msgId = d.msgId ∧ e.delivery.origin ≠ d.origin ∧
    (Occurrence.IsEvidence e.what ∨ OwnsClaim s e.worker)

/-- The last chance of a message is not given away: its claim is not released, nor refused on
account of another message with the same id of which no handler has returned `Ok`. -/
def KeepsLastChance (s : State (world Γ) (Option (Call U E))) (a : Action (world Γ))
    (_ : State (world Γ) (Option (Call U E))) : Prop :=
  match a with
  | .serve i _ => ∀ x ∈ s.awaits i, LastChance s i x.1 →
      (releases x.2).isSome = false ∧
        (Call.isTryClaim x.2 = true → Rival s x.1 → HandledOk s.shared.log x.1)
  | _ => True

section Decidable

variable [DecidableEq U] [DecidableEq Γ.Sub]

instance (d e : Delivery Γ) : Decidable (SameMessage d e) :=
  inferInstanceAs (Decidable (_ ∧ _ ∧ _))

instance (d : Delivery Γ) (log : List (Entry Γ)) : Decidable (Exhausted d log) :=
  inferInstanceAs (Decidable (_ = _))

instance (sub : Γ.Sub) {P : Type} (s s' : State (world Γ) P) (a : Action (world Γ)) :
    Decidable (ServerDelivers sub s a s') :=
  match a with
  | .spawn _ _ => inferInstanceAs (Decidable (_ ∧ _ ∧ _ ∧ _ ∧ ∀ e ∈ s.shared.log, _))
  | .serve _ _ | .fail _ _ _ _ | .resume _ | .abort _ _ _ | .land _ _ | .drift _ => isTrue trivial

instance (dlq : List DlqRecord) (origin : String × String × ℕ) :
    Decidable (DeadLettered dlq origin) :=
  inferInstanceAs (Decidable (∃ r ∈ dlq, _))

instance (log : List (Entry Γ)) (d : Delivery Γ) : Decidable (HandledOk log d) :=
  inferInstanceAs (Decidable (∃ e ∈ log, _))

instance (sh : Shared Γ) (d : Delivery Γ) : Decidable (Accounted sh d) :=
  inferInstanceAs (Decidable (_ ∨ _))

instance (s : State (world Γ) (Option (Call U E))) : Decidable (NoLoss s) :=
  inferInstanceAs (Decidable (∀ e ∈ s.shared.log, _))

instance (s : State (world Γ) (Option (Call U E))) (i : ℕ) : Decidable (MayHandle s i) :=
  inferInstanceAs (Decidable (∃ c ∈ nextCall s i, _))

instance (s : State (world Γ) (Option (Call U E))) (i : ℕ) : Decidable (OwnsClaim s i) :=
  inferInstanceAs (Decidable (∃ c ∈ nextCall s i, _))

instance (s : State (world Γ) (Option (Call U E))) (i : ℕ) (d : Delivery Γ) :
    Decidable (LastChance s i d) :=
  inferInstanceAs (Decidable (_ ∧ ∀ j ∈ copies d.origin s.shared.log, _))

instance (s : State (world Γ) (Option (Call U E))) (d : Delivery Γ) : Decidable (Rival s d) :=
  inferInstanceAs (Decidable (∃ e ∈ s.shared.log, _))

instance (s s' : State (world Γ) (Option (Call U E))) (a : Action (world Γ)) :
    Decidable (KeepsLastChance s a s') :=
  match a with
  | .serve i _ => inferInstanceAs (Decidable (∀ x ∈ s.awaits i, _))
  | .spawn _ _ | .fail _ _ _ _ | .resume _ | .abort _ _ _ | .land _ _ | .drift _ => isTrue trivial

end Decidable

/-! ## The log and the workers -/

/-- The log and the workers agree, the deliveries are those of one subscription, and all
copies of a message have one id. -/
structure Books (sub : Γ.Sub) (s : State (world Γ) (Point E)) : Prop where
  placed : ∀ e ∈ s.shared.log, ∃ th, s.threads e.worker = some th ∧ th.job = e.delivery
  announced : ∀ i d p, s.sites i = some (d, p) →
    ∃ e ∈ s.shared.log, Delivers e ∧ e.worker = i ∧ e.delivery = d
  sub : ∀ e ∈ s.shared.log, e.delivery.sub = sub
  same : ∀ e ∈ s.shared.log, ∀ e' ∈ s.shared.log,
    e.delivery.origin = e'.delivery.origin → e.delivery.msgId = e'.delivery.msgId

section

variable {C : Γ.store.Contract} {sub : Γ.Sub} {s s' : State (world Γ) (Point E)}

/-- INTERNAL: the books stay in order while workers that were started go on. -/
theorem Books.goOn (hs : Books sub s)
    (hthreads : ∀ j th, s.threads j = some th → ∃ th', s'.threads j = some th' ∧ th'.job = th.job)
    (hsites : ∀ j d q, s'.sites j = some (d, q) → ∃ p, s.sites j = some (d, p))
    (hold : ∀ e ∈ s.shared.log, e ∈ s'.shared.log)
    (hnew : ∀ e ∈ s'.shared.log, e ∈ s.shared.log ∨ ∃ p, s.sites e.worker = some (e.delivery, p)) :
    Books sub s' := by
  -- every line is about a worker and a delivery that an older line is about
  have hknown : ∀ e ∈ s'.shared.log, ∃ e₀ ∈ s.shared.log,
      e₀.worker = e.worker ∧ e₀.delivery = e.delivery := by
    intro e he
    rcases hnew e he with hold | ⟨p, hp⟩
    · exact ⟨e, hold, rfl, rfl⟩
    · obtain ⟨e₀, he₀, -, hworker, hdelivery⟩ := hs.announced _ _ _ hp
      exact ⟨e₀, he₀, hworker, hdelivery⟩
  refine ⟨fun e he => ?_, fun i d p hi => ?_, fun e he => ?_, fun e he e' he' horigin => ?_⟩
  · obtain ⟨e₀, he₀, hworker, hdelivery⟩ := hknown e he
    obtain ⟨th, hth, hjob⟩ := hs.placed e₀ he₀
    obtain ⟨th', hth', hjob'⟩ := hthreads _ th hth
    exact ⟨th', hworker ▸ hth', by rw [hjob', hjob, hdelivery]⟩
  · obtain ⟨p₀, hp₀⟩ := hsites i d p hi
    obtain ⟨e, he, hrest⟩ := hs.announced i d p₀ hp₀
    exact ⟨e, hold e he, hrest⟩
  · obtain ⟨e₀, he₀, -, hdelivery⟩ := hknown e he
    exact hdelivery ▸ hs.sub e₀ he₀
  · obtain ⟨e₀, he₀, -, hdelivery⟩ := hknown e he
    obtain ⟨e₁, he₁, -, hdelivery'⟩ := hknown e' he'
    rw [← hdelivery, ← hdelivery'] at horigin ⊢
    exact hs.same e₀ he₀ e₁ he₁ horigin

/-- INTERNAL: the delivery of a worker is that of its lines. -/
theorem Books.copy (hs : Books sub s) {i : ℕ} {d : Delivery Γ} {p : Point E}
    (hi : s.sites i = some (d, p)) {l e : Entry Γ} (hl : l ∈ s.shared.log) (hworker : l.worker = i)
    (he : e ∈ s.shared.log) (horigin : l.delivery.origin = e.delivery.origin) :
    d.msgId = e.delivery.msgId ∧ d.origin = e.delivery.origin := by
  obtain ⟨th, hth, hjob⟩ := hs.placed l hl
  obtain ⟨th', hth', hjob'⟩ := job_of_sites s i hi
  rw [hworker, hth', Option.some.injEq] at hth
  have hd : d = l.delivery := by rw [← hjob', hth, hjob]
  rw [hd]
  exact ⟨hs.same l hl e he horigin, horigin⟩

/-- INTERNAL: all deliveries are made under the options of one subscription. -/
theorem Books.options (hs : Books sub s) {i : ℕ} {d : Delivery Γ} {p : Point E}
    (hi : s.sites i = some (d, p)) {e : Entry Γ} (he : e ∈ s.shared.log) :
    d.options = e.delivery.options := by
  obtain ⟨l, hl, -, -, rfl⟩ := hs.announced i d p hi
  rw [Delivery.options, Delivery.options, hs.sub l hl, hs.sub e he]

/-- INTERNAL: one message has one id for a consumer.
SRC: subscriber.rs:373-398 -/
theorem msgId_congr {d e : Delivery Γ} (hsub : d.sub = e.sub) (horigin : d.origin = e.origin)
    (hsame : SameMessage d e) : d.msgId = e.msgId := by
  have hseq : d.info.streamSequence = e.info.streamSequence :=
    congrArg (fun o : String × String × ℕ => o.2.2) horigin
  simp only [Delivery.msgId, messageId, Delivery.options, hsub, hsame.2.1, hseq]

/-- INTERNAL: the books stay in order in every calm step. -/
theorem Books.step {a : Action (world Γ)} (h : Lib.step (pointMachine Γ) s a = some s')
    (hcalm : Calm s a s') (hserver : ServerDelivers sub s a s') (hs : Books sub s) :
    Books sub s' := by
  have hthreads : ∀ j th, s.threads j = some th →
      ∃ th', s'.threads j = some th' ∧ th'.job = th.job :=
    fun j th hj => (step_cases h).job_eq hj
  cases hcalm with
  | spawn i d ha hi hsites hshared =>
    subst ha
    obtain ⟨hsub, -, -, -, hmsg⟩ := hserver
    have hlog : s'.shared.log = ⟨i, d, s.shared.now, .delivered⟩ :: s.shared.log := by
      rw [hshared]
      rfl
    have hidEq : ∀ e ∈ s.shared.log, e.delivery.origin = d.origin → e.delivery.msgId = d.msgId :=
      fun e he horigin => msgId_congr ((hs.sub e he).trans hsub.symm) horigin (hmsg e he horigin)
    refine ⟨?_, ?_, ?_, ?_⟩ <;> rw [hlog]
    · intro e he
      rcases List.mem_cons.mp he with rfl | hold
      · exact job_of_sites s' i (by rw [hsites, Function.update_self])
      · obtain ⟨th, hth, hjob⟩ := hs.placed e hold
        obtain ⟨th', hth', hjob'⟩ := hthreads _ th hth
        exact ⟨th', hth', hjob'.trans hjob⟩
    · rw [hsites]
      refine forall_sites_update (Q := fun j e _ => ∃ l ∈ s.shared.log, Delivers l ∧ l.worker = j ∧
        l.delivery = e) hs.announced (fun j e q _ hq => ?_) fun e q hq => ?_
      · obtain ⟨l, hl, hrest⟩ := hq
        exact ⟨l, List.mem_cons_of_mem _ hl, hrest⟩
      · obtain ⟨rfl, rfl⟩ := Prod.mk.inj (Option.some.inj hq)
        exact ⟨_, List.mem_cons_self, rfl, rfl, rfl⟩
    · intro e he
      rcases List.mem_cons.mp he with rfl | hold
      · exact hsub
      · exact hs.sub e hold
    · intro e he e' he' horigin
      rcases List.mem_cons.mp he with rfl | hold <;> rcases List.mem_cons.mp he' with rfl | hold'
      · rfl
      · exact (hidEq e' hold' horigin.symm).symm
      · exact hidEq e hold horigin
      · exact hs.same e hold e' hold' horigin
  | reach i d p ha hi hsites hshared =>
    refine hs.goOn hthreads (fun j e q hj => ⟨q, hsites ▸ hj⟩) ?_ ?_ <;> rw [hshared]
    · exact fun e he => mem_addLine i d s.shared _ he
    · intro e he
      rcases of_mem_addLine i d s.shared he with hold | ⟨w, -, rfl⟩
      · exact .inl hold
      · exact .inr ⟨p, sites_of_threads s i hi⟩
  | serve i ch d p c k ha hi hv hsites hshared =>
    have hsite : s.sites i = some (d, p) := sites_of_threads s i hi
    refine hs.goOn hthreads ?_ ?_ ?_
    · rw [hsites]
      refine forall_sites_update (Q := fun j e _ => ∃ q, s.sites j = some (e, q))
        (fun j e q hj => ⟨q, hj⟩) (fun j e q _ hq => hq) fun e q hq => ?_
      obtain ⟨rfl, -⟩ := Prod.mk.inj (Option.some.inj hq)
      exact ⟨p, hsite⟩
    · rw [hshared]
      exact fun e he => mem_addLine i d s.shared _ he
    · rw [hshared]
      intro e he
      rcases of_mem_addLine i d s.shared he with hold | ⟨w, -, rfl⟩
      · exact .inl hold
      · exact .inr ⟨p, hsite⟩
  | drift e ha hsites hshared =>
    refine hs.goOn hthreads (fun j e q hj => ⟨q, hsites ▸ hj⟩) ?_ ?_ <;> rw [hshared]
    · exact fun e he => he
    · exact fun e he => .inl he

/-! ## What is concluded -/

/-- Done keys have evidence for their id, and workers that are about to mark a key done have
evidence of their own delivery. -/
structure Concluded (C : Γ.store.Contract) (s : State (world Γ) (Point E)) : Prop where
  done : ∀ key, statusOf C s key = .done → Evidence (fun d => d.msgId = key) s.shared.log
  sites : ∀ i d p, s.sites i = some (d, p) → Marking p → Evidence (fun e => e = d) s.shared.log

omit [UuidCrate U] in
/-- INTERNAL: with dead letters, failing for good marks nothing at first. -/
theorem not_marking_terminal {d : Delivery Γ} (hdlq : d.options.dlqOpts.isSome) (cause : Cause) :
    ¬ Marking (Point.terminal d cause : Point E) := by
  obtain ⟨config, ht⟩ := terminal_of_dlq (E := E) hdlq cause
  rw [ht]
  rintro ⟨⟩

omit [UuidCrate U] in
/-- INTERNAL: with dead letters, what comes after the claim marks nothing at first. -/
theorem not_marking_afterClaim {d : Delivery Γ} (hdlq : d.options.dlqOpts.isSome) :
    ¬ Marking (Point.afterClaim d : Point E) := by
  unfold Point.afterClaim
  split
  · exact not_marking_terminal hdlq _
  · rintro ⟨⟩

/-- INTERNAL: with a dead letter stream, a worker comes to mark a key done on evidence. -/
theorem evidence_of_answer {d : Delivery Γ} (hdlq : d.options.dlqOpts.isSome) {p : Point E}
    {c : Call U E} {k : c.Resp → Point E} (hv : Point.view d p = some ⟨c, k⟩) (i : ℕ)
    (ch : Choice Γ) (sh : Shared Γ) (hq : Marking (k (Shared.answer c ch sh))) :
    Evidence (fun e => e = d) (addLine sh i d (noted true c ch sh)) := by
  cases p with
  | handle event =>
    cases hv
    simp only [Shared.answer] at hq
    rcases hres : ch.handler with (reason | reason) | ⟨⟩ <;>
      simp only [hres, Point.afterHandler] at hq
    · split at hq
      · exact absurd hq (not_marking_terminal hdlq _)
      · cases hq
    · exact absurd hq (not_marking_terminal hdlq _)
    · exact ⟨⟨i, d, sh.now, .handled (.ok ())⟩, by simp [noted, addLine, hres], rfl, .handled⟩
  | publish config cause failedAt =>
    cases hv
    exact ⟨⟨i, d, sh.now, .dlqAcked⟩, by simp [noted, addLine], rfl, .dlqAcked⟩
  | claim =>
    cases hv
    generalize hans : Shared.answer (.tryClaim d.msgId) ch sh = answer at hq
    rcases answer with e | (_ | _ | _)
    · cases hq
    · exact absurd hq (not_marking_afterClaim hdlq)
    · cases hq
    · cases hq
  | finished => cases hv
  | _ => cases hv; cases hq

/-- INTERNAL: conclusions stay founded in every calm step in which no entry expires. -/
theorem Concluded.step {a : Action (world Γ)} (hdlq : ∀ i d p, s.sites i = some (d, p) →
      d.options.dlqOpts.isSome) (hcalm : Calm s a s') (hlive : NoExpiry C s a s')
    (hs : Concluded C s) : Concluded C s' := by
  cases hcalm with
  | spawn i d ha hi hsites hshared =>
    have hlog : s'.shared.log = addLine s.shared i d (some .delivered) := by rw [hshared]
    refine ⟨fun key hdone => ?_, ?_⟩
    · rw [statusOf, hshared] at hdone
      rw [hlog]
      exact (hs.done key hdone).addLine i d _
    · rw [hsites, hlog]
      refine forall_sites_update hs.sites (fun j e q _ hev hq => (hev hq).addLine i d _) ?_
      intro e q hn hq
      obtain ⟨rfl, rfl⟩ := Prod.mk.inj (Option.some.inj hn)
      rcases start_cases d with hstart | hstart <;> (rw [hstart] at hq; cases hq)
  | reach i d p ha hi hsites hshared =>
    have hlog : s'.shared.log = addLine s.shared i d (reachLine p) := by rw [hshared]
    refine ⟨fun key hdone => ?_, fun j e q hj hq => ?_⟩
    · rw [statusOf, hshared] at hdone
      rw [hlog]
      exact (hs.done key hdone).addLine i d _
    · rw [hlog]
      exact (hs.sites j e q (hsites ▸ hj) hq).addLine i d _
  | serve i ch d p c k ha hi hv hsites hshared =>
    have hsite : s.sites i = some (d, p) := sites_of_threads s i hi
    have hlog : s'.shared.log = addLine s.shared i d (noted true c ch s.shared) := by
      rw [hshared]
    refine ⟨fun key hdone => ?_, ?_⟩
    · have hdone : C.status s.shared.now (storeAfter c ch s.shared) key = .done := by
        rw [statusOf, hshared] at hdone
        exact hdone
      rw [hlog]
      rcases done_of_storeAfter C hdone with hold | rfl
      · exact (hs.done key hold).addLine i d _
      · have hmark : Marking p ∧ key = d.msgId := by
          cases p <;> cases hv
          · exact ⟨.markAck, rfl⟩
          · exact ⟨.markTerm, rfl⟩
        obtain ⟨e, he, rfl, hev⟩ := hs.sites i d p hsite hmark.1
        exact ⟨e, mem_addLine i _ s.shared _ he, hmark.2.symm, hev⟩
    · rw [hsites, hlog]
      refine forall_sites_update hs.sites (fun j e q _ hev hq => (hev hq).addLine i d _) ?_
      intro e q hn hq
      obtain ⟨rfl, rfl⟩ := Prod.mk.inj (Option.some.inj hn)
      exact evidence_of_answer (hdlq i d p hsite) hv i ch s.shared hq
  | drift e ha hsites hshared =>
    subst ha
    have hlog : s'.shared.log = s.shared.log := by rw [hshared]
    refine ⟨fun key hdone => ?_, ?_⟩
    · rw [hlog]
      exact hs.done key ((hlive key).symm.trans hdone)
    · rw [hsites, hlog]
      exact hs.sites

/-! ## What is dead lettered -/

omit [UuidCrate U] in
/-- INTERNAL: what is dead lettered stays so. -/
theorem DeadLettered.mono {dlq dlq' : List DlqRecord} {origin : String × String × ℕ}
    (h : DeadLettered dlq origin) (hsub : ∀ r ∈ dlq, r ∈ dlq') : DeadLettered dlq' origin := by
  obtain ⟨r, hr, hrest⟩ := h
  exact ⟨r, hsub r hr, hrest⟩

omit [UuidCrate U] in
/-- INTERNAL: no dead letter is removed. -/
theorem mem_dlqAfter {c : Call U E} {sh : Shared Γ} {r : DlqRecord} (hr : r ∈ sh.dlq) :
    r ∈ dlqAfter c sh := by
  cases c with
  | publishWithHeaders subject headers payload timeout =>
    rw [dlqAfter, publish_dlq]
    split
    · exact hr
    · exact List.mem_cons_of_mem _ hr
  | _ => exact hr

/-- Acknowledged publishes are stored, and the dead letter stream of the subscription holds
nothing but dead letters of its deliveries. -/
structure Filed (sub : Γ.Sub) (sh : Shared Γ) : Prop where
  acked : ∀ e ∈ sh.log, e.what = .dlqAcked → DeadLettered sh.dlq e.delivery.origin
  made : ∀ r ∈ sh.dlq, r.subject = dlqSubject (Γ.options sub).source (Γ.options sub).durable →
    ∃ (cause : Cause) (d : Delivery Γ) (failedAt : String),
      d.sub = sub ∧ r.headers = cause.headers d failedAt

/-- INTERNAL: a dead letter publish is stored, or its message was dead lettered before. -/
theorem Filed.publish {sh : Shared Γ} (hs : Filed sub sh) {d : Delivery Γ} (hsub : d.sub = sub)
    (cause : Cause) (failedAt : String) (payload : Bytes) :
    DeadLettered (sh.publish (dlqSubject d.options.source d.options.durable)
      (cause.headers d failedAt) payload).dlq d.origin := by
  rw [publish_dlq, headers_msgId]
  split
  · rename_i hdup
    obtain ⟨r, hr, hsubject, hid, -⟩ := isDuplicate_iff.mp hdup
    have hopts : d.options = Γ.options sub := by rw [Delivery.options, hsub]
    obtain ⟨cause', d', failedAt', hsub', hheaders⟩ := hs.made r hr (hopts ▸ hsubject)
    refine ⟨r, hr, hsubject, ?_⟩
    -- the record is of a delivery with the same id, so of the same message
    have hopts' : d'.options = d.options := by rw [Delivery.options, Delivery.options, hsub', hsub]
    rw [hheaders, headers_msgId] at hid
    have hseq := (dedupId_injective (congrArg ProcessingOptions.source hopts')
      (congrArg ProcessingOptions.durable hopts') (Option.some.inj hid)).1
    have horigin : d'.origin = d.origin := by
      simp only [Delivery.origin, hopts']
      exact congrArg _ (congrArg _ hseq)
    exact (isOf_iff_of_headers hheaders d.origin).mpr horigin
  · exact ⟨_, List.mem_cons_self, rfl, (isOf_headers ..).mpr rfl⟩

/-- INTERNAL: the files stay in order in every calm step. -/
theorem Filed.step {a : Action (world Γ)} (hsub : ∀ i d p, s.sites i = some (d, p) → d.sub = sub)
    (hcalm : Calm s a s') (hs : Filed sub s.shared) : Filed sub s'.shared := by
  have hquiet : ∀ {i : ℕ} {d : Delivery Γ} {what : Option Occurrence},
      what ≠ some .dlqAcked → ∀ e ∈ addLine s.shared i d what, e.what = .dlqAcked →
        DeadLettered s.shared.dlq e.delivery.origin := by
    intro i d what hw e he hacked
    rcases of_mem_addLine i d s.shared he with hold | ⟨w, rfl, rfl⟩
    · exact hs.acked e hold hacked
    · exact absurd (congrArg some hacked) hw
  -- a step that makes no publish
  have hkeep : ∀ {i : ℕ} {d : Delivery Γ} {what : Option Occurrence},
      s'.shared.log = addLine s.shared i d what → what ≠ some .dlqAcked →
      s'.shared.dlq = s.shared.dlq → Filed sub s'.shared := by
    intro i d what hlog hw hdlq
    refine ⟨?_, hdlq ▸ hs.made⟩
    rw [hlog, hdlq]
    exact hquiet hw
  cases hcalm with
  | spawn i d ha hi hsites hshared =>
    exact hkeep (i := i) (d := d) (by rw [hshared]) (by simp) (by rw [hshared])
  | reach i d p ha hi hsites hshared =>
    refine hkeep (i := i) (d := d) (by rw [hshared]) ?_ (by rw [hshared])
    cases p <;> simp [reachLine]
  | serve i ch d p c k ha hi hv hsites hshared =>
    have hsite : s.sites i = some (d, p) := sites_of_threads s i hi
    have hlog : s'.shared.log = addLine s.shared i d (noted true c ch s.shared) := by
      rw [hshared]
    have hdlq : s'.shared.dlq = dlqAfter c s.shared := by rw [hshared]
    by_cases hpub : ∃ config cause failedAt, p = .publish config cause failedAt
    · obtain ⟨config, cause, failedAt, rfl⟩ := hpub
      cases hv
      have hfiled := hs.publish (hsub i d _ hsite) cause failedAt d.msg.payload
      refine ⟨fun e he hacked => ?_, fun r hr hsubject => ?_⟩
      · rw [hlog] at he
        rw [hdlq]
        rcases of_mem_addLine i d s.shared he with hold | ⟨w, -, rfl⟩
        · exact (hs.acked e hold hacked).mono fun r hr => mem_dlqAfter hr
        · exact hfiled
      · rw [hdlq, dlqAfter, publish_dlq] at hr
        split at hr
        · exact hs.made r hr hsubject
        · rcases List.mem_cons.mp hr with rfl | hold
          · exact ⟨cause, d, failedAt, hsub i d _ hsite, rfl⟩
          · exact hs.made r hold hsubject
    · refine hkeep hlog (fun hw => ?_) (hdlq.trans ?_)
      · generalize hwhat : Occurrence.dlqAcked = what at hw
        cases notes_of_noted hw with
        | dlqAcked subject headers payload timeout hseen =>
          cases p <;> cases hv
          exact hpub ⟨_, _, _, rfl⟩
        | _ => cases hwhat
      · refine dlqAfter_of_not_publish s.shared ?_
        rintro subject headers payload timeout rfl
        cases p <;> cases hv
        exact hpub ⟨_, _, _, rfl⟩
  | drift e ha hsites hshared =>
    have hlog : s'.shared.log = s.shared.log := by rw [hshared]
    have hdlq : s'.shared.dlq = s.shared.dlq := by rw [hshared]
    refine ⟨?_, hdlq ▸ hs.made⟩
    rw [hlog, hdlq]
    exact hs.acked

/-! ## Hope -/

omit [UuidCrate U] in
/-- The points from which a worker may still handle its message or dead letter it. -/
def Hopeful (p : Point E) : Prop := p = .claim ∨ Owner p

/-- Some copy of the message may still be handled or dead lettered. -/
def HasHope (s : State (world Γ) (Point E)) (origin : String × String × ℕ) : Prop :=
  ∃ i d p, i ∈ copies origin s.shared.log ∧ s.sites i = some (d, p) ∧ Hopeful p

/-- A message that has no deliveries left is accounted for, or some copy of it may still be
handled or dead lettered. -/
def Hope (s : State (world Γ) (Point E)) : Prop :=
  ∀ e ∈ s.shared.log, Delivers e → Exhausted e.delivery s.shared.log →
    Accounted s.shared e.delivery ∨ HasHope s e.delivery.origin

/-- INTERNAL: a worker has hope exactly when its next call says so. -/
theorem hopeful_iff {d : Delivery Γ} {p : Point E} :
    Hopeful p ↔ ∃ c, (pointMachine Γ).head d p = some c ∧ Call.mayHandle c = true := by
  constructor
  · rintro (rfl | hp)
    · exact ⟨_, rfl, rfl⟩
    · obtain ⟨c, hc, howns⟩ := (owner_iff (d := d)).mp hp
      refine ⟨c, hc, ?_⟩
      cases c <;> first | rfl | exact howns
  · rintro ⟨c, hc, hmay⟩
    cases p with
    | claim => exact .inl rfl
    | _ => exact .inr ((owner_iff (d := d)).mpr ⟨c, hc, by cases hc <;> exact hmay⟩)

omit [UuidCrate U] in
/-- INTERNAL: a worker that has returned makes no more calls. -/
theorem nextCall_of_ended {s : State (world Γ) (Option (Call U E))} {i : ℕ}
    (hended : s.ended i = true) : nextCall s i = none := by
  unfold State.ended at hended
  split at hended
  · rename_i job hi
    rw [nextCall, sites_of_threads s i hi]
    rfl
  · cases hended

/-- INTERNAL: the next call of a worker can be seen. -/
theorem nextCall_look {i : ℕ} {d : Delivery Γ} {p : Point E} (hi : s.sites i = some (d, p)) :
    nextCall (look (pointMachine Γ) s) i = (pointMachine Γ).head d p := by
  rw [nextCall, look_sites, hi]
  rfl

/-- INTERNAL: whether a worker may yet handle its message can be seen. -/
theorem mayHandle_look {i : ℕ} :
    MayHandle (look (pointMachine Γ) s) i ↔ ∃ d p, s.sites i = some (d, p) ∧ Hopeful p := by
  constructor
  · rintro ⟨c, hc, hmay⟩
    cases hi : s.sites i with
    | none =>
      rw [nextCall, look_sites, hi] at hc
      cases hc
    | some x =>
      refine ⟨x.1, x.2, rfl, (hopeful_iff (d := x.1)).mpr ⟨c, ?_, hmay⟩⟩
      rw [← nextCall_look hi]
      exact hc
  · rintro ⟨d, p, hi, hp⟩
    obtain ⟨c, hc, hmay⟩ := (hopeful_iff (d := d)).mp hp
    exact ⟨c, (nextCall_look hi).trans hc, hmay⟩

/-- INTERNAL: that a worker owns its claim can be seen. -/
theorem ownsClaim_look {i : ℕ} {d : Delivery Γ} {p : Point E} (hi : s.sites i = some (d, p))
    (hp : Owner p) : OwnsClaim (look (pointMachine Γ) s) i := by
  obtain ⟨c, hc, howns⟩ := (owner_iff (d := d)).mp hp
  exact ⟨c, (nextCall_look hi).trans hc, howns⟩

/-- INTERNAL: a message that is accounted for stays so. -/
theorem Accounted.mono {sh sh' : Shared Γ} {d : Delivery Γ} (h : Accounted sh d)
    (hlog : ∀ e ∈ sh.log, e ∈ sh'.log) (hdlq : ∀ r ∈ sh.dlq, r ∈ sh'.dlq) :
    Accounted sh' d := by
  rcases h with ⟨e, he, hrest⟩ | h
  · exact .inl ⟨e, hlog e he, hrest⟩
  · exact .inr (h.mono hdlq)

/-- INTERNAL: a message is accounted for with all its deliveries. -/
theorem Accounted.congr {sh : Shared Γ} {d e : Delivery Γ} (h : Accounted sh d)
    (hid : d.msgId = e.msgId) (horigin : d.origin = e.origin) : Accounted sh e := by
  unfold Accounted HandledOk at h ⊢
  rwa [← hid, ← horigin]

/-- INTERNAL: evidence of the message itself accounts for it. -/
theorem Filed.accounted {sh : Shared Γ} (hs : Filed sub sh) {d : Delivery Γ} {e : Entry Γ}
    (he : e ∈ sh.log) (hid : e.delivery.msgId = d.msgId) (horigin : e.delivery.origin = d.origin)
    (hev : Occurrence.IsEvidence e.what) : Accounted sh d := by
  generalize hw : e.what = what at hev
  cases hev with
  | handled => exact .inl ⟨e, he, hid, hw⟩
  | dlqAcked => exact .inr (horigin ▸ hs.acked e he hw)

/-- The invariant. -/
structure Kept (C : Γ.store.Contract) (sub : Γ.Sub) (s : State (world Γ) (Point E)) : Prop where
  ownership : Ownership C s
  owned : AllOwned C s
  books : Books sub s
  concluded : Concluded C s
  filed : Filed sub s.shared
  hope : Hope s

/-- INTERNAL: the claim of a message with one last chance is granted, or the message is
accounted for. -/
theorem Kept.claim (hs : Kept C sub s) {i : ℕ} {d : Delivery Γ} {ch : Choice Γ}
    (hi : s.sites i = some (d, .claim))
    (hserves : storeServes (E := E) (.tryClaim d.msgId) ch s.shared = true)
    (hlast : LastChance (look (pointMachine Γ) s) i d)
    (hrival : Rival (look (pointMachine Γ) s) d → HandledOk s.shared.log d) :
    (Γ.store.tryClaim s.shared.now ch.store d.msgId s.shared.store).1 = .ok .claimed ∨
      Accounted s.shared d := by
  cases hstatus : C.status s.shared.now s.shared.store d.msgId with
  | absent => exact .inl (granted_of_serves C hserves hstatus)
  | pending =>
    -- the owner is no copy of the message, since no other copy has hope
    obtain ⟨j, e, q, hj, hq, hid⟩ := hs.owned _ hstatus
    obtain ⟨l, hl, hdel, rfl, rfl⟩ := hs.books.announced j e q hj
    have horigin : l.delivery.origin ≠ d.origin := by
      intro horigin
      have hne : l.worker ≠ i := by
        intro hji
        rw [hji, hi] at hj
        obtain ⟨-, rfl⟩ := Prod.mk.inj (Option.some.inj hj)
        cases hq
      refine hlast.2 l.worker (mem_copies.mpr ⟨l, hl, hdel, horigin, rfl⟩) hne ?_
      exact mayHandle_look.mpr ⟨_, q, hj, .inr hq⟩
    exact .inr (.inl (hrival ⟨l, hl, hid, horigin, .inr (ownsClaim_look hj hq)⟩))
  | done =>
    obtain ⟨e, he, hid, hev⟩ := hs.concluded.done _ hstatus
    by_cases horigin : e.delivery.origin = d.origin
    · exact .inr (hs.filed.accounted he hid horigin hev)
    · exact .inr (.inl (hrival ⟨e, he, hid, horigin, .inl hev⟩))

/-- INTERNAL: a worker that is the last chance of its message and gives up hope has accounted
for it. -/
theorem Kept.accounted (hs : Kept C sub s) {i : ℕ} {d : Delivery Γ} {p : Point E}
    {c : Call U E} {k : c.Resp → Point E} {ch : Choice Γ}
    (hi : s.threads i = some ⟨d, .waiting p⟩) (hv : Point.view d p = some ⟨c, k⟩)
    (hserves : storeServes c ch s.shared = true)
    (hkeeps : KeepsLastChance (look (pointMachine Γ) s) (.serve i ch)
      (look (pointMachine Γ) s'))
    (hlast : LastChance (look (pointMachine Γ) s) i d) (hp : Hopeful p)
    (hnext : ¬ Hopeful (k (Shared.answer c ch s.shared))) : Accounted s.shared d := by
  have hsite : s.sites i = some (d, p) := sites_of_threads s i hi
  have hc : (pointMachine Γ).head d p = some c := Machine.head_of_view hv
  obtain ⟨hrelease, hrival⟩ := hkeeps (d, c) (look_waiting hi hc) hlast
  rcases hp with rfl | hp
  · cases hv
    rcases hs.claim hsite hserves hlast (hrival rfl) with hgranted | hdone
    · refine absurd (.inr ?_) hnext
      simp only [Shared.answer, hgranted, Point.afterTryClaim]
      exact owner_afterClaim d
    · exact hdone
  · cases hends : ends c with
    | none => exact absurd (.inr (owner_of_answer hv hp hends _)) hnext
    | some key =>
      have hmark : Marking p → Accounted s.shared d := by
        intro hmark
        obtain ⟨e, he, rfl, hev⟩ := hs.concluded.sites i d p hsite hmark
        exact hs.filed.accounted he rfl rfl hev
      cases hp with
      | markAck => exact hmark .markAck
      | markTerm => exact hmark .markTerm
      | release delay =>
        cases hv
        cases hrelease
      | handle event => cases hv; cases hends
      | stamp config cause => cases hv; cases hends
      | publish config cause failedAt => cases hv; cases hends

/-- INTERNAL: hope stays while the log grows by lines that are no deliveries and every site
that had hope is still there. -/
theorem Hope.same (hs : Hope s) (hcopies : ∀ origin,
      copies origin s'.shared.log = copies origin s.shared.log)
    (hnew : ∀ e ∈ s'.shared.log, Delivers e → e ∈ s.shared.log)
    (hlog : ∀ e ∈ s.shared.log, e ∈ s'.shared.log) (hdlq : ∀ r ∈ s.shared.dlq, r ∈ s'.shared.dlq)
    (hsites : ∀ e ∈ s.shared.log, Delivers e → Exhausted e.delivery s.shared.log →
      HasHope s e.delivery.origin → Accounted s.shared e.delivery ∨ ∃ i d p,
        i ∈ copies e.delivery.origin s.shared.log ∧ s'.sites i = some (d, p) ∧ Hopeful p) :
    Hope s' := by
  intro e he hdel hex
  have hold := hnew e he hdel
  have hex : Exhausted e.delivery s.shared.log := by
    rw [Exhausted, ← hcopies]
    exact hex
  have hacc : Accounted s.shared e.delivery → Accounted s'.shared e.delivery :=
    fun h => h.mono hlog hdlq
  rcases hs e hold hdel hex with h | h
  · exact .inl (hacc h)
  · rcases hsites e hold hdel hex h with h | ⟨i, d, p, hi, hrest⟩
    · exact .inl (hacc h)
    · exact .inr ⟨i, d, p, (hcopies _).symm ▸ hi, hrest⟩

/-- INTERNAL: when a worker moves, another copy of the message has hope, or the worker still
has, or it was the last chance and has accounted for the message. -/
theorem Kept.hope_left (hs : Kept C sub s) {i : ℕ} {d : Delivery Γ} {p : Point E}
    {c : Call U E} {k : c.Resp → Point E} {ch : Choice Γ}
    (hi : s.threads i = some ⟨d, .waiting p⟩) (hv : Point.view d p = some ⟨c, k⟩)
    (hserves : storeServes c ch s.shared = true)
    (hkeeps : KeepsLastChance (look (pointMachine Γ) s) (.serve i ch)
      (look (pointMachine Γ) s'))
    (hsites : s'.sites =
      Function.update s.sites i (some (d, k (Shared.answer c ch s.shared))))
    {e : Entry Γ} (he : e ∈ s.shared.log) (hex : Exhausted e.delivery s.shared.log)
    (hhope : HasHope s e.delivery.origin) :
    Accounted s.shared e.delivery ∨ ∃ i d p,
      i ∈ copies e.delivery.origin s.shared.log ∧ s'.sites i = some (d, p) ∧ Hopeful p := by
  have hsite : s.sites i = some (d, p) := sites_of_threads s i hi
  obtain ⟨j, e', q, hj, hjsite, hq⟩ := hhope
  by_cases hother : ∃ j ∈ copies e.delivery.origin s.shared.log, j ≠ i ∧
      MayHandle (look (pointMachine Γ) s) j
  · obtain ⟨j, hj, hji, hmay⟩ := hother
    obtain ⟨e', q, hjsite, hq⟩ := mayHandle_look.mp hmay
    refine .inr ⟨j, e', q, hj, ?_, hq⟩
    rw [hsites, Function.update_of_ne hji, hjsite]
  · -- the worker that moves is the only copy with hope
    have hji : j = i := by
      by_contra hji
      exact hother ⟨j, hj, hji, mayHandle_look.mpr ⟨e', q, hjsite, hq⟩⟩
    subst hji
    obtain ⟨rfl, rfl⟩ := Prod.mk.inj (Option.some.inj (hsite.symm.trans hjsite))
    by_cases hnext : Hopeful (k (Shared.answer c ch s.shared))
    · exact .inr ⟨j, d, _, hj, by rw [hsites, Function.update_self], hnext⟩
    · obtain ⟨l, hl, -, horigin, hworker⟩ := mem_copies.mp hj
      obtain ⟨hid, ho⟩ := hs.books.copy hsite hl hworker he horigin
      have hlast : LastChance (look (pointMachine Γ) s) j d := by
        refine ⟨?_, fun j' hj' hne hmay => hother ⟨j', ?_, hne, hmay⟩⟩
        · rw [Exhausted, ho]
          exact hex.trans (congrArg ProcessingOptions.maxDeliver
            (hs.books.options hsite he).symm)
        · rw [← ho]
          exact hj'
      exact .inl ((hs.accounted hi hv hserves hkeeps hlast hq hnext).congr hid ho)

/-- **No calm step that keeps the last chances takes the hope of a message.** -/
theorem Kept.hope_step {a : Action (world Γ)} (hcalm : Calm s a s')
    (hworks : Works (look (pointMachine Γ) s) a (look (pointMachine Γ) s'))
    (hserver : ServerDelivers sub s a s')
    (hkeeps : KeepsLastChance (look (pointMachine Γ) s) a (look (pointMachine Γ) s'))
    (hs : Kept C sub s) : Hope s' := by
  cases hcalm with
  | spawn i d ha hi hsites hshared =>
    subst ha
    obtain ⟨-, hreadable, -⟩ := hserver
    have hlog : s'.shared.log = addLine s.shared i d (some .delivered) := by rw [hshared]
    have hdlq : s'.shared.dlq = s.shared.dlq := by rw [hshared]
    intro e he hdel hex
    by_cases horigin : d.origin = e.delivery.origin
    · -- the new copy is about to claim
      refine .inr ⟨i, d, .claim, ?_, ?_, .inl rfl⟩
      · rw [hlog, copies_delivered, if_pos horigin]
        exact List.mem_cons_self
      · rw [hsites, Function.update_self]
        exact congrArg (fun p => some (d, p)) (if_pos hreadable)
    · rw [hlog] at he
      have hcopies : copies e.delivery.origin s'.shared.log =
          copies e.delivery.origin s.shared.log := by
        rw [hlog, copies_delivered, if_neg horigin]
      have hold : e ∈ s.shared.log := by
        rcases of_mem_addLine i d s.shared he with hold | ⟨w, -, rfl⟩
        · exact hold
        · exact absurd rfl horigin
      have hex : Exhausted e.delivery s.shared.log := by
        rw [Exhausted, ← hcopies]
        exact hex
      rcases hs.hope e hold hdel hex with h | ⟨j, e', q, hj, hsite, hq⟩
      · refine .inl (h.mono (fun l hl => ?_) fun r hr => hdlq ▸ hr)
        rw [hlog]
        exact mem_addLine i d s.shared _ hl
      · refine .inr ⟨j, e', q, hcopies ▸ hj, ?_, hq⟩
        have hji : j ≠ i := by
          rintro rfl
          rw [sites_none s j hi] at hsite
          cases hsite
        rw [hsites, Function.update_of_ne hji, hsite]
  | reach i d p ha hi hsites hshared =>
    have hlog : s'.shared.log = addLine s.shared i d (reachLine p) := by rw [hshared]
    have hw : reachLine p ≠ some .delivered := by cases p <;> simp [reachLine]
    refine hs.hope.same (fun origin => ?_) (fun e he hdel => ?_) (fun e he => ?_)
      (fun r hr => ?_) ?_
    · rw [hlog, copies_addLine hw]
    · rw [hlog] at he
      exact delivers_addLine hw he hdel
    · rw [hlog]
      exact mem_addLine i d s.shared _ he
    · rw [hshared]
      exact hr
    · rw [hsites]
      rintro e - - - ⟨j, e', q, hj, hrest⟩
      exact .inr ⟨j, e', q, hj, hrest⟩
  | serve i ch d p c k ha hi hv hsites hshared =>
    subst ha
    have hlog : s'.shared.log = addLine s.shared i d (noted true c ch s.shared) := by
      rw [hshared]
    have hc : (pointMachine Γ).head d p = some c := Machine.head_of_view hv
    have hserves : storeServes c ch s.shared = true := hworks (d, c) (look_waiting hi hc)
    refine hs.hope.same (fun origin => ?_) (fun e he hdel => ?_) (fun e he => ?_)
      (fun r hr => ?_) ?_
    · rw [hlog, copies_addLine noted_ne_delivered]
    · rw [hlog] at he
      exact delivers_addLine noted_ne_delivered he hdel
    · rw [hlog]
      exact mem_addLine i d s.shared _ he
    · rw [hshared]
      exact mem_dlqAfter hr
    · exact fun e he _ hex hhope => hs.hope_left hi hv hserves hkeeps hsites he hex hhope
  | drift e ha hsites hshared =>
    have hlog : s'.shared.log = s.shared.log := by rw [hshared]
    refine hs.hope.same (fun origin => by rw [hlog]) (fun e he _ => hlog ▸ he)
      (fun e he => by rwa [hlog]) (fun r hr => ?_) ?_
    · rw [hshared]
      exact hr
    · rw [hsites]
      rintro e - - - ⟨j, e', q, hj, hrest⟩
      exact .inr ⟨j, e', q, hj, hrest⟩

omit [UuidCrate U] in
/-- INTERNAL: without faults no owner is aborted. -/
theorem sparesOwners_of_noFault {t t' : State (world Γ) (Option (Call U E))}
    {a : Action (world Γ)} (hfault : NoFault s a s') : SparesOwners C t a t' := by
  cases a <;> trivial

/-- INTERNAL: every step keeps the invariant. -/
theorem Kept.step {a : Action (world Γ)} (hdlq : (Γ.options sub).dlqOpts.isSome)
    (h : Lib.step (pointMachine Γ) s a = some s') (hfault : NoFault s a s')
    (hlive : NoExpiry C s a s')
    (hworks : Works (look (pointMachine Γ) s) a (look (pointMachine Γ) s'))
    (hserver : ServerDelivers sub s a s')
    (hkeeps : KeepsLastChance (look (pointMachine Γ) s) a (look (pointMachine Γ) s'))
    (hs : Kept C sub s) : Kept C sub s' := by
  have hcalm : Calm s a s' := calm_of_noFault h hfault
  have hsub : ∀ i d p, s.sites i = some (d, p) → d.sub = sub := by
    intro i d p hi
    obtain ⟨e, he, -, -, rfl⟩ := hs.books.announced i d p hi
    exact hs.books.sub e he
  have hopts : ∀ i d p, s.sites i = some (d, p) → d.options.dlqOpts.isSome := by
    intro i d p hi
    rw [Delivery.options, hsub i d p hi]
    exact hdlq
  exact
    { ownership := hs.ownership.step h hlive
      owned := (allOwned_step hs.ownership hs.owned h hworks hlive).mpr
        (sparesOwners_of_noFault hfault)
      books := hs.books.step h hcalm hserver
      concluded := hs.concluded.step hopts hcalm hlive
      filed := hs.filed.step hsub hcalm
      hope := hs.hope_step hcalm hworks hserver hkeeps }

/-- INTERNAL: nothing has been delivered yet. -/
theorem Kept.fresh {now : ℕ} {store : Γ.store.State} {dlq : List DlqRecord}
    (hstart : ∀ key, C.status now store key = .absent)
    (hempty : ∀ r ∈ dlq,
      r.subject ≠ dlqSubject (Γ.options sub).source (Γ.options sub).durable) :
    Kept C sub (fresh (pointMachine Γ) (.initial now store dlq)) where
  ownership := .fresh _
  owned key hpend := by
    have hpend : C.status now store key = .pending := hpend
    rw [hstart] at hpend
    cases hpend
  books := ⟨fun e he => (by cases he), fun i d p hi => (by cases hi), fun e he => (by cases he),
    fun e he => (by cases he)⟩
  concluded := by
    refine ⟨fun key hdone => ?_, fun i d p hi => (by cases hi)⟩
    have hdone : C.status now store key = .done := hdone
    rw [hstart] at hdone
    cases hdone
  filed := ⟨fun e he => (by cases he), fun r hr hsubject => absurd hsubject (hempty r hr)⟩
  hope e he := by cases he

/-- INTERNAL: a worker that has returned has no hope. -/
theorem not_hopeful_of_ended {i : ℕ} (hended : (look (pointMachine Γ) s).ended i = true)
    {d : Delivery Γ} {p : Point E} (hi : s.sites i = some (d, p)) : ¬ Hopeful p := by
  intro hp
  obtain ⟨c, hc, -⟩ := (hopeful_iff (d := d)).mp hp
  have hnone := nextCall_of_ended hended
  rw [nextCall_look hi, hc] at hnone
  cases hnone

/-- INTERNAL: where there is no hope and nothing left to come, nothing is lost. -/
theorem Kept.noLoss (hs : Kept C sub s) : NoLoss (look (pointMachine Γ) s) := by
  intro e he hdel hex hret
  rcases hs.hope e he hdel hex with h | ⟨i, d, p, hi, hsite, hp⟩
  · exact h
  · exact absurd hp (not_hopeful_of_ended (hret i hi) hsite)

end

/-! ## The result -/

/-- **No silent loss as long as last chances are kept.**  Take a subscription with a dead
letter stream that has no dead letters yet, over a store that keeps its contract and has no
keys, and any run without faults in which no entry expires and the server delivers every
message at most as often as the limit allows: with any handler results, handlers of any
duration, and any interleaving of the copies.  If the last worker that could still handle a
message does not release its claim, and is not refused the claim on account of another
message with the same id, then whenever all deliveries of a message have been made and have
returned, a handler has returned `Ok` for its id or the dead letter stream has a record of
it.
SRC: subscriber.rs:398-522, subscriber.rs:588-596, consumer.rs:5-22 -/
theorem no_silent_loss (Γ : Deployment U E) (C : Γ.store.Contract) (sub : Γ.Sub)
    (hdlq : (Γ.options sub).dlqOpts.isSome) (now : ℕ) (store : Γ.store.State)
    (hstart : ∀ key, C.status now store key = .absent) (dlq : List DlqRecord)
    (hempty : ∀ r ∈ dlq, r.subject ≠ dlqSubject (Γ.options sub).source (Γ.options sub).durable)
    (as : List (Action (world Γ)))
    (hfault : Along (step (codeMachine Γ)) NoFault
      (fresh (codeMachine Γ) (.initial now store dlq)) as)
    (hworks : Along (step (codeMachine Γ))
      (fun s a s' => Works (look (codeMachine Γ) s) a (look (codeMachine Γ) s'))
      (fresh (codeMachine Γ) (.initial now store dlq)) as)
    (hlive : Along (step (codeMachine Γ)) (NoExpiry C)
      (fresh (codeMachine Γ) (.initial now store dlq)) as)
    (hserver : Along (step (codeMachine Γ)) (ServerDelivers sub)
      (fresh (codeMachine Γ) (.initial now store dlq)) as)
    (hkeeps : Along (step (codeMachine Γ))
      (fun s a s' => KeepsLastChance (look (codeMachine Γ) s) a (look (codeMachine Γ) s'))
      (fresh (codeMachine Γ) (.initial now store dlq)) as) :
    Always (step (codeMachine Γ)) (fun s => NoLoss (look (codeMachine Γ) s))
      (fresh (codeMachine Γ) (.initial now store dlq)) as := by
  have hfault := (along_look_hom (pointsOfCode Γ) (C := NoFault) _ as).mp hfault
  have hlive := (along_look_hom (pointsOfCode Γ) (C := NoExpiry C) _ as).mp hlive
  have hserver := (along_look_hom (pointsOfCode Γ) (C := ServerDelivers sub) _ as).mp hserver
  rw [along_look_hom (pointsOfCode Γ)] at hworks hkeeps
  refine (always_look_hom (pointsOfCode Γ) (Q := NoLoss) _ as).mpr ?_
  have hinv := always_of_invariant (I := Kept C sub)
    (fun s a s' h hC hs =>
      Kept.step hdlq h hC.1 hC.2.1 hC.2.2.1 hC.2.2.2.1 hC.2.2.2.2 hs)
    (.fresh hstart hempty)
    (along_and.mpr ⟨hfault, along_and.mpr ⟨hlive, along_and.mpr ⟨hworks,
      along_and.mpr ⟨hserver, hkeeps⟩⟩⟩⟩)
  exact hinv.mono fun s hs => hs.noLoss

end

instance : DecidableEq events.Sub := inferInstanceAs (DecidableEq String)

/-- The subscription of the durable `billing`. -/
def billing : events.Sub := "billing"

/-- Delivery number `delivered` of a message. -/
def orderCreated (delivered : ℤ) : Delivery events :=
  eventsDelivery "billing" "6ba7b810-9dad-11d1-80b4-00c04fd430c8" 1 delivered

/-- A handler fails for a transient reason after the message has been delivered `refused`
more times, each time to be refused the claim. -/
def slowHandlerRun (refused : ℕ) : List (Action (world events)) :=
  undisturbed 0 (orderCreated 1) (.ok ()) 1 ++
    ((List.range refused).map fun n =>
      undisturbed (n + 1) (orderCreated (n + 2)) (.ok ()) 2).flatten ++
    [.serve 0 (eventsChoice (.error (.transient "timeout"))), .resume 0,
      .serve 0 (eventsChoice (.ok ())), .resume 0, .serve 0 (eventsChoice (.ok ())), .resume 0]

/-- **Messages can be lost silently.**  The handler of the first delivery runs while the other
four are made and refused, and then fails for a transient reason: the store, the network
and the server do all that is asked of them, and the message is neither handled nor dead
lettered. -/
theorem silently_lost_events :
    Along (step (codeMachine events)) NoFault
        (fresh (codeMachine events) (.initial 0 (fun _ => none) [])) (slowHandlerRun 4) ∧
      Along (step (codeMachine events))
        (fun s a s' => Works (look (codeMachine events) s) a (look (codeMachine events) s'))
        (fresh (codeMachine events) (.initial 0 (fun _ => none) [])) (slowHandlerRun 4) ∧
      Along (step (codeMachine events)) (NoExpiry (RedisIdempotencyStore.contract _))
        (fresh (codeMachine events) (.initial 0 (fun _ => none) [])) (slowHandlerRun 4) ∧
      Along (step (codeMachine events)) (ServerDelivers billing)
        (fresh (codeMachine events) (.initial 0 (fun _ => none) [])) (slowHandlerRun 4) ∧
      ¬ Always (step (codeMachine events)) (fun s => NoLoss (look (codeMachine events) s))
        (fresh (codeMachine events) (.initial 0 (fun _ => none) [])) (slowHandlerRun 4) := by
  have hquiet : ∀ a ∈ slowHandlerRun 4, Action.isDrift a = false := by decide +kernel
  refine ⟨by decide +kernel, by decide +kernel, ?_, by decide +kernel, by decide +kernel⟩
  exact Along.of_forall (fun a ha s s' => noExpiry_of_not_drift (hquiet a ha)) _

/-- The handler fails while one delivery is left, which it fails as well. -/
def deadLetteredRun : List (Action (world events)) :=
  slowHandlerRun 3 ++ undisturbed 4 (orderCreated 5) (.error (.transient "timeout")) 6

/-- INTERNAL: the result on a run that ends in a dead letter. -/
theorem no_silent_loss_events :
    Always (step (codeMachine events)) (fun s => NoLoss (look (codeMachine events) s))
      (fresh (codeMachine events) (.initial 0 (fun _ => none) [])) deadLetteredRun := by
  have hquiet : ∀ a ∈ deadLetteredRun, Action.isDrift a = false := by decide +kernel
  exact no_silent_loss events (RedisIdempotencyStore.contract _) billing rfl 0 _ (fun _ => rfl)
    [] (by decide) _ (by decide +kernel) (by decide +kernel)
    (Along.of_forall (fun a ha s s' => noExpiry_of_not_drift (hquiet a ha)) _)
    (by decide +kernel) (by decide +kernel)

end EventBus.Analysis
