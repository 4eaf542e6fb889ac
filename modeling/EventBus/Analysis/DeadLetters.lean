import EventBus.Analysis.DlqHeaders
import EventBus.Analysis.EffectivelyOnce

/-!
# One dead letter for a message

The dead letter stream drops a publish whose id it has stored before.  The id contains
the delivery count, and a worker whose publish fails, for instance because only the
acknowledgement was lost, sends the message back for another delivery, which has another
count.  So the retry is stored a second time.

The counterexample is that run.  The result says that there is no other way to a second dead
letter: as long as the claim of the message does not expire and the message does not fail for
good again at another delivery, after a dead letter of it has got to the stream behind the back
of its worker, it has one at most.  Whoever fails for good owns the claim, so two workers can have
a dead letter to publish only one after the other; and a dead letter that is acknowledged seals
the key, so that nobody comes after its worker.
-/

set_option autoImplicit false

namespace EventBus.Analysis

open EventBus.Model EventBus.Lib EventBus.Interface

variable {U E : Type} {Γ : Deployment U E}

/-! ## Publishes that reach the stream -/

/-- The delivery whose dead letter publish reaches the stream in this step, whatever its
worker learns of it. -/
def publishing (s : State (world Γ) (Option (Call U E))) : Action (world Γ) → Option (Delivery Γ)
  | .serve i _ | .fail i .served _ _ | .abort i .served _ =>
    match s.awaits i with
    | some (d, .publishWithHeaders _ _ _ _) => some d
    | _ => none
  | .land n _ =>
    match s.detached[n]? with
    | some (_, d, .publishWithHeaders _ _ _ _) => some d
    | _ => none
  | _ => none

/-- The line of a dead letter publish that has reached the stream. -/
def Published (e : Entry Γ) : Prop :=
  e.what = .dlqAcked ∨ e.what = .dlqLost

instance (e : Entry Γ) : Decidable (Published e) :=
  inferInstanceAs (Decidable (_ ∨ _))

/-- The dead letters of a message are published within the duplicate window of the ones
that are stored. -/
def InWindow (origin : String × String × ℕ) (s : State (world Γ) (Option (Call U E)))
    (a : Action (world Γ)) (_ : State (world Γ) (Option (Call U E))) : Prop :=
  ∀ d ∈ publishing s a, d.origin = origin → ∀ r ∈ s.shared.dlq, DlqRecord.isOf r origin →
    s.shared.now < r.storedAt + Γ.duplicateWindow r.subject

/-- The dead letters of a message are all published at one delivery count. -/
def OneCount (origin : String × String × ℕ) (s : State (world Γ) (Option (Call U E)))
    (a : Action (world Γ)) (_ : State (world Γ) (Option (Call U E))) : Prop :=
  ∀ d ∈ publishing s a, d.origin = origin → ∀ e ∈ s.shared.log, Published e →
    e.delivery.origin = origin → asU64 e.delivery.info.delivered = asU64 d.info.delivered

/-- The message has one dead letter at most. -/
def OneRecord (origin : String × String × ℕ) (dlq : List DlqRecord) : Prop :=
  (dlq.filter fun r => DlqRecord.isOf r origin).length ≤ 1

instance (origin : String × String × ℕ) (dlq : List DlqRecord) :
    Decidable (OneRecord origin dlq) :=
  inferInstanceAs (Decidable (_ ≤ _))

instance (origin : String × String × ℕ) (s s' : State (world Γ) (Option (Call U E)))
    (a : Action (world Γ)) : Decidable (InWindow origin s a s') :=
  inferInstanceAs (Decidable (∀ d ∈ publishing s a, _))

/-! ## Failing for good -/

/-- The call is a dead letter publish. -/
def isPublish : Call U E → Bool
  | .publishWithHeaders _ _ _ _ => true
  | _ => false

/-- The delivery fails for good when this call is served: its handler returns such a result, or
its claim is granted and its payload cannot be read.
SRC: subscriber.rs:426-442, subscriber.rs:472-521 -/
def failsForGood (d : Delivery Γ) : Call U E → Choice Γ → Shared Γ → Bool
  | .handle _ _, ch, _ => (Terminal.ofResult d.options d.info ch.handler).isSome
  | .tryClaim key, ch, sh =>
    match (Γ.store.tryClaim sh.now ch.store key sh.store).1, Γ.fromSlice d.sub d.msg.payload with
    | .ok .claimed, .error _ => true
    | _, _ => false
  | _, _, _ => false

/-- The delivery that fails for good in this step and is to be dead lettered. -/
def failing (s : State (world Γ) (Option (Call U E))) : Action (world Γ) → Option (Delivery Γ)
  | .serve i ch =>
    match s.awaits i with
    | some (d, c) =>
      if d.options.dlqOpts.isSome && failsForGood d c ch s.shared then some d else none
    | none => none
  | _ => none

/-- When the message fails for good, no dead letter of it from a delivery with another count has
reached the stream behind the back of its worker, who was told that the publish failed or was
gone, nor is one still on its way. -/
def NotAgain (origin : String × String × ℕ) (s : State (world Γ) (Option (Call U E)))
    (a : Action (world Γ)) (_ : State (world Γ) (Option (Call U E))) : Prop :=
  ∀ d ∈ failing s a, d.origin = origin →
    (∀ e ∈ s.shared.log, e.what = .dlqLost → e.delivery.origin = origin →
      asU64 e.delivery.info.delivered = asU64 d.info.delivered) ∧
    ∀ x ∈ s.detached, isPublish x.2.2 = true → x.2.1.origin = origin →
      asU64 x.2.1.info.delivered = asU64 d.info.delivered

instance (origin : String × String × ℕ) (s s' : State (world Γ) (Option (Call U E)))
    (a : Action (world Γ)) : Decidable (NotAgain origin s a s') :=
  inferInstanceAs (Decidable (∀ d ∈ failing s a, _))

/-! ## The invariant -/

variable [UuidCrate U]

/-- Every dead letter of the message was published by a delivery in the log, and there is
one at most. -/
structure Recorded (origin : String × String × ℕ) (sh : Shared Γ) : Prop where
  source : ∀ r ∈ sh.dlq, DlqRecord.isOf r origin → ∃ e ∈ sh.log, Published e ∧
    e.delivery.origin = origin ∧
    r.subject = dlqSubject e.delivery.options.source e.delivery.options.durable ∧
    r.headers.get hdrNatsMsgId = some (dedupIdOf e.delivery)
  one : OneRecord origin sh.dlq

omit [UuidCrate U] in
/-- INTERNAL: one message at one delivery count has one dedup id.
SRC: dlq.rs:115-121 -/
theorem dedupIdOf_congr {d d' : Delivery Γ} (horigin : d.origin = d'.origin)
    (hcount : asU64 d.info.delivered = asU64 d'.info.delivered) : dedupIdOf d = dedupIdOf d' := by
  obtain ⟨hsource, hrest⟩ := Prod.mk.inj horigin
  obtain ⟨hdurable, hseq⟩ := Prod.mk.inj hrest
  simp only [dedupIdOf, FailureInfo.dedupId, hsource, hdurable, hseq, hcount]

omit [UuidCrate U] in
/-- INTERNAL: what is known of the dead letters stays known when the log grows. -/
theorem Recorded.grow {origin : String × String × ℕ} {sh sh' : Shared Γ}
    (h : Recorded origin sh) (hdlq : sh'.dlq = sh.dlq) (hlog : ∀ e ∈ sh.log, e ∈ sh'.log) :
    Recorded origin sh' := by
  refine ⟨fun r hr hof => ?_, hdlq ▸ h.one⟩
  obtain ⟨e, he, hrest⟩ := h.source r (hdlq ▸ hr) hof
  exact ⟨e, hlog e he, hrest⟩

omit [UuidCrate U] in
/-- INTERNAL: a call that is no publish leaves the dead letters alone. -/
theorem dlqAfter_of_not_publish {c : Call U E} (sh : Shared Γ)
    (hc : ∀ subject headers payload timeout,
      c ≠ .publishWithHeaders subject headers payload timeout) : dlqAfter c sh = sh.dlq := by
  cases c with
  | publishWithHeaders subject headers payload timeout =>
    exact absurd rfl (hc subject headers payload timeout)
  | _ => rfl

/-- INTERNAL: a publish that reaches the stream stores no second dead letter if it is
made at the count of those before it. -/
theorem Recorded.publish {origin : String × String × ℕ} {sh : Shared Γ}
    (h : Recorded origin sh) (seen : Bool) (i : ℕ) {d : Delivery Γ} {config : DlqConfig}
    {cause : Cause} {failedAt : String} (ch : Choice Γ)
    (hwindow : d.origin = origin → ∀ r ∈ sh.dlq, DlqRecord.isOf r origin →
      sh.now < r.storedAt + Γ.duplicateWindow r.subject)
    (hcount : d.origin = origin → ∀ e ∈ sh.log, Published e → e.delivery.origin = origin →
      asU64 e.delivery.info.delivered = asU64 d.info.delivered) :
    Recorded origin (Shared.effect seen i d
      (.publishWithHeaders (dlqSubject d.options.source d.options.durable)
        (cause.headers d failedAt) d.msg.payload config.publishAckTimeout) ch sh) := by
  have hline : ∃ what, Published (Γ := Γ) ⟨i, d, sh.now, what⟩ ∧
      (Shared.effect seen i d (.publishWithHeaders (dlqSubject d.options.source d.options.durable)
        (cause.headers d failedAt) d.msg.payload config.publishAckTimeout) ch sh).log =
      ⟨i, d, sh.now, what⟩ :: sh.log := by
    rw [effect_log]
    cases seen
    · exact ⟨.dlqLost, .inr rfl, rfl⟩
    · exact ⟨.dlqAcked, .inl rfl, rfl⟩
  obtain ⟨what, hpub, hlog⟩ := hline
  have hdlq : (Shared.effect seen i d
      (.publishWithHeaders (dlqSubject d.options.source d.options.durable)
        (cause.headers d failedAt) d.msg.payload config.publishAckTimeout) ch sh).dlq =
      (sh.publish (dlqSubject d.options.source d.options.durable) (cause.headers d failedAt)
        d.msg.payload).dlq := by
    rw [effect_dlq]
    rfl
  rw [publish_dlq, headers_msgId] at hdlq
  by_cases hdup : sh.isDuplicate (dlqSubject d.options.source d.options.durable)
      (some (dedupIdOf d)) = true
  · rw [if_pos hdup] at hdlq
    refine h.grow hdlq fun e he => ?_
    rw [hlog]
    exact List.mem_cons_of_mem _ he
  · rw [if_neg hdup] at hdlq
    refine ⟨fun r hr hof => ?_, ?_⟩
    · rw [hdlq] at hr
      rw [hlog]
      rcases List.mem_cons.mp hr with rfl | hold
      · exact ⟨_, List.mem_cons_self, hpub, (isOf_headers ..).mp hof, rfl, headers_msgId ..⟩
      · obtain ⟨e, he, hrest⟩ := h.source r hold hof
        exact ⟨e, List.mem_cons_of_mem _ he, hrest⟩
    · unfold OneRecord
      rw [hdlq]
      by_cases horigin : d.origin = origin
      · -- no dead letter of the message is stored yet: it would have the same id
        have hnone : sh.dlq.filter (fun r => DlqRecord.isOf r origin) = [] := by
          rw [List.filter_eq_nil_iff]
          intro r hr hof
          have hof : DlqRecord.isOf r origin := of_decide_eq_true hof
          obtain ⟨e, he, hpub', heo, hsubject, hid⟩ := h.source r hr hof
          have hcong : e.delivery.origin = d.origin := heo.trans horigin.symm
          have hsame := dedupIdOf_congr hcong (hcount horigin e he hpub' heo)
          obtain ⟨hs, hrest⟩ := Prod.mk.inj hcong
          rw [hs, (Prod.mk.inj hrest).1] at hsubject
          refine hdup (isDuplicate_iff.mpr ⟨r, hr, hsubject, hsame ▸ hid, ?_⟩)
          rw [← hsubject]
          exact hwindow horigin r hr hof
        simp [hnone, isOf_headers, horigin]
      · rw [List.filter_cons_of_neg (by simpa [isOf_headers] using horigin)]
        exact h.one

/-- INTERNAL: a call that takes effect stores no second dead letter. -/
theorem Recorded.effect {origin : String × String × ℕ} {sh : Shared Γ}
    (h : Recorded origin sh) (seen : Bool) (i : ℕ) {d : Delivery Γ} {c : Call U E} (ch : Choice Γ)
    (hc : ∃ p, (pointMachine Γ).head d p = some c)
    (hwindow : (∃ subject headers payload timeout,
        c = .publishWithHeaders subject headers payload timeout) → d.origin = origin →
      ∀ r ∈ sh.dlq, DlqRecord.isOf r origin →
        sh.now < r.storedAt + Γ.duplicateWindow r.subject)
    (hcount : (∃ subject headers payload timeout,
        c = .publishWithHeaders subject headers payload timeout) → d.origin = origin →
      ∀ e ∈ sh.log, Published e → e.delivery.origin = origin →
        asU64 e.delivery.info.delivered = asU64 d.info.delivered) :
    Recorded origin (Shared.effect seen i d c ch sh) := by
  by_cases hpub : ∃ subject headers payload timeout,
      c = .publishWithHeaders subject headers payload timeout
  · obtain ⟨p, hp⟩ := hc
    obtain ⟨subject, headers, payload, timeout, rfl⟩ := hpub
    cases p <;> cases hp
    exact h.publish seen i ch (hwindow ⟨_, _, _, _, rfl⟩) (hcount ⟨_, _, _, _, rfl⟩)
  · refine h.grow ?_ fun e he => ?_
    · rw [effect_dlq]
      exact dlqAfter_of_not_publish sh fun s hd p t hcp => hpub ⟨s, hd, p, t, hcp⟩
    · rw [effect_log]
      exact mem_addLine i d sh _ he

/-- **A step whose publish, if it has one, is made at the count of those before it keeps
the message at one dead letter.** -/
theorem recorded_step {origin : String × String × ℕ} {s s' : State (world Γ) (Point E)}
    {a : Action (world Γ)} (h : Lib.step (pointMachine Γ) s a = some s')
    (hwindow : InWindow origin (look (pointMachine Γ) s) a (look (pointMachine Γ) s'))
    (hcount : OneCount origin (look (pointMachine Γ) s) a (look (pointMachine Γ) s'))
    (hmade : Made (M := pointMachine Γ) s) (hrec : Recorded origin s.shared) :
    Recorded origin s'.shared := by
  -- a publish that takes effect is the one the conditions speak of
  have heffect : ∀ {seen : Bool} {i : ℕ} {d : Delivery Γ} {c : Call U E} {ch : Choice Γ},
      s'.shared = Shared.effect seen i d c ch s.shared →
      (∃ p, (pointMachine Γ).head d p = some c) →
      (∀ subject headers payload timeout, c = .publishWithHeaders subject headers payload timeout →
        publishing (look (pointMachine Γ) s) a = some d) → Recorded origin s'.shared := by
    intro seen i d c ch hshared hc hpub
    rw [hshared]
    refine hrec.effect seen i ch hc ?_ ?_
    · rintro ⟨subject, headers, payload, timeout, rfl⟩
      exact hwindow d (hpub _ _ _ _ rfl)
    · rintro ⟨subject, headers, payload, timeout, rfl⟩
      exact hcount d (hpub _ _ _ _ rfl)
  cases (step_cases h).move with
  | spawn i d hspawn hi hsites hshared hdet =>
    rw [spawn_eq] at hshared
    refine hrec.grow (by rw [hshared]; rfl) fun e he => ?_
    rw [hshared]
    exact List.mem_cons_of_mem _ he
  | reach i d p hresume hi hsites hshared hdet =>
    rw [reachPoint_eq] at hshared
    refine hrec.grow (by rw [hshared]) fun e he => ?_
    rw [hshared]
    exact mem_addLine i d s.shared _ he
  | serve i ch d p c k hserve hi hv hsites hshared hdet =>
    have hc : (pointMachine Γ).head d p = some c := Machine.head_of_view hv
    refine heffect hshared ⟨p, hc⟩ ?_
    rintro subject headers payload timeout rfl
    rw [hserve, publishing, look_waiting hi hc]
  | drop i d p next hdrop hi hnext hsites hshared hdet =>
    exact hshared ▸ hrec
  | act i ch d p c next hact hi hc hlose hnext hsites hshared hdet =>
    refine heffect hshared ⟨p, hc⟩ ?_
    rintro subject headers payload timeout rfl
    rcases hact with ⟨err, rfl⟩ | ⟨rfl, -⟩
    · rw [publishing, look_waiting hi hc]
    · rw [publishing, look_waiting hi hc]
  | defer i d p c next hdefer hi hc hlose hnext hsites hshared hdet =>
    exact hshared ▸ hrec
  | land n ch i d c hland hn hsites hshared hdet =>
    refine heffect hshared (hmade i d c (List.mem_of_getElem? hn)) ?_
    rintro subject headers payload timeout rfl
    rw [hland, publishing, look_detached, hn]
  | drift e hdrift hsites hshared hdet =>
    refine hrec.grow (by rw [hshared]) fun e he => ?_
    rw [hshared]
    exact he

/-! ## Who has a dead letter to publish -/

/-- The points at which a worker has a dead letter to publish. -/
inductive Sending : Point E → Prop where
  | stamp (config : DlqConfig) (cause : Cause) : Sending (.stamp config cause)
  | publish (config : DlqConfig) (cause : Cause) (failedAt : String) :
    Sending (.publish config cause failedAt)

omit [UuidCrate U] in
/-- INTERNAL: who has a dead letter to publish owns the claim of its message. -/
theorem Sending.owner {p : Point E} (h : Sending p) : Owner p := by
  cases h with
  | stamp config cause => exact .stamp config cause
  | publish config cause failedAt => exact .publish config cause failedAt

omit [UuidCrate U] in
/-- INTERNAL: a failure for good is published only with a dead letter stream.
SRC: subscriber.rs:529-535 -/
theorem enabled_of_sending {d : Delivery Γ} {cause : Cause}
    (h : Sending (Point.terminal d cause : Point E)) : d.options.dlqOpts.isSome = true := by
  unfold Point.terminal at h
  cases hopts : d.options.dlqOpts with
  | none =>
    rw [hopts] at h
    cases h
  | some dlqOpts => rfl

omit [UuidCrate U] in
/-- INTERNAL: the results of a handler that lead to a dead letter are the failures for good.
SRC: subscriber.rs:457-521 -/
theorem terminal_of_sending {d : Delivery Γ} {result : Except HandlerError Unit}
    (h : Sending (Point.afterHandler d result : Point E)) :
    d.options.dlqOpts.isSome = true ∧ (Terminal.ofResult d.options d.info result).isSome = true := by
  rcases result with (reason | reason) | ⟨⟩ <;> simp only [Point.afterHandler] at h
  · split at h
    · rename_i hfinal
      exact ⟨enabled_of_sending h, by simp [Terminal.ofResult, hfinal]⟩
    · cases h
  · exact ⟨enabled_of_sending h, rfl⟩
  · cases h

omit [UuidCrate U] in
/-- INTERNAL: a claim leads to a dead letter if it is granted and the payload cannot be read.
SRC: subscriber.rs:426-442 -/
theorem poison_of_sending {d : Delivery Γ} {answer : Except BusError ClaimOutcome}
    (h : Sending (Point.afterTryClaim d answer : Point E)) :
    d.options.dlqOpts.isSome = true ∧ answer = .ok .claimed ∧
      ∃ e, Γ.fromSlice d.sub d.msg.payload = .error e := by
  rcases answer with e | (_ | _ | _) <;> simp only [Point.afterTryClaim] at h
  · cases h
  · unfold Point.afterClaim at h
    split at h
    · rename_i e hslice
      exact ⟨enabled_of_sending h, rfl, e, hslice⟩
    · cases h
  · cases h
  · cases h

/-- INTERNAL: who comes to have a dead letter to publish fails for good in this step. -/
theorem failing_of_answer {s : State (world Γ) (Point E)} {i : ℕ} {ch : Choice Γ}
    {d : Delivery Γ} {p : Point E} {c : Call U E} {k : c.Resp → Point E}
    (hi : s.threads i = some ⟨d, .waiting p⟩) (hv : Point.view d p = some ⟨c, k⟩)
    (hq : Sending (k (Shared.answer c ch s.shared))) :
    Sending p ∨ failing (look (pointMachine Γ) s) (.serve i ch) = some d := by
  have hc : (pointMachine Γ).head d p = some c := Machine.head_of_view hv
  have hfailing (henabled : d.options.dlqOpts.isSome = true)
      (hfails : failsForGood d c ch s.shared = true) :
      failing (look (pointMachine Γ) s) (.serve i ch) = some d := by
    simp only [failing, look_waiting hi hc, look_shared, henabled, hfails, Bool.and_self, if_true]
  cases p with
  | claim =>
    cases hv
    obtain ⟨henabled, hclaimed, e, hslice⟩ := poison_of_sending hq
    refine .inr (hfailing henabled ?_)
    rw [failsForGood, show (Γ.store.tryClaim _ _ _ _).1 = _ from hclaimed, hslice]
  | handle event =>
    cases hv
    obtain ⟨henabled, hterminal⟩ := terminal_of_sending hq
    exact .inr (hfailing henabled hterminal)
  | stamp config cause => exact .inl (.stamp config cause)
  | publish config cause failedAt => exact .inl (.publish config cause failedAt)
  | markAck => cases hv; cases hq
  | ack => cases hv; cases hq
  | markTerm => cases hv; cases hq
  | term => cases hv; cases hq
  | release delay => cases hv; cases hq
  | nak delay => cases hv; cases hq
  | finished => cases hv

/-- INTERNAL: who gets no answer has no dead letter to publish afterwards. -/
theorem not_sending_of_lost {d d' : Delivery Γ} {p p' : Point E}
    (hnext : Lost (pointMachine Γ) d p (some (d', p'))) : ¬ Sending p' := by
  intro hq
  cases hnext with
  | @failed c k r err hv hr =>
    cases p with
    | publish config cause failedAt =>
      cases hv
      rcases r with e | ⟨⟩ <;> cases hq
    | _ => cases hv <;> cases hr <;> cases hq

/-- INTERNAL: a publish is made by who has a dead letter to publish. -/
theorem sending_of_isPublish {d : Delivery Γ} {p : Point E} {c : Call U E}
    (hc : (pointMachine Γ).head d p = some c) (hpub : isPublish c = true) : Sending p := by
  cases p <;> cases hc <;> cases hpub
  exact .publish _ _ _

omit [UuidCrate U] in
/-- INTERNAL: only a publish leaves the line of one. -/
theorem isPublish_of_noted {seen : Bool} {c : Call U E} {ch : Choice Γ} {sh : Shared Γ}
    {w : Occurrence} (hw : noted seen c ch sh = some w) (hpub : w = .dlqAcked ∨ w = .dlqLost) :
    isPublish c = true := by
  cases notes_of_noted hw with
  | dlqAcked => rfl
  | dlqLost => rfl
  | _ => rcases hpub with h | h <;> cases h

/-- The counts at which the message is or may be dead lettered: those of its publishes that have
reached the stream or are under way, and of the workers that have one to make. -/
inductive Counted (origin : String × String × ℕ) (s : State (world Γ) (Point E)) : ℕ → Prop where
  | logged {e : Entry Γ} (he : e ∈ s.shared.log) (hpub : Published e)
      (ho : e.delivery.origin = origin) : Counted origin s (asU64 e.delivery.info.delivered)
  | underWay {i : ℕ} {d : Delivery Γ} {c : Call U E} (hmem : (i, d, c) ∈ s.detached)
      (hpub : isPublish c = true) (ho : d.origin = origin) :
      Counted origin s (asU64 d.info.delivered)
  | sending {i : ℕ} {d : Delivery Γ} {p : Point E} (hi : s.sites i = some (d, p))
      (hp : Sending p) (ho : d.origin = origin) : Counted origin s (asU64 d.info.delivered)

section

variable {s s' : State (world Γ) (Point E)} {origin : String × String × ℕ}

/-- INTERNAL: a publish that has reached the stream was counted before. -/
theorem Counted.of_published {a : Action (world Γ)} (h : Lib.step (pointMachine Γ) s a = some s')
    {e : Entry Γ} (he : e ∈ s'.shared.log) (hpub : Published e) (ho : e.delivery.origin = origin) :
    Counted origin s (asU64 e.delivery.info.delivered) := by
  have hsending : ∀ {p : Point E} {c : Call U E} {seen : Bool} {ch : Choice Γ},
      s.threads e.worker = some ⟨e.delivery, .waiting p⟩ →
      (pointMachine Γ).head e.delivery p = some c → noted seen c ch s.shared = some e.what →
      Counted origin s (asU64 e.delivery.info.delivered) := fun hi hc hnoted =>
    .sending (sites_of_threads s _ hi) (sending_of_isPublish hc (isPublish_of_noted hnoted hpub)) ho
  rcases line_of_step h he with hold | hnew
  · exact .logged hold hpub ho
  · cases hnew with
    | delivered hwhat | began hwhat => rcases hpub with hp | hp <;> cases hwhat.symm.trans hp
    | served hi hv hnoted hsite => exact hsending hi (Machine.head_of_view hv) hnoted
    | lost hi hc hlose hnoted => exact hsending hi hc hnoted
    | landed hmem hnoted => exact .underWay hmem (isPublish_of_noted hnoted hpub) ho

/-- INTERNAL: what a worker that loses its call leaves at its site counts nothing new. -/
theorem Counted.of_lost {i j : ℕ} {d e : Delivery Γ} {p q : Point E}
    {next : Option (Delivery Γ × Point E)} (hnext : Lost (pointMachine Γ) d p next)
    (hsites : s'.sites = Function.update s.sites i next) (hj : s'.sites j = some (e, q))
    (hq : Sending q) (ho : e.origin = origin) : Counted origin s (asU64 e.info.delivered) := by
  rcases update_cases hsites hj with ⟨-, rfl⟩ | hold
  · exact absurd hq (not_sending_of_lost hnext)
  · exact .sending hold hq ho

/-- INTERNAL: a publish that is under way was counted before. -/
theorem Counted.of_underWay {a : Action (world Γ)} (h : Lib.step (pointMachine Γ) s a = some s')
    {i : ℕ} {d : Delivery Γ} {c : Call U E} (hmem : (i, d, c) ∈ s'.detached)
    (hpub : isPublish c = true) (ho : d.origin = origin) :
    Counted origin s (asU64 d.info.delivered) := by
  cases (step_cases h).move with
  | defer i d p c next hdefer hi hc hlose hnext hsites hshared hdet =>
    rw [hdet] at hmem
    rcases List.mem_append.mp hmem with hold | hnew
    · exact .underWay hold hpub ho
    · obtain ⟨-, rfl, rfl⟩ := by simpa using hnew
      exact .sending (sites_of_threads s i hi) (sending_of_isPublish hc hpub) ho
  | land n ch i d c hland hn hsites hshared hdet =>
    rw [hdet] at hmem
    exact .underWay (List.mem_of_mem_eraseIdx hmem) hpub ho
  | spawn _ _ _ _ _ _ hdet | reach _ _ _ _ _ _ _ hdet | serve _ _ _ _ _ _ _ _ _ _ _ hdet
  | drop _ _ _ _ _ _ _ _ _ hdet | act _ _ _ _ _ _ _ _ _ _ _ _ _ hdet | drift _ _ _ _ hdet =>
    exact .underWay (hdet ▸ hmem) hpub ho

/-- INTERNAL: who has a dead letter to publish was counted before, or fails for good in this
step. -/
theorem Counted.of_sending {a : Action (world Γ)} (h : Lib.step (pointMachine Γ) s a = some s')
    {j : ℕ} {e : Delivery Γ} {q : Point E} (hj : s'.sites j = some (e, q)) (hq : Sending q)
    (ho : e.origin = origin) : Counted origin s (asU64 e.info.delivered) ∨
      e ∈ failing (look (pointMachine Γ) s) a := by
  cases (step_cases h).move with
  | spawn i d hspawn hi hsites hshared hdet =>
    rcases update_cases hsites hj with ⟨-, hnew⟩ | hold
    · obtain ⟨rfl, rfl⟩ := Prod.mk.inj (Option.some.inj hnew)
      rcases start_cases d with hstart | hstart <;> (rw [hstart] at hq; cases hq)
    · exact .inl (.sending hold hq ho)
  | serve i ch d p c k hserve hi hv hsites hshared hdet =>
    rcases update_cases hsites hj with ⟨-, hnew⟩ | hold
    · obtain ⟨rfl, rfl⟩ := Prod.mk.inj (Option.some.inj hnew)
      rcases failing_of_answer hi hv hq with hp | hfailing
      · exact .inl (.sending (sites_of_threads s i hi) hp ho)
      · exact .inr (by rw [hserve, hfailing]; rfl)
    · exact .inl (.sending hold hq ho)
  | drop i d p next hdrop hi hnext hsites hshared hdet =>
    exact .inl (.of_lost hnext hsites hj hq ho)
  | act i ch d p c next hact hi hc hlose hnext hsites hshared hdet =>
    exact .inl (.of_lost hnext hsites hj hq ho)
  | defer i d p c next hdefer hi hc hlose hnext hsites hshared hdet =>
    exact .inl (.of_lost hnext hsites hj hq ho)
  | reach _ _ _ _ _ hsites _ _ | land _ _ _ _ _ _ _ hsites _ _ | drift _ _ hsites _ _ =>
    exact .inl (.sending (hsites ▸ hj) hq ho)

/-- INTERNAL: a step counts nothing new but the delivery that fails for good in it. -/
theorem Counted.of_step {a : Action (world Γ)} {n : ℕ}
    (h : Lib.step (pointMachine Γ) s a = some s') (hn : Counted origin s' n) : Counted origin s n ∨
      ∃ d ∈ failing (look (pointMachine Γ) s) a, d.origin = origin ∧
        n = asU64 d.info.delivered := by
  cases hn with
  | logged he hpub ho => exact .inl (.of_published h he hpub ho)
  | underWay hmem hpub ho => exact .inl (.of_underWay h hmem hpub ho)
  | sending hj hq ho => exact (Counted.of_sending h hj hq ho).imp_right fun hd => ⟨_, hd, ho, rfl⟩

end

/-! ## One sender after the other -/

/-- A delivery of the message has its headers: the stream keeps a message as it was stored.
SRC: subscriber.rs:379-383 -/
def SameHeaders (origin : String × String × ℕ) (headers : Option HeaderMap) :
    Action (world Γ) → Prop
  | .spawn _ d => d.origin = origin → d.msg.headers = headers
  | _ => True

instance (origin : String × String × ℕ) (headers : Option HeaderMap) (a : Action (world Γ)) :
    Decidable (SameHeaders origin headers a) :=
  match a with
  | .spawn _ d => inferInstanceAs (Decidable (d.origin = origin → d.msg.headers = headers))
  | .serve _ _ | .fail _ _ _ _ | .resume _ | .abort _ _ _ | .land _ _ | .drift _ => isTrue trivial

/-- The key under which the deliveries of a message are claimed. -/
def keyOf (origin : String × String × ℕ) (headers : Option HeaderMap) : MessageId U :=
  ((headers.bind fun h => h.get hdrNatsMsgId).bind MessageId.fromStr).getD
    (fallbackMessageId origin.1 origin.2.1 origin.2.2)

/-- INTERNAL: the deliveries of a message have one key.
SRC: subscriber.rs:379-396 -/
theorem msgId_eq_keyOf {d : Delivery Γ} {origin : String × String × ℕ}
    {headers : Option HeaderMap} (ho : d.origin = origin) (hheaders : d.msg.headers = headers) :
    d.msgId = keyOf origin headers := by
  subst ho hheaders
  rfl

/-- The invariant: all deliveries of the message have its headers, the claim on its key is
exclusive, all dead letters of it that are or may be stored are of one count, one that is
acknowledged has sealed the key, and at most one is stored. -/
structure OneSender (C : Γ.store.Contract) (origin : String × String × ℕ)
    (headers : Option HeaderMap) (s : State (world Γ) (Point E)) : Prop where
  jobs : Jobs (M := pointMachine Γ) (fun d => d.origin = origin → d.msg.headers = headers) s
  made : Made (M := pointMachine Γ) s
  owned : KeyOwnership C (keyOf origin headers) s
  agree : ∀ m n, Counted origin s m → Counted origin s n → m = n
  sealed : ∀ e ∈ s.shared.log, e.what = .dlqAcked → e.delivery.origin = origin →
    Sealed C s (keyOf origin headers)
  recorded : Recorded origin s.shared

section

variable {C : Γ.store.Contract} {origin : String × String × ℕ} {headers : Option HeaderMap}
  {s s' : State (world Γ) (Point E)} {a : Action (world Γ)}

/-- INTERNAL: a worker of the message claims the key of the message. -/
theorem OneSender.key (hs : OneSender C origin headers s) {i : ℕ} {d : Delivery Γ} {p : Point E}
    (hi : s.sites i = some (d, p)) (ho : d.origin = origin) : d.msgId = keyOf origin headers :=
  msgId_eq_keyOf ho (hs.jobs.sites i d p hi ho)

omit [UuidCrate U] in
/-- INTERNAL: a publish that reaches the stream is awaited by its worker or under way. -/
theorem publishing_cases {s : State (world Γ) (Option (Call U E))} {d : Delivery Γ}
    (hd : d ∈ publishing s a) : ∃ i c, isPublish c = true ∧
      (s.awaits i = some (d, c) ∨ (i, d, c) ∈ s.detached) := by
  unfold publishing at hd
  split at hd
  -- its call is served, fails or is cut off after it has reached the stream, or lands
  · split at hd
    · obtain rfl := Option.some.inj hd
      exact ⟨_, _, rfl, .inl ‹_›⟩
    · cases hd
  · split at hd
    · obtain rfl := Option.some.inj hd
      exact ⟨_, _, rfl, .inl ‹_›⟩
    · cases hd
  · split at hd
    · obtain rfl := Option.some.inj hd
      exact ⟨_, _, rfl, .inl ‹_›⟩
    · cases hd
  · split at hd
    · obtain rfl := Option.some.inj hd
      exact ⟨_, _, rfl, .inr (List.mem_of_getElem? ‹_›)⟩
    · cases hd
  · cases hd

/-- INTERNAL: a publish that reaches the stream was counted before. -/
theorem counted_of_publishing {d : Delivery Γ}
    (hd : d ∈ publishing (look (pointMachine Γ) s) a) (ho : d.origin = origin) :
    Counted origin s (asU64 d.info.delivered) := by
  obtain ⟨i, c, hpub, hi | hmem⟩ := publishing_cases hd
  · obtain ⟨p, hp, hc⟩ := waiting_of_awaits hi
    exact .sending (sites_of_threads s i hp) (sending_of_isPublish hc hpub) ho
  · exact .underWay hmem hpub ho

/-- INTERNAL: who fails for good runs its handler, or is granted its claim just now. -/
theorem site_of_failing (C : Γ.store.Contract) {d : Delivery Γ}
    (hd : d ∈ failing (look (pointMachine Γ) s) a) : ∃ i p, s.sites i = some (d, p) ∧
      ((∃ event, p = .handle event) ∨ statusOf C s d.msgId = .absent) := by
  unfold failing at hd
  split at hd
  · rename_i i ch
    split at hd
    · rename_i d' c hawaits
      obtain ⟨p, hp, hc⟩ := waiting_of_awaits hawaits
      split at hd
      · rename_i hfails
        obtain rfl := Option.some.inj hd
        refine ⟨i, p, sites_of_threads s i hp, ?_⟩
        rw [Bool.and_eq_true] at hfails
        cases p with
        | claim =>
          obtain rfl := Option.some.inj hc
          right
          have hgranted := hfails.2
          simp only [failsForGood] at hgranted
          split at hgranted
          · exact (C.of_claimed _ _ _ _ ‹_›).1
          · cases hgranted
        | handle event => exact .inl ⟨event, rfl⟩
        | finished => cases hc
        | _ =>
          obtain rfl := Option.some.inj hc
          cases hfails.2
      · cases hd
    · cases hd
  · cases hd

/-- INTERNAL: when the message fails for good, nothing of another count is or may be stored:
who has a dead letter of it to publish would own the claim, and one that is acknowledged would
have sealed the key. -/
theorem OneSender.failing_eq (hs : OneSender C origin headers s)
    (hagain : NotAgain origin (look (pointMachine Γ) s) a (look (pointMachine Γ) s'))
    {d : Delivery Γ} (hd : d ∈ failing (look (pointMachine Γ) s) a) (ho : d.origin = origin)
    {n : ℕ} (hn : Counted origin s n) : n = asU64 d.info.delivered := by
  obtain ⟨hlost, hunder⟩ := hagain d hd ho
  obtain ⟨i, p, hi, hp⟩ := site_of_failing C hd
  have hkey := hs.key hi ho
  rw [hkey] at hp
  cases hn with
  | @logged e he hpub hoe =>
    rcases hpub with hacked | hlate
    · have hsealed := hs.sealed e he hacked hoe
      rcases hp with ⟨event, rfl⟩ | habsent
      · cases hsealed.owner i d _ hi (.handle event) hkey
      · exact absurd habsent hsealed.present
    · exact hlost e he hlate hoe
  | underWay hmem hpub hod => exact hunder _ hmem hpub hod
  | @sending j e q hj hq hoe =>
    have hkey' := hs.key hj hoe
    rcases hp with ⟨event, rfl⟩ | habsent
    · obtain rfl := hs.owned.unique hi hj (.handle event) hq.owner hkey hkey'
      obtain ⟨rfl, rfl⟩ := Prod.mk.inj (Option.some.inj (hi.symm.trans hj))
      rfl
    · rw [hs.owned.pending hj hq.owner hkey'] at habsent
      cases habsent

/-- INTERNAL: a dead letter that is acknowledged in this step leaves its worker about to mark
the key done. -/
theorem marking_of_acked (h : Lib.step (pointMachine Γ) s a = some s') {e : Entry Γ}
    (he : e ∈ s'.shared.log) (hacked : e.what = .dlqAcked) :
    e ∈ s.shared.log ∨ ∃ i, s'.sites i = some (e.delivery, .markTerm) := by
  -- a call whose worker does not learn of it acknowledges nothing
  have hunseen : ∀ {c : Call U E} {ch : Choice Γ}, noted false c ch s.shared ≠ some e.what := by
    intro c ch hw
    rw [hacked] at hw
    generalize hseen : false = seen at hw
    cases notes_of_noted hw with
    | dlqAcked subject headers payload timeout htrue =>
      subst hseen
      cases htrue
  rcases line_of_step h he with hold | hnew
  · exact .inl hold
  · cases hnew with
    | delivered hwhat | began hwhat => cases hwhat.symm.trans hacked
    | served hi hv hnoted hsite =>
      cases sending_of_isPublish (Machine.head_of_view hv)
        (isPublish_of_noted hnoted (.inl hacked)) with
      | stamp config cause =>
        cases hv
        cases hnoted
      | publish config cause failedAt =>
        cases hv
        exact .inr ⟨e.worker, hsite⟩
    | lost hi hc hlose hnoted => exact absurd hnoted hunseen
    | landed hmem hnoted => exact absurd hnoted hunseen

/-- INTERNAL: the invariant holds at first. -/
theorem OneSender.fresh {now : ℕ} {store : Γ.store.State} {dlq : List DlqRecord}
    (hnone : ∀ r ∈ dlq, ¬ DlqRecord.isOf r origin) :
    OneSender C origin headers (fresh (pointMachine Γ) (.initial now store dlq)) where
  jobs := .fresh _
  made i d c hmem := by cases hmem
  owned := .fresh _
  agree m n hm := by
    cases hm with
    | logged he => cases he
    | underWay hmem => cases hmem
    | sending hi => cases hi
  sealed e he := by cases he
  recorded := by
    refine ⟨fun r hr hof => absurd hof (hnone r hr), ?_⟩
    have hempty : dlq.filter (fun r => DlqRecord.isOf r origin) = [] := by
      rw [List.filter_eq_nil_iff]
      exact fun r hr hof => hnone r hr (of_decide_eq_true hof)
    change (dlq.filter fun r => DlqRecord.isOf r origin).length ≤ 1
    rw [hempty]
    exact Nat.zero_le 1

/-- **One step keeps the invariant.** -/
theorem OneSender.step (h : Lib.step (pointMachine Γ) s a = some s')
    (hfit : SameHeaders origin headers a)
    (hkept : KeyKept C (keyOf origin headers) s a s')
    (hwindow : InWindow origin (look (pointMachine Γ) s) a (look (pointMachine Γ) s'))
    (hagain : NotAgain origin (look (pointMachine Γ) s) a (look (pointMachine Γ) s'))
    (hs : OneSender C origin headers s) : OneSender C origin headers s' := by
  have hown := hs.owned.step h hkept
  have hjobs := hs.jobs.step h fun i d ha => by
    subst ha
    exact hfit
  refine ⟨hjobs, hs.made.step h, hown, fun m n hm hn => ?_, fun e he hacked ho => ?_, ?_⟩
  · rcases Counted.of_step h hm with hm | ⟨d, hd, ho, rfl⟩ <;>
      rcases Counted.of_step h hn with hn | ⟨d', hd', ho', rfl⟩
    · exact hs.agree m n hm hn
    · exact hs.failing_eq hagain hd' ho' hm
    · exact (hs.failing_eq hagain hd ho hn).symm
    · rw [Option.mem_unique hd hd']
  · rcases marking_of_acked h he hacked with hold | ⟨i, hi⟩
    · exact (hs.sealed e hold hacked ho).step h hkept
    · exact hown.sealed hi .markTerm (msgId_eq_keyOf ho (hjobs.sites i _ _ hi ho))
  · refine recorded_step h hwindow (fun d hd ho e he hpub hoe => ?_) hs.made hs.recorded
    exact hs.agree _ _ (.logged he hpub hoe) (counted_of_publishing hd ho)

end

/-! ## The result -/

/-- **One dead letter for a message that does not fail again behind a lost one.**  Take any
subscriptions over a store that keeps its contract, dead letter streams that hold no dead letter
of the message yet, and any run whose publishes for the message fall into the duplicate window:
with any handler results, and with any call failing, lost or taking effect late, `mark_done`,
`term` and the publish among them.  If the claim on the key of the message does not expire, and
the message does not fail for good at another delivery after a dead letter of it has got to the
stream behind the back of its worker, the stream never holds more than one dead letter of it.
SRC: dlq.rs:113-197, subscriber.rs:524-596 -/
theorem one_dead_letter (Γ : Deployment U E) (C : Γ.store.Contract)
    (origin : String × String × ℕ) (headers : Option HeaderMap) (now : ℕ)
    (store : Γ.store.State) (dlq : List DlqRecord)
    (hnone : ∀ r ∈ dlq, ¬ DlqRecord.isOf r origin) (as : List (Action (world Γ)))
    (hheaders : ∀ a ∈ as, SameHeaders origin headers a)
    (hwindow : Along (step (codeMachine Γ))
      (fun s a s' => InWindow origin (look (codeMachine Γ) s) a (look (codeMachine Γ) s'))
      (fresh (codeMachine Γ) (.initial now store dlq)) as)
    (hkept : Along (step (codeMachine Γ)) (KeyKept C (keyOf origin headers))
      (fresh (codeMachine Γ) (.initial now store dlq)) as)
    (hagain : Along (step (codeMachine Γ))
      (fun s a s' => NotAgain origin (look (codeMachine Γ) s) a (look (codeMachine Γ) s'))
      (fresh (codeMachine Γ) (.initial now store dlq)) as) :
    Always (step (codeMachine Γ)) (fun s => OneRecord origin s.shared.dlq)
      (fresh (codeMachine Γ) (.initial now store dlq)) as := by
  rw [along_look_hom (pointsOfCode Γ)] at hwindow hagain
  have hkept : Along (step (pointMachine Γ)) (KeyKept C (keyOf origin headers))
      (fresh (pointMachine Γ) (.initial now store dlq)) as :=
    (along_look_hom (pointsOfCode Γ) (C := KeyKept C (keyOf origin headers)) _ as).mp hkept
  have hsame : Along (step (pointMachine Γ)) (fun _ a _ => SameHeaders origin headers a)
      (fresh (pointMachine Γ) (.initial now store dlq)) as :=
    .of_forall (fun a ha _ _ => hheaders a ha) _
  refine (always_shared_hom (pointsOfCode Γ) (Q := fun sh => OneRecord origin sh.dlq) _ as).mpr ?_
  have hinv := always_of_invariant
    (fun s a s' h hC hs => OneSender.step h hC.1 hC.2.1 hC.2.2.1 hC.2.2.2 hs) (.fresh hnone)
    (along_and.mpr ⟨hsame, along_and.mpr ⟨hkept, along_and.mpr ⟨hwindow, hagain⟩⟩⟩)
  exact hinv.mono fun s hs => hs.recorded.one

/-- The message 1 for the consumer `billing`. -/
def rejectedOrigin : String × String × ℕ := ("EVENTS", "billing", 1)

/-- A handler that rejects the message at its first delivery, whose dead letter is stored
but not acknowledged. -/
def unacknowledgedRun : List (Action (world events)) :=
  undisturbed 0 (eventsDelivery "billing" "6ba7b810-9dad-11d1-80b4-00c04fd430c8" 1 1)
      (.error (.permanent "unknown address")) 3 ++
    [.fail 0 .served (eventsChoice (.ok ())) ⟨.nats "", .ack "broken pipe"⟩, .resume 0,
      .serve 0 (eventsChoice (.ok ())), .resume 0, .serve 0 (eventsChoice (.ok ())), .resume 0]

/-- The run goes on: the handler rejects the message at its second delivery as well. -/
def rejectedTwiceRun : List (Action (world events)) :=
  unacknowledgedRun ++
    undisturbed 1 (eventsDelivery "billing" "6ba7b810-9dad-11d1-80b4-00c04fd430c8" 1 2)
      (.error (.permanent "unknown address")) 6

/-- **A message can have two dead letters.**  The second publish of the run, made within
the duplicate window, has another id than the first, whose acknowledgement was lost. -/
theorem two_dead_letters_events :
    Along (step (codeMachine events))
        (fun s a s' => InWindow rejectedOrigin (look (codeMachine events) s) a
          (look (codeMachine events) s'))
        (fresh (codeMachine events) (.initial 0 (fun _ => none) [])) rejectedTwiceRun ∧
      ¬ Always (step (codeMachine events)) (fun s => OneRecord rejectedOrigin s.shared.dlq)
        (fresh (codeMachine events) (.initial 0 (fun _ => none) [])) rejectedTwiceRun := by
  refine ⟨?_, ?_⟩ <;> decide +kernel

/-- A handler that rejects the message twice: the first dead letter does not reach the stream;
the second does and is acknowledged, but then neither `mark_done` nor `term` succeeds, and the
message is delivered once more. -/
def unsettledRun : List (Action (world events)) :=
  undisturbed 0 (eventsDelivery "billing" "6ba7b810-9dad-11d1-80b4-00c04fd430c8" 1 1)
      (.error (.permanent "unknown address")) 3 ++
    [.fail 0 .dropped (eventsChoice (.ok ())) ⟨.nats "", .send "broken pipe"⟩, .resume 0,
      .serve 0 (eventsChoice (.ok ())), .resume 0, .serve 0 (eventsChoice (.ok ())), .resume 0] ++
  undisturbed 1 (eventsDelivery "billing" "6ba7b810-9dad-11d1-80b4-00c04fd430c8" 1 2)
      (.error (.permanent "unknown address")) 4 ++
    [.fail 1 .dropped (eventsChoice (.ok ())) ⟨.idempotency "redis: timeout", .send ""⟩, .resume 1,
      .fail 1 .dropped (eventsChoice (.ok ())) ⟨.nats "broken pipe", .send ""⟩, .resume 1] ++
  undisturbed 2 (eventsDelivery "billing" "6ba7b810-9dad-11d1-80b4-00c04fd430c8" 1 3)
      (.error (.permanent "unknown address")) 2

/-- INTERNAL: the result on a run in which hardly anything is settled. -/
theorem one_dead_letter_events :
    Always (step (codeMachine events)) (fun s => OneRecord rejectedOrigin s.shared.dlq)
      (fresh (codeMachine events) (.initial 0 (fun _ => none) [])) unsettledRun := by
  have hquiet : ∀ a ∈ unsettledRun, Action.isDrift a = false := by decide +kernel
  refine one_dead_letter events (RedisIdempotencyStore.contract _) rejectedOrigin
    (some [(hdrNatsMsgId, "6ba7b810-9dad-11d1-80b4-00c04fd430c8")]) 0 _ [] (by decide) _
    (by decide +kernel) (by decide +kernel) (Along.of_forall ?_ _) (by decide +kernel)
  exact fun a ha s s' => (noExpiry_of_not_drift (hquiet a ha)).keyKept _

end EventBus.Analysis
