import EventBus.Analysis.DlqHeaders
import EventBus.Analysis.Settlement

/-!
# Dead letters tell the truth

A dead letter is an account of a failure that somebody reads later and elsewhere.  `TrueRecord`
says what is true of it: it has the payload of a message that was delivered, names that message
and the consumer, and states a cause that was there, as the handler or the decoder put it.
`Told` says that nobody is spared one: before a message was terminated, its dead letter was stored.
How long a stream keeps it is the business of the stream.

The invariant follows a failure from the handler into the stream.  What a worker carries between
two calls is true when it is written down and stays true, because nothing is ever taken out of
the log; so it does not matter how late a publish arrives, or whether anybody still waits for it.
-/

set_option autoImplicit false

namespace EventBus.Analysis

open EventBus.Model EventBus.Lib EventBus.Interface

variable {U E : Type} {Γ : Deployment U E}

/-! ## What is true of a dead letter -/

/-- The log has it that this happened to the delivery. -/
def Happened (log : List (Entry Γ)) (d : Delivery Γ) (what : Occurrence) : Prop :=
  ∃ e ∈ log, e.delivery = d ∧ e.what = what

/-- The causes that a dead letter can state, each with what must have happened. -/
inductive TrueCause (log : List (Entry Γ)) (d : Delivery Γ) : Cause → Prop where
  | poison {error : String} (h : Γ.fromSlice d.sub d.msg.payload = .error error) :
      TrueCause log d ⟨reasonInvalidPayload, classPoison, error⟩
  | permanent {reason : String} (h : Happened log d (.handled (.error (.permanent reason)))) :
      TrueCause log d ⟨reasonHandlerPermanent, classPermanent, reason⟩
  | exhausted {reason : String} (h : Happened log d (.handled (.error (.transient reason))))
      (hlast : 0 < d.options.maxDeliver ∧ d.options.maxDeliver ≤ d.info.delivered) :
      TrueCause log d ⟨reasonMaxRetriesExceeded, classTransientExhausted, reason⟩

/-- What a dead letter tells of a delivery that failed for this cause at this time. -/
def account [UuidCrate U] (d : Delivery Γ) (cause : Cause) (time : ℕ) : HeaderMap :=
  [(hdrNatsMsgId, dedupIdOf d),
   (hdrOriginalSubject, d.msg.subject),
   (hdrOriginalStream, d.options.source),
   (hdrOriginalSeq, toString d.info.streamSequence),
   (hdrOriginalMsgId, d.msgId.toString),
   (hdrFailureReason, cause.failureReason),
   (hdrFailureClass, cause.failureClass),
   (hdrFailureDetail, cause.failureDetail),
   (hdrRetryCount, toString (asU64 d.info.delivered)),
   (hdrConsumer, d.options.durable),
   (hdrFailedAt, toString (time / 1000))]

section

variable [UuidCrate U]

/-- The headers that the code builds are the account. -/
theorem headers_eq_account (d : Delivery Γ) (cause : Cause) (time : ℕ) :
    cause.headers d (toString (time / 1000)) = account d cause time := by
  rw [Cause.headers, buildDlqHeaders_eq]
  rfl

/-- The record is a true account of a failure of the delivery. -/
structure TrueRecord (log : List (Entry Γ)) (d : Delivery Γ) (r : DlqRecord) : Prop where
  delivered : Happened log d .delivered
  claimed : Happened log d .claimed
  readable : d.readable = true
  enabled : d.options.dlqOpts.isSome = true
  subject : r.subject = dlqSubject d.options.source d.options.durable
  payload : r.payload = d.msg.payload
  headers : ∃ cause time, TrueCause log d cause ∧ time ≤ r.storedAt ∧ r.headers = account d cause time

end

/-- The dead letter stream of the consumer stored a record under the id of the delivery by this
time, or had one at first. -/
def Told (dlq₀ dlq : List DlqRecord) (time : ℕ) (d : Delivery Γ) : Prop :=
  ∃ r ∈ dlq, r.subject = dlqSubject d.options.source d.options.durable ∧
    r.headers.get hdrNatsMsgId = some (dedupIdOf d) ∧ (r ∈ dlq₀ ∨ r.storedAt ≤ time)

/-- All dead letters that were stored since the beginning are true, and when somebody was told of
one, or terminated a message on it, it was stored. -/
structure TrueDlq [UuidCrate U] (dlq₀ : List DlqRecord) (sh : Shared Γ) : Prop where
  records : ∀ r ∈ sh.dlq, r ∈ dlq₀ ∨ ∃ d, TrueRecord sh.log d r
  stored : ∀ r ∈ sh.dlq, r ∈ dlq₀ ∨ r.storedAt ≤ sh.now
  acked : ∀ e ∈ sh.log, e.what = .dlqAcked → Told dlq₀ sh.dlq e.time e.delivery
  termed : ∀ e ∈ sh.log, e.what = .termed → e.delivery.options.dlqOpts.isSome = true →
    Told dlq₀ sh.dlq e.time e.delivery

/-! ## What stays true -/

section

variable {log log' : List (Entry Γ)} {d : Delivery Γ} {cause : Cause} {what : Occurrence}

/-- INTERNAL: what has happened has happened. -/
theorem Happened.mono (h : Happened log d what) (hlog : log ⊆ log') : Happened log' d what := by
  obtain ⟨e, he, hrest⟩ := h
  exact ⟨e, hlog he, hrest⟩

/-- INTERNAL: a true cause stays true. -/
theorem TrueCause.mono (h : TrueCause log d cause) (hlog : log ⊆ log') :
    TrueCause log' d cause := by
  cases h with
  | poison h => exact .poison h
  | permanent h => exact .permanent (h.mono hlog)
  | exhausted h hlast => exact .exhausted (h.mono hlog) hlast

/-- INTERNAL: a dead letter that was stored by some time was stored by any later time. -/
theorem Told.mono {dlq₀ dlq dlq' : List DlqRecord} {time time' : ℕ} (h : Told dlq₀ dlq time d)
    (hdlq : dlq ⊆ dlq') (htime : time ≤ time') : Told dlq₀ dlq' time' d := by
  obtain ⟨r, hr, hsubject, hid, hstored⟩ := h
  exact ⟨r, hdlq hr, hsubject, hid, hstored.imp_right fun hle => Nat.le_trans hle htime⟩

variable [UuidCrate U]

/-- INTERNAL: a true account stays true. -/
theorem TrueRecord.mono {r : DlqRecord} (h : TrueRecord log d r) (hlog : log ⊆ log') :
    TrueRecord log' d r where
  delivered := h.delivered.mono hlog
  claimed := h.claimed.mono hlog
  readable := h.readable
  enabled := h.enabled
  subject := h.subject
  payload := h.payload
  headers := by
    obtain ⟨cause, time, hcause, hrest⟩ := h.headers
    exact ⟨cause, time, hcause.mono hlog, hrest⟩

end

/-- How the shared state changes: nothing is taken out of the log or the stream, and the clock
does not go back. -/
structure OnlyMore (sh sh' : Shared Γ) : Prop where
  log : sh.log ⊆ sh'.log
  dlq : sh.dlq ⊆ sh'.dlq
  now : sh.now ≤ sh'.now

/-! ## What workers carry -/

section

variable [UuidCrate U]

/-- What is true of a worker at a point. -/
def CarriesTruth (dlq₀ : List DlqRecord) (sh : Shared Γ) (d : Delivery Γ) : Point E → Prop
  | .handle _ => Happened sh.log d .claimed
  | .stamp _ cause =>
    Happened sh.log d .claimed ∧ TrueCause sh.log d cause ∧ d.options.dlqOpts.isSome = true
  | .publish _ cause failedAt =>
    Happened sh.log d .claimed ∧ TrueCause sh.log d cause ∧ d.options.dlqOpts.isSome = true ∧
      ∃ time ≤ sh.now, failedAt = toString (time / 1000)
  | .markTerm | .term => d.options.dlqOpts.isSome = true → Told dlq₀ sh.dlq sh.now d
  | _ => True

/-- What is true of a worker wherever it is. -/
structure TruthfulAt (dlq₀ : List DlqRecord) (sh : Shared Γ) (d : Delivery Γ) (p : Point E) :
    Prop where
  delivered : Happened sh.log d .delivered
  readable : p ≠ .finished → d.readable = true
  carries : CarriesTruth dlq₀ sh d p

omit [UuidCrate U] in
/-- INTERNAL: what a worker carries stays true. -/
theorem CarriesTruth.mono {dlq₀ : List DlqRecord} {sh sh' : Shared Γ} {d : Delivery Γ}
    {p : Point E} (h : CarriesTruth dlq₀ sh d p) (hmore : OnlyMore sh sh') :
    CarriesTruth dlq₀ sh' d p := by
  cases p with
  | handle event => exact Happened.mono h hmore.log
  | stamp config cause => exact ⟨h.1.mono hmore.log, h.2.1.mono hmore.log, h.2.2⟩
  | publish config cause failedAt =>
    obtain ⟨hclaimed, hcause, henabled, time, hle, htime⟩ := h
    exact ⟨hclaimed.mono hmore.log, hcause.mono hmore.log, henabled, time,
      Nat.le_trans hle hmore.now, htime⟩
  | markTerm | term => exact fun henabled => (h henabled).mono hmore.dlq hmore.now
  | _ => trivial

omit [UuidCrate U] in
/-- INTERNAL: what is true of a worker stays true. -/
theorem TruthfulAt.mono {dlq₀ : List DlqRecord} {sh sh' : Shared Γ} {d : Delivery Γ}
    {p : Point E} (h : TruthfulAt dlq₀ sh d p) (hmore : OnlyMore sh sh') :
    TruthfulAt dlq₀ sh' d p :=
  ⟨h.delivered.mono hmore.log, h.readable, h.carries.mono hmore⟩

/-- INTERNAL: the dead letters stay true when the log grows by lines that promise none. -/
theorem TrueDlq.grow {dlq₀ : List DlqRecord} {sh sh' : Shared Γ} (h : TrueDlq dlq₀ sh)
    (hdlq : sh'.dlq = sh.dlq) (hnow : sh.now ≤ sh'.now) (hlog : sh.log ⊆ sh'.log)
    (hacked : ∀ e ∈ sh'.log, e.what = .dlqAcked →
      e ∈ sh.log ∨ Told dlq₀ sh.dlq e.time e.delivery)
    (htermed : ∀ e ∈ sh'.log, e.what = .termed → e.delivery.options.dlqOpts.isSome = true →
      e ∈ sh.log ∨ Told dlq₀ sh.dlq e.time e.delivery) : TrueDlq dlq₀ sh' where
  records r hr := (h.records r (hdlq ▸ hr)).imp_right fun ⟨d, hd⟩ => ⟨d, hd.mono hlog⟩
  stored r hr := (h.stored r (hdlq ▸ hr)).imp_right fun hle => Nat.le_trans hle hnow
  acked e he hwhat := hdlq ▸ (hacked e he hwhat).elim (fun hold => h.acked e hold hwhat) id
  termed e he hwhat henabled :=
    hdlq ▸ (htermed e he hwhat henabled).elim (fun hold => h.termed e hold hwhat henabled) id

/-- INTERNAL: a line that promises no dead letter. -/
theorem TrueDlq.addLine {dlq₀ : List DlqRecord} {sh sh' : Shared Γ} (h : TrueDlq dlq₀ sh) {i : ℕ}
    {d : Delivery Γ} {what : Option Occurrence} (hdlq : sh'.dlq = sh.dlq)
    (hnow : sh'.now = sh.now) (hlog : sh'.log = Interface.addLine sh i d what)
    (hacked : what ≠ some .dlqAcked)
    (htermed : what = some .termed → d.options.dlqOpts.isSome = true →
      Told dlq₀ sh.dlq sh.now d) : TrueDlq dlq₀ sh' := by
  refine h.grow hdlq (Nat.le_of_eq hnow.symm) (hlog ▸ log_subset_addLine i d sh what) ?_ ?_
  · intro e he hwhat
    rw [hlog] at he
    rcases of_mem_addLine i d sh he with hold | ⟨w, rfl, rfl⟩
    · exact .inl hold
    · exact absurd (congrArg some hwhat) hacked
  · intro e he hwhat henabled
    rw [hlog] at he
    rcases of_mem_addLine i d sh he with hold | ⟨w, rfl, rfl⟩
    · exact .inl hold
    · exact .inr (htermed (congrArg some hwhat) henabled)

/-! ## What a call does -/

variable {dlq₀ : List DlqRecord} {sh sh' : Shared Γ} {d : Delivery Γ} {p : Point E} {c : Call U E}

omit [UuidCrate U] in
/-- INTERNAL: a publish takes no dead letter away. -/
theorem dlq_subset_publish (sh : Shared Γ) (subject : String) (headers : HeaderMap)
    (payload : Bytes) : sh.dlq ⊆ (sh.publish subject headers payload).dlq := by
  intro r hr
  rw [publish_dlq]
  split
  · exact hr
  · exact List.mem_cons_of_mem _ hr

omit [UuidCrate U] in
/-- INTERNAL: serving a call takes nothing away. -/
theorem onlyMore_effect (seen : Bool) (i : ℕ) (d : Delivery Γ) (c : Call U E) (ch : Choice Γ)
    (sh : Shared Γ) : OnlyMore sh (Shared.effect seen i d c ch sh) where
  log := log_subset_effect seen i d c ch sh
  dlq := by
    rw [effect_dlq]
    cases c with
    | publishWithHeaders subject headers payload timeout =>
      exact dlq_subset_publish sh subject headers payload
    | _ => exact fun r hr => hr
  now := Nat.le_of_eq (effect_now seen i d c ch sh).symm

omit [UuidCrate U] in
/-- INTERNAL: what is stored by a publish is stored now. -/
theorem stored_publish (subject : String) (headers : HeaderMap) (payload : Bytes)
    (h : ∀ r ∈ sh.dlq, r ∈ dlq₀ ∨ r.storedAt ≤ sh.now) :
    ∀ r ∈ (sh.publish subject headers payload).dlq, r ∈ dlq₀ ∨ r.storedAt ≤ sh.now := by
  intro r hr
  rw [publish_dlq] at hr
  split at hr
  · exact h r hr
  · rcases List.mem_cons.mp hr with rfl | hold
    · exact .inr (Nat.le_refl _)
    · exact h r hold

omit [UuidCrate U] in
/-- INTERNAL: after a publish the stream has stored a dead letter with its id, now or before. -/
theorem told_publish {headers : HeaderMap} (payload : Bytes)
    (h : ∀ r ∈ sh.dlq, r ∈ dlq₀ ∨ r.storedAt ≤ sh.now)
    (hid : headers.get hdrNatsMsgId = some (dedupIdOf d)) :
    Told dlq₀ (sh.publish (dlqSubject d.options.source d.options.durable) headers payload).dlq
      sh.now d := by
  have hstored := stored_publish (dlqSubject d.options.source d.options.durable) headers payload h
  obtain ⟨r, hr, hsubject, hmsgId⟩ : ∃ r ∈ (sh.publish
      (dlqSubject d.options.source d.options.durable) headers payload).dlq,
      r.subject = dlqSubject d.options.source d.options.durable ∧
        r.headers.get hdrNatsMsgId = some (dedupIdOf d) := by
    rw [publish_dlq, hid]
    split
    · rename_i hduplicate
      obtain ⟨r, hr, hsubject, hmsgId, -⟩ := isDuplicate_iff.mp hduplicate
      exact ⟨r, hr, hsubject, hmsgId⟩
    · exact ⟨_, List.mem_cons_self, rfl, hid⟩
  exact ⟨r, hr, hsubject, hmsgId, hstored r hr⟩

/-- INTERNAL: the publish of a worker that carries the truth stores a true record, unless the
stream has one with its id. -/
theorem TrueDlq.publish {config : DlqConfig} {cause : Cause} {failedAt : String} {i : ℕ}
    {what : Occurrence} (h : TrueDlq dlq₀ sh)
    (hp : TruthfulAt dlq₀ sh d (.publish config cause failedAt : Point E))
    (hnow : sh'.now = sh.now) (hdlq : sh'.dlq = (sh.publish (dlqSubject d.options.source d.options.durable)
      (cause.headers d failedAt) d.msg.payload).dlq)
    (hlog : sh'.log = ⟨i, d, sh.now, what⟩ :: sh.log) : TrueDlq dlq₀ sh' := by
  obtain ⟨hclaimed, hcause, henabled, time, hle, rfl⟩ := hp.carries
  have hgrows : sh.log ⊆ sh'.log := hlog ▸ List.subset_cons_self ..
  have hmore : sh.dlq ⊆ sh'.dlq := hdlq ▸ dlq_subset_publish ..
  have htold : Told dlq₀ sh'.dlq sh.now d := hdlq ▸ told_publish d.msg.payload h.stored
    (headers_msgId cause d (toString (time / 1000)))
  have hold : ∀ r ∈ sh.dlq, r ∈ dlq₀ ∨ ∃ d, TrueRecord sh'.log d r := fun r hr =>
    (h.records r hr).imp_right fun ⟨d, hd⟩ => ⟨d, hd.mono hgrows⟩
  constructor
  · intro r hr
    rw [hdlq, publish_dlq] at hr
    split at hr
    · exact hold r hr
    · rcases List.mem_cons.mp hr with rfl | hr
      · refine .inr ⟨d, ?_⟩
        exact
          { delivered := hp.delivered.mono hgrows
            claimed := hclaimed.mono hgrows
            readable := hp.readable nofun
            enabled := henabled
            subject := rfl
            payload := rfl
            headers := ⟨cause, time, hcause.mono hgrows, hle, headers_eq_account d cause time⟩ }
      · exact hold r hr
  · rw [hdlq, hnow]
    exact stored_publish _ _ _ h.stored
  · intro e he hacked
    rcases List.mem_cons.mp (hlog ▸ he) with rfl | he
    · exact htold
    · exact (h.acked e he hacked).mono hmore (Nat.le_refl _)
  · intro e he htermed hdlq
    rcases List.mem_cons.mp (hlog ▸ he) with rfl | he
    · exact htold
    · exact (h.termed e he htermed hdlq).mono hmore (Nat.le_refl _)

/-- INTERNAL: serving the call of a worker that carries the truth keeps the dead letters true. -/
theorem TrueDlq.effect (h : TrueDlq dlq₀ sh) (hp : TruthfulAt dlq₀ sh d p)
    (hc : (pointMachine Γ).head d p = some c) (seen : Bool) (i : ℕ) (ch : Choice Γ) :
    TrueDlq dlq₀ (Shared.effect seen i d c ch sh) := by
  have hlog := effect_log seen i d c ch sh
  cases p with
  | publish config cause failedAt =>
    cases hc
    exact h.publish hp (effect_now ..) (effect_dlq ..) hlog
  | term =>
    cases hc
    exact h.addLine (effect_dlq ..) (effect_now ..) hlog nofun fun _ => hp.carries
  | finished => cases hc
  | _ =>
    cases hc
    refine h.addLine (effect_dlq ..) (effect_now ..) hlog (fun hw => ?_) fun hw => ?_
    · cases notes_of_noted hw
    · cases notes_of_noted hw

/-! ## What a worker carries on -/

omit [UuidCrate U] in
/-- INTERNAL: what goes on to a dead letter has a true cause. -/
theorem carriesTruth_terminal {cause : Cause} (hclaimed : Happened sh.log d .claimed)
    (hcause : TrueCause sh.log d cause) :
    CarriesTruth dlq₀ sh d (Point.terminal d cause : Point E) := by
  unfold Point.terminal
  cases hopts : d.options.dlqOpts with
  | none =>
    intro henabled
    rw [hopts] at henabled
    cases henabled
  | some dlqOpts => exact ⟨hclaimed, hcause, by rw [hopts]; rfl⟩

omit [UuidCrate U] in
/-- INTERNAL: a granted claim is what the worker carries on. -/
theorem carriesTruth_afterClaim (hclaimed : Happened sh.log d .claimed) :
    CarriesTruth dlq₀ sh d (Point.afterClaim d : Point E) := by
  unfold Point.afterClaim
  split
  · rename_i error herror
    exact carriesTruth_terminal hclaimed (.poison herror)
  · exact hclaimed

omit [UuidCrate U] in
/-- INTERNAL: the result of a handler is what the worker carries on. -/
theorem carriesTruth_afterHandler {result : Except HandlerError Unit}
    (hclaimed : Happened sh.log d .claimed) (hresult : Happened sh.log d (.handled result)) :
    CarriesTruth dlq₀ sh d (Point.afterHandler d result : Point E) := by
  rcases result with (reason | reason) | ⟨⟩
  · simp only [Point.afterHandler]
    split
    · rename_i hlast
      unfold isFinalAttempt at hlast
      simp only [Bool.and_eq_true, decide_eq_true_eq] at hlast
      exact carriesTruth_terminal hclaimed (.exhausted hresult hlast)
    · trivial
  · exact carriesTruth_terminal hclaimed (.permanent hresult)
  · trivial

/-- INTERNAL: a worker that is answered carries on the truth. -/
theorem TruthfulAt.answered {k : c.Resp → Point E} (hsh : TrueDlq dlq₀ sh)
    (hp : TruthfulAt dlq₀ sh d p) (hv : Point.view d p = some ⟨c, k⟩) (i : ℕ) (ch : Choice Γ) :
    CarriesTruth dlq₀ (Shared.effect true i d c ch sh) d (k (Shared.answer c ch sh)) := by
  have hmore := onlyMore_effect true i d c ch sh
  have hline : ∀ {what : Occurrence}, noted true c ch sh = some what →
      Happened (Shared.effect true i d c ch sh).log d what := by
    intro what hwhat
    rw [effect_log, hwhat]
    exact ⟨_, List.mem_cons_self, rfl, rfl⟩
  cases p with
  | claim =>
    cases hv
    cases houtcome : Shared.answer (.tryClaim d.msgId : Call U E) ch sh with
    | error e => trivial
    | ok outcome =>
      cases outcome with
      | claimed =>
        refine carriesTruth_afterClaim (hline ?_)
        have hclaimed : (Γ.store.tryClaim sh.now ch.store d.msgId sh.store).1 = .ok .claimed :=
          houtcome
        simp only [noted, hclaimed]
      | alreadyPending => trivial
      | alreadyDone => trivial
  | handle event =>
    cases hv
    exact carriesTruth_afterHandler (Happened.mono hp.carries hmore.log) (hline rfl)
  | stamp config cause =>
    cases hv
    obtain ⟨hclaimed, hcause, henabled⟩ := hp.carries
    exact ⟨hclaimed, hcause, henabled, sh.now, Nat.le_refl _, rfl⟩
  | publish config cause failedAt =>
    cases hv
    intro _
    rw [effect_dlq, effect_now]
    exact told_publish d.msg.payload hsh.stored (headers_msgId cause d failedAt)
  | markTerm =>
    cases hv
    exact hp.carries.mono hmore
  | markAck | ack | term | release delay | nak delay =>
    cases hv
    trivial
  | finished => cases hv

/-- INTERNAL: a worker that is told of a failure carries on the truth. -/
theorem TruthfulAt.failed {d' : Delivery Γ} {p' : Point E} (hp : TruthfulAt dlq₀ sh d p)
    (hlost : Lost (pointMachine Γ) d p (some (d', p'))) : d' = d ∧ CarriesTruth dlq₀ sh d p' := by
  cases hlost with
  | failed hv hr =>
    refine ⟨rfl, ?_⟩
    cases p with
    | claim =>
      cases hv
      obtain rfl := Option.some.inj hr
      trivial
    | publish config cause failedAt =>
      cases hv
      simp only [world, Call.failure] at hr
      split at hr
      · obtain rfl := Option.some.inj hr
        trivial
      · cases hr
    | handle event | stamp config cause =>
      cases hv
      cases hr
    | markTerm =>
      cases hv
      exact hp.carries
    | markAck | ack | term | release delay | nak delay =>
      cases hv
      trivial
    | finished => cases hv

/-! ## The invariant -/

/-- The dead letters are true, and so is what the workers and the calls under way carry. -/
def truthfulDlq (dlq₀ : List DlqRecord) : Local (pointMachine Γ) where
  shared := TrueDlq dlq₀
  site := TruthfulAt dlq₀
  underWay sh d c := ∃ p, (pointMachine Γ).head d p = some c ∧ TruthfulAt dlq₀ sh d p

/-- INTERNAL: whoever makes a call could read its message. -/
theorem readable_of_view {k : c.Resp → Point E} (hp : TruthfulAt dlq₀ sh d p)
    (hv : Point.view d p = some ⟨c, k⟩) : d.readable = true := by
  apply hp.readable
  rintro rfl
  cases hv

/-- **Every step keeps the dead letters true.** -/
theorem truthfulDlq_kept (dlq₀ : List DlqRecord) :
    (truthfulDlq (Γ := Γ) dlq₀).Kept (fun _ _ => True) OnlyMore where
  site_stable hmore hp := hp.mono hmore
  underWay_stable hmore := fun ⟨p, hc, hp⟩ => ⟨p, hc, hp.mono hmore⟩
  start i d sh hsh _ := by
    have hlog : (sh.note i d .delivered).log = Interface.addLine sh i d (some .delivered) := rfl
    rw [spawn_eq]
    refine ⟨⟨List.subset_cons_self .., fun r hr => hr, Nat.le_refl _⟩, ?_, ?_, ?_, ?_⟩
    · exact hsh.addLine rfl rfl hlog nofun nofun
    · exact ⟨_, List.mem_cons_self, rfl, rfl⟩
    · intro hstart
      by_contra hreadable
      exact hstart (if_neg hreadable)
    · rcases start_cases d with h | h <;> rw [h] <;> trivial
  reach i d p sh hsh _ := by
    have hline : TrueDlq dlq₀
        ⟨sh.now, sh.store, sh.dlq, Interface.addLine sh i d (reachLine p)⟩ := by
      refine TrueDlq.addLine hsh rfl rfl rfl ?_ ?_
      · cases p <;> nofun
      · cases p <;> nofun
    rw [reachPoint_eq]
    exact ⟨⟨log_subset_addLine i d sh _, fun r hr => hr, Nat.le_refl _⟩, hline⟩
  made hp hc := ⟨_, hc, hp⟩
  effect seen i d c ch sh hsh := fun ⟨p, hc, hp⟩ =>
    ⟨onlyMore_effect seen i d c ch sh, hsh.effect hp hc seen i ch⟩
  answered i d p c k ch sh hsh hp hv :=
    ⟨hp.delivered.mono (onlyMore_effect true i d c ch sh).log, fun _ => readable_of_view hp hv,
      TruthfulAt.answered hsh hp hv i ch⟩
  lost hsh hp hlost := by
    obtain ⟨rfl, hcarries⟩ := hp.failed hlost
    cases hlost with
    | failed hv hr => exact ⟨hp.delivered, fun _ => readable_of_view hp hv, hcarries⟩
  drift e sh hsh :=
    ⟨⟨fun _ he => he, fun _ hr => hr, Nat.le_add_right ..⟩,
      TrueDlq.grow hsh rfl (Nat.le_add_right ..) (List.Subset.refl _) (fun _ he _ => .inl he)
        fun _ he _ _ => .inl he⟩

/-- INTERNAL: on the program of a worker. -/
theorem trueDlq_always (Γ : Deployment U E) (now : ℕ) (store : Γ.store.State)
    (dlq₀ : List DlqRecord) (as : List (Action (world Γ))) :
    Always (step (codeMachine Γ)) (fun s => TrueDlq dlq₀ s.shared)
      (fresh (codeMachine Γ) (.initial now store dlq₀)) as := by
  refine (always_shared_hom (pointsOfCode Γ) _ as).mpr ?_
  have hall : Always (step (pointMachine Γ)) (truthfulDlq dlq₀).Holds
      (fresh (pointMachine Γ) (.initial now store dlq₀)) as := by
    refine always_of_step
      (fun _ _ _ h hs => (truthfulDlq_kept dlq₀).step h (fun _ _ _ => trivial) hs) (.fresh ?_)
    exact ⟨fun r hr => .inl hr, fun r hr => .inl hr, nofun, nofun⟩
  exact hall.mono fun s hs => hs.shared

/-- **Dead letters tell the truth.**  Take any subscriptions over any store and dead letter
streams with anything in them.  In every state of every run, whatever is delivered, however the
workers interleave, and whichever calls fail, are lost or take effect late: a dead letter that was
stored since is a true account of a failure; and when a dead letter publish was acknowledged, or
a message was terminated by a subscription with dead letters, a dead letter under the id of the
delivery had been stored.
SRC: subscriber.rs:426-586, dlq.rs:113-139, dlq.rs:171-204 -/
theorem dead_letters_true (Γ : Deployment U E) (now : ℕ) (store : Γ.store.State)
    (dlq₀ : List DlqRecord) (as : List (Action (world Γ))) :
    Always (step (codeMachine Γ)) (fun s => TrueDlq dlq₀ s.shared)
      (fresh (codeMachine Γ) (.initial now store dlq₀)) as :=
  trueDlq_always Γ now store dlq₀ as

/-! ## Reading a dead letter -/

omit [UuidCrate U] in
/-- INTERNAL: a true cause is one of the three failures for good.
SRC: subscriber.rs:434-441, subscriber.rs:488-495, subscriber.rs:511-518 -/
theorem TrueCause.terminal {log : List (Entry Γ)} {cause : Cause} (h : TrueCause log d cause) :
    ∃ (terminal : Terminal) (detail : String),
      cause = ⟨terminal.failureReason, terminal.failureClass, detail⟩ := by
  cases h with
  | poison h => exact ⟨.poison, _, rfl⟩
  | permanent h => exact ⟨.permanent, _, rfl⟩
  | exhausted h hlast => exact ⟨.exhausted, _, rfl⟩

/-- INTERNAL: a true record is the dead letter of a failed message. -/
theorem TrueRecord.failed {log : List (Entry Γ)} {r : DlqRecord} (h : TrueRecord log d r) :
    ∃ f : Failed U, f.msg = d.msg ∧ f.options = d.options ∧ f.msgId = d.msgId ∧
      r.headers = f.headers := by
  obtain ⟨cause, time, hcause, -, hheaders⟩ := h.headers
  obtain ⟨terminal, detail, rfl⟩ := hcause.terminal
  exact ⟨⟨terminal, d.options, d.msg, d.info, d.msgId, detail, time / 1000⟩, rfl, rfl, rfl,
    hheaders.trans (headers_eq_account d _ time).symm⟩

/-- **Dead letters that can be read.**  In every state of every run, the headers of a dead letter
that was stored since the beginning are those of a delivered message that failed for good, and are
read back as they were written, in whatever order, exactly if the texts in them are one line each.
SRC: subscriber.rs:426-586, dlq.rs:113-139 -/
theorem dead_letters_survive (Γ : Deployment U E) (now : ℕ) (store : Γ.store.State)
    (dlq₀ : List DlqRecord) (as : List (Action (world Γ))) :
    Always (step (codeMachine Γ))
      (fun s => ∀ r ∈ s.shared.dlq, r ∈ dlq₀ ∨ ∃ d ∈ s.shared.log.map Entry.delivery, ∃ f : Failed U,
        f.msg = d.msg ∧ f.options = d.options ∧ f.msgId = d.msgId ∧ r.headers = f.headers ∧
        ∀ order : HeaderMap, order.Perm r.headers → (Survives order ↔ OneLine f))
      (fresh (codeMachine Γ) (.initial now store dlq₀)) as := by
  refine (trueDlq_always Γ now store dlq₀ as).mono fun s hs r hr => ?_
  refine (hs.records r hr).imp_right fun ⟨d, hd⟩ => ?_
  obtain ⟨f, hmsg, hoptions, hid, hheaders⟩ := hd.failed
  obtain ⟨e, he, rfl, -⟩ := hd.delivered
  exact ⟨e.delivery, List.mem_map_of_mem he, f, hmsg, hoptions, hid, hheaders,
    fun order horder => survives_of_perm f (hheaders ▸ horder)⟩

end

end EventBus.Analysis
