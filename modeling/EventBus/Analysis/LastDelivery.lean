import EventBus.Analysis.Settlement

/-!
# The last delivery

A NAK asks for another delivery.  On the last delivery that the consumer makes there is
none, and the server drops the message.  Only one of the four places that send a NAK looks
at the delivery count.

The subject here is one call of `process_message`, against any combination of outcomes of
its calls.  The result says exactly for which of them a last delivery is not dropped.
-/

set_option autoImplicit false

namespace EventBus.Analysis

open EventBus.Model EventBus.Lib EventBus.Interface

variable {U E : Type} [UuidCrate U]

/-! ## What one call of `process_message` does -/

/-- What the calls of one worker come to. -/
structure Outcomes where
  tryClaim : Except BusError ClaimOutcome
  markDone : Except BusError Unit
  release : Except BusError Unit
  handle : Except HandlerError Unit
  unixTimestampSeconds : String
  publish : Except PublishFailure Unit
  doubleAck : Except BusError Unit
  nak : Except BusError Unit
  term : Except BusError Unit

/-- The answer each call gets. -/
def Outcomes.answer (o : Outcomes) : (c : Call U E) → c.Resp
  | .tryClaim _ => o.tryClaim
  | .markDone _ => o.markDone
  | .release _ => o.release
  | .handle _ _ => o.handle
  | .unixTimestampSeconds => o.unixTimestampSeconds
  | .publishWithHeaders _ _ _ _ => o.publish
  | .doubleAck => o.doubleAck
  | .nakWithDelay _ => o.nak
  | .term => o.term

/-- The calls of `process_message`, in order. -/
def callsOf (fromSlice : Bytes → Except String E) (msg : Message)
    (processingOptions : ProcessingOptions) (o : Outcomes) : List (Call U E) :=
  (processMessage fromSlice msg processingOptions).follow o.answer

/-- The call settles the message, or gives it back for another delivery. -/
def Settling : Call U E → Prop
  | .doubleAck | .nakWithDelay _ | .term => True
  | _ => False

/-- The message is handled: by this delivery, or by an earlier one as the store says. -/
def HandledIn (o : Outcomes) (calls : List (Call U E)) : Prop :=
  (∃ ctx event, Call.handle ctx event ∈ calls ∧ o.handle = .ok ()) ∨
    o.tryClaim = .ok .alreadyDone

/-- The dead letter stream has acknowledged a dead letter. -/
def RecordedIn (o : Outcomes) (calls : List (Call U E)) : Prop :=
  ∃ subject headers payload timeout,
    Call.publishWithHeaders subject headers payload timeout ∈ calls ∧ o.publish = .ok ()

/-- A delivery is given back only while another one remains, and the last one leaves the
message handled, recorded or un-settled. -/
structure NeverDrops (processingOptions : ProcessingOptions) (info : Info) (o : Outcomes)
    (calls : List (Call U E)) : Prop where
  nak : ∀ delay, Call.nakWithDelay delay ∈ calls → info.delivered < processingOptions.maxDeliver
  last : ¬ info.delivered < processingOptions.maxDeliver →
    HandledIn o calls ∨ RecordedIn o calls ∨ ∀ c ∈ calls, ¬ Settling c

/-- The outcomes of a delivery that is not given back. -/
def Finishes (fromSlice : Bytes → Except String E) (msg : Message) (o : Outcomes) : Prop :=
  o.tryClaim = .ok .alreadyDone ∨
    (o.tryClaim = .ok .claimed ∧
      (((∃ event, fromSlice msg.payload = .ok event) ∧ o.handle = .ok ()) ∨ o.publish = .ok ()))

/-! ## The calls, path by path -/

section

variable {fromSlice : Bytes → Except String E} {msg : Message}
  {processingOptions : ProcessingOptions} {info : Info} {o : Outcomes}

/-- The calls of a terminal failure with a dead letter stream. -/
def terminalCalls (msg : Message) (processingOptions : ProcessingOptions)
    (dlqOpts : DlqOptions) (o : Outcomes) (failure : TerminalFailure U) : List (Call U E) :=
  .unixTimestampSeconds ::
    .publishWithHeaders (dlqSubject processingOptions.source processingOptions.durable)
      (buildDlqHeaders (failure.info processingOptions msg) o.unixTimestampSeconds) msg.payload
      dlqOpts.config.publishAckTimeout ::
    match o.publish with
    | .ok () => [.markDone failure.msgId, .term]
    | .error _ => [.release failure.msgId, .nakWithDelay dlqOpts.config.failureNakDelay]

/-- INTERNAL: the calls of a terminal failure. -/
theorem follow_terminal {dlqOpts : DlqOptions} (hdlq : processingOptions.dlqOpts = some dlqOpts)
    (failure : TerminalFailure U) :
    (handleTerminalFailure msg processingOptions failure : Worker U E Unit).follow o.answer =
      terminalCalls msg processingOptions dlqOpts o failure := by
  unfold handleTerminalFailure terminalCalls
  rw [hdlq]
  simp only [unixTimestampSeconds, publishToDlq, Prog.perform_bind, Prog.call_bind,
    Prog.follow_call, Outcomes.answer]
  rcases o.publish with e | ⟨⟩ <;> rfl

/-- INTERNAL: a terminal failure drops the message on the last delivery exactly when its
publish fails. -/
theorem neverDrops_terminal {dlqOpts : DlqOptions} {failure : TerminalFailure U}
    {before : List (Call U E)} (hbefore : ∀ c ∈ before, ¬ Settling c) :
    NeverDrops processingOptions info o
        (before ++ terminalCalls msg processingOptions dlqOpts o failure) ↔
      (info.delivered < processingOptions.maxDeliver ∨ o.publish = .ok ()) := by
  have hnak : ∀ delay, Call.nakWithDelay delay ∉ before :=
    fun delay hmem => hbefore _ hmem trivial
  cases hpub : o.publish with
  | ok =>
    refine ⟨fun _ => .inr rfl, fun _ => ⟨fun delay hmem => ?_, fun _ => .inr (.inl ?_)⟩⟩
    · simp [terminalCalls, hpub, hnak] at hmem
    · exact ⟨_, _, _, _, List.mem_append_right _ (List.mem_cons_of_mem _ List.mem_cons_self), hpub⟩
  | error e =>
    simp only [reduceCtorEq, or_false]
    refine ⟨fun h => h.nak dlqOpts.config.failureNakDelay ?_, fun h => ?_⟩
    · simp [terminalCalls, hpub]
    · exact ⟨fun _ _ => h, fun hlast => absurd h hlast⟩

omit [UuidCrate U] in
/-- INTERNAL: where a NAK is sent, another delivery must remain. -/
theorem neverDrops_nak {calls : List (Call U E)} (delay : Duration)
    (hmem : Call.nakWithDelay delay ∈ calls) :
    NeverDrops processingOptions info o calls ↔
      info.delivered < processingOptions.maxDeliver :=
  ⟨fun h => h.nak delay hmem, fun h => ⟨fun _ _ => h, fun hlast => absurd h hlast⟩⟩

/-- INTERNAL: the path after the handler. -/
theorem neverDrops_afterHandler {dlqOpts : DlqOptions}
    (hdlq : processingOptions.dlqOpts = some dlqOpts) (hmax : 0 < processingOptions.maxDeliver)
    (msgId : MessageId U) (ctx : HandlerCtx U) (event : E) :
    NeverDrops processingOptions info o (.tryClaim msgId :: .handle ctx event ::
        (Model.afterHandler msg processingOptions info msgId o.handle : Worker U E Unit).follow
          o.answer) ↔
      (info.delivered < processingOptions.maxDeliver ∨ o.handle = .ok () ∨ o.publish = .ok ()) := by
  have hbefore : ∀ c ∈ [Call.tryClaim msgId, .handle ctx event], ¬ Settling c := by
    intro c hc
    rcases List.mem_cons.mp hc with rfl | hc
    · exact id
    · obtain rfl := List.mem_singleton.mp hc
      exact id
  have hterminal : ∀ failure : TerminalFailure U,
      NeverDrops processingOptions info o ([.tryClaim msgId, .handle ctx event] ++
          terminalCalls msg processingOptions dlqOpts o failure) ↔
        (info.delivered < processingOptions.maxDeliver ∨ o.publish = .ok ()) :=
    fun failure => neverDrops_terminal hbefore
  unfold Model.afterHandler
  rcases hres : o.handle with (reason | reason) | ⟨⟩
  · by_cases hfinal : isFinalAttempt processingOptions info = true
    · simp only [hfinal, if_true, follow_terminal hdlq]
      simpa using hterminal _
    · have hmore : info.delivered < processingOptions.maxDeliver := by
        simp only [isFinalAttempt, Bool.and_eq_true, decide_eq_true_eq, not_and] at hfinal
        have := hfinal hmax
        omega
      simp only [hfinal]
      exact ⟨fun _ => .inl hmore, fun _ => ⟨fun _ _ => hmore, fun hlast => absurd hmore hlast⟩⟩
  · simp only [follow_terminal hdlq]
    simpa using hterminal _
  · refine ⟨fun _ => .inr (.inl rfl), fun _ => ⟨fun delay hmem => ?_, fun _ => .inl (.inl ?_)⟩⟩
    · simp [markDone, doubleAckOrWarn, doubleAck] at hmem
    · exact ⟨ctx, event, by simp, hres⟩

end

/-! ## The result -/

/-- **A last delivery is dropped exactly when it does not finish.**  Take a consumer with
a dead letter stream and a positive delivery limit, any message, any delivery count and
any outcomes of the calls of `process_message`.  The delivery is given back only while
another one remains, and otherwise leaves the message handled, recorded or un-settled, if
and only if another one remains or the key was done already, or the claim was granted and
the handler returned `Ok` or the dead letter was acknowledged.
SRC: subscriber.rs:398-596 -/
theorem neverDrops_iff (fromSlice : Bytes → Except String E) (msg : Message)
    (processingOptions : ProcessingOptions) (o : Outcomes)
    (hdlq : processingOptions.dlqOpts.isSome) (hmax : 0 < processingOptions.maxDeliver) :
    (∀ info, msg.info = .ok info →
        NeverDrops processingOptions info o
          (callsOf (U := U) fromSlice msg processingOptions o)) ↔
      ∀ info, msg.info = .ok info →
        info.delivered < processingOptions.maxDeliver ∨ Finishes fromSlice msg o := by
  refine forall_congr' fun info => forall_congr' fun hinfo => ?_
  obtain ⟨dlqOpts, hdlq⟩ := Option.isSome_iff_exists.mp hdlq
  unfold callsOf processMessage Finishes
  rw [hinfo]
  simp only [tryClaim, Prog.perform_bind, Prog.follow_call, Outcomes.answer]
  rcases hclaim : o.tryClaim with e | (_ | _ | _)
  · simp only [reduceCtorEq, false_and, or_false]
    exact neverDrops_nak (.fromSecs 1) (by simp [nakOrWarn, nakWithDelay])
  · simp only [Model.afterClaim, Except.ok.injEq, reduceCtorEq, true_and, false_or]
    cases hevent : fromSlice msg.payload with
    | error e =>
      have hbefore : ∀ c ∈ [(Call.tryClaim (messageId processingOptions msg info) : Call U E)],
          ¬ Settling c := by
        simp [Settling]
      simp only [follow_terminal hdlq]
      simpa using neverDrops_terminal hbefore
    | ok event =>
      simp only [Model.handle, Prog.perform_bind, Prog.follow_call, Outcomes.answer]
      simpa using neverDrops_afterHandler hdlq hmax _ _ event
  · simp only [Except.ok.injEq, reduceCtorEq, false_and, or_false]
    exact neverDrops_nak (.fromSecs 1) (by simp [nakOrWarn, nakWithDelay])
  · refine ⟨fun _ => .inr (.inl rfl), fun _ => ⟨fun delay hmem => ?_, fun _ => .inl (.inr hclaim)⟩⟩
    simp [doubleAckOrWarn, doubleAck] at hmem

/-- Everything succeeds. -/
def smooth : Outcomes where
  tryClaim := .ok .claimed
  markDone := .ok ()
  release := .ok ()
  handle := .ok ()
  unixTimestampSeconds := "1700000000"
  publish := .ok ()
  doubleAck := .ok ()
  nak := .ok ()
  term := .ok ()

/-- What the calls of delivery `delivered` of five come to. -/
def eventsCalls (delivered : ℤ) (o : Outcomes) : List (Call HyphenatedUuid Bytes) :=
  callsOf (fun payload => .ok payload)
    (eventsDelivery "billing" "6ba7b810-9dad-11d1-80b4-00c04fd430c8" 1 delivered).msg
    (eventsOptions "billing") o

/-- **Last deliveries are dropped.**  The fifth delivery of five is given back when the
claim is pending elsewhere, when the store fails, and when the dead letter of a message
whose retries are exhausted cannot be published. -/
theorem last_delivery_dropped_events :
    (¬ NeverDrops (eventsOptions "billing") ⟨1, 5⟩ { smooth with tryClaim := .ok .alreadyPending }
      (eventsCalls 5 { smooth with tryClaim := .ok .alreadyPending })) ∧
    (¬ NeverDrops (eventsOptions "billing") ⟨1, 5⟩
      { smooth with tryClaim := .error (.idempotency "redis: timeout") }
      (eventsCalls 5 { smooth with tryClaim := .error (.idempotency "redis: timeout") })) ∧
    ¬ NeverDrops (eventsOptions "billing") ⟨1, 5⟩
      { smooth with
        handle := .error (.transient "timeout"), publish := .error (.ack "broken pipe") }
      (eventsCalls 5
        { smooth with
          handle := .error (.transient "timeout"), publish := .error (.ack "broken pipe") }) := by
  refine ⟨fun h => ?_, fun h => ?_, fun h => ?_⟩
  · have hnak : Call.nakWithDelay (.fromSecs 1) ∈
        eventsCalls 5 { smooth with tryClaim := .ok .alreadyPending } :=
      List.mem_cons_of_mem _ List.mem_cons_self
    exact absurd (h.nak _ hnak) (by decide)
  · have hnak : Call.nakWithDelay (.fromSecs 1) ∈
        eventsCalls 5 { smooth with tryClaim := .error (.idempotency "redis: timeout") } :=
      List.mem_cons_of_mem _ List.mem_cons_self
    exact absurd (h.nak _ hnak) (by decide)
  · have hnak : Call.nakWithDelay defaultDlqFailureNakDelay ∈ eventsCalls 5
        { smooth with
          handle := .error (.transient "timeout"), publish := .error (.ack "broken pipe") } :=
      List.mem_of_getElem? (show (eventsCalls 5 _)[5]? = _ from rfl)
    exact absurd (h.nak _ hnak) (by decide)

/-- INTERNAL: the result on a last delivery that is handled. -/
theorem neverDrops_iff_events :
    (∀ info, (eventsDelivery "billing" "6ba7b810-9dad-11d1-80b4-00c04fd430c8" 1 5).msg.info =
        .ok info → NeverDrops (eventsOptions "billing") info smooth (eventsCalls 5 smooth)) ↔
      ∀ info, (eventsDelivery "billing" "6ba7b810-9dad-11d1-80b4-00c04fd430c8" 1 5).msg.info =
        .ok info → info.delivered < (eventsOptions "billing").maxDeliver ∨
          Finishes (fun payload => (.ok payload : Except String Bytes))
            (eventsDelivery "billing" "6ba7b810-9dad-11d1-80b4-00c04fd430c8" 1 5).msg smooth :=
  neverDrops_iff _ _ _ smooth rfl (by decide)

end EventBus.Analysis
