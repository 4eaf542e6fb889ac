import EventBus.Model.World

/-!
# The control points of a worker

A worker is always at one of a few places of `process_message` and the functions it
calls.  `Point` names them, each with the data the worker still carries there, and
`pointMachine` says where a worker goes from each of them.  `pointsOfCode` reads every
point as the program text that is left at it, so that whatever is proved of
`pointMachine` and can be seen in the calls of the workers holds of `codeMachine`.
-/

set_option autoImplicit false

namespace EventBus.Interface

open EventBus.Model EventBus.Lib

variable {U E : Type} [UuidCrate U]

/-- What a terminal failure says about its cause. -/
structure Cause where
  failureReason : String
  failureClass : String
  failureDetail : String

/-- The places at which a worker can be. -/
inductive Point (E : Type) where
  | claim
  | handle (event : E)
  /-- The handler has returned `Ok`. -/
  | markAck
  | ack
  /-- A terminal failure, before its time stamp. -/
  | stamp (config : DlqConfig) (cause : Cause)
  | publish (config : DlqConfig) (cause : Cause) (failedAt : String)
  /-- A terminal failure that is dead lettered, or needs no dead letter. -/
  | markTerm
  | term
  /-- A failure that leaves the message to be retried. -/
  | release (delay : Duration)
  | nak (delay : Duration)
  | finished

variable {Γ : Deployment U E}

/-- The context the handler is given. -/
def handlerCtx (d : Delivery Γ) : HandlerCtx U where
  msgId := d.msgId
  streamSeq := d.info.streamSequence
  delivered := asU64 d.info.delivered
  subject := d.msg.subject

/-- The failure `process_message` builds from a cause. -/
def Cause.failure (cause : Cause) (d : Delivery Γ) : TerminalFailure U where
  msgId := d.msgId
  streamSequence := d.info.streamSequence
  delivered := asU64 d.info.delivered
  failureReason := cause.failureReason
  failureClass := cause.failureClass
  failureDetail := cause.failureDetail

/-- The dead letter headers of a failed delivery. -/
def Cause.headers (cause : Cause) (d : Delivery Γ) (failedAt : String) : HeaderMap :=
  buildDlqHeaders ((cause.failure d).info d.options d.msg) failedAt

namespace Point

/-- Where a terminal failure starts.
SRC: subscriber.rs:524-535 -/
def terminal (d : Delivery Γ) (cause : Cause) : Point E :=
  match d.options.dlqOpts with
  | none => .markTerm
  | some dlqOpts => .stamp dlqOpts.config cause

/-- Where a worker goes once its claim is granted. -/
def afterClaim (d : Delivery Γ) : Point E :=
  match Γ.fromSlice d.sub d.msg.payload with
  | .error e => terminal d ⟨reasonInvalidPayload, classPoison, e⟩
  | .ok event => .handle event

/-- Where a worker goes from the answer of `try_claim`. -/
def afterTryClaim (d : Delivery Γ) : Except BusError ClaimOutcome → Point E
  | .ok .claimed => afterClaim d
  | .ok .alreadyPending => .nak (.fromSecs 1)
  | .ok .alreadyDone => .ack
  | .error _ => .nak (.fromSecs 1)

/-- Where a worker goes from the result of its handler. -/
def afterHandler (d : Delivery Γ) : Except HandlerError Unit → Point E
  | .ok () => .markAck
  | .error (.transient reason) =>
    if isFinalAttempt d.options d.info then
      terminal d ⟨reasonMaxRetriesExceeded, classTransientExhausted, reason⟩
    else .release (computeBackoff d.options.backoff d.info.delivered)
  | .error (.permanent reason) => terminal d ⟨reasonHandlerPermanent, classPermanent, reason⟩

/-- Where a worker goes from the answer of its dead letter publish. -/
def afterPublish (config : DlqConfig) : Except PublishFailure Unit → Point E
  | .ok () => .markTerm
  | .error _ => .release config.failureNakDelay

/-- The call of a worker at a point and where it goes from the answer. -/
def view (d : Delivery Γ) : Point E → Option ((c : Call U E) × (c.Resp → Point E))
  | .claim => some ⟨.tryClaim d.msgId, afterTryClaim d⟩
  | .handle event => some ⟨.handle (handlerCtx d) event, afterHandler d⟩
  | .markAck => some ⟨.markDone d.msgId, fun _ => .ack⟩
  | .ack => some ⟨.doubleAck, fun _ => .finished⟩
  | .stamp config cause => some ⟨.unixTimestampSeconds, .publish config cause⟩
  | .publish config cause failedAt =>
    some ⟨.publishWithHeaders (dlqSubject d.options.source d.options.durable)
      (cause.headers d failedAt) d.msg.payload config.publishAckTimeout, afterPublish config⟩
  | .markTerm => some ⟨.markDone d.msgId, fun _ => .term⟩
  | .term => some ⟨.term, fun _ => .finished⟩
  | .release delay => some ⟨.release d.msgId, fun _ => .nak delay⟩
  | .nak delay => some ⟨.nakWithDelay delay, fun _ => .finished⟩
  | .finished => none

/-- The program that is left at a point. -/
def code (d : Delivery Γ) : Point E → Worker U E Unit
  | .claim => do
    match ← tryClaim d.msgId with
    | .ok .claimed =>
      Model.afterClaim (Γ.fromSlice d.sub) d.msg d.options d.info d.msgId
    | .ok .alreadyPending => nakOrWarn (.fromSecs 1)
    | .ok .alreadyDone => doubleAckOrWarn
    | .error _ => nakOrWarn (.fromSecs 1)
  | .handle event => do
    let result ← Model.handle (handlerCtx d) event
    Model.afterHandler d.msg d.options d.info d.msgId result
  | .markAck => do
    let _ ← markDone d.msgId
    doubleAckOrWarn
  | .ack => doubleAckOrWarn
  | .stamp config cause => do
    let failedAt ← unixTimestampSeconds
    match ← publishToDlq (dlqSubject d.options.source d.options.durable) d.msg.payload
      (cause.headers d failedAt) config.publishAckTimeout with
    | .ok () => markDoneAndTerm d.msgId
    | .error _ => releaseAndNak d.msgId config.failureNakDelay
  | .publish config cause failedAt => do
    match ← publishToDlq (dlqSubject d.options.source d.options.durable) d.msg.payload
      (cause.headers d failedAt) config.publishAckTimeout with
    | .ok () => markDoneAndTerm d.msgId
    | .error _ => releaseAndNak d.msgId config.failureNakDelay
  | .markTerm => markDoneAndTerm d.msgId
  | .term => termOrWarn
  | .release delay => releaseAndNak d.msgId delay
  | .nak delay => nakOrWarn delay
  | .finished => .pure ()

/-- INTERNAL: a worker that fails for good goes on with `handle_terminal_failure`.
SRC: subscriber.rs:524-596 -/
theorem code_terminal (d : Delivery Γ) (cause : Cause) :
    (terminal d cause).code d =
      handleTerminalFailure d.msg d.options (cause.failure d) := by
  unfold terminal handleTerminalFailure
  cases d.options.dlqOpts <;> rfl

/-- INTERNAL: the program after the claim. -/
theorem code_afterClaim (d : Delivery Γ) :
    (afterClaim d).code d =
      Model.afterClaim (Γ.fromSlice d.sub) d.msg d.options d.info d.msgId := by
  unfold afterClaim Model.afterClaim
  cases Γ.fromSlice d.sub d.msg.payload with
  | error e => exact code_terminal d _
  | ok event => rfl

/-- INTERNAL: the program after the handler. -/
theorem code_afterHandler (d : Delivery Γ) (result : Except HandlerError Unit) :
    (afterHandler d result).code d =
      Model.afterHandler d.msg d.options d.info d.msgId result := by
  unfold afterHandler Model.afterHandler
  rcases result with (reason | reason) | ⟨⟩
  · simp only
    split
    · exact code_terminal d _
    · rfl
  · exact code_terminal d _
  · rfl

/-- INTERNAL: the program of a point makes the call of the point and goes on with the
program of the point that follows. -/
theorem view_code (d : Delivery Γ) (p : Point E) :
    (p.code d).view = (p.view d).map fun ck => ⟨ck.1, fun r => (ck.2 r).code d⟩ := by
  cases p with
  | claim =>
    simp only [code, tryClaim, Prog.perform_bind, Prog.view_call, view, Option.map_some]
    congr 2
    funext r
    rcases r with e | (_ | _ | _)
    · rfl
    · exact (code_afterClaim d).symm
    · rfl
    · rfl
  | handle event =>
    simp only [code, Model.handle, Prog.perform_bind, Prog.view_call, view, Option.map_some]
    congr 2
    funext r
    exact (code_afterHandler d r).symm
  | publish config cause failedAt =>
    simp only [code, publishToDlq, Prog.perform_bind, Prog.call_bind, Prog.view_call, view,
      Option.map_some]
    congr 2
    funext r
    rcases r with e | ⟨⟩ <;> rfl
  | markAck => rfl
  | ack => rfl
  | stamp config cause => rfl
  | markTerm => rfl
  | term => rfl
  | release delay => rfl
  | nak delay => rfl
  | finished => rfl

end Point

/-- The workers as points. -/
abbrev pointMachine (Γ : Deployment U E) : Machine (world Γ) where
  Point := Point E
  start d := if d.readable then .claim else .finished
  view := Point.view

/-- INTERNAL: a worker starts with `try_claim`, or returns when its message cannot be
read. -/
theorem code_start (d : Delivery Γ) :
    Point.code d ((pointMachine Γ).start d) =
      processMessage (Γ.fromSlice d.sub) d.msg d.options := by
  obtain ⟨sub, subject, headers, payload, info⟩ := d
  cases info with
  | error e => rfl
  | ok info => rfl

/-- **The points are the program text.** -/
def pointsOfCode (Γ : Deployment U E) : Hom (pointMachine Γ) (codeMachine Γ) where
  map d p := p.code d
  map_start := code_start
  map_view d p := p.view_code d

end EventBus.Interface
