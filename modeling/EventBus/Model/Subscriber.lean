import EventBus.Lib.Prog
import EventBus.Model.Dlq

/-!
# Processing one delivered message

`processMessage` and the functions it awaits, as programs over the calls a worker makes:
the three operations of the idempotency store, the handler, the dead letter publish and
the settlement of the message.  What a call does is no part of this text; it is the
subject of `EventBus.Model.World`.

The wall clock is read through a call as well, although the source does not await it.
Log lines are left out.
-/

set_option autoImplicit false

namespace EventBus.Model

open EventBus.Lib (Prog)
open EventBus.Lib.Prog (perform)

/-- How a dead letter publish can fail, as seen by the publisher. -/
inductive PublishFailure where
  | sendTimeout
  | send (error : String)
  | ackTimeout
  | ack (error : String)
  deriving DecidableEq

/-- The calls a worker awaits. -/
inductive Call (U E : Type) where
  | tryClaim (key : MessageId U)
  | markDone (key : MessageId U)
  | release (key : MessageId U)
  | handle (ctx : HandlerCtx U) (event : E)
  | unixTimestampSeconds
  | publishWithHeaders (subject : String) (headers : HeaderMap) (payload : Bytes)
      (publishAckTimeout : Option Duration)
  | doubleAck
  | nakWithDelay (delay : Duration)
  | term

/-- What each call is answered with. -/
abbrev Call.Resp {U E : Type} : Call U E → Type
  | .tryClaim _ => Except BusError ClaimOutcome
  | .markDone _ => Except BusError Unit
  | .release _ => Except BusError Unit
  | .handle _ _ => Except HandlerError Unit
  | .unixTimestampSeconds => String
  | .publishWithHeaders _ _ _ _ => Except PublishFailure Unit
  | .doubleAck => Except BusError Unit
  | .nakWithDelay _ => Except BusError Unit
  | .term => Except BusError Unit

/-- What `Message::info` reads off the reply subject of a delivery. -/
structure Info where
  streamSequence : ℕ
  delivered : ℤ
  deriving DecidableEq

/-- A delivered message. -/
structure Message where
  subject : String
  headers : Option HeaderMap
  payload : Bytes
  info : Except String Info

/-- SRC: subscriber.rs:103-111 -/
structure ProcessingOptions where
  dlqOpts : Option DlqOptions
  source : String
  durable : String
  maxDeliver : ℤ
  backoff : List Duration

/-- SRC: subscriber.rs:113-120 -/
structure TerminalFailure (U : Type) where
  msgId : MessageId U
  streamSequence : ℕ
  delivered : ℕ
  failureReason : String
  failureClass : String
  failureDetail : String

section

variable {U : Type} [UuidCrate U]

/-- Deterministic fallback id for messages published without a `Nats-Msg-Id` header.
SRC: subscriber.rs:122-131 -/
def fallbackMessageId (stream durable : String) (streamSequence : ℕ) : MessageId U :=
  ⟨UuidCrate.newV5 (stream ++ ":" ++ durable ++ ":" ++ toString streamSequence)⟩

/-- The id in the `Nats-Msg-Id` header, else the fallback id.
SRC: subscriber.rs:379-396 -/
def messageId (processingOptions : ProcessingOptions) (msg : Message) (info : Info) :
    MessageId U :=
  ((msg.headers.bind fun h => h.get hdrNatsMsgId).bind MessageId.fromStr).getD
    (fallbackMessageId processingOptions.source processingOptions.durable info.streamSequence)

/-- SRC: subscriber.rs:598-605 -/
def computeBackoff (backoff : List Duration) (attempt : ℤ) : Duration :=
  if h : backoff = [] then fallbackNakDelay
  else
    backoff.get ⟨min (asU64 attempt - 1) (backoff.length - 1), by
      have := List.length_pos_iff.mpr h
      omega⟩

variable {E : Type}

/-- A worker between two calls. -/
abbrev Worker (U E : Type) (α : Type) := Prog (Call U E) Call.Resp α

/-- SRC: idempotency.rs:26-31 -/
def tryClaim (key : MessageId U) : Worker U E (Except BusError ClaimOutcome) :=
  perform (Call.tryClaim key)

/-- SRC: idempotency.rs:33-34 -/
def markDone (key : MessageId U) : Worker U E (Except BusError Unit) :=
  perform (Call.markDone key)

/-- SRC: idempotency.rs:36-37 -/
def release (key : MessageId U) : Worker U E (Except BusError Unit) :=
  perform (Call.release key)

/-- SRC: handler.rs:24-28 -/
def handle (ctx : HandlerCtx U) (event : E) : Worker U E (Except HandlerError Unit) :=
  perform (Call.handle ctx event)

/-- SRC: dlq.rs:199-204 -/
def unixTimestampSeconds : Worker U E String :=
  perform Call.unixTimestampSeconds

/-- SRC: ack.rs:5-11 -/
def doubleAck : Worker U E (Except BusError Unit) :=
  perform Call.doubleAck

/-- SRC: ack.rs:13-18 -/
def nakWithDelay (delay : Duration) : Worker U E (Except BusError Unit) :=
  perform (Call.nakWithDelay delay)

/-- SRC: ack.rs:20-25 -/
def term : Worker U E (Except BusError Unit) :=
  perform Call.term

/-- SRC: subscriber.rs:133-137 -/
def doubleAckOrWarn : Worker U E Unit := do
  let _ ← doubleAck
  pure ()

/-- SRC: subscriber.rs:139-143 -/
def nakOrWarn (delay : Duration) : Worker U E Unit := do
  let _ ← nakWithDelay delay
  pure ()

/-- SRC: subscriber.rs:145-149 -/
def termOrWarn : Worker U E Unit := do
  let _ ← term
  pure ()

/-- SRC: subscriber.rs:578-586 -/
def markDoneAndTerm (msgId : MessageId U) : Worker U E Unit := do
  let _ ← markDone msgId
  termOrWarn

/-- SRC: subscriber.rs:588-596 -/
def releaseAndNak (msgId : MessageId U) (delay : Duration) : Worker U E Unit := do
  let _ ← release msgId
  nakOrWarn delay

/-- The error texts of a dead letter publish.
SRC: dlq.rs:180-194 -/
def PublishFailure.toBusError : PublishFailure → BusError
  | .sendTimeout => .nats "dlq publish send timeout"
  | .send error => .nats ("dlq publish send: " ++ error)
  | .ackTimeout => .nats "dlq publish ack timeout"
  | .ack error => .nats ("dlq publish ack: " ++ error)

/-- The two awaits of the source, for the server to take the message and for its
acknowledgement, are one call here: both must succeed for the publish to succeed.
SRC: dlq.rs:171-197 -/
def publishToDlq (subject : String) (payload : Bytes) (headers : HeaderMap)
    (publishAckTimeout : Option Duration) : Worker U E (Except BusError Unit) := do
  let published : Except PublishFailure Unit ←
    perform (Call.publishWithHeaders subject headers payload publishAckTimeout)
  pure (published.mapError PublishFailure.toBusError)

/-- SRC: subscriber.rs:537-547 -/
def TerminalFailure.info (failure : TerminalFailure U) (processingOptions : ProcessingOptions)
    (msg : Message) : FailureInfo where
  originalSubject := msg.subject
  originalStream := processingOptions.source
  originalSeq := failure.streamSequence
  originalMsgId := failure.msgId.toString
  consumer := processingOptions.durable
  delivered := failure.delivered
  failureReason := failure.failureReason
  failureClass := failure.failureClass
  failureDetail := failure.failureDetail

/-- SRC: subscriber.rs:524-576 -/
def handleTerminalFailure (msg : Message) (processingOptions : ProcessingOptions)
    (failure : TerminalFailure U) : Worker U E Unit :=
  match processingOptions.dlqOpts with
  | none => markDoneAndTerm failure.msgId
  | some dlqOpts => do
    let failedAt ← unixTimestampSeconds
    let headers := buildDlqHeaders (failure.info processingOptions msg) failedAt
    let subject := dlqSubject processingOptions.source processingOptions.durable
    match ← publishToDlq subject msg.payload headers dlqOpts.config.publishAckTimeout with
    | .ok () => markDoneAndTerm failure.msgId
    | .error _ => releaseAndNak failure.msgId dlqOpts.config.failureNakDelay

/-- `attempt >= max_deliver`, where a `max_deliver` of zero or less means no limit.
SRC: subscriber.rs:473-475 -/
def isFinalAttempt (processingOptions : ProcessingOptions) (info : Info) : Bool :=
  decide (processingOptions.maxDeliver > 0) &&
    decide (info.delivered ≥ processingOptions.maxDeliver)

/-- What the worker does with the result of the handler.
SRC: subscriber.rs:457-521 -/
def afterHandler (msg : Message) (processingOptions : ProcessingOptions) (info : Info)
    (msgId : MessageId U) : Except HandlerError Unit → Worker U E Unit
  | .ok () => do
    -- marked done before the ack; a failure to mark does not keep the message from it
    let _ ← markDone msgId
    doubleAckOrWarn
  | .error (.transient reason) =>
    if isFinalAttempt processingOptions info then
      handleTerminalFailure msg processingOptions
        { msgId := msgId
          streamSequence := info.streamSequence
          delivered := asU64 info.delivered
          failureReason := reasonMaxRetriesExceeded
          failureClass := classTransientExhausted
          failureDetail := reason }
    else
      releaseAndNak msgId (computeBackoff processingOptions.backoff info.delivered)
  | .error (.permanent reason) =>
    handleTerminalFailure msg processingOptions
      { msgId := msgId
        streamSequence := info.streamSequence
        delivered := asU64 info.delivered
        failureReason := reasonHandlerPermanent
        failureClass := classPermanent
        failureDetail := reason }

/-- What the worker does once it holds the claim: deserialize and call the handler.
SRC: subscriber.rs:426-457 -/
def afterClaim (fromSlice : Bytes → Except String E) (msg : Message)
    (processingOptions : ProcessingOptions) (info : Info) (msgId : MessageId U) :
    Worker U E Unit :=
  match fromSlice msg.payload with
  | .error e =>
    handleTerminalFailure msg processingOptions
      { msgId := msgId
        streamSequence := info.streamSequence
        delivered := asU64 info.delivered
        failureReason := reasonInvalidPayload
        failureClass := classPoison
        failureDetail := e }
  | .ok event => do
    let ctx : HandlerCtx U :=
      { msgId := msgId
        streamSeq := info.streamSequence
        delivered := asU64 info.delivered
        subject := msg.subject }
    let result ← handle ctx event
    afterHandler msg processingOptions info msgId result

/-- SRC: subscriber.rs:352-522 -/
def processMessage (fromSlice : Bytes → Except String E) (msg : Message)
    (processingOptions : ProcessingOptions) : Worker U E Unit :=
  match msg.info with
  | .error _ => pure ()
  | .ok info => do
    let msgId := messageId processingOptions msg info
    match ← tryClaim msgId with
    | .ok .claimed => afterClaim fromSlice msg processingOptions info msgId
    | .ok .alreadyPending => nakOrWarn (.fromSecs 1)
    | .ok .alreadyDone => doubleAckOrWarn
    | .error _ => nakOrWarn (.fromSecs 1)

end

end EventBus.Model
