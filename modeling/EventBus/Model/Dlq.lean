import EventBus.Model.Core

/-!
# Dead letters

Worker-side republish: a subscriber publishes a terminal failure to the dead letter
stream of its consumer and waits for the acknowledgement before it terms the original
message.  This module has the configuration, the names and the headers of a dead letter;
the publish itself is an await of `EventBus.Model.Subscriber`.
-/

set_option autoImplicit false

namespace EventBus.Model

def secondsPerMinute : ℕ := 60
def secondsPerHour : ℕ := 60 * secondsPerMinute
def secondsPerDay : ℕ := 24 * secondsPerHour

def defaultDlqMaxAgeDays : ℕ := 30
def defaultDlqDuplicateWindowMin : ℕ := 5
def defaultDlqReplicas : ℕ := 3

def defaultDlqMaxAge : Duration := .fromSecs (defaultDlqMaxAgeDays * secondsPerDay)

def defaultDlqDuplicateWindow : Duration :=
  .fromSecs (defaultDlqDuplicateWindowMin * secondsPerMinute)

def fallbackNakDelay : Duration := .fromSecs 5
def defaultDlqFailureNakDelay : Duration := .fromSecs 5

def classPermanent : String := "permanent"
def classPoison : String := "poison"
def classTransientExhausted : String := "transient_exhausted"

def reasonInvalidPayload : String := "invalid_payload"
def reasonHandlerPermanent : String := "handler_permanent"
def reasonMaxRetriesExceeded : String := "max_retries_exceeded"

def hdrNatsMsgId : String := "Nats-Msg-Id"
def hdrOriginalSubject : String := "X-Original-Subject"
def hdrOriginalStream : String := "X-Original-Stream"
def hdrOriginalSeq : String := "X-Original-Seq"
def hdrOriginalMsgId : String := "X-Original-Msg-Id"
def hdrFailureReason : String := "X-Failure-Reason"
def hdrFailureClass : String := "X-Failure-Class"
def hdrFailureDetail : String := "X-Failure-Detail"
def hdrRetryCount : String := "X-Retry-Count"
def hdrConsumer : String := "X-Consumer"
def hdrFailedAt : String := "X-Failed-At"

/-- Configuration for a per-consumer dead letter stream.
SRC: dlq.rs:53-85 -/
structure DlqConfig where
  numReplicas : ℕ := defaultDlqReplicas
  maxAge : Duration := defaultDlqMaxAge
  maxBytes : Option ℤ := none
  duplicateWindow : Duration := defaultDlqDuplicateWindow
  denyDelete : Bool := true
  denyPurge : Bool := false
  allowDirect : Bool := true
  /-- Maximum time to wait for the acknowledgement of a publish. -/
  publishAckTimeout : Option Duration := none
  /-- Delay of the NAK on the source message when the publish fails. -/
  failureNakDelay : Duration := defaultDlqFailureNakDelay

/-- Per-subscribe dead letter options. -/
structure DlqOptions where
  config : DlqConfig := {}

/-- Failure metadata copied into the headers of a dead letter.
SRC: dlq.rs:93-103 -/
structure FailureInfo where
  originalSubject : String
  originalStream : String
  originalSeq : ℕ
  originalMsgId : String
  consumer : String
  delivered : ℕ
  failureReason : String
  failureClass : String
  failureDetail : String

/-- SRC: dlq.rs:105-107 -/
def dlqStreamName (sourceStream durable : String) : String :=
  "DLQ_" ++ sourceStream ++ "_" ++ durable

/-- SRC: dlq.rs:109-111 -/
def dlqSubject (sourceStream durable : String) : String :=
  "dlq." ++ sourceStream ++ "." ++ durable

/-- The id under which the dead letter stream recognises a publish it already has.
SRC: dlq.rs:115-121 -/
def FailureInfo.dedupId (failureInfo : FailureInfo) : String :=
  failureInfo.originalStream ++ ":" ++ toString failureInfo.originalSeq ++ ":" ++
    failureInfo.consumer ++ ":" ++ toString failureInfo.delivered

/-- SRC: dlq.rs:113-139 -/
def buildDlqHeaders (failureInfo : FailureInfo) (failedAt : String) : HeaderMap :=
  let headers : HeaderMap := []
  let headers := headers.insert hdrNatsMsgId failureInfo.dedupId
  let headers := headers.insert hdrOriginalSubject failureInfo.originalSubject
  let headers := headers.insert hdrOriginalStream failureInfo.originalStream
  let headers := headers.insert hdrOriginalSeq (toString failureInfo.originalSeq)
  let headers := headers.insert hdrOriginalMsgId failureInfo.originalMsgId
  let headers := headers.insert hdrFailureReason failureInfo.failureReason
  let headers := headers.insert hdrFailureClass failureInfo.failureClass
  let headers := headers.insert hdrFailureDetail failureInfo.failureDetail
  let headers := headers.insert hdrRetryCount (toString failureInfo.delivered)
  let headers := headers.insert hdrConsumer failureInfo.consumer
  headers.insert hdrFailedAt failedAt

/-- INTERNAL: no header of a dead letter replaces another, and they stand in the order
of the source.
SRC: dlq.rs:123-138 -/
theorem buildDlqHeaders_eq (failureInfo : FailureInfo) (failedAt : String) :
    buildDlqHeaders failureInfo failedAt =
      [(hdrNatsMsgId, failureInfo.dedupId),
       (hdrOriginalSubject, failureInfo.originalSubject),
       (hdrOriginalStream, failureInfo.originalStream),
       (hdrOriginalSeq, toString failureInfo.originalSeq),
       (hdrOriginalMsgId, failureInfo.originalMsgId),
       (hdrFailureReason, failureInfo.failureReason),
       (hdrFailureClass, failureInfo.failureClass),
       (hdrFailureDetail, failureInfo.failureDetail),
       (hdrRetryCount, toString failureInfo.delivered),
       (hdrConsumer, failureInfo.consumer),
       (hdrFailedAt, failedAt)] := by
  simp [buildDlqHeaders, HeaderMap.insert, hdrNatsMsgId, hdrOriginalSubject,
    hdrOriginalStream, hdrOriginalSeq, hdrOriginalMsgId, hdrFailureReason, hdrFailureClass,
    hdrFailureDetail, hdrRetryCount, hdrConsumer, hdrFailedAt]

end EventBus.Model
