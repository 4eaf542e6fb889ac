import EventBus.Model.Subscription

/-!
# The task of a subscription at work

`EventBus.Model.Subscription` says what the task that `subscribe` leaves behind asks of the
server.  Here it is given together with its workers, the permits they hold, and the handle
by which it is told to stop, so that one can say how many handlers run and what is left when
`drain` returns.

The messages are numbered in the order in which the task takes them from the stream, and a
worker has the number of its message.  Polling a `select!` is two steps, a look at the signal
and a look at the rest, because the signal may come in between.
-/

set_option autoImplicit false

namespace EventBus.Model

/-- `Semaphore::MAX_PERMITS`; to ask for a semaphore with more is a panic. -/
def maxPermits : ℕ := (UInt64.size - 1) >>> 3

/-- The places at which the task can be.
SRC: subscriber.rs:217-343 -/
inductive LoopPoint where
  | reacquireStream (reconnectBackoff : Duration)
  | reacquireConsumer (reconnectBackoff : Duration)
  | messages (reconnectBackoff : Duration)
  /-- The wait before a reconnect has not been polled yet. -/
  | backoff (reconnectBackoff : Duration)
  | sleeping (reconnectBackoff : Duration)
  /-- The inner `select!` is to be polled. -/
  | select (reconnectBackoff : Duration)
  /-- The inner `select!` has found no signal; the workers and the stream come next. -/
  | polled (reconnectBackoff : Duration)
  /-- A message waits for a permit. -/
  | permit (reconnectBackoff : Duration) (message : ℕ)
  /-- A message has its permit and no worker. -/
  | dispatch (reconnectBackoff : Duration) (message : ℕ)
  | joining
  | ended
  /-- The task was aborted, and its `JoinSet` with it. -/
  | cancelled
  deriving DecidableEq

namespace LoopPoint

/-- Where the task goes from the answer of the server.
SRC: subscriber.rs:221-281 -/
def afterAnswer (ok : Bool) : LoopPoint → Option LoopPoint
  | .reacquireStream b => some (if ok then .reacquireConsumer b else .backoff b)
  | .reacquireConsumer b => some (if ok then .messages b else .backoff b)
  | .messages b => some (if ok then .select reconnectBackoffInitial else .backoff b)
  | _ => none

/-- Where the task goes from a look at the signal.  The wait is never over when it is polled
for the first time.
SRC: subscriber.rs:254-257, subscriber.rs:273-276, subscriber.rs:284-293, subscriber.rs:309-312 -/
def afterLook (shut : Bool) : LoopPoint → Option LoopPoint
  | .backoff b => some (if shut then .joining else .sleeping b)
  | .select b => some (if shut then .joining else .polled b)
  | _ => none

/-- The task is suspended here, so that an abort takes effect. -/
def suspended : LoopPoint → Bool
  | .reacquireStream _ | .reacquireConsumer _ | .messages _ | .sleeping _ | .select _
  | .permit _ _ | .joining => true
  | _ => false

/-- The permits that the task itself has. -/
def held : LoopPoint → ℕ
  | .dispatch _ _ => 1
  | _ => 0

/-- The message that the task has taken and given to no worker. -/
def pending : LoopPoint → Option ℕ
  | .permit _ n | .dispatch _ n => some n
  | _ => none

end LoopPoint

/-- What has become of the handle of a subscription. -/
inductive HandleState where
  | open
  /-- `drain` has sent the signal and waits for the task. -/
  | draining
  /-- `drain` has returned. -/
  | drained (finished : Bool)
  /-- The handle was dropped and not drained. -/
  | dropped
  deriving DecidableEq

/-- How a worker comes to its end. -/
inductive Ending where
  | returned
  | panicked
  | cancelled
  deriving DecidableEq

/-- What is noted of a run of the task. -/
inductive LoopEvent where
  /-- A message was taken from the stream. -/
  | taken (message : ℕ)
  /-- A worker was started for a message. -/
  | dispatched (message : ℕ)
  /-- The call of `process_message` for a message has ended. -/
  | ended (message : ℕ)
  /-- `drain` has sent its signal. -/
  | signalled
  /-- The task has looked at the signal. -/
  | looked
  deriving DecidableEq

/-- The task with all that it shares.  What is noted comes newest first. -/
structure LoopState where
  point : LoopPoint
  /-- The permits that the semaphore has left. -/
  permits : ℕ
  running : List ℕ
  /-- The workers that have come to their end and have not been joined. -/
  finished : List ℕ
  /-- How many messages were taken. -/
  taken : ℕ
  handle : HandleState
  aborted : Bool
  log : List LoopEvent

inductive LoopAction where
  /-- The server answers the request of the task. -/
  | answered (ok : Bool)
  | look
  /-- The signal wakes the task from the wait before a reconnect. -/
  | notice
  /-- The wait before a reconnect is over. -/
  | timer
  /-- The stream has something for the task. -/
  | item (next : PullItem)
  /-- Neither the workers nor the stream have anything. -/
  | nothing
  | joined (message : ℕ)
  | acquire
  | spawn
  | allJoined
  /-- A worker comes to its end and drops its permit. -/
  | finish (message : ℕ) (ending : Ending)
  | drain
  /-- `drain` returns because the task has ended. -/
  | returned
  /-- `drain` returns because its time is over. -/
  | timeout
  | drop
  /-- An abort takes effect. -/
  | cancel
  deriving DecidableEq

namespace LoopState

/-- The task that `subscribe` starts, unless the semaphore cannot be made.
SRC: subscriber.rs:192, subscriber.rs:210-215 -/
def start (opts : SubscribeOptions) : Option LoopState :=
  if opts.concurrency ≤ maxPermits then
    some
      { point := .messages reconnectBackoffInitial
        permits := opts.concurrency
        running := []
        finished := []
        taken := 0
        handle := .open
        aborted := false
        log := [] }
  else
    none

variable (s : LoopState)

/-- `changed` is ready: the signal was sent or the sender is gone. -/
def shut : Bool := s.handle != .open

def goto (p : LoopPoint) : LoopState := { s with point := p }

def note (e : LoopEvent) : LoopState := { s with log := e :: s.log }

/-- The task takes the next message.
SRC: subscriber.rs:301-328 -/
def take (reconnectBackoff : Duration) : LoopState :=
  { s with
    point := .permit reconnectBackoff s.taken
    taken := s.taken + 1
    log := .taken s.taken :: s.log }

/-- The task joins a worker and goes on.
SRC: subscriber.rs:294-300, subscriber.rs:343 -/
def join (message : ℕ) (p : LoopPoint) : Option LoopState :=
  if message ∈ s.finished then
    some { s with point := p, finished := s.finished.erase message }
  else
    none

/-- A worker comes to its end; only the drop of the `JoinSet` cancels it.
SRC: subscriber.rs:334-337 -/
def finish (message : ℕ) (ending : Ending) : Option LoopState :=
  if message ∈ s.running ∧ (ending = .cancelled → s.point = .cancelled) then
    some
      { s with
        permits := s.permits + 1
        running := s.running.erase message
        finished := message :: s.finished
        log := .ended message :: s.log }
  else
    none

/-- The subscription taking one step.
SRC: subscriber.rs:74-101, subscriber.rs:192-349 -/
def step : LoopAction → Option LoopState
  | .answered ok => (s.point.afterAnswer ok).map s.goto
  | .look => (s.point.afterLook s.shut).map fun p => (s.goto p).note .looked
  | .notice =>
    match s.point with
    | .sleeping _ => if s.shut then some (s.goto .joining) else none
    | _ => none
  | .timer =>
    match s.point with
    -- the two arms are polled in any order, so that the wait may win over a signal
    | .sleeping b => some (s.goto (.reacquireStream (nextBackoff b)))
    | _ => none
  | .item next =>
    match s.point, next with
    | .polled b, .message => some (s.take b)
    | .polled b, .itemError => some (s.goto (.select b))
    | .polled b, .ended => some (s.goto (.backoff b))
    | _, _ => none
  | .nothing =>
    match s.point with
    | .polled b => some (s.goto (.select b))
    | _ => none
  | .joined message =>
    match s.point with
    | .polled b => s.join message (.select b)
    | .joining => s.join message .joining
    | _ => none
  | .acquire =>
    match s.point with
    | .permit b n =>
      if 0 < s.permits then
        some { s with point := .dispatch b n, permits := s.permits - 1 }
      else
        none
    | _ => none
  | .spawn =>
    match s.point with
    | .dispatch b n =>
      some { s with
        point := .select b
        running := n :: s.running
        log := .dispatched n :: s.log }
    | _ => none
  | .allJoined =>
    if s.point = .joining ∧ s.running = [] ∧ s.finished = [] then
      some (s.goto .ended)
    else
      none
  | .finish message ending => s.finish message ending
  | .drain =>
    if s.handle = .open then some ({ s with handle := .draining }.note .signalled) else none
  | .returned =>
    if s.handle = .draining ∧ s.point = .ended then
      some { s with handle := .drained true }
    else
      none
  | .timeout =>
    if s.handle = .draining ∧ s.point ≠ .ended then
      some { s with handle := .drained false, aborted := true }
    else
      none
  | .drop =>
    if s.handle = .open then some { s with handle := .dropped, aborted := true } else none
  | .cancel =>
    if s.aborted ∧ s.point.suspended then some (s.goto .cancelled) else none

end LoopState

end EventBus.Model
