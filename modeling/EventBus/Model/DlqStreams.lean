import EventBus.Lib.Topic
import EventBus.Model.Subscription

/-!
# The streams of a server

Subscribing with a dead letter queue makes sure that there is a stream for it.  The server
keeps its streams by name; it never changes one that it has, and refuses a new one whose
subjects overlap with those of another.  `Streams` carries that as a fact, so that no other
set of streams can be built.

`subscribe` is the part of the source's function that runs before it leaves its task
behind, as a program over the calls of `EventBus.Model.Subscription`, and `JetStream.serve`
answers them.  The server may refuse any call for reasons of its own.
-/

set_option autoImplicit false

namespace EventBus.Model

open EventBus.Lib (Prog Topic.passes Topic.overlap)
open EventBus.Lib.Prog (perform)

inductive RetentionPolicy where
  | limits
  | interest
  | workQueue
  deriving DecidableEq

inductive StorageType where
  | file
  | memory
  deriving DecidableEq

inductive DiscardPolicy where
  | old
  | new
  deriving DecidableEq

/-- The configuration of a stream, as far as the source sets it; the rest is by default. -/
structure StreamConfig where
  name : String
  subjects : List String
  retention : RetentionPolicy := .limits
  storage : StorageType := .file
  discard : DiscardPolicy := .old
  maxAge : Duration := 0
  duplicateWindow : Duration := 0
  numReplicas : ℕ := 0
  denyDelete : Bool := false
  denyPurge : Bool := false
  allowDirect : Bool := false
  maxBytes : ℤ := 0
  deriving DecidableEq

namespace StreamConfig

/-- Whether the stream stores what is published to a subject. -/
def captures (config : StreamConfig) (subject : String) : Bool :=
  config.subjects.any fun filter => Topic.passes filter subject

/-- Whether two streams could store the same message. -/
def overlaps (config config' : StreamConfig) : Bool :=
  config.subjects.any fun filter => config'.subjects.any fun filter' =>
    Topic.overlap filter filter'

/-- INTERNAL: two streams that capture one subject overlap. -/
theorem overlaps_of_captures {config config' : StreamConfig} {subject : String}
    (h : config.captures subject = true) (h' : config'.captures subject = true) :
    config.overlaps config' = true := by
  obtain ⟨filter, hmem, hpasses⟩ := List.any_eq_true.mp h
  obtain ⟨filter', hmem', hpasses'⟩ := List.any_eq_true.mp h'
  apply List.any_eq_true.mpr
  refine ⟨filter, hmem, List.any_eq_true.mpr ⟨filter', hmem', ?_⟩⟩
  exact EventBus.Lib.Topic.overlap_of_passes hpasses hpasses'

end StreamConfig

/-- The configuration of the dead letter stream of a consumer.
SRC: dlq.rs:147-164 -/
def dlqStreamConfig (streamName subject : String) (config : DlqConfig) : StreamConfig where
  name := streamName
  subjects := [subject]
  retention := .limits
  storage := .file
  discard := .old
  maxAge := config.maxAge
  duplicateWindow := config.duplicateWindow
  numReplicas := config.numReplicas
  denyDelete := config.denyDelete
  denyPurge := config.denyPurge
  allowDirect := config.allowDirect
  maxBytes := config.maxBytes.getD 0

/-- The streams of a server, oldest first.  No two have one name or could store the same
message. -/
structure Streams where
  list : List StreamConfig
  separate : list.Pairwise fun a b => a.name ≠ b.name ∧ a.overlaps b = false

namespace Streams

/-- The stream of a name. -/
def find (streams : Streams) (name : String) : Option StreamConfig :=
  streams.list.find? fun s => decide (s.name = name)

/-- A new stream of a name that is free, whose subjects are. -/
def add (streams : Streams) (config : StreamConfig) (hname : streams.find config.name = none)
    (hfree : ∀ s ∈ streams.list, s.overlaps config = false) : Streams where
  list := streams.list ++ [config]
  separate := by
    refine List.pairwise_append.mpr ⟨streams.separate, List.pairwise_singleton .., ?_⟩
    intro s hs config' hconfig
    obtain rfl := List.mem_singleton.mp hconfig
    have hs' := List.find?_eq_none.mp hname s hs
    exact ⟨by simpa using hs', hfree s hs⟩

/-- `get_or_create_stream`: a stream of the name is returned as it is. -/
def getOrCreate (streams : Streams) (config : StreamConfig) :
    Except String StreamConfig × Streams :=
  match hname : streams.find config.name with
  | some existing => (.ok existing, streams)
  | none =>
    if hfree : ∀ s ∈ streams.list, s.overlaps config = false then
      (.ok config, streams.add config hname hfree)
    else (.error "subjects overlap with an existing stream", streams)

end Streams

/-- The streams and the consumers of a server. -/
structure JetStream where
  streams : Streams
  consumers : Consumers

namespace JetStream

/-- The streams that store what is published to a subject. -/
def storedIn (js : JetStream) (subject : String) : List String :=
  (js.streams.list.filter fun s => s.captures subject).map StreamConfig.name

/-- Serving a call of `subscribe`.
SRC: dlq.rs:141-169 -/
def serve (refuses : SubCall → JetStream → Option String) :
    (c : SubCall) → JetStream → c.Resp × JetStream
  | .getStream name, js =>
    match refuses (.getStream name) js, js.streams.find name with
    | some e, _ => (.error e, js)
    | none, none => (.error "stream not found", js)
    | none, some _ => (.ok (), js)
  | .getOrCreateConsumer stream durable config, js =>
    match refuses (.getOrCreateConsumer stream durable config) js with
    | some e => (.error e, js)
    | none => (.ok ((js.consumers (stream, durable)).getD config),
        { js with consumers :=
            js.consumers.effect (.getOrCreateConsumer stream durable config) })
  | .ensureDlqStream name subject config, js =>
    match refuses (.ensureDlqStream name subject config) js with
    | some e => (.error e, js)
    | none =>
      let created := js.streams.getOrCreate (dlqStreamConfig name subject config)
      (created.1.map fun _ => (), { js with streams := created.2 })
  -- what follows is no call of `subscribe` but of the task it leaves behind
  | .messages, js => (.ok (), js)
  | .next, js => (.shutdown, js)
  | .acquirePermit, js => ((), js)
  | .sleep _, js => (true, js)
  | .joinWorkers, js => ((), js)

end JetStream

/-- The dead letter stream of a subscription.
SRC: dlq.rs:165-168, subscriber.rs:184-190 -/
def ensureDlqStream (opts : SubscribeOptions) (config : DlqConfig) :
    Prog SubCall SubCall.Resp (Except BusError Unit) := do
  let name := dlqStreamName opts.stream opts.durable
  let subject := dlqSubject opts.stream opts.durable
  match ← perform (SubCall.ensureDlqStream name subject config) with
  | .error e => pure (.error (ensureDlqError name (ensureDlqError name e).display))
  | .ok () => pure (.ok ())

/-- The consumer of a subscription and what comes after it.
SRC: subscriber.rs:169-190 -/
def createConsumer (opts : SubscribeOptions) :
    Prog SubCall SubCall.Resp (Except BusError Unit) := do
  match ← perform (SubCall.getOrCreateConsumer opts.stream opts.durable opts.pullConfig) with
  | .error e => pure (.error (.nats e))
  | .ok _ =>
    match opts.dlq with
    | none => pure (.ok ())
    | some dlqOpts => ensureDlqStream opts dlqOpts.config

/-- `subscribe`, until its task is left behind.
SRC: subscriber.rs:151-190 -/
def subscribe (opts : SubscribeOptions) : Prog SubCall SubCall.Resp (Except BusError Unit) := do
  match ← perform (SubCall.getStream opts.stream) with
  | .error e => pure (.error (.nats e))
  | .ok () => createConsumer opts

/-- Subscriptions that are made one after another, as long as each `subscribe` returns
`Ok`. -/
def subscribeAll (refuses : SubCall → JetStream → Option String) :
    List SubscribeOptions → JetStream → Except BusError JetStream
  | [], js => .ok js
  | opts :: subs, js =>
    match (subscribe opts).exec (JetStream.serve refuses) js with
    | (.ok (), js) => subscribeAll refuses subs js
    | (.error e, _) => .error e

/-- What is left of `subscribe` at a point. -/
def SubPoint.code (opts : SubscribeOptions) :
    SubPoint → Prog SubCall SubCall.Resp (Except BusError Unit)
  | .getStream => subscribe opts
  | .createConsumer => EventBus.Model.createConsumer opts
  | .ensureDlqStream config => EventBus.Model.ensureDlqStream opts config
  | .failed error => pure (.error error)
  | _ => pure (.ok ())

/-- **The points of a subscription follow the program**, until the task is left behind. -/
theorem SubPoint.view_code (opts : SubscribeOptions) (p : SubPoint) (hp : p.running = false)
    (hstopped : p ≠ .stopped) :
    (p.code opts).view = (p.view opts).map fun ck => ⟨ck.1, fun r => (ck.2 r).code opts⟩ := by
  cases p with
  | getStream =>
    simp only [code, subscribe, view, Option.map_some, Prog.perform_bind, Prog.view_call]
    congr 2
    funext r
    cases r <;> rfl
  | createConsumer =>
    simp only [code, EventBus.Model.createConsumer, view, afterConsumer, Option.map_some,
      Prog.perform_bind, Prog.view_call]
    congr 2
    funext r
    cases r with
    | error e => rfl
    | ok config => cases opts.dlq <;> rfl
  | ensureDlqStream config =>
    simp only [code, EventBus.Model.ensureDlqStream, view, Option.map_some, Prog.perform_bind,
      Prog.view_call]
    congr 2
    funext r
    cases r <;> rfl
  | failed error => rfl
  | stopped => exact absurd rfl hstopped
  | reacquireStream b | reacquireConsumer b | messages b | pull b | permit b | sleep b | drain =>
    cases hp

end EventBus.Model
