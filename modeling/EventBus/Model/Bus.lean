import EventBus.Lib.Layers
import EventBus.Lib.RelyGuarantee
import EventBus.Model.DlqStreams

/-!
# The bus

`EventBusBuilder` gathers what an application sets; `build` connects to the server and makes sure
of the stream of events.  `EventBusHandle.subscribe` is the `subscribe` of
`EventBus.Model.DlqStreams` behind one more step: a bus with a dead letter queue of its own makes
sure of the dead letter stream before anything else, and hands its configuration on.

`busTasks` are tasks that build and subscribe, of any number of applications, on one server.
Others ask it for streams as well and delete consumers; nobody deletes streams.
-/

set_option autoImplicit false

namespace EventBus.Model

open EventBus.Lib (Machine Prog World programs)
open EventBus.Lib.Prog (perform)

/-! ## What is set -/

/-- Configuration for the stream of events, the `StreamConfig` of the source.
SRC: stream.rs:6-26 -/
structure EventStreamConfig where
  name : String := "EVENTS"
  subjects : List String := ["events.>"]
  numReplicas : ℕ := 3
  duplicateWindow : Duration := .fromSecs (5 * 60)
  maxAge : Duration := .fromSecs (7 * 24 * 3600)
  deriving DecidableEq

/-- What `ensure_stream` asks the server for.
SRC: stream.rs:33-43 -/
def EventStreamConfig.serverConfig (cfg : EventStreamConfig) : StreamConfig where
  name := cfg.name
  subjects := cfg.subjects
  numReplicas := cfg.numReplicas
  storage := .file
  duplicateWindow := cfg.duplicateWindow
  discard := .old
  maxAge := cfg.maxAge
  allowDirect := true

variable {O S : Type}

/-- What an application sets, with connection options `O` and a store `S`.
SRC: builder.rs:5-22 -/
structure EventBusBuilder (O S : Type) where
  url : Option String := none
  streamCfg : EventStreamConfig := {}
  idempotency : Option S := none
  connectOptions : Option O := none
  dlq : Option DlqConfig := none

/-- The calls of a builder. -/
inductive BuilderCall (O S : Type) where
  | url (url : String)
  | streamConfig (cfg : EventStreamConfig)
  | replicas (n : ℕ)
  | dedupWindow (d : Duration)
  | streamName (name : String)
  | idempotency (store : S)
  | connectOptions (options : O)
  | withDlq (cfg : DlqConfig)

namespace EventBusBuilder

/-- SRC: builder.rs:24-66 -/
def set (self : EventBusBuilder O S) : BuilderCall O S → EventBusBuilder O S
  | .url url => { self with url := some url }
  | .streamConfig cfg => { self with streamCfg := cfg }
  | .replicas n => { self with streamCfg := { self.streamCfg with numReplicas := n } }
  | .dedupWindow d => { self with streamCfg := { self.streamCfg with duplicateWindow := d } }
  | .streamName name => { self with streamCfg := { self.streamCfg with name := name } }
  | .idempotency store => { self with idempotency := some store }
  | .connectOptions options => { self with connectOptions := some options }
  | .withDlq cfg => { self with dlq := some cfg }

/-- The builder that a chain of calls makes of a new one. -/
def ofCalls (calls : List (BuilderCall O S)) : EventBusBuilder O S :=
  calls.foldl set {}

end EventBusBuilder

/-- The bus: the store and the dead letter queue its subscriptions get.
SRC: bus.rs:14-21 -/
structure EventBusHandle (S : Type) where
  idempotency : S
  dlq : Option DlqConfig

/-- What the task of a subscription is left behind with.
SRC: subscriber.rs:192-205 -/
structure SubscriptionTask (S : Type) where
  opts : SubscribeOptions
  idempotencyStore : S

/-! ## What is awaited -/

/-- What tasks of an application await. -/
inductive BusCall (O : Type) where
  | connect (url : String) (options : O)
  | getOrCreateStream (config : StreamConfig)
  | sub (c : SubCall)

abbrev BusCall.Resp : BusCall O → Type
  | .connect _ _ => Except String Unit
  | .getOrCreateStream _ => Except String Unit
  | .sub c => c.Resp

/-- A task between two calls. -/
abbrev BusTask (O α : Type) := Prog (BusCall O) BusCall.Resp α

namespace NatsClient

/-- SRC: client.rs:19-34, stream.rs:29-45 -/
def connectWithOptions (url : String) (options : O) (streamCfg : EventStreamConfig) :
    BusTask O (Except BusError Unit) := do
  match ← perform (BusCall.connect url options) with
  | .error e => pure (.error (.nats e))
  | .ok () =>
    match ← perform (BusCall.getOrCreateStream streamCfg.serverConfig : BusCall O) with
    | .error e => pure (.error (.nats e))
    | .ok () => pure (.ok ())

/-- SRC: client.rs:12-16 -/
def connect [Inhabited O] (url : String) (streamCfg : EventStreamConfig) :
    BusTask O (Except BusError Unit) :=
  connectWithOptions url default streamCfg

end NatsClient

/-- The client of a builder.
SRC: builder.rs:79-84 -/
def EventBusBuilder.client [Inhabited O] (self : EventBusBuilder O S) (url : String) :
    BusTask O (Except BusError Unit) :=
  match self.connectOptions with
  | some options => NatsClient.connectWithOptions url options self.streamCfg
  | none => NatsClient.connect url self.streamCfg

/-- SRC: builder.rs:69-88 -/
def EventBusBuilder.build [Inhabited O] (self : EventBusBuilder O S) :
    BusTask O (Except BusError (EventBusHandle S)) :=
  match self.url with
  | none => pure (.error (.publish "url is required"))
  | some url =>
    match self.idempotency with
    | none => pure (.error (.idempotency
        "idempotency store is required — call .idempotency(store) before build()"))
    | some idempotency => do
      match ← self.client url with
      | .error e => pure (.error e)
      | .ok () => pure (.ok ⟨idempotency, self.dlq⟩)

namespace EventBusHandle

variable (self : EventBusHandle S) (opts : SubscribeOptions)

/-- The options a subscription goes on with, and before that its dead letter stream, if the bus
provides it.
SRC: bus.rs:66-83 -/
def completeDlq : BusTask O (Except BusError SubscribeOptions) :=
  match opts.dlq, self.dlq with
  | none, some config => do
    let streamName := dlqStreamName opts.stream opts.durable
    let subject := dlqSubject opts.stream opts.durable
    match ← perform (BusCall.sub (.ensureDlqStream streamName subject config) : BusCall O) with
    | .error e => pure (.error (ensureDlqError streamName e))
    | .ok () => pure (.ok { opts with dlq := some ⟨config⟩ })
  | _, _ => pure (.ok opts)

/-- SRC: bus.rs:57-91 -/
def subscribe : BusTask O (Except BusError (SubscriptionTask S)) := do
  match ← self.completeDlq opts with
  | .error e => pure (.error e)
  | .ok opts =>
    match ← (EventBus.Model.subscribe opts).expand fun c => perform (BusCall.sub c : BusCall O) with
    | .error e => pure (.error e)
    | .ok () => pure (.ok ⟨opts, self.idempotency⟩)

end EventBusHandle

/-! ## Tasks on one server -/

/-- What a task is started for. -/
inductive BusJob (O S : Type) where
  | build (calls : List (BuilderCall O S))
  | subscribe (bus : EventBusHandle S) (opts : SubscribeOptions)

/-- What a task comes to. -/
inductive BusResult (S : Type) where
  | built (bus : EventBusHandle S)
  | subscribed (task : SubscriptionTask S)
  | failed (error : BusError)

def busTask [Inhabited O] : BusJob O S → BusTask O (BusResult S)
  | .build calls => do
    match ← (EventBusBuilder.ofCalls calls).build with
    | .error e => pure (.failed e)
    | .ok bus => pure (.built bus)
  | .subscribe bus opts => do
    match ← bus.subscribe opts with
    | .error e => pure (.failed e)
    | .ok task => pure (.subscribed task)

/-- The server, and a record of what it was asked for: the jobs, and the streams that others
asked for. -/
structure BusServer (O S : Type) where
  js : JetStream
  asked : List (BusJob O S)
  others : List StreamConfig

/-- What others do to the server. -/
inductive ServerDrift where
  | getOrCreateStream (config : StreamConfig)
  | deleteConsumer (consumer : String × String)

/-- Serving a call, which the server may refuse for reasons of its own.
SRC: stream.rs:33-45 -/
def JetStream.serveBus (refusal : Option String) :
    (c : BusCall O) → JetStream → c.Resp × JetStream
  | .connect _ _, js =>
    match refusal with
    | some e => (.error e, js)
    | none => (.ok (), js)
  | .getOrCreateStream config, js =>
    match refusal with
    | some e => (.error e, js)
    | none =>
      let created := js.streams.getOrCreate config
      (created.1.map fun _ => (), { js with streams := created.2 })
  | .sub c, js => js.serve (fun _ _ => refusal) c

def BusCall.isRemote : BusCall O → Bool
  | .connect _ _ => true
  | .getOrCreateStream _ => true
  | .sub c => c.isRemote

def BusCall.failure : (c : BusCall O) → String → Option c.Resp
  | .connect _ _, e => some (.error e)
  | .getOrCreateStream _, e => some (.error e)
  | .sub c, e => c.failure e

/-- The world of the tasks. -/
abbrev busWorld (O S : Type) : World where
  Call := BusCall O
  Resp := BusCall.Resp
  Shared := BusServer O S
  Job := BusJob O S
  Choice := Option String
  Err := String
  Drift := ServerDrift
  enlist _ job sh := { sh with asked := job :: sh.asked }
  reach _ _ _ sh := sh
  effect _ _ _ c ch sh := { sh with js := (sh.js.serveBus ch c).2 }
  answer _ c ch sh := (sh.js.serveBus ch c).1
  remote := BusCall.isRemote
  failure := BusCall.failure
  drift e sh :=
    match e with
    | .getOrCreateStream config =>
      { sh with
        js := { sh.js with streams := (sh.js.streams.getOrCreate config).2 }
        others := config :: sh.others }
    | .deleteConsumer consumer =>
      { sh with js := { sh.js with consumers := Function.update sh.js.consumers consumer none } }

/-- The tasks. -/
abbrev busTasks (O S : Type) [Inhabited O] : Machine (busWorld O S) :=
  programs (busWorld O S) (BusResult S) busTask

end EventBus.Model
