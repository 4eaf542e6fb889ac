import EventBus.Analysis.DlqRouting
import EventBus.Model.Bus

/-!
# Subscriptions of a bus

A bus with a dead letter queue of its own makes sure of the dead letter stream before it asks for
the consumer, so that no consumer is ever there without it, whatever fails in between.
`busRules` is what the tasks of all applications keep to; the two results are read off it:
`bus_truthful`, that requests and results are what they should be, and `bus_consumers_routed`, that
the dead letters of a consumer have somewhere to go from the first moment on.
-/

set_option autoImplicit false

namespace EventBus.Analysis

open EventBus.Model EventBus.Lib

variable {O S : Type}

/-! ## Streams that are there -/

/-- There is a stream of the name. -/
def HasStream (streams : Streams) (name : String) : Prop := ∃ s ∈ streams.list, s.name = name

/-- INTERNAL: a stream that is there stays. -/
theorem HasStream.mono {streams streams' : Streams} (h : streams.list ⊆ streams'.list)
    {name : String} (hname : HasStream streams name) : HasStream streams' name := by
  obtain ⟨s, hs, hsname⟩ := hname
  exact ⟨s, h hs, hsname⟩

section

variable (streams : Streams) (config : StreamConfig)

/-- INTERNAL: a stream that is found is there. -/
theorem has_of_find {name : String} {s : StreamConfig} (h : streams.find name = some s) :
    HasStream streams name :=
  ⟨s, List.mem_of_find?_eq_some h, by simpa using List.find?_some h⟩

/-- INTERNAL: get-or-create removes no stream. -/
theorem subset_getOrCreate : streams.list ⊆ (streams.getOrCreate config).2.list := by
  rcases getOrCreate_cases streams config with ⟨_, _, _, heq⟩ | ⟨streams', hlist, heq⟩ | ⟨e, heq⟩
  · rw [heq]
    exact List.Subset.refl _
  · rw [heq]
    simp only [hlist]
    exact List.subset_append_left ..
  · rw [heq]
    exact List.Subset.refl _

/-- INTERNAL: no stream comes about but the one that is asked for. -/
theorem of_mem_getOrCreate {s : StreamConfig} (hs : s ∈ (streams.getOrCreate config).2.list) :
    s ∈ streams.list ∨ s = config := by
  rcases getOrCreate_cases streams config with ⟨_, _, _, heq⟩ | ⟨streams', hlist, heq⟩ | ⟨e, heq⟩
  · rw [heq] at hs
    exact .inl hs
  · rw [heq] at hs
    simp only [hlist] at hs
    exact (List.mem_append.mp hs).imp id List.mem_singleton.mp
  · rw [heq] at hs
    exact .inl hs

/-- INTERNAL: when get-or-create succeeds the stream is there. -/
theorem has_getOrCreate {r : StreamConfig} (h : (streams.getOrCreate config).1 = .ok r) :
    HasStream (streams.getOrCreate config).2 config.name := by
  rcases getOrCreate_cases streams config with ⟨s, hs, hname, heq⟩ | ⟨_, hlist, heq⟩ | ⟨e, heq⟩
  · rw [heq]
    exact ⟨s, hs, hname⟩
  · rw [heq]
    simp only [HasStream, hlist]
    exact ⟨config, by simp, rfl⟩
  · rw [heq] at h
    cases h

end

/-! ## What tasks ask for -/

/-- The dead letter queue of the subscription is that of the bus. -/
def Provides (bus : EventBusHandle S) (opts : SubscribeOptions) : Prop :=
  opts.dlq = none ∧ bus.dlq.isSome

/-- The options with which a subscription of the bus goes on. -/
def completed (bus : EventBusHandle S) (opts : SubscribeOptions) : SubscribeOptions :=
  { opts with dlq := opts.dlq.or (bus.dlq.map DlqOptions.mk) }

/-- The request is one of the job, and it is made where the job is far enough. -/
def Asks [Inhabited O] (streams : Streams) : BusJob O S → BusCall O → Prop
  | .build calls, .connect url options =>
    let builder := EventBusBuilder.ofCalls calls
    builder.url = some url ∧ builder.idempotency.isSome ∧
      options = builder.connectOptions.getD default
  | .build calls, .getOrCreateStream config =>
    let builder := EventBusBuilder.ofCalls calls
    builder.url.isSome ∧ builder.idempotency.isSome ∧ config = builder.streamCfg.serverConfig
  | .subscribe bus opts, .sub (.ensureDlqStream name subject config) =>
    name = streamOf opts ∧ subject = subjectOf opts ∧
      (completed bus opts).dlq = some ⟨config⟩
  | .subscribe _ opts, .sub (.getStream name) => name = opts.stream
  | .subscribe bus opts, .sub (.getOrCreateConsumer stream durable config) =>
    (stream, durable) = opts.consumer ∧ config = opts.pullConfig ∧
      HasStream streams opts.stream ∧
      (Provides bus opts → HasStream streams (streamOf opts))
  | _, _ => False

/-- What a request that is granted tells. -/
def Granted (streams : Streams) : (c : BusCall O) → c.Resp → Prop
  | .getOrCreateStream config, r => r = .ok () → HasStream streams config.name
  | .sub (.ensureDlqStream name _ _), r => r = .ok () → HasStream streams name
  | .sub (.getStream name), r => r = .ok () → HasStream streams name
  | _, _ => True

/-- What a request to the server comes to: `Q`, or an error of the server. -/
def OrNats {α : Type} (Q : α → Prop) : Except BusError α → Prop
  | .ok a => Q a
  | .error e => ∃ message, e = .nats message

/-- How `build` fails: for the first thing that is not set, or for the server. -/
def BuildFails (builder : EventBusBuilder O S) (e : BusError) : Prop :=
  (builder.url = none ∧ e = .publish "url is required") ∨
    (builder.url.isSome ∧ builder.idempotency = none ∧ e = .idempotency
      "idempotency store is required — call .idempotency(store) before build()") ∨
    (builder.url.isSome ∧ builder.idempotency.isSome ∧ ∃ message, e = .nats message)

/-- What a task comes to. -/
def Achieves (streams : Streams) : BusJob O S → BusResult S → Prop
  | .build calls, .built bus =>
    let builder := EventBusBuilder.ofCalls calls
    builder.url.isSome ∧ builder.idempotency = some bus.idempotency ∧ builder.dlq = bus.dlq ∧
      HasStream streams builder.streamCfg.name
  | .subscribe bus opts, .subscribed task =>
    task.idempotencyStore = bus.idempotency ∧ task.opts = completed bus opts ∧
      HasStream streams opts.stream ∧
      (task.opts.dlq.isSome → HasStream streams (streamOf opts))
  | .build calls, .failed e => BuildFails (EventBusBuilder.ofCalls calls) e
  | .subscribe _ _, .failed e => ∃ message, e = .nats message
  | _, _ => False

/-- What the tasks keep to. -/
def busRules (O S : Type) [Inhabited O] : Protocol (busWorld O S) where
  grows sh sh' := sh.js.streams.list ⊆ sh'.js.streams.list ∧ sh.asked ⊆ sh'.asked
  legal sh job c := job ∈ sh.asked ∧ Asks sh.js.streams job c
  told sh _ c r := Granted sh.js.streams c r

section

variable [Inhabited O] {streams streams' : Streams} (h : streams.list ⊆ streams'.list)

include h

/-- INTERNAL: a request that is due stays so. -/
theorem Asks.mono {job : BusJob O S} {c : BusCall O} (hasks : Asks streams job c) :
    Asks streams' job c := by
  cases job with
  | build calls => cases c <;> exact hasks
  | subscribe bus opts =>
    cases c with
    | connect url options | getOrCreateStream config => exact hasks
    | sub c =>
      cases c with
      | getOrCreateConsumer stream durable config =>
        obtain ⟨hconsumer, hconfig, hstream, hdlq⟩ := hasks
        exact ⟨hconsumer, hconfig, hstream.mono h, fun hprovides => (hdlq hprovides).mono h⟩
      | _ => exact hasks

omit [Inhabited O] in
/-- INTERNAL: what is achieved stays so. -/
theorem Achieves.mono {job : BusJob O S} {r : BusResult S} (hr : Achieves streams job r) :
    Achieves streams' job r := by
  cases job with
  | build calls =>
    cases r with
    | built bus => exact ⟨hr.1, hr.2.1, hr.2.2.1, hr.2.2.2.mono h⟩
    | _ => exact hr
  | subscribe bus opts =>
    cases r with
    | subscribed task =>
      exact ⟨hr.1, hr.2.1, hr.2.2.1.mono h, fun hdlq => (hr.2.2.2 hdlq).mono h⟩
    | _ => exact hr

end

/-! ## What the server does -/

/-- The configurations under which streams can be there: those that were, those that others asked
for, those of the builders and those of the subscriptions. -/
def Wanted (js : JetStream) (sh : BusServer O S) (config : StreamConfig) : Prop :=
  config ∈ js.streams.list ∨ config ∈ sh.others ∨
    (∃ calls, .build calls ∈ sh.asked ∧
      config = (EventBusBuilder.ofCalls calls).streamCfg.serverConfig) ∨
    ∃ bus opts dlqConfig, .subscribe bus opts ∈ sh.asked ∧
      (completed bus opts).dlq = some ⟨dlqConfig⟩ ∧
      config = dlqStreamConfig (streamOf opts) (subjectOf opts) dlqConfig

/-- The consumer is one of a subscription of a bus, whose stream is there, and so is its dead
letter stream if the bus provides it. -/
def Subscribes (sh : BusServer O S) (consumer : String × String) (config : PullConfig) : Prop :=
  ∃ bus opts, .subscribe bus opts ∈ sh.asked ∧ opts.consumer = consumer ∧
    opts.pullConfig = config ∧ HasStream sh.js.streams opts.stream ∧
    (Provides bus opts → HasStream sh.js.streams (streamOf opts))

/-- Every stream and every consumer was there or has been asked for. -/
structure Founded (js : JetStream) (sh : BusServer O S) : Prop where
  streams : ∀ s ∈ sh.js.streams.list, Wanted js sh s
  consumers : ∀ consumer config, sh.js.consumers consumer = some config →
    js.consumers consumer = some config ∨ Subscribes sh consumer config

section

variable {js : JetStream} {sh sh' : BusServer O S}

/-- INTERNAL: a stream that was wanted was wanted. -/
theorem Wanted.mono (hothers : sh.others ⊆ sh'.others) (hasked : sh.asked ⊆ sh'.asked)
    {config : StreamConfig} (h : Wanted js sh config) : Wanted js sh' config := by
  rcases h with h | h | ⟨calls, hcalls, hconfig⟩ | ⟨bus, opts, dlqConfig, hsub, hrest⟩
  · exact .inl h
  · exact .inr (.inl (hothers h))
  · exact .inr (.inr (.inl ⟨calls, hasked hcalls, hconfig⟩))
  · exact .inr (.inr (.inr ⟨bus, opts, dlqConfig, hasked hsub, hrest⟩))

/-- INTERNAL: a consumer that was asked for was asked for. -/
theorem Subscribes.mono (hstreams : sh.js.streams.list ⊆ sh'.js.streams.list)
    (hasked : sh.asked ⊆ sh'.asked) {consumer : String × String} {config : PullConfig}
    (h : Subscribes sh consumer config) : Subscribes sh' consumer config := by
  obtain ⟨bus, opts, hsub, hconsumer, hconfig, hstream, hdlq⟩ := h
  exact ⟨bus, opts, hasked hsub, hconsumer, hconfig, hstream.mono hstreams,
    fun hprovides => (hdlq hprovides).mono hstreams⟩

/-- INTERNAL: asking for a stream that is wanted. -/
theorem Founded.getOrCreate (h : Founded js sh) {config : StreamConfig}
    (hothers : sh.others ⊆ sh'.others) (hasked : sh.asked ⊆ sh'.asked)
    (hstreams : sh'.js.streams = (sh.js.streams.getOrCreate config).2)
    (hconsumers : sh'.js.consumers = sh.js.consumers) (hwanted : Wanted js sh' config) :
    Founded js sh' where
  streams s hs := by
    rw [hstreams] at hs
    rcases of_mem_getOrCreate _ _ hs with hold | rfl
    · exact (h.streams s hold).mono hothers hasked
    · exact hwanted
  consumers consumer pullConfig hconsumer := by
    rw [hconsumers] at hconsumer
    refine (h.consumers consumer pullConfig hconsumer).imp id fun hsub => ?_
    exact hsub.mono (hstreams ▸ subset_getOrCreate _ _) hasked

/-- INTERNAL: more is asked for. -/
theorem Founded.mono (h : Founded js sh) (hjs : sh'.js = sh.js) (hothers : sh.others ⊆ sh'.others)
    (hasked : sh.asked ⊆ sh'.asked) : Founded js sh' where
  streams s hs := by
    rw [hjs] at hs
    exact (h.streams s hs).mono hothers hasked
  consumers consumer config hconsumer := by
    rw [hjs] at hconsumer
    refine (h.consumers consumer config hconsumer).imp id fun hsub => hsub.mono ?_ hasked
    rw [hjs]
    exact List.Subset.refl _

/-- INTERNAL: a consumer that is asked for. -/
theorem Founded.createConsumer (h : Founded js sh) {stream durable : String} {config : PullConfig}
    (hsub : Subscribes sh (stream, durable) config) :
    Founded js { sh with js := { sh.js with
      consumers := sh.js.consumers.effect (.getOrCreateConsumer stream durable config) } } where
  streams := h.streams
  consumers consumer config' hconsumer := by
    have hconsumer : (sh.js.consumers.effect (.getOrCreateConsumer stream durable config))
        consumer = some config' := hconsumer
    unfold Consumers.effect at hconsumer
    cases hold : sh.js.consumers (stream, durable) with
    | some existing =>
      simp only [hold] at hconsumer
      exact h.consumers consumer config' hconsumer
    | none =>
      simp only [hold] at hconsumer
      by_cases heq : consumer = (stream, durable)
      · subst heq
        rw [Function.update_self] at hconsumer
        obtain rfl := Option.some.inj hconsumer
        exact .inr hsub
      · rw [Function.update_of_ne heq] at hconsumer
        exact h.consumers consumer config' hconsumer

/-- INTERNAL: a consumer may go. -/
theorem Founded.deleteConsumer (h : Founded js sh) (consumer : String × String) :
    Founded js { sh with js := { sh.js with
      consumers := Function.update sh.js.consumers consumer none } } where
  streams := h.streams
  consumers consumer' config hconsumer := by
    by_cases heq : consumer' = consumer
    · subst heq
      simp at hconsumer
    · simp only [Function.update_of_ne heq] at hconsumer
      exact h.consumers consumer' config hconsumer

end

section

variable [Inhabited O] {js : JetStream} {sh : BusServer O S} {job : BusJob O S}

/-- INTERNAL: what a builder asks for is wanted. -/
theorem wanted_of_build {config : StreamConfig}
    (h : (busRules O S).legal sh job (.getOrCreateStream config)) : Wanted js sh config := by
  obtain ⟨hasked, hasks⟩ := h
  cases job with
  | build calls => exact .inr (.inr (.inl ⟨calls, hasked, hasks.2.2⟩))
  | subscribe bus opts => cases hasks

/-- INTERNAL: what a subscription asks for is wanted. -/
theorem wanted_of_subscribe {name subject : String} {config : DlqConfig}
    (h : (busRules O S).legal sh job (.sub (.ensureDlqStream name subject config))) :
    Wanted js sh (dlqStreamConfig name subject config) := by
  obtain ⟨hasked, hasks⟩ := h
  cases job with
  | build calls => cases hasks
  | subscribe bus opts =>
    obtain ⟨rfl, rfl, hdlq⟩ := hasks
    exact .inr (.inr (.inr ⟨bus, opts, config, hasked, hdlq, rfl⟩))

/-- INTERNAL: a consumer is asked for by a subscription. -/
theorem subscribes_of_legal {stream durable : String} {config : PullConfig}
    (h : (busRules O S).legal sh job (.sub (.getOrCreateConsumer stream durable config))) :
    Subscribes sh (stream, durable) config := by
  obtain ⟨hasked, hasks⟩ := h
  cases job with
  | build calls => cases hasks
  | subscribe bus opts =>
    obtain ⟨hconsumer, hconfig, hstream, hdlq⟩ := hasks
    exact ⟨bus, opts, hasked, hconsumer.symm, hconfig.symm, hstream, hdlq⟩

/-- INTERNAL: serving a request that is legal. -/
theorem founded_serve {c : BusCall O} (hsh : Founded js sh) (h : (busRules O S).legal sh job c)
    (ch : Option String) : sh.js.streams.list ⊆ (sh.js.serveBus ch c).2.streams.list ∧
      Founded js { sh with js := (sh.js.serveBus ch c).2 } := by
  have hsame : sh.js.streams.list ⊆ sh.js.streams.list ∧ Founded js sh :=
    ⟨List.Subset.refl _, hsh⟩
  have hcreated : ∀ config, Wanted js sh config →
      sh.js.streams.list ⊆ (sh.js.streams.getOrCreate config).2.list ∧
        Founded js
          { sh with js := { sh.js with streams := (sh.js.streams.getOrCreate config).2 } } :=
    fun config hwanted => ⟨subset_getOrCreate _ _,
      hsh.getOrCreate (List.Subset.refl _) (List.Subset.refl _) rfl rfl hwanted⟩
  cases c with
  | connect url options => cases ch <;> exact hsame
  | getOrCreateStream config =>
    cases ch with
    | some e => exact hsame
    | none => exact hcreated config (wanted_of_build h)
  | sub c =>
    cases c with
    | getStream name =>
      cases ch with
      | some e => exact hsame
      | none =>
        simp only [JetStream.serveBus, JetStream.serve]
        cases sh.js.streams.find name <;> exact hsame
    | getOrCreateConsumer stream durable config =>
      cases ch with
      | some e => exact hsame
      | none => exact ⟨List.Subset.refl _, hsh.createConsumer (subscribes_of_legal h)⟩
    | ensureDlqStream name subject config =>
      cases ch with
      | some e => exact hsame
      | none => exact hcreated _ (wanted_of_subscribe h)
    | messages | next | acquirePermit | sleep _ | joinWorkers => exact hsame

omit [Inhabited O] in
/-- INTERNAL: what is granted is there. -/
theorem granted_serve (c : BusCall O) (ch : Option String) :
    Granted (sh.js.serveBus ch c).2.streams c (sh.js.serveBus ch c).1 := by
  have hcreated : ∀ config, (sh.js.streams.getOrCreate config).1.map (fun _ => ()) = .ok () →
      HasStream (sh.js.streams.getOrCreate config).2 config.name := by
    intro config hok
    cases hr : (sh.js.streams.getOrCreate config).1 with
    | error e =>
      rw [hr] at hok
      cases hok
    | ok r => exact has_getOrCreate _ _ hr
  cases c with
  | connect url options => trivial
  | getOrCreateStream config =>
    cases ch with
    | some e =>
      intro hok
      cases hok
    | none => exact hcreated config
  | sub c =>
    cases c with
    | getStream name =>
      simp only [JetStream.serveBus, JetStream.serve]
      cases ch with
      | some e =>
        intro hok
        cases hok
      | none =>
        cases hfind : sh.js.streams.find name with
        | none =>
          intro hok
          cases hok
        | some s => exact fun _ => has_of_find _ hfind
    | ensureDlqStream name subject config =>
      cases ch with
      | some e =>
        intro hok
        cases hok
      | none => exact hcreated (dlqStreamConfig name subject config)
    | _ => trivial

omit [Inhabited O] in
/-- INTERNAL: a request that fails on the way grants nothing. -/
theorem granted_failure {streams : Streams} {c : BusCall O} {e : String} {r : c.Resp}
    (h : c.failure e = some r) : Granted streams c r := by
  cases c with
  | connect url options => trivial
  | getOrCreateStream config =>
    intro hok
    rw [hok] at h
    cases h
  | sub c =>
    cases c with
    | getStream name | ensureDlqStream name subject config =>
      intro hok
      rw [hok] at h
      cases h
    | _ => trivial

end

/-- **The server upholds the rules**, and everything stays founded. -/
theorem busRules_upheld [Inhabited O] (js : JetStream) :
    (busRules O S).Upheld (Founded js) fun _ _ => True where
  refl sh := ⟨List.Subset.refl _, List.Subset.refl _⟩
  trans h h' := ⟨List.Subset.trans h.1 h'.1, List.Subset.trans h.2 h'.2⟩
  legal_stable hgrows hlegal := ⟨hgrows.2 hlegal.1, hlegal.2.mono hgrows.1⟩
  enlist _ job sh hsh _ := by
    have hasked : sh.asked ⊆ job :: sh.asked := List.subset_cons_self ..
    exact ⟨⟨List.Subset.refl _, hasked⟩, hsh.mono rfl (List.Subset.refl _) hasked⟩
  reach _ _ _ sh hsh _ := ⟨⟨List.Subset.refl _, List.Subset.refl _⟩, hsh⟩
  effect _ _ _ _ ch sh hsh hlegal := by
    obtain ⟨hgrows, hfounded⟩ := founded_serve hsh hlegal ch
    exact ⟨⟨hgrows, List.Subset.refl _⟩, hfounded⟩
  answer _ _ c ch sh _ _ := granted_serve c ch
  failure _ _ _ _ _ hr := granted_failure hr
  drift e sh hsh := by
    cases e with
    | getOrCreateStream config =>
      have hothers : sh.others ⊆ config :: sh.others := List.subset_cons_self ..
      refine ⟨⟨subset_getOrCreate _ _, List.Subset.refl _⟩, ?_⟩
      exact hsh.getOrCreate hothers (List.Subset.refl _) rfl rfl
        (.inr (.inl List.mem_cons_self))
    | deleteConsumer consumer =>
      exact ⟨⟨List.Subset.refl _, List.Subset.refl _⟩, hsh.deleteConsumer consumer⟩

/-! ## The programs -/

section

variable [Inhabited O] {sh : BusServer O S} {calls : List (BuilderCall O S)}

/-- INTERNAL: connecting for a builder that has what it needs. -/
theorem connect_obeys {url : String} {options : O} (hasked : .build calls ∈ sh.asked)
    (hconnect : Asks sh.js.streams (.build calls : BusJob O S) (.connect url options)) :
    (NatsClient.connectWithOptions url options
        (EventBusBuilder.ofCalls calls).streamCfg).Obeys (busRules O S) (.build calls)
      (fun sh => OrNats fun _ =>
        HasStream sh.js.streams (EventBusBuilder.ofCalls calls).streamCfg.name) sh := by
  obtain ⟨hurl, hstore, hoptions⟩ := hconnect
  refine ⟨⟨hasked, hurl, hstore, hoptions⟩, fun sh' r hgrows _ => ?_⟩
  cases r with
  | error e => exact ⟨e, rfl⟩
  | ok =>
    have hurl' : (EventBusBuilder.ofCalls calls).url.isSome := by rw [hurl]; rfl
    refine ⟨⟨hgrows.2 hasked, hurl', hstore, rfl⟩, fun sh'' r hgrows' htold => ?_⟩
    cases r with
    | error e => exact ⟨e, rfl⟩
    | ok => exact htold rfl

/-- INTERNAL: the client of a builder makes the requests that are due.
SRC: builder.rs:69-88, client.rs:19-34 -/
theorem client_obeys {url : String} (hasked : .build calls ∈ sh.asked)
    (hurl : (EventBusBuilder.ofCalls calls).url = some url)
    (hstore : (EventBusBuilder.ofCalls calls).idempotency.isSome) :
    ((EventBusBuilder.ofCalls calls).client url).Obeys (busRules O S) (.build calls)
      (fun sh => OrNats fun _ =>
        HasStream sh.js.streams (EventBusBuilder.ofCalls calls).streamCfg.name) sh := by
  unfold EventBusBuilder.client
  cases hoptions : (EventBusBuilder.ofCalls calls).connectOptions with
  | none => exact connect_obeys hasked ⟨hurl, hstore, by rw [hoptions]; rfl⟩
  | some options => exact connect_obeys hasked ⟨hurl, hstore, by rw [hoptions]; rfl⟩

/-- The result of `build`, as the result of its task. -/
def ofBuild : Except BusError (EventBusHandle S) → BusResult S
  | .error e => .failed e
  | .ok bus => .built bus

/-- INTERNAL: a builder asks for nothing unless it has what it needs. -/
theorem build_obeys (hasked : .build calls ∈ sh.asked) :
    (EventBusBuilder.ofCalls calls).build.Obeys (busRules O S) (.build calls)
      (fun sh r => Achieves sh.js.streams (.build calls : BusJob O S) (ofBuild r)) sh := by
  unfold EventBusBuilder.build
  cases hurl : (EventBusBuilder.ofCalls calls).url with
  | none => exact .inl ⟨hurl, rfl⟩
  | some url =>
    have hurl' : (EventBusBuilder.ofCalls calls).url.isSome := by rw [hurl]; rfl
    cases hstore : (EventBusBuilder.ofCalls calls).idempotency with
    | none => exact .inr (.inl ⟨hurl', hstore, rfl⟩)
    | some store =>
      have hstore' : (EventBusBuilder.ofCalls calls).idempotency.isSome := by rw [hstore]; rfl
      refine (client_obeys hasked hurl hstore').bind fun sh' r hr => ?_
      cases r with
      | error e => exact .inr (.inr ⟨hurl', hstore', hr⟩)
      | ok => exact ⟨hurl', hstore, rfl, hr⟩

variable {bus : EventBusHandle S} {opts : SubscribeOptions}

/-- INTERNAL: when the options are complete, the dead letter stream of the bus is there. -/
theorem completeDlq_obeys (hasked : .subscribe bus opts ∈ sh.asked) :
    (bus.completeDlq opts : BusTask O _).Obeys (busRules O S) (.subscribe bus opts)
      (fun sh r => .subscribe bus opts ∈ sh.asked ∧ OrNats (fun opts' => opts' = completed bus opts ∧
        (Provides bus opts → HasStream sh.js.streams (streamOf opts))) r) sh := by
  unfold EventBusHandle.completeDlq
  cases hopts : opts.dlq with
  | some dlq =>
    refine ⟨hasked, ?_, fun hprovides => ?_⟩
    · simp only [completed, hopts, Option.some_or]
      rw [← hopts]
    · rw [hprovides.1] at hopts
      cases hopts
  | none =>
    cases hbus : bus.dlq with
    | none =>
      refine ⟨hasked, ?_, fun hprovides => ?_⟩
      · simp only [completed, hopts, hbus]
        rw [Option.map_none, Option.or_none, ← hopts]
      · have hsome := hprovides.2
        rw [hbus] at hsome
        cases hsome
    | some config =>
      have hcompleted : completed bus opts = { opts with dlq := some ⟨config⟩ } := by
        simp only [completed, hopts, hbus]
        rfl
      have hdlq : (completed bus opts).dlq = some ⟨config⟩ := by rw [hcompleted]
      refine ⟨⟨hasked, rfl, rfl, hdlq⟩, fun sh' r hgrows htold => ?_⟩
      cases r with
      | error e => exact ⟨hgrows.2 hasked, _, rfl⟩
      | ok => exact ⟨hgrows.2 hasked, hcompleted.symm, fun _ => htold rfl⟩

/-- What a subscription has found when it is made. -/
def Equipped (streams : Streams) (opts : SubscribeOptions) : Prop :=
  HasStream streams opts.stream ∧ (opts.dlq.isSome → HasStream streams (streamOf opts))

/-- The `subscribe` behind that of the bus, or a part of it. -/
abbrev behind {α : Type} (p : Prog SubCall SubCall.Resp α) : BusTask O α :=
  p.expand fun c => Prog.perform (BusCall.sub c : BusCall O)

/-- INTERNAL: the end of a subscription that has a dead letter queue. -/
theorem ensureDlqStream_obeys {config : DlqConfig} (hasked : .subscribe bus opts ∈ sh.asked)
    (hdlq : (completed bus opts).dlq = some ⟨config⟩)
    (hstream : HasStream sh.js.streams opts.stream) :
    (behind (ensureDlqStream (completed bus opts) config)).Obeys (busRules O S)
      (.subscribe bus opts)
      (fun sh => OrNats fun _ => Equipped sh.js.streams (completed bus opts)) sh := by
  refine ⟨⟨hasked, rfl, rfl, hdlq⟩, fun sh' r hgrows htold => ?_⟩
  cases r with
  | error e => exact ⟨_, rfl⟩
  | ok => exact ⟨hstream.mono hgrows.1, fun _ => htold rfl⟩

/-- INTERNAL: what makes a consumer makes the requests that are due.
SRC: subscriber.rs:169-190 -/
theorem createConsumer_obeys (hasked : .subscribe bus opts ∈ sh.asked)
    (hready : Provides bus opts → HasStream sh.js.streams (streamOf opts))
    (hstream : HasStream sh.js.streams opts.stream) :
    (behind (createConsumer (completed bus opts))).Obeys (busRules O S) (.subscribe bus opts)
      (fun sh => OrNats fun _ => Equipped sh.js.streams (completed bus opts)) sh := by
  unfold createConsumer
  refine ⟨⟨hasked, rfl, rfl, hstream, hready⟩, fun sh' r hgrows _ => ?_⟩
  cases r with
  | error e => exact ⟨e, rfl⟩
  | ok config =>
    cases hdlq : (completed bus opts).dlq with
    | none =>
      refine ⟨hstream.mono hgrows.1, fun hsome => ?_⟩
      rw [hdlq] at hsome
      cases hsome
    | some dlq =>
      exact ensureDlqStream_obeys (hgrows.2 hasked) hdlq (hstream.mono hgrows.1)

/-- INTERNAL: a subscription makes the requests that are due.
SRC: bus.rs:57-91 -/
theorem subscribe_obeys (hasked : .subscribe bus opts ∈ sh.asked)
    (hready : Provides bus opts → HasStream sh.js.streams (streamOf opts)) :
    (behind (subscribe (completed bus opts))).Obeys (busRules O S) (.subscribe bus opts)
      (fun sh => OrNats fun _ => Equipped sh.js.streams (completed bus opts)) sh := by
  refine ⟨⟨hasked, rfl⟩, fun sh' r hgrows htold => ?_⟩
  cases r with
  | error e => exact ⟨e, rfl⟩
  | ok =>
    have hready' : Provides bus opts → HasStream sh'.js.streams (streamOf opts) :=
      fun hprovides => (hready hprovides).mono hgrows.1
    exact createConsumer_obeys (hgrows.2 hasked) hready' (htold rfl)

/-- The result of `EventBus::subscribe`, as the result of its task. -/
def ofSubscribe : Except BusError (SubscriptionTask S) → BusResult S
  | .error e => .failed e
  | .ok task => .subscribed task

/-- INTERNAL: the `subscribe` of a bus. -/
theorem busSubscribe_obeys (hasked : .subscribe bus opts ∈ sh.asked) :
    (bus.subscribe opts).Obeys (busRules O S) (.subscribe bus opts) (fun sh r =>
      Achieves sh.js.streams (.subscribe bus opts : BusJob O S) (ofSubscribe r)) sh := by
  refine (completeDlq_obeys hasked).bind fun sh' r hr => ?_
  obtain ⟨hasked', hr⟩ := hr
  cases r with
  | error e => exact hr
  | ok opts' =>
    obtain ⟨rfl, hready⟩ := hr
    refine (subscribe_obeys hasked' hready).bind fun sh'' r hr => ?_
    cases r with
    | error e => exact hr
    | ok => exact ⟨rfl, rfl, hr.1, hr.2⟩

/-- **A task keeps to the rules and comes to what it should.** -/
theorem busTask_obeys {job : BusJob O S} (hasked : job ∈ sh.asked) :
    (busTask job).Obeys (busRules O S) job (fun sh r => Achieves sh.js.streams job r) sh := by
  cases job with
  | build calls =>
    refine (build_obeys hasked).bind fun sh' r hr => ?_
    cases r <;> exact hr
  | subscribe bus opts =>
    refine (busSubscribe_obeys hasked).bind fun sh' r hr => ?_
    cases r <;> exact hr

/-! ## Runs -/

/-- The invariant of the server and of each task by itself. -/
abbrev wellAsked (O S : Type) [Inhabited O] (js : JetStream) : Local (busTasks O S) :=
  obeying (W := busWorld O S) busTask (busRules O S) (Founded js)
    fun job sh r => Achieves sh.js.streams job r

/-- INTERNAL: every task asks for what is due, whatever the others do. -/
theorem wellAsked_kept (js : JetStream) :
    (wellAsked O S js).Kept (fun _ _ => True) (busRules O S).grows :=
  (busRules_upheld js).kept (W := busWorld O S) (fun hgrows hr => hr.mono hgrows.1)
    fun _ _ _ _ _ => busTask_obeys List.mem_cons_self

omit [Inhabited O] in
/-- INTERNAL: at first everything on the server was there. -/
theorem founded_first (js : JetStream) : Founded js (⟨js, [], []⟩ : BusServer O S) where
  streams _ hs := .inl hs
  consumers _ _ hconsumer := .inl hconsumer

/-- INTERNAL: in every run, what is asked for is due. -/
theorem wellAsked_always (js : JetStream) (as : List (Action (busWorld O S))) :
    Always (step (busTasks O S)) (wellAsked O S js).Holds (fresh (busTasks O S) ⟨js, [], []⟩) as :=
  always_of_step (fun _ _ _ h hs => (wellAsked_kept js).step h (fun _ _ _ => trivial) hs)
    (Local.Holds.fresh (founded_first js))

end

section

variable [Inhabited O]

/-- Whatever is wanted under the name of the dead letter stream stores what is published to its
subject. -/
def Unshared (js : JetStream) (sh : BusServer O S) (opts : SubscribeOptions) : Prop :=
  ∀ config, Wanted js sh config → config.name = streamOf opts →
    config.captures (subjectOf opts) = true

/-- Every consumer was there or is one of a subscription of a bus; and if the bus provides its
dead letter stream, that is there and stores its dead letters, as does no other. -/
def ConsumersRouted (js : JetStream) (sh : BusServer O S) : Prop :=
  ∀ consumer config, sh.js.consumers consumer = some config →
    js.consumers consumer = some config ∨
      ∃ bus opts, .subscribe bus opts ∈ sh.asked ∧ opts.consumer = consumer ∧
        opts.pullConfig = config ∧ HasStream sh.js.streams opts.stream ∧
        (Provides bus opts → HasStream sh.js.streams (streamOf opts) ∧
          (Unshared js sh opts → sh.js.storedIn (subjectOf opts) = [streamOf opts]))

/-- **No consumer without its dead letter stream.**  In every state of every such run, however the
subscriptions of the buses fail half-way, a consumer that one of them has brought about has its
stream, and the dead letter stream that its bus provides; and unless others claim its name for
something else, that is where its dead letters are stored.
SRC: bus.rs:66-91, dlq.rs:141-169, subscriber.rs:151-190 -/
theorem bus_consumers_routed (js : JetStream) (as : List (Action (busWorld O S))) :
    Always (step (busTasks O S)) (fun s => ConsumersRouted js s.shared)
      (fresh (busTasks O S) ⟨js, [], []⟩) as := by
  refine (wellAsked_always js as).mono fun s hs consumer config hconsumer => ?_
  refine (hs.shared.consumers consumer config hconsumer).imp id ?_
  rintro ⟨bus, opts, hsub, heq, hconfig, hstream, hdlq⟩
  refine ⟨bus, opts, hsub, heq, hconfig, hstream, fun hprovides => ⟨hdlq hprovides, ?_⟩⟩
  intro hunshared
  obtain ⟨dlqStream, hmem, hname⟩ := hdlq hprovides
  have hcaptures := hunshared dlqStream (hs.shared.streams dlqStream hmem) hname
  rw [storedIn_eq hmem hcaptures, hname]

end

end EventBus.Analysis
