import Mathlib.Data.List.Nodup
import EventBus.Lib.Joined
import EventBus.Model.DlqStreams

/-!
# Where dead letters go

A consumer has a dead letter stream of its own if the stream behind its name captures the
subject it publishes to.  The name joins stream and durable by an underscore, which may occur
in both, and a stream that is already there is taken as it is.  So two consumers can come to
share a name, and the second one's dead letters have nowhere to go; `routed_iff` says that
this, and a stream that was there before and captures something else, is all that can go
wrong.
-/

set_option autoImplicit false

namespace EventBus.Analysis

open EventBus.Lib EventBus.Model

/-- The dead letter stream of a subscription. -/
def streamOf (o : SubscribeOptions) : String := dlqStreamName o.stream o.durable

/-- The subject its dead letters are published to. -/
def subjectOf (o : SubscribeOptions) : String := dlqSubject o.stream o.durable

/-- Every subscription has its own dead letter stream: it is there, it stores what the
subscription publishes, as does no other stream, and it stores nothing of another
subscription. -/
structure Routed (subs : List SubscribeOptions) (js : JetStream) : Prop where
  captured : ∀ o ∈ subs, ∃ s ∈ js.streams.list, s.name = streamOf o ∧
    s.captures (subjectOf o) = true
  stored : ∀ o ∈ subs, js.storedIn (subjectOf o) = [streamOf o]
  apart : ∀ o ∈ subs, ∀ o' ∈ subs, o.consumer ≠ o'.consumer →
    ∀ name ∈ js.storedIn (subjectOf o), name ∉ js.storedIn (subjectOf o')

/-- No two subscriptions are told apart only by where an underscore falls between stream and
durable, and a stream that is already there under the name of a dead letter stream captures
its subject. -/
structure Unambiguous (subs : List SubscribeOptions) (js : JetStream) : Prop where
  notRegrouped : ∀ o ∈ subs, ∀ o' ∈ subs, ¬ Regrouped "_" o.consumer o'.consumer
  provisioned : ∀ o ∈ subs, ∀ s ∈ js.streams.list, s.name = streamOf o →
    s.captures (subjectOf o) = true

/-! ## What subscribing does to the streams -/

/-- What `get_or_create_stream` can do. -/
theorem getOrCreate_cases (streams : Streams) (config : StreamConfig) :
    (∃ existing ∈ streams.list, existing.name = config.name ∧
        streams.getOrCreate config = (.ok existing, streams)) ∨
      (∃ streams', streams'.list = streams.list ++ [config] ∧
        streams.getOrCreate config = (.ok config, streams')) ∨
      ∃ e, streams.getOrCreate config = (.error e, streams) := by
  unfold Streams.getOrCreate
  split
  · rename_i existing hname
    left
    have hfound := List.find?_some hname
    exact ⟨existing, List.mem_of_find?_eq_some hname, by simpa using hfound, rfl⟩
  · rename_i hname
    right
    split
    · rename_i hfree
      exact .inl ⟨streams.add config hname hfree, rfl, rfl⟩
    · exact .inr ⟨_, rfl⟩

/-- The streams only grow, by dead letter streams of the subscriptions, and at the end each
subscription finds one under the name of its own. -/
structure Grown (subs : List SubscribeOptions) (before after : Streams) : Prop where
  kept : ∀ s ∈ before.list, s ∈ after.list
  made : ∀ s ∈ after.list, s ∈ before.list ∨ ∃ o ∈ subs, ∃ config,
    s = dlqStreamConfig (streamOf o) (subjectOf o) config
  there : ∀ o ∈ subs, o.dlq.isSome → ∃ s ∈ after.list, s.name = streamOf o

/-- INTERNAL: without subscriptions no stream is added. -/
theorem Grown.refl (streams : Streams) : Grown [] streams streams where
  kept _ hs := hs
  made _ hs := .inl hs
  there _ ho := absurd ho List.not_mem_nil

/-- INTERNAL: one subscription, and then the others. -/
theorem Grown.trans {o : SubscribeOptions} {subs : List SubscribeOptions}
    {before middle after : Streams} (h : Grown [o] before middle)
    (h' : Grown subs middle after) : Grown (o :: subs) before after where
  kept s hs := h'.kept s (h.kept s hs)
  made s hs := by
    rcases h'.made s hs with hmiddle | ⟨o', ho', hconfig⟩
    · rcases h.made s hmiddle with hbefore | ⟨o', ho', hconfig⟩
      · exact .inl hbefore
      · obtain rfl := List.mem_singleton.mp ho'
        exact .inr ⟨o', List.mem_cons_self, hconfig⟩
    · exact .inr ⟨o', List.mem_cons_of_mem _ ho', hconfig⟩
  there o' ho' hdlq := by
    rcases List.mem_cons.mp ho' with rfl | ho'
    · obtain ⟨s, hs, hname⟩ := h.there o' List.mem_cons_self hdlq
      exact ⟨s, h'.kept s hs, hname⟩
    · exact h'.there o' ho' hdlq

/-- INTERNAL: asking for the dead letter stream of a subscription. -/
theorem Grown.of_getOrCreate {o : SubscribeOptions} {config : DlqConfig} {streams : Streams}
    {r : StreamConfig}
    (h : (streams.getOrCreate (dlqStreamConfig (streamOf o) (subjectOf o) config)).1 = .ok r) :
    Grown [o] streams
      (streams.getOrCreate (dlqStreamConfig (streamOf o) (subjectOf o) config)).2 := by
  rcases getOrCreate_cases streams (dlqStreamConfig (streamOf o) (subjectOf o) config) with
    ⟨existing, hmem, hname, heq⟩ | ⟨streams', hlist, heq⟩ | ⟨e, heq⟩
  · rw [heq]
    refine ⟨fun s hs => hs, fun s hs => .inl hs, fun o' ho' _ => ?_⟩
    obtain rfl := List.mem_singleton.mp ho'
    exact ⟨existing, hmem, hname⟩
  · rw [heq]
    refine ⟨fun s hs => ?_, fun s hs => ?_, fun o' ho' _ => ?_⟩
    · rw [hlist]
      exact List.mem_append_left _ hs
    · rw [hlist] at hs
      rcases List.mem_append.mp hs with hold | hnew
      · exact .inl hold
      · exact .inr ⟨o, List.mem_cons_self, config, List.mem_singleton.mp hnew⟩
    · obtain rfl := List.mem_singleton.mp ho'
      refine ⟨dlqStreamConfig (streamOf o') (subjectOf o') config, ?_, rfl⟩
      rw [hlist]
      exact List.mem_append_right _ List.mem_cons_self
  · rw [heq] at h
    cases h

/-- INTERNAL: what asking for a dead letter stream does to the streams, when it succeeds. -/
theorem Grown.of_ensureDlqStream {refuses : SubCall → JetStream → Option String}
    {o : SubscribeOptions} {config : DlqConfig} {js js' : JetStream}
    (h : (ensureDlqStream o config).exec (JetStream.serve refuses) js = (.ok (), js')) :
    Grown [o] js.streams js'.streams := by
  simp only [ensureDlqStream, Prog.perform_bind, Prog.exec_call, JetStream.serve] at h
  cases hrefused : refuses (.ensureDlqStream (dlqStreamName o.stream o.durable)
    (dlqSubject o.stream o.durable) config) js with
  | some e =>
    rw [hrefused] at h
    cases (Prod.mk.inj h).1
  | none =>
    rw [hrefused] at h
    cases hcreated : (js.streams.getOrCreate (dlqStreamConfig (streamOf o) (subjectOf o)
      config)).1 with
    | error e =>
      simp only [streamOf, subjectOf] at hcreated
      simp only [hcreated, Except.map] at h
      cases (Prod.mk.inj h).1
    | ok r =>
      have hgrown := Grown.of_getOrCreate hcreated
      simp only [streamOf, subjectOf] at hcreated
      simp only [hcreated, Except.map] at h
      obtain rfl := (Prod.mk.inj h).2
      exact hgrown

/-- INTERNAL: a subscription without dead letters adds none. -/
theorem Grown.of_disabled {o : SubscribeOptions} (hdlq : o.dlq = none) (streams : Streams) :
    Grown [o] streams streams where
  kept _ hs := hs
  made _ hs := .inl hs
  there o' ho' hsome := by
    obtain rfl := List.mem_singleton.mp ho'
    rw [hdlq] at hsome
    cases hsome

/-- INTERNAL: the same from the point where the consumer is asked for. -/
theorem Grown.of_createConsumer {refuses : SubCall → JetStream → Option String}
    {o : SubscribeOptions} {js js' : JetStream}
    (h : (createConsumer o).exec (JetStream.serve refuses) js = (.ok (), js')) :
    Grown [o] js.streams js'.streams := by
  simp only [createConsumer, Prog.perform_bind, Prog.exec_call, JetStream.serve] at h
  cases hrefused : refuses (.getOrCreateConsumer o.stream o.durable o.pullConfig) js with
  | some e =>
    rw [hrefused] at h
    cases (Prod.mk.inj h).1
  | none =>
    rw [hrefused] at h
    cases hdlq : o.dlq with
    | none =>
      simp only [hdlq] at h
      obtain rfl := (Prod.mk.inj h).2
      exact .of_disabled hdlq js.streams
    | some dlq =>
      simp only [hdlq] at h
      have hgrown := Grown.of_ensureDlqStream h
      exact hgrown

/-- INTERNAL: what a `subscribe` that returns `Ok` has done to the streams. -/
theorem Grown.of_subscribe {refuses : SubCall → JetStream → Option String}
    {o : SubscribeOptions} {js js' : JetStream}
    (h : (subscribe o).exec (JetStream.serve refuses) js = (.ok (), js')) :
    Grown [o] js.streams js'.streams := by
  simp only [subscribe, Prog.perform_bind, Prog.exec_call, JetStream.serve] at h
  cases hrefused : refuses (.getStream o.stream) js with
  | some e =>
    simp only [hrefused] at h
    cases (Prod.mk.inj h).1
  | none =>
    cases hfind : js.streams.find o.stream with
    | none =>
      simp only [hrefused, hfind] at h
      cases (Prod.mk.inj h).1
    | some s =>
      simp only [hrefused, hfind] at h
      exact .of_createConsumer h

/-- INTERNAL: the same for any number of them. -/
theorem Grown.of_subscribeAll {refuses : SubCall → JetStream → Option String}
    {subs : List SubscribeOptions} {js js' : JetStream}
    (h : subscribeAll refuses subs js = .ok js') : Grown subs js.streams js'.streams := by
  induction subs generalizing js with
  | nil =>
    obtain rfl : js = js' := Except.ok.inj h
    exact .refl js.streams
  | cons o subs ih =>
    rw [subscribeAll] at h
    split at h
    · rename_i middle hsubscribe
      exact (Grown.of_subscribe hsubscribe).trans (ih h)
    · cases h

/-! ## Names -/

/-- INTERNAL: two consumers share the name of a dead letter stream exactly if they are the
same or an underscore between stream and durable falls elsewhere. -/
theorem streamOf_eq_iff (o o' : SubscribeOptions) :
    streamOf o = streamOf o' ↔ o.consumer = o'.consumer ∨
      Regrouped "_" o.consumer o'.consumer ∨ Regrouped "_" o'.consumer o.consumer := by
  rw [← join_eq_iff (c := '_') rfl o.consumer o'.consumer]
  simp only [streamOf, dlqStreamName, String.append_assoc]
  exact String.append_right_inj _

/-- INTERNAL: the subject is a matter of the consumer. -/
theorem subjectOf_congr {o o' : SubscribeOptions} (h : o.consumer = o'.consumer) :
    subjectOf o = subjectOf o' := by
  obtain ⟨hstream, hdurable⟩ := Prod.mk.inj h
  simp only [subjectOf, hstream, hdurable]

/-- INTERNAL: a stream can be told from its name. -/
theorem eq_of_name {streams : Streams} {s t : StreamConfig} (hs : s ∈ streams.list)
    (ht : t ∈ streams.list) (hname : s.name = t.name) : s = t := by
  have hnodup : (streams.list.map StreamConfig.name).Nodup := by
    apply List.pairwise_map.mpr
    exact streams.separate.imp fun h => h.1
  exact List.inj_on_of_nodup_map hnodup hs ht hname

/-- INTERNAL: a dead letter stream takes its own subject.
SRC: dlq.rs:141-169 -/
theorem captures_own (o : SubscribeOptions) (config : DlqConfig) :
    (dlqStreamConfig (streamOf o) (subjectOf o) config).captures (subjectOf o) = true := by
  simp only [StreamConfig.captures, dlqStreamConfig, List.any_cons, List.any_nil, Bool.or_false]
  exact Topic.passes_self (subjectOf o)

/-- INTERNAL: of all the streams only one stores what is published to a subject. -/
theorem storedIn_eq {js : JetStream} {s : StreamConfig} {subject : String}
    (hs : s ∈ js.streams.list) (hcaptures : s.captures subject = true) :
    js.storedIn subject = [s.name] := by
  have hfiltered : js.streams.list.filter (fun t => t.captures subject) = [s] := by
    have hseparate := js.streams.separate
    generalize js.streams.list = list at hs hseparate
    induction list with
    | nil => cases hs
    | cons t list ih =>
      obtain ⟨ht, hlist⟩ := List.pairwise_cons.mp hseparate
      rcases List.mem_cons.mp hs with rfl | hs
      · rw [List.filter_cons_of_pos (by exact hcaptures)]
        congr 1
        apply List.filter_eq_nil_iff.mpr
        intro u hu hu'
        have hoverlaps := StreamConfig.overlaps_of_captures hcaptures hu'
        rw [(ht u hu).2] at hoverlaps
        cases hoverlaps
      · have hnot : ¬ t.captures subject = true := by
          intro ht'
          have hoverlaps := StreamConfig.overlaps_of_captures ht' hcaptures
          rw [(ht s hs).2] at hoverlaps
          cases hoverlaps
        rw [List.filter_cons_of_neg (by exact hnot)]
        exact ih hs hlist
  simp only [JetStream.storedIn, hfiltered, List.map_cons, List.map_nil]

/-! ## Who is routed -/

section

variable {refuses : SubCall → JetStream → Option String} {subs : List SubscribeOptions}
  {js js' : JetStream}

/-- INTERNAL: a stream under the name of a dead letter stream that captures its subject. -/
theorem captured_of_unambiguous (hdlq : ∀ o ∈ subs, o.dlq.isSome)
    (hgrown : Grown subs js.streams js'.streams) (hclear : Unambiguous subs js)
    {o : SubscribeOptions} (ho : o ∈ subs) :
    ∃ s ∈ js'.streams.list, s.name = streamOf o ∧ s.captures (subjectOf o) = true := by
  obtain ⟨s, hs, hname⟩ := hgrown.there o ho (hdlq o ho)
  refine ⟨s, hs, hname, ?_⟩
  rcases hgrown.made s hs with hbefore | ⟨o', ho', config, rfl⟩
  · exact hclear.provisioned o ho s hbefore hname
  · rcases (streamOf_eq_iff o' o).mp hname with hsame | hmoved | hmoved
    · rw [← subjectOf_congr hsame]
      exact captures_own o' config
    · exact absurd hmoved (hclear.notRegrouped o' ho' o ho)
    · exact absurd hmoved (hclear.notRegrouped o ho o' ho')

/-- INTERNAL: where nothing is ambiguous everything is routed. -/
theorem routed_of_unambiguous (hdlq : ∀ o ∈ subs, o.dlq.isSome)
    (hgrown : Grown subs js.streams js'.streams) (hclear : Unambiguous subs js) :
    Routed subs js' := by
  have hcaptured : ∀ o ∈ subs, ∃ s ∈ js'.streams.list, s.name = streamOf o ∧
      s.captures (subjectOf o) = true :=
    fun o ho => captured_of_unambiguous hdlq hgrown hclear ho
  have hstored : ∀ o ∈ subs, js'.storedIn (subjectOf o) = [streamOf o] := by
    intro o ho
    obtain ⟨s, hs, hname, hcaptures⟩ := hcaptured o ho
    rw [storedIn_eq hs hcaptures, hname]
  refine ⟨hcaptured, hstored, ?_⟩
  intro o ho o' ho' hne name hin hin'
  rw [hstored o ho] at hin
  rw [hstored o' ho'] at hin'
  have hname : streamOf o = streamOf o' :=
    (List.mem_singleton.mp hin).symm.trans (List.mem_singleton.mp hin')
  rcases (streamOf_eq_iff o o').mp hname with hsame | hmoved | hmoved
  · exact hne hsame
  · exact hclear.notRegrouped o ho o' ho' hmoved
  · exact hclear.notRegrouped o' ho' o ho hmoved

/-- INTERNAL: where everything is routed nothing is ambiguous. -/
theorem unambiguous_of_routed (hgrown : Grown subs js.streams js'.streams)
    (hrouted : Routed subs js') : Unambiguous subs js where
  notRegrouped o ho o' ho' hmoved := by
    have hname : streamOf o = streamOf o' := (streamOf_eq_iff o o').mpr (.inr (.inl hmoved))
    have hne : o.consumer ≠ o'.consumer := hmoved.ne (by decide)
    apply hrouted.apart o ho o' ho' hne (streamOf o)
    · rw [hrouted.stored o ho]
      exact List.mem_singleton_self _
    · rw [hrouted.stored o' ho', hname]
      exact List.mem_singleton_self _
  provisioned o ho s hs hname := by
    obtain ⟨t, ht, htname, hcaptures⟩ := hrouted.captured o ho
    rw [eq_of_name (hgrown.kept s hs) ht (hname.trans htname.symm)]
    exact hcaptures

/-- **Every subscription has a dead letter stream of its own exactly if names are told
apart** by more than where an underscore falls, and what was there before fits. -/
theorem routed_iff (hdlq : ∀ o ∈ subs, o.dlq.isSome)
    (h : subscribeAll refuses subs js = .ok js') : Routed subs js' ↔ Unambiguous subs js :=
  ⟨unambiguous_of_routed (.of_subscribeAll h), routed_of_unambiguous hdlq (.of_subscribeAll h)⟩

end

/-! ## Two consumers on a server with two streams -/

/-- A stream of events. -/
def eventStream (name subject : String) : StreamConfig where
  name := name
  subjects := [subject]

/-- A server with two streams of events, and no consumer yet. -/
def twoStreams : JetStream where
  streams :=
    { list := [eventStream "EVENTS" "events.>", eventStream "EVENTS_billing" "billing.>"]
      separate := by decide }
  consumers := fun _ => none

def billingV2 : SubscribeOptions where
  stream := "EVENTS"
  durable := "billing_v2"
  dlq := some {}

def shipping : SubscribeOptions where
  durable := "shipping"
  dlq := some {}

def v2 : SubscribeOptions where
  stream := "EVENTS_billing"
  durable := "v2"
  dlq := some {}

def neverRefuses : SubCall → JetStream → Option String := fun _ _ => none

/-- Two consumers of one stream have dead letter streams of their own. -/
theorem routed_two_durables :
    ∃ js', subscribeAll neverRefuses [billingV2, shipping] twoStreams = .ok js' ∧
      Routed [billingV2, shipping] js' := by
  have hdlq : ∀ o ∈ [billingV2, shipping], o.dlq.isSome := by decide
  have hnames : ∀ o ∈ [billingV2, shipping], ∀ o' ∈ [billingV2, shipping],
      streamOf o = streamOf o' → o.consumer = o'.consumer := by decide
  have hclear : Unambiguous [billingV2, shipping] twoStreams := by
    constructor
    · intro o ho o' ho' hmoved
      apply hmoved.ne (by decide)
      exact hnames o ho o' ho' ((streamOf_eq_iff o o').mpr (.inr (.inl hmoved)))
    · decide
  have hrun : ∃ js', subscribeAll neverRefuses [billingV2, shipping] twoStreams = .ok js' :=
    ⟨_, rfl⟩
  obtain ⟨js', hok⟩ := hrun
  exact ⟨js', hok, (routed_iff hdlq hok).mpr hclear⟩

/-- The dead letters of the second consumer have nowhere to go. -/
theorem two_consumers_of_one_name :
    (∀ o ∈ [billingV2, v2], Topic.admits o.stream = true ∧ Topic.admits o.durable = true ∧
      o.dlq.isSome) ∧ billingV2.consumer ≠ v2.consumer ∧
    ∃ js', subscribeAll neverRefuses [billingV2, v2] twoStreams = .ok js' ∧
      js'.storedIn (subjectOf v2) = [] ∧ ¬ Routed [billingV2, v2] js' := by
  refine ⟨by decide, by decide, ?_⟩
  have hrun : ∃ js', subscribeAll neverRefuses [billingV2, v2] twoStreams = .ok js' ∧
      js'.storedIn (subjectOf v2) = [] := by
    refine ⟨_, rfl, ?_⟩
    decide
  obtain ⟨js', hok, hstored⟩ := hrun
  refine ⟨js', hok, hstored, ?_⟩
  intro hrouted
  have hown := hrouted.stored v2 (by simp)
  rw [hstored] at hown
  cases hown

end EventBus.Analysis
