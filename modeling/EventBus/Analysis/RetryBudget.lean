import EventBus.Lib.Sites
import EventBus.Model.Subscription

/-!
# The retry budget of subscriber and server

How often a message may be delivered is known in two places: the server counts deliveries
against the `max_deliver` of the consumer, and the workers compare the count with the one
of the options they were subscribed with.  `get_or_create_consumer` returns a consumer
that exists as it is, whatever configuration it is asked for, and its answer is not looked
at.

The counterexample subscribes twice, with different options.  The result says exactly
which histories keep the two in agreement: those in which no subscription starts to run on
a consumer with another `max_deliver`, and no consumer is created under a subscription
that runs with another one.
-/

set_option autoImplicit false

namespace EventBus.Analysis

open EventBus.Model EventBus.Lib

/-! ## The property -/

/-- The worker makes for the dead letter stream: its next calls are the time stamp of a
dead letter and its publish. -/
def SentToDlq {U E : Type} (subject : String) (worker : Worker U E Unit) : Prop :=
  ∃ k, worker = .call .unixTimestampSeconds k ∧ ∀ failedAt, ∃ headers payload timeout,
    (k failedAt).head = some (.publishWithHeaders subject headers payload timeout)

/-- A transient failure on the last delivery that the server makes is sent to the dead
letter stream. -/
def LastIsFinal (opts : SubscribeOptions) (config : PullConfig) : Prop :=
  ∀ {U E : Type} [UuidCrate U] (msg : Message) (info : Info) (msgId : MessageId U)
    (reason : String), 0 < config.maxDeliver → info.delivered = config.maxDeliver →
      SentToDlq (E := E) (dlqSubject opts.stream opts.durable)
        (afterHandler msg opts.processingOptions info msgId (.error (.transient reason)))

/-- While a subscription runs, the `max_deliver` of its workers is the one of its consumer,
and with dead letters enabled no transient failure on a last delivery is sent back. -/
structure BudgetAgrees (s : State subscriptionWorld SubPoint) : Prop where
  budget : ∀ i opts p, s.sites i = some (opts, p) → p.running = true →
    ∀ config, s.shared opts.consumer = some config →
      opts.processingOptions.maxDeliver = config.maxDeliver
  final : ∀ i opts p, s.sites i = some (opts, p) → p.running = true → opts.dlq.isSome = true →
    ∀ config, s.shared opts.consumer = some config → LastIsFinal opts config

/-! ## The condition -/

/-- The subscription that starts to run in this step. -/
def starting (s : State subscriptionWorld SubPoint) :
    Action subscriptionWorld → Option SubscribeOptions
  | .serve i _ =>
    match s.threads i with
    | some ⟨opts, .waiting .createConsumer⟩ => if opts.dlq.isSome then none else some opts
    | some ⟨opts, .waiting (.ensureDlqStream _)⟩ => some opts
    | _ => none
  | _ => none

/-- The call that takes effect in this step. -/
def acting (s : State subscriptionWorld SubPoint) : Action subscriptionWorld → Option SubCall
  | .serve i _ | .fail i .served _ _ | .abort i .served _ =>
    match s.threads i with
    | some ⟨opts, .waiting p⟩ => subscriptions.head opts p
    | _ => none
  | .land n _ => (s.detached[n]?).map fun d => d.2.2
  | _ => none

/-- No subscription starts to run on a consumer with another `max_deliver`, and no
consumer is created under a subscription that runs with another one. -/
def SameBudget (s : State subscriptionWorld SubPoint) (a : Action subscriptionWorld)
    (_ : State subscriptionWorld SubPoint) : Prop :=
  (∀ opts, starting s a = some opts → ∀ config, s.shared opts.consumer = some config →
      config.maxDeliver = opts.maxDeliver) ∧
    ∀ stream durable config, acting s a = some (.getOrCreateConsumer stream durable config) →
      s.shared (stream, durable) = none → ∀ i opts p, s.sites i = some (opts, p) →
        p.running = true → opts.consumer = (stream, durable) →
          opts.maxDeliver = config.maxDeliver

/-! ## The last delivery -/

/-- **With one `max_deliver` on both sides, the last delivery is the final attempt.** -/
theorem lastIsFinal_of_eq {opts : SubscribeOptions} {config : PullConfig}
    (hdlq : opts.dlq.isSome = true) (heq : opts.maxDeliver = config.maxDeliver) :
    LastIsFinal opts config := by
  intro U E _ msg info msgId reason hpos hlast
  obtain ⟨dlqOpts, hopts⟩ := Option.isSome_iff_exists.mp hdlq
  have hmax : opts.maxDeliver > 0 := by omega
  have hcount : info.delivered ≥ opts.maxDeliver := by omega
  have hfinal : isFinalAttempt opts.processingOptions info = true := by
    simp [isFinalAttempt, SubscribeOptions.processingOptions, hmax, hcount]
  have hsome : opts.processingOptions.dlqOpts = some dlqOpts := hopts
  simp only [afterHandler, if_pos hfinal, handleTerminalFailure, hsome]
  exact ⟨_, rfl, fun failedAt => ⟨_, _, _, rfl⟩⟩

/-- The subscriptions that run agree with their consumers. -/
def Agree (s : State subscriptionWorld SubPoint) : Prop :=
  ∀ i opts p, s.sites i = some (opts, p) → p.running = true →
    ∀ config, s.shared opts.consumer = some config → opts.maxDeliver = config.maxDeliver

/-- INTERNAL: whether the budgets agree can be seen. -/
theorem budgetAgrees_iff {s : State subscriptionWorld SubPoint} : BudgetAgrees s ↔ Agree s := by
  constructor
  · exact fun h => h.budget
  · intro h
    refine ⟨h, fun i opts p hi hp hdlq config hconfig => ?_⟩
    exact lastIsFinal_of_eq hdlq (h i opts p hi hp config hconfig)

/-! ## What one call does -/

/-- INTERNAL: the consumers after a call are those before and the one it creates. -/
theorem consumers_effect {c : SubCall} {consumers : Consumers} {key : String × String}
    {config : PullConfig} : consumers.effect c key = some config ↔
      consumers key = some config ∨
        (consumers key = none ∧ c = .getOrCreateConsumer key.1 key.2 config) := by
  cases c with
  | getOrCreateConsumer stream durable new =>
    simp only [Consumers.effect]
    by_cases hkey : key = (stream, durable)
    · subst hkey
      cases hold : consumers (stream, durable) with
      | none => simp
      | some old => simp [hold]
    · have hne : ¬ (stream = key.1 ∧ durable = key.2) := by
        rintro ⟨rfl, rfl⟩
        exact hkey rfl
      cases hold : consumers (stream, durable) with
      | none =>
        simp only [Function.update_of_ne hkey, SubCall.getOrCreateConsumer.injEq]
        exact ⟨.inl, fun h => h.resolve_right fun h => hne ⟨h.2.1, h.2.2.1⟩⟩
      | some old =>
        simp only [SubCall.getOrCreateConsumer.injEq]
        exact ⟨.inl, fun h => h.resolve_right fun h => hne ⟨h.2.1, h.2.2.1⟩⟩
  | _ => simp [Consumers.effect]

/-- INTERNAL: a subscription asks for a consumer with its own budget.
SRC: subscriber.rs:173-179 -/
theorem own_config {opts : SubscribeOptions} {p : SubPoint} {stream durable : String}
    {config : PullConfig}
    (hc : subscriptions.head opts p = some (.getOrCreateConsumer stream durable config)) :
    config.maxDeliver = opts.maxDeliver := by
  cases p <;> cases hc <;> rfl

/-- The points from which a subscription may start to run. -/
def startsAt (opts : SubscribeOptions) : SubPoint → Bool
  | .createConsumer => opts.dlq.isNone
  | .ensureDlqStream _ => true
  | _ => false

/-- INTERNAL: a subscription that is answered runs afterwards if it ran and goes on, or
starts to. -/
theorem running_answer {opts : SubscribeOptions} {p : SubPoint} {c : SubCall}
    {k : c.Resp → SubPoint} (hv : SubPoint.view opts p = some ⟨c, k⟩) (r : c.Resp)
    (hr : (k r).running = true) : p.running = true ∨ startsAt opts p = true := by
  cases p with
  | getStream =>
    cases hv
    rcases r with e | ⟨⟩ <;> cases hr
  | createConsumer =>
    cases hv
    rcases r with e | config
    · cases hr
    · right
      simp only [SubPoint.afterConsumer] at hr
      cases hdlq : opts.dlq with
      | none => simp [startsAt, hdlq]
      | some dlqOpts =>
        rw [hdlq] at hr
        cases hr
  | ensureDlqStream config => exact .inr rfl
  | failed e => cases hv
  | stopped => cases hv
  | _ => exact .inl rfl

/-- INTERNAL: a subscription that gets no answer runs afterwards only if it ran. -/
theorem running_lost {opts opts' : SubscribeOptions} {p p' : SubPoint}
    (hnext : Lost subscriptions opts p (some (opts', p'))) (hp : p'.running = true) :
    opts' = opts ∧ p.running = true := by
  cases hnext with
  | @failed c k r err hv hr =>
    refine ⟨rfl, ?_⟩
    cases p <;> cases hv <;> cases hr <;> first | rfl | cases hp

/-- INTERNAL: a subscription that starts to run does so from the answer. -/
theorem running_start {opts : SubscribeOptions} {p : SubPoint} {c : SubCall}
    {k : c.Resp → SubPoint} (hv : SubPoint.view opts p = some ⟨c, k⟩)
    (hp : startsAt opts p = true) (ch : PullItem × Bool) (consumers : Consumers) :
    (k (Consumers.answer c ch consumers)).running = true := by
  cases p with
  | createConsumer =>
    cases hv
    have hdlq : opts.dlq = none := Option.isNone_iff_eq_none.mp hp
    simp only [Consumers.answer, SubPoint.afterConsumer, hdlq]
    rfl
  | ensureDlqStream config =>
    cases hv
    rfl
  | _ => cases hp

/-! ## One step -/

section

variable {s s' : State subscriptionWorld SubPoint}

/-- INTERNAL: where no consumer appears, who runs afterwards ran before. -/
theorem Agree.same (hq : Agree s)
    (hsites : ∀ i opts p, s'.sites i = some (opts, p) → p.running = true →
      ∃ q, s.sites i = some (opts, q) ∧ q.running = true)
    (hshared : ∀ key config, s'.shared key = some config → s.shared key = some config) :
    Agree s' := by
  intro i opts p hi hp config hconfig
  obtain ⟨q, hq', hrun⟩ := hsites i opts p hi hp
  exact hq i opts q hq' hrun config (hshared _ _ hconfig)

/-- INTERNAL: a call that takes effect, and a subscription `start` that starts to run with
it, keep the agreement exactly as the condition says. -/
theorem Agree.effect_iff (hq : Agree s) {c : SubCall} (start : Option SubscribeOptions)
    (hshared : s'.shared = s.shared.effect c)
    (hkept : ∀ i opts p, s.sites i = some (opts, p) → p.running = true →
      (∃ q, s'.sites i = some (opts, q) ∧ q.running = true) ∨
        ∀ stream durable config, c = .getOrCreateConsumer stream durable config →
          config.maxDeliver = opts.maxDeliver)
    (hnew : ∀ i opts q, s'.sites i = some (opts, q) → q.running = true →
      (∃ p, s.sites i = some (opts, p) ∧ p.running = true) ∨ (start = some opts ∧
        ∀ stream durable config, c = .getOrCreateConsumer stream durable config →
          config.maxDeliver = opts.maxDeliver))
    (hstart : ∀ opts, start = some opts →
      ∃ i q, s'.sites i = some (opts, q) ∧ q.running = true) :
    Agree s' ↔ (∀ opts, start = some opts → ∀ config, s.shared opts.consumer = some config →
        config.maxDeliver = opts.maxDeliver) ∧
      ∀ stream durable config, c = .getOrCreateConsumer stream durable config →
        s.shared (stream, durable) = none → ∀ i opts p, s.sites i = some (opts, p) →
          p.running = true → opts.consumer = (stream, durable) →
            opts.maxDeliver = config.maxDeliver := by
  constructor
  · intro hq'
    refine ⟨fun opts hopts config hconfig => ?_, ?_⟩
    · obtain ⟨i, q, hi, hrun⟩ := hstart opts hopts
      refine (hq' i opts q hi hrun config ?_).symm
      rw [hshared]
      exact consumers_effect.mpr (.inl hconfig)
    · rintro stream durable config rfl hnone i opts p hi hrun hkey
      rcases hkept i opts p hi hrun with ⟨q, hq, hrun'⟩ | hown
      · refine hq' i opts q hq hrun' config ?_
        rw [hshared, hkey]
        exact consumers_effect.mpr (.inr ⟨hnone, rfl⟩)
      · exact (hown stream durable config rfl).symm
  · rintro ⟨hexisting, hcreated⟩ i opts q hi hrun config hconfig
    rw [hshared] at hconfig
    rcases hnew i opts q hi hrun with ⟨p, hp, hrun'⟩ | ⟨hopts, hown⟩
    · rcases consumers_effect.mp hconfig with hold | ⟨hnone, hc⟩
      · exact hq i opts p hp hrun' config hold
      · exact hcreated _ _ config hc hnone i opts p hp hrun' rfl
    · rcases consumers_effect.mp hconfig with hold | ⟨-, hc⟩
      · exact (hexisting opts hopts config hold).symm
      · exact (hown _ _ config hc).symm

/-- INTERNAL: what the condition reads of a subscription that is served. -/
theorem starting_serve {i : ℕ} {ch : PullItem × Bool} {opts : SubscribeOptions} {p : SubPoint}
    (hi : s.threads i = some ⟨opts, .waiting p⟩) :
    starting s (.serve i ch) = if startsAt opts p = true then some opts else none := by
  simp only [starting, hi]
  cases p with
  | createConsumer => cases hdlq : opts.dlq <;> simp [startsAt, hdlq]
  | _ => rfl

/-- INTERNAL: a step in which no call takes effect keeps the agreement and the condition. -/
theorem Agree.quiet_iff (hq : Agree s) {a : Action subscriptionWorld}
    (hstart : starting s a = none) (hact : acting s a = none)
    (hsites : ∀ i opts p, s'.sites i = some (opts, p) → p.running = true →
      ∃ q, s.sites i = some (opts, q) ∧ q.running = true)
    (hshared : ∀ key config, s'.shared key = some config → s.shared key = some config) :
    Agree s' ↔ SameBudget s a s' := by
  constructor
  · intro _
    constructor
    · intro opts hopts
      rw [hstart] at hopts
      cases hopts
    · intro stream durable config hc
      rw [hact] at hc
      cases hc
  · intro _
    exact hq.same hsites hshared

/-- INTERNAL: of the subscriptions that run after one got no answer each ran before. -/
theorem running_of_lost {i : ℕ} {opts : SubscribeOptions} {p : SubPoint}
    {next : Option (SubscribeOptions × SubPoint)} (hi : s.sites i = some (opts, p))
    (hnext : Lost subscriptions opts p next)
    (hsites : s'.sites = Function.update s.sites i next) :
    ∀ j e q, s'.sites j = some (e, q) → q.running = true →
      ∃ q', s.sites j = some (e, q') ∧ q'.running = true := by
  rw [hsites]
  refine forall_sites_update (fun j e q hj => hj) (fun j e q _ hj hrun => ⟨q, hj, hrun⟩) ?_
  rintro e q rfl hrun
  obtain ⟨rfl, hp⟩ := running_lost hnext hrun
  exact ⟨p, hi, hp⟩

/-- INTERNAL: a subscription goes on running, unless it is the one whose call takes effect,
and that one asks for its own `max_deliver`. -/
theorem running_or_own {i : ℕ} {opts : SubscribeOptions} {p : SubPoint} {c : SubCall}
    {next : Option (SubscribeOptions × SubPoint)} (hi : s.sites i = some (opts, p))
    (hc : subscriptions.head opts p = some c)
    (hsites : s'.sites = Function.update s.sites i next) :
    ∀ j e q, s.sites j = some (e, q) → q.running = true →
      (∃ q', s'.sites j = some (e, q') ∧ q'.running = true) ∨
        ∀ stream durable config, c = .getOrCreateConsumer stream durable config →
          config.maxDeliver = e.maxDeliver := by
  intro j e q hj hrun
  by_cases hji : j = i
  · subst hji
    obtain ⟨rfl, rfl⟩ := Prod.mk.inj (Option.some.inj (hi.symm.trans hj))
    right
    rintro stream durable config rfl
    exact own_config hc
  · exact .inl ⟨q, by rw [hsites, Function.update_of_ne hji, hj], hrun⟩

/-- **A step keeps the agreement exactly when it meets the condition.** -/
theorem agree_step (hq : Agree s) {a : Action subscriptionWorld}
    (h : Lib.step subscriptions s a = some s') : Agree s' ↔ SameBudget s a s' := by
  cases (step_cases h).move with
  | spawn i opts ha hi hsites hshared hdet =>
    subst ha
    refine hq.quiet_iff rfl rfl ?_ fun key config hconfig => ?_
    · rw [hsites]
      refine forall_sites_update (fun j e q hj => hj) (fun j e q _ hj hrun => ⟨q, hj, hrun⟩) ?_
      intro e q hn hrun
      obtain ⟨rfl, rfl⟩ := Prod.mk.inj (Option.some.inj hn)
      cases hrun
    · rw [hshared] at hconfig
      exact hconfig
  | reach i opts p ha hi hsites hshared hdet =>
    subst ha
    refine hq.quiet_iff rfl rfl (fun j e q hj hrun => ⟨q, hsites ▸ hj, hrun⟩)
      fun key config hconfig => ?_
    rw [hshared] at hconfig
    cases p <;> exact hconfig
  | serve i ch opts p c k ha hi hv hsites hshared hdet =>
    subst ha
    have hsite : s.sites i = some (opts, p) := sites_of_threads s i hi
    have hc : subscriptions.head opts p = some c := Machine.head_of_view hv
    have hact : acting s (.serve i ch) = some c := by
      simp only [acting, hi, hc]
    have hown : ∀ stream durable config, c = .getOrCreateConsumer stream durable config →
        config.maxDeliver = opts.maxDeliver := by
      rintro stream durable config rfl
      exact own_config hc
    have hself : s'.sites i = some (opts, k (Consumers.answer c ch s.shared)) := by
      rw [hsites, Function.update_self]
    rw [hq.effect_iff (starting s (.serve i ch)) hshared (running_or_own hsite hc hsites) ?_ ?_]
    · simp only [SameBudget, hact, Option.some.injEq]
    · intro j e q hj hrun
      by_cases hji : j = i
      · subst hji
        obtain ⟨rfl, rfl⟩ := Prod.mk.inj (Option.some.inj (hself.symm.trans hj))
        rcases running_answer hv _ hrun with hp | hp
        · exact .inl ⟨p, hsite, hp⟩
        · exact .inr ⟨by rw [starting_serve hi, if_pos hp], hown⟩
      · rw [hsites, Function.update_of_ne hji] at hj
        exact .inl ⟨q, hj, hrun⟩
    · intro e he
      rw [starting_serve hi] at he
      split at he
      · rename_i hp
        obtain rfl := Option.some.inj he
        exact ⟨i, _, hself, running_start hv hp ch s.shared⟩
      · cases he
  | drop i opts p next ha hi hnext hsites hshared hdet =>
    have hquiet : starting s a = none ∧ acting s a = none := by
      rcases ha with ⟨hth, ⟨ch, err, rfl⟩ | ⟨ch, rfl, -⟩⟩ | ⟨hth, fate, ch, rfl, -⟩
      · exact ⟨rfl, rfl⟩
      · exact ⟨rfl, rfl⟩
      · refine ⟨rfl, ?_⟩
        cases fate <;> simp [acting, hth]
    exact hq.quiet_iff hquiet.1 hquiet.2 (running_of_lost hi hnext hsites)
      fun key config hconfig => hshared ▸ hconfig
  | act i ch opts p c next ha hi hc hlose hnext hsites hshared hdet =>
    have hsite : s.sites i = some (opts, p) := sites_of_threads s i hi
    have hread : starting s a = none ∧ acting s a = some c := by
      rcases ha with ⟨err, rfl⟩ | ⟨rfl, -⟩
      · exact ⟨rfl, by simp only [acting, hi, hc]⟩
      · exact ⟨rfl, by simp only [acting, hi, hc]⟩
    rw [hq.effect_iff (starting s a) hshared (running_or_own hsite hc hsites) ?_ ?_]
    · simp only [SameBudget, hread.2, Option.some.injEq]
    · intro j e q hj hrun
      exact .inl (running_of_lost hsite hnext hsites j e q hj hrun)
    · intro e he
      rw [hread.1] at he
      cases he
  | defer i opts p c next ha hi hc hlose hnext hsites hshared hdet =>
    have hquiet : starting s a = none ∧ acting s a = none := by
      rcases ha with ⟨ch, err, rfl⟩ | ⟨ch, rfl, -⟩ <;> exact ⟨rfl, rfl⟩
    exact hq.quiet_iff hquiet.1 hquiet.2
      (running_of_lost (sites_of_threads s i hi) hnext hsites)
      fun key config hconfig => hshared ▸ hconfig
  | land n ch i opts c ha hn hsites hshared hdet =>
    subst ha
    have hact : acting s (.land n ch) = some c := by
      simp only [acting, hn, Option.map_some]
    rw [hq.effect_iff (starting s (.land n ch)) hshared ?_ ?_ ?_]
    · simp only [SameBudget, hact, Option.some.injEq]
    · exact fun j e q hj hrun => .inl ⟨q, by rw [hsites, hj], hrun⟩
    · exact fun j e q hj hrun => .inl ⟨q, hsites ▸ hj, hrun⟩
    · intro e he
      cases he
  | drift consumer ha hsites hshared hdet =>
    subst ha
    refine hq.quiet_iff rfl rfl (fun j e q hj hrun => ⟨q, hsites ▸ hj, hrun⟩)
      fun key config hconfig => ?_
    rw [hshared] at hconfig
    change Function.update s.shared consumer none key = some config at hconfig
    by_cases hkey : key = consumer
    · subst hkey
      rw [Function.update_self] at hconfig
      cases hconfig
    · rwa [Function.update_of_ne hkey] at hconfig

end

/-! ## The result -/

/-- **Subscriber and server agree on the retry budget exactly as long as nobody changes
it.**  Take any consumers to begin with, and any history of subscriptions with any
options, in which any call fails, is lost or takes effect late, subscriptions are dropped,
pulls end and consumers are deleted.  In every state the `max_deliver` of the workers of a
running subscription is the one of its consumer, and a transient failure on the last
delivery goes to the dead letter stream, if and only if no subscription starts to run on a
consumer with another `max_deliver` and no consumer is created under a subscription that
runs with another one.
SRC: subscriber.rs:151-350, subscriber.rs:472-502 -/
theorem budget_agrees_iff (consumers : Consumers) (as : List (Action subscriptionWorld)) :
    Always (step subscriptions) BudgetAgrees (fresh subscriptions consumers) as ↔
      Along (step subscriptions) SameBudget (fresh subscriptions consumers) as := by
  rw [show BudgetAgrees = Agree from funext fun s => propext budgetAgrees_iff]
  refine always_iff_along (J := fun _ => True) (A := fun _ _ _ => True) (fun _ _ _ _ _ _ => trivial)
    (fun s a s' h _ _ hq => agree_step hq h) trivial ?_ (Along.of_forall (fun _ _ _ _ => trivial) _)
  intro i opts p hi
  cases hi

/-- A subscription with this budget, and with dead letters enabled. -/
def budgetOptions (maxDeliver : ℤ) : SubscribeOptions := { maxDeliver, dlq := some {} }

/-- What the server decides when it is asked nothing in particular. -/
def quietly : PullItem × Bool := (.message, false)

/-- Subscription `i` is made, and its first call for messages is answered. -/
def subscribing (i : ℕ) (opts : SubscribeOptions) : List (Action subscriptionWorld) :=
  [.spawn i opts, .serve i quietly, .resume i, .serve i quietly, .resume i, .serve i quietly,
    .resume i, .serve i quietly, .resume i]

/-- A subscription with 3 deliveries is shut down, and one with 5 takes its place. -/
def redeployedRun : List (Action subscriptionWorld) :=
  subscribing 0 (budgetOptions 3) ++
    [.serve 0 (.shutdown, false), .resume 0, .serve 0 quietly, .resume 0] ++
    subscribing 1 (budgetOptions 5)

/-- **Subscriber and server disagree.**  At the end of the run the workers wait for a fifth
delivery that the server will not make. -/
theorem budgets_differ :
    ¬ Always (step subscriptions) BudgetAgrees (fresh subscriptions fun _ => none)
      redeployedRun := by
  intro h
  have hlast : ((run (step subscriptions) (fresh subscriptions fun _ => none) redeployedRun).any
      fun s => (s.sites 1).any fun x => x.2.running &&
        decide (x.1.processingOptions.maxDeliver = 5) &&
        decide ((s.shared x.1.consumer).map PullConfig.maxDeliver = some 3)) = true := by
    decide +kernel
  obtain ⟨s, hrun, hs⟩ := (Option.any_eq_true _ _).mp hlast
  obtain ⟨⟨opts, p⟩, hi, hx⟩ := (Option.any_eq_true _ _).mp hs
  simp only [Bool.and_eq_true, decide_eq_true_eq] at hx
  obtain ⟨⟨hp, hworkers⟩, hserver⟩ := hx
  obtain ⟨config, hconfig, hmax⟩ := Option.map_eq_some_iff.mp hserver
  have heq := (h.last hrun).budget 1 opts p hi hp config hconfig
  rw [hworkers, hmax] at heq
  cases heq

end EventBus.Analysis
