import EventBus.Analysis.Ownership
import EventBus.Analysis.Settlement

/-!
# Effectively once

Over a store that keeps its contract and whose entries do not expire, the handler runs
for one delivery of an id at a time, and succeeds for one delivery of an id at most.  The
first is the exclusiveness of claims.  The second says in addition what a success leaves
behind: the key is `Sealed`, that is, it is not absent, and no call that could release it
exists or can come to exist.
-/

set_option autoImplicit false

namespace EventBus.Analysis

open EventBus.Model EventBus.Lib EventBus.Interface

variable {U E : Type} [UuidCrate U] {Γ : Deployment U E}

/-! ## What is claimed -/

/-- The handler of worker `i` is running for the delivery `d`. -/
def Handling (s : State (world Γ) (Option (Call U E))) (i : ℕ) (d : Delivery Γ) : Prop :=
  ∃ ctx event, s.threads i = some ⟨d, .waiting (some (.handle ctx event))⟩

/-- No two handler invocations for one id overlap. -/
def NoOverlap (s : State (world Γ) (Option (Call U E))) : Prop :=
  ∀ i j d e, Handling s i d → Handling s j e → d.msgId = e.msgId → i = j

/-- The handler has returned `Ok`. -/
def Succeeded (e : Entry Γ) : Prop := e.what = .handled (.ok ())

instance (e : Entry Γ) : Decidable (Succeeded e) :=
  inferInstanceAs (Decidable (_ = _))

/-- At most one handler invocation for an id has returned `Ok`. -/
def OkOnce (log : List (Entry Γ)) : Prop :=
  log.Pairwise fun newer older =>
    Succeeded newer → Succeeded older → ¬ SameId newer.delivery older.delivery

/-! ## Sealed keys -/

/-- A key whose message is dealt with, handled or dead lettered: it stays pending or done, and
who still owns its claim is about to mark it done. -/
structure Sealed (C : Γ.store.Contract) (s : State (world Γ) (Point E)) (key : MessageId U) :
    Prop where
  present : statusOf C s key ≠ .absent
  owner : ∀ i d p, s.sites i = some (d, p) → Owner p → d.msgId = key → Marking p
  underWay : ∀ i d, (i, d, .release key) ∉ s.detached

/-- The invariant. -/
structure OnceInv (C : Γ.store.Contract) (s : State (world Γ) (Point E)) : Prop where
  ownership : Ownership C s
  remote : ∀ i d c, (i, d, c) ∈ s.detached → Call.isRemote c = true
  sealed : ∀ e ∈ s.shared.log, Succeeded e → Sealed C s e.delivery.msgId
  once : OkOnce s.shared.log

omit [UuidCrate U] in
/-- INTERNAL: a key that is not absent stays so while no call releases it. -/
theorem present_storeAfter (C : Γ.store.Contract) {c : Call U E} (ch : Choice Γ)
    {sh : Shared Γ} {key : MessageId U} (hrel : c ≠ .release key)
    (hpres : C.status sh.now sh.store key ≠ .absent) :
    C.status sh.now (storeAfter c ch sh) key ≠ .absent := by
  cases c with
  | tryClaim k =>
    by_cases hclaimed : (Γ.store.tryClaim sh.now ch.store k sh.store).1 = .ok .claimed
    · by_cases hk : key = k
      · subst hk
        exact absurd (C.of_claimed _ _ _ _ hclaimed).1 hpres
      · exact fun h => hpres ((C.tryClaim_frame _ _ _ _ _ hk).symm.trans h)
    · exact fun h => hpres ((C.of_not_claimed _ _ _ _ hclaimed key).symm.trans h)
  | markDone k =>
    by_cases hk : key = k
    · subst hk
      intro h
      rcases C.markDone_status sh.now ch.store key sh.store with hd | hsame
      · exact absurd (hd.symm.trans h) (by simp)
      · exact hpres (hsame.symm.trans h)
    · exact fun h => hpres ((C.markDone_frame _ _ _ _ _ hk).symm.trans h)
  | release k =>
    have hk : key ≠ k := fun h => hrel (congrArg Call.release h.symm)
    exact fun h => hpres ((C.release_frame _ _ _ _ _ hk).symm.trans h)
  | _ => exact hpres

section

variable {C : Γ.store.Contract} {s s' : State (world Γ) (Point E)} {key : MessageId U}

/-- INTERNAL: the owner of a sealed key does not release it. -/
theorem Sealed.not_release (hs : Sealed C s key) {i : ℕ} {d : Delivery Γ} {p : Point E}
    {c : Call U E} (hi : s.sites i = some (d, p)) (hc : (pointMachine Γ).head d p = some c) :
    c ≠ .release key := by
  rintro rfl
  obtain ⟨hp, hkey⟩ := owner_of_ends hc rfl
  cases hs.owner i d p hi hp hkey.symm <;> cases hc

/-- INTERNAL: a sealed key stays sealed while one worker goes on, if that worker does not
come to own the key. -/
theorem Sealed.goOn (hs : Sealed C s key) {i : ℕ} {next : Option (Delivery Γ × Point E)}
    (hpres : statusOf C s' key ≠ .absent) (hsites : s'.sites = Function.update s.sites i next)
    (hnext : ∀ d p, next = some (d, p) → Owner p → d.msgId ≠ key)
    (hdet : ∀ i d, (i, d, .release key) ∉ s'.detached) : Sealed C s' key := by
  refine ⟨hpres, ?_, hdet⟩
  rw [hsites]
  refine forall_sites_update hs.owner (fun j e q _ h => h) ?_
  exact fun d p hn ho he => absurd he (hnext d p hn ho)

/-- INTERNAL: who loses a call does not own a sealed key afterwards. -/
theorem Sealed.lost (hs : Sealed C s key) {i : ℕ} {d : Delivery Γ} {p : Point E}
    {next : Option (Delivery Γ × Point E)} (hi : s.sites i = some (d, p))
    (hnext : Lost (pointMachine Γ) d p next) :
    ∀ d' p', next = some (d', p') → Owner p' → d'.msgId ≠ key := by
  rintro d' p' rfl ho he
  obtain ⟨rfl, hp, hends⟩ := owner_lost hnext ho
  cases hs.owner i _ p hi hp he <;> cases hends _ rfl

/-- INTERNAL: a sealed key stays sealed as long as its entry does not expire. -/
theorem Sealed.step {a : Action (world Γ)} (h : Lib.step (pointMachine Γ) s a = some s')
    (ha : KeyKept C key s a s') (hs : Sealed C s key) : Sealed C s' key := by
  cases (step_cases h).move with
  | spawn i d hspawn hi hsites hshared hdet =>
    refine hs.goOn ?_ hsites ?_ (hdet ▸ hs.underWay)
    · rw [statusOf, hshared, spawn_eq]
      exact hs.present
    · intro e q hq ho
      obtain ⟨rfl, rfl⟩ := Prod.mk.inj (Option.some.inj hq)
      rcases start_cases d with hstart | hstart <;>
        (rw [hstart] at ho; cases ho)
  | reach i d p hresume hi hsites hshared hdet =>
    refine ⟨?_, hsites ▸ hs.owner, hdet ▸ hs.underWay⟩
    rw [statusOf, hshared, reachPoint_eq]
    exact hs.present
  | serve i ch d p c k hserve hi hv hsites hshared hdet =>
    have hsite : s.sites i = some (d, p) := sites_of_threads s i hi
    have hc : (pointMachine Γ).head d p = some c := Machine.head_of_view hv
    refine hs.goOn ?_ hsites ?_ (hdet ▸ hs.underWay)
    · rw [statusOf, hshared, effect_now, effect_store]
      exact present_storeAfter C ch (hs.not_release hsite hc) hs.present
    · intro d' p' hn ho he
      obtain ⟨rfl, rfl⟩ := Prod.mk.inj (Option.some.inj hn)
      rcases owner_answer hv _ ho with ⟨rfl, hclaimed⟩ | ⟨hp, hends⟩
      · refine hs.present ?_
        rw [← he]
        exact (C.of_claimed _ _ _ _ hclaimed).1
      · cases hs.owner i d p hsite hp he <;> (cases hv; cases hends)
  | drop i d p next hdrop hi hnext hsites hshared hdet =>
    refine hs.goOn ?_ hsites (hs.lost hi hnext) (hdet ▸ hs.underWay)
    rw [statusOf, hshared]
    exact hs.present
  | act i ch d p c next hact hi hc hlose hnext hsites hshared hdet =>
    have hsite : s.sites i = some (d, p) := sites_of_threads s i hi
    refine hs.goOn ?_ hsites (hs.lost hsite hnext) (hdet ▸ hs.underWay)
    rw [statusOf, hshared, effect_now, effect_store]
    exact present_storeAfter C ch (hs.not_release hsite hc) hs.present
  | defer i d p c next hdefer hi hc hlose hnext hsites hshared hdet =>
    have hsite : s.sites i = some (d, p) := sites_of_threads s i hi
    refine hs.goOn ?_ hsites (hs.lost hsite hnext) ?_
    · rw [statusOf, hshared]
      exact hs.present
    · intro j e hmem
      rw [hdet] at hmem
      rcases List.mem_append.mp hmem with hold | hnew
      · exact hs.underWay j e hold
      · obtain ⟨-, -, hrel⟩ := by simpa using hnew
        exact hs.not_release hsite hc hrel.symm
  | land n ch i d c hland hn hsites hshared hdet =>
    have hmem : (i, d, c) ∈ s.detached := List.mem_of_getElem? hn
    refine ⟨?_, hsites ▸ hs.owner, ?_⟩
    · rw [statusOf, hshared, effect_now, effect_store]
      refine present_storeAfter C ch ?_ hs.present
      rintro rfl
      exact hs.underWay i d hmem
    · rw [hdet]
      exact fun j e hmem' => hs.underWay j e (List.mem_of_mem_eraseIdx hmem')
  | drift e hdrift hsites hshared hdet =>
    subst hdrift
    refine ⟨?_, hsites ▸ hs.owner, hdet ▸ hs.underWay⟩
    rw [show statusOf C s' key = statusOf C s key from ha]
    exact hs.present

/-- INTERNAL: a worker that is about to mark its key done seals it. -/
theorem KeyOwnership.sealed (hs : KeyOwnership C key s) {i : ℕ} {d : Delivery Γ} {p : Point E}
    (hi : s.sites i = some (d, p)) (hp : Marking p) (hkey : d.msgId = key) : Sealed C s key := by
  refine ⟨?_, fun j e q hj hq he => ?_, fun j e hmem => ?_⟩
  · rw [hs.pending hi hp.owner hkey]
    simp
  · -- nobody else owns the claim of the worker
    obtain rfl := hs.unique hi hj hp.owner hq hkey he
    obtain ⟨-, rfl⟩ := Prod.mk.inj (Option.some.inj (hi.symm.trans hj))
    exact hp
  · exact hs.endsAlone hmem rfl hi hp.owner hkey

/-! ## The invariant of a run -/

omit [UuidCrate U] in
/-- INTERNAL: only a handler call notes a success. -/
theorem succeeded_noted {seen : Bool} {c : Call U E} {ch : Choice Γ} {sh : Shared Γ}
    (h : noted seen c ch sh = some (.handled (.ok ()))) : ∃ ctx event, c = .handle ctx event := by
  generalize hw : Occurrence.handled (.ok ()) = what at h
  cases notes_of_noted h with
  | handled ctx event => exact ⟨ctx, event, rfl⟩
  | _ => cases hw

omit [UuidCrate U] in
/-- INTERNAL: a line that is no success. -/
theorem addLine_not_succeeded {sh : Shared Γ} {i : ℕ} {d : Delivery Γ} {what : Option Occurrence}
    (hw : what ≠ some (.handled (.ok ()))) {e : Entry Γ} (he : e ∈ addLine sh i d what)
    (hok : Succeeded e) : e ∈ sh.log := by
  rcases of_mem_addLine i d sh he with hold | ⟨w, rfl, rfl⟩
  · exact hold
  · exact absurd (congrArg some hok) hw

/-- INTERNAL: no success is repeated by a line that is none. -/
theorem OkOnce.addLine {sh : Shared Γ} (h : OkOnce sh.log) (i : ℕ) (d : Delivery Γ)
    {what : Option Occurrence} (hw : what ≠ some (.handled (.ok ()))) :
    OkOnce (addLine sh i d what) := by
  cases what with
  | none => exact h
  | some w =>
    refine List.pairwise_cons.mpr ⟨fun e _ hok => ?_, h⟩
    exact absurd (congrArg some hok) hw

/-- INTERNAL: a handler that succeeds is the first to handle its id, and seals its key. -/
theorem OnceInv.succeed (hs : OnceInv C s) (hown : Ownership C s') {i : ℕ} {d : Delivery Γ}
    {p : Point E} {ctx : HandlerCtx U} {event : E} {k : Except HandlerError Unit → Point E}
    {ch : Choice Γ} (hi : s.sites i = some (d, p))
    (hv : Point.view d p = some ⟨.handle ctx event, k⟩) (hok : ch.handler = .ok ())
    (hsites : s'.sites = Function.update s.sites i (some (d, k ch.handler))) :
    (∀ e ∈ s.shared.log, Succeeded e → ¬ SameId d e.delivery) ∧ Sealed C s' d.msgId := by
  have hp : Owner p ∧ ¬ Marking p := by
    cases p <;> cases hv
    exact ⟨.handle _, by rintro ⟨⟩⟩
  have hnext : k ch.handler = .markAck := by
    rw [hok]
    cases p <;> cases hv
    rfl
  refine ⟨fun e he hsucceeded hid => ?_, ?_⟩
  · exact hp.2 ((hs.sealed e he hsucceeded).owner i d p hi hp.1 hid.symm)
  · exact (KeyOwnership.of_ownership hown _).sealed (i := i) (by rw [hsites, hnext]; simp)
      .markAck rfl

/-- **Every step in which no entry expires keeps handled keys sealed, and no id is handled
twice.** -/
theorem OnceInv.step {a : Action (world Γ)} (h : Lib.step (pointMachine Γ) s a = some s')
    (ha : NoExpiry C s a s') (hs : OnceInv C s) : OnceInv C s' := by
  have hown : Ownership C s' := hs.ownership.step h ha
  have hsealed : ∀ e ∈ s.shared.log, Succeeded e → Sealed C s' e.delivery.msgId :=
    fun e he hok => (hs.sealed e he hok).step h (ha.keyKept _)
  -- a step whose line is no success
  have hquiet : ∀ (i : ℕ) (d : Delivery Γ) (what : Option Occurrence),
      s'.shared.log = addLine s.shared i d what → what ≠ some (.handled (.ok ())) →
      (∀ i d c, (i, d, c) ∈ s'.detached → Call.isRemote c = true) → OnceInv C s' := by
    intro i d what hlog hw hremote
    refine ⟨hown, hremote, fun e he hok => ?_, ?_⟩
    · rw [hlog] at he
      exact hsealed e (addLine_not_succeeded hw he hok) hok
    · rw [hlog]
      exact hs.once.addLine i d hw
  cases (step_cases h).move with
  | spawn i d hspawn hi hsites hshared hdet =>
    rw [spawn_eq] at hshared
    exact hquiet i d (some .delivered) (by rw [hshared]; rfl) (by simp)
      (hdet ▸ hs.remote)
  | reach i d p hresume hi hsites hshared hdet =>
    rw [reachPoint_eq] at hshared
    refine hquiet i d _ (by rw [hshared]) ?_ (hdet ▸ hs.remote)
    cases p <;> simp [reachLine]
  | serve i ch d p c k hserve hi hv hsites hshared hdet =>
    have hsite : s.sites i = some (d, p) := sites_of_threads s i hi
    have hlog : s'.shared.log = addLine s.shared i d (noted true c ch s.shared) := by
      rw [hshared, effect_log]
    by_cases hw : noted true c ch s.shared = some (.handled (.ok ()))
    · obtain ⟨ctx, event, rfl⟩ := succeeded_noted hw
      have hok : ch.handler = .ok () := by
        simp only [noted, Option.some.injEq, Occurrence.handled.injEq] at hw
        exact hw
      obtain ⟨hfirst, hnew⟩ := hs.succeed hown hsite hv hok hsites
      rw [hw] at hlog
      refine ⟨hown, hdet ▸ hs.remote, fun e he hsucceeded => ?_, ?_⟩
      · rw [hlog] at he
        rcases List.mem_cons.mp he with rfl | hold
        · exact hnew
        · exact hsealed e hold hsucceeded
      · rw [hlog]
        exact List.pairwise_cons.mpr
          ⟨fun e he _ hsucceeded hid => hfirst e he hsucceeded hid, hs.once⟩
    · exact hquiet i d _ hlog hw (hdet ▸ hs.remote)
  | drop i d p next hdrop hi hnext hsites hshared hdet =>
    exact hquiet i d none (by rw [hshared]; rfl) (by simp)
      (hdet ▸ hs.remote)
  | act i ch d p c next hact hi hc hlose hnext hsites hshared hdet =>
    refine hquiet i d _ (by rw [hshared, effect_log]) (fun hw => ?_) (hdet ▸ hs.remote)
    obtain ⟨ctx, event, rfl⟩ := succeeded_noted hw
    cases isRemote_of_losable hlose
  | defer i d p c next hdefer hi hc hlose hnext hsites hshared hdet =>
    refine hquiet i d none (by rw [hshared]; rfl) (by simp) ?_
    intro j e c' hmem
    rw [hdet] at hmem
    rcases List.mem_append.mp hmem with hold | hnew
    · exact hs.remote j e c' hold
    · obtain ⟨-, -, rfl⟩ := by simpa using hnew
      exact isRemote_of_losable hlose
  | land n ch i d c hland hn hsites hshared hdet =>
    refine hquiet i d _ (by rw [hshared, effect_log]) (fun hw => ?_) ?_
    · obtain ⟨ctx, event, rfl⟩ := succeeded_noted hw
      cases hs.remote i d _ (List.mem_of_getElem? hn)
    · rw [hdet]
      exact fun j e c' hmem => hs.remote j e c' (List.mem_of_mem_eraseIdx hmem)
  | drift e hdrift hsites hshared hdet =>
    refine ⟨hown, hdet ▸ hs.remote, fun e he hok => ?_, ?_⟩
    · rw [hshared] at he
      exact hsealed e he hok
    · rw [hshared]
      exact hs.once

/-- INTERNAL: the invariant holds at first. -/
theorem OnceInv.fresh {now : ℕ} {store : Γ.store.State} {dlq : List DlqRecord} :
    OnceInv C (fresh (pointMachine Γ) (.initial now store dlq)) where
  ownership := .fresh _
  remote i d c hmem := by cases hmem
  sealed e he := by cases he
  once := .nil

/-- INTERNAL: exclusive claims make handlers exclusive. -/
theorem Ownership.noOverlap (hs : Ownership C s) : NoOverlap (look (pointMachine Γ) s) := by
  have howner : ∀ i d, Handling (look (pointMachine Γ) s) i d →
      ∃ p, s.sites i = some (d, p) ∧ Owner p := by
    rintro i d ⟨ctx, event, hi⟩
    rw [look_threads, Option.map_eq_some_iff] at hi
    obtain ⟨⟨d', ctl⟩, hth, hmap⟩ := hi
    rcases ctl with p | p | _
    · simp only [Thread.map, Ctl.map, Thread.mk.injEq, Ctl.waiting.injEq] at hmap
      obtain ⟨rfl, hhead⟩ := hmap
      refine ⟨p, sites_of_threads s i hth, ?_⟩
      cases p <;> cases hhead
      exact .handle _
    · simp [Thread.map, Ctl.map] at hmap
    · simp [Thread.map, Ctl.map] at hmap
  intro i j d e hi hj hkey
  obtain ⟨p, hp, hop⟩ := howner i d hi
  obtain ⟨q, hq, hoq⟩ := howner j e hj
  exact hs.unique i j d e p q hp hq hop hoq hkey

end

/-- INTERNAL: the result over any store that keeps the contract. -/
theorem once_of_contract (Γ : Deployment U E) (C : Γ.store.Contract) (now : ℕ)
    (store : Γ.store.State) (dlq : List DlqRecord) (as : List (Action (world Γ)))
    (hlive : Along (step (codeMachine Γ)) (NoExpiry C)
      (fresh (codeMachine Γ) (.initial now store dlq)) as) :
    Always (step (codeMachine Γ))
      (fun s => NoOverlap (look (codeMachine Γ) s) ∧ OkOnce s.shared.log)
      (fresh (codeMachine Γ) (.initial now store dlq)) as := by
  have hpoints : Along (step (pointMachine Γ)) (NoExpiry C)
      (fresh (pointMachine Γ) (.initial now store dlq)) as :=
    (along_look_hom (pointsOfCode Γ) (C := NoExpiry C) _ as).mp hlive
  have hinv := always_of_invariant (fun _ _ _ h ha hs => OnceInv.step h ha hs) .fresh hpoints
  refine (always_look_hom (pointsOfCode Γ)
    (Q := fun s => NoOverlap s ∧ OkOnce s.shared.log) _ as).mpr ?_
  exact hinv.mono fun s hs => ⟨hs.ownership.noOverlap, hs.once⟩

/-! ## Over Redis -/

section Redis

variable {Sub : Type} {redis : RedisIdempotencyStore} {options : Sub → ProcessingOptions}
  {fromSlice : Sub → Bytes → Except String E} {window : String → ℕ}

/-- Time passes without a live entry reaching its expiry time. -/
def NoEntryExpires {P : Type}
    (s : State (world (U := U) (.overRedis redis options fromSlice window)) P)
    (a : Action (world (U := U) (.overRedis redis options fromSlice window)))
    (s' : State (world (U := U) (.overRedis redis options fromSlice window)) P) : Prop :=
  match a with
  | .drift _ => ∀ (key : String) (entry : Redis.Entry),
      (show Redis.Db from s.shared.store) key = some entry → s.shared.now < entry.expiresAt →
      s'.shared.now < entry.expiresAt
  | _ => True

/-- INTERNAL: nothing expires when no time passes. -/
theorem noEntryExpires_of_not_drift {P : Type}
    {s s' : State (world (U := U) (.overRedis redis options fromSlice window)) P}
    {a : Action (world (U := U) (.overRedis redis options fromSlice window))}
    (ha : a.isDrift = false) : NoEntryExpires s a s' := by
  cases a with
  | drift e => cases ha
  | _ => trivial

/-- INTERNAL: while no entry expires, the status of every key stays. -/
theorem status_of_noEntryExpires {now later : ℕ} {db : Redis.Db} (hle : now ≤ later)
    (hlive : ∀ key entry, db key = some entry → now < entry.expiresAt → later < entry.expiresAt)
    (key : MessageId U) : redis.status later db key = redis.status now db key := by
  unfold RedisIdempotencyStore.status Redis.get
  cases hdb : db (redis.fullKey key) with
  | none => rfl
  | some entry =>
    have hiff : later < entry.expiresAt ↔ now < entry.expiresAt :=
      ⟨fun h => by omega, hlive _ entry hdb⟩
    simp only [hiff]

/-- **Effectively once over Redis.**  Take any subscriptions over one Redis store of any
content, and any run in which no entry expires: any deliveries, also of several messages
with one id; any interleaving; any call failing, lost or taking effect late; any worker
aborted anywhere.  No two handler invocations for one id overlap, and at most one for
each id returns `Ok`.
SRC: redis.rs:11-121, subscriber.rs:352-596 -/
theorem effectively_once (redis : RedisIdempotencyStore) (options : Sub → ProcessingOptions)
    (fromSlice : Sub → Bytes → Except String E) (window : String → ℕ) (now : ℕ)
    (db : Redis.Db) (dlq : List DlqRecord)
    (as : List (Action (world (U := U) (.overRedis redis options fromSlice window))))
    (hlive : Along (step (codeMachine (.overRedis redis options fromSlice window)))
      NoEntryExpires (fresh (codeMachine _) (.initial now db dlq)) as) :
    Always (step (codeMachine (.overRedis redis options fromSlice window)))
      (fun s => NoOverlap (look (codeMachine _) s) ∧ OkOnce s.shared.log)
      (fresh (codeMachine _) (.initial now db dlq)) as := by
  refine once_of_contract _ redis.contract now db dlq as (hlive.mono ?_)
  intro s a s' hstep hexp
  cases a with
  | drift e =>
    obtain rfl := Option.some.inj hstep
    exact status_of_noEntryExpires (Nat.le_add_right s.shared.now e.elapsed) hexp
  | _ => trivial

/-- Two messages with one id, a release that is lost on the way and takes effect late, and
a second delivery that succeeds. -/
def lateReleaseRun : List (Action (world events)) :=
  undisturbed 0 (eventsDelivery "billing" "6ba7b810-9dad-11d1-80b4-00c04fd430c8" 1 1)
      (.error (.transient "timeout")) 2 ++
    [.fail 0 .late (eventsChoice (.ok ())) ⟨.idempotency "redis: timeout", .sendTimeout⟩] ++
    undisturbed 1 (eventsDelivery "billing" "6ba7b810-9dad-11d1-80b4-00c04fd430c8" 2 1)
      (.ok ()) 2 ++
    [.land 0 (eventsChoice (.ok ()))] ++
    undisturbed 2 (eventsDelivery "billing" "6ba7b810-9dad-11d1-80b4-00c04fd430c8" 1 2)
      (.ok ()) 4

/-- INTERNAL: the result on a run with a late release. -/
theorem effectively_once_events :
    Always (step (codeMachine events))
      (fun s => NoOverlap (look (codeMachine _) s) ∧ OkOnce s.shared.log)
      (fresh (codeMachine events) (.initial 0 (fun _ => none) [])) lateReleaseRun := by
  have hquiet : ∀ a ∈ lateReleaseRun, Action.isDrift a = false := by decide +kernel
  refine effectively_once _ _ _ _ 0 _ [] _ (Along.of_forall ?_ _)
  exact fun a ha s s' => noEntryExpires_of_not_drift (hquiet a ha)

end Redis

end EventBus.Analysis
