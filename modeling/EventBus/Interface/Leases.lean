import EventBus.Model.AgedBucket
import EventBus.Model.RedisCommands

/-!
# Idempotency stores as tables of leases

What an idempotency store is for, without a backend: for every message id it holds at most
one lease, pending or done, that is over by itself some time after it was written.  `Leasing`
says so of a store.  Both backends are such stores, `redisLeasing` and `kvLeasing`, each with
its own way to hold a lease.

Stores are compared by their `outcomes` on a script of calls that are made one after
another while the clock goes on; a `Simulation` makes them equal.
-/

set_option autoImplicit false

namespace EventBus.Interface

open EventBus.Lib (Prog)
open EventBus.Model
open Function (update)

variable {U : Type}

/-- A call on a store, or time that passes. -/
inductive StoreAction (U : Type) where
  | tryClaim (key : MessageId U)
  | markDone (key : MessageId U)
  | release (key : MessageId U)
  | advance (ms : ℕ)

/-- What a call is answered with. -/
inductive StoreOutcome where
  | tryClaim (answer : Except BusError ClaimOutcome)
  | markDone (answer : Except BusError Unit)
  | release (answer : Except BusError Unit)

/-- The outcomes of the calls of a script, made one after another from the time `now` on. -/
def outcomes (S : Store U) (ch : S.Choice) : ℕ → S.State → List (StoreAction U) → List StoreOutcome
  | _, _, [] => []
  | now, s, .tryClaim key :: script =>
    .tryClaim (S.tryClaim now ch key s).1 ::
      outcomes S ch now (S.tryClaim now ch key s).2 script
  | now, s, .markDone key :: script =>
    .markDone (S.markDone now ch key s).1 ::
      outcomes S ch now (S.markDone now ch key s).2 script
  | now, s, .release key :: script =>
    .release (S.release now ch key s).1 ::
      outcomes S ch now (S.release now ch key s).2 script
  | now, s, .advance ms :: script => outcomes S ch (now + ms) s script

/-- A relation between the states of two stores under which they answer every call alike,
and which calls and time keep. -/
structure Simulation (S T : Store U) (ch : S.Choice) (ch' : T.Choice) where
  rel : ℕ → S.State → T.State → Prop
  tryClaim : ∀ now key s t, rel now s t →
    (S.tryClaim now ch key s).1 = (T.tryClaim now ch' key t).1 ∧
      rel now (S.tryClaim now ch key s).2 (T.tryClaim now ch' key t).2
  markDone : ∀ now key s t, rel now s t →
    (S.markDone now ch key s).1 = (T.markDone now ch' key t).1 ∧
      rel now (S.markDone now ch key s).2 (T.markDone now ch' key t).2
  release : ∀ now key s t, rel now s t →
    (S.release now ch key s).1 = (T.release now ch' key t).1 ∧
      rel now (S.release now ch key s).2 (T.release now ch' key t).2
  advance : ∀ now ms s t, rel now s t → rel (now + ms) s t

/-- INTERNAL: **related stores are interchangeable**. -/
theorem Simulation.outcomes_eq {S T : Store U} {ch : S.Choice} {ch' : T.Choice}
    (R : Simulation S T ch ch') (script : List (StoreAction U)) {now : ℕ} {s : S.State}
    {t : T.State} (h : R.rel now s t) :
    outcomes S ch now s script = outcomes T ch' now t script := by
  induction script generalizing now s t with
  | nil => rfl
  | cons a script ih =>
    cases a with
    | tryClaim key =>
      obtain ⟨hanswer, hrel⟩ := R.tryClaim now key s t h
      simp only [outcomes]
      rw [hanswer, ih hrel]
    | markDone key =>
      obtain ⟨hanswer, hrel⟩ := R.markDone now key s t h
      simp only [outcomes]
      rw [hanswer, ih hrel]
    | release key =>
      obtain ⟨hanswer, hrel⟩ := R.release now key s t h
      simp only [outcomes]
      rw [hanswer, ih hrel]
    | advance ms =>
      simp only [outcomes]
      exact ih (R.advance now ms s t h)

/-! ## Leases -/

/-- A claim that was granted, or a key that was marked done, until it is over. -/
structure Lease where
  done : Bool
  expiresAt : ℕ
  deriving DecidableEq

/-- A lease, unless it is over. -/
def Lease.live (now : ℕ) (lease : Option Lease) : Option Lease :=
  lease.filter fun l => decide (now < l.expiresAt)

/-- How a store answers a claim on a key that is leased. -/
def Lease.outcome (l : Lease) : ClaimOutcome :=
  if l.done then .alreadyDone else .alreadyPending

/-- A store that holds a lease for every key: a claim is granted exactly on a key that is
not leased, every write leases the key for `ttl`, and a lease is over by itself. -/
structure Leasing (S : Store U) (ch : S.Choice) (ttl : ℕ) where
  held : ℕ → S.State → MessageId U → Option Lease
  tryClaim_free : ∀ now key s, held now s key = none →
    (S.tryClaim now ch key s).1 = .ok .claimed ∧
      held now (S.tryClaim now ch key s).2 key = some ⟨false, now + ttl⟩
  tryClaim_leased : ∀ now key s l, held now s key = some l →
    (S.tryClaim now ch key s).1 = .ok l.outcome ∧
      held now (S.tryClaim now ch key s).2 key = some l
  tryClaim_frame : ∀ now key s k, k ≠ key →
    held now (S.tryClaim now ch key s).2 k = held now s k
  markDone_leased : ∀ now key s, (S.markDone now ch key s).1 = .ok () ∧
    held now (S.markDone now ch key s).2 key = some ⟨true, now + ttl⟩
  markDone_frame : ∀ now key s k, k ≠ key →
    held now (S.markDone now ch key s).2 k = held now s k
  release_free : ∀ now key s, (S.release now ch key s).1 = .ok () ∧
    held now (S.release now ch key s).2 key = none
  release_frame : ∀ now key s k, k ≠ key →
    held now (S.release now ch key s).2 k = held now s k
  held_later : ∀ now ms key s, held (now + ms) s key = Lease.live (now + ms) (held now s key)

namespace Leasing

variable {S T : Store U} {ch : S.Choice} {ch' : T.Choice} {ttl : ℕ}

/-- INTERNAL: tables that agree still do when both change under one key, to the same
lease. -/
theorem agree_of_frame {f f' g g' : MessageId U → Option Lease} {key : MessageId U}
    (h : ∀ k, f k = f' k) (hg : ∀ k, k ≠ key → g k = f k) (hg' : ∀ k, k ≠ key → g' k = f' k)
    (hkey : g key = g' key) : ∀ k, g k = g' k := by
  intro k
  by_cases hk : k = key
  · rw [hk, hkey]
  · rw [hg k hk, hg' k hk, h k]

/-- Stores that lease keys for the same time simulate each other while they hold the same
leases. -/
def simulation (L : Leasing S ch ttl) (L' : Leasing T ch' ttl) : Simulation S T ch ch' where
  rel now s t := ∀ key, L.held now s key = L'.held now t key
  tryClaim now key s t h := by
    have hframe := L.tryClaim_frame now key s
    have hframe' := L'.tryClaim_frame now key t
    cases hl : L.held now s key with
    | none =>
      obtain ⟨hanswer, hheld⟩ := L.tryClaim_free now key s hl
      obtain ⟨hanswer', hheld'⟩ := L'.tryClaim_free now key t ((h key).symm.trans hl)
      exact ⟨hanswer.trans hanswer'.symm,
        agree_of_frame h hframe hframe' (hheld.trans hheld'.symm)⟩
    | some l =>
      obtain ⟨hanswer, hheld⟩ := L.tryClaim_leased now key s l hl
      obtain ⟨hanswer', hheld'⟩ := L'.tryClaim_leased now key t l ((h key).symm.trans hl)
      exact ⟨hanswer.trans hanswer'.symm,
        agree_of_frame h hframe hframe' (hheld.trans hheld'.symm)⟩
  markDone now key s t h := by
    obtain ⟨hanswer, hheld⟩ := L.markDone_leased now key s
    obtain ⟨hanswer', hheld'⟩ := L'.markDone_leased now key t
    refine ⟨hanswer.trans hanswer'.symm, ?_⟩
    apply agree_of_frame h (L.markDone_frame now key s) (L'.markDone_frame now key t)
    exact hheld.trans hheld'.symm
  release now key s t h := by
    obtain ⟨hanswer, hheld⟩ := L.release_free now key s
    obtain ⟨hanswer', hheld'⟩ := L'.release_free now key t
    refine ⟨hanswer.trans hanswer'.symm, ?_⟩
    apply agree_of_frame h (L.release_frame now key s) (L'.release_frame now key t)
    exact hheld.trans hheld'.symm
  advance now ms s t h key := by
    rw [L.held_later, L'.held_later, h key]

end Leasing

/-- INTERNAL: a lease that lives later lives now. -/
theorem Lease.live_live (now ms : ℕ) (lease : Option Lease) :
    Lease.live (now + ms) (Lease.live now lease) = Lease.live (now + ms) lease := by
  cases lease with
  | none => rfl
  | some l =>
    by_cases hnow : now < l.expiresAt
    · simp [Lease.live, Option.filter_some, hnow]
    · have hlater : ¬ now + ms < l.expiresAt := by omega
      simp [Lease.live, Option.filter_some, hnow, hlater]

/-! ## The leases of the backends -/

variable [UuidCrate U]

/-- The lease a Redis entry stands for. -/
def redisLease (e : Redis.Entry) : Lease :=
  ⟨decide (e.value = "done"), e.expiresAt⟩

/-- The live lease of a key of a Redis store. -/
def redisHeld (redis : RedisIdempotencyStore) (now : ℕ) (db : Redis.Db) (key : MessageId U) :
    Option Lease :=
  Lease.live now ((db (redis.fullKey key)).map redisLease)

section Redis

variable (redis : RedisIdempotencyStore) (now : ℕ) (db : Redis.Db) (key : MessageId U)

/-- INTERNAL: without a lease nothing is read. -/
theorem get_of_redisHeld_none (h : redisHeld redis now db key = none) :
    Redis.get now db (redis.fullKey key) = none := by
  unfold redisHeld at h
  unfold Redis.get
  cases hdb : db (redis.fullKey key) with
  | none => rfl
  | some e =>
    have hover : ¬ now < e.expiresAt := by
      simpa [hdb, Lease.live, Option.filter_some, redisLease] using h
    simp [hover]

/-- INTERNAL: a lease is read with its value. -/
theorem get_of_redisHeld_some {l : Lease} (h : redisHeld redis now db key = some l) :
    ∃ value, Redis.get now db (redis.fullKey key) = some value ∧
      l.done = decide (value = "done") := by
  unfold redisHeld at h
  unfold Redis.get
  cases hdb : db (redis.fullKey key) with
  | none => simp [hdb, Lease.live] at h
  | some e =>
    rw [hdb] at h
    obtain ⟨hl, hlive⟩ := Option.filter_eq_some_iff.mp h
    obtain rfl : redisLease e = l := Option.some.inj hl
    have hlive : now < e.expiresAt := of_decide_eq_true hlive
    exact ⟨e.value, if_pos hlive, rfl⟩

/-- INTERNAL: a write with an expiry makes a lease. -/
theorem redisHeld_update_self (value : String) (hpos : 0 < redis.ttlMs) :
    redisHeld redis now
      (update db (redis.fullKey key) (some ⟨value, now + redis.ttlMs⟩)) key =
      some ⟨decide (value = "done"), now + redis.ttlMs⟩ := by
  simp [redisHeld, Lease.live, Option.filter_some, redisLease, hpos]

/-- INTERNAL: a deletion ends it. -/
theorem redisHeld_del_self : redisHeld redis now (Redis.del db (redis.fullKey key)) key = none := by
  simp [redisHeld, Redis.del, Lease.live]

/-- INTERNAL: the leases of other keys stay in Redis. -/
theorem redisHeld_update_of_ne {k : MessageId U} (hk : k ≠ key) (e : Option Redis.Entry) :
    redisHeld redis now (update db (redis.fullKey key) e) k = redisHeld redis now db k := by
  rw [redisHeld, Function.update_of_ne (redis.fullKey_ne hk), redisHeld]

end Redis

/-- Redis as a map with expiry times: every expiry is taken. -/
def takesAll : ℕ → ℕ → Bool := fun _ _ => true

/-- INTERNAL: a claim writes to a free key and reads a leased one. -/
theorem storeOn_tryClaim (redis : RedisIdempotencyStore) (now : ℕ) (key : MessageId U)
    (db : Redis.Db) :
    (redis.storeOn takesAll).tryClaim now () key db =
      match Redis.get now db (redis.fullKey key) with
      | none => (.ok .claimed,
          update db (redis.fullKey key) (some ⟨"pending", now + redis.ttlMs⟩))
      | some value => (.ok (if value = "done" then .alreadyDone else .alreadyPending), db) := by
  simp only [RedisIdempotencyStore.storeOn, RedisIdempotencyStore.tryClaimRequest,
    Prog.perform_bind, Prog.exec_call, Redis.serve]
  cases Redis.get now db (redis.fullKey key) with
  | none => rfl
  | some value =>
    by_cases hdone : value = "done"
    · simp only [if_pos hdone]
      rfl
    · simp only [if_neg hdone]
      rfl

/-- **The Redis store holds leases.** -/
def redisLeasing (redis : RedisIdempotencyStore) (hpos : 0 < redis.ttlMs) :
    Leasing (redis.storeOn (U := U) takesAll) () redis.ttlMs where
  held := redisHeld redis
  tryClaim_free now key db h := by
    rw [storeOn_tryClaim redis now key db, get_of_redisHeld_none redis now db key h]
    exact ⟨rfl, redisHeld_update_self redis now db key "pending" hpos⟩
  tryClaim_leased now key db l h := by
    obtain ⟨value, hget, hdone⟩ := get_of_redisHeld_some redis now db key h
    rw [storeOn_tryClaim redis now key db, hget]
    refine ⟨?_, h⟩
    simp [Lease.outcome, hdone]
  tryClaim_frame now key db k hk := by
    rw [storeOn_tryClaim redis now key db]
    cases Redis.get now db (redis.fullKey key) with
    | none => exact redisHeld_update_of_ne redis now db key hk _
    | some value => rfl
  markDone_leased now key db := ⟨rfl, redisHeld_update_self redis now db key "done" hpos⟩
  markDone_frame now key db k hk := redisHeld_update_of_ne redis now db key hk _
  release_free now key db := ⟨rfl, redisHeld_del_self redis now db key⟩
  release_frame now key db k hk := redisHeld_update_of_ne redis now db key hk _
  held_later now ms key db := (Lease.live_live now ms _).symm

/-- The lease a record of a bucket stands for; a tombstone is none. -/
def kvLease (ttl : ℕ) (r : KvRecord) : Option Lease :=
  r.value.map fun value => ⟨decide (value = kvDone), r.writtenAt + ttl⟩

/-- The live lease of a key of a KV store. -/
def kvHeld (ttl now : ℕ) (b : AgedBucket) (key : MessageId U) : Option Lease :=
  Lease.live now ((b key.toString).bind (kvLease ttl))

section NatsKv

variable {ttl : ℕ} (now : ℕ) (b : AgedBucket) (key : MessageId U)

/-- INTERNAL: a `max_age` of whole milliseconds is counted in those. -/
theorem isLive_fromMillis (hpos : 0 < ttl) (r : KvRecord) :
    AgedBucket.isLive (.fromMillis ttl) now r = decide (now < r.writtenAt + ttl) := by
  have hscale : (Duration.fromMillis ttl = 0 ∨
      Duration.fromMillis now < Duration.fromMillis r.writtenAt + Duration.fromMillis ttl) ↔
        now < r.writtenAt + ttl := by
    change (ttl * 1000000 = 0 ∨ now * 1000000 < r.writtenAt * 1000000 + ttl * 1000000) ↔ _
    omega
  rw [Bool.eq_iff_iff, AgedBucket.isLive_iff, hscale, decide_eq_true_iff]

/-- INTERNAL: without a lease there is no live entry. -/
theorem live_of_kvHeld_none (hpos : 0 < ttl) (h : kvHeld ttl now b key = none) :
    AgedBucket.live (.fromMillis ttl) now b key.toString = none := by
  unfold kvHeld at h
  unfold AgedBucket.live
  cases hb : b key.toString with
  | none => rfl
  | some r =>
    rw [hb] at h
    simp only [isLive_fromMillis now hpos, decide_eq_true_eq]
    by_cases hlive : now < r.writtenAt + ttl
    · rw [if_pos hlive]
      cases hvalue : r.value with
      | none => rfl
      | some value => simp [kvLease, hvalue, Lease.live, Option.filter_some, hlive] at h
    · rw [if_neg hlive]

/-- INTERNAL: a lease is a live entry with its value. -/
theorem live_of_kvHeld_some (hpos : 0 < ttl) {l : Lease} (h : kvHeld ttl now b key = some l) :
    ∃ value, AgedBucket.live (.fromMillis ttl) now b key.toString = some value ∧
      l.done = decide (value = kvDone) := by
  obtain ⟨hl, hlive⟩ := Option.filter_eq_some_iff.mp h
  obtain ⟨r, hb, hr⟩ := Option.bind_eq_some_iff.mp hl
  obtain ⟨value, hvalue, rfl⟩ := Option.map_eq_some_iff.mp hr
  refine ⟨value, ?_, rfl⟩
  have hlive : now < r.writtenAt + ttl := of_decide_eq_true hlive
  simp [AgedBucket.live, hb, isLive_fromMillis now hpos, hlive, hvalue]

/-- INTERNAL: a write makes a lease. -/
theorem kvHeld_update_self (value : Bytes) (hpos : 0 < ttl) :
    kvHeld ttl now (update b key.toString (some ⟨some value, now⟩)) key =
      some ⟨decide (value = kvDone), now + ttl⟩ := by
  simp [kvHeld, Lease.live, Option.filter_some, kvLease, hpos]

/-- INTERNAL: a purge ends it. -/
theorem kvHeld_purge_self :
    kvHeld ttl now (update b key.toString (some ⟨none, now⟩)) key = none := by
  simp [kvHeld, kvLease, Lease.live]

/-- INTERNAL: the leases of other keys stay in the bucket. -/
theorem kvHeld_update_of_ne {k : MessageId U} (hk : k ≠ key) (r : Option KvRecord) :
    kvHeld ttl now (update b key.toString r) k = kvHeld ttl now b k := by
  have hne : k.toString ≠ key.toString := fun h => hk (MessageId.toString_injective h)
  rw [kvHeld, Function.update_of_ne hne, kvHeld]

end NatsKv

/-- **The KV store holds leases.** -/
def kvLeasing {ttl : ℕ} (hpos : 0 < ttl) :
    Leasing (NatsKvIdempotencyStore.store (U := U) (.fromMillis ttl)) () ttl where
  held := kvHeld ttl
  tryClaim_free now key b h := by
    rw [NatsKvIdempotencyStore.store_tryClaim_free (live_of_kvHeld_none now b key hpos h)]
    exact ⟨rfl, kvHeld_update_self now b key kvPending hpos⟩
  tryClaim_leased now key b l h := by
    obtain ⟨value, hlive, hdone⟩ := live_of_kvHeld_some now b key hpos h
    rw [NatsKvIdempotencyStore.store_tryClaim_taken hlive]
    refine ⟨?_, h⟩
    simp [Lease.outcome, hdone]
  tryClaim_frame now key b k hk := by
    rw [NatsKvIdempotencyStore.store_tryClaim (.fromMillis ttl) now key b]
    cases AgedBucket.live (.fromMillis ttl) now b key.toString with
    | none => exact kvHeld_update_of_ne now b key hk _
    | some value => rfl
  markDone_leased now key b := ⟨rfl, kvHeld_update_self now b key kvDone hpos⟩
  markDone_frame now key b k hk := kvHeld_update_of_ne now b key hk _
  release_free now key b := ⟨rfl, kvHeld_purge_self now b key⟩
  release_frame now key b k hk := kvHeld_update_of_ne now b key hk _
  held_later now ms key b := (Lease.live_live now ms _).symm

end EventBus.Interface
