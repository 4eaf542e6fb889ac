import EventBus.Model.NatsKv

/-!
# A bucket whose entries age

The bucket behind `NatsKvIdempotencyStore` as the server keeps it when nothing fails: for
every key the last thing written, which is an entry or the tombstone of a purge, and the
time of the write.  Both are gone `max_age` later, or never when that is zero.  A key can be
created when it has no live entry, also over a tombstone.

`NatsKvIdempotencyStore.store` is the store on such a bucket: each of its operations is
the program of `EventBus.Model.NatsKv`, run to its end at one time.  So carried out, the
operations keep the contract of the trait (`NatsKvIdempotencyStore.contract`).
-/

set_option autoImplicit false

namespace EventBus.Model

open EventBus.Lib (Prog)

/-- What was last written under a key of a bucket, and when; a purge leaves no value. -/
structure KvRecord where
  value : Option Bytes
  writtenAt : ℕ
  deriving DecidableEq

/-- A bucket with what was last written under every key. -/
abbrev AgedBucket := String → Option KvRecord

namespace AgedBucket

open Function (update)

/-- Whether a record is younger than `maxAge`; zero is no limit.  The clock counts
milliseconds. -/
def isLive (maxAge : Duration) (now : ℕ) (r : KvRecord) : Bool :=
  decide (maxAge = 0) ||
    decide (Duration.fromMillis now < Duration.fromMillis r.writtenAt + maxAge)

/-- The live value under a key. -/
def live (maxAge : Duration) (now : ℕ) (b : AgedBucket) (key : String) : Option Bytes :=
  match b key with
  | some r => if isLive maxAge now r then r.value else none
  | none => none

/-- The status of a key, as `try_claim` reads it. -/
def status (maxAge : Duration) (now : ℕ) (b : AgedBucket) (key : String) : KeyStatus :=
  match live maxAge now b key with
  | none => .absent
  | some value => if value = kvDone then .done else .pending

/-- Serving a request at the time `now`. -/
def serve (maxAge : Duration) (now : ℕ) : (c : KvCall) → AgedBucket → c.Resp × AgedBucket
  | .create key value, b =>
    match live maxAge now b key with
    | none => (.ok (), update b key (some ⟨some value, now⟩))
    | some _ => (.error "key already exists", b)
  | .get key, b => (.ok (live maxAge now b key), b)
  | .put key value, b => (.ok (), update b key (some ⟨some value, now⟩))
  | .purge key, b => (.ok (), update b key (some ⟨none, now⟩))
  | .work, b => (true, b)

/-- INTERNAL: a record is live while it is younger than `maxAge`. -/
theorem isLive_iff {maxAge : Duration} {now : ℕ} {r : KvRecord} :
    isLive maxAge now r = true ↔
      maxAge = 0 ∨ Duration.fromMillis now < Duration.fromMillis r.writtenAt + maxAge := by
  simp only [isLive, Bool.or_eq_true, decide_eq_true_eq]

/-- INTERNAL: a record that is live later was live before. -/
theorem isLive_of_later {maxAge : Duration} {now later : ℕ} (hle : now ≤ later) {r : KvRecord}
    (h : isLive maxAge later r = true) : isLive maxAge now r = true := by
  rw [isLive_iff] at h ⊢
  exact h.imp id (Nat.lt_of_le_of_lt (Nat.mul_le_mul_right 1000000 hle))

/-- INTERNAL: what is written now is live. -/
theorem isLive_self (maxAge : Duration) (now : ℕ) (value : Option Bytes) :
    isLive maxAge now ⟨value, now⟩ = true := by
  rw [isLive_iff]
  rcases Nat.eq_zero_or_pos maxAge with hzero | hpos
  · exact .inl hzero
  · exact .inr (Nat.lt_add_of_pos_right hpos)

/-- INTERNAL: what is written now is read, and a tombstone is no value. -/
theorem live_update_self (maxAge : Duration) (now : ℕ) (b : AgedBucket) (key : String)
    (value : Option Bytes) : live maxAge now (update b key (some ⟨value, now⟩)) key = value := by
  simp only [live, Function.update_self, isLive_self, if_true]

/-- INTERNAL: a write leaves the other keys alone. -/
theorem live_update_of_ne {maxAge : Duration} {now : ℕ} {b : AgedBucket} {key key' : String}
    (hne : key' ≠ key) (r : Option KvRecord) :
    live maxAge now (update b key r) key' = live maxAge now b key' := by
  simp only [live, Function.update_of_ne hne]

/-- INTERNAL: what is live later was live before. -/
theorem live_of_later {maxAge : Duration} {now later : ℕ} (hle : now ≤ later) {b : AgedBucket}
    {key : String} {value : Bytes} (h : live maxAge later b key = some value) :
    live maxAge now b key = some value := by
  unfold live at h ⊢
  cases hb : b key with
  | none =>
    rw [hb] at h
    cases h
  | some r =>
    rw [hb] at h
    cases hlater : isLive maxAge later r with
    | false =>
      simp only [hlater] at h
      cases h
    | true =>
      simp only [hlater, isLive_of_later hle hlater, if_true] at h ⊢
      exact h

/-- INTERNAL: before the clock comes to `maxAge` nothing has aged out. -/
theorem live_of_early {maxAge : Duration} {now : ℕ} {b : AgedBucket} {key : String}
    (hearly : Duration.fromMillis now < maxAge) :
    live maxAge now b key = (b key).bind KvRecord.value := by
  unfold live
  cases b key with
  | none => rfl
  | some r =>
    have hlive : isLive maxAge now r = true :=
      isLive_iff.mpr (.inr (Nat.lt_of_lt_of_le hearly (Nat.le_add_left ..)))
    simp only [hlive, if_true, Option.bind_some]

end AgedBucket

namespace NatsKvIdempotencyStore

variable {U : Type} [UuidCrate U]

/-- The store on a bucket with this `max_age`.
SRC: nats_kv.rs:68-106 -/
abbrev store (maxAge : Duration) : Store U where
  State := AgedBucket
  Choice := Unit
  tryClaim now _ key b := (tryClaim key).exec (AgedBucket.serve maxAge now) b
  markDone now _ key b := (markDone key).exec (AgedBucket.serve maxAge now) b
  release now _ key b := (release key).exec (AgedBucket.serve maxAge now) b
  tick _ b := b

section

variable (maxAge : Duration) (now : ℕ) (key : MessageId U) (b : AgedBucket)

/-- INTERNAL: a claim writes to a free key, be it under a tombstone or never written, and
reads a live one. -/
theorem store_tryClaim :
    (store maxAge).tryClaim now () key b =
      match AgedBucket.live maxAge now b key.toString with
      | none => (.ok .claimed, Function.update b key.toString (some ⟨some kvPending, now⟩))
      | some value => (.ok (if value = kvDone then .alreadyDone else .alreadyPending), b) := by
  simp only [tryClaim, create, get, Prog.perform_bind, Prog.exec_call, AgedBucket.serve]
  cases hlive : AgedBucket.live maxAge now b key.toString with
  | none => rfl
  | some value =>
    simp only [hlive, Prog.exec_call, AgedBucket.serve]
    by_cases hdone : value = kvDone
    · simp only [if_pos hdone]
      rfl
    · simp only [if_neg hdone]
      rfl

variable {maxAge now key b}

/-- INTERNAL: a key with no live entry is claimed. -/
theorem store_tryClaim_free (hfree : AgedBucket.live maxAge now b key.toString = none) :
    (store maxAge).tryClaim now () key b =
      (.ok .claimed, Function.update b key.toString (some ⟨some kvPending, now⟩)) := by
  rw [store_tryClaim, hfree]

/-- INTERNAL: a key with a live entry is not. -/
theorem store_tryClaim_taken {value : Bytes}
    (htaken : AgedBucket.live maxAge now b key.toString = some value) :
    (store maxAge).tryClaim now () key b =
      (.ok (if value = kvDone then .alreadyDone else .alreadyPending), b) := by
  rw [store_tryClaim, htaken]

variable (maxAge now key b)

/-- INTERNAL: marking writes. -/
theorem store_markDone : (store maxAge).markDone now () key b =
    (.ok (), Function.update b key.toString (some ⟨some kvDone, now⟩)) := rfl

/-- INTERNAL: releasing writes a tombstone. -/
theorem store_release : (store maxAge).release now () key b =
    (.ok (), Function.update b key.toString (some ⟨none, now⟩)) := rfl

end

/-- **The store keeps the contract of the trait**, when its operations are one step. -/
def contract (maxAge : Duration) : (store (U := U) maxAge).Contract where
  status now b key := b.status maxAge now key.toString
  tryClaim_step now _ key b := by
    rw [store_tryClaim]
    cases hlive : AgedBucket.live maxAge now b key.toString with
    | none =>
      simp only [AgedBucket.status, hlive, AgedBucket.live_update_self,
        if_neg kvPending_ne_kvDone]
      exact .claimed
    | some value =>
      simp only [AgedBucket.status, hlive]
      by_cases hdone : value = kvDone
      · rw [if_pos hdone, if_pos hdone]
        exact .alreadyDone
      · rw [if_neg hdone, if_neg hdone]
        exact .alreadyPending
  tryClaim_frame now _ key b k hk := by
    have hne : k.toString ≠ key.toString := fun h => hk (MessageId.toString_injective h)
    rw [store_tryClaim]
    cases hlive : AgedBucket.live maxAge now b key.toString with
    | none => simp only [AgedBucket.status, AgedBucket.live_update_of_ne hne]
    | some value => rfl
  markDone_step now _ key b := by
    rw [store_markDone]
    simp only [AgedBucket.status, AgedBucket.live_update_self, if_true]
    exact .marked _
  markDone_frame now _ key b k hk := by
    have hne : k.toString ≠ key.toString := fun h => hk (MessageId.toString_injective h)
    rw [store_markDone]
    simp only [AgedBucket.status, AgedBucket.live_update_of_ne hne]
  release_step now _ key b := by
    rw [store_release]
    simp only [AgedBucket.status, AgedBucket.live_update_self]
    exact .released _
  release_frame now _ key b k hk := by
    have hne : k.toString ≠ key.toString := fun h => hk (MessageId.toString_injective h)
    rw [store_release]
    simp only [AgedBucket.status, AgedBucket.live_update_of_ne hne]

end NatsKvIdempotencyStore

end EventBus.Model
