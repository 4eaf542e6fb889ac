import EventBus.Interface.Leases

/-!
# The backends are interchangeable

On any script of calls that are made one after another and do not fail, the Redis store and
the KV store with the same time to live answer every call alike, whatever they keep
internally: a tombstone for a deleted key, the age of a record for an expiry time.

The Redis of this result is a map with expiry times that takes every expiry.
-/

set_option autoImplicit false

namespace EventBus.Analysis

open EventBus.Model EventBus.Interface

variable {U : Type} [UuidCrate U]

/-- **The backends are interchangeable.**  From empty backends and with equal times to live,
a whole positive number of milliseconds, every script of calls has the same outcomes on
both. -/
theorem backends_interchangeable (redis : RedisIdempotencyStore) (maxAge : Duration)
    (hpos : 0 < redis.ttlMs) (hage : maxAge = .fromMillis redis.ttlMs) (now : ℕ)
    (script : List (StoreAction U)) :
    outcomes (redis.storeOn takesAll) () now (fun _ => none) script =
      outcomes (NatsKvIdempotencyStore.store maxAge) () now (fun _ => none) script := by
  subst hage
  have hempty : ∀ key : MessageId U,
      redisHeld redis now (fun _ => none) key = kvHeld redis.ttlMs now (fun _ => none) key :=
    fun _ => rfl
  exact ((redisLeasing redis hpos).simulation (kvLeasing hpos)).outcomes_eq script hempty

/-- INTERNAL: the key is a UUID. -/
theorem isHyphenated_scriptKey :
    isHyphenated "6ba7b810-9dad-11d1-80b4-00c04fd430c8" = true := by
  decide

/-- An id to run scripts on. -/
def scriptKey : MessageId HyphenatedUuid :=
  ⟨⟨"6ba7b810-9dad-11d1-80b4-00c04fd430c8", isHyphenated_scriptKey⟩⟩

/-- A key that is claimed, released and claimed again over its tombstone, marked done in the
last millisecond of its lease, and claimed once more when that lease is over. -/
def leaseScript : List (StoreAction HyphenatedUuid) :=
  [.tryClaim scriptKey, .release scriptKey, .tryClaim scriptKey, .advance 999,
    .markDone scriptKey, .advance 999, .tryClaim scriptKey, .advance 1, .tryClaim scriptKey]

/-- INTERNAL: the result on this script. -/
theorem backends_interchangeable_script :
    outcomes (RedisIdempotencyStore.storeOn ⟨"eventbus:processed:", 1000⟩ takesAll) () 0
        (fun _ => none) leaseScript =
      outcomes (NatsKvIdempotencyStore.store (.fromSecs 1)) () 0 (fun _ => none) leaseScript :=
  backends_interchangeable ⟨"eventbus:processed:", 1000⟩ (.fromSecs 1) (by decide) rfl 0
    leaseScript

end EventBus.Analysis
