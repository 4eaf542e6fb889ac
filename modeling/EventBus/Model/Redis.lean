import EventBus.Model.Store

/-!
# The Redis store

The commands the store sends (`GET`, `SET … PX`, `DEL` and the claim script that is run as
one command), what they do to the database, and `RedisIdempotencyStore` on top of them.
An entry is live until its expiry time.  The URL and the connection are left out: what a
lost connection does to a call is a matter of the world the store is put in.

The section at the end shows that the store keeps the contract of the trait, as long as
entries are looked at at one time, and that its done keys are honest at any time.
-/

set_option autoImplicit false

namespace EventBus.Model

namespace Redis

open Function (update)

/-- A string with an expiry time. -/
structure Entry where
  value : String
  expiresAt : ℕ
  deriving DecidableEq

abbrev Db := String → Option Entry

/-- `GET key`: expired entries are gone. -/
def get (now : ℕ) (db : Db) (key : String) : Option String :=
  match db key with
  | some entry => if now < entry.expiresAt then some entry.value else none
  | none => none

/-- The greatest signed 64-bit integer. -/
def llongMax : ℕ := 9223372036854775807

/-- Whether the server takes `PX ms`: it must be positive, and the time it names must fit
in a signed 64-bit integer. -/
def validPx (now ms : ℕ) : Bool :=
  decide (0 < ms) && decide (now + ms ≤ llongMax)

def errInvalidExpire : String := "ERR invalid expire time in 'set' command"

/-- `SET key value PX ms`. -/
def setPx (now : ℕ) (db : Db) (key value : String) (ms : ℕ) : Except String Unit × Db :=
  if validPx now ms then (.ok (), update db key (some ⟨value, now + ms⟩))
  else (.error errInvalidExpire, db)

/-- `DEL key`. -/
def del (db : Db) (key : String) : Db :=
  update db key none

/-- The claim script.
SRC: redis.rs:11-21 -/
def claimLua (now : ℕ) (db : Db) (key : String) (ms : ℕ) : Except String String × Db :=
  match get now db key with
  | none =>
    match setPx now db key "pending" ms with
    | (.ok (), db) => (.ok "claimed", db)
    | (.error e, db) => (.error e, db)
  | some current =>
    if current = "done" then (.ok "already_done", db) else (.ok "already_pending", db)

end Redis

/-- SRC: redis.rs:23-43 -/
structure RedisIdempotencyConfig where
  keyPrefix : String := "eventbus:processed:"
  ttl : Duration := .fromSecs (7 * (24 * 60 * 60))

/-- SRC: redis.rs:45-52 -/
structure RedisIdempotencyStore where
  keyPrefix : String
  ttlMs : ℕ

namespace RedisIdempotencyStore

/-- SRC: redis.rs:55-68 -/
def connect (cfg : RedisIdempotencyConfig) : RedisIdempotencyStore where
  keyPrefix := cfg.keyPrefix
  ttlMs := min cfg.ttl.asMillis (UInt64.size - 1)

variable {U : Type} [UuidCrate U] (self : RedisIdempotencyStore)

/-- SRC: redis.rs:70-72 -/
def fullKey (key : MessageId U) : String :=
  self.keyPrefix ++ key.toString

/-- The error of every call that Redis refuses. -/
def redisError (e : String) : BusError :=
  .idempotency ("redis: " ++ e)

/-- SRC: redis.rs:87-94 -/
def claimOutcome (outcome : String) : Except BusError ClaimOutcome :=
  if outcome = "claimed" then .ok .claimed
  else if outcome = "already_done" then .ok .alreadyDone
  else if outcome = "already_pending" then .ok .alreadyPending
  else .error (redisError ("unexpected claim outcome " ++ outcome))

/-- SRC: redis.rs:76-95 -/
def tryClaim (now : ℕ) (key : MessageId U) (db : Redis.Db) :
    Except BusError ClaimOutcome × Redis.Db :=
  match Redis.claimLua now db (self.fullKey key) self.ttlMs with
  | (.ok outcome, db) => (claimOutcome outcome, db)
  | (.error e, db) => (.error (redisError e), db)

/-- SRC: redis.rs:97-109 -/
def markDone (now : ℕ) (key : MessageId U) (db : Redis.Db) : Except BusError Unit × Redis.Db :=
  match Redis.setPx now db (self.fullKey key) "done" self.ttlMs with
  | (.ok (), db) => (.ok (), db)
  | (.error e, db) => (.error (redisError e), db)

/-- SRC: redis.rs:111-120 -/
def release (key : MessageId U) (db : Redis.Db) : Except BusError Unit × Redis.Db :=
  (.ok (), Redis.del db (self.fullKey key))

/-- SRC: redis.rs:74-121 -/
def store : Store U where
  State := Redis.Db
  Choice := Unit
  tryClaim now _ key db := self.tryClaim now key db
  markDone now _ key db := self.markDone now key db
  release _ _ key db := self.release key db
  tick _ db := db

/-! ## What the store keeps -/

/-- The status of a key. -/
def status (now : ℕ) (db : Redis.Db) (key : MessageId U) : KeyStatus :=
  match Redis.get now db (self.fullKey key) with
  | none => .absent
  | some value => if value = "done" then .done else .pending

/-- INTERNAL: two ids have two keys.
SRC: redis.rs:70-72 -/
theorem fullKey_injective : Function.Injective (self.fullKey (U := U)) := by
  intro a b h
  exact MessageId.toString_injective (String.append_right_inj _ |>.mp h)

/-- INTERNAL: ids that differ have keys that do. -/
theorem fullKey_ne {k key : MessageId U} (h : k ≠ key) : self.fullKey k ≠ self.fullKey key :=
  fun he => h (self.fullKey_injective he)

/-- INTERNAL: what is written is read until it expires. -/
theorem get_update_self (now : ℕ) (db : Redis.Db) (key : String) (e : Redis.Entry) :
    Redis.get now (Function.update db key (some e)) key =
      if now < e.expiresAt then some e.value else none := by
  simp [Redis.get]

/-- INTERNAL: a write leaves the status of other ids alone. -/
theorem status_update_of_ne (now : ℕ) (db : Redis.Db) {k key : MessageId U} (h : k ≠ key)
    (e : Option Redis.Entry) :
    self.status now (Function.update db (self.fullKey key) e) k = self.status now db k := by
  simp [status, Redis.get, Function.update_of_ne (self.fullKey_ne h)]

/-- INTERNAL: the database after a claim is the one before it or has the key pending. -/
theorem tryClaim_cases (now : ℕ) (key : MessageId U) (db : Redis.Db) :
    (self.status now db key = .absent ∧ self.tryClaim now key db = (.ok .claimed,
        Function.update db (self.fullKey key) (some ⟨"pending", now + self.ttlMs⟩)) ∧
      0 < self.ttlMs) ∨
    (self.status now db key = .absent ∧
      self.tryClaim now key db = (.error (redisError Redis.errInvalidExpire), db)) ∨
    (self.status now db key = .pending ∧ self.tryClaim now key db = (.ok .alreadyPending, db)) ∨
    (self.status now db key = .done ∧ self.tryClaim now key db = (.ok .alreadyDone, db)) := by
  simp only [status, tryClaim, Redis.claimLua]
  cases hget : Redis.get now db (self.fullKey key) with
  | none =>
    by_cases hpx : Redis.validPx now self.ttlMs = true
    · left
      have hpos : 0 < self.ttlMs := by
        simp only [Redis.validPx, Bool.and_eq_true, decide_eq_true_eq] at hpx
        exact hpx.1
      simp [Redis.setPx, hpx, claimOutcome, hpos]
    · right
      left
      simp [Redis.setPx, hpx]
  | some current =>
    by_cases hdone : current = "done"
    · simp [hdone, claimOutcome]
    · simp [hdone, claimOutcome]

/-- INTERNAL: marking a key sets it done or, if Redis refuses the expiry, does nothing. -/
theorem markDone_cases (now : ℕ) (key : MessageId U) (db : Redis.Db) :
    (self.markDone now key db = (.ok (),
        Function.update db (self.fullKey key) (some ⟨"done", now + self.ttlMs⟩)) ∧
      0 < self.ttlMs) ∨
    self.markDone now key db = (.error (redisError Redis.errInvalidExpire), db) := by
  simp only [markDone, Redis.setPx]
  by_cases hpx : Redis.validPx now self.ttlMs = true
  · left
    have hpos : 0 < self.ttlMs := by
      simp only [Redis.validPx, Bool.and_eq_true, decide_eq_true_eq] at hpx
      exact hpx.1
    simp [hpx, hpos]
  · right
    simp [hpx]

/-- INTERNAL: a write sets the status of its own id. -/
theorem status_update_self (now : ℕ) (db : Redis.Db) (key : MessageId U) (value : String)
    (hpos : 0 < self.ttlMs) :
    self.status now (Function.update db (self.fullKey key) (some ⟨value, now + self.ttlMs⟩)) key =
      if value = "done" then .done else .pending := by
  simp [status, get_update_self, hpos]

/-- INTERNAL: a key that is deleted is absent. -/
theorem status_del_self (now : ℕ) (db : Redis.Db) (key : MessageId U) :
    self.status now (Redis.del db (self.fullKey key)) key = .absent := by
  simp [status, Redis.get, Redis.del]

/-- **The Redis store keeps the contract of the trait.** -/
def contract : (self.store (U := U)).Contract where
  status := self.status
  tryClaim_step now _ key db := by
    change ClaimStep _ (self.tryClaim now key db).1
      (self.status now (self.tryClaim now key db).2 key)
    rcases self.tryClaim_cases now key db with
      ⟨hst, hdb, hpos⟩ | ⟨hst, hdb⟩ | ⟨hst, hdb⟩ | ⟨hst, hdb⟩
    · rw [hdb, hst, self.status_update_self now db key _ hpos]
      exact .claimed
    · rw [hdb, hst]
      exact .failed _ _
    · rw [hdb, hst]
      exact .alreadyPending
    · rw [hdb, hst]
      exact .alreadyDone
  tryClaim_frame now _ key db k hk := by
    change self.status now (self.tryClaim now key db).2 k = _
    rcases self.tryClaim_cases now key db with
      ⟨-, hdb, -⟩ | ⟨-, hdb⟩ | ⟨-, hdb⟩ | ⟨-, hdb⟩ <;> rw [hdb]
    exact self.status_update_of_ne now db hk _
  markDone_step now _ key db := by
    change MarkStep _ (self.markDone now key db).1
      (self.status now (self.markDone now key db).2 key)
    rcases self.markDone_cases now key db with ⟨hdb, hpos⟩ | hdb
    · rw [hdb, self.status_update_self now db key _ hpos]
      exact .marked _
    · rw [hdb]
      exact .failed _ _
  markDone_frame now _ key db k hk := by
    change self.status now (self.markDone now key db).2 k = _
    rcases self.markDone_cases now key db with ⟨hdb, -⟩ | hdb <;> rw [hdb]
    exact self.status_update_of_ne now db hk _
  release_step now _ key db := by
    change ReleaseStep _ (.ok ()) (self.status now (Redis.del db (self.fullKey key)) key)
    rw [self.status_del_self now db key]
    exact .released _
  release_frame now _ key db k hk := self.status_update_of_ne now db hk none

/-- INTERNAL: a key that is done later, with nothing written in between, was done before. -/
theorem status_done_of_le {now later : ℕ} (h : now ≤ later) (db : Redis.Db) (key : MessageId U)
    (hd : self.status later db key = .done) : self.status now db key = .done := by
  unfold status Redis.get at *
  cases hdb : db (self.fullKey key) with
  | none => simp [hdb] at hd
  | some e =>
    simp only [hdb] at hd ⊢
    by_cases hlater : later < e.expiresAt
    · rw [if_pos (by omega : now < e.expiresAt)]
      rwa [if_pos hlater] at hd
    · simp [hlater] at hd

/-- **The Redis store is honest about done keys.** -/
def honest : (self.store (U := U)).Honest where
  isDone now db key := self.status now db key = .done
  tryClaim_done now ch key db k hd := by
    by_cases hclaimed : (self.store.tryClaim now ch key db).1 = .ok .claimed
    · by_cases hk : k = key
      · subst hk
        have hpending := (self.contract.of_claimed now ch k db hclaimed).2
        exact absurd (hd.symm.trans hpending) (by decide)
      · exact (self.contract.tryClaim_frame now ch key db k hk).symm.trans hd
    · exact (self.contract.of_not_claimed now ch key db hclaimed k).symm.trans hd
  alreadyDone now ch key db h := self.contract.of_alreadyDone now ch key db h
  markDone_done now ch key db k hd := by
    by_cases hk : k = key
    · exact .inl hk
    · exact .inr ((self.contract.markDone_frame now ch key db k hk).symm.trans hd)
  release_done now ch key db k hd := by
    by_cases hk : k = key
    · subst hk
      have hgone := self.contract.of_release_ok now ch k db rfl
      exact absurd (hd.symm.trans hgone) (by decide)
    · exact (self.contract.release_frame now ch key db k hk).symm.trans hd
  tick_done now later _ db k hle hd := self.status_done_of_le hle db k hd

/-- INTERNAL: whether `SET` is refused depends on the expiry alone. -/
theorem setPx_congr (now ms : ℕ) {db db' : Redis.Db} {key : String} (value : String)
    (h : db key = db' key) :
    ∃ answer after after', Redis.setPx now db key value ms = (answer, after) ∧
      Redis.setPx now db' key value ms = (answer, after') ∧ after key = after' key := by
  by_cases hpx : Redis.validPx now ms = true
  · simp only [Redis.setPx, if_pos hpx]
    exact ⟨_, _, _, rfl, rfl, by rw [Function.update_self, Function.update_self]⟩
  · simp only [Redis.setPx, if_neg hpx]
    exact ⟨_, _, _, rfl, rfl, h⟩

/-- INTERNAL: what a claim answers and leaves under its key is read off the key. -/
theorem claimLua_congr (now ms : ℕ) {db db' : Redis.Db} {key : String} (h : db key = db' key) :
    ∃ answer after after', Redis.claimLua now db key ms = (answer, after) ∧
      Redis.claimLua now db' key ms = (answer, after') ∧ after key = after' key := by
  have hget : Redis.get now db key = Redis.get now db' key := by
    simp only [Redis.get, h]
  simp only [Redis.claimLua, hget]
  cases Redis.get now db' key with
  | none =>
    obtain ⟨answer, after, after', hset, hset', hafter⟩ := setPx_congr now ms "pending" h
    simp only [hset, hset']
    cases answer <;> exact ⟨_, _, _, rfl, rfl, hafter⟩
  | some current =>
    by_cases hdone : current = "done"
    · simp only [if_pos hdone]
      exact ⟨_, _, _, rfl, rfl, h⟩
    · simp only [if_neg hdone]
      exact ⟨_, _, _, rfl, rfl, h⟩

/-- **The Redis store keeps the keys apart.** -/
def perKey : (self.store (U := U)).PerKey where
  Slot := Option Redis.Entry
  slot db key := db (self.fullKey key)
  tryClaim_congr now _ key db db' h := by
    change (self.tryClaim now key db).1 = (self.tryClaim now key db').1 ∧
      (self.tryClaim now key db).2 _ = (self.tryClaim now key db').2 _
    obtain ⟨answer, after, after', hclaim, hclaim', hafter⟩ := claimLua_congr now self.ttlMs h
    simp only [tryClaim, hclaim, hclaim']
    cases answer <;> exact ⟨rfl, hafter⟩
  tryClaim_frame now _ key db k hk := by
    change (self.tryClaim now key db).2 _ = _
    rcases self.tryClaim_cases now key db with
      ⟨-, hdb, -⟩ | ⟨-, hdb⟩ | ⟨-, hdb⟩ | ⟨-, hdb⟩ <;> rw [hdb]
    exact Function.update_of_ne (self.fullKey_ne hk) ..
  markDone_congr now _ key db db' h := by
    change (self.markDone now key db).1 = (self.markDone now key db').1 ∧
      (self.markDone now key db).2 _ = (self.markDone now key db').2 _
    obtain ⟨answer, after, after', hset, hset', hafter⟩ := setPx_congr now self.ttlMs "done" h
    simp only [markDone, hset, hset']
    cases answer <;> exact ⟨rfl, hafter⟩
  markDone_frame now _ key db k hk := by
    change (self.markDone now key db).2 _ = _
    rcases self.markDone_cases now key db with ⟨hdb, -⟩ | hdb <;> rw [hdb]
    exact Function.update_of_ne (self.fullKey_ne hk) ..
  release_congr now _ key db db' h := by
    have hgone : ∀ db : Redis.Db, Redis.del db (self.fullKey key) (self.fullKey key) = none :=
      fun db => Function.update_self ..
    exact ⟨rfl, (hgone db).trans (hgone db').symm⟩
  release_frame now _ key db k hk := Function.update_of_ne (self.fullKey_ne hk) ..
  tick_congr _ key db db' h := h

end RedisIdempotencyStore

end EventBus.Model
