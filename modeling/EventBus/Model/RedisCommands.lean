import EventBus.Lib.Prog
import EventBus.Model.Redis

/-!
# The Redis store as the commands it sends

The three operations of `RedisIdempotencyStore` again, this time as programs over the
commands that reach the server, so that the server can be put in their place.  Whether a
server takes an expiry is left to it: the one of `EventBus.Model.Redis` refuses a time that
does not fit in a signed 64-bit integer, a server that is nothing but a map with expiry
times takes them all.

`storeOn_validPx` says that both models of the store are the same.
-/

set_option autoImplicit false

namespace EventBus.Model

open EventBus.Lib (Prog)
open EventBus.Lib.Prog (perform)

/-- The commands the store sends. -/
inductive RedisCall where
  /-- The claim script, run as one command. -/
  | claimScript (key : String) (ms : ℕ)
  | setPx (key value : String) (ms : ℕ)
  | del (key : String)
  deriving DecidableEq

/-- What each command is answered with. -/
abbrev RedisCall.Resp : RedisCall → Type
  | .claimScript _ _ => Except String String
  | .setPx _ _ _ => Except String Unit
  | .del _ => Except String Unit

namespace Redis

open Function (update)

/-- Serving a command at the time `now`, on a server that takes the expiries `takes`. -/
def serve (takes : ℕ → ℕ → Bool) (now : ℕ) : (c : RedisCall) → Db → c.Resp × Db
  | .claimScript key ms, db =>
    match get now db key with
    | none =>
      if takes now ms then (.ok "claimed", update db key (some ⟨"pending", now + ms⟩))
      else (.error errInvalidExpire, db)
    | some current =>
      if current = "done" then (.ok "already_done", db) else (.ok "already_pending", db)
  | .setPx key value ms, db =>
    if takes now ms then (.ok (), update db key (some ⟨value, now + ms⟩))
    else (.error errInvalidExpire, db)
  | .del key, db => (.ok (), del db key)

end Redis

namespace RedisIdempotencyStore

variable {U : Type} [UuidCrate U] (self : RedisIdempotencyStore)

/-- A request to Redis. -/
abbrev Request (α : Type) := Prog RedisCall RedisCall.Resp α

/-- SRC: redis.rs:76-95 -/
def tryClaimRequest (key : MessageId U) : Request (Except BusError ClaimOutcome) := do
  match ← perform (RedisCall.claimScript (self.fullKey key) self.ttlMs) with
  | .error e => pure (.error (redisError e))
  | .ok outcome => pure (claimOutcome outcome)

/-- SRC: redis.rs:97-109 -/
def markDoneRequest (key : MessageId U) : Request (Except BusError Unit) := do
  match ← perform (RedisCall.setPx (self.fullKey key) "done" self.ttlMs) with
  | .error e => pure (.error (redisError e))
  | .ok () => pure (.ok ())

/-- SRC: redis.rs:111-120 -/
def releaseRequest (key : MessageId U) : Request (Except BusError Unit) := do
  match ← perform (RedisCall.del (self.fullKey key)) with
  | .error e => pure (.error (redisError e))
  | .ok () => pure (.ok ())

/-- The store on a server that takes the expiries `takes`. -/
def storeOn (takes : ℕ → ℕ → Bool) : Store U where
  State := Redis.Db
  Choice := Unit
  tryClaim now _ key db := (self.tryClaimRequest key).exec (Redis.serve takes now) db
  markDone now _ key db := (self.markDoneRequest key).exec (Redis.serve takes now) db
  release now _ key db := (self.releaseRequest key).exec (Redis.serve takes now) db
  tick _ db := db

/-- **The store and its commands agree.**  On the server of `EventBus.Model.Redis`, which
refuses some expiries, the programs are the store. -/
theorem storeOn_validPx : self.storeOn (U := U) Redis.validPx = self.store := by
  have htryClaim : ∀ now (key : MessageId U) db,
      (self.tryClaimRequest key).exec (Redis.serve Redis.validPx now) db =
        self.tryClaim now key db := by
    intro now key db
    simp only [tryClaimRequest, Prog.perform_bind, Prog.exec_call, Redis.serve, tryClaim,
      Redis.claimLua, Redis.setPx]
    cases Redis.get now db (self.fullKey key) with
    | none => cases Redis.validPx now self.ttlMs <;> rfl
    | some current =>
      by_cases hdone : current = "done"
      · simp only [if_pos hdone]
        rfl
      · simp only [if_neg hdone]
        rfl
  have hmarkDone : ∀ now (key : MessageId U) db,
      (self.markDoneRequest key).exec (Redis.serve Redis.validPx now) db =
        self.markDone now key db := by
    intro now key db
    simp only [markDoneRequest, Prog.perform_bind, Prog.exec_call, Redis.serve, markDone,
      Redis.setPx]
    cases Redis.validPx now self.ttlMs <;> rfl
  simp only [storeOn, store, htryClaim, hmarkDone]
  rfl

end RedisIdempotencyStore

end EventBus.Model
