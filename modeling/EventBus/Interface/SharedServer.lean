import EventBus.Interface.Leases
import EventBus.Lib.Purge

/-!
# Stores that share a server

Several `RedisIdempotencyStore`s on one Redis, each with its prefix.  Every operation of a
store is one command, and Redis serves one command at a time, so the calls of all the stores
are served in some order: a script of `ServerAction`s.  The clock goes on between them.

A command reads and writes the entry of its key and no other, which makes the server a
`Keyed` machine.  The key is the full key, so what the stores have to do with each other is a
matter of the full keys alone (`ServerAction.fullKey?`).
-/

set_option autoImplicit false

namespace EventBus.Interface

open EventBus.Lib EventBus.Model

/-- A call on one of the stores of a server, or time that passes. -/
inductive ServerAction (ι U : Type) where
  | tryClaim (store : ι) (key : MessageId U)
  | markDone (store : ι) (key : MessageId U)
  | release (store : ι) (key : MessageId U)
  | advance (ms : ℕ)

/-- The clock and the database of a server. -/
structure RedisServer where
  now : ℕ
  db : Redis.Db

namespace ServerAction

variable {ι U : Type}

/-- The store that a call is made on, and the id it is about. -/
def target : ServerAction ι U → Option (ι × MessageId U)
  | .tryClaim i key | .markDone i key | .release i key => some (i, key)
  | .advance _ => none

/-- The call as its store sees it. -/
def onStore : ServerAction ι U → StoreAction U
  | .tryClaim _ key => .tryClaim key
  | .markDone _ key => .markDone key
  | .release _ key => .release key
  | .advance ms => .advance ms

/-- Time that passes, or a call whose store and id satisfy `P`. -/
def within (P : ι → MessageId U → Bool) (a : ServerAction ι U) : Bool :=
  a.target.all fun t => P t.1 t.2

/-- INTERNAL: whether an action is within a part is a matter of its key. -/
theorem within_of_target {P : ι → MessageId U → Bool} {a : ServerAction ι U}
    {t : ι × MessageId U} (h : a.target = some t) : a.within P = P t.1 t.2 := by
  unfold within
  rw [h]
  rfl

end ServerAction

section Server

variable {ι U : Type} [UuidCrate U] (stores : ι → RedisIdempotencyStore)
  (takes : ℕ → ℕ → Bool)

/-- What a call is answered with and the state of the server after it.  Expiries are taken as
`takes` says. -/
def serveAction (s : RedisServer) : ServerAction ι U → Option StoreOutcome × RedisServer
  | .tryClaim i key =>
    let served := ((stores i).storeOn takes).tryClaim s.now () key s.db
    (some (.tryClaim served.1), ⟨s.now, served.2⟩)
  | .markDone i key =>
    let served := ((stores i).storeOn takes).markDone s.now () key s.db
    (some (.markDone served.1), ⟨s.now, served.2⟩)
  | .release i key =>
    let served := ((stores i).storeOn takes).release s.now () key s.db
    (some (.release served.1), ⟨s.now, served.2⟩)
  | .advance ms => (none, ⟨s.now + ms, s.db⟩)

/-- The outcomes of the calls of a script that satisfy `P`, among all the others. -/
def outcomesAmong (P : ι → MessageId U → Bool) (now : ℕ) (db : Redis.Db)
    (script : List (ServerAction ι U)) : List StoreOutcome :=
  ((outputs (serveAction stores takes) ⟨now, db⟩ script).filter
    fun e => e.1.within P).filterMap Prod.snd

/-- The script of a store from which all calls but those that satisfy `P` are removed. -/
def purged (P : ι → MessageId U → Bool) (script : List (ServerAction ι U)) :
    List (StoreAction U) :=
  (script.filter fun a => a.within P).map ServerAction.onStore

end Server

/-! ## A command and its key -/

/-- The key of a command. -/
def commandKey : RedisCall → String
  | .claimScript key _ | .setPx key _ _ | .del key => key

/-- How a store reads the answer to a command. -/
def commandOutcome : (c : RedisCall) → c.Resp → StoreOutcome
  | .claimScript _ _, .ok outcome => .tryClaim (RedisIdempotencyStore.claimOutcome outcome)
  | .claimScript _ _, .error e => .tryClaim (.error (RedisIdempotencyStore.redisError e))
  | .setPx _ _ _, .ok () => .markDone (.ok ())
  | .setPx _ _ _, .error e => .markDone (.error (RedisIdempotencyStore.redisError e))
  | .del _, .ok () => .release (.ok ())
  | .del _, .error e => .release (.error (RedisIdempotencyStore.redisError e))

section Command

variable {takes : ℕ → ℕ → Bool} {now : ℕ} {db db' : Redis.Db}

/-- INTERNAL: what a command answers and leaves under its key is read off the key. -/
theorem serve_congr (takes : ℕ → ℕ → Bool) (now : ℕ) (c : RedisCall)
    (h : db (commandKey c) = db' (commandKey c)) :
    (Redis.serve takes now c db).1 = (Redis.serve takes now c db').1 ∧
      (Redis.serve takes now c db).2 (commandKey c) =
        (Redis.serve takes now c db').2 (commandKey c) := by
  cases c with
  | claimScript key ms =>
    have hget : Redis.get now db key = Redis.get now db' key := by
      unfold Redis.get
      rw [show db key = db' key from h]
    simp only [Redis.serve, hget]
    cases Redis.get now db' key with
    | none =>
      by_cases htakes : takes now ms = true
      · simp only [if_pos htakes, commandKey, Function.update_self, and_self]
      · simp only [if_neg htakes]
        exact ⟨trivial, h⟩
    | some current =>
      by_cases hdone : current = "done"
      · simp only [if_pos hdone]
        exact ⟨trivial, h⟩
      · simp only [if_neg hdone]
        exact ⟨trivial, h⟩
  | setPx key value ms =>
    simp only [Redis.serve]
    by_cases htakes : takes now ms = true
    · simp only [if_pos htakes, commandKey, Function.update_self, and_self]
    · simp only [if_neg htakes]
      exact ⟨trivial, h⟩
  | del key =>
    simp only [Redis.serve, Redis.del, commandKey, Function.update_self, and_self]

/-- INTERNAL: a command leaves the other keys alone. -/
theorem serve_frame (c : RedisCall) {key : String} (h : commandKey c ≠ key) :
    (Redis.serve takes now c db).2 key = db key := by
  have hupdate : ∀ e, Function.update db (commandKey c) e key = db key := fun e =>
    Function.update_of_ne h.symm e db
  cases c with
  | claimScript key' ms =>
    simp only [Redis.serve]
    cases Redis.get now db key' with
    | none =>
      by_cases htakes : takes now ms = true
      · simp only [if_pos htakes]
        exact hupdate _
      · simp only [if_neg htakes]
    | some current => by_cases hdone : current = "done" <;> simp only [hdone, if_true, if_false]
  | setPx key' value ms =>
    simp only [Redis.serve]
    by_cases htakes : takes now ms = true
    · simp only [if_pos htakes]
      exact hupdate _
    · simp only [if_neg htakes]
  | del key' => exact hupdate none

end Command

/-! ## The server by its keys -/

section Keys

variable {ι U : Type} [UuidCrate U] (stores : ι → RedisIdempotencyStore)
  (takes : ℕ → ℕ → Bool)

/-- The full key that a call is about. -/
def ServerAction.fullKey? (a : ServerAction ι U) : Option String :=
  a.target.map fun t => (stores t.1).fullKey t.2

/-- INTERNAL: a call is one command on its full key, and its outcome is read off the answer. -/
theorem serveAction_call {a : ServerAction ι U} {full : String}
    (h : a.fullKey? stores = some full) :
    ∃ c, commandKey c = full ∧ ∀ s, serveAction stores takes s a =
      (some (commandOutcome c (Redis.serve takes s.now c s.db).1),
        ⟨s.now, (Redis.serve takes s.now c s.db).2⟩) := by
  cases a with
  | tryClaim i key =>
    refine ⟨.claimScript ((stores i).fullKey key) (stores i).ttlMs, Option.some.inj h,
      fun s => ?_⟩
    simp only [serveAction, RedisIdempotencyStore.storeOn, RedisIdempotencyStore.tryClaimRequest,
      Prog.perform_bind, Prog.exec_call]
    cases (Redis.serve takes s.now (.claimScript ((stores i).fullKey key) (stores i).ttlMs)
      s.db).1 <;> rfl
  | markDone i key =>
    refine ⟨.setPx ((stores i).fullKey key) "done" (stores i).ttlMs, Option.some.inj h,
      fun s => ?_⟩
    simp only [serveAction, RedisIdempotencyStore.storeOn, RedisIdempotencyStore.markDoneRequest,
      Prog.perform_bind, Prog.exec_call]
    cases (Redis.serve takes s.now (.setPx ((stores i).fullKey key) "done" (stores i).ttlMs)
      s.db).1 <;> rfl
  | release i key =>
    refine ⟨.del ((stores i).fullKey key), Option.some.inj h, fun s => ?_⟩
    simp only [serveAction, RedisIdempotencyStore.storeOn, RedisIdempotencyStore.releaseRequest,
      Prog.perform_bind, Prog.exec_call]
    cases (Redis.serve takes s.now (.del ((stores i).fullKey key)) s.db).1 <;> rfl
  | advance ms => cases h

/-- **A server is a keyed machine**, by the full keys of its calls. -/
def serverKeyed : Keyed (serveAction (U := U) stores takes) String where
  Slot := Option Redis.Entry
  slot s := s.db
  Clock := ℕ
  clock s := s.now
  key a := a.fullKey? stores
  answer_congr a s t hnow hslots := by
    cases hkey : a.fullKey? stores with
    | none => cases a <;> first | rfl | cases hkey
    | some full =>
      obtain ⟨c, rfl, hserve⟩ := serveAction_call stores takes hkey
      obtain ⟨hanswer, -⟩ := serve_congr takes t.now c (hslots _ hkey)
      rw [hserve, hserve, hnow, hanswer]
  slot_congr a full s t hnow hkey hslot := by
    obtain ⟨c, rfl, hserve⟩ := serveAction_call stores takes hkey
    obtain ⟨-, hafter⟩ := serve_congr takes t.now c hslot
    rw [hserve, hserve, hnow]
    exact hafter
  slot_frame a key s hne := by
    cases hkey : a.fullKey? stores with
    | none => cases a <;> first | rfl | cases hkey
    | some full =>
      obtain ⟨c, rfl, hserve⟩ := serveAction_call stores takes hkey
      rw [hserve]
      exact serve_frame c fun heq => hne (by rw [hkey, heq])
  clock_congr a s t hnow := by
    cases a with
    | advance ms => exact congrArg (· + ms) hnow
    | _ => exact hnow
  clock_frame a full s hkey := by
    obtain ⟨c, rfl, hserve⟩ := serveAction_call stores takes hkey
    rw [hserve]

variable {stores takes}

/-- INTERNAL: calls are answered as if there were none on other full keys. -/
theorem outcomesAmong_eq {P : ι → MessageId U → Bool}
    (hother : ∀ i key j key', P i key = false → P j key' = true →
      (stores i).fullKey key ≠ (stores j).fullKey key')
    (now : ℕ) (db : Redis.Db) (script : List (ServerAction ι U)) :
    outcomesAmong stores takes P now db script =
      (outputs (serveAction stores takes) ⟨now, db⟩
        (script.filter fun a => a.within P)).filterMap Prod.snd := by
  unfold outcomesAmong
  rw [(serverKeyed stores takes).outputs_filter fun a => a.within P]
  intro b hb
  cases htarget : b.target with
  | none =>
    unfold ServerAction.within at hb
    rw [htarget] at hb
    cases hb
  | some t =>
    rw [ServerAction.within_of_target htarget] at hb
    have hfull : b.fullKey? stores = some ((stores t.1).fullKey t.2) := by
      unfold ServerAction.fullKey?
      rw [htarget]
      rfl
    refine ⟨(stores t.1).fullKey t.2, hfull, ?_⟩
    rintro ⟨a, ha, hkey⟩
    obtain ⟨t', htarget', heq⟩ := Option.map_eq_some_iff.mp hkey
    have hmine : P t'.1 t'.2 = true := (ServerAction.within_of_target htarget').symm.trans ha
    exact hother t.1 t.2 t'.1 t'.2 hb hmine heq.symm

/-- INTERNAL: a script of calls on one store is answered as that store answers it. -/
theorem outcomes_of_oneStore {i : ι} (now : ℕ) (db : Redis.Db) (script : List (ServerAction ι U))
    (h : ∀ a ∈ script, ∀ t, a.target = some t → t.1 = i) :
    (outputs (serveAction stores takes) ⟨now, db⟩ script).filterMap Prod.snd =
      outcomes ((stores i).storeOn takes) () now db (script.map ServerAction.onStore) := by
  induction script generalizing now db with
  | nil => rfl
  | cons a script ih =>
    have hrest : ∀ b ∈ script, ∀ t, b.target = some t → t.1 = i :=
      fun b hb => h b (List.mem_cons_of_mem a hb)
    have ha := h a List.mem_cons_self
    cases a with
    | tryClaim j key =>
      obtain rfl : j = i := ha _ rfl
      exact congrArg (List.cons _) (ih now _ hrest)
    | markDone j key =>
      obtain rfl : j = i := ha _ rfl
      exact congrArg (List.cons _) (ih now _ hrest)
    | release j key =>
      obtain rfl : j = i := ha _ rfl
      exact congrArg (List.cons _) (ih now _ hrest)
    | advance ms => exact ih (now + ms) db hrest

end Keys

end EventBus.Interface
