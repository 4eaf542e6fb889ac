import EventBus.Lib.Script
import EventBus.Model.RedisCommands

/-!
# The claim script

`EventBus.Model.Redis` takes the claim for one command of the server.  Here it is the script the
source sends, statement by statement, and `Redis.evalScript` is a server that runs scripts: the
commands they call are its own, on values as scripts see them.  The expiry reaches the server as
text.

`evalScript_claimScript` is what the script does, and `scriptedStore_eq` that the store on such a
server is the store the other results are about.
-/

set_option autoImplicit false

namespace EventBus.Model

open EventBus.Lib (Prog)
open EventBus.Lib.Script

/-- `CLAIM_LUA`.
SRC: redis.rs:11-21 -/
def claimScript : Block :=
  .bind "current" "redis.call" [.value (.str "GET"), .arg "KEYS" 1] <|
  .ite (.eq (.var "current") (.value (.bool false)))
    (.call "redis.call" [.value (.str "SET"), .arg "KEYS" 1, .value (.str "pending"),
        .value (.str "PX"), .arg "ARGV" 1] <|
      .ret (.value (.str "claimed")))
    (.ite (.eq (.var "current") (.value (.str "done")))
      (.ret (.value (.str "already_done")))
      (.ret (.value (.str "already_pending")))
      .done)
    .done

namespace Redis

def errNotInteger : String := "ERR value is not an integer or out of range"

def errUnknown : String := "ERR unknown command or wrong arguments"

/-- A time in text, in decimal and as it is printed. -/
def parseMs (text : String) : Option ℕ :=
  let ms := Nat.ofDigitChars 10 text.toList 0
  if ms.repr = text then some ms else none

/-- INTERNAL: a number that is printed is read back. -/
@[simp] theorem parseMs_repr (ms : ℕ) : parseMs ms.repr = some ms := by
  simp [parseMs, Nat.toList_repr, Nat.ofDigitChars_ten_toDigits]

/-- A reply as scripts see it: what is not there is `false`. -/
def reply : Option String → Value
  | none => .bool false
  | some value => .str value

/-- The commands that scripts call, at the time `now`. -/
def call (now : ℕ) : Host String Db
  | "redis.call", [.str "GET", .str key], db => (.ok (reply (get now db key)), db)
  | "redis.call", [.str "SET", .str key, .str value, .str "PX", .str ms], db =>
    match parseMs ms with
    | none => (.error errNotInteger, db)
    | some ms =>
      match setPx now db key value ms with
      | (.ok (), db) => (.ok (.str "OK"), db)
      | (.error e, db) => (.error e, db)
  | "redis.call", [.str "DEL", .str key], db => (.ok .nil, del db key)
  | _, _, db => (.error errUnknown, db)

/-- The lists of arguments of a script. -/
def scriptArgs (keys argv : List String) : String → List Value
  | "KEYS" => keys.map .str
  | "ARGV" => argv.map .str
  | _ => []

/-- Running a script for a caller that expects a string. -/
def evalScript (now : ℕ) (script : Block) (keys argv : List String) (db : Db) :
    Except String String × Db :=
  match script.exec (call now) (.start (scriptArgs keys argv)) db with
  | (.ok (some (.str answer)), db) => (.ok answer, db)
  | (.ok _, db) => (.error "response was of incompatible type", db)
  | (.error e, db) => (.error e, db)

/-! ## What the script does -/

/-- What the claim of `EventBus.Model.Redis` ends with, as a script does. -/
def EndsAs (claimed : Except String String × Db) (result : Except String (Option Value)) (db : Db) :
    Prop :=
  result = claimed.1.map (fun answer => some (.str answer)) ∧ db = claimed.2

section

variable (now : ℕ) (db : Db) (key : String) (ms : ℕ)

/-- INTERNAL: `GET` reads the value under a key.
SRC: redis.rs:11-21 -/
theorem call_get : call now "redis.call" [.str "GET", .str key] db =
    (.ok (reply (get now db key)), db) := rfl

/-- INTERNAL: the `SET` of the script. -/
theorem call_set (value : String) :
    call now "redis.call" [.str "SET", .str key, .str value, .str "PX", .str ms.repr] db =
      ((setPx now db key value ms).1.map fun _ => Value.str "OK",
        (setPx now db key value ms).2) := by
  simp only [call, parseMs_repr]
  rcases setPx now db key value ms with ⟨e | _, db'⟩ <;> rfl

/-- **The script, followed to its end.** -/
theorem claimScript_ends : claimScript.Ends (call now) (EndsAs (claimLua now db key ms))
    (.start (scriptArgs [key] [ms.repr])) db := by
  refine (Block.ends_bind (call_get now db key)).mpr ?_
  rw [Block.ends_ite]
  unfold claimLua
  cases hget : get now db key with
  | none =>
    -- the key is not there, so the script sets it
    simp only [Expr.truthy_eq, Expr.eval_var, Scope.set_self, reply, Expr.eval_value, decide_true,
      if_true]
    have hset := call_set now db key ms "pending"
    rcases hpx : setPx now db key "pending" ms with ⟨e | _, db'⟩ <;> rw [hpx] at hset
    · exact (Block.ends_call_refused hset).mpr ⟨rfl, rfl⟩
    · exact (Block.ends_call hset).mpr ⟨rfl, rfl⟩
  | some current =>
    simp only [Expr.truthy_eq, Expr.eval_var, Scope.set_self, reply, Expr.eval_value, reduceCtorEq,
      decide_false, Bool.false_eq_true, if_false]
    rw [Block.ends_ite]
    by_cases hdone : current = "done"
    · simp only [hdone, Expr.truthy_eq, Expr.eval_var, Scope.set_self, Expr.eval_value,
        decide_true, if_true]
      exact ⟨rfl, rfl⟩
    · have hvalue : ¬ Value.str current = Value.str "done" := fun h => hdone (Value.str.inj h)
      simp only [hdone, Expr.truthy_eq, Expr.eval_var, Scope.set_self, Expr.eval_value, hvalue,
        decide_false, Bool.false_eq_true, if_false]
      exact ⟨rfl, rfl⟩

/-- **The script is the claim.** -/
theorem evalScript_claimScript :
    evalScript now claimScript [key] [ms.repr] db = claimLua now db key ms := by
  obtain ⟨hresult, hdb⟩ := claimScript_ends now db key ms
  unfold evalScript
  rcases hended : claimScript.exec (call now) (.start (scriptArgs [key] [ms.repr])) db with
    ⟨result, after⟩
  rw [hended] at hresult hdb
  rcases hclaimed : claimLua now db key ms with ⟨e | answer, db'⟩ <;>
    rw [hclaimed] at hresult hdb <;> simp only at hresult hdb <;> subst hresult hdb <;> rfl

end

/-- Serving a command on a server that runs the script. -/
def serveScripts (now : ℕ) : (c : RedisCall) → Db → c.Resp × Db
  | .claimScript key ms, db => evalScript now claimScript [key] [ms.repr] db
  | .setPx key value ms, db => serve validPx now (.setPx key value ms) db
  | .del key, db => serve validPx now (.del key) db

/-- INTERNAL: a server that runs the script is one that makes claims.
SRC: redis.rs:11-21 -/
theorem serveScripts_eq (now : ℕ) : serveScripts now = serve validPx now := by
  funext c db
  cases c with
  | claimScript key ms =>
    show evalScript now claimScript [key] [ms.repr] db = serve validPx now (.claimScript key ms) db
    rw [evalScript_claimScript]
    simp only [claimLua, serve, setPx]
    cases get now db key with
    | none => cases validPx now ms <;> rfl
    | some current => rfl
  | setPx key value ms => rfl
  | del key => rfl

end Redis

namespace RedisIdempotencyStore

variable {U : Type} [UuidCrate U] (self : RedisIdempotencyStore)

/-- The store on a server that runs the script.
SRC: redis.rs:74-121 -/
def scriptedStore : Store U where
  State := Redis.Db
  Choice := Unit
  tryClaim now _ key db := (self.tryClaimRequest key).exec (Redis.serveScripts now) db
  markDone now _ key db := (self.markDoneRequest key).exec (Redis.serveScripts now) db
  release now _ key db := (self.releaseRequest key).exec (Redis.serveScripts now) db
  tick _ db := db

/-- **The store on a server that runs the script is the store.** -/
theorem scriptedStore_eq : self.scriptedStore (U := U) = self.store := by
  rw [← storeOn_validPx]
  simp only [scriptedStore, storeOn, Redis.serveScripts_eq]

end RedisIdempotencyStore

end EventBus.Model
