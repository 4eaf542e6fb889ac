import Mathlib.Control.Monad.Basic
import Mathlib.Logic.Function.Basic
import Mathlib.Data.Nat.Notation
import Mathlib.Data.Int.Notation

/-!
# The types every part of the bus speaks in

The vocabulary of `bus-core`: message ids, errors, the outcome of a claim and the
context a handler is given.  Ids wrap the ids of the `uuid` crate, which is not part of
the repository; `UuidCrate` lists the operations the repository calls and the one law it
relies on.

Durations are counted in nanoseconds, clocks in milliseconds.
-/

set_option autoImplicit false

namespace EventBus.Model

/-- A byte string. -/
abbrev Bytes := List UInt8

/-- A length of time in nanoseconds. -/
abbrev Duration := ℕ

def Duration.fromMillis (ms : ℕ) : Duration := ms * 1000000

def Duration.fromSecs (secs : ℕ) : Duration := secs * 1000000000

def Duration.asMillis (d : Duration) : ℕ := d / 1000000

/-- `Duration::MAX`; a product that is longer is a panic. -/
def durationMax : Duration := (UInt64.size - 1) * 1000000000 + 999999999

/-- `i64::MAX`. -/
def i64Max : ℕ := 9223372036854775807

/-- `i as u64` for a signed 64-bit `i`: two's complement. -/
def asU64 (i : ℤ) : ℕ := (i % UInt64.size).toNat

/-- The operations of the `uuid` crate that the repository calls.  `toStr` is the
hyphenated form; different ids print differently. -/
class UuidCrate (U : Type) where
  parseStr : String → Option U
  /-- `Uuid::new_v5` in the namespace `NAMESPACE_OID`. -/
  newV5 : String → U
  toStr : U → String
  toStr_injective : Function.Injective toStr

/-- Newtype wrapper used as the event bus message identifier.
SRC: id.rs:5-27 -/
structure MessageId (U : Type) where
  uuid : U
  deriving DecidableEq

namespace MessageId

variable {U : Type} [UuidCrate U]

/-- SRC: id.rs:38-44 -/
def fromStr (value : String) : Option (MessageId U) :=
  (UuidCrate.parseStr value).map MessageId.mk

/-- SRC: id.rs:32-36 -/
def toString (id : MessageId U) : String :=
  UuidCrate.toStr id.uuid

/-- INTERNAL: an id can be told from its text.
SRC: id.rs:32-44 -/
theorem toString_injective : Function.Injective (toString (U := U)) := by
  rintro ⟨a⟩ ⟨b⟩ h
  exact congrArg MessageId.mk (UuidCrate.toStr_injective h)

end MessageId

/-- Whether a string is a UUID in hyphenated form: groups of 8, 4, 4, 4 and 12 lower-case
hexadecimal digits. -/
def isHyphenated (value : String) : Bool :=
  let isDigit (c : Char) : Bool := c.isDigit || (decide ('a' ≤ c) && decide (c ≤ 'f'))
  let groups := value.toList.splitOn '-'
  decide (groups.map List.length = [8, 4, 4, 4, 12]) && groups.all fun g => g.all isDigit

/-- INTERNAL: the nil id is a UUID. -/
theorem isHyphenated_nil : isHyphenated "00000000-0000-0000-0000-000000000000" = true := by
  decide

/-- UUIDs by their hyphenated form, for runs on concrete messages that carry their id in a
header.  Hashing is left out: `newV5` is constant here. -/
abbrev HyphenatedUuid := {value : String // isHyphenated value = true}

instance : UuidCrate HyphenatedUuid where
  parseStr value := if h : isHyphenated value = true then some ⟨value, h⟩ else none
  newV5 _ := ⟨"00000000-0000-0000-0000-000000000000", isHyphenated_nil⟩
  toStr uuid := uuid.val
  toStr_injective _ _ h := Subtype.ext h

/-- Errors returned by handler implementations.
SRC: error.rs:3-13 -/
inductive HandlerError where
  | transient (reason : String)
  | permanent (reason : String)
  deriving DecidableEq

/-- Top-level error type for event bus operations.
SRC: error.rs:15-32 -/
inductive BusError where
  | nats (message : String)
  | publish (message : String)
  | idempotency (message : String)
  | serde (message : String)
  | handler (error : HandlerError)
  deriving DecidableEq

/-- SRC: error.rs:5-13 -/
def HandlerError.display : HandlerError → String
  | .transient reason => "transient: " ++ reason
  | .permanent reason => "permanent: " ++ reason

/-- SRC: error.rs:17-32 -/
def BusError.display : BusError → String
  | .nats message => "nats: " ++ message
  | .publish message => "publish: " ++ message
  | .idempotency message => "idempotency: " ++ message
  | .serde message => "serialization: " ++ message
  | .handler error => "handler: " ++ error.display

/-- Result of a `tryClaim` call.
SRC: idempotency.rs:5-18 -/
inductive ClaimOutcome where
  | claimed
  | alreadyPending
  | alreadyDone
  deriving DecidableEq

/-- Context passed to every handler invocation.
SRC: handler.rs:5-22 -/
structure HandlerCtx (U : Type) where
  msgId : MessageId U
  streamSeq : ℕ
  delivered : ℕ
  subject : String

/-- The header block of a message, in the order of insertion. -/
abbrev HeaderMap := List (String × String)

/-- `HeaderMap::insert`: the value replaces any the name had. -/
def HeaderMap.insert (headers : HeaderMap) (name value : String) : HeaderMap :=
  headers.filter (fun h => h.1 ≠ name) ++ [(name, value)]

/-- `HeaderMap::get`. -/
def HeaderMap.get (headers : HeaderMap) (name : String) : Option String :=
  (headers.find? fun h => h.1 = name).map Prod.snd

end EventBus.Model
