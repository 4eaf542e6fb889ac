import EventBus.Interface.SharedServer
import EventBus.Lib.FormatString

/-!
# Stores with prefixes of their own

Redis stores that share a server are told apart by their prefixes.  The full key of an id is
the prefix and the id with nothing between them, so that one prefix may well begin with
another; but ids are 36 characters long, and the two parts of a full key are found again by
counting from its end (`fullKey_inj`).

So the calls of a store, and those about one id, are on full keys of their own
(`prefixes_isolate`).
-/

set_option autoImplicit false

namespace EventBus.Analysis

open EventBus.Model EventBus.Lib EventBus.Interface

variable {ι U : Type} [UuidCrate U]

/-- INTERNAL: a full key has one prefix and one id. -/
theorem fullKey_inj (hlength : ∀ key : MessageId U, key.toString.length = 36)
    {redis redis' : RedisIdempotencyStore} {key key' : MessageId U}
    (h : redis.fullKey key = redis'.fullKey key') :
    redis.keyPrefix = redis'.keyPrefix ∧ key = key' := by
  have hlists : redis.keyPrefix.toList ++ key.toString.toList =
      redis'.keyPrefix.toList ++ key'.toString.toList := by
    rw [← String.toList_append, ← String.toList_append]
    exact congrArg String.toList h
  have hsame : key.toString.toList.length = key'.toString.toList.length := by
    rw [String.length_toList, String.length_toList, hlength, hlength]
  obtain ⟨hparts, hkey⟩ := List.append_inj' hlists hsame
  exact ⟨String.toList_inj.mp hparts, MessageId.toString_injective (String.toList_inj.mp hkey)⟩

/-- INTERNAL: calls on one store are answered as if there were no others, whatever else they
have in common. -/
theorem outcomes_alone (hlength : ∀ key : MessageId U, key.toString.length = 36)
    {stores : ι → RedisIdempotencyStore}
    (hdistinct : ∀ i j, i ≠ j → (stores i).keyPrefix ≠ (stores j).keyPrefix)
    {takes : ℕ → ℕ → Bool} {i : ι} {P : ι → MessageId U → Bool}
    (hP : ∀ j key, P j key = true → j = i) (now : ℕ) (db : Redis.Db)
    (script : List (ServerAction ι U)) :
    outcomesAmong stores takes P now db script =
      outcomes ((stores i).storeOn takes) () now db (purged P script) := by
  have hother : ∀ j key j' key', P j key = false → P j' key' = true →
      (stores j).fullKey key ≠ (stores j').fullKey key' := by
    intro j key j' key' hout hin hfull
    obtain ⟨hsame, rfl⟩ := fullKey_inj hlength hfull
    have hjj' : j = j' := by
      by_contra hne
      exact hdistinct j j' hne hsame
    rw [hjj', hin] at hout
    cases hout
  rw [outcomesAmong_eq hother]
  apply outcomes_of_oneStore
  intro a ha t htarget
  have hin := (List.mem_filter.mp ha).2
  rw [ServerAction.within_of_target htarget] at hin
  exact hP t.1 t.2 hin

/-! ## The result -/

section

variable [DecidableEq ι] [DecidableEq U]

/-- **Prefixes isolate stores.**  Take any number of stores on one server, with prefixes that
differ, and any interleaving of their calls, about any ids, with the clock going on between
them.  Each store answers its calls as it does when the calls on the other stores are removed;
and calls about one id are answered as when those about all other ids are removed too.
SRC: redis.rs:70-122 -/
theorem prefixes_isolate (hlength : ∀ key : MessageId U, key.toString.length = 36)
    (stores : ι → RedisIdempotencyStore)
    (hdistinct : ∀ i j, i ≠ j → (stores i).keyPrefix ≠ (stores j).keyPrefix)
    (takes : ℕ → ℕ → Bool) (now : ℕ) (db : Redis.Db) (script : List (ServerAction ι U)) :
    (∀ i, outcomesAmong stores takes (fun j _ => decide (j = i)) now db script =
      outcomes ((stores i).storeOn takes) () now db
        (purged (fun j _ => decide (j = i)) script)) ∧
    ∀ i key, outcomesAmong stores takes (fun j k => decide (j = i ∧ k = key)) now db script =
      outcomes ((stores i).storeOn takes) () now db
        (purged (fun j k => decide (j = i ∧ k = key)) script) := by
  constructor
  · intro i
    apply outcomes_alone hlength hdistinct
    intro j key hj
    exact of_decide_eq_true hj
  · intro i key
    apply outcomes_alone hlength hdistinct
    intro j key' hj
    exact (of_decide_eq_true hj).1

end

/-! ## Two stores, one prefix inside the other -/

/-- INTERNAL: a UUID in hyphenated form has 36 characters. -/
theorem length_hyphenated (key : MessageId HyphenatedUuid) : key.toString.length = 36 := by
  obtain ⟨⟨value, hvalue⟩⟩ := key
  show value.length = 36
  have hgroups : (value.toList.splitOn '-').map List.length = [8, 4, 4, 4, 12] := by
    unfold isHyphenated at hvalue
    rw [Bool.and_eq_true] at hvalue
    exact of_decide_eq_true hvalue.1
  have hcount := congrArg List.length hgroups
  rw [List.length_map] at hcount
  have hsum := FormatString.length_flatten_splitOn '-' value.toList
  rw [List.length_flatten, hgroups, hcount, String.length_toList] at hsum
  change 32 + 5 = value.length + 1 at hsum
  omega

/-- The two stores of a server: the prefix of the first begins that of the second. -/
def nestedStores (second : Bool) : RedisIdempotencyStore where
  keyPrefix := if second then "eventbus:processed:" else "eventbus:"
  ttlMs := 1000

/-- The nil id. -/
def nilKey : MessageId HyphenatedUuid :=
  ⟨⟨"00000000-0000-0000-0000-000000000000", isHyphenated_nil⟩⟩

/-- Both stores claim the same id, the second marks it done, and the first claims it again. -/
def nestedScript : List (ServerAction Bool HyphenatedUuid) :=
  [.tryClaim false nilKey, .tryClaim true nilKey, .markDone true nilKey, .advance 1,
    .tryClaim false nilKey, .tryClaim true nilKey]

/-- INTERNAL: the result on two prefixes, one in the other. -/
theorem prefixes_isolate_nested :
    outcomesAmong nestedStores Redis.validPx (fun j _ => decide (j = false)) 0 (fun _ => none)
        nestedScript =
      [.tryClaim (.ok .claimed), .tryClaim (.ok .alreadyPending)] := by
  have hdistinct : ∀ i j, i ≠ j → (nestedStores i).keyPrefix ≠ (nestedStores j).keyPrefix := by
    decide
  have hisolated := prefixes_isolate length_hyphenated nestedStores hdistinct Redis.validPx 0
    (fun _ => none) nestedScript
  exact (hisolated.1 false).trans rfl

end EventBus.Analysis
