import Mathlib.Data.Option.Basic
import Mathlib.Data.Nat.Notation

/-!
# Programs that await the answers of calls

A program over a signature (`Call`, and for each call the type `Resp c` of its answers)
has either returned or is at a call and continues with whatever it is answered.  It is
the sequential text of an asynchronous function: every `call` is a place where the
function is suspended, and what it suspends on is visible without running it.

`Prog.follow` runs a program on its own against a fixed answer for every call and
records the calls in order; `Prog.exec` runs it against a server with a state, and
`Prog.amid` against one that others use as well.  Programs that run side by side are the
subject of `EventBus.Lib.Pool`.
-/

set_option autoImplicit false

namespace EventBus.Lib

/-- A program over the calls `Call` that returns an `α`. -/
inductive Prog (Call : Type) (Resp : Call → Type) (α : Type) : Type where
  | pure (a : α) : Prog Call Resp α
  | call (c : Call) (k : Resp c → Prog Call Resp α) : Prog Call Resp α

namespace Prog

variable {Call : Type} {Resp : Call → Type} {α β γ : Type}

/-- Sequencing. -/
def bind : Prog Call Resp α → (α → Prog Call Resp β) → Prog Call Resp β
  | .pure a, f => f a
  | .call c k, f => .call c fun r => (k r).bind f

/-- The program that makes one call and returns its answer. -/
def perform (c : Call) : Prog Call Resp (Resp c) :=
  .call c .pure

instance : Monad (Prog Call Resp) where
  pure := .pure
  bind := bind

/-- INTERNAL: the one way to return. -/
@[simp] theorem pure_eq (a : α) : (Pure.pure a : Prog Call Resp α) = .pure a := rfl

/-- INTERNAL: a program that returns at once goes on with what follows. -/
@[simp] theorem pure_bind' (a : α) (f : α → Prog Call Resp β) :
    (.pure a >>= f : Prog Call Resp β) = f a := rfl

/-- INTERNAL: a program that makes a call goes on after it. -/
@[simp] theorem call_bind (c : Call) (k : Resp c → Prog Call Resp α)
    (f : α → Prog Call Resp β) :
    (.call c k >>= f : Prog Call Resp β) = .call c fun r => k r >>= f := rfl

/-- INTERNAL: a call, and what follows. -/
@[simp] theorem perform_bind (c : Call) (f : Resp c → Prog Call Resp β) :
    (perform c >>= f : Prog Call Resp β) = .call c f := rfl

/-- The call a program is suspended on, if it has not returned. -/
def head : Prog Call Resp α → Option Call
  | .pure _ => none
  | .call c _ => some c

/-- INTERNAL: a program that returns makes no call. -/
@[simp] theorem head_pure (a : α) : (.pure a : Prog Call Resp α).head = none := rfl

/-- INTERNAL: a program is about to make its first call. -/
@[simp] theorem head_call (c : Call) (k : Resp c → Prog Call Resp α) :
    (Prog.call c k).head = some c := rfl

/-- The call a program is suspended on together with its continuation. -/
def view : Prog Call Resp α → Option ((c : Call) × (Resp c → Prog Call Resp α))
  | .pure _ => none
  | .call c k => some ⟨c, k⟩

/-- INTERNAL: nothing is to be seen of a program that returns. -/
@[simp] theorem view_pure (a : α) : (.pure a : Prog Call Resp α).view = none := rfl

/-- INTERNAL: of a program that makes a call, the call and the rest are to be seen. -/
@[simp] theorem view_call (c : Call) (k : Resp c → Prog Call Resp α) :
    (Prog.call c k).view = some ⟨c, k⟩ := rfl

/-- The calls a program makes, in order, when every call `c` is answered `ans c`. -/
def follow (ans : (c : Call) → Resp c) : Prog Call Resp α → List Call
  | .pure _ => []
  | .call c k => c :: (k (ans c)).follow ans

/-- INTERNAL: a program that returns makes no calls. -/
@[simp] theorem follow_pure (ans : (c : Call) → Resp c) (a : α) :
    (.pure a : Prog Call Resp α).follow ans = [] := rfl

/-- INTERNAL: a program makes its first call, and then those of the rest. -/
@[simp] theorem follow_call (ans : (c : Call) → Resp c) (c : Call)
    (k : Resp c → Prog Call Resp α) :
    (Prog.call c k).follow ans = c :: (k (ans c)).follow ans := rfl

/-- What a program returns when a server answers its calls, and the state it leaves. -/
def exec {σ : Type} (serve : (c : Call) → σ → Resp c × σ) : Prog Call Resp α → σ → α × σ
  | .pure a, s => (a, s)
  | .call c k, s => (k (serve c s).1).exec serve (serve c s).2

section Exec

variable {σ : Type} (serve : (c : Call) → σ → Resp c × σ)

/-- INTERNAL: a program that returns changes nothing. -/
@[simp] theorem exec_pure (a : α) (s : σ) : (.pure a : Prog Call Resp α).exec serve s = (a, s) :=
  rfl

/-- INTERNAL: a program has its first call served, and goes on. -/
@[simp] theorem exec_call (c : Call) (k : Resp c → Prog Call Resp α) (s : σ) :
    (Prog.call c k).exec serve s = (k (serve c s).1).exec serve (serve c s).2 := rfl

end Exec

end Prog

/-- A call that was served: the state it came to, its answer and the state it left. -/
structure Exchange (Call : Type) (Resp : Call → Type) (σ : Type) where
  call : Call
  came : σ
  answer : Resp call
  left : σ

namespace Prog

variable {Call : Type} {Resp : Call → Type} {α σ : Type}

/-- The exchanges of a program with a server, and the state it leaves.  Before call number `j`
others do `others j` to the state. -/
def amid (serve : ℕ → (c : Call) → σ → Resp c × σ) (others : ℕ → σ → σ) :
    Prog Call Resp α → ℕ → σ → List (Exchange Call Resp σ) × σ
  | .pure _, _, s => ([], s)
  | .call c k, j, s =>
    let came := others j s
    let served := serve j c came
    let rest := (k served.1).amid serve others (j + 1) served.2
    (⟨c, came, served.1, served.2⟩ :: rest.1, rest.2)

variable {serve : ℕ → (c : Call) → σ → Resp c × σ} {others : ℕ → σ → σ}

/-- INTERNAL: a program that is suspended on a call has it served first. -/
theorem amid_of_view {p : Prog Call Resp α} {c : Call} {k : Resp c → Prog Call Resp α}
    (h : p.view = some ⟨c, k⟩) (j : ℕ) (s : σ) :
    p.amid serve others j s =
      (⟨c, others j s, (serve j c (others j s)).1, (serve j c (others j s)).2⟩ ::
          ((k (serve j c (others j s)).1).amid serve others (j + 1)
            (serve j c (others j s)).2).1,
        ((k (serve j c (others j s)).1).amid serve others (j + 1)
          (serve j c (others j s)).2).2) := by
  cases p with
  | pure a => cases h
  | call c' k' =>
    cases h
    rfl

end Prog

end EventBus.Lib
