import Mathlib.Data.Nat.Notation
import Mathlib.Logic.Function.Basic

/-!
# Scripts on a server

A script is a block of statements over local variables and lists of arguments.  It has no loops:
it tests, calls what its `Host` serves, and returns.  A call that the host refuses ends the script,
and so does a return, wherever it stands.

`Block.Ends` is what a script ends with and the state it leaves, and there is a rule for each
statement, by which a script is followed from its first statement on.
-/

set_option autoImplicit false

namespace EventBus.Lib.Script

/-- What a variable can be. -/
inductive Value where
  | nil
  | bool (b : Bool)
  | str (s : String)
  deriving DecidableEq

/-- Everything but `nil` and `false` counts as true. -/
def Value.truthy : Value → Bool
  | .nil => false
  | .bool b => b
  | .str _ => true

inductive Expr where
  | value (v : Value)
  | var (x : String)
  /-- An element of a list of arguments, counted from one. -/
  | arg (list : String) (n : ℕ)
  | eq (a b : Expr)

/-- What a script can see: its variables and its lists of arguments. -/
structure Scope where
  vars : String → Value
  args : String → List Value

namespace Scope

/-- The scope a script starts in. -/
def start (args : String → List Value) : Scope := ⟨fun _ => .nil, args⟩

def set (scope : Scope) (x : String) (v : Value) : Scope :=
  { scope with vars := Function.update scope.vars x v }

/-- INTERNAL: a variable that is set has its value. -/
@[simp] theorem set_self (scope : Scope) (x : String) (v : Value) : (scope.set x v).vars x = v :=
  Function.update_self ..

end Scope

namespace Expr

variable (scope : Scope)

def eval : Expr → Value
  | .value v => v
  | .var x => scope.vars x
  | .arg list n =>
    match n with
    | 0 => .nil
    | n + 1 => (scope.args list).getD n .nil
  | .eq a b => .bool (decide (a.eval = b.eval))

/-- INTERNAL: a value evaluates to itself. -/
@[simp] theorem eval_value (v : Value) : (Expr.value v).eval scope = v := rfl

/-- INTERNAL: a variable evaluates to its value. -/
@[simp] theorem eval_var (x : String) : (Expr.var x).eval scope = scope.vars x := rfl

/-- INTERNAL: a comparison holds when both sides evaluate alike. -/
@[simp] theorem truthy_eq (a b : Expr) :
    ((Expr.eq a b).eval scope).truthy = decide (a.eval scope = b.eval scope) := rfl

end Expr

/-- Who serves the calls of a script: a call is answered or refused. -/
abbrev Host (Err σ : Type) := String → List Value → σ → Except Err Value × σ

/-- A statement and those that follow it. -/
inductive Block where
  | done
  | ret (e : Expr)
  /-- `local x = f(args)` -/
  | bind (x f : String) (args : List Expr) (rest : Block)
  /-- `f(args)` -/
  | call (f : String) (args : List Expr) (rest : Block)
  /-- `if c then thn else els end` -/
  | ite (c : Expr) (thn els rest : Block)

namespace Block

variable {Err σ : Type} (host : Host Err σ)

/-- What a block returns, if anything, and the state it leaves. -/
def exec : Block → Scope → σ → Except Err (Option Value) × σ
  | .done, _, s => (.ok none, s)
  | .ret e, scope, s => (.ok (some (e.eval scope)), s)
  | .bind x f args rest, scope, s =>
    match host f (args.map (Expr.eval scope)) s with
    | (.error e, s) => (.error e, s)
    | (.ok v, s) => rest.exec (scope.set x v) s
  | .call f args rest, scope, s =>
    match host f (args.map (Expr.eval scope)) s with
    | (.error e, s) => (.error e, s)
    | (.ok _, s) => rest.exec scope s
  | .ite c thn els rest, scope, s =>
    match if (c.eval scope).truthy then thn.exec scope s else els.exec scope s with
    | (.ok none, s) => rest.exec scope s
    | ended => ended

variable (Q : Except Err (Option Value) → σ → Prop) (scope : Scope) (s : σ)

/-- The block ends with a result and in a state of which `Q` holds. -/
def Ends (b : Block) : Prop := Q (b.exec host scope s).1 (b.exec host scope s).2

/-- What is to hold after a statement: it has ended the script, or the rest goes on. -/
def Then (rest : Block) : Except Err (Option Value) → σ → Prop
  | .ok none, s => rest.Ends host Q scope s
  | .ok (some v), s => Q (.ok (some v)) s
  | .error e, s => Q (.error e) s

/-- INTERNAL: a block at its end returns nothing. -/
@[simp] theorem ends_done : done.Ends host Q scope s ↔ Q (.ok none) s := Iff.rfl

/-- INTERNAL: a block that returns ends with its result. -/
@[simp] theorem ends_ret (e : Expr) :
    (ret e).Ends host Q scope s ↔ Q (.ok (some (e.eval scope))) s := Iff.rfl

variable {host Q scope s}

/-- **The rule for a call that is answered.** -/
theorem ends_bind {x f : String} {args : List Expr} {rest : Block} {v : Value} {s' : σ}
    (h : host f (args.map (Expr.eval scope)) s = (.ok v, s')) :
    (bind x f args rest).Ends host Q scope s ↔ rest.Ends host Q (scope.set x v) s' := by
  simp only [Ends, exec, h]

/-- INTERNAL: a call that is answered is followed by the rest. -/
theorem ends_call {f : String} {args : List Expr} {rest : Block} {v : Value} {s' : σ}
    (h : host f (args.map (Expr.eval scope)) s = (.ok v, s')) :
    (call f args rest).Ends host Q scope s ↔ rest.Ends host Q scope s' := by
  simp only [Ends, exec, h]

/-- **The rule for a call that is refused.** -/
theorem ends_call_refused {f : String} {args : List Expr} {rest : Block} {e : Err} {s' : σ}
    (h : host f (args.map (Expr.eval scope)) s = (.error e, s')) :
    (call f args rest).Ends host Q scope s ↔ Q (.error e) s' := by
  simp only [Ends, exec, h]

/-- INTERNAL: what follows a branch. -/
theorem then_iff (rest : Block) (ended : Except Err (Option Value) × σ) :
    Then host Q scope rest ended.1 ended.2 ↔
      Q (match ended with
        | (.ok none, s) => rest.exec host scope s
        | ended => ended).1
      (match ended with
        | (.ok none, s) => rest.exec host scope s
        | ended => ended).2 := by
  obtain ⟨result, s'⟩ := ended
  rcases result with e | _ | v <;> exact Iff.rfl

/-- **The rule for a test.** -/
theorem ends_ite {c : Expr} {thn els rest : Block} : (ite c thn els rest).Ends host Q scope s ↔
    if (c.eval scope).truthy then thn.Ends host (Then host Q scope rest) scope s
    else els.Ends host (Then host Q scope rest) scope s := by
  by_cases hc : (c.eval scope).truthy = true
  · rw [if_pos hc]
    simp only [Ends, exec, if_pos hc]
    exact (then_iff rest (thn.exec host scope s)).symm
  · rw [if_neg hc]
    simp only [Ends, exec, if_neg hc]
    exact (then_iff rest (els.exec host scope s)).symm

end Block

end EventBus.Lib.Script
