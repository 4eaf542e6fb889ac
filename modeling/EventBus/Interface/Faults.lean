import EventBus.Interface.Effects

/-!
# Conditions on runs

What a result may assume of a run, as conditions on its steps: that no entry of the store
expires, that the store and the network work, that nobody is aborted.  All of them can
be read off the calls of the workers, so they mean the same of programs and of points.
-/

set_option autoImplicit false

namespace EventBus.Interface

open EventBus.Model EventBus.Lib

variable {U E : Type} {Γ : Deployment U E}

/-- The status of a key. -/
abbrev statusOf (C : Γ.store.Contract) {P : Type} (s : State (world Γ) P) (key : MessageId U) :
    KeyStatus :=
  C.status s.shared.now s.shared.store key

/-- Time passes without an entry expiring. -/
def NoExpiry (C : Γ.store.Contract) {P : Type} (s : State (world Γ) P) (a : Action (world Γ))
    (s' : State (world Γ) P) : Prop :=
  match a with
  | .drift _ => ∀ key, statusOf C s' key = statusOf C s key
  | _ => True

/-- INTERNAL: nothing expires when no time passes. -/
theorem noExpiry_of_not_drift {C : Γ.store.Contract} {P : Type} {s s' : State (world Γ) P}
    {a : Action (world Γ)} (ha : a.isDrift = false) : NoExpiry C s a s' := by
  cases a with
  | drift e => cases ha
  | _ => trivial

/-- Time passes without the entry of this key expiring. -/
def KeyKept (C : Γ.store.Contract) (key : MessageId U) {P : Type} (s : State (world Γ) P)
    (a : Action (world Γ)) (s' : State (world Γ) P) : Prop :=
  match a with
  | .drift _ => statusOf C s' key = statusOf C s key
  | _ => True

/-- INTERNAL: where no entry expires, the entry of a key does not. -/
theorem NoExpiry.keyKept {C : Γ.store.Contract} {P : Type} {s s' : State (world Γ) P}
    {a : Action (world Γ)} (h : NoExpiry C s a s') (key : MessageId U) :
    KeyKept C key s a s' := by
  cases a with
  | drift e => exact h key
  | _ => trivial

/-- The store serves the call without an error. -/
def storeServes : Call U E → Choice Γ → Shared Γ → Bool
  | .tryClaim key, ch, sh => (Γ.store.tryClaim sh.now ch.store key sh.store).1.toBool
  | .markDone key, ch, sh => (Γ.store.markDone sh.now ch.store key sh.store).1.toBool
  | .release key, ch, sh => (Γ.store.release sh.now ch.store key sh.store).1.toBool
  | _, _, _ => true

/-- The store and the network work: no call fails on the way, and the store serves what
reaches it without an error. -/
def Works (s : State (world Γ) (Option (Call U E))) (a : Action (world Γ))
    (_ : State (world Γ) (Option (Call U E))) : Prop :=
  match a with
  | .fail _ _ _ _ => False
  | .serve i ch | .abort i _ ch => ∀ x ∈ s.awaits i, storeServes x.2 ch s.shared = true
  | .land n ch => ∀ x ∈ s.detached[n]?, storeServes x.2.2 ch s.shared = true
  | _ => True

instance (s s' : State (world Γ) (Option (Call U E))) (a : Action (world Γ)) :
    Decidable (Works s a s') :=
  match a with
  | .fail _ _ _ _ => inferInstanceAs (Decidable False)
  | .serve i _ => inferInstanceAs (Decidable (∀ x ∈ s.awaits i, _))
  | .abort i _ _ => inferInstanceAs (Decidable (∀ x ∈ s.awaits i, _))
  | .land n _ => inferInstanceAs (Decidable (∀ x ∈ s.detached[n]?, _))
  | .spawn _ _ | .resume _ | .drift _ => isTrue trivial

/-- No call fails, and nobody is aborted: workers are started, served and go on, and time
passes. -/
def NoFault {P : Type} (_ : State (world Γ) P) (a : Action (world Γ)) (_ : State (world Γ) P) :
    Prop :=
  match a with
  | .fail _ _ _ _ | .abort _ _ _ | .land _ _ => False
  | _ => True

instance {P : Type} (s s' : State (world Γ) P) (a : Action (world Γ)) :
    Decidable (NoFault s a s') :=
  match a with
  | .fail _ _ _ _ | .abort _ _ _ | .land _ _ => inferInstanceAs (Decidable False)
  | .spawn _ _ | .serve _ _ | .resume _ | .drift _ => isTrue trivial

/-- INTERNAL: a successful claim of an absent key is granted. -/
theorem granted_of_serves (C : Γ.store.Contract) {key : MessageId U} {ch : Γ.store.Choice}
    {now : ℕ} {store : Γ.store.State}
    (hserves : (Γ.store.tryClaim now ch key store).1.toBool = true)
    (habsent : C.status now store key = .absent) :
    (Γ.store.tryClaim now ch key store).1 = .ok .claimed := by
  have hstep := C.tryClaim_step now ch key store
  rw [habsent] at hstep
  generalize (Γ.store.tryClaim now ch key store).1 = answer at *
  generalize C.status now (Γ.store.tryClaim now ch key store).2 key = after at *
  cases hstep with
  | claimed => rfl
  | failed status e => cases hserves

/-- INTERNAL: `mark_done` works. -/
theorem done_of_serves (C : Γ.store.Contract) (ch : Choice Γ) {key : MessageId U}
    {sh : Shared Γ} (hserves : (Γ.store.markDone sh.now ch.store key sh.store).1.toBool = true) :
    C.status sh.now (Γ.store.markDone sh.now ch.store key sh.store).2 key = .done := by
  refine C.of_markDone_ok _ _ _ _ ?_
  generalize (Γ.store.markDone sh.now ch.store key sh.store).1 = answer at *
  cases answer with
  | ok => rfl
  | error e => cases hserves

/-- INTERNAL: `release` works. -/
theorem absent_of_serves (C : Γ.store.Contract) (ch : Choice Γ) {key : MessageId U}
    {sh : Shared Γ} (hserves : (Γ.store.release sh.now ch.store key sh.store).1.toBool = true) :
    C.status sh.now (Γ.store.release sh.now ch.store key sh.store).2 key = .absent := by
  refine C.of_release_ok _ _ _ _ ?_
  generalize (Γ.store.release sh.now ch.store key sh.store).1 = answer at *
  cases answer with
  | ok => rfl
  | error e => cases hserves

/-! ## Steps without faults -/

section

variable [UuidCrate U]

/-- What a step without a fault can do: a worker is started, comes to a point or is served,
or time passes. -/
inductive Calm (s : State (world Γ) (Point E)) (a : Action (world Γ))
    (s' : State (world Γ) (Point E)) : Prop where
  | spawn (i : ℕ) (d : Delivery Γ) (ha : a = .spawn i d) (hi : s.threads i = none)
      (hsites : s'.sites = Function.update s.sites i (some (d, (pointMachine Γ).start d)))
      (hshared : s'.shared =
        ⟨s.shared.now, s.shared.store, s.shared.dlq, addLine s.shared i d (some .delivered)⟩)
  | reach (i : ℕ) (d : Delivery Γ) (p : Point E) (ha : a = .resume i)
      (hi : s.threads i = some ⟨d, .answered p⟩) (hsites : s'.sites = s.sites)
      (hshared : s'.shared =
        ⟨s.shared.now, s.shared.store, s.shared.dlq, addLine s.shared i d (reachLine p)⟩)
  | serve (i : ℕ) (ch : Choice Γ) (d : Delivery Γ) (p : Point E) (c : Call U E)
      (k : c.Resp → Point E) (ha : a = .serve i ch) (hi : s.threads i = some ⟨d, .waiting p⟩)
      (hv : Point.view d p = some ⟨c, k⟩)
      (hsites : s'.sites =
        Function.update s.sites i (some (d, k (Shared.answer c ch s.shared))))
      (hshared : s'.shared =
        ⟨s.shared.now, storeAfter c ch s.shared, dlqAfter c s.shared,
          addLine s.shared i d (noted true c ch s.shared)⟩)
  | drift (e : Drift Γ) (ha : a = .drift e) (hsites : s'.sites = s.sites)
      (hshared : s'.shared =
        ⟨s.shared.now + e.elapsed, Γ.store.tick e.store s.shared.store, s.shared.dlq,
          s.shared.log⟩)

/-- INTERNAL: a step without a fault is calm. -/
theorem calm_of_noFault {s s' : State (world Γ) (Point E)} {a : Action (world Γ)}
    (h : step (pointMachine Γ) s a = some s') (hfault : NoFault s a s') : Calm s a s' := by
  cases (step_cases h).move with
  | spawn i d ha hi hsites hshared hdet =>
    exact .spawn i d ha hi hsites (hshared.trans (spawn_eq i d s.shared))
  | reach i d p ha hi hsites hshared hdet =>
    exact .reach i d p ha hi hsites (hshared.trans (reachPoint_eq i d p s.shared))
  | serve i ch d p c k ha hi hv hsites hshared hdet =>
    exact .serve i ch d p c k ha hi hv hsites (hshared.trans (effect_eq true i d c ch s.shared))
  | drift e ha hsites hshared hdet => exact .drift e ha hsites hshared
  | drop i d p next ha =>
    rcases ha with ⟨-, ⟨ch, err, rfl⟩ | ⟨ch, rfl, -⟩⟩ | ⟨-, fate, ch, rfl, -⟩ <;> exact hfault.elim
  | act i ch d p c next ha => rcases ha with ⟨err, rfl⟩ | ⟨rfl, -⟩ <;> exact hfault.elim
  | defer i d p c next ha => rcases ha with ⟨ch, err, rfl⟩ | ⟨ch, rfl, -⟩ <;> exact hfault.elim
  | land n ch i d c ha =>
    subst ha
    exact hfault.elim

end

end EventBus.Interface
