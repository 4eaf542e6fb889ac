import EventBus.Interface.Faults
import EventBus.Lib.Exclusive

/-!
# Who owns a claim

Between the answer `Claimed` and its `mark_done` or `release` a worker owns the claim of
its message.  `release` and `mark_done` do not check for an owner, so that claims are
exclusive rests on who may still issue them: the owner, or a call of a former owner that
is still under way.  The invariant `Ownership` says that there is at most one of these
for every key and that the key is pending meanwhile.

It holds over every store that keeps the contract of the trait, in every run in which no
entry expires: whatever calls fail, and wherever workers are aborted.
-/

set_option autoImplicit false

namespace EventBus.Analysis

open EventBus.Model EventBus.Lib EventBus.Interface

variable {U E : Type} [UuidCrate U] {Γ : Deployment U E}

/-- The points at which a worker owns the claim of its message. -/
inductive Owner : Point E → Prop where
  | handle (event : E) : Owner (.handle event)
  | markAck : Owner .markAck
  | stamp (config : DlqConfig) (cause : Cause) : Owner (.stamp config cause)
  | publish (config : DlqConfig) (cause : Cause) (failedAt : String) :
    Owner (.publish config cause failedAt)
  | markTerm : Owner .markTerm
  | release (delay : Duration) : Owner (.release delay)

/-- The points at which a worker is about to mark its key done. -/
inductive Marking : Point E → Prop where
  | markAck : Marking .markAck
  | markTerm : Marking .markTerm

omit [UuidCrate U] in
/-- INTERNAL: who is about to mark a key done owns its claim. -/
theorem Marking.owner {p : Point E} (h : Marking p) : Owner p := by
  cases h with
  | markAck => exact .markAck
  | markTerm => exact .markTerm

/-- The key whose claim a call ends. -/
def ends : Call U E → Option (MessageId U)
  | .markDone key => some key
  | .release key => some key
  | _ => none

/-- The key that a call releases. -/
def releases : Call U E → Option (MessageId U)
  | .release key => some key
  | _ => none

/-- Claims are exclusive. -/
structure Ownership (C : Γ.store.Contract) (s : State (world Γ) (Point E)) : Prop where
  unique : ∀ i j d e p q, s.sites i = some (d, p) → s.sites j = some (e, q) → Owner p →
    Owner q → d.msgId = e.msgId → i = j
  pending : ∀ i d p, s.sites i = some (d, p) → Owner p → statusOf C s d.msgId = .pending
  endsPending : ∀ i d c key, (i, d, c) ∈ s.detached → ends c = some key →
    statusOf C s key = .pending
  endsAlone : ∀ i d c key, (i, d, c) ∈ s.detached → ends c = some key →
    ∀ j e q, s.sites j = some (e, q) → Owner q → e.msgId ≠ key
  endsOnce : s.detached.Pairwise fun x y =>
    ∀ key, ends x.2.2 = some key → ends y.2.2 ≠ some key

/-! ## What one call does -/

/-- INTERNAL: a call that ends a claim is made by the owner of the claim. -/
theorem owner_of_ends {d : Delivery Γ} {p : Point E} {c : Call U E} {key : MessageId U}
    (hc : (pointMachine Γ).head d p = some c) (hkey : ends c = some key) :
    Owner p ∧ key = d.msgId := by
  cases p <;> cases hc <;> cases hkey
  · exact ⟨.markAck, rfl⟩
  · exact ⟨.markTerm, rfl⟩
  · exact ⟨.release _, rfl⟩

omit [UuidCrate U] in
/-- INTERNAL: a worker that fails for good still owns its claim.
SRC: subscriber.rs:524-535 -/
theorem owner_terminal (d : Delivery Γ) (cause : Cause) :
    Owner (Point.terminal d cause : Point E) := by
  unfold Point.terminal
  split
  · exact .markTerm
  · exact .stamp _ _

omit [UuidCrate U] in
/-- INTERNAL: a worker whose claim is granted owns it.
SRC: subscriber.rs:426-457 -/
theorem owner_afterClaim (d : Delivery Γ) : Owner (Point.afterClaim d : Point E) := by
  unfold Point.afterClaim
  split
  · exact owner_terminal d _
  · exact .handle _

/-- INTERNAL: a worker that is answered owns the claim if it is granted one, or owned it
and did not end it. -/
theorem owner_answer {d : Delivery Γ} {p : Point E} {c : Call U E} {k : c.Resp → Point E}
    (hv : Point.view d p = some ⟨c, k⟩) (r : c.Resp) (ho : Owner (k r)) :
    (∃ h : c = .tryClaim d.msgId, (h ▸ r : (Call.tryClaim (E := E) d.msgId).Resp) = .ok .claimed) ∨
      (Owner p ∧ ends c = none) := by
  cases p with
  | claim =>
    cases hv
    left
    refine ⟨rfl, ?_⟩
    rcases r with e | (_ | _ | _)
    · cases ho
    · rfl
    · cases ho
    · cases ho
  | handle event =>
    cases hv
    exact .inr ⟨.handle _, rfl⟩
  | stamp config cause =>
    cases hv
    exact .inr ⟨.stamp _ _, rfl⟩
  | publish config cause failedAt =>
    cases hv
    exact .inr ⟨.publish _ _ _, rfl⟩
  | markAck => cases hv; cases ho
  | ack => cases hv; cases ho
  | markTerm => cases hv; cases ho
  | term => cases hv; cases ho
  | release delay => cases hv; cases ho
  | nak delay => cases hv; cases ho
  | finished => cases hv

/-- INTERNAL: a worker that gets no answer owns the claim only if it owned it and was not
ending it. -/
theorem owner_lost {d d' : Delivery Γ} {p p' : Point E}
    (hnext : Lost (pointMachine Γ) d p (some (d', p'))) (ho : Owner p') :
    d' = d ∧ Owner p ∧ ∀ c, (pointMachine Γ).head d p = some c → ends c = none := by
  cases hnext with
  | @failed c k r err hv hr =>
    refine ⟨rfl, ?_⟩
    have hc : (pointMachine Γ).head d p = some c := Machine.head_of_view hv
    have hclaim : ¬ ∃ h : c = .tryClaim d.msgId,
        (h ▸ r : (Call.tryClaim (E := E) d.msgId).Resp) = .ok .claimed := by
      rintro ⟨rfl, hr'⟩
      obtain rfl := Option.some.inj hr
      cases hr'
    obtain ⟨hp, hends⟩ := (owner_answer hv r ho).resolve_left hclaim
    refine ⟨hp, fun c' hc' => ?_⟩
    obtain rfl := Option.some.inj (hc.symm.trans hc')
    exact hends

omit [UuidCrate U] in
/-- INTERNAL: a pending key stays pending while no call on it ends its claim. -/
theorem pending_storeAfter (C : Γ.store.Contract) {c : Call U E} (ch : Choice Γ) {sh : Shared Γ}
    {key : MessageId U} (hends : ends c ≠ some key)
    (hpend : C.status sh.now sh.store key = .pending) :
    C.status sh.now (storeAfter c ch sh) key = .pending := by
  cases c with
  | tryClaim k =>
    by_cases hclaimed : (Γ.store.tryClaim sh.now ch.store k sh.store).1 = .ok .claimed
    · by_cases hk : key = k
      · subst hk
        exact (C.of_claimed _ _ _ _ hclaimed).2
      · exact (C.tryClaim_frame _ _ _ _ _ hk).trans hpend
    · exact (C.of_not_claimed _ _ _ _ hclaimed key).trans hpend
  | markDone k =>
    have hk : key ≠ k := fun h => hends (congrArg some h.symm)
    exact (C.markDone_frame _ _ _ _ _ hk).trans hpend
  | release k =>
    have hk : key ≠ k := fun h => hends (congrArg some h.symm)
    exact (C.release_frame _ _ _ _ _ hk).trans hpend
  | _ => exact hpend

omit [UuidCrate U] in
/-- INTERNAL: only `mark_done` makes a key done. -/
theorem done_of_storeAfter (C : Γ.store.Contract) {c : Call U E}
    {ch : Choice Γ} {sh : Shared Γ} {key : MessageId U}
    (hdone : C.status sh.now (storeAfter c ch sh) key = .done) :
    C.status sh.now sh.store key = .done ∨ c = .markDone key := by
  cases c with
  | tryClaim k =>
    by_cases hclaimed : (Γ.store.tryClaim sh.now ch.store k sh.store).1 = .ok .claimed
    · by_cases hk : key = k
      · subst hk
        have hpending := (C.of_claimed _ _ _ _ hclaimed).2
        exact absurd (hdone.symm.trans hpending) (by simp)
      · exact .inl ((C.tryClaim_frame _ _ _ _ _ hk).symm.trans hdone)
    · exact .inl ((C.of_not_claimed _ _ _ _ hclaimed key).symm.trans hdone)
  | markDone k =>
    by_cases hk : key = k
    · exact .inr (congrArg Call.markDone hk.symm)
    · exact .inl ((C.markDone_frame _ _ _ _ _ hk).symm.trans hdone)
  | release k =>
    by_cases hk : key = k
    · subst hk
      rcases C.release_status sh.now ch.store key sh.store with hgone | hsame
      · exact absurd (hdone.symm.trans hgone) (by simp)
      · exact .inl (hsame.symm.trans hdone)
    · exact .inl ((C.release_frame _ _ _ _ _ hk).symm.trans hdone)
  | _ => exact .inl hdone

/-! ## Claims as resources -/

/-- The claim a worker owns at a point. -/
def claimOf (d : Delivery Γ) : Point E → Option (MessageId U)
  | .handle _ | .markAck | .stamp _ _ | .publish _ _ _ | .markTerm | .release _ => some d.msgId
  | _ => none

/-- INTERNAL: the claim of a worker is the one on the id of its message. -/
theorem claimOf_eq_some {d : Delivery Γ} {p : Point E} {key : MessageId U} :
    claimOf d p = some key ↔ Owner p ∧ key = d.msgId := by
  constructor
  · intro h
    cases p <;> cases h <;> exact ⟨by constructor, rfl⟩
  · rintro ⟨hp, rfl⟩
    cases hp <;> rfl

/-- Claims are resources that `mark_done` and `release` end, and are held by a pending
key. -/
def claims (C : Γ.store.Contract) : Exclusive (pointMachine Γ) (MessageId U) where
  owns := claimOf
  ends := ends
  held _ key sh := C.status sh.now sh.store key = .pending
  sound _ _ := True
  owns_of_ends hc hends := claimOf_eq_some.mpr (owner_of_ends hc hends)
  owns_start d := by
    rcases start_cases d with h | h <;> rw [h] <;> rfl
  owns_answer {i d p c k ch sh key} hv _ ho := by
    obtain ⟨howner, rfl⟩ := claimOf_eq_some.mp ho
    rcases owner_answer hv _ howner with ⟨rfl, hclaimed⟩ | ⟨hp, hends⟩
    · right
      have hgranted := C.of_claimed _ _ _ _ hclaimed
      refine ⟨fun _ hpend => ?_, ?_⟩
      · rw [hgranted.1] at hpend
        cases hpend
      · rw [effect_now, effect_store]
        exact hgranted.2
    · exact .inl ⟨claimOf_eq_some.mpr ⟨hp, rfl⟩, hends⟩
  owns_failure {d p c k err a key} hv hr ho := by
    obtain ⟨howner, rfl⟩ := claimOf_eq_some.mp ho
    obtain ⟨-, hp, hends⟩ := owner_lost (.failed hv hr) howner
    exact ⟨claimOf_eq_some.mpr ⟨hp, rfl⟩, hends c (Machine.head_of_view hv)⟩
  held_effect hends hpend := by
    rw [effect_now, effect_store]
    exact pending_storeAfter C _ hends hpend
  held_enlist hpend := hpend
  held_reach {i d c sh j key} hpend := by
    cases c <;> exact hpend

section

variable {C : Γ.store.Contract} {s s' : State (world Γ) (Point E)}

/-- INTERNAL: claims are exclusive as resources are. -/
theorem ownership_iff : Ownership C s ↔ (claims C).Inv s := by
  constructor
  · intro hs
    refine ⟨fun i j d e p q key hi hj hp hq => ?_, fun i d p key hi hp => ?_, hs.endsPending,
      fun i d c key hmem hkey j e q hj hq => ?_, hs.endsOnce⟩
    · obtain ⟨hop, rfl⟩ := claimOf_eq_some.mp hp
      obtain ⟨hoq, hkey⟩ := claimOf_eq_some.mp hq
      exact hs.unique i j d e p q hi hj hop hoq hkey
    · obtain ⟨hop, rfl⟩ := claimOf_eq_some.mp hp
      exact hs.pending i d p hi hop
    · obtain ⟨hoq, he⟩ := claimOf_eq_some.mp hq
      exact hs.endsAlone i d c key hmem hkey j e q hj hoq he.symm
  · intro hs
    refine ⟨fun i j d e p q hi hj hp hq hkey => ?_, fun i d p hi hp => ?_, hs.endsHeld,
      fun i d c key hmem hkey j e q hj hq he => ?_, hs.endsOnce⟩
    · exact hs.unique i j d e p q d.msgId hi hj (claimOf_eq_some.mpr ⟨hp, rfl⟩)
        (claimOf_eq_some.mpr ⟨hq, hkey⟩)
    · exact hs.held i d p d.msgId hi (claimOf_eq_some.mpr ⟨hp, rfl⟩)
    · exact hs.endsAlone i d c key hmem hkey j e q hj (claimOf_eq_some.mpr ⟨hq, he.symm⟩)

/-- **Claims stay exclusive in every step in which no entry expires.** -/
theorem Ownership.step {a : Action (world Γ)} (h : Lib.step (pointMachine Γ) s a = some s')
    (ha : NoExpiry C s a s') (hs : Ownership C s) : Ownership C s' := by
  refine ownership_iff.mpr ((ownership_iff.mp hs).step h (fun _ _ _ _ _ _ _ _ => trivial)
    fun hdrift _ key hpend => ?_)
  cases a with
  | drift e => exact (ha key).trans hpend
  | _ => cases hdrift

/-- INTERNAL: nobody owns a claim at first. -/
theorem Ownership.fresh (sh : Shared Γ) : Ownership C (fresh (pointMachine Γ) sh) :=
  ownership_iff.mpr (Exclusive.Inv.fresh (X := claims C) sh)

/-! ## One claim -/

/-- The claim on one key is exclusive, whatever becomes of the others. -/
def KeyOwnership (C : Γ.store.Contract) (key : MessageId U) (s : State (world Γ) (Point E)) :
    Prop :=
  ((claims C).only key).Inv s

namespace KeyOwnership

variable {key : MessageId U}

/-- INTERNAL: who owns the claim on the key owns the one resource. -/
theorem only_claims {d : Delivery Γ} {p : Point E} (ho : Owner p) (hkey : d.msgId = key) :
    ((claims C).only key).owns d p = some key :=
  (Exclusive.only_owns _).mpr (claimOf_eq_some.mpr ⟨ho, hkey.symm⟩)

/-- INTERNAL: the claim on the key has one owner at most. -/
theorem unique (hs : KeyOwnership C key s) {i j : ℕ} {d e : Delivery Γ} {p q : Point E}
    (hi : s.sites i = some (d, p)) (hj : s.sites j = some (e, q)) (hp : Owner p) (hq : Owner q)
    (hd : d.msgId = key) (he : e.msgId = key) : i = j :=
  Exclusive.Inv.unique hs i j d e p q key hi hj (only_claims hp hd) (only_claims hq he)

/-- INTERNAL: the key is pending while its claim is owned. -/
theorem pending (hs : KeyOwnership C key s) {i : ℕ} {d : Delivery Γ} {p : Point E}
    (hi : s.sites i = some (d, p)) (hp : Owner p) (hd : d.msgId = key) :
    statusOf C s key = .pending :=
  Exclusive.Inv.held hs i d p key hi (only_claims hp hd) rfl

/-- INTERNAL: the claim is not owned while a call that ends it is under way. -/
theorem endsAlone (hs : KeyOwnership C key s) {i j : ℕ} {d e : Delivery Γ} {c : Call U E}
    {q : Point E} (hmem : (i, d, c) ∈ s.detached) (hc : ends c = some key)
    (hj : s.sites j = some (e, q)) (hq : Owner q) : e.msgId ≠ key := fun he =>
  Exclusive.Inv.endsAlone hs i d c key hmem ((Exclusive.only_ends _).mpr hc) j e q hj
    (only_claims hq he)

/-- **The claim on a key stays exclusive in every step in which its entry does not expire.** -/
theorem step {a : Action (world Γ)} (h : Lib.step (pointMachine Γ) s a = some s')
    (ha : KeyKept C key s a s') (hs : KeyOwnership C key s) : KeyOwnership C key s' := by
  refine Exclusive.Inv.step h (fun _ _ _ _ _ _ _ _ => trivial) (fun hdrift j r hheld hr => ?_) hs
  subst hr
  cases a with
  | drift e => exact ha.trans (hheld rfl)
  | _ => cases hdrift

/-- INTERNAL: where all claims are exclusive, so is the claim on a key. -/
theorem of_ownership (hs : Ownership C s) (key : MessageId U) : KeyOwnership C key s :=
  (ownership_iff.mp hs).only key

/-- INTERNAL: nobody owns the claim at first. -/
theorem fresh (sh : Shared Γ) : KeyOwnership C key (Lib.fresh (pointMachine Γ) sh) :=
  Exclusive.Inv.fresh (X := (claims C).only key) sh

end KeyOwnership

end

end EventBus.Analysis
