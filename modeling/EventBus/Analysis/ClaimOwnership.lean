import EventBus.Analysis.Ownership
import EventBus.Analysis.Settlement

/-!
# Claims without an owner

A worker that dies between its claim and the `mark_done` or `release` that ends it leaves
the key pending.  The redeliveries that the documentation of the subscription handle
promises are then refused until the entry expires.

The counterexample aborts a worker inside its handler.  The result says exactly which
aborts do this: a pending key has a live owner throughout a run if and only if the run
aborts no worker that owns a claim, unless at the call that ends it, and grants no claim
to a worker that is gone.
-/

set_option autoImplicit false

namespace EventBus.Analysis

open EventBus.Model EventBus.Lib EventBus.Interface

variable {U E : Type} [UuidCrate U] {Γ : Deployment U E}

/-! ## Orphaned claims -/

/-- The calls a worker makes while it owns the claim of its message. -/
def Call.ownsClaim : Call U E → Bool
  | .handle _ _ => true
  | .unixTimestampSeconds => true
  | .publishWithHeaders _ _ _ _ => true
  | .markDone _ => true
  | .release _ => true
  | _ => false

/-- Some live worker owns the claim of the key. -/
def LiveOwner (s : State (world Γ) (Option (Call U E))) (key : MessageId U) : Prop :=
  ∃ i d c, s.sites i = some (d, some c) ∧ Call.ownsClaim c = true ∧ d.msgId = key

/-- No claim is orphaned: a key is pending only while some live worker owns it, so that
whenever a key is not done and nobody owns it, every `try_claim` that the store serves is
granted. -/
structure NoOrphan (C : Γ.store.Contract) (s : State (world Γ) (Option (Call U E))) : Prop where
  owned : ∀ key, statusOf C s key = .pending → LiveOwner s key
  claimable : ∀ key, statusOf C s key ≠ .done → ¬ LiveOwner s key → ∀ ch,
    (Γ.store.tryClaim s.shared.now ch key s.shared.store).1.toBool = true →
      (Γ.store.tryClaim s.shared.now ch key s.shared.store).1 = .ok .claimed

/-- Serving the call would grant a claim. -/
def Grants (C : Γ.store.Contract) {P : Type} (s : State (world Γ) P) : Call U E → Prop
  | .tryClaim key => statusOf C s key = .absent
  | _ => False

/-- No claim loses its owner: a worker that is aborted owns no claim, or the call that
ends it is served; and no worker that is gone is granted one. -/
def SparesOwners (C : Γ.store.Contract) (s : State (world Γ) (Option (Call U E)))
    (a : Action (world Γ)) (_ : State (world Γ) (Option (Call U E))) : Prop :=
  match a with
  | .abort i fate _ =>
    (∀ x ∈ s.awaits i,
      if fate = .served then (Call.ownsClaim x.2 = true → (ends x.2).isSome) ∧ ¬ Grants C s x.2
      else Call.ownsClaim x.2 = false) ∧
    ∀ x ∈ s.approaches i, Call.ownsClaim x.2 = false
  | .land n _ => ∀ x ∈ s.detached[n]?, ¬ Grants C s x.2.2
  | _ => True

instance (C : Γ.store.Contract) {P : Type} (s : State (world Γ) P) (c : Call U E) :
    Decidable (Grants C s c) :=
  match c with
  | .tryClaim key => inferInstanceAs (Decidable (statusOf C s key = .absent))
  | .markDone _ | .release _ | .handle _ _ | .unixTimestampSeconds | .publishWithHeaders _ _ _ _
  | .doubleAck | .nakWithDelay _ | .term => inferInstanceAs (Decidable False)

instance (C : Γ.store.Contract) (s s' : State (world Γ) (Option (Call U E)))
    (a : Action (world Γ)) : Decidable (SparesOwners C s a s') :=
  match a with
  | .abort i _ _ =>
    inferInstanceAs (Decidable ((∀ x ∈ s.awaits i, _) ∧ ∀ x ∈ s.approaches i, _))
  | .land n _ => inferInstanceAs (Decidable (∀ x ∈ s.detached[n]?, _))
  | .spawn _ _ | .serve _ _ | .fail _ _ _ _ | .resume _ | .drift _ => isTrue trivial

/-! ## The same of points -/

/-- INTERNAL: a key that nobody owns is claimable if the pending keys are owned. -/
theorem noOrphan_iff (C : Γ.store.Contract) (s : State (world Γ) (Option (Call U E))) :
    NoOrphan C s ↔ ∀ key, statusOf C s key = .pending → LiveOwner s key := by
  refine ⟨fun h => h.owned, fun h => ⟨h, fun key hdone hfree ch hserves => ?_⟩⟩
  apply granted_of_serves C hserves
  cases hst : C.status s.shared.now s.shared.store key with
  | absent => rfl
  | pending => exact absurd (h key hst) hfree
  | done => exact absurd hst hdone

/-- INTERNAL: an owner is at a call that owns its claim. -/
theorem owner_iff {d : Delivery Γ} {p : Point E} :
    Owner p ↔ ∃ c, (pointMachine Γ).head d p = some c ∧ Call.ownsClaim c = true := by
  constructor
  · rintro ⟨⟩ <;> exact ⟨_, rfl, rfl⟩
  · rintro ⟨c, hc, howns⟩
    cases p <;> cases hc <;> first | constructor | cases howns

/-- INTERNAL: whether a worker is an owner can be seen of its call. -/
theorem owner_iff_of_head {d : Delivery Γ} {p : Point E} {c : Call U E}
    (hc : (pointMachine Γ).head d p = some c) : Owner p ↔ Call.ownsClaim c = true := by
  rw [owner_iff (d := d)]
  constructor
  · rintro ⟨c', hc', howns⟩
    rwa [Option.some.inj (hc.symm.trans hc')]
  · exact fun howns => ⟨c, hc, howns⟩

/-- INTERNAL: whether a worker is no owner can be seen of its call. -/
theorem not_owner_iff {d : Delivery Γ} {p : Point E} :
    ¬ Owner p ↔ ∀ c, (pointMachine Γ).head d p = some c → Call.ownsClaim c = false := by
  rw [owner_iff (d := d)]
  simp

/-- Some worker owns the claim of the key. -/
def OwnedAt (s : State (world Γ) (Point E)) (key : MessageId U) : Prop :=
  ∃ i d p, s.sites i = some (d, p) ∧ Owner p ∧ d.msgId = key

/-- INTERNAL: an owner that lives can be seen. -/
theorem liveOwner_look {s : State (world Γ) (Point E)} {key : MessageId U} :
    LiveOwner (look (pointMachine Γ) s) key ↔ OwnedAt s key := by
  constructor
  · rintro ⟨i, d, c, hi, howns, hkey⟩
    rw [look_sites, Option.map_eq_some_iff] at hi
    obtain ⟨⟨d', p⟩, hp, heq⟩ := hi
    obtain ⟨rfl, hc⟩ := Prod.mk.inj heq
    exact ⟨i, d', p, hp, owner_iff.mpr ⟨c, hc, howns⟩, hkey⟩
  · rintro ⟨i, d, p, hp, ho, hkey⟩
    obtain ⟨c, hc, howns⟩ := (owner_iff (d := d)).mp ho
    refine ⟨i, d, c, ?_, howns, hkey⟩
    rw [look_sites, hp, Option.map_some, hc]

/-! ## What a call does to a pending key -/

omit [UuidCrate U] in
/-- INTERNAL: a key is pending after a call only if it was before or is granted. -/
theorem pending_of_storeAfter (C : Γ.store.Contract) {c : Call U E} {ch : Choice Γ}
    {sh : Shared Γ} {key : MessageId U}
    (hpend : C.status sh.now (storeAfter c ch sh) key = .pending) :
    C.status sh.now sh.store key = .pending ∨
      (c = .tryClaim key ∧ C.status sh.now sh.store key = .absent) := by
  cases c with
  | tryClaim k =>
    by_cases hclaimed : (Γ.store.tryClaim sh.now ch.store k sh.store).1 = .ok .claimed
    · by_cases hk : key = k
      · subst hk
        exact .inr ⟨rfl, (C.of_claimed _ _ _ _ hclaimed).1⟩
      · exact .inl ((C.tryClaim_frame _ _ _ _ _ hk).symm.trans hpend)
    · exact .inl ((C.of_not_claimed _ _ _ _ hclaimed key).symm.trans hpend)
  | markDone k =>
    by_cases hk : key = k
    · subst hk
      rcases C.markDone_status sh.now ch.store key sh.store with hd | hsame
      · exact absurd (hd.symm.trans hpend) (by simp)
      · exact .inl (hsame.symm.trans hpend)
    · exact .inl ((C.markDone_frame _ _ _ _ _ hk).symm.trans hpend)
  | release k =>
    by_cases hk : key = k
    · subst hk
      rcases C.release_status sh.now ch.store key sh.store with hd | hsame
      · exact absurd (hd.symm.trans hpend) (by simp)
      · exact .inl (hsame.symm.trans hpend)
    · exact .inl ((C.release_frame _ _ _ _ _ hk).symm.trans hpend)
  | _ => exact .inl hpend

omit [UuidCrate U] in
/-- INTERNAL: a call that ends a claim and is served leaves its key not pending. -/
theorem not_pending_of_ends (C : Γ.store.Contract) {c : Call U E} {ch : Choice Γ}
    {sh : Shared Γ} {key : MessageId U} (hends : ends c = some key)
    (hserves : storeServes c ch sh = true) :
    C.status sh.now (storeAfter c ch sh) key ≠ .pending := by
  intro hpend
  cases c with
  | markDone k =>
    obtain rfl := Option.some.inj hends
    have hdone := done_of_serves C ch hserves
    exact absurd (hdone.symm.trans hpend) (by simp)
  | release k =>
    obtain rfl := Option.some.inj hends
    have hgone := absent_of_serves C ch hserves
    exact absurd (hgone.symm.trans hpend) (by simp)
  | _ => cases hends

/-- INTERNAL: an owner that does not end its claim with its call owns it afterwards. -/
theorem owner_of_answer {d : Delivery Γ} {p : Point E} {c : Call U E} {k : c.Resp → Point E}
    (hv : Point.view d p = some ⟨c, k⟩) (hp : Owner p) (hends : ends c = none) (r : c.Resp) :
    Owner (k r) := by
  cases hp with
  | handle event =>
    cases hv
    rcases r with (reason | reason) | ⟨⟩
    · simp only [Point.afterHandler]
      split
      · exact owner_terminal d _
      · exact .release _
    · exact owner_terminal d _
    · exact .markAck
  | stamp config cause =>
    cases hv
    exact .publish _ _ _
  | publish config cause failedAt =>
    cases hv
    rcases r with e | ⟨⟩
    · exact .release _
    · exact .markTerm
  | markAck => cases hv; cases hends
  | markTerm => cases hv; cases hends
  | release delay => cases hv; cases hends

/-! ## One step -/

section

variable {C : Γ.store.Contract} {s s' : State (world Γ) (Point E)}

/-- The pending keys are owned. -/
def AllOwned (C : Γ.store.Contract) (s : State (world Γ) (Point E)) : Prop :=
  ∀ key, statusOf C s key = .pending → OwnedAt s key

/-- INTERNAL: the owners stay where they are, and no key becomes pending. -/
theorem AllOwned.same (hq : AllOwned C s)
    (hstatus : ∀ key, statusOf C s' key = .pending → statusOf C s key = .pending)
    (hsites : ∀ i d p, s.sites i = some (d, p) → Owner p → statusOf C s' d.msgId = .pending →
      s'.sites i = some (d, p)) : AllOwned C s' := by
  intro key hpend
  obtain ⟨i, d, p, hi, hp, rfl⟩ := hq key (hstatus key hpend)
  exact ⟨i, d, p, hsites i d p hi hp hpend, hp, rfl⟩

/-- INTERNAL: a worker without a claim, or whose claim is ended, may disappear. -/
theorem AllOwned.remove (hq : AllOwned C s) {i : ℕ} {d : Delivery Γ} {p : Point E}
    (hi : s.sites i = some (d, p)) (hsites : s'.sites = Function.update s.sites i none)
    (hp : Owner p → statusOf C s' d.msgId ≠ .pending)
    (hstatus : ∀ key, statusOf C s' key = .pending → statusOf C s key = .pending) :
    AllOwned C s' := by
  refine hq.same hstatus fun j e q hj hqo hpend => ?_
  by_cases hji : j = i
  · subst hji
    obtain ⟨rfl, rfl⟩ := Prod.mk.inj (Option.some.inj (hi.symm.trans hj))
    exact absurd hpend (hp hqo)
  · rw [hsites, Function.update_of_ne hji, hj]

/-- INTERNAL: an owner that disappears leaves an orphan. -/
theorem Ownership.orphan (hs : Ownership C s) {i : ℕ} {d : Delivery Γ} {p : Point E}
    (hi : s.sites i = some (d, p)) (hp : Owner p)
    (hsites : s'.sites = Function.update s.sites i none)
    (hpend : statusOf C s' d.msgId = .pending) : ¬ AllOwned C s' := by
  intro hq
  obtain ⟨j, e, q, hj, hqo, hkey⟩ := hq _ hpend
  by_cases hji : j = i
  · rw [hsites, hji, Function.update_self] at hj
    cases hj
  · rw [hsites, Function.update_of_ne hji] at hj
    exact hji (hs.unique j i e d q p hj hi hqo hp hkey)

/-- INTERNAL: a claim that is granted to nobody is an orphan. -/
theorem Ownership.granted (hs : Ownership C s) {key : MessageId U}
    (hsites : ∀ i d p, s'.sites i = some (d, p) → Owner p → s.sites i = some (d, p))
    (habsent : statusOf C s key = .absent) (hpend : statusOf C s' key = .pending) :
    ¬ AllOwned C s' := by
  intro hq
  obtain ⟨i, d, p, hi, hp, rfl⟩ := hq _ hpend
  have hold := hs.pending i d p (hsites i d p hi hp) hp
  rw [habsent] at hold
  cases hold

/-- INTERNAL: a worker that is served keeps the pending keys owned. -/
theorem AllOwned.serve (hq : AllOwned C s) {i : ℕ} {d : Delivery Γ} {p : Point E}
    {c : Call U E} {k : c.Resp → Point E} {ch : Choice Γ} (hi : s.sites i = some (d, p))
    (hv : Point.view d p = some ⟨c, k⟩) (hserves : storeServes c ch s.shared = true)
    (hsites : s'.sites = Function.update s.sites i (some (d, k (Shared.answer c ch s.shared))))
    (hshared : s'.shared = Shared.effect true i d c ch s.shared) : AllOwned C s' := by
  have hstore : ∀ key,
      statusOf C s' key = C.status s.shared.now (storeAfter c ch s.shared) key := by
    intro key
    rw [statusOf, hshared, effect_now, effect_store]
  have hself : ∀ q, s'.sites i = some (d, q) → Owner q → OwnedAt s' d.msgId :=
    fun q hq' ho => ⟨i, d, q, hq', ho, rfl⟩
  intro key hpend
  rw [hstore] at hpend
  rcases pending_of_storeAfter C hpend with hold | ⟨rfl, habsent⟩
  · obtain ⟨j, e, q, hj, hqo, rfl⟩ := hq key hold
    by_cases hji : j = i
    · subst hji
      obtain ⟨rfl, rfl⟩ := Prod.mk.inj (Option.some.inj (hi.symm.trans hj))
      have hends : ends c = none := by
        cases hends : ends c with
        | none => rfl
        | some key' =>
          have hc : (pointMachine Γ).head d p = some c := Machine.head_of_view hv
          obtain ⟨-, rfl⟩ := owner_of_ends hc hends
          exact absurd hpend (not_pending_of_ends C hends hserves)
      refine hself (k (Shared.answer c ch s.shared)) ?_ (owner_of_answer hv hqo hends _)
      rw [hsites, Function.update_self]
    · refine ⟨j, e, q, ?_, hqo, rfl⟩
      rw [hsites, Function.update_of_ne hji, hj]
  · have hclaim : p = .claim ∧ key = d.msgId := by
      cases p <;> cases hv
      exact ⟨rfl, rfl⟩
    obtain ⟨rfl, rfl⟩ := hclaim
    cases hv
    have hgranted := granted_of_serves C hserves habsent
    refine hself (Point.afterClaim d) ?_ (owner_afterClaim d)
    rw [hsites, Function.update_self]
    simp only [Shared.answer, hgranted, Point.afterTryClaim]

/-- INTERNAL: a worker that is aborted at a call that is served leaves no orphan exactly
when it was ending its claim or owned none, and is not granted one. -/
theorem allOwned_act (hs : Ownership C s) (hq : AllOwned C s) {i : ℕ} {d : Delivery Γ}
    {p : Point E} {c : Call U E} {ch : Choice Γ} (hi : s.sites i = some (d, p))
    (hc : (pointMachine Γ).head d p = some c) (hserves : storeServes c ch s.shared = true)
    (hsites : s'.sites = Function.update s.sites i none)
    (hshared : s'.shared = Shared.effect false i d c ch s.shared) :
    AllOwned C s' ↔ (Call.ownsClaim c = true → (ends c).isSome) ∧ ¬ Grants C s c := by
  have hstore : ∀ key,
      statusOf C s' key = C.status s.shared.now (storeAfter c ch s.shared) key := by
    intro key
    rw [statusOf, hshared, effect_now, effect_store]
  have hfewer : ∀ j e q, s'.sites j = some (e, q) → Owner q → s.sites j = some (e, q) := by
    rw [hsites]
    refine forall_sites_update (fun j e q hj => hj) (fun j e q _ hj _ => hj) ?_
    intro e q hn
    cases hn
  constructor
  · intro hq'
    refine ⟨fun howns => ?_, fun hgrants => ?_⟩
    · -- an owner whose call ends nothing leaves its key pending
      cases hends : ends c with
      | some key => rfl
      | none =>
        have hp : Owner p := (owner_iff_of_head hc).mpr howns
        refine absurd hq' (hs.orphan hi hp hsites ?_)
        rw [hstore]
        exact pending_storeAfter C ch (by simp [hends]) (hs.pending i d p hi hp)
    · cases c with
      | tryClaim key =>
        refine absurd hq' (hs.granted hfewer hgrants ?_)
        rw [hstore]
        exact (C.of_claimed _ _ _ _ (granted_of_serves C hserves hgrants)).2
      | _ => exact hgrants
  · rintro ⟨hends, hgrants⟩
    refine hq.remove hi hsites (fun hp => ?_) fun key hpend => ?_
    · obtain ⟨key, hkey⟩ := Option.isSome_iff_exists.mp (hends ((owner_iff_of_head hc).mp hp))
      obtain ⟨-, rfl⟩ := owner_of_ends hc hkey
      rw [hstore]
      exact not_pending_of_ends C hkey hserves
    · rw [hstore] at hpend
      rcases pending_of_storeAfter C hpend with hold | ⟨rfl, habsent⟩
      · exact hold
      · exact absurd habsent hgrants

/-- INTERNAL: a worker that is aborted at a call that is not served leaves no orphan
exactly when it owned no claim. -/
theorem allOwned_drop (hs : Ownership C s) (hq : AllOwned C s) {i : ℕ} {d : Delivery Γ}
    {p : Point E} (hi : s.sites i = some (d, p))
    (hsites : s'.sites = Function.update s.sites i none)
    (hshared : s'.shared = s.shared) : AllOwned C s' ↔ ¬ Owner p := by
  have hstatus : ∀ key, statusOf C s' key = statusOf C s key := by
    intro key
    rw [statusOf, hshared]
  constructor
  · intro hq' hp
    exact hs.orphan hi hp hsites ((hstatus _).trans (hs.pending i d p hi hp)) hq'
  · intro hp
    exact hq.remove hi hsites (fun ho => absurd ho hp) fun key h => (hstatus key).symm.trans h

/-- INTERNAL: a call under way that takes effect leaves no orphan exactly when it grants
no claim. -/
theorem allOwned_land (hs : Ownership C s) (hq : AllOwned C s) {i : ℕ} {d : Delivery Γ}
    {c : Call U E} {ch : Choice Γ} (hmem : (i, d, c) ∈ s.detached)
    (hserves : storeServes c ch s.shared = true) (hsites : s'.sites = s.sites)
    (hshared : s'.shared = Shared.effect false i d c ch s.shared) :
    AllOwned C s' ↔ ¬ Grants C s c := by
  have hstore : ∀ key,
      statusOf C s' key = C.status s.shared.now (storeAfter c ch s.shared) key := by
    intro key
    rw [statusOf, hshared, effect_now, effect_store]
  constructor
  · intro hq' hgrants
    cases c with
    | tryClaim key =>
      refine hs.granted (fun j e q hj _ => hsites ▸ hj) hgrants ?_ hq'
      rw [hstore]
      exact (C.of_claimed _ _ _ _ (granted_of_serves C hserves hgrants)).2
    | _ => exact hgrants
  · intro hgrants
    refine hq.same (fun key hpend => ?_) fun j e q hj _ _ => by rw [hsites, hj]
    rw [hstore] at hpend
    rcases pending_of_storeAfter C hpend with hold | ⟨rfl, habsent⟩
    · exact hold
    · exact absurd habsent hgrants

/-- **A step of a working system leaves no orphan exactly when it spares the owners.** -/
theorem allOwned_step (hs : Ownership C s) (hq : AllOwned C s) {a : Action (world Γ)}
    (h : Lib.step (pointMachine Γ) s a = some s')
    (hworks : Works (look (pointMachine Γ) s) a (look (pointMachine Γ) s'))
    (hlive : NoExpiry C s a s') :
    AllOwned C s' ↔ SparesOwners C (look (pointMachine Γ) s) a (look (pointMachine Γ) s') := by
  cases (step_cases h).move with
  | spawn i d hspawn hi hsites hshared hdet =>
    subst hspawn
    refine ⟨fun _ => trivial, fun _ => hq.same ?_ ?_⟩
    · intro key hpend
      rw [statusOf, hshared, spawn_eq] at hpend
      exact hpend
    · intro j e q hj _ _
      have hji : j ≠ i := by
        rintro rfl
        rw [sites_none s j hi] at hj
        cases hj
      rw [hsites, Function.update_of_ne hji, hj]
  | reach i d p hresume hi hsites hshared hdet =>
    subst hresume
    refine ⟨fun _ => trivial, fun _ => hq.same ?_ ?_⟩
    · intro key hpend
      rw [statusOf, hshared, reachPoint_eq] at hpend
      exact hpend
    · exact fun j e q hj _ _ => by rw [hsites, hj]
  | serve i ch d p c k hserve hi hv hsites hshared hdet =>
    subst hserve
    refine ⟨fun _ => trivial, fun _ => ?_⟩
    have hc : (pointMachine Γ).head d p = some c := Machine.head_of_view hv
    have hserves : storeServes c ch s.shared = true := hworks (d, c) (look_waiting hi hc)
    exact hq.serve (sites_of_threads s i hi) hv hserves hsites hshared
  | drop i d p next hdrop hi hnext hsites hshared hdet =>
    rcases hdrop with ⟨hth, ⟨ch, err, rfl⟩ | ⟨ch, rfl, rfl⟩⟩ | ⟨hth, fate, ch, rfl, rfl⟩
    · exact hworks.elim
    · rw [allOwned_drop hs hq hi hsites hshared, not_owner_iff (d := d)]
      simp only [SparesOwners, look_awaits (pointMachine Γ) hth,
        look_approaches_of_waiting (pointMachine Γ) hth]
      cases (pointMachine Γ).head d p <;> simp
    · rw [allOwned_drop hs hq hi hsites hshared, not_owner_iff (d := d)]
      simp only [SparesOwners, look_awaits_of_answered (pointMachine Γ) hth,
        look_approaches (pointMachine Γ) hth]
      cases (pointMachine Γ).head d p <;> simp
  | act i ch d p c next hact hi hc hlose hnext hsites hshared hdet =>
    rcases hact with ⟨err, rfl⟩ | ⟨rfl, rfl⟩
    · exact hworks.elim
    · have hserves : storeServes c ch s.shared = true := hworks (d, c) (look_waiting hi hc)
      rw [allOwned_act hs hq (sites_of_threads s i hi) hc hserves hsites hshared]
      refine ⟨fun h => ⟨fun x hx => ?_, fun x hx => ?_⟩, fun h => ?_⟩
      · obtain rfl := Option.some.inj ((look_waiting hi hc).symm.trans hx)
        exact h
      · rw [look_approaches_of_waiting (pointMachine Γ) hi] at hx
        cases hx
      · exact h.1 (d, c) (look_waiting hi hc)
  | defer i d p c next hdefer hi hc hlose hnext hsites hshared hdet =>
    rcases hdefer with ⟨ch, err, rfl⟩ | ⟨ch, rfl, rfl⟩
    · exact hworks.elim
    · rw [allOwned_drop hs hq (sites_of_threads s i hi) hsites hshared, owner_iff_of_head hc]
      simp only [SparesOwners, look_waiting hi hc, look_approaches_of_waiting (pointMachine Γ) hi]
      simp
  | land n ch i d c hland hn hsites hshared hdet =>
    subst hland
    have hserves : storeServes c ch s.shared = true := hworks (i, d, c) hn
    rw [allOwned_land hs hq (List.mem_of_getElem? hn) hserves hsites hshared]
    refine ⟨fun h x hx => ?_, fun h => h (i, d, c) hn⟩
    obtain rfl := Option.some.inj (hn.symm.trans hx)
    exact h
  | drift e hdrift hsites hshared hdet =>
    subst hdrift
    refine ⟨fun _ => trivial, fun _ => hq.same ?_ ?_⟩
    · exact fun key hpend => (hlive key).symm.trans hpend
    · exact fun j e q hj _ _ => by rw [hsites, hj]

/-- INTERNAL: the exactness rule for the points. -/
theorem allOwned_always_iff {now : ℕ} {store : Γ.store.State} {dlq : List DlqRecord}
    (hstart : ∀ key, C.status now store key ≠ .pending) {as : List (Action (world Γ))}
    (hworks : Along (step (pointMachine Γ))
      (fun s a s' => Works (look (pointMachine Γ) s) a (look (pointMachine Γ) s'))
      (fresh (pointMachine Γ) (.initial now store dlq)) as)
    (hlive : Along (step (pointMachine Γ)) (NoExpiry C)
      (fresh (pointMachine Γ) (.initial now store dlq)) as) :
    Always (step (pointMachine Γ)) (AllOwned C)
        (fresh (pointMachine Γ) (.initial now store dlq)) as ↔
      Along (step (pointMachine Γ))
        (fun s a s' => SparesOwners C (look (pointMachine Γ) s) a (look (pointMachine Γ) s'))
        (fresh (pointMachine Γ) (.initial now store dlq)) as := by
  refine always_iff_along (J := Ownership C) ?_ ?_ (.fresh _) ?_ (along_and.mpr ⟨hworks, hlive⟩)
  · exact fun s a s' h ha hs => hs.step h ha.2
  · exact fun s a s' h ha hs hq => allOwned_step hs hq h ha.1 ha.2
  · exact fun key hpend => absurd hpend (hstart key)

end

/-! ## The result -/

/-- **No claim is orphaned exactly as long as owners are spared.**  Take any subscriptions
over a store that keeps its contract, with no key pending at the beginning, and any run
in which the store and the network work and no entry expires.  A key is pending only
while a live worker owns it, and any other key that is not done can be claimed, in every
state of the run, if and only if the run aborts workers only where they own no claim or
where the call that ends it is served, and grants no claim to a worker that is gone.
SRC: subscriber.rs:62-101, subscriber.rs:398-522 -/
theorem no_orphan_iff (Γ : Deployment U E) (C : Γ.store.Contract) (now : ℕ)
    (store : Γ.store.State) (dlq : List DlqRecord)
    (hstart : ∀ key, C.status now store key ≠ .pending) (as : List (Action (world Γ)))
    (hworks : Along (step (codeMachine Γ))
      (fun s a s' => Works (look (codeMachine Γ) s) a (look (codeMachine Γ) s'))
      (fresh (codeMachine Γ) (.initial now store dlq)) as)
    (hlive : Along (step (codeMachine Γ)) (NoExpiry C)
      (fresh (codeMachine Γ) (.initial now store dlq)) as) :
    Always (step (codeMachine Γ)) (fun s => NoOrphan C (look (codeMachine Γ) s))
        (fresh (codeMachine Γ) (.initial now store dlq)) as ↔
      Along (step (codeMachine Γ))
        (fun s a s' => SparesOwners C (look (codeMachine Γ) s) a (look (codeMachine Γ) s'))
        (fresh (codeMachine Γ) (.initial now store dlq)) as := by
  rw [along_look_hom (pointsOfCode Γ)] at hworks ⊢
  have hlive' : Along (step (pointMachine Γ)) (NoExpiry C)
      (fresh (pointMachine Γ) (.initial now store dlq)) as :=
    (along_look_hom (pointsOfCode Γ) (C := NoExpiry C) _ as).mp hlive
  have hpoints : ∀ s, NoOrphan C (look (pointMachine Γ) s) ↔ AllOwned C s := by
    intro s
    simp only [noOrphan_iff, liveOwner_look]
    exact Iff.rfl
  rw [always_look_hom (pointsOfCode Γ) (Q := NoOrphan C),
    ← allOwned_always_iff hstart hworks hlive']
  exact ⟨fun h => h.mono fun s => (hpoints s).mp, fun h => h.mono fun s => (hpoints s).mpr⟩

/-- A worker is aborted inside its handler, and the message is delivered again. -/
def abortedRun : List (Action (world events)) :=
  undisturbed 0 (eventsDelivery "billing" "6ba7b810-9dad-11d1-80b4-00c04fd430c8" 1 1)
      (.ok ()) 1 ++
    [.abort 0 .dropped (eventsChoice (.ok ()))] ++
    undisturbed 1 (eventsDelivery "billing" "6ba7b810-9dad-11d1-80b4-00c04fd430c8" 1 2)
      (.ok ()) 2

/-- **Claims are orphaned.**  After the run, in which the store and the network work and
nothing expires, the key is pending, the second delivery has been refused, and no worker
is left that owns the claim. -/
theorem orphaned_events :
    Along (step (codeMachine events))
        (fun s a s' => Works (look (codeMachine events) s) a (look (codeMachine events) s'))
        (fresh (codeMachine events) (.initial 0 (fun _ => none) [])) abortedRun ∧
      Along (step (codeMachine events)) (NoExpiry (RedisIdempotencyStore.contract _))
        (fresh (codeMachine events) (.initial 0 (fun _ => none) [])) abortedRun ∧
      ¬ Always (step (codeMachine events))
        (fun s => NoOrphan (RedisIdempotencyStore.contract _) (look (codeMachine events) s))
        (fresh (codeMachine events) (.initial 0 (fun _ => none) [])) abortedRun := by
  have hquiet : ∀ a ∈ abortedRun, Action.isDrift a = false := by decide +kernel
  refine ⟨by decide +kernel,
    Along.of_forall (fun a ha s s' => noExpiry_of_not_drift (hquiet a ha)) _, fun h => ?_⟩
  have hlast : ((run (step (codeMachine events))
      (fresh (codeMachine events) (.initial 0 (fun _ => none) [])) abortedRun).any fun s =>
        decide ((RedisIdempotencyStore.connect {}).status s.shared.now s.shared.store
          (eventsDelivery "billing" "6ba7b810-9dad-11d1-80b4-00c04fd430c8" 1 1).msgId = .pending) &&
        [0, 1].all fun i => (((look (codeMachine events) s).sites i).bind Prod.snd).isNone) =
      true := by
    decide +kernel
  have hstarts : ∀ a ∈ abortedRun, Action.starts a = none ∨ Action.starts a = some 0 ∨
      Action.starts a = some 1 := by
    decide +kernel
  obtain ⟨s, hrun, hs⟩ := (Option.any_eq_true _ _).mp hlast
  simp only [Bool.and_eq_true, decide_eq_true_eq, List.all_cons, List.all_nil] at hs
  obtain ⟨hpend, h0, h1, -⟩ := hs
  obtain ⟨i, d, c, hi, -, -⟩ := (h.last hrun).owned _ hpend
  by_cases hi0 : i = 0
  · subst hi0
    rw [hi] at h0
    cases h0
  by_cases hi1 : i = 1
  · subst hi1
    rw [hi] at h1
    cases h1
  -- there are no other workers
  have hnone : s.threads i = none := by
    refine run_threads_none hrun (fun a ha hstart => ?_) rfl
    rcases hstarts a ha with hst | hst | hst <;> rw [hst] at hstart
    · cases hstart
    · exact hi0 (Option.some.inj hstart).symm
    · exact hi1 (Option.some.inj hstart).symm
  rw [sites_none _ i (by rw [look_threads, hnone]; rfl)] at hi
  cases hi

/-- A worker is aborted at its `mark_done`, which is served. -/
def sparedRun : List (Action (world events)) :=
  undisturbed 0 (eventsDelivery "billing" "6ba7b810-9dad-11d1-80b4-00c04fd430c8" 1 1)
      (.ok ()) 2 ++
    [.abort 0 .served (eventsChoice (.ok ()))]

/-- INTERNAL: the result on a run that aborts no owner. -/
theorem no_orphan_iff_events :
    Always (step (codeMachine events))
        (fun s => NoOrphan (RedisIdempotencyStore.contract _) (look (codeMachine events) s))
        (fresh (codeMachine events) (.initial 0 (fun _ => none) [])) sparedRun ↔
      Along (step (codeMachine events))
        (fun s a s' => SparesOwners (RedisIdempotencyStore.contract _)
          (look (codeMachine events) s) a (look (codeMachine events) s'))
        (fresh (codeMachine events) (.initial 0 (fun _ => none) [])) sparedRun := by
  have hquiet : ∀ a ∈ sparedRun, Action.isDrift a = false := by decide +kernel
  exact no_orphan_iff events _ 0 _ [] (fun key hpend => by cases hpend) _ (by decide +kernel)
    (Along.of_forall (fun a ha s s' => noExpiry_of_not_drift (hquiet a ha)) _)

end EventBus.Analysis
