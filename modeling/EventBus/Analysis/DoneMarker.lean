import EventBus.Analysis.Ownership
import EventBus.Analysis.Settlement

/-!
# How long a done marker lasts

`mark_done` writes an entry that lives for the ttl of the store, and while it is there no
claim of its key is granted.  But a claim expires as well: a worker whose handler takes
longer than the ttl still performs its `mark_done` or `release` after another worker has
been granted the key, and neither looks whose entry it is.

The counterexample is such a run: a late `release` removes the done entry of the worker
that has taken over.  The result says that takeovers are the only way: as long as no
worker begins its handler, marks done or releases after another has been granted its key,
a done marker lasts its ttl and a release removes no entry but the worker's own.
-/

set_option autoImplicit false

namespace EventBus.Analysis

open EventBus.Model EventBus.Lib EventBus.Interface

variable {U E : Type} [UuidCrate U]

/-! ## The log -/

section

variable {Γ : Deployment U E}

/-- The line of a granted claim of the key. -/
def Claims (e : Entry Γ) (key : MessageId U) : Prop :=
  e.what = .claimed ∧ e.delivery.msgId = key

/-- The line of a `mark_done` of the key that has taken effect. -/
def Marks (e : Entry Γ) (key : MessageId U) : Prop :=
  e.what = .markedDone ∧ e.delivery.msgId = key

/-- The line of a handler invocation that begins for the key. -/
def Begins (e : Entry Γ) (key : MessageId U) : Prop :=
  e.what = .began ∧ e.delivery.msgId = key

/-- The claim of the key that was granted last was granted to worker `i`. -/
def LatestClaim (key : MessageId U) (i : ℕ) : List (Entry Γ) → Prop
  | [] => False
  | e :: log => (Claims e key ∧ e.worker = i) ∨ (¬ Claims e key ∧ LatestClaim key i log)

/-- No handler invocation begins for a key within `ttl` milliseconds after a `mark_done` of
the key has taken effect. -/
def DoneLasts (ttl : ℕ) (log : List (Entry Γ)) : Prop :=
  log.Pairwise fun later earlier => Begins later later.delivery.msgId →
    Marks earlier later.delivery.msgId → earlier.time + ttl ≤ later.time

section Decidable

variable [DecidableEq U]

instance (e : Entry Γ) (key : MessageId U) : Decidable (Claims e key) :=
  inferInstanceAs (Decidable (_ ∧ _))

instance (e : Entry Γ) (key : MessageId U) : Decidable (Marks e key) :=
  inferInstanceAs (Decidable (_ ∧ _))

instance (e : Entry Γ) (key : MessageId U) : Decidable (Begins e key) :=
  inferInstanceAs (Decidable (_ ∧ _))

instance LatestClaim.decidable (key : MessageId U) (i : ℕ) :
    (log : List (Entry Γ)) → Decidable (LatestClaim key i log)
  | [] => isFalse id
  | _ :: log =>
    have : Decidable (LatestClaim key i log) := LatestClaim.decidable key i log
    inferInstanceAs (Decidable (_ ∨ _))

instance (ttl : ℕ) (log : List (Entry Γ)) : Decidable (DoneLasts ttl log) :=
  inferInstanceAs (Decidable (List.Pairwise _ log))

end Decidable

/-- INTERNAL: the last claim of a key was granted to one worker. -/
theorem LatestClaim.unique {key : MessageId U} {i j : ℕ} {log : List (Entry Γ)}
    (hi : LatestClaim key i log) (hj : LatestClaim key j log) : i = j := by
  induction log with
  | nil => exact hi.elim
  | cons e log ih =>
    rcases hi with ⟨he, rfl⟩ | ⟨he, hi⟩
    · rcases hj with ⟨-, hj⟩ | ⟨hne, -⟩
      · exact hj
      · exact absurd he hne
    · rcases hj with ⟨hj, -⟩ | ⟨-, hj⟩
      · exact absurd hj he
      · exact ih hi hj

/-- INTERNAL: lines that grant nothing do not change who was granted a key last. -/
theorem latestClaim_addLine {sh : Shared Γ} {j : ℕ} {d : Delivery Γ} {what : Option Occurrence}
    {key : MessageId U} {i : ℕ} (hw : what ≠ some .claimed ∨ d.msgId ≠ key) :
    LatestClaim key i (addLine sh j d what) ↔ LatestClaim key i sh.log := by
  cases what with
  | none => exact Iff.rfl
  | some w =>
    have hne : ¬ Claims (⟨j, d, sh.now, w⟩ : Entry Γ) key := by
      rintro ⟨hclaimed, hkey⟩
      rcases hw with hw | hw
      · exact hw (congrArg some hclaimed)
      · exact hw hkey
    simp only [addLine, LatestClaim, hne, false_and, not_false_eq_true, true_and, false_or]

/-- INTERNAL: what is marked was marked before, or is now. -/
theorem marks_addLine {sh : Shared Γ} {j : ℕ} {d : Delivery Γ} {what : Option Occurrence}
    {key : MessageId U} {e : Entry Γ} (he : e ∈ addLine sh j d what) (hmarks : Marks e key) :
    e ∈ sh.log ∨ (what = some .markedDone ∧ d.msgId = key ∧ e.time = sh.now) := by
  rcases of_mem_addLine j d sh he with hold | ⟨w, rfl, rfl⟩
  · exact .inl hold
  · obtain ⟨hmarked, hkey⟩ := hmarks
    exact .inr ⟨congrArg some hmarked, hkey, rfl⟩

/-- INTERNAL: lines that begin no handler keep what the log says about done markers. -/
theorem DoneLasts.addLine {ttl : ℕ} {sh : Shared Γ} (h : DoneLasts ttl sh.log) (j : ℕ)
    (d : Delivery Γ) {what : Option Occurrence}
    (hbegan : what = some .began → ∀ e ∈ sh.log, Marks e d.msgId → e.time + ttl ≤ sh.now) :
    DoneLasts ttl (addLine sh j d what) := by
  cases what with
  | none => exact h
  | some w =>
    refine List.pairwise_cons.mpr ⟨fun e he hbegins hmarks => ?_, h⟩
    exact hbegan (congrArg some hbegins.1) e he hmarks

/-! ## The condition -/

/-- The call is to the handler. -/
def Call.isHandle : Call U E → Bool
  | .handle _ _ => true
  | _ => false

/-- No worker begins its handler, marks done or releases after another worker has been
granted the claim of its key. -/
def NoTakeover (s : State (world Γ) (Option (Call U E))) (a : Action (world Γ))
    (_ : State (world Γ) (Option (Call U E))) : Prop :=
  match a with
  | .serve i _ => ∀ x ∈ s.awaits i, (ends x.2).isSome = true →
      LatestClaim x.1.msgId i s.shared.log
  | .resume i => ∀ x ∈ s.approaches i, Call.isHandle x.2 = true →
      LatestClaim x.1.msgId i s.shared.log
  | _ => True

/-- A release that is served removes no entry but the pending one of its own worker: the
key has no entry, or a pending one and nobody was granted it since. -/
def ReleasesOwn (C : Γ.store.Contract) (s : State (world Γ) (Option (Call U E)))
    (a : Action (world Γ)) (_ : State (world Γ) (Option (Call U E))) : Prop :=
  match a with
  | .serve i _ => ∀ x ∈ s.awaits i, ∀ key ∈ releases x.2, statusOf C s key = .absent ∨
      (statusOf C s key = .pending ∧ LatestClaim key i s.shared.log)
  | _ => True

instance [DecidableEq U] (s s' : State (world Γ) (Option (Call U E))) (a : Action (world Γ)) :
    Decidable (NoTakeover s a s') :=
  match a with
  | .serve i _ => inferInstanceAs (Decidable (∀ x ∈ s.awaits i, _))
  | .resume i => inferInstanceAs (Decidable (∀ x ∈ s.approaches i, _))
  | .spawn _ _ | .fail _ _ _ _ | .abort _ _ _ | .land _ _ | .drift _ => isTrue trivial

end

/-! ## Done entries -/

section Redis

/-- The key has a done entry that lives until `t` at least. -/
def DoneUntil (redis : RedisIdempotencyStore) (t : ℕ) (key : MessageId U) (db : Redis.Db) : Prop :=
  ∃ entry, db (redis.fullKey key) = some entry ∧ entry.value = "done" ∧ t ≤ entry.expiresAt

variable {redis : RedisIdempotencyStore} {now t : ℕ} {key k : MessageId U} {db : Redis.Db}

/-- INTERNAL: a key that is done until later is done. -/
theorem DoneUntil.status (h : DoneUntil redis t key db) (hnow : now < t) :
    redis.status now db key = .done := by
  obtain ⟨entry, hentry, hdone, ht⟩ := h
  have hlive : now < entry.expiresAt := by omega
  simp [RedisIdempotencyStore.status, Redis.get, hentry, hlive, hdone]

/-- INTERNAL: writes to other keys leave it so. -/
theorem DoneUntil.update (h : DoneUntil redis t key db) (hk : key ≠ k) (e : Option Redis.Entry) :
    DoneUntil redis t key (Function.update db (redis.fullKey k) e) := by
  obtain ⟨entry, hentry, hrest⟩ := h
  exact ⟨entry, by rw [Function.update_of_ne (redis.fullKey_ne hk), hentry], hrest⟩

/-- INTERNAL: a claim leaves a live done entry alone. -/
theorem DoneUntil.tryClaim (h : DoneUntil redis t key db) (hnow : now < t) :
    DoneUntil redis t key (redis.tryClaim now k db).2 := by
  rcases redis.tryClaim_cases now k db with ⟨hst, hdb, -⟩ | ⟨-, hdb⟩ | ⟨-, hdb⟩ | ⟨-, hdb⟩ <;>
    rw [hdb]
  · refine h.update ?_ _
    rintro rfl
    rw [h.status hnow] at hst
    cases hst
  all_goals exact h

/-- INTERNAL: `mark_done` shortens no done entry. -/
theorem DoneUntil.markDone (h : DoneUntil redis t key db) (ht : t ≤ now + redis.ttlMs) :
    DoneUntil redis t key (redis.markDone now k db).2 := by
  rcases redis.markDone_cases now k db with ⟨hdb, -⟩ | hdb <;> rw [hdb]
  · by_cases hk : key = k
    · subst hk
      exact ⟨_, Function.update_self .., rfl, ht⟩
    · exact h.update hk _
  · exact h

/-- INTERNAL: marking makes it so for the time to live.
SRC: redis.rs:97-109 -/
theorem doneUntil_of_markDone (h : (redis.markDone now key db).1.toBool = true) :
    DoneUntil redis (now + redis.ttlMs) key (redis.markDone now key db).2 := by
  rcases redis.markDone_cases now key db with ⟨hdb, -⟩ | hdb <;> rw [hdb] at h ⊢
  · exact ⟨_, Function.update_self .., rfl, Nat.le_refl _⟩
  · cases h

/-! ## The invariant -/

variable {Sub : Type} {options : Sub → ProcessingOptions}
  {fromSlice : Sub → Bytes → Except String E} {window : String → ℕ}
  {s s' : State (world (U := U) (.overRedis redis options fromSlice window)) (Point E)}

/-- Done markers last, and who was granted a key last and still owns it does not find it
done. -/
structure DoneInv
    (s : State (world (U := U) (.overRedis redis options fromSlice window)) (Point E)) :
    Prop where
  past : ∀ e ∈ s.shared.log, e.time ≤ s.shared.now
  lasts : ∀ e ∈ s.shared.log, ∀ key, Marks e key → s.shared.now < e.time + redis.ttlMs →
    DoneUntil redis (e.time + redis.ttlMs) key s.shared.store
  own : ∀ i d p, s.sites i = some (d, p) → Owner p → LatestClaim d.msgId i s.shared.log →
    redis.status s.shared.now s.shared.store d.msgId ≠ .done
  log : DoneLasts redis.ttlMs s.shared.log

/-- INTERNAL: who was granted a key last and still owns it finds no done marker that should
last. -/
theorem DoneInv.expired (hs : DoneInv s) {i : ℕ}
    {d : Delivery (.overRedis redis options fromSlice window)}
    {p : Point E} (hi : s.sites i = some (d, p)) (hp : Owner p)
    (hlatest : LatestClaim d.msgId i s.shared.log) :
    ∀ e ∈ s.shared.log, Marks e d.msgId → e.time + redis.ttlMs ≤ s.shared.now := by
  intro e he hmarks
  by_contra hlive
  have hdone := hs.lasts e he d.msgId hmarks (by omega)
  exact hs.own i d p hi hp hlatest (hdone.status (by omega))

omit [UuidCrate U] in
/-- INTERNAL: the times in the log are past when a line is added. -/
theorem past_addLine {Γ : Deployment U E} {sh : Shared Γ} (h : ∀ e ∈ sh.log, e.time ≤ sh.now)
    (i : ℕ) (d : Delivery Γ) (what : Option Occurrence) :
    ∀ e ∈ addLine sh i d what, e.time ≤ sh.now := by
  intro e he
  rcases of_mem_addLine i d sh he with hold | ⟨w, -, rfl⟩
  · exact h e hold
  · exact Nat.le_refl _

/-- INTERNAL: a call that takes effect leaves the done markers that should last, if it is no
release of one. -/
theorem doneUntil_effect {seen : Bool} {i : ℕ}
    {d : Delivery (.overRedis redis options fromSlice window)} {c : Call U E}
    {ch : Choice (.overRedis redis options fromSlice window)}
    {sh : Shared (.overRedis (U := U) redis options fromSlice window)}
    (hc : ∃ p, (pointMachine _).head d p = some c)
    (hpast : ∀ e ∈ sh.log, e.time ≤ sh.now)
    (hlasts : ∀ e ∈ sh.log, ∀ key, Marks e key → sh.now < e.time + redis.ttlMs →
      DoneUntil redis (e.time + redis.ttlMs) key sh.store)
    (hrel : c = .release d.msgId → ∀ e ∈ sh.log, Marks e d.msgId → e.time + redis.ttlMs ≤ sh.now) :
    ∀ e ∈ addLine sh i d (noted seen c ch sh), ∀ key, Marks e key →
      sh.now < e.time + redis.ttlMs →
        DoneUntil redis (e.time + redis.ttlMs) key (storeAfter c ch sh) := by
  obtain ⟨p, hc⟩ := hc
  intro e he key hmarks hlive
  rcases marks_addLine he hmarks with hold | ⟨hw, rfl, htime⟩
  · have hdone := hlasts e hold key hmarks hlive
    have hpast := hpast e hold
    cases c with
    | tryClaim k => exact hdone.tryClaim hlive
    | markDone k => exact hdone.markDone (by omega)
    | release k =>
      by_cases hk : key = k
      · subst hk
        have hkey : key = d.msgId := (owner_of_ends hc rfl).2
        subst hkey
        exact absurd (hrel rfl e hold hmarks) (by omega)
      · exact hdone.update hk none
    | _ => exact hdone
  · generalize hwhat : Occurrence.markedDone = what at hw
    cases notes_of_noted hw with
    | markedDone key hok =>
      have hkey : key = d.msgId := (owner_of_ends hc rfl).2
      subst hkey
      rw [htime]
      exact doneUntil_of_markDone hok
    | _ => cases hwhat

/-- INTERNAL: only `mark_done` makes a key of the Redis store done. -/
theorem redis_done_of_storeAfter {c : Call U E}
    {ch : Choice (.overRedis redis options fromSlice window)}
    {sh : Shared (.overRedis redis options fromSlice window)}
    (hdone : redis.status sh.now (storeAfter c ch sh) key = .done) :
    redis.status sh.now sh.store key = .done ∨ c = .markDone key :=
  done_of_storeAfter (show Store.Contract (Deployment.overRedis redis options fromSlice
    window).store from redis.contract) hdone

/-- INTERNAL: where the clock and the store stand still, a line that grants and marks nothing
keeps the invariant if it keeps what the log says about done markers. -/
theorem DoneInv.quiet (hs : DoneInv s) {i : ℕ}
    {d : Delivery (.overRedis (U := U) redis options fromSlice window)} {what : Option Occurrence}
    (hsites : ∀ j e q, s'.sites j = some (e, q) → Owner q → s.sites j = some (e, q))
    (hshared : s'.shared =
      ⟨s.shared.now, s.shared.store, s.shared.dlq, addLine s.shared i d what⟩)
    (hclaimed : what ≠ some .claimed) (hmarked : what ≠ some .markedDone)
    (hbegan : what = some .began → ∀ e ∈ s.shared.log, Marks e d.msgId →
      e.time + redis.ttlMs ≤ s.shared.now) : DoneInv s' := by
  refine ⟨?_, ?_, fun j e q hj hq => ?_, ?_⟩ <;> rw [hshared]
  · exact past_addLine hs.past i d _
  · intro e he key hmarks hlive
    rcases marks_addLine he hmarks with hold | ⟨hw, -⟩
    · exact hs.lasts e hold key hmarks hlive
    · exact absurd hw hmarked
  · intro hlatest
    exact hs.own j e q (hsites j e q hj hq) hq ((latestClaim_addLine (.inl hclaimed)).mp hlatest)
  · exact hs.log.addLine i d hbegan

/-- INTERNAL: the worker that is served does not find its key done while it owns the claim. -/
theorem DoneInv.own_served (hs : DoneInv s) {i : ℕ}
    {d : Delivery (.overRedis (U := U) redis options fromSlice window)} {p : Point E}
    {c : Call U E} {k : c.Resp → Point E}
    {ch : Choice (.overRedis redis options fromSlice window)}
    (hi : s.sites i = some (d, p)) (hv : Point.view d p = some ⟨c, k⟩)
    (hq : Owner (k (Shared.answer c ch s.shared)))
    (hlatest : LatestClaim d.msgId i (addLine s.shared i d (noted true c ch s.shared))) :
    redis.status s.shared.now (storeAfter c ch s.shared) d.msgId ≠ .done := by
  intro hdone
  rcases owner_answer hv _ hq with ⟨rfl, hclaimed⟩ | ⟨hp, hends⟩
  · -- the claim was granted just now
    have hpending := (redis.contract.of_claimed _ _ _ _ hclaimed).2
    exact absurd (hdone.symm.trans hpending) (by simp)
  · have hold : LatestClaim d.msgId i s.shared.log := by
      refine (latestClaim_addLine (.inl fun hw => ?_)).mp hlatest
      generalize hwhat : Occurrence.claimed = what at hw
      cases notes_of_noted hw with
      | claimed key hclaimed => cases hp <;> cases hv
      | _ => cases hwhat
    rcases redis_done_of_storeAfter hdone with hdone | rfl
    · exact hs.own i d p hi hp hold hdone
    · cases hends

/-- INTERNAL: who was granted its key last does not find it done when another worker is
served. -/
theorem DoneInv.own_other (hs : DoneInv s) {i j : ℕ} (hji : j ≠ i)
    {d e : Delivery (.overRedis (U := U) redis options fromSlice window)} {p q : Point E}
    {c : Call U E} {ch : Choice (.overRedis redis options fromSlice window)}
    (hc : (pointMachine _).head d p = some c) (hj : s.sites j = some (e, q)) (hq : Owner q)
    (hends : ∀ key, ends c = some key → LatestClaim d.msgId i s.shared.log)
    (hlatest : LatestClaim e.msgId j (addLine s.shared i d (noted true c ch s.shared))) :
    redis.status s.shared.now (storeAfter c ch s.shared) e.msgId ≠ .done := by
  intro hdone
  have hother : noted true c ch s.shared ≠ some .claimed ∨ d.msgId ≠ e.msgId := by
    by_contra hboth
    obtain ⟨hw, hkey⟩ := not_or.mp hboth
    have hw := not_not.mp hw
    have hkey := not_not.mp hkey
    rw [hw] at hlatest
    rcases hlatest with ⟨-, hij⟩ | ⟨hne, -⟩
    · exact hji hij.symm
    · exact hne ⟨rfl, hkey⟩
  have hold : LatestClaim e.msgId j s.shared.log := (latestClaim_addLine hother).mp hlatest
  rcases redis_done_of_storeAfter hdone with hdone | rfl
  · exact hs.own j e q hj hq hold hdone
  · have hkey : e.msgId = d.msgId := (owner_of_ends hc rfl).2
    rw [hkey] at hold
    exact hji (hold.unique (hends _ rfl))

/-- **A step without a takeover keeps the invariant.** -/
theorem DoneInv.step {a : Action (world (U := U) (.overRedis redis options fromSlice window))}
    (h : Lib.step (pointMachine _) s a = some s') (hfault : NoFault s a s')
    (hmine : NoTakeover (look (pointMachine _) s) a (look (pointMachine _) s'))
    (hs : DoneInv s) : DoneInv s' := by
  cases calm_of_noFault h hfault with
  | spawn i d ha hi hsites hshared =>
    refine hs.quiet ?_ hshared (by simp) (by simp) (by simp)
    rw [hsites]
    refine forall_sites_update (fun j e q hj => hj) (fun j e q _ hj _ => hj) ?_
    intro e q hq ho
    obtain ⟨rfl, rfl⟩ := Prod.mk.inj (Option.some.inj hq)
    rcases start_cases d with hstart | hstart <;>
      (rw [hstart] at ho; cases ho)
  | reach i d p ha hi hsites hshared =>
    refine hs.quiet (fun j e q hj _ => hsites ▸ hj) hshared ?_ ?_ fun hw => ?_
    · cases p <;> simp [reachLine]
    · cases p <;> simp [reachLine]
    · cases p with
      | handle event =>
        -- the handler begins, and nobody has been granted the claim since
        have hlatest : LatestClaim d.msgId i s.shared.log := by
          subst ha
          exact hmine _ (look_approaches (pointMachine _) hi) rfl
        exact hs.expired (sites_of_threads s i hi) (.handle event) hlatest
      | _ => cases hw
  | serve i ch d p c k ha hi hv hsites hshared =>
    subst ha
    have hsite : s.sites i = some (d, p) := sites_of_threads s i hi
    have hc : (pointMachine _).head d p = some c := Machine.head_of_view hv
    -- who ends its claim was granted it last
    have hlatest : ∀ key, ends c = some key → LatestClaim d.msgId i s.shared.log := by
      intro key hkey
      exact hmine _ (look_waiting hi hc) (by rw [hkey]; rfl)
    refine ⟨?_, ?_, fun j e q hj hq => ?_, ?_⟩ <;> rw [hshared]
    · exact past_addLine hs.past i d _
    · refine doneUntil_effect ⟨p, hc⟩ hs.past hs.lasts ?_
      rintro rfl
      exact hs.expired hsite (owner_of_ends hc rfl).1 (hlatest _ rfl)
    · by_cases hji : j = i
      · subst hji
        rw [hsites, Function.update_self] at hj
        obtain ⟨rfl, rfl⟩ := Prod.mk.inj (Option.some.inj hj)
        exact hs.own_served hsite hv hq
      · rw [hsites, Function.update_of_ne hji] at hj
        exact hs.own_other hji hc hj hq hlatest
    · refine hs.log.addLine i d fun hw => ?_
      generalize hwhat : Occurrence.began = what at hw
      cases notes_of_noted hw <;> cases hwhat
  | drift e ha hsites hshared =>
    have hlater : s.shared.now ≤ s'.shared.now := by
      rw [hshared]
      exact Nat.le_add_right _ _
    have hstore : s'.shared.store = s.shared.store := by rw [hshared]; rfl
    have hlog : s'.shared.log = s.shared.log := by rw [hshared]
    refine ⟨?_, ?_, ?_, ?_⟩
    · rw [hlog]
      exact fun e he => Nat.le_trans (hs.past e he) hlater
    · rw [hlog, hstore]
      exact fun e he key hmarks hlive => hs.lasts e he key hmarks (by omega)
    · rw [hsites, hlog, hstore]
      exact fun j e q hj hq hlatest hdone =>
        hs.own j e q hj hq hlatest (redis.status_done_of_le hlater _ _ hdone)
    · rw [hlog]
      exact hs.log

/-- INTERNAL: a release without a takeover removes no entry but the worker's own. -/
theorem DoneInv.releasesOwn
    {a : Action (world (U := U) (.overRedis redis options fromSlice window))}
    (h : Lib.step (pointMachine _) s a = some s') (hfault : NoFault s a s')
    (hmine : NoTakeover (look (pointMachine _) s) a (look (pointMachine _) s')) (hs : DoneInv s) :
    ReleasesOwn redis.contract (look (pointMachine _) s) a (look (pointMachine _) s') := by
  cases calm_of_noFault h hfault with
  | serve i ch d p c k ha hi hv hsites hshared =>
    subst ha
    have hc : (pointMachine _).head d p = some c := Machine.head_of_view hv
    rintro x hx key hkey
    obtain rfl := Option.some.inj ((look_waiting hi hc).symm.trans hx)
    have hends : ends c = some key := by
      cases c <;> cases hkey
      rfl
    obtain ⟨hp, rfl⟩ := owner_of_ends hc hends
    have hlatest := hmine _ hx (by rw [hends]; rfl)
    have hst := hs.own i d p (sites_of_threads s i hi) hp hlatest
    change redis.status s.shared.now s.shared.store d.msgId = .absent ∨
      (redis.status s.shared.now s.shared.store d.msgId = .pending ∧ _)
    cases hstatus : redis.status s.shared.now s.shared.store d.msgId with
    | absent => exact .inl rfl
    | pending => exact .inr ⟨rfl, hlatest⟩
    | done => exact absurd hstatus hst
  | spawn i d ha => subst ha; trivial
  | reach i d p ha => subst ha; trivial
  | drift e ha => subst ha; trivial

/-- INTERNAL: nothing is done before any delivery, as far as the log goes. -/
theorem DoneInv.fresh {now : ℕ} {db : Redis.Db} {dlq : List DlqRecord} :
    DoneInv (fresh (pointMachine (.overRedis (U := U) redis options fromSlice window))
      (.initial now db dlq)) where
  past e he := by cases he
  lasts e he := by cases he
  own i d p hi := by cases hi
  log := .nil

/-! ## The result -/

/-- **A done marker lasts its ttl as long as nobody acts on a claim that was taken over.**
Take any subscriptions over one Redis store of any content, whose entries expire the ttl
after they are written, and any run without faults: any deliveries, any interleaving,
handlers of any duration.  If no worker begins its handler, marks done or releases after
another worker has been granted the claim of its key, then no handler invocation begins
for a key within the ttl after a `mark_done` of it, and no release removes an entry that
is done or belongs to another worker.
SRC: redis.rs:76-120, subscriber.rs:457-596 -/
theorem done_marker_lasts (redis : RedisIdempotencyStore) (options : Sub → ProcessingOptions)
    (fromSlice : Sub → Bytes → Except String E) (window : String → ℕ) (now : ℕ)
    (db : Redis.Db) (dlq : List DlqRecord)
    (as : List (Action (world (U := U) (.overRedis redis options fromSlice window))))
    (hfault : Along (step (codeMachine (.overRedis redis options fromSlice window))) NoFault
      (fresh (codeMachine _) (.initial now db dlq)) as)
    (hmine : Along (step (codeMachine (.overRedis redis options fromSlice window)))
      (fun s a s' => NoTakeover (look (codeMachine _) s) a (look (codeMachine _) s'))
      (fresh (codeMachine _) (.initial now db dlq)) as) :
    Always (step (codeMachine (.overRedis redis options fromSlice window)))
        (fun s => DoneLasts redis.ttlMs s.shared.log)
        (fresh (codeMachine _) (.initial now db dlq)) as ∧
      Along (step (codeMachine (.overRedis redis options fromSlice window)))
        (fun s a s' =>
          ReleasesOwn redis.contract (look (codeMachine _) s) a (look (codeMachine _) s'))
        (fresh (codeMachine _) (.initial now db dlq)) as := by
  rw [along_look_hom (pointsOfCode _)] at hmine
  have hfault' := (along_look_hom (pointsOfCode _) (C := NoFault) _ as).mp hfault
  have hboth := along_and.mpr ⟨hfault', hmine⟩
  have hinv : Always (step (pointMachine (.overRedis redis options fromSlice window))) DoneInv
      (fresh (pointMachine _) (.initial now db dlq)) as :=
    always_of_invariant (fun _ _ _ h hC hs => DoneInv.step h hC.1 hC.2 hs) .fresh hboth
  have hlog := hinv.mono fun s hs => hs.log
  refine ⟨(always_shared_hom (pointsOfCode _) (Q := fun sh => DoneLasts redis.ttlMs sh.log) _
    as).mpr hlog, ?_⟩
  rw [along_look_hom (pointsOfCode _)]
  exact Along.of_always hinv hboth fun _ _ _ h hC hs _ => hs.releasesOwn h hC.1 hC.2

/-- A handler runs for longer than the ttl, a redelivery takes over and succeeds, and then
the first handler fails and the message is delivered once more. -/
def takenOverRun : List (Action (world events)) :=
  undisturbed 0 (eventsDelivery "billing" "6ba7b810-9dad-11d1-80b4-00c04fd430c8" 1 1)
      (.ok ()) 1 ++
    [.drift ⟨604800000, ()⟩] ++
    undisturbed 1 (eventsDelivery "billing" "6ba7b810-9dad-11d1-80b4-00c04fd430c8" 1 2)
      (.ok ()) 4 ++
    [.serve 0 (eventsChoice (.error (.transient "timeout"))), .resume 0,
      .serve 0 (eventsChoice (.ok ())), .resume 0] ++
    undisturbed 2 (eventsDelivery "billing" "6ba7b810-9dad-11d1-80b4-00c04fd430c8" 1 3)
      (.ok ()) 1

/-- **A done marker can be lost.**  In the run, which has no fault, the handler begins for
the third time in the very millisecond in which the message was marked done. -/
theorem done_marker_lost_events :
    Along (step (codeMachine events)) NoFault
        (fresh (codeMachine events) (.initial 0 (fun _ => none) [])) takenOverRun ∧
      ¬ Always (step (codeMachine events))
        (fun s => DoneLasts (RedisIdempotencyStore.connect {}).ttlMs s.shared.log)
        (fresh (codeMachine events) (.initial 0 (fun _ => none) [])) takenOverRun := by
  refine ⟨?_, ?_⟩ <;> decide +kernel

/-- A handler runs for longer than the ttl and succeeds, and nobody takes over. -/
def outlivedRun : List (Action (world events)) :=
  undisturbed 0 (eventsDelivery "billing" "6ba7b810-9dad-11d1-80b4-00c04fd430c8" 1 1)
      (.ok ()) 1 ++
    [.drift ⟨604800000, ()⟩, .serve 0 (eventsChoice (.ok ())), .resume 0,
      .serve 0 (eventsChoice (.ok ())), .resume 0, .drift ⟨604799999, ()⟩] ++
    undisturbed 1 (eventsDelivery "billing" "6ba7b810-9dad-11d1-80b4-00c04fd430c8" 1 2)
      (.ok ()) 2

/-- INTERNAL: the result on a run in which a worker outlives its claim. -/
theorem done_marker_lasts_events :
    Always (step (codeMachine events))
        (fun s => DoneLasts (RedisIdempotencyStore.connect {}).ttlMs s.shared.log)
        (fresh (codeMachine events) (.initial 0 (fun _ => none) [])) outlivedRun ∧
      Along (step (codeMachine events))
        (fun s a s' => ReleasesOwn (RedisIdempotencyStore.contract _)
          (look (codeMachine events) s) a (look (codeMachine events) s'))
        (fresh (codeMachine events) (.initial 0 (fun _ => none) [])) outlivedRun := by
  have hfault : Along (step (codeMachine events)) NoFault
      (fresh (codeMachine events) (.initial 0 (fun _ => none) [])) outlivedRun := by
    decide +kernel
  have hmine : Along (step (codeMachine events))
      (fun s a s' => NoTakeover (look (codeMachine events) s) a (look (codeMachine events) s'))
      (fresh (codeMachine events) (.initial 0 (fun _ => none) [])) outlivedRun := by
    decide +kernel
  exact done_marker_lasts _ _ _ _ 0 _ [] _ hfault hmine

end Redis

end EventBus.Analysis
