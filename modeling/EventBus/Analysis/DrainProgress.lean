import Mathlib.Algebra.Order.BigOperators.Group.List
import Mathlib.Algebra.Order.Ring.Nat
import EventBus.Analysis.PermitWait
import EventBus.Analysis.Workers
import EventBus.Lib.Countdown

/-!
# A drain among the other subscriptions

`PermitWait` shows that the task of a drain comes to its end if its workers come to theirs.
Here the workers are those of `EventBus.Model.RunningBus`, which do what `process_message` does,
and the subscription is one of any number over one store.

`Staffed` says that whoever is on the list of a task is a worker that is not dead, and that no
message has a worker before the task starts one.  So a task that has to wait for a worker waits
for one that can go on, and a worker makes at most six calls (`callsLeft`).  What the other
subscriptions do, what becomes of calls that nobody waits for, and the time that passes touch
neither.
-/

set_option autoImplicit false

namespace EventBus.Analysis

open EventBus.Model EventBus.Lib EventBus.Interface
open Function (update)

variable {U E : Type} {Γ : Deployment U E} {number : Γ.Sub × ℕ ↪ ℕ} {M : Machine (world Γ)}

/-! ## The list of a task is of workers -/

/-- Whoever is on the list of the task is a worker that is not dead, and a message that was not
given to a worker has none. -/
structure Staffed (number : Γ.Sub × ℕ ↪ ℕ) (M : Machine (world Γ)) (t : State (world Γ) M.Point)
    (sub : Γ.Sub) (l : LoopState) : Prop where
  nodup : l.running.Nodup
  present : ∀ n ∈ l.running, ∃ th, t.threads (number (sub, n)) = some th ∧ th.ctl ≠ .dead
  pending : ∀ n, l.point.pending = some n → n < l.taken ∧ t.threads (number (sub, n)) = none
  taken : ∀ n th, t.threads (number (sub, n)) = some th → n < l.taken

section

variable {t t' : State (world Γ) M.Point} {a : Action (world Γ)} {sub : Γ.Sub} {l l' : LoopState}
  {n : ℕ}

/-- INTERNAL: what is dispatched is pending. -/
theorem pending_of_dispatches {p : LoopPoint} (h : p.dispatches = some n) :
    p.pending = some n := by
  cases p <;> cases h
  rfl

/-- INTERNAL: the threads move, none of the subscription is started, and none on its list is
aborted. -/
theorem Staffed.move (h : Staffed number M t sub l) (ht : Lib.step M t a = some t')
    (hstart : ∀ n, a.starts ≠ some (number (sub, n)))
    (habort : ∀ n ∈ l.running, a.aborts ≠ some (number (sub, n))) : Staffed number M t' sub l where
  nodup := h.nodup
  present n hn := by
    obtain ⟨th, hth, hdead⟩ := h.present n hn
    obtain ⟨th', hth', hjob⟩ := (step_cases ht).job_eq hth
    refine ⟨th', hth', fun hdead' => ?_⟩
    obtain ⟨job, ctl⟩ := th'
    obtain rfl : ctl = .dead := hdead'
    rcases (step_cases ht).dead_cases hth' with hbefore | haborts
    · obtain rfl := Option.some.inj (hth.symm.trans hbefore)
      exact hdead rfl
    · exact habort n hn haborts
  pending n hn := by
    obtain ⟨hlt, hnone⟩ := h.pending n hn
    exact ⟨hlt, (step_cases ht).threads_none (hstart n) hnone⟩
  taken n th hth := by
    cases hbefore : t.threads (number (sub, n)) with
    | none =>
      rw [(step_cases ht).threads_none (hstart n) hbefore] at hth
      cases hth
    | some th₀ => exact h.taken n th₀ hbefore

/-- INTERNAL: the task moves, and takes no message. -/
theorem Staffed.goto (h : Staffed number M t sub l) (hrunning : l'.running = l.running)
    (htaken : l'.taken = l.taken)
    (hpending : ∀ n, l'.point.pending = some n → l.point.pending = some n) :
    Staffed number M t sub l' where
  nodup := hrunning ▸ h.nodup
  present n hn := h.present n (hrunning ▸ hn)
  pending n hn := htaken ▸ h.pending n (hpending n hn)
  taken n th hth := htaken ▸ h.taken n th hth

/-- INTERNAL: the task does something that involves no worker. -/
theorem Staffed.task {b : LoopAction} (h : Staffed number M t sub l) (hl : l.step b = some l')
    (hb : b.ofWorker = false) : Staffed number M t sub l' := by
  have idle : ∀ {p : LoopPoint}, Idle p → ∀ n, p.pending = some n → l.point.pending = some n := by
    intro p hp n hn
    rw [hp.pending] at hn
    cases hn
  cases loopStep_of_step hl with
  | move hmove => exact h.goto rfl rfl (idle (idle_of_move hmove).2)
  | look hlook => exact h.goto rfl rfl (idle (idle_of_look hlook).2)
  | message hp =>
    refine ⟨h.nodup, h.present, fun n hn => ?_, fun n th hth => ?_⟩
    · obtain rfl := Option.some.inj hn
      refine ⟨Nat.lt_succ_self _, ?_⟩
      cases hth : t.threads (number (sub, l.taken)) with
      | none => rfl
      | some th => exact absurd (h.taken _ th hth) (Nat.lt_irrefl _)
    · exact Nat.lt_succ_of_lt (h.taken n th hth)
  | joined hp hn => exact h.goto rfl rfl nofun
  | joinedLast hp hn => exact h.goto rfl rfl nofun
  | acquire hp hfree => exact h.goto rfl rfl fun n hn => hp ▸ hn
  | spawn hp => cases hb
  | allJoined hp hrunning hfinished => exact h.goto rfl rfl nofun
  | finish hn hcancel => cases hb
  | drain hopen => exact h.goto rfl rfl fun _ hn => hn
  | returned hdraining hp => exact h.goto rfl rfl fun _ hn => hn
  | timeout hdraining hp => exact h.goto rfl rfl fun _ hn => hn
  | drop hopen => exact h.goto rfl rfl fun _ hn => hn
  | cancel haborted hp => exact h.goto rfl rfl nofun

/-- INTERNAL: the task takes a worker off its list. -/
theorem Staffed.finish {ending : Ending} (h : Staffed number M t sub l)
    (hl : l.step (.finish n ending) = some l') : Staffed number M t sub l' := by
  cases loopStep_of_step hl with
  | move hmove => exact absurd (ofWorker_of_move hmove) nofun
  | finish hn hcancel =>
    exact ⟨h.nodup.erase n, fun m hm => h.present m (List.mem_of_mem_erase hm), h.pending, h.taken⟩

/-- INTERNAL: who was taken off the list is not on it. -/
theorem Staffed.not_mem_finish {ending : Ending} (h : Staffed number M t sub l)
    (hl : l.step (.finish n ending) = some l') : n ∉ l'.running := by
  rw [(book_of_finish hl).1]
  exact h.nodup.not_mem_erase

/-- INTERNAL: the task starts the worker of the message it has. -/
theorem Staffed.spawn {msg : Message} (h : Staffed number M t sub l)
    (hn : l.point.dispatches = some n) (hl : l.step .spawn = some l')
    (ht : Lib.step M t (.spawn (number (sub, n)) ⟨sub, msg⟩) = some t') :
    Staffed number M t' sub l' := by
  obtain ⟨hlt, hnone⟩ := h.pending n (pending_of_dispatches hn)
  have hfresh : n ∉ l.running := by
    intro hmem
    obtain ⟨th, hth, -⟩ := h.present n hmem
    rw [hnone] at hth
    cases hth
  have hstarted : t'.threads (number (sub, n)) =
      some ⟨⟨sub, msg⟩, .waiting (M.start ⟨sub, msg⟩)⟩ := by
    cases step_cases ht with
    | spawn hfree => rw [enter_threads, Function.update_self]
  have hother : ∀ {m : ℕ}, m ≠ n → t'.threads (number (sub, m)) = t.threads (number (sub, m)) := by
    intro m hm
    apply (step_cases ht).threads_of_ne
    intro heq
    have hpair := number.injective (Option.some.inj heq)
    exact hm (Prod.mk.inj hpair).2.symm
  cases loopStep_of_step hl with
  | move hmove => exact absurd (ofWorker_of_move hmove) nofun
  | @spawn b k hp =>
    rw [hp] at hn
    obtain rfl := Option.some.inj hn
    refine ⟨List.nodup_cons.mpr ⟨hfresh, h.nodup⟩, fun m hm => ?_, nofun, fun m th hth => ?_⟩
    · rcases List.mem_cons.mp hm with rfl | hold
      · exact ⟨_, hstarted, nofun⟩
      · rw [hother fun heq => hfresh (heq ▸ hold)]
        exact h.present m hold
    · by_cases hm : m = k
      · exact hm ▸ hlt
      · rw [hother hm] at hth
        exact h.taken m th hth

end

variable [DecidableEq Γ.Sub] {x x' : BusState Γ M.Point} {g : BusAction Γ}

/-- **Every step of the bus keeps the lists of its tasks to workers.** -/
theorem staffed_step (h : busStep number M x g = some x')
    (hx : ∀ sub, Staffed number M x.2 sub (x.1 sub)) :
    ∀ sub, Staffed number M x'.2 sub (x'.1 sub) := by
  have aborted : ∀ {sub : Γ.Sub} {n : ℕ} {fate : Fate} {ch : Choice Γ} {ending : Ending}
      {l : LoopState} {t : State (world Γ) M.Point},
      (x.1 sub).step (.finish n ending) = some l →
      Lib.step M x.2 (.abort (number (sub, n)) fate ch) = some t →
      ∀ sub', Staffed number M t sub' (update x.1 sub l sub') := by
    intro sub n fate ch ending l t hl ht
    apply forall_update
    · intro sub' hsub
      refine (hx sub').move ht nofun fun m _ heq => ?_
      have hpair := number.injective (Option.some.inj heq)
      exact hsub (Prod.mk.inj hpair).1.symm
    · refine ((hx sub).finish hl).move ht nofun fun m hm heq => ?_
      have hpair := number.injective (Option.some.inj heq)
      obtain rfl := (Prod.mk.inj hpair).2
      exact (hx sub).not_mem_finish hl hm
  cases busStep_cases h with
  | @task sub a l ha hl => exact forall_update (fun sub' _ => hx sub') ((hx sub).task hl ha)
  | @spawn sub n msg l t hn hl ht =>
    refine forall_update (fun sub' hsub => ?_) ((hx sub).spawn hn hl ht)
    refine (hx sub').move ht (fun m heq => ?_) nofun
    have hpair := number.injective (Option.some.inj heq)
    exact hsub (Prod.mk.inj hpair).1.symm
  | @returned sub n l hended hl => exact forall_update (fun sub' _ => hx sub') ((hx sub).finish hl)
  | panicked hawaits hc hl ht => exact aborted hl ht
  | cancelled hl ht => exact aborted hl ht
  | @work a t ha ht =>
    intro sub
    refine (hx sub).move ht (fun n heq => ?_) fun n _ heq => ?_
    · cases a <;> cases ha <;> cases heq
    · cases a <;> cases ha <;> cases heq

omit [DecidableEq Γ.Sub] in
/-- Before any message the lists are empty and there are no threads. -/
theorem staffed_fresh {tasks : Γ.Sub → LoopState} {opts : Γ.Sub → SubscribeOptions}
    (hstart : ∀ sub, LoopState.start (opts sub) = some (tasks sub)) (sh : Shared Γ) (sub : Γ.Sub) :
    Staffed number M (Lib.fresh M sh) sub (tasks sub) := by
  obtain ⟨-, hl⟩ := start_eq_some (hstart sub)
  rw [hl]
  exact ⟨List.nodup_nil, fun n hn => absurd hn List.not_mem_nil, nofun, fun n th hth => nomatch hth⟩

/-! ## What the workers still have to do -/

section

variable {L : Countdown M} {t t' : State (world Γ) M.Point} {a : Action (world Γ)} {sub : Γ.Sub}
  {running : List ℕ} {n : ℕ}

/-- The steps that the workers on a list still take. -/
def workLeft (number : Γ.Sub × ℕ ↪ ℕ) (L : Countdown M) (t : State (world Γ) M.Point)
    (sub : Γ.Sub) (running : List ℕ) : ℕ :=
  (running.map fun n => L.steps (t.threads (number (sub, n)))).sum

omit [DecidableEq Γ.Sub]

/-- INTERNAL: no step of a worker makes work. -/
theorem workLeft_le (ht : Lib.step M t a = some t')
    (hstart : ∀ n ∈ running, a.starts ≠ some (number (sub, n))) :
    workLeft number L t' sub running ≤ workLeft number L t sub running :=
  List.sum_le_sum fun n hn => (step_cases ht).steps_le (hstart n hn)

/-- INTERNAL: a worker on the list takes a step. -/
theorem workLeft_lt (ht : Lib.step M t a = some t') (hn : n ∈ running)
    (ha : a.thread = some (number (sub, n))) (hstart : a.starts = none) (habort : a.aborts = none) :
    workLeft number L t' sub running < workLeft number L t sub running := by
  apply List.sum_lt_sum
  · intro m _
    apply (step_cases ht).steps_le
    rw [hstart]
    nofun
  · exact ⟨n, hn, (step_cases ht).steps_lt ha hstart habort⟩

/-- INTERNAL: a worker that is over leaves none. -/
theorem workLeft_erase :
    workLeft number L t sub (running.erase n) ≤ workLeft number L t sub running :=
  (List.erase_sublist.map _).sum_le_sum fun _ _ => Nat.zero_le _

/-- INTERNAL: a worker is put on the list. -/
theorem workLeft_spawn {msg : Message} {bound : ℕ} (hbound : ∀ d, L.left d (M.start d) ≤ bound)
    (ht : Lib.step M t (.spawn (number (sub, n)) ⟨sub, msg⟩) = some t') (hn : n ∉ running) :
    workLeft number L t' sub (n :: running) ≤ 2 * bound + workLeft number L t sub running := by
  have hstart : ∀ m ∈ running,
      (Action.spawn (W := world Γ) (number (sub, n)) ⟨sub, msg⟩).starts ≠
        some (number (sub, m)) := by
    intro m hm heq
    have hpair := number.injective (Option.some.inj heq)
    exact hn ((Prod.mk.inj hpair).2 ▸ hm)
  have hrest : workLeft number L t' sub running ≤ workLeft number L t sub running :=
    workLeft_le ht hstart
  have hnew : L.steps (t'.threads (number (sub, n))) = 2 * L.left ⟨sub, msg⟩ (M.start ⟨sub, msg⟩) :=
    (step_cases ht).steps_of_spawn
  have hle := hbound ⟨sub, msg⟩
  unfold workLeft at hrest ⊢
  rw [List.map_cons, List.sum_cons, hnew]
  omega

/-- INTERNAL: whoever takes a step lives. -/
theorem live_of_steps {i : ℕ} (ht : Lib.step M t a = some t') (L : Countdown M)
    (ha : a.thread = some i) (hstart : a.starts = none) (habort : a.aborts = none) :
    (look M t).live i = true := by
  have hlt : L.steps (t'.threads i) < L.steps (t.threads i) :=
    (step_cases ht).steps_lt ha hstart habort
  refine Bool.and_eq_true_iff.mpr ⟨?_, ?_⟩
  · cases hi : t.threads i with
    | none =>
      rw [hi] at hlt
      exact absurd hlt (Nat.not_lt_zero _)
    | some th =>
      rw [look_threads, hi]
      rfl
  · cases hover : (look M t).over i with
    | false => rfl
    | true =>
      rw [(step_cases ht).threads_of_over hover] at hlt
      exact absurd hlt (Nat.lt_irrefl _)

end

/-! ## The steps of one subscription -/

/-- The action is a step of the task of the subscription, of one of its workers, or of both. -/
def OwnStep (number : Γ.Sub × ℕ ↪ ℕ) (sub : Γ.Sub) : BusAction Γ → Prop
  | .task sub' _ | .spawn sub' _ _ | .returned sub' _ | .panicked sub' _ _
  | .cancelled sub' _ _ _ => sub' = sub
  | .work a => ∃ n, a.thread = some (number (sub, n))

/-- A drain of the subscription is under way, in a bus whose books are in order. -/
structure UnderDrain (number : Γ.Sub × ℕ ↪ ℕ) (M : Machine (world Γ)) (sub : Γ.Sub)
    (concurrency : ℕ) (x : BusState Γ M.Point) : Prop where
  tied : Tied number M x
  staffed : ∀ sub, Staffed number M x.2 sub (x.1 sub)
  joined : Joined (x.1 sub)
  draining : Draining concurrency (x.1 sub)

/-- The drain has returned `true`, and no worker of the subscription is left. -/
def DrainedQuietly (M : Machine (world Γ)) (sub : Γ.Sub) (x : BusState Γ M.Point) : Prop :=
  (x.1 sub).handle = .drained true ∧ ∀ i, ¬ WorksFor (look M x.2) sub i

section

variable {sub : Γ.Sub} {concurrency bound : ℕ} {L : Countdown M}

/-- The steps that the task and its workers still take. -/
def drainLeft (number : Γ.Sub × ℕ ↪ ℕ) (L : Countdown M) (bound : ℕ) (sub : Γ.Sub)
    (x : BusState Γ M.Point) : ℕ :=
  (2 * bound + 1) * drainRank (x.1 sub) + workLeft number L x.2 sub (x.1 sub).running

omit [DecidableEq Γ.Sub] in
/-- INTERNAL: a task that has ended has no worker left. -/
theorem drainedQuietly {x : BusState Γ M.Point} (htied : Tied number M x)
    (hjoined : Joined (x.1 sub)) (hdrained : (x.1 sub).handle = .drained true) :
    DrainedQuietly M sub x := by
  refine ⟨hdrained, ?_⟩
  rintro i ⟨hlive, th, hth, hsub⟩
  rw [look_threads] at hth
  obtain ⟨th₀, hth₀, rfl⟩ := Option.map_eq_some_iff.mp hth
  obtain ⟨n, rfl⟩ := htied.numbered i th₀ hth₀
  have hjob : th₀.job.sub = sub := hsub
  rw [hjob] at hlive
  have hn := (htied.agrees sub).live n hlive
  rw [hjoined.ended (hjoined.drained hdrained)] at hn
  cases hn

/-- INTERNAL: the task takes a step, and gives its workers no more to do than it does less
itself. -/
theorem UnderDrain.of_task {b : LoopAction} {l : LoopState}
    (hx : UnderDrain number M sub concurrency x) (h : busStep number M x g = some x')
    (hl : (x.1 sub).step b = some l) (hself : x'.1 sub = l) (hb : b ≠ .timeout)
    (hwork : workLeft number L x'.2 sub l.running ≤
      2 * bound + workLeft number L x.2 sub (x.1 sub).running) :
    DrainedQuietly M sub x' ∨ (UnderDrain number M sub concurrency x' ∧
      drainLeft number L bound sub x' < drainLeft number L bound sub x) := by
  subst hself
  have hjoined : Joined (x'.1 sub) := joined_step hl hx.joined
  rcases hx.draining.step hb hl with hdrained | ⟨hdraining, hlt⟩
  · exact .inl (drainedQuietly (hx.tied.step h) hjoined hdrained)
  · refine .inr ⟨⟨hx.tied.step h, staffed_step h hx.staffed, hjoined, hdraining⟩, ?_⟩
    have hmul : (2 * bound + 1) * (drainRank (x'.1 sub) + 1) ≤
        (2 * bound + 1) * drainRank (x.1 sub) := Nat.mul_le_mul_left _ hlt
    rw [Nat.mul_add_one] at hmul
    unfold drainLeft
    omega

/-- **Each step of the subscription brings its drain nearer to its end.** -/
theorem UnderDrain.step (hbound : ∀ d, L.left d (M.start d) ≤ bound)
    (hx : UnderDrain number M sub concurrency x) (h : busStep number M x g = some x')
    (hown : OwnStep number sub g) (hg : g ≠ .task sub .timeout) :
    DrainedQuietly M sub x' ∨ (UnderDrain number M sub concurrency x' ∧
      drainLeft number L bound sub x' < drainLeft number L bound sub x) := by
  have aborted : ∀ {n : ℕ} {fate : Fate} {ch : Choice Γ} {l : LoopState}
      {t : State (world Γ) M.Point} {ending : Ending},
      (x.1 sub).step (.finish n ending) = some l →
      Lib.step M x.2 (.abort (number (sub, n)) fate ch) = some t →
      workLeft number L t sub l.running ≤
        2 * bound + workLeft number L x.2 sub (x.1 sub).running := by
    intro n fate ch l t ending hl ht
    rw [(book_of_finish hl).1]
    have hmoved : workLeft number L t sub ((x.1 sub).running.erase n) ≤
        workLeft number L x.2 sub ((x.1 sub).running.erase n) := workLeft_le ht nofun
    have herased : workLeft number L x.2 sub ((x.1 sub).running.erase n) ≤
        workLeft number L x.2 sub (x.1 sub).running := workLeft_erase
    omega
  cases busStep_cases h with
  | @task sub' a l ha hl =>
    obtain rfl : sub' = sub := hown
    refine hx.of_task h hl (Function.update_self ..) (fun ha => hg (ha ▸ rfl)) ?_
    rw [(book_of_task hl ha).1]
    exact Nat.le_add_left _ _
  | @spawn sub' n msg l t hn hl ht =>
    obtain rfl : sub' = sub := hown
    refine hx.of_task h hl (Function.update_self ..) nofun ?_
    rw [(book_of_spawn hl hn).1]
    apply workLeft_spawn hbound ht
    intro hmem
    obtain ⟨th, hth, -⟩ := (hx.staffed sub').present n hmem
    rw [((hx.staffed sub').pending n (pending_of_dispatches hn)).2] at hth
    cases hth
  | @returned sub' n l hended hl =>
    obtain rfl : sub' = sub := hown
    refine hx.of_task h hl (Function.update_self ..) nofun ?_
    rw [(book_of_finish hl).1]
    exact Nat.le_trans workLeft_erase (Nat.le_add_left _ _)
  | panicked hawaits hc hl ht =>
    obtain rfl := hown
    exact hx.of_task h hl (Function.update_self ..) nofun (aborted hl ht)
  | cancelled hl ht =>
    obtain rfl := hown
    exact hx.of_task h hl (Function.update_self ..) nofun (aborted hl ht)
  | @work a t ha ht =>
    obtain ⟨n, hn⟩ := hown
    have hstart : a.starts = none := by
      cases a with
      | spawn i d => cases ha
      | _ => rfl
    have habort : a.aborts = none := by
      cases a with
      | abort i fate ch => cases ha
      | _ => rfl
    have hmem : n ∈ (x.1 sub).running :=
      (hx.tied.agrees sub).live n (live_of_steps ht L hn hstart habort)
    refine .inr ⟨⟨hx.tied.step h, staffed_step h hx.staffed, hx.joined, hx.draining⟩, ?_⟩
    exact Nat.add_lt_add_left (workLeft_lt ht hmem hn hstart habort) _

/-- INTERNAL: the others leave the task and its workers where they are. -/
theorem untouched (h : busStep number M x g = some x') (hg : ¬ OwnStep number sub g) :
    x'.1 sub = x.1 sub ∧ ∀ n, x'.2.threads (number (sub, n)) = x.2.threads (number (sub, n)) := by
  have task : ∀ {sub' : Γ.Sub} {l : LoopState}, sub' ≠ sub → update x.1 sub' l sub = x.1 sub :=
    fun hsub => Function.update_of_ne (Ne.symm hsub) ..
  have thread : ∀ {sub' : Γ.Sub} {n : ℕ} {a : Action (world Γ)} {t : State (world Γ) M.Point},
      sub' ≠ sub → Lib.step M x.2 a = some t → a.thread = some (number (sub', n)) →
      ∀ m, t.threads (number (sub, m)) = x.2.threads (number (sub, m)) := by
    intro sub' n a t hsub ht ha m
    apply (step_cases ht).threads_of_ne
    rw [ha]
    intro heq
    have hpair := number.injective (Option.some.inj heq)
    exact hsub (Prod.mk.inj hpair).1
  cases busStep_cases h with
  | task ha hl => exact ⟨task hg, fun _ => rfl⟩
  | spawn hn hl ht => exact ⟨task hg, thread hg ht rfl⟩
  | returned hended hl => exact ⟨task hg, fun _ => rfl⟩
  | panicked hawaits hc hl ht => exact ⟨task hg, thread hg ht rfl⟩
  | cancelled hl ht => exact ⟨task hg, thread hg ht rfl⟩
  | work ha ht => exact ⟨rfl, fun n => (step_cases ht).threads_of_ne fun heq => hg ⟨n, heq⟩⟩

/-- INTERNAL: the others keep the drain as it is. -/
theorem UnderDrain.other (hx : UnderDrain number M sub concurrency x)
    (h : busStep number M x g = some x') (hg : ¬ OwnStep number sub g) :
    UnderDrain number M sub concurrency x' ∧
      drainLeft number L bound sub x' ≤ drainLeft number L bound sub x := by
  obtain ⟨htask, hthreads⟩ := untouched h hg
  refine ⟨⟨hx.tied.step h, staffed_step h hx.staffed, htask ▸ hx.joined, htask ▸ hx.draining⟩, ?_⟩
  unfold drainLeft workLeft
  simp only [htask, hthreads]
  exact Nat.le_refl _

/-- INTERNAL: what the task and the threads allow, the bus does. -/
theorem exists_busStep {g : BusAction Γ} {a : LoopAction} {l : LoopState}
    {t : State (world Γ) M.Point} (hmay : (supervision number M).may x.1 x.2 g = true)
    (hleft : (supervision number M).left g = some (sub, a)) (hl : (x.1 sub).step a = some l)
    (hright : stepIf (Lib.step M) x.2 ((supervision number M).right g) = some t) :
    ∃ x', busStep number M x g = some x' := by
  refine ⟨(update x.1 sub l, t), Coupling.step_eq_some.mpr ⟨hmay, ?_, hright⟩⟩
  rw [hleft]
  exact each_eq_some.mpr ⟨l, hl, rfl⟩

/-- INTERNAL: a worker on the list goes on, or its end can be noted. -/
theorem UnderDrain.worker_live (hx : UnderDrain number M sub concurrency x) (ch : Choice Γ) {n : ℕ}
    (hn : n ∈ (x.1 sub).running) :
    ∃ g x', (OwnStep number sub g ∧ g ≠ .task sub .timeout) ∧ busStep number M x g = some x' := by
  obtain ⟨th, hth, hdead⟩ := (hx.staffed sub).present n hn
  rcases ended_or_goes_on ch hth hdead with hended | ⟨a, hthread, hstart, habort, hstep⟩
  · have hfinish : ((x.1 sub).step (.finish n .returned)).isSome = true := by
      simp only [LoopState.step, LoopState.finish]
      rw [if_pos ⟨hn, by simp⟩]
      rfl
    obtain ⟨l, hl⟩ := Option.isSome_iff_exists.mp hfinish
    have hmay : (supervision number M).may x.1 x.2 (.returned sub n) = true := hended
    obtain ⟨x', hx'⟩ := exists_busStep hmay rfl hl rfl
    exact ⟨.returned sub n, x', ⟨rfl, by simp⟩, hx'⟩
  · obtain ⟨t, ht⟩ := Option.isSome_iff_exists.mp hstep
    have hwork : BusAction.isWork a = true := by
      cases a with
      | spawn i d => cases hstart
      | abort i fate ch => cases habort
      | _ => rfl
    refine ⟨.work a, (x.1, t), ⟨⟨n, hthread⟩, by simp⟩, ?_⟩
    exact Coupling.step_eq_some.mpr ⟨hwork, rfl, ht⟩

/-- **The subscription can always go on.**  If its task waits for a worker, the worker can. -/
theorem UnderDrain.live (hx : UnderDrain number M sub concurrency x) (ch : Choice Γ)
    (hpermits : concurrency ≠ 0) :
    ∃ g x', (OwnStep number sub g ∧ g ≠ .task sub .timeout) ∧ busStep number M x g = some x' := by
  obtain ⟨a, l, ha, hl⟩ := hx.draining.live hpermits
  cases hworker : a.ofWorker with
  | false =>
    have hmay : (supervision number M).may x.1 x.2 (.task sub a) = true := by
      simp [supervision, hworker]
    obtain ⟨x', hx'⟩ := exists_busStep hmay rfl hl rfl
    refine ⟨.task sub a, x', ⟨rfl, fun heq => ?_⟩, hx'⟩
    exact ha (BusAction.task.inj heq).2
  | true =>
    cases loopStep_of_step hl with
    | move hmove =>
      rw [ofWorker_of_move hmove] at hworker
      cases hworker
    | @spawn b n hp =>
      have hdispatches : (x.1 sub).point.dispatches = some n := by
        rw [hp]
        rfl
      obtain ⟨-, hnone⟩ := (hx.staffed sub).pending n (pending_of_dispatches hdispatches)
      -- any message will do; which one the task has is not its business
      have hmay : (supervision number M).may x.1 x.2 (.spawn sub n ⟨"", none, [], .ok ⟨0, 0⟩⟩) =
          true := decide_eq_true hdispatches
      obtain ⟨t, ht⟩ := exists_spawn (M := M) ⟨sub, ⟨"", none, [], .ok ⟨0, 0⟩⟩⟩ hnone
      obtain ⟨x', hx'⟩ := exists_busStep hmay rfl hl ht
      exact ⟨.spawn sub n ⟨"", none, [], .ok ⟨0, 0⟩⟩, x', ⟨rfl, by simp⟩, hx'⟩
    | finish hn hcancel => exact hx.worker_live ch hn
    | _ => cases hworker

/-- INTERNAL: on any machine whose threads come to their ends. -/
theorem UnderDrain.inevitable (hbound : ∀ d, L.left d (M.start d) ≤ bound) (ch : Choice Γ)
    (hpermits : concurrency ≠ 0) (hx : UnderDrain number M sub concurrency x) :
    InevitablyAmid (busStep number M) (fun g => ¬ OwnStep number sub g)
      (fun g => OwnStep number sub g ∧ g ≠ .task sub .timeout) (DrainedQuietly M sub) x := by
  apply inevitablyAmid_of_rank (drainLeft number L bound sub) _ _ _ hx
  · intro y hy
    exact hy.live ch hpermits
  · intro y g y' hy hg h
    exact hy.step hbound h hg.1 hg.2
  · intro y g y' hy hg h
    exact hy.other h hg

end

/-! ## The workers of `process_message` -/

/-- A bound on the calls that a worker still makes. -/
def callsLeft : Point E → ℕ
  | .claim => 6
  | .handle _ => 5
  | .stamp _ _ => 4
  | .publish _ _ _ => 3
  | .markAck | .markTerm | .release _ => 2
  | .ack | .term | .nak _ => 1
  | .finished => 0

section

omit [DecidableEq Γ.Sub]

/-- INTERNAL: what fails for good has four calls left at most.
SRC: subscriber.rs:524-596 -/
theorem callsLeft_terminal (d : Delivery Γ) (cause : Cause) :
    callsLeft (Point.terminal d cause : Point E) ≤ 4 := by
  unfold Point.terminal
  cases d.options.dlqOpts <;> simp [callsLeft]

/-- INTERNAL: a claim leads at most to the handler. -/
theorem callsLeft_afterTryClaim (d : Delivery Γ) (outcome : Except BusError ClaimOutcome) :
    callsLeft (Point.afterTryClaim d outcome : Point E) ≤ 5 := by
  rcases outcome with e | (_ | _ | _)
  · simp [Point.afterTryClaim, callsLeft]
  · simp only [Point.afterTryClaim, Point.afterClaim]
    split
    · exact Nat.le_succ_of_le (callsLeft_terminal d _)
    · simp [callsLeft]
  · simp [Point.afterTryClaim, callsLeft]
  · simp [Point.afterTryClaim, callsLeft]

/-- INTERNAL: a handler leads at most to a dead letter. -/
theorem callsLeft_afterHandler (d : Delivery Γ) (result : Except HandlerError Unit) :
    callsLeft (Point.afterHandler d result : Point E) ≤ 4 := by
  rcases result with (reason | reason) | ⟨⟩
  · simp only [Point.afterHandler]
    split
    · exact callsLeft_terminal d _
    · simp [callsLeft]
  · exact callsLeft_terminal d _
  · simp [Point.afterHandler, callsLeft]

/-- INTERNAL: after its dead letter a worker has two calls left at most.
SRC: subscriber.rs:547-586 -/
theorem callsLeft_afterPublish (config : DlqConfig) (published : Except PublishFailure Unit) :
    callsLeft (Point.afterPublish config published : Point E) ≤ 2 := by
  rcases published with failure | ⟨⟩ <;> simp [Point.afterPublish, callsLeft]

variable [UuidCrate U]

/-- **A worker makes at most six calls**, and each answer brings it nearer to its end. -/
def workerCountdown (Γ : Deployment U E) : Countdown (pointMachine Γ) where
  left _ p := callsLeft p
  falls := by
    intro d p c k hv r
    cases p with
    | claim =>
      cases hv
      exact Nat.lt_succ_of_le (callsLeft_afterTryClaim d r)
    | handle event =>
      cases hv
      exact Nat.lt_succ_of_le (callsLeft_afterHandler d r)
    | publish config cause failedAt =>
      cases hv
      exact Nat.lt_succ_of_le (callsLeft_afterPublish config r)
    | finished => cases hv
    | _ =>
      cases hv
      simp [callsLeft]

/-- INTERNAL: at its start a worker has six calls left at most.
SRC: subscriber.rs:352-596 -/
theorem callsLeft_start (d : Delivery Γ) :
    (workerCountdown Γ).left d ((pointMachine Γ).start d) ≤ 6 := by
  simp only [workerCountdown]
  split <;> simp [callsLeft]

end

section

variable [UuidCrate U] {x : BusState Γ (pointMachine Γ).Point}

/-- What is kept of every subscription of a bus, whether it is drained or not. -/
structure InOrder (number : Γ.Sub × ℕ ↪ ℕ) (opts : Γ.Sub → SubscribeOptions)
    (x : BusState Γ (pointMachine Γ).Point) : Prop where
  tied : Tied number (pointMachine Γ) x
  staffed : ∀ sub, Staffed number (pointMachine Γ) x.2 sub (x.1 sub)
  tasks : ∀ sub, Joined (x.1 sub) ∧ InBalance (opts sub).concurrency (x.1 sub) ∧
    AbortedLate (x.1 sub)

/-- INTERNAL: every step of the bus keeps its order. -/
theorem inOrder_step {opts : Γ.Sub → SubscribeOptions} {x' : BusState Γ (pointMachine Γ).Point}
    {g : BusAction Γ} (h : busStep number (pointMachine Γ) x g = some x')
    (hx : InOrder number opts x) : InOrder number opts x' where
  tied := hx.tied.step h
  staffed := staffed_step h hx.staffed
  tasks := by
    refine stepIf_keeps (I := fun tasks : Γ.Sub → LoopState => ∀ sub, Joined (tasks sub) ∧
      InBalance (opts sub).concurrency (tasks sub) ∧ AbortedLate (tasks sub)) ?_
      (Coupling.step_eq_some.mp h).2.1 hx.tasks
    intro tasks a tasks' hstep htasks
    exact each_keeps (I := fun sub s => Joined s ∧ InBalance (opts sub).concurrency s ∧
        AbortedLate s)
      (fun _ _ _ _ hl hs =>
        ⟨joined_step hl hs.1, balanced_step hl hs.2.1, abortedLate_step hl hs.2.2⟩) hstep htasks

omit [UuidCrate U] in
/-- INTERNAL: what holds of all states of a bus, each read as one of another machine, holds of
all states of the bus over that machine. -/
theorem always_of_points {M N : Machine (world Γ)} (h : Hom M N) {Q : BusState Γ N.Point → Prop}
    (tasks : Γ.Sub → LoopState) (sh : Shared Γ) (gs : List (BusAction Γ))
    (hQ : Always (busStep number M) (fun x => Q (x.1, x.2.map h.map)) (tasks, fresh M sh) gs) :
    Always (busStep number N) Q (tasks, fresh N sh) gs :=
  (always_map (f := fun x : BusState Γ M.Point => (x.1, x.2.map h.map)) (busStep_hom h)
    (tasks, fresh M sh) gs).mpr hQ

/-- **A drain comes to its end, whatever the others do.**  Take any subscriptions over one store,
any run of their tasks and workers with faults, panics and aborts, and a subscription with a
permit whose drain is under way.  As long as the drain does not run into its timeout, the steps
of the task and of its workers lead to a state in which the drain has returned `true` and no
worker of the subscription is left; and before that one of them can always be taken.
SRC: subscriber.rs:74-89, subscriber.rs:286-343, subscriber.rs:352-596 -/
theorem drain_inevitable (Γ : Deployment U E) [DecidableEq Γ.Sub] [Nonempty Γ.store.Choice]
    (number : Γ.Sub × ℕ ↪ ℕ) (opts : Γ.Sub → SubscribeOptions) (tasks : Γ.Sub → LoopState)
    (hstart : ∀ sub, LoopState.start (opts sub) = some (tasks sub)) (sub : Γ.Sub)
    (hpermits : (opts sub).concurrency ≠ 0) (sh : Shared Γ) (gs : List (BusAction Γ)) :
    Always (busStep number (codeMachine Γ))
      (fun x => (x.1 sub).handle = .draining →
        InevitablyAmid (busStep number (codeMachine Γ)) (fun g => ¬ OwnStep number sub g)
          (fun g => OwnStep number sub g ∧ g ≠ .task sub .timeout)
          (DrainedQuietly (codeMachine Γ) sub) x)
      (tasks, fresh (codeMachine Γ) sh) gs := by
  have horder : Always (busStep number (pointMachine Γ)) (InOrder number opts)
      (tasks, fresh (pointMachine Γ) sh) gs := by
    refine always_of_step (fun _ _ _ h hx => inOrder_step h hx) ?_
    refine ⟨Tied.fresh hstart sh, fun sub => staffed_fresh hstart sh sub, fun sub => ?_⟩
    obtain ⟨-, hl⟩ := start_eq_some (hstart sub)
    refine ⟨?_, balanced_start (hstart sub), ?_⟩
    · show Joined (tasks sub)
      rw [hl]
      exact ⟨nofun, nofun⟩
    · show AbortedLate (tasks sub)
      rw [hl]
      exact ⟨fun _ => rfl, nofun, nofun⟩
  refine always_of_points (pointsOfCode Γ) tasks sh gs ?_
  refine horder.mono fun x hx hdraining => ?_
  obtain ⟨hjoined, hbalanced, hlate⟩ := hx.tasks sub
  obtain ⟨choice⟩ := ‹Nonempty Γ.store.Choice›
  have hdrain : UnderDrain number (pointMachine Γ) sub (opts sub).concurrency x :=
    ⟨hx.tied, hx.staffed, hjoined, ⟨hbalanced, hlate, hdraining⟩⟩
  refine (hdrain.inevitable (L := workerCountdown Γ) callsLeft_start ⟨choice, .ok ()⟩
    hpermits).map (busStep_hom (pointsOfCode Γ)) fun y hy => ?_
  refine ⟨hy.1, fun i => ?_⟩
  rw [look_hom]
  exact hy.2 i

/-- A drain begins while the first message is in its handler and the second one waits for the
permit, and nothing can keep it from its end. -/
theorem drain_inevitable_pair :
    ∃ x, run (busStep pairNumber (codeMachine pair)) pairInitial
        (pairWaits ++ [.task false .drain]) = some x ∧
      InevitablyAmid (busStep pairNumber (codeMachine pair))
        (fun g => ¬ OwnStep pairNumber (false : Bool) g)
        (fun g => OwnStep pairNumber (false : Bool) g ∧ g ≠ .task (false : Bool) .timeout)
        (DrainedQuietly (codeMachine pair) (false : Bool)) x := by
  have hend : (run (busStep pairNumber (codeMachine pair)) pairInitial
      (pairWaits ++ [.task false .drain])).map
        (fun x => decide ((x.1 (false : Bool)).handle = .draining)) = some true := by
    decide +kernel
  obtain ⟨x, hrun, hx⟩ := Option.map_eq_some_iff.mp hend
  have hchoice : Nonempty pair.store.Choice := ⟨()⟩
  have hdrain := (drain_inevitable pair pairNumber pairOptions pairTasks pair_start (false : Bool)
    (by decide) (.initial 0 (fun _ => none) []) _).last hrun
  exact ⟨x, hrun, hdrain (of_decide_eq_true hx)⟩

end

end EventBus.Analysis
