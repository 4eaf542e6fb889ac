import EventBus.Interface.ControlPoints
import EventBus.Lib.Local

/-!
# What serving a call changes

The effect of a call, one component of the shared state at a time: the clock never moves,
the store is the answer of the store, the log grows by at most one line.  Results about
runs use these equations and never unfold an effect.  `line_of_step` says how a line comes
into the log.
-/

set_option autoImplicit false

namespace EventBus.Interface

open EventBus.Model EventBus.Lib

variable {U E : Type} {Γ : Deployment U E}

/-- The store after a call is served. -/
def storeAfter : Call U E → Choice Γ → Shared Γ → Γ.store.State
  | .tryClaim key, ch, sh => (Γ.store.tryClaim sh.now ch.store key sh.store).2
  | .markDone key, ch, sh => (Γ.store.markDone sh.now ch.store key sh.store).2
  | .release key, ch, sh => (Γ.store.release sh.now ch.store key sh.store).2
  | _, _, sh => sh.store

/-- The dead letters after a call is served. -/
def dlqAfter : Call U E → Shared Γ → List DlqRecord
  | .publishWithHeaders subject headers payload _, sh => (sh.publish subject headers payload).dlq
  | _, sh => sh.dlq

/-- The line that serving a call adds to the log. -/
def noted (seen : Bool) : Call U E → Choice Γ → Shared Γ → Option Occurrence
  | .tryClaim key, ch, sh =>
    match (Γ.store.tryClaim sh.now ch.store key sh.store).1 with
    | .ok .claimed => some .claimed
    | _ => none
  | .markDone key, ch, sh =>
    match (Γ.store.markDone sh.now ch.store key sh.store).1 with
    | .ok _ => some .markedDone
    | .error _ => none
  | .release key, ch, sh =>
    match (Γ.store.release sh.now ch.store key sh.store).1 with
    | .ok _ => some .released
    | .error _ => none
  | .handle _ _, ch, _ => some (.handled ch.handler)
  | .unixTimestampSeconds, _, _ => none
  | .publishWithHeaders _ _ _ _, _, _ => some (if seen then .dlqAcked else .dlqLost)
  | .doubleAck, _, _ => some .acked
  | .nakWithDelay _, _, _ => some .naked
  | .term, _, _ => some .termed

/-- Which call adds which line, a rule for each kind of line. -/
inductive Notes (seen : Bool) (ch : Choice Γ) (sh : Shared Γ) : Call U E → Occurrence → Prop where
  | claimed (key : MessageId U)
      (h : (Γ.store.tryClaim sh.now ch.store key sh.store).1 = .ok .claimed) :
      Notes seen ch sh (.tryClaim key) .claimed
  | markedDone (key : MessageId U)
      (h : (Γ.store.markDone sh.now ch.store key sh.store).1.toBool = true) :
      Notes seen ch sh (.markDone key) .markedDone
  | released (key : MessageId U)
      (h : (Γ.store.release sh.now ch.store key sh.store).1.toBool = true) :
      Notes seen ch sh (.release key) .released
  | handled (ctx : HandlerCtx U) (event : E) :
      Notes seen ch sh (.handle ctx event) (.handled ch.handler)
  | dlqAcked (subject : String) (headers : HeaderMap) (payload : Bytes)
      (timeout : Option Duration) (h : seen = true) :
      Notes seen ch sh (.publishWithHeaders subject headers payload timeout) .dlqAcked
  | dlqLost (subject : String) (headers : HeaderMap) (payload : Bytes)
      (timeout : Option Duration) (h : seen = false) :
      Notes seen ch sh (.publishWithHeaders subject headers payload timeout) .dlqLost
  | acked : Notes seen ch sh .doubleAck .acked
  | naked (delay : Duration) : Notes seen ch sh (.nakWithDelay delay) .naked
  | termed : Notes seen ch sh .term .termed

/-- INTERNAL: every line is added by its call. -/
theorem notes_of_noted {seen : Bool} {c : Call U E} {ch : Choice Γ} {sh : Shared Γ}
    {what : Occurrence} (h : noted seen c ch sh = some what) : Notes seen ch sh c what := by
  cases c with
  | tryClaim key =>
    simp only [noted] at h
    split at h
    · rename_i hclaimed
      obtain rfl := Option.some.inj h
      exact .claimed key hclaimed
    · cases h
  | markDone key =>
    simp only [noted] at h
    split at h
    · rename_i hok
      obtain rfl := Option.some.inj h
      exact .markedDone key (by rw [hok]; rfl)
    · cases h
  | release key =>
    simp only [noted] at h
    split at h
    · rename_i hok
      obtain rfl := Option.some.inj h
      exact .released key (by rw [hok]; rfl)
    · cases h
  | handle ctx event =>
    obtain rfl := Option.some.inj h
    exact .handled ctx event
  | publishWithHeaders subject headers payload timeout =>
    obtain rfl := Option.some.inj h
    cases seen
    · exact .dlqLost subject headers payload timeout rfl
    · exact .dlqAcked subject headers payload timeout rfl
  | unixTimestampSeconds => cases h
  | doubleAck =>
    obtain rfl := Option.some.inj h
    exact .acked
  | nakWithDelay delay =>
    obtain rfl := Option.some.inj h
    exact .naked delay
  | term =>
    obtain rfl := Option.some.inj h
    exact .termed

/-- A line, if there is one, added to the log. -/
def addLine (sh : Shared Γ) (i : ℕ) (d : Delivery Γ) : Option Occurrence → List (Entry Γ)
  | some what => ⟨i, d, sh.now, what⟩ :: sh.log
  | none => sh.log

section

variable (seen : Bool) (i : ℕ) (d : Delivery Γ) (c : Call U E) (ch : Choice Γ) (sh : Shared Γ)

/-- INTERNAL: serving a call, component by component. -/
theorem effect_eq : Shared.effect seen i d c ch sh =
    ⟨sh.now, storeAfter c ch sh, dlqAfter c sh, addLine sh i d (noted seen c ch sh)⟩ := by
  cases c with
  | tryClaim key =>
    simp only [Shared.effect, Shared.tryClaim, storeAfter, dlqAfter, noted]
    rcases Γ.store.tryClaim sh.now ch.store key sh.store with ⟨e | (_ | _ | _), store⟩ <;> rfl
  | markDone key =>
    simp only [Shared.effect, Shared.markDone, storeAfter, dlqAfter, noted]
    rcases Γ.store.markDone sh.now ch.store key sh.store with ⟨e | _, store⟩ <;> rfl
  | release key =>
    simp only [Shared.effect, Shared.release, storeAfter, dlqAfter, noted]
    rcases Γ.store.release sh.now ch.store key sh.store with ⟨e | _, store⟩ <;> rfl
  | publishWithHeaders subject headers payload timeout =>
    have hp : sh.publish subject headers payload =
        ⟨sh.now, sh.store, (sh.publish subject headers payload).dlq, sh.log⟩ := by
      unfold Shared.publish
      split <;> rfl
    simp only [Shared.effect, dlqAfter, storeAfter, noted]
    rw [hp]
    rfl
  | handle ctx event => rfl
  | unixTimestampSeconds => rfl
  | doubleAck => rfl
  | nakWithDelay delay => rfl
  | term => rfl

/-- INTERNAL: no call moves the clock. -/
@[simp] theorem effect_now : (Shared.effect seen i d c ch sh).now = sh.now := by
  rw [effect_eq]

/-- INTERNAL: what a call does to the store. -/
theorem effect_store : (Shared.effect seen i d c ch sh).store = storeAfter c ch sh := by
  rw [effect_eq]

/-- INTERNAL: what a call does to the dead letters. -/
theorem effect_dlq : (Shared.effect seen i d c ch sh).dlq = dlqAfter c sh := by
  rw [effect_eq]

/-- INTERNAL: the line that a call adds to the log. -/
theorem effect_log :
    (Shared.effect seen i d c ch sh).log = addLine sh i d (noted seen c ch sh) := by
  rw [effect_eq]

/-- INTERNAL: no line is taken from the log. -/
theorem mem_addLine {e : Entry Γ} (what : Option Occurrence) (he : e ∈ sh.log) :
    e ∈ addLine sh i d what := by
  cases what with
  | none => exact he
  | some what => exact List.mem_cons_of_mem _ he

/-- INTERNAL: the log grows by an added line. -/
theorem log_subset_addLine (what : Option Occurrence) : sh.log ⊆ addLine sh i d what :=
  fun _ he => mem_addLine i d sh what he

/-- INTERNAL: the log grows with every call. -/
theorem log_subset_effect : sh.log ⊆ (Shared.effect seen i d c ch sh).log := by
  rw [effect_log]
  exact log_subset_addLine ..

/-- INTERNAL: a line of the log was there before or is the one that is added. -/
theorem of_mem_addLine {what : Option Occurrence} {e : Entry Γ} (he : e ∈ addLine sh i d what) :
    e ∈ sh.log ∨ ∃ w, what = some w ∧ e = ⟨i, d, sh.now, w⟩ := by
  cases what with
  | none => exact .inl he
  | some w =>
    rcases List.mem_cons.mp he with rfl | hold
    · exact .inr ⟨w, rfl, rfl⟩
    · exact .inl hold

end

/-- INTERNAL: only calls that others serve can be lost and still be served. -/
theorem isRemote_of_losable {c : Call U E} (h : Losable (world Γ) c) : c.isRemote = true := by
  rcases h with h | ⟨err, r, hr⟩
  · exact h
  · cases c <;> first | rfl | cases hr

/-- Coming to a point adds to the log that the handler begins, if it does, and changes
nothing else. -/
def reachLine : Point E → Option Occurrence
  | .handle _ => some .began
  | _ => none

section

variable [UuidCrate U]

/-- INTERNAL: what a worker does where it comes to a point. -/
theorem reachPoint_eq (i : ℕ) (d : Delivery Γ) (p : Point E) (sh : Shared Γ) :
    reachPoint (pointMachine Γ) i d p sh =
      ⟨sh.now, sh.store, sh.dlq, addLine sh i d (reachLine p)⟩ := by
  cases p <;> rfl

/-- INTERNAL: a worker starts with its claim, or has nothing to do.
SRC: subscriber.rs:361-370 -/
theorem start_cases (d : Delivery Γ) :
    (pointMachine Γ).start d = Point.claim ∨ (pointMachine Γ).start d = Point.finished := by
  by_cases h : d.readable = true
  · exact .inl (if_pos h)
  · exact .inr (if_neg h)

/-- INTERNAL: starting a worker adds one line to the log and changes nothing else. -/
theorem spawn_eq (i : ℕ) (d : Delivery Γ) (sh : Shared Γ) :
    reachPoint (pointMachine Γ) i d ((pointMachine Γ).start d) (sh.note i d .delivered) =
      sh.note i d .delivered := by
  rw [reachPoint_eq]
  rcases start_cases d with h | h <;> rw [h] <;> rfl

/-- How a line comes into the log in a step: a worker starts or comes to its handler, its call is
served, its call takes effect behind its back, or one that is under way does. -/
inductive NewLine (s s' : State (world Γ) (Point E)) (e : Entry Γ) : Prop where
  | delivered (hwhat : e.what = .delivered)
  | began (hwhat : e.what = .began)
  | served {p : Point E} {c : Call U E} {k : c.Resp → Point E} {ch : Choice Γ}
      (hi : s.threads e.worker = some ⟨e.delivery, .waiting p⟩)
      (hv : p.view e.delivery = some ⟨c, k⟩)
      (hnoted : noted true c ch s.shared = some e.what)
      (hsite : s'.sites e.worker = some (e.delivery, k (Shared.answer c ch s.shared)))
  | lost {p : Point E} {c : Call U E} {ch : Choice Γ}
      (hi : s.threads e.worker = some ⟨e.delivery, .waiting p⟩)
      (hc : (pointMachine Γ).head e.delivery p = some c) (hlose : Losable (world Γ) c)
      (hnoted : noted false c ch s.shared = some e.what)
  | landed {c : Call U E} {ch : Choice Γ} (hmem : (e.worker, e.delivery, c) ∈ s.detached)
      (hnoted : noted false c ch s.shared = some e.what)

/-- **A line of the log is old, or new in one of these ways.** -/
theorem line_of_step {s s' : State (world Γ) (Point E)} {a : Action (world Γ)}
    (h : step (pointMachine Γ) s a = some s') {e : Entry Γ} (he : e ∈ s'.shared.log) :
    e ∈ s.shared.log ∨ NewLine s s' e := by
  cases (step_cases h).move with
  | spawn i d ha hi hsites hshared hdet =>
    rw [hshared, spawn_eq] at he
    rcases List.mem_cons.mp he with rfl | hold
    · exact .inr (.delivered rfl)
    · exact .inl hold
  | reach i d p ha hi hsites hshared hdet =>
    rw [hshared, reachPoint_eq] at he
    rcases of_mem_addLine i d s.shared he with hold | ⟨w, hw, rfl⟩
    · exact .inl hold
    · cases p <;> cases hw
      exact .inr (.began rfl)
  | serve i ch d p c k ha hi hv hsites hshared hdet =>
    rw [hshared, effect_log] at he
    rcases of_mem_addLine i d s.shared he with hold | ⟨w, hw, rfl⟩
    · exact .inl hold
    · exact .inr (.served hi hv hw (by rw [hsites, Function.update_self]))
  | drop i d p next ha hi hnext hsites hshared hdet => exact .inl (hshared ▸ he)
  | act i ch d p c next ha hi hc hlose hnext hsites hshared hdet =>
    rw [hshared, effect_log] at he
    rcases of_mem_addLine i d s.shared he with hold | ⟨w, hw, rfl⟩
    · exact .inl hold
    · exact .inr (.lost hi hc hlose hw)
  | defer i d p c next ha hi hc hlose hnext hsites hshared hdet => exact .inl (hshared ▸ he)
  | land n ch i d c ha hn hsites hshared hdet =>
    rw [hshared, effect_log] at he
    rcases of_mem_addLine i d s.shared he with hold | ⟨w, hw, rfl⟩
    · exact .inl hold
    · exact .inr (.landed (List.mem_of_getElem? hn) hw)
  | drift e' ha hsites hshared hdet =>
    rw [hshared] at he
    exact .inl he

end

end EventBus.Interface
