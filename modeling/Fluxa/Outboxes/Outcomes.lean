import Fluxa.Outboxes.Attempts

/-!
# Outboxes — fencing of outcomes

An outcome is written to the row with the message's identifier, whatever has become of the row since it was claimed.

* **`outbox_outcomes`**: in every run, on either outbox, each outcome finds the message pending under the claim it belongs to exactly when none is written for a claim that is no longer the newest; then a finished message is only put back or removed, and the time of delivery is set exactly when the message is delivered.
* **`late_failure_lands`**: a worker that outlives its lease puts a delivered message back to pending.
-/

namespace Fluxa
open Interleave Relational OutboxRow Db Contract Outboxes

namespace Outboxes

variable {R : Type} [OutboxRow R Uuid] (o : Drained R)

/-- Every message to which the statement writes the outcome of claim `k` has the property
`P k`. -/
def EndsOnly (P : Nat → OutboxColumns Uuid → Prop) (_ : Nat) (l : Event) (e : Env)
    (s : AppState) : Prop :=
  ∀ id k, l = .endMessage id k → e.fault ≠ .failed → ∀ r ∈ o.rows s, key r = id →
    P k (columns r)

/-- An outcome is written only for the newest claim on a message: not when the message has been
claimed again or put back since. -/
def NotSuperseded : Nat → Event → Env → AppState → Prop :=
  EndsOnly o fun k c => c.trail.claims.head? = some k

/-- An outcome is written only to a message that is pending under the claim, with no outcome
written since it was claimed. -/
def EndsOpen : Nat → Event → Env → AppState → Prop :=
  EndsOnly o fun k c => c.status = .pending ∧ c.trail.claims.head? = some k ∧ c.trail.ended = none

/-- The time of delivery is set exactly when the message is delivered. -/
def DeliveredTimes (s : AppState) : Prop :=
  ∀ r ∈ o.rows s, (columns r).deliveredAt.isSome = true ↔ (columns r).status = .delivered

/-- A finished message is left alone, but for the note that it has been sent, or it is put back or
removed as the outbox allows. -/
def KeepsFinished (l : Event) (e : Env) (s s' : AppState) : Prop :=
  ∀ r ∈ o.rows s, (columns r).status ≠ .pending → r ∈ o.rows s' ∨
    (∃ k, modify (.sent k) r ∈ o.rows s') ∨ o.back ∧ l = .redeliver (key r) ∨ o.gone e r

/-- What is said about the outcomes on an outbox, of a run of a system. -/
structure OutcomesSafe {C : Type} (sys : System Event Env AppState AppError C Unit)
    (s : AppState) (ms : List (Move Env C)) : Prop where
  open_iff : sys.Along (fun d m => d.Meets (EndsOpen o) m) (.start s) ms ↔
    sys.Along (fun d m => d.Meets (NotSuperseded o) m) (.start s) ms
  finished : sys.Along (fun d m => d.Meets (NotSuperseded o) m) (.start s) ms →
    sys.Along (fun d m => ∀ d', sys.step d m = some d' →
      d.Meets (fun _ l e s => KeepsFinished o l e s d'.st) m) (.start s) ms
  times : sys.Along (fun d m => d.Meets (NotSuperseded o) m) (.start s) ms →
    sys.Through (fun d => DeliveredTimes o d.st) (.start s) ms

/-- What holds of a message while no superseded outcome has been written. -/
structure Settled (c : OutboxColumns Uuid) : Prop where
  /-- An outcome that has been written is that of the newest claim. -/
  newest : ∀ k, c.trail.ended = some k → c.trail.claims.head? = some k
  ended : c.status ≠ .pending → c.trail.ended ≠ none
  times : c.deliveredAt.isSome = true ↔ c.status = .delivered

namespace Settled

variable {c : OutboxColumns Uuid} {k : Nat}

theorem of_new {r : R} (h : NewMessage r) : Settled (columns r) := by
  constructor <;> simp [h.trail, h.status, h.deliveredAt, Trail.empty]

theorem claimed {next : Nat} (h : Settled c) (hp : c.status = .pending) :
    Settled (c.claimed k next) where
  newest _ he := by cases he
  ended hn := absurd hp hn
  times := h.times

theorem sent (h : Settled c) : Settled (c.sent k) := ⟨h.newest, h.ended, h.times⟩

theorem redelivered {now : Nat} : Settled (c.redelivered now) := by
  constructor <;> simp [OutboxColumns.redelivered, Trail.empty]

/-- A message without the outcome of its newest claim is pending. -/
theorem isOpen (h : Settled c) (hk : c.trail.claims.head? = some k)
    (hfirst : c.trail.ended ≠ some k) : c.status = .pending ∧ c.trail.ended = none := by
  have hnone : c.trail.ended = none := by
    cases he : c.trail.ended with
    | none => rfl
    | some k' =>
        rw [he, ← h.newest k' he] at hfirst
        exact absurd hk hfirst
  refine ⟨?_, hnone⟩
  by_contra hn
  exact h.ended hn hnone

theorem ends {now : Nat} {last : Bool} {f : OutboxColumns Uuid → OutboxColumns Uuid}
    (h : Settled c) (hk : c.trail.claims.head? = some k) (hfirst : c.trail.ended ≠ some k)
    (hends : EndsBy now k last f) : Settled (f c) := by
  have hp := (h.isOpen hk hfirst).1
  have hnone : c.deliveredAt = none := by
    simpa [hp] using h.times
  cases hends with
  | delivered => constructor <;> simp [OutboxColumns.delivered, hk]
  | failed => cases last <;> constructor <;> simp [OutboxColumns.failed, hk, hnone]

end Settled

/-- All messages are settled. -/
def AllSettled (s : AppState) : Prop := ∀ r ∈ o.rows s, Settled (columns r)

variable {o} {i : Nat} {l : Event} {e : Env} {s s' : AppState}

/-- An action keeps the messages settled as long as it writes no superseded outcome. -/
theorem Action.settled (h : Action o i l e s s') (hs : AllSettled o s)
    (hc : NotSuperseded o i l e s) : AllSettled o s' := by
  intro r hr
  cases h with
  | idle => exact hs r hr
  | quiet hrows => exact hs r (hrows ▸ hr)
  | issue => exact hs r (o.rows_history s _ ▸ hr)
  | add hadd =>
      rcases hadd r hr with h | ⟨hnew, -⟩
      · exact hs r h
      · exact .of_new hnew
  | claim _ hp hrows =>
      rw [hrows] at hr
      rcases mem_change hr with ⟨r₀, h₀, hpick, rfl⟩ | ⟨h, -⟩
      · rw [columns_modify]
        exact (hs r₀ h₀).claimed (pending_of_mem_pickDue ((hp r₀ h₀).mp hpick))
      · exact hs r h
  | send _ _ _ hrows =>
      rw [hrows] at hr
      rcases mem_change hr with ⟨r₀, h₀, -, rfl⟩ | ⟨h, -⟩
      · rw [columns_modify]
        exact (hs r₀ h₀).sent
      · exact hs r h
  | outcome hfault _ hfirst _ hends hrows =>
      rw [hrows] at hr
      rcases mem_change hr with ⟨r₀, h₀, hp, rfl⟩ | ⟨h, -⟩
      · rw [columns_modify]
        have hid := of_decide_eq_true hp
        exact (hs r₀ h₀).ends (hc _ _ rfl hfault r₀ h₀ hid) (hfirst r₀ h₀ hid) hends
      · exact hs r h
  | redeliver _ _ hrows =>
      rw [hrows] at hr
      rcases mem_change hr with ⟨r₀, -, -, rfl⟩ | ⟨h, -⟩
      · rw [columns_modify]
        exact .redelivered
      · exact hs r h
  | remove _ hrows => exact hs r (Table.mem_delete.mp (hrows ▸ hr)).1

/-- An outcome for the newest claim finds the message open. -/
theorem Action.endsOpen (h : Action o i l e s s') (hs : AllSettled o s)
    (hc : NotSuperseded o i l e s) : EndsOpen o i l e s := by
  intro id k hl hfault r hr hid
  have hhead := hc id k hl hfault r hr hid
  cases h with
  | idle hf => exact absurd hf hfault
  | outcome _ _ hfirst =>
      obtain ⟨rfl, rfl⟩ := by simpa only [Event.endMessage.injEq] using hl
      obtain ⟨hp, hnone⟩ := (hs r hr).isOpen hhead (hfirst r hr hid)
      exact ⟨hp, hhead, hnone⟩
  | _ => cases hl

/-- A finished message is not changed by the outcome of the newest claim. -/
theorem Action.keepsFinished (h : Action o i l e s s') (hc : EndsOpen o i l e s) :
    KeepsFinished o l e s s' := by
  intro r hr hfin
  cases h with
  | idle => exact .inl hr
  | quiet hrows => exact .inl (hrows ▸ hr)
  | issue => exact .inl ((o.rows_history s _).symm ▸ hr)
  | add _ hkeep => exact .inl (hkeep r hr)
  | @claim _ _ _ p _ _ _ hp hrows =>
      have hn : p r = false := by
        by_contra hpick
        exact hfin (pending_of_mem_pickDue ((hp r hr).mp (by simpa using hpick)))
      exact .inl (hrows ▸ mem_change_of_false hr hn)
  | @send _ _ _ id k hf _ _ _ hrows =>
      by_cases hid : OutboxRow.key r = id
      · refine .inr (.inl ⟨k, ?_⟩)
        rw [hrows]
        exact Table.mem_update.mpr ⟨r, hr, by simp [hid]⟩
      · exact .inl (hrows ▸ mem_change_of_false hr (by simpa using hid))
  | @outcome _ _ _ id k _ _ _ hfault _ _ _ _ hrows =>
      have hne : OutboxRow.key r ≠ id := fun hid => hfin (hc id k rfl hfault r hr hid).1
      exact .inl (hrows ▸ mem_change_of_false hr (by simpa using hne))
  | @redeliver _ _ _ id p _ _ hback hp hrows =>
      cases hpr : p r with
      | true => exact .inr (.inr (.inl ⟨hback, by rw [hp r hpr]⟩))
      | false => exact .inl (hrows ▸ mem_change_of_false hr hpr)
  | @remove _ _ _ p hp hrows =>
      cases hpr : p r with
      | true => exact .inr (.inr (.inr (hp r hpr)))
      | false => exact .inl (hrows ▸ Table.mem_delete.mpr ⟨hr, hpr⟩)

/-- The outcomes on an outbox are safe in all runs of a system whose calls keep to the contract. -/
theorem outcomesSafe {C : Type} {sys : System Event Env AppState AppError C Unit}
    (hbody : ∀ cond i k, (outboxContract o cond).Safe i (sys.body k))
    (hadm : ∀ i l e s, sys.adm i l e s = true → admissible i l e s = true) {s : AppState}
    {ms : List (Move Env C)} {c : Config Event Env AppState AppError C Unit} (hs : Start o s)
    (h : sys.exec (.start s) ms = some c) : OutcomesSafe o sys s ms := by
  have hstart : Keeps (outboxContract o (NotSuperseded o)) (fun _ _ _ _ => True)
      (.start s : Config Event Env AppState AppError C Unit) ∧ AllSettled o s :=
    ⟨keeps_start hs.inv, fun r hr => .of_new (hs.messages r hr)⟩
  have hstep : ∀ i l e s s', Inv o s → (outboxContract o (NotSuperseded o)).adm i l e s →
      AllSettled o s → Action o i l e s s' →
      AllSettled o s' ∧ EndsOpen o i l e s ∧ KeepsFinished o l e s s' := by
    intro i l e s s' _ ha hset hg
    have hopen := hg.endsOpen hset ha.2
    exact ⟨hg.settled hset ha.2, hopen, hg.keepsFinished hopen⟩
  have hmove := fun (c : Config Event Env AppState AppError C Unit) m d hc hm hd =>
    invariant_step (c := c) (m := m) (d := d)
      (R := fun i l e s s' => EndsOpen o i l e s ∧ KeepsFinished o l e s s') (hbody _)
      (fun i l e s ha hc => ⟨hadm i l e s ha, hc⟩)
      (fun i l e s s' hi ha _ => hstep i l e s s' hi ha) hc hm hd
  refine ⟨⟨fun ho => ho.mono fun c m hm i e he l hl id k hk hf r hr hid =>
    (hm i e he l hl id k hk hf r hr hid).2.1, fun hn => ?_⟩, fun hn => ?_, fun hn => ?_⟩
  · exact hn.of_invariant (fun c m d hc hm hd => (hmove c m d hc hm hd).1)
      (fun c m d hc hm hd i e he l hl => ((hmove c m d hc hm hd).2 i e he l hl).1) hstart h
  · refine hn.of_invariant (fun c m d hc hm hd => (hmove c m d hc hm hd).1)
      (fun c m d hc hm hd d' hd' i e he l hl => ?_) hstart h
    obtain rfl := Option.some.inj (hd.symm.trans hd')
    exact ((hmove c m d hc hm hd).2 i e he l hl).2
  · exact (System.through_invariant (fun c m d hc hm hd => (hmove c m d hc hm hd).1) hstart
      hn).mono fun c hc r hr => (hc.2 r hr).times

end Outboxes

/-- In every run on either outbox, with workers outliving their leases and messages put back at any
time, an outcome is always written to a message that is pending under the claim it belongs to
exactly when none is written for a superseded claim. -/
theorem outbox_outcomes {app : App} {config : Cli}
    (hconfig : app.config.validate = .ok config) :
    (∀ {s : AppState} {ms : List (Move Env NotificationCall)}
        {c : Config Event Env AppState AppError NotificationCall Unit},
      Start (notifications app) s → (notificationSystem app).exec (.start s) ms = some c →
        OutcomesSafe (notifications app) (notificationSystem app) s ms) ∧
    ∀ {s : AppState} {ms : List (Move Env DeliveryCall)}
        {c : Config Event Env AppState AppError DeliveryCall Unit},
      Start deliveries s → deliverySystem.exec (.start s) ms = some c →
        OutcomesSafe deliveries deliverySystem s ms :=
  ⟨fun hs h => outcomesSafe
      (fun _ _ k => notificationCall_safe (Cli.pos_of_validate hconfig).1 k)
      (fun _ _ _ _ ha => ha) hs h,
    fun hs h => outcomesSafe (fun _ _ k => deliveryCall_safe k) (fun _ _ _ _ ha => ha) hs h⟩

/-! ### A worker that outlives its lease -/

/-- The delivery and the webhook it is for. -/
def deliverable : AppState :=
  { oneDelivery with
    db.webhooks := ⟨[{ id := 2, tenantId := 3, url := "https://example.com/hook",
                       secret := "secret", events := ["task.created"], isActive := true,
                       createdBy := 5, createdAt := 0, updatedAt := 0 }], by decide⟩ }

theorem deliverable_start : Start deliveries deliverable :=
  ⟨oneDelivery_start.messages, rfl, oneDelivery_start.issued_once,
    oneDelivery_start.message_issued⟩

/-- Worker 0 claims the delivery, gets no reply and stalls; after 60 seconds worker 1 claims the
delivery and delivers it. -/
def overlap : List (Move Env DeliveryCall) :=
  [.call .dispatchPending, deliveryMove 0 0 .failed, deliveryMove 0 0 .failed,
    deliveryMove 0 0 .failed, deliveryMove 0 61 .failed, .call .dispatchPending,
    deliveryMove 1 61 .failed, deliveryMove 1 61 .failed, deliveryMove 1 61 (.success none),
    deliveryMove 1 61 .failed]

/-- The safety of outcomes at that run, and at a run on notifications. -/
theorem outbox_outcomes_overlap :
    (∃ c, (notificationSystem default).exec (.start default) enqueueAndClaim = some c ∧
      OutcomesSafe (notifications default) (notificationSystem default) default
        enqueueAndClaim) ∧
    ∃ c, deliverySystem.exec (.start deliverable) overlap = some c ∧
      OutcomesSafe deliveries deliverySystem deliverable overlap := by
  have hn : ((notificationSystem default).exec (.start default) enqueueAndClaim).isSome := by
    decide
  have hd : (deliverySystem.exec (.start deliverable) overlap).isSome := by decide
  obtain ⟨c, hc⟩ := Option.isSome_iff_exists.mp hn
  obtain ⟨d, hd⟩ := Option.isSome_iff_exists.mp hd
  have hvalid : (default : App).config.validate = .ok default := rfl
  exact ⟨⟨c, hc, (outbox_outcomes hvalid).1 default_start hc⟩, d, hd,
    (outbox_outcomes hvalid).2 deliverable_start hd⟩

/-- The late failure of worker 0 puts the delivered message back to pending, with the time of its
delivery set. -/
theorem late_failure_lands : Start deliveries deliverable ∧
    ∃ c d, deliverySystem.exec (.start deliverable) overlap = some c ∧
      deliverySystem.step c (deliveryMove 0 62 .failed) = some d ∧
      (c.st.db.webhookDeliveries.find? 1).map (fun r => (r.status, r.deliveredAt)) =
        some (.delivered, some (seconds 61)) ∧
      (d.st.db.webhookDeliveries.find? 1).map (fun r => (r.status, r.deliveredAt)) =
        some (.pending, some (seconds 61)) := by
  have h : ((deliverySystem.exec (.start deliverable) overlap).bind fun c =>
      (deliverySystem.step c (deliveryMove 0 62 .failed)).map fun d =>
        ((c.st.db.webhookDeliveries.find? 1).map fun r => (r.status, r.deliveredAt),
          (d.st.db.webhookDeliveries.find? 1).map fun r => (r.status, r.deliveredAt))) =
      some (some (.delivered, some (seconds 61)), some (.pending, some (seconds 61))) := by
    decide
  obtain ⟨c, hc, h⟩ := Option.bind_eq_some_iff.mp h
  obtain ⟨d, hd, h⟩ := Option.map_eq_some_iff.mp h
  obtain ⟨hbefore, hafter⟩ := by simpa only [Prod.mk.injEq] using h
  exact ⟨deliverable_start, c, d, hc, hd, hbefore, hafter⟩

end Fluxa
