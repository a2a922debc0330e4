import Fluxa.Interleave.Monitor
import Fluxa.Outboxes.Attempts
import Mathlib.Algebra.Order.BigOperators.Group.Finset

/-!
# Outboxes — leases and the time that a batch takes

A claim makes all messages of its batch due again at the same time, 60 seconds on, and the worker sends them one after the other.  How long each send takes is up to its receiver: `durations k j` for message number `j` of claim `k`.  **`OnTime`** says of a run that time passes as these durations say.

* **`delivery_lease_covers`**: where the sends of every batch together take less than the lease, no claim returns a message on which another worker is still at work, and no message is being sent by two workers.
* **`batch_outlives_lease`**: seven sends of ten seconds, the time-out of a request, take longer.
-/

namespace Fluxa
open Interleave Relational OutboxRow Db Contract Delivery Outboxes

namespace Leases

/-! ### What is noted of a run -/

/-- The notes: the time, the times of the claims, and the outcomes that have been recorded, each
with the number of its claim. -/
structure LeaseLog where
  now : Time
  claimed : List Time
  recorded : List (Nat × Uuid)

/-- The notes at the start of a run. -/
def LeaseLog.start : LeaseLog := ⟨0, [], []⟩

/-- What is noted of a statement. -/
def LeaseLog.note (g : LeaseLog) (e : Env) : Event → LeaseLog
  | .claimMessages =>
    { g with
      now := e.now
      claimed := if e.fault = .failed then g.claimed else g.claimed ++ [e.now] }
  | .endMessage id k =>
    { g with
      now := e.now
      recorded := if e.fault = .failed then g.recorded else (k, id) :: g.recorded }
  | _ => { g with now := e.now }

/-- A message that a worker has claimed. -/
structure Holding where
  worker : Nat
  claim : Nat
  id : Uuid
deriving DecidableEq, Repr

/-- How long the first `n` sends of claim `k` take together. -/
def total (durations : Nat → Nat → Time) (k n : Nat) : Time := ∑ j ∈ Finset.range n, durations k j

/-- The time at which the outcome of the message is recorded: when it has been sent, and with it
all that come before it in the batch. -/
def recordTime (durations : Nat → Nat → Time) (g : LeaseLog) (s : AppState) (h : Holding) : Time :=
  let batch := (s.history.leases[h.claim]?.map (·.2)).getD []
  g.claimed.getD h.claim 0 + total durations h.claim (batch.idxOf h.id + 1)

section Runs

variable {C : Type}

/-- The monitor of leases. -/
def noteLeases (c : Config Event Env AppState AppError C Unit) (m : Move Env C) (g : LeaseLog) :
    LeaseLog :=
  match m with
  | .call _ => g
  | .exec i e => (c.label? i).elim g (g.note e)

/-- The messages on which a worker is at work: claimed by a call that has not ended, and without a
recorded outcome. -/
def holdings (g : LeaseLog) (c : Config Event Env AppState AppError C Unit) : List Holding :=
  c.st.history.leases.zipIdx.flatMap fun ((i, ids), k) =>
    if (c.result? i).isSome then []
    else (ids.filter fun id => !g.recorded.contains (k, id)).map fun id => ⟨i, k, id⟩

/-- Time passes: it does not go back, and not beyond the time at which a live worker records an
outcome before the outcome is recorded.  A worker that is not live may fall behind, but then it
records no outcome any more. -/
def OnTime (live : Nat → Prop) (durations : Nat → Nat → Time) (g : LeaseLog)
    (c : Config Event Env AppState AppError C Unit) : Move Env C → Prop
  | .call _ => True
  | .exec i e => g.now ≤ e.now ∧ ∀ h ∈ holdings g c,
      (live h.worker ∨ h.worker = i ∧ c.label? i = some (.endMessage h.id h.claim)) →
        e.now ≤ recordTime durations g c.st h

variable {R : Type} [OutboxRow R Uuid] (o : Drained R)

/-- The sends of the batch that the move claims take less than the lease together. -/
def ShortBatch (durations : Nat → Nat → Time) (c : Config Event Env AppState AppError C Unit) :
    Move Env C → Prop
  | .call _ => True
  | .exec i e => c.label? i = some .claimMessages →
      total durations c.st.history.leases.length (pickDue o.toOutbox o.batch e c.st).length <
        claimLease

/-- No claim returns a message on which a live worker is at work, and a live worker sends none
on which another one is. -/
def Exclusive (live : Nat → Prop) (g : LeaseLog)
    (c : Config Event Env AppState AppError C Unit) : Move Env C → Prop
  | .call _ => True
  | .exec i e =>
    match c.label? i with
    | some .claimMessages => e.fault ≠ .failed → ∀ r ∈ pickDue o.toOutbox o.batch e c.st,
        ∀ h ∈ holdings g c, live h.worker → h.id ≠ key r
    | some (.sendMessage id k) => live i → ∀ h ∈ holdings g c, live h.worker → h.id = id →
        h.worker = i ∧ h.claim = k
    | _ => True

instance OnTime.decidable {live : Nat → Prop} [DecidablePred live]
    {durations : Nat → Nat → Time} (g : LeaseLog)
    (c : Config Event Env AppState AppError C Unit) :
    ∀ m : Move Env C, Decidable (OnTime live durations g c m)
  | .call _ => .isTrue trivial
  | .exec i e => inferInstanceAs (Decidable (g.now ≤ e.now ∧ ∀ h ∈ holdings g c,
      (live h.worker ∨ h.worker = i ∧ c.label? i = some (.endMessage h.id h.claim)) →
        e.now ≤ recordTime durations g c.st h))

instance ShortBatch.decidable {durations : Nat → Nat → Time}
    (c : Config Event Env AppState AppError C Unit) :
    ∀ m : Move Env C, Decidable (ShortBatch o durations c m)
  | .call _ => .isTrue trivial
  | .exec i e => inferInstanceAs (Decidable (c.label? i = some .claimMessages →
      total durations c.st.history.leases.length (pickDue o.toOutbox o.batch e c.st).length <
        claimLease))

variable {o}

theorem mem_holdings {g : LeaseLog} {c : Config Event Env AppState AppError C Unit}
    {h : Holding} : h ∈ holdings g c ↔
      Leased c.st h.claim h.worker h.id ∧ (h.claim, h.id) ∉ g.recorded ∧
        c.result? h.worker = none := by
  obtain ⟨i, k, id⟩ := h
  simp only [holdings, List.mem_flatMap, Leased]
  constructor
  · rintro ⟨⟨⟨j, ids⟩, k'⟩, hk, hm⟩
    have hk' := List.mem_zipIdx_iff_getElem?.mp hk
    by_cases hres : (c.result? j).isSome = true
    · simp [hres] at hm
    · simp only [hres, Bool.false_eq_true, if_false, List.mem_map, List.mem_filter,
        Bool.not_eq_true', Holding.mk.injEq] at hm
      obtain ⟨id', ⟨hid, hrec⟩, rfl, rfl, rfl⟩ := hm
      exact ⟨⟨ids, hk', hid⟩, by simpa using hrec, by simpa using hres⟩
  · rintro ⟨⟨ids, hk, hid⟩, hrec, hres⟩
    refine ⟨((i, ids), k), List.mem_zipIdx_iff_getElem?.mpr hk, ?_⟩
    simp [hres, hid, hrec]

end Runs

/-! ### What the calls do -/

section Calls

variable {R : Type} [OutboxRow R Uuid] (o : Drained R)

/-- What a statement does to the pending messages and the claims. -/
inductive Effect : Event → Env → AppState → AppState → Prop where
  | keep {l e s s'}
      (hl : e.fault = .failed ∨ l ≠ .claimMessages ∧ ∀ id k, l ≠ .endMessage id k)
      (hkeep : ∀ r ∈ o.rows s, (columns r).status = .pending → r ∈ o.rows s')
      (hh : s'.history.leases = s.history.leases) : Effect l e s s'
  | claim {e s s' hf} (hfault : e.fault ≠ .failed)
      (hr : o.rows s' = change (o.rows s)
        (fun r => ((pickDue o.toOutbox o.batch e s).map key).contains (key r))
        (.claimed s.history.leases.length (e.now + claimLease)) hf)
      (hh : s'.history.leases =
        s.history.leases ++ [(e.pid, (pickDue o.toOutbox o.batch e s).map key)]) :
      Effect .claimMessages e s s'
  | send {e s s' id k hf}
      (hr : o.rows s' = change (o.rows s) (fun r => key r = id) (.sent k) hf)
      (hh : s'.history.leases = s.history.leases) : Effect (.sendMessage id k) e s s'
  | outcome {e s s' id k f hf} (hfault : e.fault ≠ .failed)
      (hr : o.rows s' = change (o.rows s) (fun r => key r = id) f hf)
      (hh : s'.history.leases = s.history.leases) : Effect (.endMessage id k) e s s'

/-- The outcomes that are still to be recorded after a statement. -/
def remaining (e : Env) (s : AppState) (todo : List (Nat × Uuid)) : Event → List (Nat × Uuid)
  | .claimMessages =>
    if e.fault = .failed then todo
    else todo ++ (pickDue o.toOutbox o.batch e s).map fun r => (s.history.leases.length, key r)
  | .endMessage id k => todo.erase (k, id)
  | _ => todo

variable {A B : Type}

/-- The program sends messages, and records outcomes, only as far as they are still to be recorded,
each once; `Q` holds of its result and of what is left then. -/
def Works (Q : Except AppError A → List (Nat × Uuid) → Prop) :
    List (Nat × Uuid) → Service A → Prop
  | todo, .done r => Q r todo
  | todo, .stmt l _ eff next =>
    (∀ id k, l = .sendMessage id k ∨ l = .endMessage id k → (k, id) ∈ todo) ∧
      ∀ e s, Effect o l e s (eff e s) ∧ Works Q (remaining o e s todo l) (next e s)

variable {o} {Q Q' : Except AppError A → List (Nat × Uuid) → Prop} {todo : List (Nat × Uuid)}

theorem Works.conseq {p : Service A} (h : Works o Q todo p) (hQ : ∀ r t, Q r t → Q' r t) :
    Works o Q' todo p := by
  induction p generalizing todo with
  | done r => exact hQ r todo h
  | stmt l ready eff next ih => exact ⟨h.1, fun e s => ⟨(h.2 e s).1, ih e s (h.2 e s).2⟩⟩

theorem Works.bind {p : Service A} {f : A → Service B}
    {Q' : Except AppError B → List (Nat × Uuid) → Prop} (h : Works o Q todo p)
    (hf : ∀ a t, Q (.ok a) t → Works o Q' t (f a)) (he : ∀ x t, Q (.error x) t → Q' (.error x) t) :
    Works o Q' todo (p.bind f) := by
  induction p generalizing todo with
  | done r =>
      cases r with
      | ok a => exact hf a todo h
      | error x => exact he x todo h
  | stmt l ready eff next ih => exact ⟨h.1, fun e s => ⟨(h.2 e s).1, ih e s (h.2 e s).2⟩⟩

/-- What follows need not be looked at where nothing is asked of an error. -/
theorem Works.seq {p : Service A} {f : A → Service B} (h : Works o Q todo p)
    (hf : ∀ a t, Q (.ok a) t → Works o (fun _ _ => True) t (f a)) :
    Works o (fun _ _ => True) todo (p.bind f) :=
  h.bind hf fun _ _ _ => trivial

theorem Works.attempt {p : Service A} (h : Works o Q todo p) :
    Works o (fun r t => ∃ r', r = .ok r' ∧ Q r' t) todo p.attempt := by
  induction p generalizing todo with
  | done r => exact ⟨r, rfl, h⟩
  | stmt l ready eff next ih => exact ⟨h.1, fun e s => ⟨(h.2 e s).1, ih e s (h.2 e s).2⟩⟩

theorem works_sql {l : Event} {run : Env → AppState → Except AppError A × AppState}
    (hl : ∀ id k, l = .sendMessage id k ∨ l = .endMessage id k → (k, id) ∈ todo)
    (heff : ∀ e s, e.fault ≠ .failed → Effect o l e s (run e s).2)
    (hQ : ∀ e s, e.fault = .none → Q (run e s).1 (remaining o e s todo l))
    (hx : ∀ e s x, Q (.error x) (remaining o e s todo l)) : Works o Q todo (sql l run) := by
  refine ⟨hl, fun e s => ?_⟩
  cases hf : e.fault with
  | none =>
      simp only [hf]
      exact ⟨heff e s (by simp [hf]), hQ e s hf⟩
  | failed =>
      simp only [hf]
      exact ⟨.keep (.inl hf) (fun _ hr _ => hr) rfl, hx e s _⟩
  | lost =>
      simp only [hf]
      exact ⟨heff e s (by simp [hf]), hx e s _⟩

/-- A statement that does not concern claims and outcomes, and keeps the pending messages. -/
theorem works_quiet {l : Event} {run : Env → AppState → Except AppError A × AppState}
    (hl : l = .quiet ∨ ∃ id, l = .redeliver id)
    (hkeep : ∀ e s r, r ∈ o.rows s → (columns r).status = .pending → r ∈ o.rows (run e s).2)
    (hh : ∀ e s, (run e s).2.history.leases = s.history.leases) :
    Works o (fun _ t => t = todo) todo (sql l run) := by
  have hrest : ∀ e s, remaining o e s todo l = todo := by
    rcases hl with rfl | ⟨_, rfl⟩ <;> exact fun _ _ => rfl
  refine works_sql (fun id k hid => ?_) (fun e s _ => .keep (.inr ⟨?_, fun id k => ?_⟩)
    (hkeep e s) (hh e s)) (fun e s _ => hrest e s) fun e s _ => hrest e s
  · rcases hl with rfl | ⟨_, rfl⟩ <;> rcases hid with h | h <;> cases h
  · rcases hl with rfl | ⟨_, rfl⟩ <;> simp
  · rcases hl with rfl | ⟨_, rfl⟩ <;> simp

theorem works_select {run : Env → AppState → A} :
    Works o (fun _ t => t = todo) todo (select run) :=
  works_quiet (.inl rfl) (fun _ _ _ hr _ => hr) fun _ _ => rfl

theorem works_utcNow : Works o (fun r t => (∃ now, r = .ok now) ∧ t = todo) todo utcNow := by
  refine ⟨fun id k hid => ?_, fun e s =>
    ⟨.keep (.inr ⟨by simp, by simp⟩) (fun _ hr _ => hr) rfl, ⟨e.now, rfl⟩, rfl⟩⟩
  rcases hid with h | h <;> cases h

/-! ### A round of a worker -/

/-- The outcome of the claim that has returned `r`. -/
def entry (r : R) : Nat × Uuid := ((columns r).claim, key r)

theorem entry_claimed (k next : Nat) (r : R) :
    entry (modify (OutboxColumns.claimed k next) r) = (k, key r) := by
  refine Prod.ext ?_ (key_modify (f := OutboxColumns.claimed k next) ⟨fun _ => rfl⟩)
  rw [entry, columns_modify]
  rfl

/-- After a claim there are the outcomes of its batch to be recorded. -/
theorem works_claimPending : Works o (onOk fun rs t => t = rs.map entry) []
    (claimPending o.toOutbox o.batch) := by
  refine works_sql (fun id k hid => ?_) (fun e s hf => ?_) (fun e s hf => ?_) fun _ _ _ => trivial
  · rcases hid with h | h <;> cases h
  · exact .claim hf ((o.rows_history _ _).trans rows_changeMessages) rfl
  · simp [remaining, hf, entry_claimed, Function.comp_def]

theorem works_endMessage {r : R} {f : Env → OutboxColumns Uuid → OutboxColumns Uuid}
    {hf : ∀ e, KeepsId (f e)} : Works o (onOk fun _ t => t = todo) (entry r :: todo)
      (endMessage o.toOutbox r f hf) := by
  have herase : (entry r :: todo).erase (entry r) = todo := List.erase_cons_head _ _
  refine works_sql (fun id k hid => ?_) (fun e s hfault => ?_) (fun _ _ _ => herase)
    fun _ _ _ => trivial
  · rcases hid with h | h
    · cases h
    · obtain ⟨rfl, rfl⟩ := by simpa only [Event.endMessage.injEq] using h
      exact List.mem_cons_self
  · exact .outcome hfault rows_changeMessages (by simp only [history_changeMessages])

theorem works_failMessage {r : R} {message : String} :
    Works o (onOk fun _ t => t = todo) (entry r :: todo) (failMessage o.toOutbox r message) := by
  refine works_utcNow.bind (fun now t ht => ?_) fun _ _ _ => trivial
  obtain ⟨-, rfl⟩ := ht
  exact works_endMessage

theorem works_sendMessage {r : R} {outcome : Env → Except AppError Unit} (hr : entry r ∈ todo) :
    Works o (fun _ t => t = todo) todo (sendMessage o.toOutbox r outcome) := by
  refine ⟨fun id k hid => ?_, fun e s =>
    ⟨.send rows_changeMessages (by simp only [history_changeMessages]), rfl⟩⟩
  rcases hid with h | h
  · obtain ⟨rfl, rfl⟩ := by simpa only [Event.sendMessage.injEq] using h
    exact hr
  · cases h

theorem works_deliverAll {send : R → Service Unit}
    (hsend : ∀ r todo, entry r ∈ todo → Works o (fun _ t => t = todo) todo (send r))
    (rs : List R) : Works o (fun _ _ => True) (rs.map entry) (deliverAll (outboxRound o.toOutbox send) rs) := by
  induction rs with
  | nil => trivial
  | cons r rest ih =>
      refine (hsend r _ List.mem_cons_self).attempt.seq fun sent t ht => ?_
      obtain ⟨sent', hsent, rfl⟩ := ht
      cases sent with
      | ok _ =>
          refine works_endMessage.seq fun _ t ht => ?_
          exact ht ▸ ih
      | error error =>
          refine works_failMessage.seq fun _ t ht => ?_
          exact ht ▸ ih

theorem works_deliverPending {send : R → Service Unit}
    (hsend : ∀ r todo, entry r ∈ todo → Works o (fun _ t => t = todo) todo (send r)) :
    Works o (fun _ _ => True) [] (deliverPending (outboxRound o.toOutbox send) o.batch) := by
  refine works_claimPending.seq fun rs t ht => ?_
  rw [onOk_ok] at ht
  exact ht ▸ works_deliverAll hsend rs

theorem works_sendDelivery {r : WebhookDeliveryRecord} (hr : entry r ∈ todo) :
    Works deliveries (fun _ t => t = todo) todo (sendDelivery r) := by
  have hget : Works deliveries (fun _ t => t = todo) todo (getWebhook r.tenantId r.webhookId) := by
    refine works_select.bind (fun webhook t ht => ?_) fun _ _ ht => ht
    cases webhook with
    | none => exact ht
    | some _ => exact ht
  refine hget.bind (fun webhook t ht => ?_) fun _ _ ht => ht
  subst ht
  cases hactive : webhook.isActive with
  | false => rfl
  | true => exact works_sendMessage hr

theorem works_enqueueWebhookDeliveries {tenantId : Uuid} {eventType : String} {payload : Value} :
    Works deliveries (fun _ _ => True) []
      (Db.enqueueWebhookDeliveries tenantId eventType payload) := by
  refine works_utcNow.seq fun now t _ => ?_
  refine (works_quiet (.inl rfl) (fun e s r hr _ => ?_) fun e s => ?_).conseq
    fun _ _ _ => trivial
  · dsimp only
    split
    · rename_i hins
      exact (Table.mem_insertAll hins r).mpr (.inl hr)
    · exact hr
  · dsimp only
    split <;> rfl

/-- A delivery that is still pending is not put back. -/
theorem works_redeliverWebhookDelivery {tenantId webhookId deliveryId : Uuid} :
    Works deliveries (fun _ _ => True) []
      (redeliverWebhookDelivery tenantId webhookId deliveryId) := by
  have hget : Works deliveries (fun _ _ => True) [] (getWebhook tenantId webhookId) := by
    refine works_select.seq fun webhook t _ => ?_
    cases webhook <;> trivial
  refine hget.seq fun _ t _ => ?_
  refine Works.seq (works_quiet (.inr ⟨deliveryId, rfl⟩) (fun e s r hr hp => ?_) fun e s => ?_)
    fun requeued t _ => ?_
  · have hkept : isRedeliverable tenantId webhookId deliveryId r = false := by
      simp [isRedeliverable, show r.status = .pending from hp]
    have hid : KeepsId (OutboxColumns.redelivered (κ := Uuid) e.now) := ⟨fun _ => rfl⟩
    exact @mem_change_of_false _ _ _ _ _ _ hid r hr hkept
  · rfl
  · cases requeued with
    | some delivery => trivial
    | none =>
        refine works_select.seq fun existing t _ => ?_
        cases existing <;> trivial

theorem works_deliveryCall (k : DeliveryCall) :
    Works deliveries (fun _ _ => True) [] (DeliveryCall.body k) := by
  cases k with
  | enqueue => exact works_enqueueWebhookDeliveries.seq fun _ _ _ => trivial
  | dispatchPending => exact works_deliverPending fun _ _ hr => works_sendDelivery hr
  | redeliver => exact works_redeliverWebhookDelivery.seq fun _ _ _ => trivial

end Calls

/-! ### Runs -/

section Invariant

variable {R : Type} [OutboxRow R Uuid] {o : Drained R} {durations : Nat → Nat → Time}
  {g : LeaseLog} {s s' : AppState} {e : Env} {l : Event}

/-- Claim `k` is the newest on the message, which is pending and due again at `next`. -/
structure OpenUnder (k : Nat) (next : Time) (c : OutboxColumns Uuid) : Prop where
  pending : c.status = .pending
  newest : c.trail.claims.head? = some k
  scheduled : c.scheduledAt = next

theorem OpenUnder.not_due {k : Nat} {next now : Time} {c : OutboxColumns Uuid}
    (h : OpenUnder k next c) (hnow : now < next) : c.due now = false := by
  simp only [OutboxColumns.due, h.scheduled, Bool.and_eq_false_iff, decide_eq_false_iff_not]
  exact .inr (Nat.not_le.mpr hnow)

theorem due_of_mem_pickDue {o : Outbox R} {limit : Nat} {r : R} (h : r ∈ pickDue o limit e s) :
    (columns r).due e.now = true := by
  have := (Table.mem_select.mp ((List.mem_insertionSort _).mp (List.mem_of_mem_take h))).2
  simp only [Bool.and_eq_true] at this
  exact this.1

variable (o durations) in
/-- What holds in a run on time: a message without a recorded outcome whose lease has not expired
is as the claim has left it. -/
structure LeasesKept (g : LeaseLog) (s : AppState) : Prop where
  clocks : g.claimed.length = s.history.leases.length
  recorded_lt : ∀ x ∈ g.recorded, x.1 < s.history.leases.length
  short : ∀ k i ids, s.history.leases[k]? = some (i, ids) →
    total durations k ids.length < claimLease
  isOpen : ∀ k i id t, Leased s k i id → (k, id) ∉ g.recorded → g.claimed[k]? = some t →
    g.now < t + claimLease → ∃ r ∈ o.rows s, key r = id ∧ OpenUnder k (t + claimLease) (columns r)

/-- The lease of the claim has not expired when the statement runs. -/
def Unexpired (g : LeaseLog) (e : Env) (k : Nat) : Prop :=
  ∃ t, g.claimed[k]? = some t ∧ e.now < t + claimLease

theorem LeaseLog.note_now : (g.note e l).now = e.now := by
  cases l <;> rfl

theorem LeaseLog.note_of_failed (hf : e.fault = .failed) :
    (g.note e l).claimed = g.claimed ∧ (g.note e l).recorded = g.recorded := by
  cases l <;> simp [LeaseLog.note, hf]

theorem LeaseLog.note_of_other (hc : l ≠ .claimMessages) (he : ∀ id k, l ≠ .endMessage id k) :
    (g.note e l).claimed = g.claimed ∧ (g.note e l).recorded = g.recorded := by
  cases l with
  | claimMessages => exact absurd rfl hc
  | endMessage id k => exact absurd rfl (he id k)
  | _ => exact ⟨rfl, rfl⟩

theorem total_mono {k m n : Nat} (h : m ≤ n) : total durations k m ≤ total durations k n :=
  Finset.sum_le_sum_of_subset (Finset.range_mono h)

/-- A worker on time records its outcomes before the lease has expired. -/
theorem LeasesKept.unexpired (hk : LeasesKept o durations g s) {h : Holding}
    (hl : Leased s h.claim h.worker h.id) (ht : e.now ≤ recordTime durations g s h) :
    Unexpired g e h.claim := by
  obtain ⟨ids, hids, hmem⟩ := hl
  have hlt := (List.getElem?_eq_some_iff.mp hids).1
  refine ⟨g.claimed.get ⟨h.claim, hk.clocks ▸ hlt⟩, List.getElem?_eq_getElem _, ?_⟩
  have hsum : total durations h.claim (ids.idxOf h.id + 1) < claimLease :=
    (total_mono (List.idxOf_lt_length_of_mem hmem)).trans_lt (hk.short _ _ _ hids)
  simp only [recordTime, hids, Option.map_some, Option.getD_some, List.getD_eq_getElem?_getD,
    List.getElem?_eq_getElem (hk.clocks ▸ hlt : h.claim < g.claimed.length)] at ht
  exact Nat.lt_of_le_of_lt ht (Nat.add_lt_add_left hsum _)

/-- Two unexpired claims on a message without recorded outcomes are one. -/
theorem LeasesKept.eq_of_unexpired (hk : LeasesKept o durations g s) (hnow : g.now ≤ e.now)
    {k k' i i' : Nat} {id : Uuid} (h : Leased s k i id) (h' : Leased s k' i' id)
    (hr : (k, id) ∉ g.recorded) (hr' : (k', id) ∉ g.recorded) (hu : Unexpired g e k)
    (hu' : Unexpired g e k') : k = k' := by
  obtain ⟨t, ht, hlt⟩ := hu
  obtain ⟨t', ht', hlt'⟩ := hu'
  obtain ⟨r, hmem, hkey, hopen⟩ := hk.isOpen k i id t h hr ht (Nat.lt_of_le_of_lt hnow hlt)
  obtain ⟨r', hmem', hkey', hopen'⟩ := hk.isOpen k' i' id t' h' hr' ht'
    (Nat.lt_of_le_of_lt hnow hlt')
  obtain rfl := Table.eq_of_key hmem hmem' (hkey.trans hkey'.symm)
  exact Option.some.inj (hopen.newest.symm.trans hopen'.newest)

/-- A message under an unexpired claim is not claimed. -/
theorem LeasesKept.not_picked (hk : LeasesKept o durations g s) (hnow : g.now ≤ e.now)
    {k i : Nat} {id : Uuid} (h : Leased s k i id) (hr : (k, id) ∉ g.recorded)
    (hu : Unexpired g e k) {r : R} (hp : r ∈ pickDue o.toOutbox o.batch e s) : key r ≠ id := by
  obtain ⟨t, ht, hlt⟩ := hu
  obtain ⟨r', hmem, hkey, hopen⟩ := hk.isOpen k i id t h hr ht (Nat.lt_of_le_of_lt hnow hlt)
  intro hid
  obtain rfl := Table.eq_of_key (mem_of_mem_pickDue hp) hmem (hid.trans hkey.symm)
  have hdue := due_of_mem_pickDue hp
  rw [hopen.not_due hlt] at hdue
  cases hdue

theorem Effect.lease (h : Effect o l e s s') {k i : Nat} {id : Uuid} (hk : Leased s k i id) :
    Leased s' k i id := by
  cases h with
  | keep _ _ hh | send _ hh | outcome _ _ hh => exact hk.of_eq hh
  | claim _ _ hh =>
      obtain ⟨ids, hids, hmem⟩ := hk
      refine ⟨ids, ?_, hmem⟩
      rw [hh, List.getElem?_append_left (List.getElem?_eq_some_iff.mp hids).1]
      exact hids

/-- An entry of the claims after one more has been made. -/
theorem getElem?_leases_append {x : Nat × List Uuid}
    (hh : s'.history.leases = s.history.leases ++ [x]) {k : Nat} {y : Nat × List Uuid}
    (h : s'.history.leases[k]? = some y) :
    s.history.leases[k]? = some y ∨ k = s.history.leases.length ∧ y = x := by
  rw [hh, List.getElem?_append] at h
  split at h
  · exact .inl h
  · obtain ⟨hlt, hx⟩ := List.getElem?_eq_some_iff.mp h
    rw [List.length_singleton] at hlt
    rw [List.getElem_singleton] at hx
    exact .inr ⟨by omega, hx.symm⟩

/-- Where the leases stay, there are no new claims. -/
theorem LeasesKept.of_eq {g' : LeaseLog} (hk : LeasesKept o durations g s)
    (hh : s'.history.leases = s.history.leases) (hc : g'.claimed = g.claimed)
    (hr : ∀ x ∈ g'.recorded, x ∈ g.recorded ∨ x.1 < s.history.leases.length)
    (hopen : ∀ k i id t, Leased s k i id → (k, id) ∉ g'.recorded → g.claimed[k]? = some t →
      g'.now < t + claimLease →
        ∃ r ∈ o.rows s', key r = id ∧ OpenUnder k (t + claimLease) (columns r)) :
    LeasesKept o durations g' s' where
  clocks := by rw [hc, hh, hk.clocks]
  recorded_lt x hx := by
    rw [hh]
    exact (hr x hx).elim (hk.recorded_lt x) id
  short k i ids h := hk.short k i ids (hh ▸ h)
  isOpen k i id t h := hc ▸ hopen k i id t (h.of_eq hh.symm)

/-- A statement on time keeps unexpired claims open. -/
theorem Effect.leasesKept (h : Effect o l e s s') (hk : LeasesKept o durations g s)
    (hnow : g.now ≤ e.now)
    (hshort : l = .claimMessages → total durations s.history.leases.length
      (pickDue o.toOutbox o.batch e s).length < claimLease)
    (hend : ∀ id k, l = .endMessage id k →
      (∃ i, Leased s k i id) ∧ (k, id) ∉ g.recorded ∧ Unexpired g e k) :
    LeasesKept o durations (g.note e l) s' := by
  have hg := LeaseLog.note_now (g := g) (e := e) (l := l)
  cases h with
  | keep hl hkeep hh =>
      obtain ⟨hc, hr⟩ : (g.note e l).claimed = g.claimed ∧ (g.note e l).recorded = g.recorded :=
        hl.elim LeaseLog.note_of_failed fun h => LeaseLog.note_of_other h.1 h.2
      refine hk.of_eq hh hc (fun x hx => .inl (hr ▸ hx)) fun k i id t hl' hrec ht hlt => ?_
      rw [hg] at hlt
      obtain ⟨r, hmem, hkey, hopen⟩ := hk.isOpen k i id t hl' (hr ▸ hrec) ht
        (Nat.lt_of_le_of_lt hnow hlt)
      exact ⟨r, hkeep r hmem hopen.pending, hkey, hopen⟩
  | @send _ _ _ id' k' hf hr hh =>
      refine hk.of_eq hh rfl (fun x hx => .inl hx) fun k i id t hl' hrec ht hlt => ?_
      rw [hg] at hlt
      obtain ⟨r, hmem, hkey, hopen⟩ := hk.isOpen k i id t hl' hrec ht (Nat.lt_of_le_of_lt hnow hlt)
      by_cases hid : key r = id'
      · refine ⟨modify (.sent k') r, ?_, (key_modify hf).trans hkey, ?_⟩
        · rw [hr]
          exact Table.mem_update.mpr ⟨r, hmem, by simp [hid]⟩
        · rw [columns_modify]
          exact ⟨hopen.pending, hopen.newest, hopen.scheduled⟩
      · refine ⟨r, ?_, hkey, hopen⟩
        rw [hr]
        exact mem_change_of_false hmem (by simpa using hid)
  | @outcome _ _ _ id' k' f hf hfault hr hh =>
      obtain ⟨⟨i', hl₀⟩, hrec₀, hu₀⟩ := hend id' k' rfl
      have hrec : (g.note e (.endMessage id' k')).recorded = (k', id') :: g.recorded := by
        simp [LeaseLog.note, hfault]
      refine hk.of_eq hh rfl (fun x hx => ?_) fun k i id t hl' hnot ht hlt => ?_
      · rw [hrec] at hx
        rcases List.mem_cons.mp hx with rfl | hx
        · exact .inr hl₀.lt
        · exact .inl hx
      rw [hg] at hlt
      rw [hrec, List.mem_cons, not_or] at hnot
      obtain ⟨r, hmem, hkey, hopen⟩ := hk.isOpen k i id t hl' hnot.2 ht
        (Nat.lt_of_le_of_lt hnow hlt)
      refine ⟨r, ?_, hkey, hopen⟩
      rw [hr]
      refine mem_change_of_false hmem ?_
      simp only [decide_eq_false_iff_not]
      -- The outcome is not for this message: the message would be under two claims.
      intro hid
      obtain rfl : id = id' := hkey.symm.trans hid
      obtain rfl := hk.eq_of_unexpired hnow hl' hl₀ hnot.2 hrec₀ ⟨t, ht, hlt⟩ hu₀
      exact hnot.1 rfl
  | @claim _ _ _ hf hfault hr hh =>
      have hclaimed : (g.note e .claimMessages).claimed = g.claimed ++ [e.now] := by
        simp [LeaseLog.note, hfault]
      refine ⟨?_, fun x hx => ?_, fun k i ids hids => ?_, fun k i id t hl' hrec ht hlt => ?_⟩
      · simp [hclaimed, hh, hk.clocks]
      · rw [hh, List.length_append]
        exact Nat.lt_add_right _ (hk.recorded_lt x hx)
      · rcases getElem?_leases_append hh hids with hold | ⟨rfl, hnew⟩
        · exact hk.short k i ids hold
        · obtain ⟨-, rfl⟩ := Prod.mk.inj hnew
          rw [List.length_map]
          exact hshort rfl
      rw [hg] at hlt
      obtain ⟨ids, hids, hmem⟩ := hl'
      rcases getElem?_leases_append hh hids with hold | ⟨rfl, hnew⟩
      · have hlen := (List.getElem?_eq_some_iff.mp hold).1
        rw [hclaimed, List.getElem?_append_left (hk.clocks ▸ hlen)] at ht
        obtain ⟨r, hr₀, hkey, hopen⟩ := hk.isOpen k i id t ⟨ids, hold, hmem⟩ hrec ht
          (Nat.lt_of_le_of_lt hnow hlt)
        refine ⟨r, ?_, hkey, hopen⟩
        rw [hr]
        refine mem_change_of_false hr₀ ?_
        by_contra hpick
        obtain ⟨r', hpick', hkey'⟩ := List.mem_map.mp
          (List.contains_iff_mem.mp (Bool.not_eq_false _ ▸ hpick))
        exact hk.not_picked hnow ⟨ids, hold, hmem⟩ hrec ⟨t, ht, hlt⟩ hpick' (hkey'.trans hkey)
      · obtain ⟨-, rfl⟩ := Prod.mk.inj hnew
        obtain rfl : e.now = t := by
          rw [hclaimed, ← hk.clocks] at ht
          simpa using ht
        obtain ⟨r, hpick, rfl⟩ := List.mem_map.mp hmem
        refine ⟨modify (.claimed s.history.leases.length (e.now + claimLease)) r, ?_,
          key_modify hf, ?_⟩
        · rw [hr]
          exact Table.mem_update.mpr
            ⟨r, mem_of_mem_pickDue hpick, by rw [if_pos (List.contains_iff_mem.mpr hmem)]⟩
        · rw [columns_modify]
          exact ⟨pending_of_mem_pickDue hpick, rfl, rfl⟩

theorem LeaseLog.mem_recorded {x : Nat × Uuid} (h : x ∈ (g.note e l).recorded) :
    x ∈ g.recorded ∨ l = .endMessage x.2 x.1 := by
  cases l with
  | endMessage id k =>
      simp only [LeaseLog.note] at h
      split at h
      · exact .inl h
      · rcases List.mem_cons.mp h with rfl | h
        · exact .inr rfl
        · exact .inl h
  | _ => exact .inl h

/-- What the call still has to record after its statement are its claims, not recorded yet. -/
theorem Effect.todo (h : Effect o l e s s') (hk : LeasesKept o durations g s) {i : Nat}
    (hpid : e.pid = i) {todo : List (Nat × Uuid)} (hnodup : todo.Nodup)
    (htodo : ∀ x ∈ todo, Leased s x.1 i x.2 ∧ x ∉ g.recorded) :
    (remaining o e s todo l).Nodup ∧ ∀ x ∈ remaining o e s todo l,
      Leased s' x.1 i x.2 ∧ x ∉ (g.note e l).recorded := by
  have hkeep : ∀ x ∈ todo, l ≠ .endMessage x.2 x.1 →
      Leased s' x.1 i x.2 ∧ x ∉ (g.note e l).recorded := fun x hx hne =>
    ⟨h.lease (htodo x hx).1, fun hrec =>
      (LeaseLog.mem_recorded hrec).elim (htodo x hx).2 hne⟩
  cases l with
  | claimMessages =>
      simp only [remaining]
      split
      · exact ⟨hnodup, fun x hx => hkeep x hx (by simp)⟩
      · rename_i hf
        refine ⟨List.nodup_append'.mpr ⟨hnodup, ?_, fun x hx hx' => ?_⟩, fun x hx => ?_⟩
        · exact List.Nodup.of_map Prod.snd (by
            simpa [List.map_map, Function.comp_def] using pickDue_nodup o.batch e s)
        · obtain ⟨r, -, rfl⟩ := List.mem_map.mp hx'
          exact Nat.lt_irrefl _ (htodo _ hx).1.lt
        · rcases List.mem_append.mp hx with hx | hx
          · exact hkeep x hx (by simp)
          · obtain ⟨r, hr, rfl⟩ := List.mem_map.mp hx
            refine ⟨?_, fun hrec => ?_⟩
            · cases h with
              | keep hl => exact absurd rfl (hl.resolve_left hf).1
              | claim _ _ hh =>
                  refine ⟨(pickDue o.toOutbox o.batch e s).map key, ?_, List.mem_map_of_mem hr⟩
                  rw [hh, hpid]
                  simp
            · rcases LeaseLog.mem_recorded hrec with hrec | hl
              · exact Nat.lt_irrefl _ (hk.recorded_lt _ hrec)
              · cases hl
  | endMessage id k =>
      refine ⟨hnodup.erase _, fun x hx => ?_⟩
      obtain ⟨hne, hx⟩ := hnodup.mem_erase_iff.mp hx
      refine hkeep x hx fun hl => hne ?_
      obtain ⟨rfl, rfl⟩ := by simpa only [Event.endMessage.injEq] using hl
      rfl
  | _ => exact ⟨hnodup, fun x hx => hkeep x hx (by simp)⟩

end Invariant

section System

variable {R : Type} [OutboxRow R Uuid] {o : Drained R} {C : Type}
  {sys : System Event Env AppState AppError C Unit} {durations : Nat → Nat → Time}
  {live : Nat → Prop} {g : LeaseLog} {c d : Config Event Env AppState AppError C Unit}

variable (o durations) in
/-- What holds in a run on time.  Each call has the outcomes still to record that its program has
not recorded yet. -/
structure RunInv (g : LeaseLog) (c : Config Event Env AppState AppError C Unit) : Prop where
  leases : LeasesKept o durations g c.st
  works : ∀ i k p, c.calls[i]? = some (k, p) → ∃ todo : List (Nat × Uuid), todo.Nodup ∧
    (∀ x ∈ todo, Leased c.st x.1 i x.2 ∧ x ∉ g.recorded) ∧ Works o (fun _ _ => True) todo p

/-- An outcome that a call is about to record is one on which it is at work. -/
theorem RunInv.holding (hinv : RunInv o durations g c) {i k : Nat} {id : Uuid} {l : Event}
    (hl : c.label? i = some l) (hlid : l = .sendMessage id k ∨ l = .endMessage id k) :
    ⟨i, k, id⟩ ∈ holdings g c := by
  simp only [Config.label?] at hl
  split at hl
  · rename_i hcall
    obtain rfl := Option.some.inj hl
    obtain ⟨todo, -, htodo, hworks⟩ := hinv.works i _ _ hcall
    obtain ⟨hleased, hrec⟩ := htodo _ (hworks.1 id k hlid)
    exact mem_holdings.mpr ⟨hleased, hrec, by simp [Config.result?, hcall]⟩
  · cases hl

theorem RunInv.step (hbody : ∀ k, Works o (fun _ _ => True) [] (sys.body k))
    (hadm : ∀ i l e s, sys.adm i l e s = true → admissible i l e s = true) {m : Move Env C}
    (hinv : RunInv o durations g c) (htime : OnTime live durations g c m)
    (hshort : ShortBatch o durations c m) (hd : sys.step c m = some d) :
    RunInv o durations (noteLeases c m g) d := by
  cases m with
  | call k =>
      obtain rfl := System.step_call hd
      refine ⟨hinv.leases, fun i k' p hi => ?_⟩
      rw [List.getElem?_append] at hi
      split at hi
      · exact hinv.works i k' p hi
      · obtain ⟨_, hx⟩ := List.getElem?_eq_some_iff.mp hi
        rw [List.getElem_singleton] at hx
        obtain ⟨rfl, rfl⟩ := Prod.mk.inj hx
        exact ⟨[], List.nodup_nil, fun x hx => absurd hx List.not_mem_nil, hbody k⟩
  | exec i e =>
      obtain ⟨k, l, ready, eff, next, hcall, -, ha, rfl⟩ := System.step_exec hd
      have hl : c.label? i = some l := by simp [Config.label?, hcall]
      have hnote : noteLeases c (.exec i e) g = g.note e l := by simp [noteLeases, hl]
      have hpid : e.pid = i := (not_issued_of_admissible (hadm i l e c.st ha)).1
      obtain ⟨todo, hnodup, htodo, hmay, hworks⟩ := hinv.works i k _ hcall
      obtain ⟨heff, hnext⟩ := hworks e c.st
      have hkept := heff.leasesKept hinv.leases htime.1 (fun hc => hshort (hl.trans (by rw [hc])))
        fun id k' hid => by
          obtain ⟨hleased, hrec⟩ := htodo _ (hmay id k' (.inr hid))
          have hhold := hinv.holding hl (.inr hid)
          exact ⟨⟨i, hleased⟩, hrec, hinv.leases.unexpired hleased
            (htime.2 _ hhold (.inr ⟨rfl, hl.trans (by rw [hid])⟩))⟩
      rw [hnote]
      refine ⟨hkept, fun j k' p hj => ?_⟩
      by_cases hij : i = j
      · subst hij
        rw [List.getElem?_set_self (List.getElem?_eq_some_iff.mp hcall).1] at hj
        obtain ⟨rfl, rfl⟩ := Prod.mk.inj (Option.some.inj hj)
        obtain ⟨hnodup', htodo'⟩ := heff.todo hinv.leases hpid hnodup htodo
        exact ⟨_, hnodup', htodo', hnext⟩
      · rw [List.getElem?_set_ne hij] at hj
        obtain ⟨todo', hnodup', htodo', hworks'⟩ := hinv.works j k' p hj
        refine ⟨todo', hnodup', fun x hx => ⟨heff.lease (htodo' x hx).1, fun hrec => ?_⟩, hworks'⟩
        rcases LeaseLog.mem_recorded hrec with hrec | hlx
        · exact (htodo' x hx).2 hrec
        -- The outcome that is recorded is one of a claim of call `i`.
        · exact hij ((htodo _ (hmay x.2 x.1 (.inr hlx))).1.unique (htodo' x hx).1)

/-- In a run on time no worker gets a message on which another is at work. -/
theorem RunInv.exclusive {m : Move Env C} (hinv : RunInv o durations g c)
    (htime : OnTime live durations g c m) : Exclusive o live g c m := by
  cases m with
  | call k => trivial
  | exec i e =>
      have hunexpired : ∀ h ∈ holdings g c, live h.worker → Unexpired g e h.claim :=
        fun h hh hlive => hinv.leases.unexpired (mem_holdings.mp hh).1 (htime.2 h hh (.inl hlive))
      simp only [Exclusive]
      split
      · intro _ r hr h hh hlive hid
        obtain ⟨hleased, hrec, -⟩ := mem_holdings.mp hh
        exact hinv.leases.not_picked htime.1 hleased hrec (hunexpired h hh hlive) hr hid.symm
      · rename_i id k hl
        intro hlive h hh hlive' hid
        subst hid
        have hown := hinv.holding hl (.inl rfl)
        obtain ⟨hleased, hrec, -⟩ := mem_holdings.mp hown
        obtain ⟨hleased', hrec', -⟩ := mem_holdings.mp hh
        have hk := hinv.leases.eq_of_unexpired htime.1 hleased' hleased hrec' hrec
          (hunexpired h hh hlive') (hunexpired _ hown hlive)
        exact ⟨(hk ▸ hleased').unique hleased, hk⟩
      · trivial

/-- Nothing has been claimed at the start. -/
theorem runInv_start {s : AppState} (hs : s.history.leases = []) :
    RunInv o durations .start (.start s : Config Event Env AppState AppError C Unit) where
  leases :=
    { clocks := by simp [LeaseLog.start, Config.start, hs]
      recorded_lt := fun x hx => absurd hx List.not_mem_nil
      short := fun k i ids h => by simp [Config.start, hs] at h
      isOpen := fun k i id t h => by
        obtain ⟨ids, hids, -⟩ := h
        simp [Config.start, hs] at hids }
  works i k p h := by simp [Config.start] at h

end System

/-- `WEBHOOK_REQUEST_TIMEOUT`. -/
def webhookRequestTimeout : Time := seconds 10

/-- Five sends take less than the lease. -/
theorem total_lt_of_le_five {durations : Nat → Nat → Time} {k n : Nat}
    (hd : ∀ j, durations k j ≤ webhookRequestTimeout) (hn : n ≤ 5) :
    total durations k n < claimLease := by
  have hsum : total durations k n ≤ n * webhookRequestTimeout :=
    (Finset.sum_le_card_nsmul (Finset.range n) _ _ fun j _ => hd j).trans_eq (by simp)
  have hle : n * webhookRequestTimeout ≤ 5 * webhookRequestTimeout := Nat.mul_le_mul_right _ hn
  exact Nat.lt_of_le_of_lt (hsum.trans hle) (by decide)

end Leases

open Leases

/-- In every run on the deliveries, with any workers dying, in which time passes as the durations
of the sends say: if those of each batch together are less than the lease, then no claim returns a
delivery on which a live worker is at work, and no delivery is being sent by two of them. -/
theorem delivery_lease_covers {live : Nat → Prop} {durations : Nat → Nat → Time} {s : AppState}
    {ms : List (Move Env DeliveryCall)}
    {c : Config Event Env AppState AppError DeliveryCall Unit} (hs : s.history.leases = [])
    (h : deliverySystem.exec (.start s) ms = some c)
    (htime : deliverySystem.Watched noteLeases (OnTime live durations) .start (.start s) ms)
    (hshort : deliverySystem.Along (ShortBatch deliveries durations) (.start s) ms) :
    deliverySystem.Watched noteLeases (Exclusive deliveries live) .start (.start s) ms := by
  refine (htime.and_along hshort).of_invariant (I := RunInv deliveries durations)
    (fun g c m d hinv hm hd => ?_) (fun g c m d hinv hm _ => ?_) (runInv_start hs) h
  · exact hinv.step works_deliveryCall (fun _ _ _ _ ha => ha) hm.1 hm.2 hd
  · exact hinv.exclusive hm.1

/-! ### A batch that takes longer than its lease -/

/-- Seven deliveries to one webhook, just put in. -/
def sevenDeliveries : AppState :=
  { (default : AppState) with
    db.webhooks := ⟨[{ id := 20, tenantId := 3, url := "https://example.com/hook",
                       secret := "secret", events := ["task.created"], isActive := true,
                       createdBy := 5, createdAt := 0, updatedAt := 0 }], by decide⟩
    db.webhookDeliveries := ⟨(List.range 7).map fun i =>
      { OutboxColumns.new (i + 1) defaultMaxAttempts 0 with
        webhookId := 20, tenantId := 3, eventType := "task.created", payload := .null,
        createdAt := 0 }, by decide⟩ }

/-- Worker 0 claims the deliveries and sends them, the first six with an outcome after ten seconds
each; it is still sending the seventh when worker 1 comes in. -/
def slowBatch : List (Move Env DeliveryCall) :=
  let deliver : Nat → List (Move Env DeliveryCall) := fun j =>
    [deliveryMove 0 (10 * j) .failed, deliveryMove 0 (10 * j) (.success none),
      deliveryMove 0 (10 * (j + 1)) .failed]
  [.call .dispatchPending, deliveryMove 0 0 .failed] ++ (List.range 6).flatMap deliver ++
    [deliveryMove 0 60 .failed, deliveryMove 0 60 (.success none), .call .dispatchPending]

/-- The input of a statement of call `i` after so many seconds. -/
def second (i seconds : Nat) : Env :=
  { (default : Env) with pid := i, now := Fluxa.seconds seconds, uuid := 4 }

/-- All sends take as long as the time-out of a request allows. -/
def slowest (_ _ : Nat) : Time := webhookRequestTimeout

/-- A claim of worker 1, after 65 seconds, returns the delivery that worker 0 is sending. -/
theorem batch_outlives_lease : sevenDeliveries.history.leases = [] ∧
    (∀ k j, slowest k j ≤ webhookRequestTimeout) ∧
    (deliverySystem.exec (.start sevenDeliveries)
      (slowBatch ++ [.exec 1 (second 1 65)])).isSome ∧
    deliverySystem.Watched noteLeases (OnTime (fun _ => True) slowest) .start
      (.start sevenDeliveries) (slowBatch ++ [.exec 1 (second 1 65)]) ∧
    ¬ deliverySystem.Watched noteLeases (Exclusive deliveries fun _ => True) .start
      (.start sevenDeliveries) (slowBatch ++ [.exec 1 (second 1 65)]) := by
  refine ⟨rfl, fun _ _ => Nat.le_refl _, by decide +kernel, by decide +kernel, fun h => ?_⟩
  have hrun : ((deliverySystem.exec (.start sevenDeliveries) slowBatch).filter fun c =>
      c.label? 1 = some .claimMessages ∧
        ∃ r ∈ pickDue deliveries.toOutbox deliveries.batch (second 1 65) c.st,
          ∃ h ∈ holdings (deliverySystem.notes noteLeases .start (.start sevenDeliveries)
            slowBatch) c, h.id = key r).isSome := by
    decide +kernel
  obtain ⟨c, hc⟩ := Option.isSome_iff_exists.mp hrun
  obtain ⟨hc, hfound⟩ := Option.filter_eq_some_iff.mp hc
  obtain ⟨hlabel, r, hr, x, hx, hid⟩ := of_decide_eq_true hfound
  have hlast : Exclusive deliveries _ _ c (.exec 1 (second 1 65)) := h.last hc
  simp only [Exclusive, hlabel] at hlast
  exact hlast (by decide) r hr x hx trivial hid

/-- Worker 0 delivers a single delivery while worker 1 makes a claim. -/
def quickBatch : List (Move Env DeliveryCall) :=
  [.call .dispatchPending, .call .dispatchPending, deliveryMove 0 0 .failed,
    deliveryMove 0 0 .failed, deliveryMove 0 0 (.success none), deliveryMove 1 5 .failed,
    deliveryMove 0 10 .failed]

/-- The lease covers that batch. -/
theorem delivery_lease_covers_quick : deliverySystem.Watched noteLeases
    (Exclusive deliveries fun _ => True) .start (.start sevenDeliveries) quickBatch := by
  have hrun : (deliverySystem.exec (.start sevenDeliveries) quickBatch).isSome := by decide +kernel
  obtain ⟨c, hc⟩ := Option.isSome_iff_exists.mp hrun
  exact @delivery_lease_covers _ (fun _ j => if j = 0 then seconds 10 else 0) _ _ _ rfl hc
    (by decide +kernel) (by decide +kernel)

end Fluxa
