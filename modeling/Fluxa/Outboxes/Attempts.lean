import Fluxa.Outboxes.Workers

/-!
# Outboxes — the bound on attempts

A claim counts an attempt, but whether the attempts are used up is looked at only when a failure is written.

* **`outbox_attempts`**: in every run, on either outbox, the attempts stay within their bound exactly when no claim takes a message whose last permitted attempt is still open; then no message is claimed whose attempts are used up, and none is sent more often than it may be, apart from sends under claims from before it was put back.
* **`attempts_exceeded`**: six workers that stop after their claims make six attempts of five.
-/

namespace Fluxa
open Interleave Relational OutboxRow Db Contract Outboxes

namespace Outboxes

variable {R : Type} [OutboxRow R Uuid] (o : Drained R)

/-- No message has more attempts than it may. -/
def Bounded (s : AppState) : Prop :=
  ∀ r ∈ o.rows s, (columns r).attempts ≤ (columns r).maxAttempts

/-- The last permitted attempt has been claimed, and its outcome is not what was written last. -/
def LastOpen (c : OutboxColumns Uuid) : Prop :=
  c.maxAttempts ≤ c.attempts ∧ c.trail.ended ≠ c.trail.claims.head?

/-- The claim that the statement makes takes only messages with the property `P`. -/
def ClaimsOnly (P : OutboxColumns Uuid → Prop) (_ : Nat) (l : Event) (e : Env) (s : AppState) :
    Prop :=
  l = .claimMessages → e.fault ≠ .failed → ∀ r ∈ pickDue o.toOutbox o.batch e s, P (columns r)

/-- No claim takes a message whose last attempt is open. -/
def LastSettled : Nat → Event → Env → AppState → Prop := ClaimsOnly o fun c => ¬ LastOpen c

/-- No claim takes a message whose attempts are used up. -/
def NotSpent : Nat → Event → Env → AppState → Prop :=
  ClaimsOnly o fun c => c.attempts < c.maxAttempts

/-- Where messages are put back, none is sent under a claim from before it was. -/
def SentCurrent (_ : Nat) (l : Event) (_ : Env) (s : AppState) : Prop :=
  ∀ id k, l = .sendMessage id k → o.back → ∀ r ∈ o.rows s, key r = id →
    k ∈ (columns r).trail.claims

/-- Messages have been sent only under claims obtained since they were put in or put back. -/
def SendsClaimed (s : AppState) : Prop :=
  ∀ r ∈ o.rows s, (columns r).trail.sends ⊆ (columns r).trail.claims

/-- What is said about the attempts on an outbox, of a run of a system. -/
structure AttemptsSafe {C : Type} (sys : System Event Env AppState AppError C Unit)
    (s : AppState) (ms : List (Move Env C)) (c : Config Event Env AppState AppError C Unit) :
    Prop where
  bounded_iff : sys.Through (fun d => Bounded o d.st) (.start s) ms ↔
    sys.Along (fun d m => d.Meets (LastSettled o) m) (.start s) ms
  not_spent : sys.Along (fun d m => d.Meets (LastSettled o) m) (.start s) ms →
    sys.Along (fun d m => d.Meets (NotSpent o) m) (.start s) ms
  sends : sys.Along (fun d m => d.Meets (LastSettled o) m) (.start s) ms →
    sys.Along (fun d m => d.Meets (SentCurrent o) m) (.start s) ms →
      ∀ r ∈ o.rows c.st, (columns r).trail.sends.length ≤ (columns r).maxAttempts

variable {o} {i : Nat} {l : Event} {e : Env} {s s' : AppState}

theorem Start.bounded (h : Start o s) : Bounded o s := by
  intro r hr
  rw [(h.messages r hr).attempts]
  exact Nat.zero_le _

theorem Start.sendsClaimed (h : Start o s) : SendsClaimed o s := by
  intro r hr
  rw [(h.messages r hr).trail]
  exact List.nil_subset _

/-- A pending message with its attempts used up has its last attempt open. -/
theorem lastSettled_iff (hi : Inv o s) : LastSettled o i l e s ↔ NotSpent o i l e s := by
  refine ⟨fun h hl hf r hr => ?_, fun h hl hf r hr hopen => ?_⟩
  · by_contra hspent
    have hle := Nat.not_lt.mp hspent
    exact h hl hf r hr ⟨hle, (hi.messages r (mem_of_mem_pickDue hr)).spent
      (pending_of_mem_pickDue hr) hle⟩
  · exact Nat.not_lt.mpr hopen.1 (h hl hf r hr)

/-- An action keeps the bound as long as it claims nothing that is used up. -/
theorem Action.bounded (h : Action o i l e s s') (hb : Bounded o s) (hn : NotSpent o i l e s) :
    Bounded o s' := by
  intro r hr
  cases h with
  | idle => exact hb r hr
  | quiet hrows => exact hb r (hrows ▸ hr)
  | issue => exact hb r (o.rows_history s _ ▸ hr)
  | add hadd =>
      rcases hadd r hr with h | ⟨hnew, -⟩
      · exact hb r h
      · rw [hnew.attempts]
        exact Nat.zero_le _
  | claim hfault hp hrows =>
      rw [hrows] at hr
      rcases mem_change hr with ⟨r₀, h₀, hpick, rfl⟩ | ⟨h, -⟩
      · rw [columns_modify]
        exact hn rfl hfault r₀ ((hp r₀ h₀).mp hpick)
      · exact hb r h
  | send _ _ _ hrows =>
      rw [hrows] at hr
      rcases mem_change hr with ⟨r₀, h₀, -, rfl⟩ | ⟨h, -⟩
      · rw [columns_modify]
        exact hb r₀ h₀
      · exact hb r h
  | outcome _ _ _ _ hends hrows =>
      rw [hrows] at hr
      rcases mem_change hr with ⟨r₀, h₀, -, rfl⟩ | ⟨h, -⟩
      · rw [columns_modify]
        cases hends with
        | delivered => exact hb r₀ h₀
        | failed => exact hb r₀ h₀
      · exact hb r h
  | redeliver _ _ hrows =>
      rw [hrows] at hr
      rcases mem_change hr with ⟨r₀, h₀, -, rfl⟩ | ⟨h, -⟩
      · rw [columns_modify]
        exact Nat.zero_le _
      · exact hb r h
  | remove _ hrows => exact hb r (Table.mem_delete.mp (hrows ▸ hr)).1

/-- What the claim takes has one attempt more afterwards. -/
theorem Action.notSpent (h : Action o i l e s s') (hb : Bounded o s') : NotSpent o i l e s := by
  intro hl hf r hr
  cases h with
  | idle hfault => exact absurd hfault hf
  | @claim _ _ _ _ next hid _ hp hrows =>
      have hm := mem_of_mem_pickDue hr
      have hnew : modify (.claimed s.history.leases.length next) r ∈ o.rows s' := by
        rw [hrows]
        exact Table.mem_update.mpr ⟨r, hm, by rw [if_pos ((hp r hm).mpr hr)]⟩
      have hle := hb _ hnew
      rw [columns_modify] at hle
      exact hle
  | _ => cases hl

theorem Action.bounded_iff (hi : Inv o s) (hb : Bounded o s) (h : Action o i l e s s') :
    Bounded o s' ↔ LastSettled o i l e s :=
  ⟨fun hb' => (lastSettled_iff hi).mpr (h.notSpent hb'),
    fun hn => h.bounded hb ((lastSettled_iff hi).mp hn)⟩

theorem Action.sendsClaimed (h : Action o i l e s s') (hs : SendsClaimed o s)
    (hc : SentCurrent o i l e s) : SendsClaimed o s' := by
  intro r hr
  cases h with
  | idle => exact hs r hr
  | quiet hrows => exact hs r (hrows ▸ hr)
  | issue => exact hs r (o.rows_history s _ ▸ hr)
  | add hadd =>
      rcases hadd r hr with h | ⟨hnew, -⟩
      · exact hs r h
      · rw [hnew.trail]
        exact List.nil_subset _
  | claim _ _ hrows =>
      rw [hrows] at hr
      rcases mem_change hr with ⟨r₀, h₀, -, rfl⟩ | ⟨h, -⟩
      · rw [columns_modify]
        exact List.subset_cons_of_subset _ (hs r₀ h₀)
      · exact hs r h
  | @send _ _ _ id k _ _ _ hcur hrows =>
      rw [hrows] at hr
      rcases mem_change hr with ⟨r₀, h₀, hp, rfl⟩ | ⟨h, -⟩
      · rw [columns_modify]
        have hid : OutboxRow.key r₀ = id := by simpa using hp
        refine List.cons_subset.mpr ⟨?_, hs r₀ h₀⟩
        by_cases hback : o.back
        · exact hc id k rfl hback r₀ h₀ hid
        · exact hcur hback r₀ h₀ hid
      · exact hs r h
  | outcome _ _ _ _ hends hrows =>
      rw [hrows] at hr
      rcases mem_change hr with ⟨r₀, h₀, -, rfl⟩ | ⟨h, -⟩
      · rw [columns_modify]
        cases hends with
        | delivered => exact hs r₀ h₀
        | failed => exact hs r₀ h₀
      · exact hs r h
  | redeliver _ _ hrows =>
      rw [hrows] at hr
      rcases mem_change hr with ⟨r₀, h₀, -, rfl⟩ | ⟨h, -⟩
      · rw [columns_modify]
        exact List.nil_subset _
      · exact hs r h
  | remove _ hrows => exact hs r (Table.mem_delete.mp (hrows ▸ hr)).1

/-- Every claim is an attempt, and every send has its own claim. -/
theorem Inv.sends_le (hi : Inv o s) (hb : Bounded o s) (hs : SendsClaimed o s) :
    ∀ r ∈ o.rows s, (columns r).trail.sends.length ≤ (columns r).maxAttempts := by
  intro r hr
  have hm := hi.messages r hr
  calc (columns r).trail.sends.length
      ≤ (columns r).trail.claims.length := (List.subperm_of_subset hm.sends_nodup (hs r hr)).length_le
    _ = (columns r).attempts := hm.counted
    _ ≤ (columns r).maxAttempts := hb r hr

/-- The attempts on an outbox are safe in all runs of a system whose calls keep to the contract. -/
theorem attemptsSafe {C : Type} {sys : System Event Env AppState AppError C Unit}
    (hbody : ∀ cond i k, (outboxContract o cond).Safe i (sys.body k))
    (hadm : ∀ i l e s, sys.adm i l e s = true → admissible i l e s = true) {s : AppState}
    {ms : List (Move Env C)} {c : Config Event Env AppState AppError C Unit} (hs : Start o s)
    (h : sys.exec (.start s) ms = some c) : AttemptsSafe o sys s ms c where
  bounded_iff := through_iff_along (K := outboxContract o fun _ _ _ _ => True) (hbody _)
    (fun i l e s ha => ⟨hadm i l e s ha, trivial⟩)
    (fun i l e s s' hi _ hb hg => hg.bounded_iff hi hb) hs.inv hs.bounded h
  not_spent hl := by
    refine hl.of_invariant (I := Keeps (outboxContract o fun _ _ _ _ => True) fun _ _ _ _ => True)
      (fun c m d hc _ hd => ?_) (fun c m d hc hm hd i e he l hl => ?_) (keeps_start hs.inv) h
    · exact keeps_step_all (hbody _) (fun i l e s ha => ⟨hadm i l e s ha, trivial⟩) hc hd
    · exact (lastSettled_iff hc.1).mp (hm i e he l hl)
  sends hl hc := by
    have hcond : sys.Along (fun d m => d.Meets (fun i l e s =>
        LastSettled o i l e s ∧ SentCurrent o i l e s) m) (.start s) ms :=
      (hl.and hc).mono fun _ _ hm i e he l hl => ⟨hm.1 i e he l hl, hm.2 i e he l hl⟩
    have hkeep := sound (K := outboxContract o fun _ _ _ _ => True) (hbody _)
      (fun i l e s ha _ => ⟨hadm i l e s ha, trivial⟩) hs.inv hcond h
    have hinv := (Contract.invariant
      (K := outboxContract o fun i l e s => LastSettled o i l e s ∧ SentCurrent o i l e s)
      (P := fun s => Bounded o s ∧ SendsClaimed o s) (R := fun _ _ _ _ _ => True) (hbody _)
      (fun i l e s ha hc => ⟨hadm i l e s ha, hc⟩) (fun i l e s s' hi ha _ hP hg =>
        ⟨⟨(hg.bounded_iff hi hP.1).mpr ha.2.1, hg.sendsClaimed hP.2 ha.2.2⟩, trivial⟩)
      hs.inv ⟨hs.bounded, hs.sendsClaimed⟩ hcond h).1
    exact hkeep.1.sends_le hinv.1 hinv.2

end Outboxes

/-- In every run on either outbox, with workers stopping anywhere, the attempts stay within their
bound exactly when no claim takes a message whose last permitted attempt is still open. -/
theorem outbox_attempts {app : App} {config : Cli}
    (hconfig : app.config.validate = .ok config) :
    (∀ {s : AppState} {ms : List (Move Env NotificationCall)}
        {c : Config Event Env AppState AppError NotificationCall Unit},
      Start (notifications app) s → (notificationSystem app).exec (.start s) ms = some c →
        AttemptsSafe (notifications app) (notificationSystem app) s ms c) ∧
    ∀ {s : AppState} {ms : List (Move Env DeliveryCall)}
        {c : Config Event Env AppState AppError DeliveryCall Unit},
      Start deliveries s → deliverySystem.exec (.start s) ms = some c →
        AttemptsSafe deliveries deliverySystem s ms c :=
  ⟨fun hs h => attemptsSafe
      (fun _ _ k => notificationCall_safe (Cli.pos_of_validate hconfig).1 k)
      (fun _ _ _ _ ha => ha) hs h,
    fun hs h => attemptsSafe (fun _ _ k => deliveryCall_safe k) (fun _ _ _ _ ha => ha) hs h⟩

/-! ### Workers that stop -/

/-- One delivery, just put in. -/
def oneDelivery : AppState :=
  { (default : AppState) with
    db.webhookDeliveries := ⟨[{ OutboxColumns.new 1 defaultMaxAttempts 0 with
                                webhookId := 2, tenantId := 3, eventType := "task.created",
                                payload := .null, createdAt := 0 }], by decide⟩
    history.issued := [(1, 0)] }

theorem oneDelivery_start : Start deliveries oneDelivery where
  messages r hr := by
    obtain rfl := List.mem_singleton.mp hr
    exact ⟨rfl, rfl, by decide, rfl, rfl⟩
  leases := rfl
  issued_once id i j hi hj := by
    simp only [oneDelivery, List.mem_singleton, Prod.mk.injEq] at hi hj
    rw [hi.2, hj.2]
  message_issued r hr := by
    obtain rfl := List.mem_singleton.mp hr
    exact ⟨0, List.mem_singleton.mpr rfl⟩

/-- A statement at the time given in seconds. -/
def deliveryMove (i second : Nat) (reply : HttpReply) : Move Env DeliveryCall :=
  .exec i { (default : Env) with pid := i, now := seconds second, uuid := 4, reply }

/-- Worker `i` claims what is due, `i` minutes on, and stops. -/
def claimAndStop (i : Nat) : List (Move Env DeliveryCall) :=
  [.call .dispatchPending, deliveryMove i (60 * i) .failed]

/-- Six workers claim the delivery, one after the other, and stop. -/
def sixClaims : List (Move Env DeliveryCall) := (List.range 6).flatMap claimAndStop

/-- A notification is enqueued and claimed. -/
def enqueueAndClaim : List (Move Env NotificationCall) :=
  let statement : Nat → Uuid → Move Env NotificationCall := fun i uuid =>
    .exec i { (default : Env) with pid := i, uuid }
  [.call (.enqueue ⟨none, none, .passwordReset, "user@example.com", .null, none⟩), statement 0 1,
    statement 0 2, .call .deliverPending, statement 1 2]

theorem default_start : Start (notifications default) default :=
  ⟨fun _ hr => absurd hr Table.not_mem_empty, rfl, fun _ _ _ hi => absurd hi List.not_mem_nil,
    fun _ hr => absurd hr Table.not_mem_empty⟩

/-- The safety of attempts at a run of one claim, on each outbox. -/
theorem outbox_attempts_oneClaim :
    (∃ c, (notificationSystem default).exec (.start default) enqueueAndClaim = some c ∧
      AttemptsSafe (notifications default) (notificationSystem default) default enqueueAndClaim c) ∧
    ∃ c, deliverySystem.exec (.start oneDelivery) (claimAndStop 0) = some c ∧
      AttemptsSafe deliveries deliverySystem oneDelivery (claimAndStop 0) c := by
  have hn : ((notificationSystem default).exec (.start default) enqueueAndClaim).isSome := by
    decide
  have hd : (deliverySystem.exec (.start oneDelivery) (claimAndStop 0)).isSome := by decide
  obtain ⟨c, hc⟩ := Option.isSome_iff_exists.mp hn
  obtain ⟨d, hd⟩ := Option.isSome_iff_exists.mp hd
  have hvalid : (default : App).config.validate = .ok default := rfl
  exact ⟨⟨c, hc, (outbox_attempts hvalid).1 default_start hc⟩, d, hd,
    (outbox_attempts hvalid).2 oneDelivery_start hd⟩

/-- Six workers that stop after their claims make six attempts of five. -/
theorem attempts_exceeded : Start deliveries oneDelivery ∧
    ∃ c, deliverySystem.exec (.start oneDelivery) sixClaims = some c ∧
      ¬ Bounded deliveries c.st := by
  have h : ((deliverySystem.exec (.start oneDelivery) sixClaims).bind fun c =>
      (c.st.db.webhookDeliveries.rows.find? fun d => decide (d.maxAttempts < d.attempts))).isSome :=
    by decide
  obtain ⟨d, hd⟩ := Option.isSome_iff_exists.mp h
  obtain ⟨c, hc, hd⟩ := Option.bind_eq_some_iff.mp hd
  refine ⟨oneDelivery_start, c, hc, fun hb => ?_⟩
  have hlt : d.maxAttempts < d.attempts := by simpa using List.find?_some hd
  exact Nat.not_le_of_lt hlt (hb d (List.mem_of_find?_eq_some hd))

end Fluxa
