import Fluxa.Services.Delivery
import Fluxa.State.Quiet

/-!
# Outboxes — what the workers do

Any number of workers drain an outbox, while messages are put in, put back, or removed for good.  **`Action`** lists what a single statement does to the messages, for either outbox, and everything about the messages follows from the list; **`Fluxa.Outboxes.Workers`** says that the calls do nothing else.
-/

namespace Fluxa.Outboxes
open Interleave Relational OutboxRow Db Contract Delivery

variable {R : Type} [OutboxRow R Uuid]

/-- An outbox, the size of the batches in which it is drained, and what besides the workers may
change a finished message: it may be removed, or put back to be delivered again. -/
structure Drained (R : Type) [OutboxRow R Uuid] extends Outbox R where
  batch : Nat
  gone : Env → R → Prop
  back : Prop

variable (o : Drained R)

/-- The message has just been put in. -/
structure NewMessage (r : R) : Prop where
  status : (columns r).status = .pending
  attempts : (columns r).attempts = 0
  bound_pos : 0 < (columns r).maxAttempts
  deliveredAt : (columns r).deliveredAt = none
  trail : (columns r).trail = .empty

/-- What holds of a message when `n` claims have been obtained so far. -/
structure MessageInv (n : Nat) (c : OutboxColumns Uuid) : Prop where
  bound_pos : 0 < c.maxAttempts
  /-- The attempts count the claims. -/
  counted : c.trail.claims.length = c.attempts
  claims_lt : ∀ k ∈ c.trail.claims, k < n
  claims_nodup : c.trail.claims.Nodup
  sends_lt : ∀ k ∈ c.trail.sends, k < n
  sends_nodup : c.trail.sends.Nodup
  ended_lt : ∀ k, c.trail.ended = some k → k < n
  /-- With its attempts used up, a message is pending only where the outcome of the last attempt
  is not what was written last. -/
  spent : c.status = .pending → c.maxAttempts ≤ c.attempts → c.trail.ended ≠ c.trail.claims.head?

/-- Claim number `k` was obtained by call `i` and has got the message. -/
def Leased (s : AppState) (k i : Nat) (id : Uuid) : Prop :=
  ∃ ids, s.history.leases[k]? = some (i, ids) ∧ id ∈ ids

/-- The identifier was generated by call `i`, and no message has it or has had it when it was
claimed. -/
structure Unused (i : Nat) (id : Uuid) (s : AppState) : Prop where
  issued : (id, i) ∈ s.history.issued
  no_message : ∀ r ∈ o.rows s, key r ≠ id
  no_claim : ∀ k j, ¬ Leased s k j id

/-- What holds of the outbox.  The identifiers count only where messages are not put back: they
tell then that a message is not sent after it was removed and another one put in. -/
structure Inv (s : AppState) : Prop where
  messages : ∀ r ∈ o.rows s, MessageInv s.history.leases.length (columns r)
  issued_once : IssuedOnce s
  message_issued : ¬ o.back → ∀ r ∈ o.rows s, Issued s (key r)
  claim_issued : ¬ o.back → ∀ k i id, Leased s k i id → Issued s id

/-- The history of a run starts here: nothing has been claimed, and the messages there are have
just been put in. -/
structure Start (s : AppState) : Prop where
  messages : ∀ r ∈ o.rows s, NewMessage r
  leases : s.history.leases = []
  issued_once : IssuedOnce s
  message_issued : ∀ r ∈ o.rows s, Issued s (key r)

/-- The outcome of claim `k`: a success, or a failure, which makes the message dead if the attempt
was the last. -/
inductive EndsBy (now k : Nat) (last : Bool) : (OutboxColumns Uuid → OutboxColumns Uuid) → Prop where
  | delivered : EndsBy now k last (.delivered k now)
  | failed (next : Nat) (message : String) :
      EndsBy now k last (.failed k (if last then .deadLetter else .pending) next message)

/-- What a statement of call `i` does to the messages. -/
inductive Action (i : Nat) : Event → Env → AppState → AppState → Prop where
  | idle {l e s} (hfault : e.fault = .failed) : Action i l e s s
  | quiet {e s s'} (hr : o.rows s' = o.rows s) (hh : s'.history = s.history) :
      Action i .quiet e s s'
  | issue {e s} (hf : ¬ Issued s e.uuid) : Action i .quiet e s
      { s with history.issued := (e.uuid, i) :: s.history.issued }
  | add {e s s' ns} (hadd : ∀ r ∈ o.rows s', r ∈ o.rows s ∨
        NewMessage r ∧ (¬ o.back → Unused o i (key r) s))
      (hkeep : ∀ r ∈ o.rows s, r ∈ o.rows s')
      (hh : s'.history = { s.history with enqueued := ns }) : Action i .quiet e s s'
  | claim {e s s'} {p : R → Bool} {next hf} (hfault : e.fault ≠ .failed)
      (hp : ∀ r ∈ o.rows s, p r = true ↔ r ∈ pickDue o.toOutbox o.batch e s)
      (hr : o.rows s' = change (o.rows s) p (.claimed s.history.leases.length next) hf)
      (hh : s'.history = { s.history with
        leases := s.history.leases ++ [(i, (pickDue o.toOutbox o.batch e s).map key)] }) :
      Action i .claimMessages e s s'
  | send {e s s' id k hf} (hk : Leased s k i id)
      (hfirst : ∀ r ∈ o.rows s, key r = id → k ∉ (columns r).trail.sends)
      (hcur : ¬ o.back → ∀ r ∈ o.rows s, key r = id → k ∈ (columns r).trail.claims)
      (hr : o.rows s' = change (o.rows s) (fun r => key r = id) (.sent k) hf)
      (hh : s'.history = s.history) : Action i (.sendMessage id k) e s s'
  | outcome {e s s' id k last f hf} (hfault : e.fault ≠ .failed) (hk : Leased s k i id)
      (hfirst : ∀ r ∈ o.rows s, key r = id → (columns r).trail.ended ≠ some k)
      (hlast : ∀ r ∈ o.rows s, key r = id → (columns r).trail.claims.head? = some k →
        (last = true ↔ (columns r).maxAttempts ≤ (columns r).attempts))
      (hends : EndsBy e.now k last f)
      (hr : o.rows s' = change (o.rows s) (fun r => key r = id) f hf)
      (hh : s'.history = s.history) : Action i (.endMessage id k) e s s'
  | redeliver {e s s' id} {p : R → Bool} {now hf} (hback : o.back)
      (hp : ∀ r, p r = true → key r = id)
      (hr : o.rows s' = change (o.rows s) p (.redelivered now) hf)
      (hh : s'.history = s.history) : Action i (.redeliver id) e s s'
  | remove {e s s'} {p : R → Bool} (hp : ∀ r, p r = true → o.gone e r)
      (hr : o.rows s' = (o.rows s).delete p) (hh : s'.history = s.history) :
      Action i .quiet e s s'

/-! ### The invariant -/

namespace MessageInv

variable {n k : Nat} {c : OutboxColumns Uuid}

theorem of_new {r : R} (h : NewMessage r) : MessageInv n (columns r) := by
  refine ⟨h.bound_pos, ?_, ?_, ?_, ?_, ?_, ?_, fun _ hle => ?_⟩ <;>
    simp only [h.trail, Trail.empty]
  · exact h.attempts.symm
  · simp
  · exact List.nodup_nil
  · simp
  · exact List.nodup_nil
  · simp
  · rw [h.attempts] at hle
    exact absurd h.bound_pos (Nat.not_lt.mpr hle)

theorem mono (h : MessageInv n c) : MessageInv (n + 1) c :=
  { h with
    claims_lt := fun k hk => Nat.lt_succ_of_lt (h.claims_lt k hk)
    sends_lt := fun k hk => Nat.lt_succ_of_lt (h.sends_lt k hk)
    ended_lt := fun k hk => Nat.lt_succ_of_lt (h.ended_lt k hk) }

/-- A new claim has a number above those of all claims there have been. -/
theorem claimed {next : Nat} (h : MessageInv n c) : MessageInv (n + 1) (c.claimed n next) where
  bound_pos := h.bound_pos
  counted := by simp [OutboxColumns.claimed, h.counted]
  claims_lt k hk := by
    rcases List.mem_cons.mp hk with rfl | hk
    · exact Nat.lt_succ_self _
    · exact Nat.lt_succ_of_lt (h.claims_lt k hk)
  claims_nodup := List.nodup_cons.mpr
    ⟨fun hn => Nat.lt_irrefl _ (h.claims_lt n hn), h.claims_nodup⟩
  sends_lt k hk := Nat.lt_succ_of_lt (h.sends_lt k hk)
  sends_nodup := h.sends_nodup
  ended_lt k hk := by cases hk
  spent _ _ he := by cases he

theorem sent (h : MessageInv n c) (hk : k < n) (hfirst : k ∉ c.trail.sends) :
    MessageInv n (c.sent k) :=
  { h with
    sends_lt := fun k' hk' => by
      rcases List.mem_cons.mp hk' with rfl | hk'
      · exact hk
      · exact h.sends_lt k' hk'
    sends_nodup := List.nodup_cons.mpr ⟨hfirst, h.sends_nodup⟩ }

/-- An outcome that leaves the message pending is none of the last attempt, or comes late. -/
theorem ends {now : Nat} {last : Bool} {f : OutboxColumns Uuid → OutboxColumns Uuid}
    (h : MessageInv n c) (hk : k < n) (hends : EndsBy now k last f)
    (hlast : c.trail.claims.head? = some k → (last = true ↔ c.maxAttempts ≤ c.attempts)) :
    MessageInv n (f c) := by
  cases hends with
  | delivered =>
      exact { h with
        ended_lt := fun k' hk' => by cases hk'; exact hk
        spent := fun hp => by cases hp }
  | failed next message =>
      refine { h with ended_lt := fun k' hk' => ?_, spent := fun hp hle he => ?_ }
      · cases hk'
        exact hk
      · have hl := (hlast he.symm).mpr hle
        simp [OutboxColumns.failed, hl] at hp

theorem redelivered {now : Nat} (h : MessageInv n c) : MessageInv n (c.redelivered now) := by
  refine ⟨h.bound_pos, rfl, ?_, List.nodup_nil, ?_, List.nodup_nil, ?_, fun _ hle => ?_⟩
  · simp [OutboxColumns.redelivered, Trail.empty]
  · simp [OutboxColumns.redelivered, Trail.empty]
  · simp [OutboxColumns.redelivered, Trail.empty]
  · exact absurd h.bound_pos (Nat.not_lt.mpr hle)

end MessageInv

/-- The key of a row after a change. -/
theorem key_modify {f : OutboxColumns Uuid → OutboxColumns Uuid} (hf : KeepsId f) {r : R} :
    key (modify f r) = key r :=
  hf.modify.key_eq r

theorem Leased.lt {s : AppState} {k i : Nat} {id : Uuid} (h : Leased s k i id) :
    k < s.history.leases.length := by
  obtain ⟨_, hk, -⟩ := h
  exact (List.getElem?_eq_some_iff.mp hk).1

theorem Leased.of_eq {s s' : AppState} {k i : Nat} {id : Uuid}
    (hl : s'.history.leases = s.history.leases) (h : Leased s k i id) : Leased s' k i id := by
  rwa [Leased, hl]

/-- A claim has been obtained by one call. -/
theorem Leased.unique {s : AppState} {k i j : Nat} {id id' : Uuid} (h : Leased s k i id)
    (h' : Leased s k j id') : i = j := by
  obtain ⟨_, hi, -⟩ := h
  obtain ⟨_, hj, -⟩ := h'
  exact congrArg Prod.fst (Option.some.inj (hi.symm.trans hj))

section Claim

variable {s s' : AppState} {i j k : Nat} {id : Uuid} {ids : List Uuid}
  (hh : s'.history = { s.history with leases := s.history.leases ++ [(i, ids)] })
include hh

theorem Leased.claim (h : Leased s k j id) : Leased s' k j id := by
  obtain ⟨ids', hk, hm⟩ := h
  refine ⟨ids', ?_, hm⟩
  rw [hh, List.getElem?_append_left (List.getElem?_eq_some_iff.mp hk).1]
  exact hk

/-- The claim just obtained. -/
theorem leased_new (hid : id ∈ ids) : Leased s' s.history.leases.length i id :=
  ⟨ids, by simp [hh], hid⟩

theorem Leased.of_claim (h : Leased s' k j id) : Leased s k j id ∨ j = i ∧ id ∈ ids := by
  obtain ⟨ids', hk, hm⟩ := h
  simp only [hh, List.getElem?_append] at hk
  split at hk
  · exact .inl ⟨ids', hk, hm⟩
  · obtain ⟨_, hx⟩ := List.getElem?_eq_some_iff.mp hk
    simp only [List.getElem_singleton, Prod.mk.injEq] at hx
    exact .inr ⟨hx.1.symm, hx.2 ▸ hm⟩

end Claim

/-- A message that the claim takes is in the table. -/
theorem mem_of_mem_pickDue {o : Outbox R} {limit : Nat} {e : Env} {s : AppState} {r : R}
    (h : r ∈ pickDue o limit e s) : r ∈ o.rows s :=
  (Table.mem_select.mp ((List.mem_insertionSort _).mp (List.mem_of_mem_take h))).1

theorem pending_of_mem_pickDue {o : Outbox R} {limit : Nat} {e : Env} {s : AppState} {r : R}
    (h : r ∈ pickDue o limit e s) : (columns r).status = .pending := by
  have := (Table.mem_select.mp ((List.mem_insertionSort _).mp (List.mem_of_mem_take h))).2
  simp only [Bool.and_eq_true, OutboxColumns.due, decide_eq_true_eq] at this
  exact this.1.1

variable {o}

/-- The messages after an action are those before it, or changed ones, or new ones. -/
theorem Action.messages {i : Nat} {l : Event} {e : Env} {s s' : AppState} (hi : Inv o s)
    (h : Action o i l e s s') :
    ∀ r ∈ o.rows s', MessageInv s'.history.leases.length (columns r) := by
  have hm := hi.messages
  intro r hr
  cases h with
  | idle => exact hm r hr
  | quiet hrows hh =>
      rw [hh]
      exact hm r (hrows ▸ hr)
  | issue => exact hm r (o.rows_history s _ ▸ hr)
  | add hadd _ hh =>
      rw [hh]
      exact (hadd r hr).elim (hm r) fun h => .of_new h.1
  | claim _ _ hrows hh =>
      rw [hh, List.length_append, List.length_singleton]
      rw [hrows] at hr
      rcases mem_change hr with ⟨r₀, h₀, -, rfl⟩ | ⟨h, -⟩
      · rw [columns_modify]
        exact (hm r₀ h₀).claimed
      · exact (hm r h).mono
  | send hk hfirst _ hrows hh =>
      rw [hh]
      rw [hrows] at hr
      rcases mem_change hr with ⟨r₀, h₀, hp, rfl⟩ | ⟨h, -⟩
      · rw [columns_modify]
        exact (hm r₀ h₀).sent hk.lt (hfirst r₀ h₀ (by simpa using hp))
      · exact hm r h
  | outcome _ hk _ hlast hends hrows hh =>
      rw [hh]
      rw [hrows] at hr
      rcases mem_change hr with ⟨r₀, h₀, hp, rfl⟩ | ⟨h, -⟩
      · rw [columns_modify]
        exact (hm r₀ h₀).ends hk.lt hends (hlast r₀ h₀ (by simpa using hp))
      · exact hm r h
  | redeliver _ _ hrows hh =>
      rw [hh]
      rw [hrows] at hr
      rcases mem_change hr with ⟨r₀, h₀, -, rfl⟩ | ⟨h, -⟩
      · rw [columns_modify]
        exact (hm r₀ h₀).redelivered
      · exact hm r h
  | remove _ hrows hh =>
      rw [hh]
      rw [hrows] at hr
      exact hm r (Table.mem_delete.mp hr).1

/-- A message has the key of an earlier one, or a new one. -/
theorem Action.key {i : Nat} {l : Event} {e : Env} {s s' : AppState} (h : Action o i l e s s') :
    ∀ r ∈ o.rows s', (∃ r₀ ∈ o.rows s, key r₀ = key r) ∨
      l = .quiet ∧ (¬ o.back → Unused o i (OutboxRow.key r) s) := by
  intro r hr
  have changed : ∀ {p f} {hf : KeepsId f}, r ∈ change (o.rows s) p f hf →
      ∃ r₀ ∈ o.rows s, OutboxRow.key r₀ = OutboxRow.key r := by
    intro p f hf hr
    rcases mem_change hr with ⟨r₀, h₀, -, rfl⟩ | ⟨h, -⟩
    · exact ⟨r₀, h₀, (key_modify hf).symm⟩
    · exact ⟨r, h, rfl⟩
  cases h with
  | idle => exact .inl ⟨r, hr, rfl⟩
  | quiet hrows => exact .inl ⟨r, hrows ▸ hr, rfl⟩
  | issue => exact .inl ⟨r, o.rows_history s _ ▸ hr, rfl⟩
  | add hadd => exact (hadd r hr).elim (fun h => .inl ⟨r, h, rfl⟩) fun h => .inr ⟨rfl, h.2⟩
  | claim _ _ hrows => exact .inl (changed (hrows ▸ hr))
  | send _ _ _ hrows => exact .inl (changed (hrows ▸ hr))
  | outcome _ _ _ _ _ hrows => exact .inl (changed (hrows ▸ hr))
  | redeliver _ _ hrows => exact .inl (changed (hrows ▸ hr))
  | remove _ hrows => exact .inl ⟨r, (Table.mem_delete.mp (hrows ▸ hr)).1, rfl⟩

/-- Every action keeps the identifiers generated, and adds at most a new one. -/
theorem Action.issued {i : Nat} {l : Event} {e : Env} {s s' : AppState} (h : Action o i l e s s') :
    s'.history.issued = s.history.issued ∨
      ¬ Issued s e.uuid ∧ s'.history.issued = (e.uuid, i) :: s.history.issued := by
  cases h with
  | idle => exact .inl rfl
  | issue hf => exact .inr ⟨hf, rfl⟩
  | claim _ _ _ hh => exact .inl (by rw [hh])
  | quiet _ hh | add _ _ hh | send _ _ _ _ hh | outcome _ _ _ _ _ _ hh | redeliver _ _ _ hh
  | remove _ _ hh => exact .inl (by rw [hh])

theorem Action.issued_mono {i : Nat} {l : Event} {e : Env} {s s' : AppState}
    (h : Action o i l e s s') {x : Uuid × Nat} (hx : x ∈ s.history.issued) :
    x ∈ s'.history.issued := by
  rcases h.issued with hn | ⟨-, hn⟩
  · rwa [hn]
  · rw [hn]
    exact List.mem_cons_of_mem _ hx

/-- A claim is an earlier one, or one just obtained on messages of the table. -/
theorem Action.leased {i : Nat} {l : Event} {e : Env} {s s' : AppState} (h : Action o i l e s s')
    {k j : Nat} {id : Uuid} (hk : Leased s' k j id) :
    Leased s k j id ∨ j = i ∧ ∃ r ∈ o.rows s, OutboxRow.key r = id := by
  cases h with
  | idle => exact .inl hk
  | issue => exact .inl hk
  | claim _ _ _ hh =>
      rcases hk.of_claim hh with hk | ⟨hj, hid⟩
      · exact .inl hk
      · obtain ⟨r, hr, hr'⟩ := List.mem_map.mp hid
        exact .inr ⟨hj, r, mem_of_mem_pickDue hr, hr'⟩
  | quiet _ hh | add _ _ hh | send _ _ _ _ hh | outcome _ _ _ _ _ _ hh | redeliver _ _ _ hh
  | remove _ _ hh => exact .inl (hk.of_eq (by rw [hh]))

/-- A claim stays one. -/
theorem Action.lease {i : Nat} {l : Event} {e : Env} {s s' : AppState} (h : Action o i l e s s')
    {k j : Nat} {id : Uuid} (hk : Leased s k j id) : Leased s' k j id := by
  cases h with
  | idle => exact hk
  | issue => exact hk
  | claim _ _ _ hh => exact hk.claim hh
  | quiet _ hh | add _ _ hh | send _ _ _ _ hh | outcome _ _ _ _ _ _ hh | redeliver _ _ _ hh
  | remove _ _ hh => exact hk.of_eq (by rw [hh])

/-- Every action keeps the invariant. -/
theorem Action.inv {i : Nat} {l : Event} {e : Env} {s s' : AppState} (hi : Inv o s)
    (h : Action o i l e s s') : Inv o s' where
  messages := h.messages hi
  issued_once := by
    rcases h.issued with hn | ⟨hf, hn⟩
    · simpa only [IssuedOnce, hn] using hi.issued_once
    · simpa only [IssuedOnce, hn] using hi.issued_once.cons (i := i) hf
  message_issued hb r hr := by
    rcases h.key r hr with ⟨r₀, h₀, hkey⟩ | ⟨-, hu⟩
    · exact hkey ▸ (hi.message_issued hb r₀ h₀).imp fun _ => h.issued_mono
    · exact ⟨i, h.issued_mono (hu hb).issued⟩
  claim_issued hb k j id hk := by
    rcases h.leased hk with hk | ⟨-, r, hr, rfl⟩
    · exact (hi.claim_issued hb k j id hk).imp fun _ => h.issued_mono
    · exact (hi.message_issued hb r hr).imp fun _ => h.issued_mono

theorem Start.inv {s : AppState} (h : Start o s) : Inv o s where
  messages r hr := .of_new (h.messages r hr)
  issued_once := h.issued_once
  message_issued _ := h.message_issued
  claim_issued _ k i id hk := by
    obtain ⟨_, hk, -⟩ := hk
    simp [h.leases] at hk

/-! ### The contract -/

variable (o)

/-- The contract: every statement is an `Action`, in runs whose statements meet `cond`. -/
def outboxContract (cond : Nat → Event → Env → AppState → Prop) :
    Contract Event Env AppState where
  inv := Inv o
  guar := Action o
  adm i l e s := admissible i l e s = true ∧ cond i l e s
  guar_inv := Action.inv

variable {o} {cond : Nat → Event → Env → AppState → Prop} {i : Nat}

theorem outboxContract_patient : Patient (outboxContract o cond) where
  stay _ _ _ _ _ hf := .idle hf
  same _ _ _ _ := .quiet rfl rfl
  issue i e s _ ha := by
    obtain ⟨hpid, hf⟩ := not_issued_of_admissible ha.1
    rw [hpid]
    exact .issue hf

/-- An identifier that a call has generated stays unused until that call uses it. -/
theorem unused_stable {id : Uuid} : (outboxContract o cond).Stable i fun s =>
    ¬ o.back → Unused o i id s := by
  intro s s' j l e hi hs hj hg hb
  have hu := hs hb
  refine ⟨hg.issued_mono hu.issued, fun r hr hid => ?_, fun k j' hk => ?_⟩
  · rcases hg.key r hr with ⟨r₀, h₀, hkey⟩ | ⟨-, hnew⟩
    · exact hu.no_message r₀ h₀ (hkey.trans hid)
    · exact hj (hi.issued_once id j i (hid ▸ (hnew hb).issued) hu.issued)
  · rcases hg.leased hk with hk | ⟨-, r, hr, hid⟩
    · exact hu.no_claim k j' hk
    · exact hu.no_message r hr hid

variable (o) in
/-- What a worker knows of a message that a claim has returned to it as `r`, until it writes the
outcome. -/
structure Held (i : Nat) (r : R) (s : AppState) : Prop where
  lease : Leased s (columns r).claim i (key r)
  unended : ∀ r' ∈ o.rows s, key r' = key r → (columns r').trail.ended ≠ some (columns r).claim
  /-- As long as the claim is the newest on the message, the message has the attempts that the
  worker has read. -/
  same : ∀ r' ∈ o.rows s, key r' = key r →
    (columns r').trail.claims.head? = some (columns r).claim →
      (columns r').attempts = (columns r).attempts ∧
        (columns r').maxAttempts = (columns r).maxAttempts
  current : ¬ o.back → ∀ r' ∈ o.rows s, key r' = key r →
    (columns r).claim ∈ (columns r').trail.claims

variable (o) in
/-- The message has not been sent under the claim that has returned it as `r`. -/
def Unsent (r : R) (s : AppState) : Prop :=
  ∀ r' ∈ o.rows s, key r' = key r → (columns r).claim ∉ (columns r').trail.sends

/-- The part of a worker's knowledge about one row of the table. -/
structure Knows (back : Prop) (k attempts maxAttempts : Nat) (c : OutboxColumns Uuid) : Prop where
  unended : c.trail.ended ≠ some k
  same : c.trail.claims.head? = some k → c.attempts = attempts ∧ c.maxAttempts = maxAttempts
  current : ¬ back → k ∈ c.trail.claims

namespace Knows

variable {back : Prop} {k k' attempts maxAttempts : Nat} {c : OutboxColumns Uuid}

theorem of_new {r : R} (h : NewMessage r) (hb : back) :
    Knows back k attempts maxAttempts (columns r) := by
  constructor <;> simp [h.trail, Trail.empty, hb]

theorem claimed {next : Nat} (h : Knows back k attempts maxAttempts c) (hk : k' ≠ k) :
    Knows back k attempts maxAttempts (c.claimed k' next) where
  unended he := by cases he
  same he := absurd (Option.some.inj he) hk
  current hb := List.mem_cons_of_mem _ (h.current hb)

theorem sent (h : Knows back k attempts maxAttempts c) :
    Knows back k attempts maxAttempts (c.sent k') :=
  ⟨h.unended, h.same, h.current⟩

theorem ends {now : Nat} {last : Bool} {f : OutboxColumns Uuid → OutboxColumns Uuid}
    (h : Knows back k attempts maxAttempts c) (hk : k' ≠ k) (hends : EndsBy now k' last f) :
    Knows back k attempts maxAttempts (f c) := by
  cases hends with
  | delivered => exact ⟨fun he => hk (Option.some.inj he), h.same, h.current⟩
  | failed => exact ⟨fun he => hk (Option.some.inj he), h.same, h.current⟩

theorem redelivered {now : Nat} (hb : back) :
    Knows back k attempts maxAttempts (c.redelivered now) := by
  constructor <;> simp [OutboxColumns.redelivered, Trail.empty, hb]

end Knows

theorem held_iff {r : R} {s : AppState} : Held o i r s ↔
    Leased s (columns r).claim i (key r) ∧ ∀ r' ∈ o.rows s, key r' = key r →
      Knows o.back (columns r).claim (columns r).attempts (columns r).maxAttempts (columns r') :=
  ⟨fun h => ⟨h.lease, fun r' hr hk =>
      ⟨h.unended r' hr hk, h.same r' hr hk, fun hb => h.current hb r' hr hk⟩⟩,
    fun h => ⟨h.1, fun r' hr hk => (h.2 r' hr hk).unended, fun r' hr hk => (h.2 r' hr hk).same,
      fun hb r' hr hk => (h.2 r' hr hk).current hb⟩⟩

/-- What an action does to one message that a claim `k` of another call has returned. -/
theorem Action.knows {l : Event} {e : Env} {s s' : AppState} {j k attempts maxAttempts : Nat}
    {id : Uuid} (h : Action o j l e s s') (hj : j ≠ i) (hk : Leased s k i id)
    (hs : ∀ r ∈ o.rows s, OutboxRow.key r = id → Knows o.back k attempts maxAttempts (columns r)) :
    ∀ r ∈ o.rows s', OutboxRow.key r = id → Knows o.back k attempts maxAttempts (columns r) := by
  intro r hr hid
  cases h with
  | idle => exact hs r hr hid
  | quiet hrows => exact hs r (hrows ▸ hr) hid
  | issue => exact hs r (o.rows_history s _ ▸ hr) hid
  | add hadd =>
      rcases hadd r hr with h | ⟨hnew, hu⟩
      · exact hs r h hid
      · refine .of_new hnew ?_
        by_contra hb
        -- Where messages are not put back, a new one has an id that no claim has returned.
        exact (hu hb).no_claim k i (hid ▸ hk)
  | @claim _ _ _ _ _ hf _ _ hrows =>
      rw [hrows] at hr
      rcases mem_change hr with ⟨r₀, h₀, -, rfl⟩ | ⟨h, -⟩
      · rw [columns_modify]
        exact (hs r₀ h₀ ((key_modify hf).symm.trans hid)).claimed (Nat.ne_of_gt hk.lt)
      · exact hs r h hid
  | @send _ _ _ _ _ hf _ _ _ hrows =>
      rw [hrows] at hr
      rcases mem_change hr with ⟨r₀, h₀, -, rfl⟩ | ⟨h, -⟩
      · rw [columns_modify]
        exact (hs r₀ h₀ ((key_modify hf).symm.trans hid)).sent
      · exact hs r h hid
  | @outcome _ _ _ _ _ _ _ hf _ hk' _ _ hends hrows =>
      rw [hrows] at hr
      rcases mem_change hr with ⟨r₀, h₀, -, rfl⟩ | ⟨h, -⟩
      · rw [columns_modify]
        refine (hs r₀ h₀ ((key_modify hf).symm.trans hid)).ends ?_ hends
        rintro rfl
        -- The outcome of another call is for that call's claim.
        exact hj (hk'.unique hk)
      · exact hs r h hid
  | redeliver hb _ hrows =>
      rw [hrows] at hr
      rcases mem_change hr with ⟨r₀, -, -, rfl⟩ | ⟨h, -⟩
      · rw [columns_modify]
        exact .redelivered hb
      · exact hs r h hid
  | remove _ hrows =>
      rw [hrows] at hr
      exact hs r (Table.mem_delete.mp hr).1 hid

theorem held_stable {r : R} : (outboxContract o cond).Stable i (Held o i r) := by
  intro s s' j l e _ hs hj hg
  rw [held_iff] at hs ⊢
  exact ⟨hg.lease hs.1, hg.knows hj hs.1 hs.2⟩

/-- A message that the worker has not sent stays unsent under its claim while the others run. -/
theorem Action.unsent {l : Event} {e : Env} {s s' : AppState} {j : Nat} {r : R}
    (h : Action o j l e s s') (hj : j ≠ i)
    (hk : Leased s (columns r).claim i (OutboxRow.key r)) (hs : Unsent o r s) :
    Unsent o r s' := by
  intro r' hr hid
  cases h with
  | idle => exact hs r' hr hid
  | quiet hrows => exact hs r' (hrows ▸ hr) hid
  | issue => exact hs r' (o.rows_history s _ ▸ hr) hid
  | add hadd =>
      rcases hadd r' hr with h | ⟨hnew, -⟩
      · exact hs r' h hid
      · simp [hnew.trail, Trail.empty]
  | @claim _ _ _ _ _ hf _ _ hrows =>
      rw [hrows] at hr
      rcases mem_change hr with ⟨r₀, h₀, -, rfl⟩ | ⟨h, -⟩
      · rw [columns_modify]
        exact hs r₀ h₀ ((key_modify hf).symm.trans hid)
      · exact hs r' h hid
  | @send _ _ _ _ k hf hk' _ _ hrows =>
      rw [hrows] at hr
      rcases mem_change hr with ⟨r₀, h₀, -, rfl⟩ | ⟨h, -⟩
      · rw [columns_modify]
        intro hmem
        rcases List.mem_cons.mp hmem with heq | hmem
        · rw [heq] at hk
          -- Only the call that holds the claim sends under it.
          exact hj (hk'.unique hk)
        · exact hs r₀ h₀ ((key_modify hf).symm.trans hid) hmem
      · exact hs r' h hid
  | @outcome _ _ _ _ _ _ f hf _ _ _ _ hends hrows =>
      rw [hrows] at hr
      rcases mem_change hr with ⟨r₀, h₀, -, rfl⟩ | ⟨h, -⟩
      · rw [columns_modify]
        have := hs r₀ h₀ ((key_modify hf).symm.trans hid)
        cases hends with
        | delivered => exact this
        | failed => exact this
      · exact hs r' h hid
  | redeliver _ _ hrows =>
      rw [hrows] at hr
      rcases mem_change hr with ⟨r₀, -, -, rfl⟩ | ⟨h, -⟩
      · rw [columns_modify]
        simp [OutboxColumns.redelivered, Trail.empty]
      · exact hs r' h hid
  | remove _ hrows =>
      rw [hrows] at hr
      exact hs r' (Table.mem_delete.mp hr).1 hid

end Fluxa.Outboxes
