import Fluxa.Http.Quiet
import Fluxa.Http.Webhooks

/-!
# Webhooks — the limit

A registration locks the row of its tenant, counts the tenant's webhooks, and inserts another one.  The lock is held until the transaction ends, so that what has been counted can only become fewer in between.

**`webhook_limit`**: in every state of a run of registrations and deletions no tenant has more webhooks than it may, and a registration that is refused leaves no row.
-/

namespace Fluxa.Registrations
open Interleave Relational Db Contract

/-! ### The system -/

inductive WebhookCall where
  | create (user : AuthenticatedUser) (idempotencyKey : Option String) (url : String)
      (events : List String)
  | delete (user : AuthenticatedUser) (webhookId : Uuid)

def WebhookCall.body (app : App) : WebhookCall → Service (Option StoredResponse)
  | .create user idempotencyKey url events => do
    return some (← Http.createWebhook app user idempotencyKey url events)
  | .delete user webhookId => do
    Http.deleteWebhook user webhookId
    return none

/-- Any number of these requests, side by side. -/
def webhookSystem (app : App) :
    System Event Env AppState AppError WebhookCall (Option StoredResponse) where
  body := WebhookCall.body app
  adm := admissible

abbrev WebhookConfig :=
  Config Event Env AppState AppError WebhookCall (Option StoredResponse)

/-! ### The open transactions -/

/-- The webhooks of the tenant. -/
def registered (s : AppState) (tenantId : Uuid) : Nat :=
  s.db.webhooks.count fun w => w.tenantId = tenantId

theorem registered_congr {s s' : AppState} {tenantId : Uuid}
    (h : s'.db.webhooks = s.db.webhooks) : registered s' tenantId = registered s tenantId := by
  rw [registered, h, registered]

/-- No tenant has more webhooks than it may. -/
def WithinLimit (s : AppState) : Prop := ∀ tenantId, registered s tenantId ≤ maxWebhooksPerTenant

/-- The invariant: of each tenant at most one transaction is open, which inserts webhooks of that
tenant, no more of them than there is room for; `old` are the webhooks that there were when the run
started. -/
structure LimitInv (old : List Uuid) (s : AppState) : Prop where
  limit : WithinLimit s
  alone : ∀ T ∈ s.db.webhookTxs, ∀ T' ∈ s.db.webhookTxs, T.tenantId = T'.tenantId → T = T'
  own : ∀ T ∈ s.db.webhookTxs, ∀ w ∈ T.inserted, w.tenantId = T.tenantId
  room : ∀ T ∈ s.db.webhookTxs,
    registered s T.tenantId + T.inserted.length ≤ maxWebhooksPerTenant
  rows : ∀ w ∈ s.db.webhooks, w.id ∈ old ∨ ∃ j, (j, .webhook, w.id) ∈ s.history.created

/-- What a statement of call `i` does to webhooks and open transactions. -/
inductive LimitAction (i : Nat) : AppState → AppState → Prop where
  | keep {s s'} (hw : s'.db.webhooks = s.db.webhooks) (ht : s'.db.webhookTxs = s.db.webhookTxs)
      (hc : s'.history.created = s.history.created) : LimitAction i s s'
  | lock {s s'} {T : WebhookTx} (hpid : T.pid = i) (hfree : tenantLocked T.tenantId s = false)
      (hT : T.inserted = []) (hw : s'.db.webhooks = s.db.webhooks)
      (ht : s'.db.webhookTxs = T :: s.db.webhookTxs.filter fun T' => T'.pid ≠ i)
      (hc : s'.history.created = s.history.created) : LimitAction i s s'
  | insert {s s'} {T : WebhookTx} {w : WebhookRecord} (hmem : T ∈ s.db.webhookTxs)
      (hpid : T.pid = i) (hT : T.inserted = [])
      (hroom : registered s T.tenantId < maxWebhooksPerTenant) (hown : w.tenantId = T.tenantId)
      (hw : s'.db.webhooks = s.db.webhooks)
      (ht : s'.db.webhookTxs =
        { T with inserted := [w] } :: s.db.webhookTxs.filter fun T' => T'.pid ≠ i)
      (hc : s'.history.created = s.history.created) : LimitAction i s s'
  | rollback {s s'} (hw : s'.db.webhooks = s.db.webhooks)
      (ht : s'.db.webhookTxs = s.db.webhookTxs.filter fun T' => T'.pid ≠ i)
      (hc : s'.history.created = s.history.created) : LimitAction i s s'
  | commit {s s'} {T : WebhookTx} {w : WebhookRecord} (hmem : T ∈ s.db.webhookTxs)
      (hpid : T.pid = i) (hT : T.inserted = [w])
      (hw : s.db.webhooks.insertAll T.inserted = some s'.db.webhooks)
      (ht : s'.db.webhookTxs = s.db.webhookTxs.filter fun T' => T'.pid ≠ i)
      (hc : s'.history.created = (i, .webhook, w.id) :: s.history.created) : LimitAction i s s'
  | delete {s s'} {p : WebhookRecord → Bool} (hw : s'.db.webhooks = s.db.webhooks.delete p)
      (ht : s'.db.webhookTxs = s.db.webhookTxs) (hc : s'.history.created = s.history.created) :
      LimitAction i s s'

section Actions

variable {old : List Uuid} {i : Nat} {s s' : AppState}

/-- The transactions of the others stay as they are. -/
theorem LimitAction.other (h : LimitAction i s s') {T : WebhookTx} (hT : T.pid ≠ i) :
    T ∈ s'.db.webhookTxs ↔ T ∈ s.db.webhookTxs := by
  have hfilter : T ∈ (s.db.webhookTxs.filter fun T' => T'.pid ≠ i) ↔ T ∈ s.db.webhookTxs := by
    simp [List.mem_filter, hT]
  cases h with
  | keep _ ht => rw [ht]
  | @lock U hpid _ _ _ ht =>
      have hne : T ≠ U := fun heq => hT (heq ▸ hpid)
      rw [ht, List.mem_cons, hfilter]
      simp [hne]
  | @insert U w _ hpid _ _ _ _ ht =>
      have hne : T ≠ { U with inserted := [w] } := fun heq => hT (heq ▸ hpid)
      rw [ht, List.mem_cons, hfilter]
      simp [hne]
  | rollback _ ht => rw [ht, hfilter]
  | commit _ _ _ _ ht => rw [ht, hfilter]
  | delete _ ht => rw [ht]

/-- What is committed is counted for the tenant of the transaction. -/
theorem registered_commit (hs : LimitInv old s) {T : WebhookTx} (hmem : T ∈ s.db.webhookTxs)
    (hw : s.db.webhooks.insertAll T.inserted = some s'.db.webhooks) (tenantId : Uuid) :
    registered s' tenantId =
      registered s tenantId + if T.tenantId = tenantId then T.inserted.length else 0 := by
  have hcount := Table.count_insertAll hw fun w => w.tenantId = tenantId
  have hown := hs.own T hmem
  split
  · rename_i htenant
    have hall : (T.inserted.countP fun w => w.tenantId = tenantId) = T.inserted.length :=
      List.countP_eq_length.mpr fun w hw' => by simp [hown w hw', htenant]
    rw [hall] at hcount
    exact hcount
  · rename_i htenant
    have hnone : (T.inserted.countP fun w => w.tenantId = tenantId) = 0 :=
      List.countP_eq_zero.mpr fun w hw' => by simp [hown w hw', htenant]
    rw [hnone] at hcount
    exact hcount

/-- A tenant gets another webhook from its own transaction only. -/
theorem LimitAction.registered_le (h : LimitAction i s s') (hs : LimitInv old s)
    {tenantId : Uuid} (hT : ∀ T ∈ s.db.webhookTxs, T.tenantId = tenantId → T.pid ≠ i) :
    registered s' tenantId ≤ registered s tenantId := by
  cases h with
  | keep hw => exact (registered_congr hw).le
  | lock _ _ _ hw => exact (registered_congr hw).le
  | insert _ _ _ _ _ hw => exact (registered_congr hw).le
  | rollback hw => exact (registered_congr hw).le
  | @commit T w hmem hpid _ hw =>
      have hne : T.tenantId ≠ tenantId := fun htenant => hT T hmem htenant hpid
      rw [registered_commit hs hmem hw, if_neg hne]
      exact Nat.le_refl _
  | delete hw =>
      rw [registered, hw]
      exact Table.count_delete_le

theorem LimitAction.limit (h : LimitAction i s s') (hs : LimitInv old s) : WithinLimit s' := by
  intro tenantId
  have hlimit := hs.limit tenantId
  cases h with
  | keep hw => exact (registered_congr hw).trans_le hlimit
  | lock _ _ _ hw => exact (registered_congr hw).trans_le hlimit
  | insert _ _ _ _ _ hw => exact (registered_congr hw).trans_le hlimit
  | rollback hw => exact (registered_congr hw).trans_le hlimit
  | @commit T w hmem hpid _ hw =>
      have hroom := hs.room T hmem
      rw [registered_commit hs hmem hw]
      split
      · rename_i htenant
        exact htenant ▸ hroom
      · exact hlimit
  | delete hw =>
      rw [registered, hw]
      exact Nat.le_trans Table.count_delete_le hlimit

theorem LimitAction.alone (h : LimitAction i s s') (hs : LimitInv old s) :
    ∀ T ∈ s'.db.webhookTxs, ∀ T' ∈ s'.db.webhookTxs, T.tenantId = T'.tenantId → T = T' := by
  intro T hT T' hT' htenant
  cases h with
  | keep _ ht =>
      rw [ht] at hT hT'
      exact hs.alone T hT T' hT' htenant
  | @lock U hpid hfree hU _ ht =>
      have hnone : ∀ V ∈ s.db.webhookTxs, V.tenantId ≠ U.tenantId := by
        simpa [tenantLocked] using hfree
      rw [ht, List.mem_cons, List.mem_filter] at hT hT'
      rcases hT with rfl | ⟨hT, -⟩
      · rcases hT' with rfl | ⟨hT', -⟩
        · rfl
        · exact absurd htenant.symm (hnone T' hT')
      · rcases hT' with rfl | ⟨hT', -⟩
        · exact absurd htenant (hnone T hT)
        · exact hs.alone T hT T' hT' htenant
  | @insert U w hmem hpid _ _ _ _ ht =>
      have hother : ∀ V ∈ s.db.webhookTxs, V.pid ≠ i → V.tenantId ≠ U.tenantId :=
        fun V hV hpid' heq => hpid' (hs.alone V hV U hmem heq ▸ hpid)
      rw [ht, List.mem_cons, List.mem_filter, decide_eq_true_eq] at hT hT'
      rcases hT with rfl | ⟨hT, hpidT⟩
      · rcases hT' with rfl | ⟨hT', hpidT'⟩
        · rfl
        · exact absurd htenant.symm (hother T' hT' hpidT')
      · rcases hT' with rfl | ⟨hT', -⟩
        · exact absurd htenant (hother T hT hpidT)
        · exact hs.alone T hT T' hT' htenant
  | rollback _ ht =>
      rw [ht, List.mem_filter] at hT hT'
      exact hs.alone T hT.1 T' hT'.1 htenant
  | commit _ _ _ _ ht =>
      rw [ht, List.mem_filter] at hT hT'
      exact hs.alone T hT.1 T' hT'.1 htenant
  | delete _ ht =>
      rw [ht] at hT hT'
      exact hs.alone T hT T' hT' htenant

/-- An open transaction inserts webhooks of its tenant, for which there is room. -/
theorem LimitAction.tx (h : LimitAction i s s') (hs : LimitInv old s) {T : WebhookTx}
    (hT : T ∈ s'.db.webhookTxs) : (∀ w ∈ T.inserted, w.tenantId = T.tenantId) ∧
      registered s' T.tenantId + T.inserted.length ≤ maxWebhooksPerTenant := by
  -- A transaction of before keeps its room, as no other one is of its tenant.
  have hbefore : T ∈ s.db.webhookTxs → registered s' T.tenantId ≤ registered s T.tenantId →
      (∀ w ∈ T.inserted, w.tenantId = T.tenantId) ∧
        registered s' T.tenantId + T.inserted.length ≤ maxWebhooksPerTenant :=
    fun hmem hle => ⟨hs.own T hmem, (Nat.add_le_add_right hle _).trans (hs.room T hmem)⟩
  have hle : T ∈ s.db.webhookTxs → T.pid ≠ i →
      registered s' T.tenantId ≤ registered s T.tenantId :=
    fun hmem hpid => h.registered_le hs fun T' hT' htenant => hs.alone T' hT' T hmem htenant ▸ hpid
  cases h with
  | keep hw ht => exact hbefore (ht ▸ hT) (registered_congr hw).le
  | @lock U hpid hfree hU hw ht =>
      rw [ht, List.mem_cons, List.mem_filter] at hT
      rcases hT with rfl | ⟨hT, -⟩
      · rw [hU]
        exact ⟨fun w hw' => absurd hw' List.not_mem_nil,
          (registered_congr hw).trans_le (hs.limit T.tenantId)⟩
      · exact hbefore hT (registered_congr hw).le
  | @insert U w hmem hpid _ hroom hown hw ht =>
      rw [ht, List.mem_cons, List.mem_filter] at hT
      rcases hT with rfl | ⟨hT, -⟩
      · refine ⟨fun w' hw' => List.mem_singleton.mp hw' ▸ hown, ?_⟩
        rw [registered_congr hw]
        exact hroom
      · exact hbefore hT (registered_congr hw).le
  | rollback hw ht =>
      rw [ht, List.mem_filter] at hT
      exact hbefore hT.1 (registered_congr hw).le
  | commit _ _ _ _ ht =>
      rw [ht, List.mem_filter, decide_eq_true_eq] at hT
      exact hbefore hT.1 (hle hT.1 hT.2)
  | delete hw ht =>
      refine hbefore (ht ▸ hT) ?_
      rw [registered, hw]
      exact Table.count_delete_le

/-- The only new creation is of a webhook of the call's transaction. -/
theorem LimitAction.created (h : LimitAction i s s') :
    s'.history.created = s.history.created ∨
      ∃ id, s'.history.created = (i, .webhook, id) :: s.history.created := by
  cases h with
  | keep _ _ hc => exact .inl hc
  | lock _ _ _ _ _ hc => exact .inl hc
  | insert _ _ _ _ _ _ _ hc => exact .inl hc
  | rollback _ _ hc => exact .inl hc
  | commit _ _ _ _ _ hc => exact .inr ⟨_, hc⟩
  | delete _ _ hc => exact .inl hc

theorem LimitAction.rows (h : LimitAction i s s') (hs : LimitInv old s) :
    ∀ w ∈ s'.db.webhooks, w.id ∈ old ∨ ∃ j, (j, .webhook, w.id) ∈ s'.history.created := by
  intro w hmem
  have hbefore : w ∈ s.db.webhooks →
      w.id ∈ old ∨ ∃ j, (j, .webhook, w.id) ∈ s'.history.created := fun hmem => by
    rcases hs.rows w hmem with hold | ⟨j, hj⟩
    · exact .inl hold
    · rcases h.created with hc | ⟨id, hc⟩
      · exact .inr ⟨j, hc ▸ hj⟩
      · exact .inr ⟨j, hc ▸ List.mem_cons_of_mem _ hj⟩
  cases h with
  | keep hw => exact hbefore (hw ▸ hmem)
  | lock _ _ _ hw => exact hbefore (hw ▸ hmem)
  | insert _ _ _ _ _ hw => exact hbefore (hw ▸ hmem)
  | rollback hw => exact hbefore (hw ▸ hmem)
  | commit _ _ hT hw _ hc =>
      rcases (Table.mem_insertAll hw w).mp hmem with hmem | hmem
      · exact hbefore hmem
      · rw [hT, List.mem_singleton] at hmem
        exact .inr ⟨i, by rw [hc, hmem]; exact List.mem_cons_self⟩
  | delete hw =>
      rw [hw, Table.mem_delete] at hmem
      exact hbefore hmem.1

theorem LimitInv.step (hs : LimitInv old s) (h : LimitAction i s s') : LimitInv old s' where
  limit := h.limit hs
  alone := h.alone hs
  own _ hT := (h.tx hs hT).1
  room _ hT := (h.tx hs hT).2
  rows := h.rows hs

end Actions

/-! ### The requests keep to it -/

/-- The contract: every statement is a `LimitAction`. -/
def limitContract (old : List Uuid) : Contract Event Env AppState where
  inv := LimitInv old
  guar i _ _ := LimitAction i
  adm i l e s := admissible i l e s = true
  guar_inv := LimitInv.step

/-- What a call does beside its transaction. -/
def Unregistered (_ : Event) (_ : Env) (s s' : AppState) : Prop :=
  s'.history.created = s.history.created

/-- The call has created nothing. -/
def CreatedNone (i : Nat) (s : AppState) : Prop := ∀ kind id, (i, kind, id) ∉ s.history.created

section Calls

variable {old : List Uuid} {i : Nat}

theorem limitContract_tolerant : TolerantOfKeys (limitContract old) where
  stay _ _ _ _ _ _ := .keep rfl rfl rfl
  bystander _ _ _ _ _ h := .keep h.webhooks h.webhookTxs (by rw [h.history])
  issue _ _ _ _ _ := .keep rfl rfl rfl
  keys _ _ _ _ _ h := .keep (by rw [h.db]) (by rw [h.db]) (by rw [h.history])

theorem unregistered_tolerant : TolerantOfKeys ((limitContract old).within i Unregistered) :=
  limitContract_tolerant.within (fun _ _ _ => rfl)
    (fun _ s s' h => show s'.history.created = s.history.created by rw [h.history])
    (fun _ s s' h => show s'.history.created = s.history.created by rw [h.history]) fun _ _ => rfl

theorem createdNone_stable : (limitContract old).Stable i (CreatedNone i) := by
  intro s s' j l e _ hs hj hg kind id hid
  rcases hg.created with hc | ⟨id', hc⟩
  · exact hs kind id (hc ▸ hid)
  · rw [hc, List.mem_cons] at hid
    rcases hid with hid | hid
    · cases hid
      exact hj rfl
    · exact hs kind id hid

theorem createdNone_lasting :
    ((limitContract old).within i Unregistered).Lasting (CreatedNone i) :=
  lasting_within createdNone_stable fun _ _ s s' _ hs _ hw => by
    unfold CreatedNone
    rw [hw]
    exact hs

/-- The call has this transaction open. -/
def Holds (i : Nat) (T : WebhookTx) (s : AppState) : Prop :=
  (T ∈ s.db.webhookTxs ∧ T.pid = i) ∧ CreatedNone i s

theorem holds_stable {T : WebhookTx} : (limitContract old).Stable i (Holds i T) := by
  intro s s' j l e hi hs hj hg
  have hne : T.pid ≠ j := fun hpid => hj (hpid.symm.trans hs.1.2)
  exact ⟨⟨(hg.other hne).mpr hs.1.1, hs.1.2⟩, createdNone_stable s s' j l e hi hs.2 hj hg⟩

/-- The call has counted less webhooks than the tenant may have. -/
def HasRoom (i : Nat) (T : WebhookTx) (s : AppState) : Prop :=
  Holds i T s ∧ T.inserted = [] ∧ registered s T.tenantId < maxWebhooksPerTenant

theorem hasRoom_stable {T : WebhookTx} : (limitContract old).Stable i (HasRoom i T) := by
  intro s s' j l e hi hs hj hg
  refine ⟨holds_stable s s' j l e hi hs.1 hj hg, hs.2.1, Nat.lt_of_le_of_lt ?_ hs.2.2⟩
  refine hg.registered_le hi fun T' hT' htenant hpid => hj ?_
  rw [← hpid, hi.alone T' hT' T hs.1.1.1 htenant, hs.1.1.2]

/-- A statement in the transaction of the call, which creates nothing: whatever fails ends the
transaction. -/
theorem inWebhookTx_or {A : Type} {ready : AppState → Bool}
    {run : Env → AppState → Except AppError (A × AppState)} {P : AppState → Prop}
    {Q : A → AppState → Prop} (hP : (limitContract old).Stable i P)
    (hQ : ∀ a, (limitContract old).Stable i (Q a)) (hnone : ∀ s, P s → CreatedNone i s)
    (h : ∀ s e, P s → ready s = true → e.pid = i → ∀ a s', run e s = .ok (a, s') →
      LimitAction i s s' ∧ Q a s') :
    (limitContract old).Triple i P (inWebhookTx ready run) (orFail (fun _ => CreatedNone i) Q) := by
  refine Triple.atomic hP (stable_orFail (fun _ => createdNone_stable) hQ)
    fun s e hi hs hy ha => ?_
  have hpid : e.pid = i := (not_issued_of_admissible ha).1
  have hend : LimitAction i s (endWebhookTx e.pid s) := .rollback rfl (by rw [← hpid]; rfl) rfl
  split
  · rename_i a s' _ hrun
    exact h s e hs hy hpid a s' hrun
  · exact ⟨hend, hnone s hs⟩
  · exact ⟨hend, hnone s hs⟩

theorem lockTenant_or {tenantId : Uuid} :
    (limitContract old).Triple i (CreatedNone i) (lockTenant tenantId)
      (orFail (fun _ => CreatedNone i)
        fun T s => (T.tenantId = tenantId ∧ T.inserted = []) ∧ Holds i T s) := by
  refine inWebhookTx_or createdNone_stable (fun _ => stable_const.and holds_stable)
    (fun _ hs => hs) fun s e hs hy hpid T s' hrun => ?_
  split at hrun
  · cases hrun
  · cases hrun
    have hfree : tenantLocked tenantId s = false := by simpa using hy
    have hlock : LimitAction i s (putWebhookTx ⟨e.pid, tenantId, []⟩ s) :=
      .lock hpid hfree rfl rfl (by rw [← hpid]; rfl) rfl
    exact ⟨hlock, ⟨rfl, rfl⟩, ⟨List.mem_cons_self, hpid⟩, hs⟩

theorem checkWebhookCount_or {T : WebhookTx} (hT : T.inserted = []) :
    (limitContract old).Triple i (Holds i T) (checkWebhookCount T)
      (orFail (fun _ => CreatedNone i) fun _ => HasRoom i T) := by
  refine inWebhookTx_or holds_stable (fun _ => hasRoom_stable) (fun _ hs => hs.2)
    fun s e hs _ _ _ s' hrun => ?_
  split at hrun
  · cases hrun
  · rename_i hcount
    cases hrun
    exact ⟨.keep rfl rfl rfl, hs, hT, Nat.lt_of_not_le hcount⟩

theorem insertWebhook_or {T : WebhookTx} {w : WebhookRecord} (hw : w.tenantId = T.tenantId) :
    (limitContract old).Triple i (HasRoom i T) (insertWebhook T w)
      (orFail (fun _ => CreatedNone i) fun T' s => T'.inserted = [w] ∧ Holds i T' s) := by
  refine inWebhookTx_or hasRoom_stable (fun _ => stable_const.and holds_stable)
    (fun _ hs => hs.1.2) fun s e hs _ _ T' s' hrun => ?_
  obtain ⟨⟨⟨hmem, hpid⟩, hnone⟩, hT, hroom⟩ := hs
  split at hrun
  · cases hrun
  · cases hrun
    refine ⟨.insert hmem hpid hT hroom hw rfl ?_ rfl, by rw [hT], ⟨List.mem_cons_self, hpid⟩, hnone⟩
    rw [hT, ← hpid]
    rfl

/-- A commit that fails, or whose result is lost, is an internal error. -/
theorem commitWebhook_refused {T : WebhookTx} {w : WebhookRecord} {N : AppState → Prop}
    (hT : T.inserted = [w]) (hN : (limitContract old).Stable i N) :
    (limitContract old).Triple i (Holds i T) (commitWebhook T w) (Refused N) := by
  refine Triple.atomic holds_stable (stable_refused hN) fun s e hi hs _ ha => ?_
  have hpid : e.pid = i := (not_issued_of_admissible ha).1
  have hend : LimitAction i s (endWebhookTx e.pid s) := .rollback rfl (by rw [← hpid]; rfl) rfl
  split
  · exact ⟨hend, trivial⟩
  · exact ⟨hend, trivial⟩
  · rename_i webhooks _ hinsert _
    refine ⟨.commit hs.1.1 hs.1.2 hT hinsert (by rw [← hpid]; rfl) (by rw [← hpid]; rfl), ?_⟩
    dsimp only
    split
    · trivial
    · trivial

/-- A registration that is refused has created nothing. -/
theorem createWebhook_refused {tenantId actorId : Uuid} {url secret : String}
    {events : List String} :
    (limitContract old).Triple i (CreatedNone i)
      (createWebhook tenantId actorId url secret events) (Refused (CreatedNone i)) := by
  have tolerant := @limitContract_tolerant old
  have patient := tolerant.toPatient
  refine Triple.bind (utcNow_or patient createdNone_stable) (fun now => ?_) fun _ _ _ hs => hs.elim
  refine Triple.bind lockTenant_or (fun T => ?_) fun _ _ _ hs => refused_of hs
  refine Triple.of_fact fun ⟨htenant, hT⟩ => ?_
  refine Triple.bind (checkWebhookCount_or hT) (fun _ => ?_) fun _ _ _ hs => refused_of hs
  refine Triple.bind (newUuid_or patient hasRoom_stable fun _ _ hs => hs) (fun id => ?_)
    fun _ _ _ hs => hs.elim
  refine Triple.bind (insertWebhook_or htenant.symm) (fun T' => ?_) fun _ _ _ hs => refused_of hs
  refine Triple.of_fact fun hT' => ?_
  exact Triple.bind (commitWebhook_refused hT' createdNone_stable)
    (fun _ => Triple.done (stable_refused createdNone_stable _) fun _ _ _ => trivial)
    fun _ _ _ hs => hs.error

theorem createWebhookService_refused {app : App} {tenantId actorId : Uuid} {url : String}
    {events : List String} :
    (limitContract old).Triple i (CreatedNone i)
      (Webhooks.createWebhook app tenantId actorId url events) (Refused (CreatedNone i)) := by
  have hstable : (limitContract old).Stable i (CreatedNone i) := createdNone_stable
  refine Triple.lift_or hstable (fun url _ => ?_) fun _ _ _ hs => refused_of hs
  refine Triple.lift_or hstable (fun events _ => ?_) fun _ _ _ hs => refused_of hs
  refine Triple.bind (generateRandom_or limitContract_tolerant.toPatient hstable)
    (fun secret => createWebhook_refused) fun _ _ _ hs => hs.elim

theorem createWebhookRequest_refused {app : App} {user : AuthenticatedUser} {key : Option String}
    {url : String} {events : List String} :
    (limitContract old).Triple i (CreatedNone i) (Http.createWebhook app user key url events)
      (Refused (CreatedNone i)) := by
  have hstable : (limitContract old).Stable i (CreatedNone i) := createdNone_stable
  refine Triple.lift_or hstable (fun _ _ => ?_) fun _ _ _ hs => refused_of hs
  refine Triple.lift_or hstable (fun key _ => ?_) fun _ _ _ hs => refused_of hs
  refine idempotent_refused unregistered_tolerant createdNone_lasting (fun s s' hs h => ?_)
    fun _ => createWebhookService_refused
  unfold CreatedNone
  rw [h.history]
  exact hs

theorem deleteWebhook_safe {user : AuthenticatedUser} {webhookId : Uuid} :
    (limitContract old).Safe i (Http.deleteWebhook user webhookId) := by
  refine Triple.lift_bind fun _ _ => sql_safe limitContract_tolerant.toPatient fun s e _ _ _ => ?_
  dsimp only
  split
  · exact .delete rfl rfl rfl
  · exact .keep rfl rfl rfl

/-- A registration that is refused has created nothing. -/
def LimitPost (i : Nat) :
    WebhookCall → Except AppError (Option StoredResponse) → AppState → Prop
  | .create .., r, s => Refused (CreatedNone i) r s
  | .delete .., _, _ => True

theorem webhookCall_triple {app : App} (i : Nat) (k : WebhookCall) :
    (limitContract old).Triple i (CreatedNone i) ((webhookSystem app).body k) (LimitPost i k) := by
  cases k with
  | create user key url events =>
      exact Triple.bind createWebhookRequest_refused
        (fun _ => Triple.done (stable_refused createdNone_stable _) fun _ _ _ => trivial)
        fun _ _ _ hs => hs.error
  | delete user webhookId =>
      exact (Safe.bind deleteWebhook_safe fun _ => Safe.done).pre fun _ _ _ => trivial

end Calls

/-- At the start no tenant has more webhooks than it may, and no transaction is open. -/
structure LimitStart (s : AppState) : Prop where
  limit : WithinLimit s
  closed : s.db.webhookTxs = []
  created : ∀ i, CreatedNone i s

/-- The webhooks that have a row. -/
def webhookIds (s : AppState) : List Uuid := s.db.webhooks.rows.map (·.id)

theorem LimitStart.inv {s : AppState} (h : LimitStart s) : LimitInv (webhookIds s) s := by
  have hnone : ∀ T, T ∉ s.db.webhookTxs := fun T hT => absurd (h.closed ▸ hT) List.not_mem_nil
  exact ⟨h.limit, fun T hT => absurd hT (hnone T), fun T hT => absurd hT (hnone T),
    fun T hT => absurd hT (hnone T), fun w hw => .inl (List.mem_map_of_mem hw)⟩

/-- The error of a registration for which the tenant has no room. -/
def limitReached : AppError :=
  .validation s!"a tenant may register at most {maxWebhooksPerTenant} webhooks"

end Fluxa.Registrations

namespace Fluxa
open Interleave Registrations

/-- In every run of registrations and deletions no tenant ever has more webhooks than it may, and
where a registration is refused because of that, each webhook was there at the start or is of
another request. -/
theorem webhook_limit {app : App} {s : AppState} (hs : LimitStart s)
    {ms : List (Move Env WebhookCall)} {c : WebhookConfig}
    (h : (webhookSystem app).exec (.start s) ms = some c) :
    (webhookSystem app).Through (fun d => WithinLimit d.st) (.start s) ms ∧
      ∀ (i : Nat) user key url events,
        c.calls[i]? = some (.create user key url events, .done (.error limitReached)) →
        ∀ w ∈ c.st.db.webhooks, w.id ∈ webhookIds s ∨
          ∃ j, j ≠ i ∧ (j, .webhook, w.id) ∈ c.st.history.created := by
  have hthrough : (webhookSystem app).Through
      (Contract.KeepsFrom (limitContract (webhookIds s)) CreatedNone LimitPost) (.start s) ms :=
    Contract.throughFrom (fun _ => createdNone_stable) webhookCall_triple (fun _ _ _ _ ha => ha)
      hs.inv hs.created
  obtain ⟨hkeeps, -⟩ := hthrough.last h
  refine ⟨hthrough.mono fun d hd => hd.1.1.limit, fun i user key url events hi w hw => ?_⟩
  have hnone : CreatedNone i c.st := hkeeps.result hi
  rcases hkeeps.1.rows w hw with hold | ⟨j, hj⟩
  · exact .inl hold
  · refine .inr ⟨j, fun hji => ?_, hj⟩
    subst hji
    exact hnone _ _ hj

/-! ### Two requests for the last place -/

namespace Registrations

/-- Any text is a valid URL. -/
def withUrls : App :=
  { (default : App) with
    lib := { (default : Libraries) with parseUri := fun _ => some ⟨some "https", some "a.example"⟩ } }

def aTenant : TenantRecord := { id := 1, name := "t", createdAt := 0 }

/-- The tenant with nine webhooks. -/
def nineWebhooks : AppState :=
  { (default : AppState) with
    db.tenants := ⟨[aTenant], by simp⟩
    db.webhooks :=
      ⟨(List.range 9).map fun n =>
        { id := n, tenantId := 1, url := "https://a.example", secret := "s",
          events := ["task_created"], isActive := true, createdBy := 1, createdAt := 0,
          updatedAt := 0 }, by decide⟩ }

theorem nineWebhooks_start : LimitStart nineWebhooks where
  limit tenantId := by
    have hle := List.length_filter_le (fun w : WebhookRecord => decide (w.tenantId = tenantId))
      nineWebhooks.db.webhooks.rows
    exact Nat.le_trans hle (by decide)
  closed := rfl
  created _ _ _ h := absurd h List.not_mem_nil

def anAdmin : AuthenticatedUser := ⟨1, 1, .admin, 0⟩

/-- The next `n` statements of call `i`; what they generate is numbered from `first`. -/
def webhookStatements (i n first : Nat) : List (Move Env WebhookCall) :=
  (List.range n).map fun k => .exec i { (default : Env) with pid := i, uuid := first + k }

/-- Two registrations start; one gets the lock and the last place; the other then finds none. -/
def lastPlace : List (Move Env WebhookCall) :=
  [.call (.create anAdmin (some "k") "https://a.example" ["task_created"]),
    .call (.create anAdmin (some "l") "https://a.example" ["task_created"])] ++
  webhookStatements 0 6 100 ++ webhookStatements 1 5 200 ++ webhookStatements 0 5 300 ++
  webhookStatements 1 3 400

/-- The request with this number has been refused for the limit. -/
def refused (c : WebhookConfig) (i : Nat) : Bool :=
  match (c.calls[i]? : Option (WebhookCall × Service (Option StoredResponse))) with
  | some (.create .., .done (.error error)) => error = limitReached
  | _ => false

theorem calls_of_refused {c : WebhookConfig} {i : Nat} (h : refused c i = true) :
    ∃ user key url events,
      c.calls[i]? = some (.create user key url events, .done (.error limitReached)) := by
  unfold refused at h
  split at h
  · rename_i user key url events error hc
    rw [decide_eq_true_eq] at h
    exact ⟨user, key, url, events, h ▸ hc⟩
  · cases h

end Registrations

/-- In this run the second registration is refused, and the tenth webhook is that of the first. -/
theorem webhook_limit_lastPlace :
    ∃ c, (webhookSystem withUrls).exec (.start nineWebhooks) lastPlace = some c ∧
      (webhookSystem withUrls).Through (fun d => WithinLimit d.st) (.start nineWebhooks) lastPlace ∧
      refused c 1 = true ∧ registered c.st 1 = 10 ∧
      ∀ w ∈ c.st.db.webhooks, w.id ∈ webhookIds nineWebhooks ∨
        ∃ j, j ≠ 1 ∧ (j, .webhook, w.id) ∈ c.st.history.created := by
  have h : ((webhookSystem withUrls).exec (.start nineWebhooks) lastPlace).any fun c =>
      refused c 1 && decide (registered c.st 1 = 10) := by
    decide +kernel
  obtain ⟨c, hc, h⟩ := (Option.any_eq_true _ _).mp h
  rw [Bool.and_eq_true, decide_eq_true_eq] at h
  obtain ⟨hthrough, hrows⟩ := webhook_limit nineWebhooks_start hc
  obtain ⟨user, key, url, events, hcall⟩ := calls_of_refused h.1
  exact ⟨c, hc, hthrough, h.1, h.2, hrows 1 user key url events hcall⟩

end Fluxa
