import Fluxa.Relational.Replace
import Fluxa.Services.Labels
import Fluxa.State.Quiet
import Mathlib.Data.List.Dedup
import Mathlib.Data.List.Perm.Subperm

/-!
# Labels — replacing the labels of a task

Any number of requests replace the labels of one task, each in a transaction of its own.

* **`label_replacement_atomic`**: in every run in which no replacement commits while another one that asks for other labels is open, and each commit is reported, the labels are those that a successful request has asked for whenever no request is running.
* **`overlapping_replacements`**: two requests at the same time leave the labels of both.
-/

namespace Fluxa
open Interleave Relational Db Contract

namespace TaskLabels

variable {taskId : Uuid} {S₀ : Set Uuid} {i : Nat} {s s' : AppState}

/-! ### The system -/

/-- A request. -/
structure LabelRequest where
  tenantId : Uuid
  actorId : Uuid
  labelIds : List Uuid

/-- Any number of requests for the labels of one task. -/
def labelSystem (app : App) (taskId : Uuid) :
    System Event Env AppState AppError LabelRequest (List LabelRecord) :=
  ⟨fun k => Labels.setTaskLabels app k.tenantId taskId k.actorId k.labelIds, admissible⟩

/-- A replacement is committed only when every other open one asks for the same labels. -/
def SameWanted (i : Nat) (l : Event) (e : Env) (s : AppState) : Prop :=
  l = .commitLabels → e.fault ≠ .failed → ∀ M ∈ s.db.labelTxs, M.pid = i →
    ∀ T ∈ s.db.labelTxs, (∀ l ∈ T.wanted, l ∈ M.wanted) ∧ ∀ l ∈ M.wanted, l ∈ T.wanted

instance (i : Nat) (l : Event) (e : Env) (s : AppState) : Decidable (SameWanted i l e s) :=
  inferInstanceAs (Decidable (_ → _ → _))

/-- The result of a commit arrives, and so does that of what follows it. -/
def CommitReported (_ : Nat) (l : Event) (e : Env) (_ : AppState) : Prop :=
  (l = .commitLabels → e.fault ≠ .lost) ∧ (l = .afterCommit → e.fault = .none)

instance (i : Nat) (l : Event) (e : Env) (s : AppState) : Decidable (CommitReported i l e s) :=
  inferInstanceAs (Decidable (_ ∧ _))

/-! ### The contract -/

/-- The labels of the task. -/
def labelSet (s : AppState) (taskId : Uuid) : Set Uuid := {l | l ∈ labelsOf s taskId}

/-- The labels that the newest replacement has asked for, or those at the start. -/
def newestWanted (S₀ : Set Uuid) : List (Nat × Uuid × List Uuid) → Set Uuid
  | [] => S₀
  | (_, _, wanted) :: _ => {l | l ∈ wanted}

/-- The labels are those of the newest replacement. -/
structure LabelInv (taskId : Uuid) (S₀ : Set Uuid) (s : AppState) : Prop where
  current : labelSet s taskId = newestWanted S₀ s.history.replaced
  small : ∀ x ∈ s.history.replaced, x.2.2.length ≤ maxLabelsPerTask

/-- What a statement of call `i` does to the labels. -/
inductive LabelAction (taskId : Uuid) (i : Nat) : Event → Env → AppState → AppState → Prop where
  /-- Only the call's own transaction is changed. -/
  | own {l e s s'} (hrows : s'.db.taskLabels = s.db.taskLabels)
      (hrep : s'.history.replaced = s.history.replaced)
      (htx : ∀ T, T.pid ≠ i → (T ∈ s'.db.labelTxs ↔ T ∈ s.db.labelTxs)) :
      LabelAction taskId i l e s s'
  | commit {e s s'} (wanted : List Uuid) (hset : labelSet s' taskId = {l | l ∈ wanted})
      (hsame : ∀ T ∈ s.db.labelTxs, {l | l ∈ T.wanted} = {l | l ∈ wanted})
      (hsmall : wanted.length ≤ maxLabelsPerTask)
      (hrep : s'.history.replaced = (i, taskId, wanted) :: s.history.replaced)
      (htx : ∀ T, T.pid ≠ i → (T ∈ s'.db.labelTxs ↔ T ∈ s.db.labelTxs)) :
      LabelAction taskId i .commitLabels e s s'

theorem labelSet_of_rows (h : s'.db.taskLabels = s.db.taskLabels) :
    labelSet s' taskId = labelSet s taskId := by
  simp only [labelSet, labelsOf, h]

theorem LabelAction.inv {l : Event} {e : Env} (hi : LabelInv taskId S₀ s)
    (h : LabelAction taskId i l e s s') : LabelInv taskId S₀ s' := by
  cases h with
  | own hrows hrep =>
      refine ⟨?_, by rw [hrep]; exact hi.small⟩
      rw [labelSet_of_rows hrows, hrep]
      exact hi.current
  | commit wanted hset _ hsmall hrep =>
      refine ⟨by rw [hset, hrep]; rfl, fun x hx => ?_⟩
      rw [hrep] at hx
      rcases List.mem_cons.mp hx with rfl | hx
      · exact hsmall
      · exact hi.small x hx

/-- The contract: every statement is a `LabelAction`, in runs whose statements meet the two
conditions. -/
def labelContract (taskId : Uuid) (S₀ : Set Uuid) : Contract Event Env AppState where
  inv := LabelInv taskId S₀
  guar := LabelAction taskId
  adm i l e s := admissible i l e s = true ∧ SameWanted i l e s ∧ CommitReported i l e s
  guar_inv := LabelAction.inv

theorem labelContract_patient : Patient (labelContract taskId S₀) where
  stay _ _ _ _ _ _ := .own rfl rfl fun _ _ => Iff.rfl
  same _ _ _ _ := .own rfl rfl fun _ _ => Iff.rfl
  issue _ _ _ _ _ := .own rfl rfl fun _ _ => Iff.rfl

/-! ### What a call knows -/

/-- The call has not committed a replacement. -/
def Uncommitted (i : Nat) (s : AppState) : Prop := ∀ x ∈ s.history.replaced, x.1 ≠ i

/-- The call has committed one replacement, by the labels `wanted`. -/
structure Committed (i : Nat) (wanted : List Uuid) (s : AppState) : Prop where
  exists_entry : ∃ x ∈ s.history.replaced, x.1 = i
  eq_wanted : ∀ x ∈ s.history.replaced, x.1 = i → x.2.2 = wanted

/-- The transaction as a replacement of sets. -/
def replacement (T : LabelTx) : Replacement Uuid where
  wanted := {l | l ∈ T.wanted}
  found := {l | l ∈ T.found}
  deleted := {l | l ∈ T.deleted}
  inserted := {l | l ∈ T.inserted}

/-- The call has the transaction `T` open, as far as said. -/
structure Holding (taskId : Uuid) (i : Nat) (T : LabelTx) (cleared filled : Prop) (s : AppState) :
    Prop where
  pid : T.pid = i
  task : T.taskId = taskId
  mem : T ∈ s.db.labelTxs
  only : ∀ T' ∈ s.db.labelTxs, T'.pid = i → T' = T
  uncommitted : Uncommitted i s
  started : (replacement T).Started (labelSet s taskId)
  cleared : cleared → (replacement T).Cleared (labelSet s taskId)
  filled : filled → (replacement T).Filled (labelSet s taskId)

theorem uncommitted_stable : (labelContract taskId S₀).Stable i (Uncommitted i) := by
  intro s s' j l e _ hs hj hg x hx
  cases hg with
  | own _ hrep => exact hs x (hrep ▸ hx)
  | commit _ _ _ _ hrep =>
      rw [hrep] at hx
      rcases List.mem_cons.mp hx with rfl | hx
      · exact hj
      · exact hs x hx

theorem committed_stable {wanted : List Uuid} :
    (labelContract taskId S₀).Stable i (Committed i wanted) := by
  intro s s' j l e _ hs hj hg
  cases hg with
  | own _ hrep => exact ⟨by rw [hrep]; exact hs.exists_entry, by rw [hrep]; exact hs.eq_wanted⟩
  | commit _ _ _ _ hrep =>
      obtain ⟨x, hx, hi⟩ := hs.exists_entry
      refine ⟨⟨x, hrep ▸ List.mem_cons_of_mem _ hx, hi⟩, fun x hx hi => ?_⟩
      rw [hrep] at hx
      rcases List.mem_cons.mp hx with rfl | hx
      · exact absurd hi hj
      · exact hs.eq_wanted x hx hi

/-- A commit of others leaves the labels that the transaction wants, too. -/
theorem holding_stable {T : LabelTx} {cleared filled : Prop} :
    (labelContract taskId S₀).Stable i (Holding taskId i T cleared filled) := by
  intro s s' j l e hi hs hj hg
  have hun := uncommitted_stable s s' j l e hi hs.uncommitted hj hg
  have mine : (∀ T, T.pid ≠ j → (T ∈ s'.db.labelTxs ↔ T ∈ s.db.labelTxs)) →
      T ∈ s'.db.labelTxs ∧ ∀ T' ∈ s'.db.labelTxs, T'.pid = i → T' = T := fun htx =>
    ⟨(htx T (hs.pid.trans_ne hj.symm)).mpr hs.mem, fun T' hT' hp =>
      hs.only T' ((htx T' (hp.trans_ne hj.symm)).mp hT') hp⟩
  cases hg with
  | own hrows _ htx =>
      have hset : labelSet s' taskId = labelSet s taskId := labelSet_of_rows hrows
      exact ⟨hs.pid, hs.task, (mine htx).1, (mine htx).2, hun, hset ▸ hs.started,
        hset ▸ hs.cleared, hset ▸ hs.filled⟩
  | commit _ hset hsame _ _ htx =>
      have hw : labelSet s' taskId = (replacement T).wanted := hset.trans (hsame T hs.mem).symm
      exact ⟨hs.pid, hs.task, (mine htx).1, (mine htx).2, hun, hw ▸ hs.started.wanted,
        fun _ => hw ▸ hs.started.cleared_wanted, fun _ => hw ▸ Replacement.filled_wanted⟩

/-- The postcondition that asks `Q` of a value, and of an error that nothing has been
committed. -/
def orUncommitted {A : Type} (i : Nat) (Q : A → AppState → Prop) :
    Except AppError A → AppState → Prop
  | .ok a, s => Q a s
  | .error _, s => Uncommitted i s

theorem stable_orUncommitted {A : Type} {Q : A → AppState → Prop}
    (hQ : ∀ a, (labelContract taskId S₀).Stable i (Q a)) (r : Except AppError A) :
    (labelContract taskId S₀).Stable i (orUncommitted i Q r) := by
  cases r with
  | ok a => exact hQ a
  | error x => exact uncommitted_stable

/-! ### The statements of a request -/

theorem mem_endLabelTx {pid : Nat} {T : LabelTx} :
    T ∈ (endLabelTx pid s).db.labelTxs ↔ T ∈ s.db.labelTxs ∧ T.pid ≠ pid := by
  simp [endLabelTx]

theorem mem_putLabelTx {T T' : LabelTx} :
    T' ∈ (putLabelTx T s).db.labelTxs ↔ T' = T ∨ T' ∈ s.db.labelTxs ∧ T'.pid ≠ T.pid := by
  simp [putLabelTx]

/-- A statement in a transaction: it changes the call's own transaction, or ends it. -/
theorem inLabelTx_triple {A : Type} {run : Env → AppState → Option (A × AppState)}
    {P : AppState → Prop} {Q : A → AppState → Prop} (hP : (labelContract taskId S₀).Stable i P)
    (hQ : ∀ a, (labelContract taskId S₀).Stable i (Q a)) (hun : ∀ s, P s → Uncommitted i s)
    (h : ∀ e s a s', e.pid = i → P s → run e s = some (a, s') →
      LabelAction taskId i .quiet e s s' ∧ Q a s') :
    (labelContract taskId S₀).Triple i P (inLabelTx run) (orUncommitted i Q) := by
  refine Triple.atomic hP (stable_orUncommitted hQ) fun s e _ hs _ ha => ?_
  have hpid : e.pid = i := (not_issued_of_admissible ha.1).1
  have hend : LabelAction taskId i .quiet e s (endLabelTx e.pid s) ∧
      Uncommitted i (endLabelTx e.pid s) := by
    refine ⟨.own rfl rfl fun T hT => ?_, hun s hs⟩
    rw [mem_endLabelTx, hpid]
    exact ⟨And.left, fun h => ⟨h, hT⟩⟩
  cases hf : e.fault with
  | none =>
      cases hr : run e s with
      | none => exact hend
      | some p => exact h e s p.1 p.2 hpid hs hr
  | failed => exact hend
  | lost => exact hend

/-- The call's transaction becomes `T`. -/
theorem holding_put {e : Env} {T : LabelTx} (cleared filled : Prop) (hpid : T.pid = i)
    (htask : T.taskId = taskId) (hun : Uncommitted i s)
    (hs : (replacement T).Started (labelSet s taskId))
    (hc : cleared → (replacement T).Cleared (labelSet s taskId))
    (hf : filled → (replacement T).Filled (labelSet s taskId)) :
    LabelAction taskId i .quiet e s (putLabelTx T s) ∧
      Holding taskId i T cleared filled (putLabelTx T s) := by
  refine ⟨.own rfl rfl fun T' hT' => ?_, ?_⟩
  · rw [mem_putLabelTx]
    refine ⟨fun h => ?_, fun h => .inr ⟨h, hpid ▸ hT'⟩⟩
    rcases h with rfl | h
    · exact absurd hpid hT'
    · exact h.1
  · refine ⟨hpid, htask, mem_putLabelTx.mpr (.inl rfl), fun T' hT' hp => ?_, hun, hs, hc, hf⟩
    rcases mem_putLabelTx.mp hT' with h | h
    · exact h
    · exact absurd (hp.trans hpid.symm) h.2

/-- The call has the transaction open, and it asks for `wanted`. -/
def HoldingFor (taskId : Uuid) (i : Nat) (wanted : List Uuid) (cleared filled : Prop)
    (T : LabelTx) (s : AppState) : Prop :=
  Holding taskId i T cleared filled s ∧ T.wanted = wanted

theorem holdingFor_stable {wanted : List Uuid} {cleared filled : Prop} {T : LabelTx} :
    (labelContract taskId S₀).Stable i (HoldingFor taskId i wanted cleared filled T) :=
  holding_stable.and stable_const

theorem findLabelsToDelete_triple {wanted : List Uuid} :
    (labelContract taskId S₀).Triple i (Uncommitted i) (findLabelsToDelete taskId wanted)
      (orUncommitted i (HoldingFor taskId i wanted False False)) := by
  refine inLabelTx_triple uncommitted_stable (fun _ => holdingFor_stable) (fun _ h => h)
    fun e s T s' hpid hs hr => ?_
  obtain ⟨rfl, rfl⟩ := by simpa only [Option.some.injEq, Prod.mk.injEq] using hr
  generalize hT : LabelTx.mk _ _ _ _ _ _ = T
  have hfound : ∀ l, l ∈ T.found ↔ l ∈ labelsOf s taskId ∧ l ∉ wanted := by
    intro l
    simp [← hT, List.mem_filter]
  have hnone : T.deleted = [] ∧ T.inserted = [] := by
    simp [← hT]
  have hwanted : T.wanted = wanted := by
    rw [← hT]
  have hstart : (replacement T).Started (labelSet s taskId) := by
    refine ⟨fun l hl => ?_, fun l hl => ?_, fun l hl => ?_, fun l hl => ?_⟩
    · exact fun hw => ((hfound l).mp hl).2 (hwanted ▸ hw)
    · by_cases hw : l ∈ wanted
      · exact .inr (show l ∈ T.wanted from hwanted ▸ hw)
      · exact .inl ((hfound l).mpr ⟨hl, hw⟩)
    · exact absurd (hnone.1 ▸ hl : l ∈ ([] : List Uuid)) List.not_mem_nil
    · exact absurd (hnone.2 ▸ hl : l ∈ ([] : List Uuid)) List.not_mem_nil
  obtain ⟨hact, hhold⟩ := holding_put (e := e) False False
    (by rw [← hT, hpid]) (by rw [← hT]) hs hstart False.elim False.elim
  exact ⟨hact, hhold, hwanted⟩

theorem deleteFoundLabels_triple {wanted : List Uuid} {T : LabelTx} :
    (labelContract taskId S₀).Triple i (HoldingFor taskId i wanted False False T)
      (deleteFoundLabels T) (orUncommitted i (HoldingFor taskId i wanted True False)) := by
  refine inLabelTx_triple holdingFor_stable (fun _ => holdingFor_stable)
    (fun _ h => h.1.uncommitted) fun e s T' s' hpid hs hr => ?_
  dsimp only at hr
  split at hr
  · cases hr
  · obtain ⟨rfl, rfl⟩ := by simpa only [Option.some.injEq, Prod.mk.injEq] using hr
    obtain ⟨hhold, hw⟩ := hs
    have hst := hhold.started
    have htask := hhold.task
    obtain ⟨hact, hput⟩ := holding_put (e := e) (s := s) True False
      (T := { T with deleted := T.found.filter fun l => (labelsOf s T.taskId).contains l })
      hhold.pid htask hhold.uncommitted
      ⟨hst.apart, hst.covers, fun l hl => (List.mem_filter.mp hl).1, hst.inserted_wanted⟩
      (fun _ l hl => List.mem_filter.mpr ⟨hl.1, by simpa [htask, labelSet] using hl.2⟩)
      False.elim
    exact ⟨hact, hput, hw⟩

theorem insertMissingLabels_triple {wanted : List Uuid} {T : LabelTx} :
    (labelContract taskId S₀).Triple i (HoldingFor taskId i wanted True False T)
      (insertMissingLabels T) (orUncommitted i (HoldingFor taskId i wanted True True)) := by
  refine inLabelTx_triple holdingFor_stable (fun _ => holdingFor_stable)
    (fun _ h => h.1.uncommitted) fun e s T' s' hpid hs hr => ?_
  dsimp only at hr
  split at hr
  · cases hr
  · split at hr
    · cases hr
    · obtain ⟨rfl, rfl⟩ := by simpa only [Option.some.injEq, Prod.mk.injEq] using hr
      obtain ⟨hhold, hw⟩ := hs
      have hst := hhold.started
      have htask := hhold.task
      have hfill : (replacement { T with
          inserted := T.wanted.filter fun l => !(labelsOf s T.taskId).contains l }).Filled
            (labelSet s taskId) := by
        intro l hl
        by_cases hin : l ∈ labelsOf s taskId
        · exact .inl hin
        · exact .inr (List.mem_filter.mpr ⟨hl, by simpa [htask] using hin⟩)
      obtain ⟨hact, hput⟩ := holding_put (e := e) (s := s) True True
        (T := { T with inserted := T.wanted.filter fun l => !(labelsOf s T.taskId).contains l })
        hhold.pid htask hhold.uncommitted
        ⟨hst.apart, hst.covers, hst.deleted_found, fun l hl => (List.mem_filter.mp hl).1⟩
        hhold.cleared fun _ => hfill
      exact ⟨hact, hput, hw⟩

/-- After the commit the labels are those that the transaction wants. -/
theorem labelSet_replaceLabels {T : LabelTx} {t} (h : replaceLabels T s = some t)
    (hs' : s'.db.taskLabels = t) :
    labelSet s' T.taskId = (replacement T).after (labelSet s T.taskId) := by
  ext l
  simp only [labelSet, labelsOf, Set.mem_ofPred_eq, List.mem_map, Table.mem_select, hs',
    Table.mem_insertAll h, Table.mem_delete, Replacement.after, replacement, Set.mem_union,
    Set.mem_sdiff, decide_eq_true_eq, Bool.and_eq_false_iff, decide_eq_false_iff_not,
    List.contains_eq_mem]
  constructor
  · rintro ⟨r, ⟨⟨hr, hkeep⟩ | ⟨l', hl', rfl⟩, htask⟩, rfl⟩
    · exact .inl ⟨⟨r, ⟨hr, htask⟩, rfl⟩, hkeep.resolve_left fun hne => hne htask⟩
    · exact .inr hl'
  · rintro (⟨⟨r, ⟨hr, htask⟩, rfl⟩, hkeep⟩ | hl)
    · exact ⟨r, ⟨.inl ⟨hr, .inr hkeep⟩, htask⟩, rfl⟩
    · exact ⟨⟨T.taskId, l⟩, ⟨.inr ⟨l, hl, rfl⟩, rfl⟩, rfl⟩

theorem commitLabelTx_triple {wanted : List Uuid} {T : LabelTx} {entry : TaskAuditRecord}
    (hsmall : wanted.length ≤ maxLabelsPerTask) :
    (labelContract taskId S₀).Triple i (HoldingFor taskId i wanted True True T)
      (commitLabelTx T entry) (orUncommitted i fun _ => Committed i wanted) := by
  refine Triple.atomic holdingFor_stable (stable_orUncommitted fun _ => committed_stable)
    fun s e _ hs _ ha => ?_
  obtain ⟨hhold, rfl⟩ := hs
  have hpid : e.pid = i := (not_issued_of_admissible ha.1).1
  have htx : ∀ s' T', T'.pid ≠ i → s'.db.labelTxs = s.db.labelTxs →
      (T' ∈ (endLabelTx e.pid s').db.labelTxs ↔ T' ∈ s.db.labelTxs) := by
    intro s' T' hT' heq
    rw [mem_endLabelTx, heq, hpid]
    exact ⟨And.left, fun h => ⟨h, hT'⟩⟩
  have hfail : LabelAction taskId i .commitLabels e s (endLabelTx e.pid s) ∧
      Uncommitted i (endLabelTx e.pid s) :=
    ⟨.own rfl rfl fun T' hT' => htx s T' hT' rfl, hhold.uncommitted⟩
  dsimp only
  split
  · exact hfail
  · exact hfail
  · exact hfail
  · rename_i fault taskLabels taskAudit hrep hentry hne
    have hfault : e.fault ≠ .failed := fun hf => hne hf
    have hnone : e.fault = .none := by
      cases hf : e.fault with
      | none => rfl
      | failed => exact absurd hf hfault
      | lost => exact absurd hf (ha.2.2.1 rfl)
    -- The serialization check: the task's labels are still those the transaction started from.
    have hsame := ha.2.1 rfl hfault T hhold.mem hhold.pid
    refine ⟨.commit T.wanted ?_ (fun T' hT' => Set.ext fun l =>
      ⟨(hsame T' hT').1 l, (hsame T' hT').2 l⟩) hsmall ?_
      fun T' hT' => htx _ T' hT' rfl, ?_⟩
    · have hafter : ∀ s' : AppState, s'.db.taskLabels = taskLabels →
          labelSet s' T.taskId = (replacement T).after (labelSet s T.taskId) :=
        fun s' hs' => labelSet_replaceLabels hrep hs'
      rw [hhold.task] at hafter
      exact (hafter _ rfl).trans (Replacement.after_eq hhold.started (hhold.cleared trivial)
        (hhold.filled trivial))
    · rw [← hpid, ← hhold.task]
      rfl
    · rw [hnone]
      refine ⟨⟨_, List.mem_cons_self, hpid⟩, fun x hx hi => ?_⟩
      rcases List.mem_cons.mp hx with rfl | hx
      · rfl
      · exact absurd hi (hhold.uncommitted x hx)

/-! ### A whole request -/

/-- Sequencing where an error means that nothing has been committed. -/
theorem seq_orUncommitted {A B : Type} {p : Service A} {f : A → Service B} {P : AppState → Prop}
    {Q : A → AppState → Prop} {R : B → AppState → Prop}
    (h : (labelContract taskId S₀).Triple i P p (orUncommitted i Q))
    (hf : ∀ a, (labelContract taskId S₀).Triple i (Q a) (f a) (orUncommitted i R)) :
    (labelContract taskId S₀).Triple i P (p.bind f) (orUncommitted i R) :=
  Triple.bind h hf fun _ _ _ h => h

theorem select_uncommitted {A : Type} {run : Env → AppState → A} :
    (labelContract taskId S₀).Triple i (Uncommitted i) (select run)
      (orUncommitted i fun _ => Uncommitted i) :=
  (select_stay labelContract_patient uncommitted_stable).post fun r _ _ h => by
    cases r <;> exact h

/-- A statement that cannot fail and changes nothing but the identifiers generated. -/
theorem quiet_holding {A : Type} {wanted : List Uuid} {T : LabelTx}
    {run : Env → AppState → Except AppError A × AppState} (hok : ∀ e s, ∃ a, (run e s).1 = .ok a)
    (hdb : ∀ e s, (run e s).2.db = s.db)
    (hrep : ∀ e s, (run e s).2.history.replaced = s.history.replaced) :
    (labelContract taskId S₀).Triple i (HoldingFor taskId i wanted True True T)
      (Prog.atomic .quiet (fun _ => true) run)
      (orUncommitted i fun _ => HoldingFor taskId i wanted True True T) := by
  refine Triple.atomic holdingFor_stable (stable_orUncommitted fun _ => holdingFor_stable)
    fun s e _ hs _ _ => ⟨.own (by rw [hdb]) (hrep e s) fun _ _ => by rw [hdb], ?_⟩
  obtain ⟨a, ha⟩ := hok e s
  rw [ha]
  have hset : labelSet (run e s).2 taskId = labelSet s taskId :=
    labelSet_of_rows (by rw [hdb])
  obtain ⟨hhold, hw⟩ := hs
  refine ⟨⟨hhold.pid, hhold.task, by rw [hdb]; exact hhold.mem, by rw [hdb]; exact hhold.only,
    fun x hx => hhold.uncommitted x (hrep e s ▸ hx), ?_, ?_, ?_⟩, hw⟩
  · rw [hset]
    exact hhold.started
  · rw [hset]
    exact hhold.cleared
  · rw [hset]
    exact hhold.filled

theorem setTaskLabels_triple {app : App} {tenantId actorId : Uuid} {wanted : List Uuid}
    (hsmall : wanted.length ≤ maxLabelsPerTask) :
    (labelContract taskId S₀).Triple i (Uncommitted i)
      (Db.setTaskLabels app tenantId taskId actorId wanted)
      (orUncommitted i fun _ => Committed i wanted) := by
  refine seq_orUncommitted select_uncommitted fun labels => ?_
  refine .ite (fun _ => Triple.done uncommitted_stable fun _ _ hs => hs) fun _ => ?_
  refine seq_orUncommitted findLabelsToDelete_triple fun T₁ => ?_
  refine seq_orUncommitted deleteFoundLabels_triple fun T₂ => ?_
  refine seq_orUncommitted insertMissingLabels_triple fun T => ?_
  refine seq_orUncommitted (quiet_holding (fun e _ => ⟨e.uuid, rfl⟩) (fun _ _ => rfl)
    fun _ _ => rfl) fun auditId => ?_
  refine seq_orUncommitted (quiet_holding (fun e _ => ⟨e.now, rfl⟩) (fun _ _ => rfl)
    fun _ _ => rfl) fun now => ?_
  refine seq_orUncommitted (Q := fun _ => HoldingFor taskId i wanted True True T) ?_ fun _ => ?_
  · refine inLabelTx_triple holdingFor_stable (fun _ => holdingFor_stable)
      (fun _ h => h.1.uncommitted) fun e s u s' _ hs hr => ?_
    obtain ⟨_, -, hr⟩ := Option.map_eq_some_iff.mp hr
    obtain ⟨-, rfl⟩ := by simpa only [Prod.mk.injEq] using hr
    exact ⟨.own rfl rfl fun _ _ => Iff.rfl, hs⟩
  · refine seq_orUncommitted (commitLabelTx_triple hsmall) fun _ => ?_
    exact Triple.done committed_stable fun _ _ hs => hs

theorem bump_committed {tenantId : Uuid} {wanted : List Uuid} :
    (labelContract taskId S₀).Triple i (Committed i wanted)
      (Cache.bumpTenantCacheVersion tenantId .afterCommit)
      (orUncommitted i fun _ => Committed i wanted) := by
  refine Triple.atomic committed_stable (stable_orUncommitted fun _ => committed_stable)
    fun s e _ hs _ ha => ?_
  have hnone : e.fault = .none := ha.2.2.2 rfl
  rw [hnone]
  exact ⟨.own rfl rfl fun _ _ => Iff.rfl, hs.exists_entry, hs.eq_wanted⟩

/-- The labels of a request, sorted and without repetitions. -/
theorem validateTaskLabelIds_ok {labelIds wanted : List Uuid}
    (h : validateTaskLabelIds labelIds = .ok wanted) :
    wanted.length ≤ maxLabelsPerTask ∧ ∀ l, l ∈ wanted ↔ l ∈ labelIds := by
  unfold validateTaskLabelIds at h
  split at h
  · cases h
  · rename_i hle
    cases h
    refine ⟨?_, fun l => by rw [List.mem_dedup, List.mem_insertionSort]⟩
    calc (labelIds.insertionSort (· ≤ ·)).dedup.length
        ≤ (labelIds.insertionSort (· ≤ ·)).length := (List.dedup_sublist _).length_le
      _ = labelIds.length := List.length_insertionSort _ _
      _ ≤ maxLabelsPerTask := Nat.not_lt.mp hle

/-- A request that returns `Ok` has committed one replacement, by the labels it asks for, and one
that returns an error has committed none. -/
def RequestPost (i : Nat) (k : LabelRequest) : Except AppError (List LabelRecord) → AppState → Prop :=
  orUncommitted i fun _ s => ∃ wanted, (∀ l, l ∈ wanted ↔ l ∈ k.labelIds) ∧ Committed i wanted s

theorem request_triple {app : App} (k : LabelRequest) : (labelContract taskId S₀).Triple i
    (Uncommitted i) ((labelSystem app taskId).body k) (RequestPost i k) := by
  simp only [labelSystem, Labels.setTaskLabels]
  refine seq_orUncommitted
    (Q := fun wanted s => validateTaskLabelIds k.labelIds = .ok wanted ∧ Uncommitted i s) ?_
    fun wanted => Triple.of_fact fun hv => ?_
  · refine Triple.done uncommitted_stable fun s _ hs => ?_
    cases hv : validateTaskLabelIds k.labelIds with
    | ok wanted => exact ⟨rfl, hs⟩
    | error x => exact hs
  · obtain ⟨hsmall, hmem⟩ := validateTaskLabelIds_ok hv
    refine seq_orUncommitted (Q := fun _ => Uncommitted i) ?_ fun _ => ?_
    · refine seq_orUncommitted select_uncommitted fun task => ?_
      cases task with
      | none => exact Triple.done uncommitted_stable fun _ _ hs => hs
      | some task => exact Triple.done uncommitted_stable fun _ _ hs => hs
    · refine seq_orUncommitted (setTaskLabels_triple hsmall) fun labels => ?_
      refine seq_orUncommitted bump_committed fun _ => ?_
      exact Triple.done committed_stable fun _ _ hs => ⟨wanted, hmem, hs⟩

/-! ### Runs -/

theorem labelsOf_nodup (s : AppState) (taskId : Uuid) : (labelsOf s taskId).Nodup := by
  have hkeys : ((s.db.taskLabels.select fun r => r.taskId = taskId).map
      fun r => (r.taskId, r.labelId)).Nodup :=
    s.db.taskLabels.nodup.sublist (List.filter_sublist.map _)
  refine hkeys.of_map.map_on fun r hr r' hr' hl => ?_
  have htask : r.taskId = r'.taskId := by
    have := (Table.mem_select.mp hr).2
    have := (Table.mem_select.mp hr').2
    simp_all
  exact List.inj_on_of_nodup_map hkeys hr hr' (Prod.ext htask hl)

theorem length_labelsOf_le {wanted : List Uuid} (h : labelSet s taskId = {l | l ∈ wanted}) :
    (labelsOf s taskId).length ≤ wanted.length :=
  (List.subperm_of_subset (labelsOf_nodup s taskId) fun l hl =>
    (h ▸ hl : l ∈ ({l | l ∈ wanted} : Set Uuid))).length_le

/-- The history of a run starts here, with no transaction open. -/
structure LabelStart (taskId : Uuid) (s : AppState) : Prop where
  replaced : s.history.replaced = []
  small : (labelsOf s taskId).length ≤ maxLabelsPerTask

abbrev LabelConfig := Config Event Env AppState AppError LabelRequest (List LabelRecord)

/-- No request is running. -/
def AllDone (c : LabelConfig) : Prop := ∀ x ∈ c.calls, x.2.ended = true

instance (c : LabelConfig) : Decidable (AllDone c) := List.decidableBAll _ _

/-- Request number `i` was `k` and has returned `Ok`. -/
def Succeeded (c : LabelConfig) (i : Nat) (k : LabelRequest) : Prop :=
  ∃ labels, c.calls[i]? = some (k, Prog.done (.ok labels))

theorem labelSystem_keeps {app : App} (hs : LabelStart taskId s) {ms : List (Move Env LabelRequest)}
    {c : LabelConfig} (h : (labelSystem app taskId).exec (.start s) ms = some c)
    (hcond : (labelSystem app taskId).Along
      (fun d m => d.Meets (fun i l e s => SameWanted i l e s ∧ CommitReported i l e s) m)
      (.start s) ms) :
    KeepsFrom (labelContract taskId (labelSet s taskId)) Uncommitted RequestPost c := by
  refine soundFrom (fun _ => uncommitted_stable) (fun _ k => request_triple k)
    (fun _ _ _ _ ha hc => ⟨ha, hc⟩) ⟨?_, fun x hx => ?_⟩ (fun _ x hx => ?_) hcond h
  · rw [hs.replaced]
    rfl
  · simp [hs.replaced] at hx
  · simp [hs.replaced] at hx

end TaskLabels

open TaskLabels

/-- In every run in which a replacement commits only when every other open one asks for the same
labels, and each commit is reported, the task has the labels that a successful request has asked
for, or those it had when none has been successful, whenever no request is running. -/
theorem label_replacement_atomic {app : App} {taskId : Uuid} {s : AppState}
    {ms : List (Move Env LabelRequest)} {c : LabelConfig} (hs : LabelStart taskId s)
    (h : (labelSystem app taskId).exec (.start s) ms = some c)
    (hcond : (labelSystem app taskId).Along
      (fun d m => d.Meets (fun i l e s => SameWanted i l e s ∧ CommitReported i l e s) m)
      (.start s) ms) (hdone : AllDone c) :
    (labelsOf c.st taskId).length ≤ maxLabelsPerTask ∧
      ((∃ i k, Succeeded c i k ∧ ∀ l, l ∈ labelsOf c.st taskId ↔ l ∈ k.labelIds) ∨
        (∀ i k, ¬ Succeeded c i k) ∧ ∀ l, l ∈ labelsOf c.st taskId ↔ l ∈ labelsOf s taskId) := by
  have hc := labelSystem_keeps hs h hcond
  have hinv : LabelInv taskId (labelSet s taskId) c.st := hc.1.1
  have hcur := hinv.current
  cases hrep : c.st.history.replaced with
  | nil =>
      rw [hrep] at hcur
      refine ⟨Nat.le_trans (length_labelsOf_le hcur) hs.small, .inr ⟨?_, fun l => ?_⟩⟩
      · rintro i k ⟨labels, hi⟩
        obtain ⟨wanted, -, hcom⟩ := hc.1.result hi
        obtain ⟨x, hx, -⟩ := hcom.exists_entry
        simp [hrep] at hx
      · exact (Set.ext_iff.mp hcur) l
  | cons x rest =>
      obtain ⟨i, t, wanted⟩ := x
      have hx : (i, t, wanted) ∈ c.st.history.replaced := hrep ▸ List.mem_cons_self
      rw [hrep] at hcur
      refine ⟨Nat.le_trans (length_labelsOf_le hcur) (hinv.small _ hx), .inl ?_⟩
      -- The newest replacement is that of a request, which has returned.
      have hlt : i < c.calls.length := by
        by_contra hge
        exact hc.2 i (Nat.not_lt.mp hge) _ hx rfl
      obtain ⟨⟨k, p⟩, hi⟩ : ∃ kp, c.calls[i]? = some kp := ⟨_, List.getElem?_eq_getElem hlt⟩
      obtain ⟨r, rfl⟩ := Prog.eq_done_of_ended (hdone _ (List.mem_of_getElem? hi))
      have hpost := hc.1.result hi
      cases r with
      | error x => exact absurd rfl (hpost _ hx)
      | ok labels =>
          obtain ⟨wanted', hmem, hcom⟩ := hpost
          refine ⟨i, k, ⟨labels, hi⟩, fun l => ?_⟩
          rw [← hmem, ← hcom.eq_wanted _ hx rfl]
          exact (Set.ext_iff.mp hcur) l

/-! ### Two requests at the same time -/

/-- A task without labels, of a tenant with two. -/
def unlabelled : AppState :=
  let label : Uuid → LabelRecord := fun id =>
    { id, tenantId := 1, name := toString id, color := none, createdBy := 2, updatedBy := 2,
      createdAt := 0, updatedAt := 0 }
  { (default : AppState) with
    db.tasks := ⟨[{ id := 3, tenantId := 1, projectId := none, title := "task",
                    description := none, status := .open, priority := .medium,
                    assigneeId := none, dueAt := none, createdBy := 2, updatedBy := 2,
                    createdAt := 0, updatedAt := 0 }], by decide⟩
    db.labels := ⟨[label 4, label 5], by decide⟩ }

theorem unlabelled_start : LabelStart 3 unlabelled := ⟨rfl, by decide⟩

/-- A statement of a request. -/
def labelMove (i uuid : Nat) : Move Env LabelRequest :=
  .exec i { (default : Env) with pid := i, uuid }

/-- One request for label 4, from its start to its end. -/
def oneReplacement : List (Move Env LabelRequest) :=
  .call ⟨1, 2, [4]⟩ :: (List.range 10).map fun n => labelMove 0 (10 + n)

/-- The labels after that request. -/
theorem label_replacement_atomic_one :
    ∃ c, (labelSystem default 3).exec (.start unlabelled) oneReplacement = some c ∧
      (labelsOf c.st 3).length ≤ maxLabelsPerTask ∧
      ((∃ i k, Succeeded c i k ∧ ∀ l, l ∈ labelsOf c.st 3 ↔ l ∈ k.labelIds) ∨
        (∀ i k, ¬ Succeeded c i k) ∧ ∀ l, l ∈ labelsOf c.st 3 ↔ l ∈ labelsOf unlabelled 3) := by
  have h : ((labelSystem default 3).exec (.start unlabelled) oneReplacement).any
      (fun c => AllDone c) := by decide
  obtain ⟨c, hc, hdone⟩ := (Option.any_eq_true _ _).mp h
  exact ⟨c, hc, label_replacement_atomic unlabelled_start hc (by decide)
    (of_decide_eq_true hdone)⟩

/-- Two requests, for label 4 and for label 5, take turns. -/
def turns : List (Move Env LabelRequest) :=
  [.call ⟨1, 2, [4]⟩, .call ⟨1, 2, [5]⟩] ++
    (List.range 10).flatMap fun n => [labelMove 0 (10 + 2 * n), labelMove 1 (11 + 2 * n)]

/-- The task has the labels of both requests. -/
theorem overlapping_replacements : LabelStart 3 unlabelled ∧
    ∃ c, (labelSystem default 3).exec (.start unlabelled) turns = some c ∧ AllDone c ∧
      (∀ x ∈ c.calls, x.1.labelIds = [4] ∨ x.1.labelIds = [5]) ∧ labelsOf c.st 3 = [4, 5] := by
  have h : ((labelSystem default 3).exec (.start unlabelled) turns).any (fun c =>
      AllDone c ∧ (∀ x ∈ c.calls, x.1.labelIds = [4] ∨ x.1.labelIds = [5]) ∧
        labelsOf c.st 3 = [4, 5]) := by decide
  obtain ⟨c, hc, hend⟩ := (Option.any_eq_true _ _).mp h
  exact ⟨unlabelled_start, c, hc, of_decide_eq_true hend⟩

end Fluxa
