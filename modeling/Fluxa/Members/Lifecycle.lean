import Fluxa.Interleave.Named
import Fluxa.Members.Authority

/-!
# Members — the lifecycle of invitations

Any number of requests invite members, accept and revoke invitations, change roles and remove members, side by side.  An acceptance is a transaction of several statements; the locks on its invitation and on the key of its membership serialise it with the others.

* **`invitation_lifecycle`**: in every run, no invitation is both accepted and revoked, or ceases to be either; an acceptance does nothing, or turns one pending invitation of its user, not expired by its clock, into the one membership that it yields, with its role, which is not owner; and when it returns an error it has done nothing.
-/

namespace Fluxa
open Interleave Relational Db Contract

namespace Lifecycle
open Authority

/-! ### What is to hold -/

/-- No invitation is both accepted and revoked. -/
def Exclusive (s : AppState) : Prop :=
  ∀ v ∈ s.db.invitations, v.acceptedAt = none ∨ v.revokedAt = none

/-- No invitation is one to the owner role. -/
def NeverOwner (s : AppState) : Prop := ∀ v ∈ s.db.invitations, v.role ≠ .owner

/-- No invitation has yielded two memberships. -/
def JoinedOnce (s : AppState) : Prop := (s.history.joined.map (·.2.1)).Nodup

/-- Every invitation is still there, and accepted or revoked as it was, if it was. -/
def Lasts (s s' : AppState) : Prop :=
  ∀ v ∈ s.db.invitations, ∃ v' ∈ s'.db.invitations, v'.id = v.id ∧ v'.tenantId = v.tenantId ∧
    v'.email = v.email ∧ v'.role = v.role ∧ v'.expiresAt = v.expiresAt ∧
    (v.acceptedAt.isSome → v' = v) ∧ (v.revokedAt.isSome → v' = v)

/-- Request `i` turns the invitation into a membership of the user, having read the time `now`. -/
structure Joins (i : Nat) (userId : Uuid) (v : InvitationRecord) (now : Time) (s s' : AppState) :
    Prop where
  mem : v ∈ s.db.invitations
  notAccepted : v.acceptedAt = none
  notRevoked : v.revokedAt = none
  clock : (i, now) ∈ s.history.acceptClocks
  notExpired : now < v.expiresAt
  addressee : ∃ u ∈ s.db.users, u.id = userId ∧
    toAsciiLowercase v.email = toAsciiLowercase u.email
  notOwner : v.role ≠ .owner
  inserted : s.db.memberships.insert ⟨v.tenantId, userId, v.role, now⟩ = some s'.db.memberships
  kept : ∀ m ∈ s.db.memberships, m ∈ s'.db.memberships
  accepted : s'.db.invitations = s.db.invitations.update (fun w => w.id = v.id)
    fun w => { w with acceptedAt := some now }
  noted : s'.history.joined =
    (i, v.id, ⟨v.tenantId, userId, v.role, now⟩) :: s.history.joined

/-- The memberships and the invitations are what they were. -/
structure Untouched (s s' : AppState) : Prop where
  memberships : s'.db.memberships = s.db.memberships
  invitations : s'.db.invitations = s.db.invitations
  joined : s'.history.joined = s.history.joined

/-- What a statement of request `i` does, if the request is `k`: an acceptance does nothing, or turns
an invitation into a membership; no other request does that. -/
def Joining (i : Nat) (k : MemberRequest) (s s' : AppState) : Prop :=
  match k.route with
  | .acceptInvitation _ _ => Untouched s s' ∨ ∃ v now, Joins i k.userId v now s s'
  | _ => s'.history.joined = s.history.joined

/-- Request `i` has turned no invitation into a membership. -/
def NotJoined (i : Nat) (s : AppState) : Prop := ∀ x ∈ s.history.joined, x.1 ≠ i

/-- `idx_tenant_invitations_pending_unique`: no address has two pending invitations to a tenant. -/
def PendingOnce (s : AppState) : Prop :=
  ∀ v ∈ s.db.invitations, ∀ w ∈ s.db.invitations, isPendingInvitation v = true →
    isPendingInvitation w = true → v.tenantId = w.tenantId → v.email = w.email → v = w

/-- Before a run: nobody is accepting an invitation. -/
structure Start (s : AppState) : Prop where
  exclusive : Exclusive s
  neverOwner : NeverOwner s
  pendingOnce : PendingOnce s
  closed : s.db.acceptTxs = []
  unjoined : s.history.joined = []

/-! ### The locks -/

/-- What the open acceptances have locked. -/
structure Locks (s : AppState) : Prop where
  row : ∀ T ∈ s.db.acceptTxs, T.invitation ∈ s.db.invitations
  pending : ∀ T ∈ s.db.acceptTxs, isPendingInvitation T.invitation = true
  apart : ∀ T ∈ s.db.acceptTxs, ∀ T' ∈ s.db.acceptTxs, T.pid ≠ T'.pid →
    T.invitation.id ≠ T'.invitation.id
  free : ∀ T ∈ s.db.acceptTxs, ∀ m, T.membership = some m →
    s.db.memberships.find? (m.tenantId, m.userId) = none
  alone : ∀ T ∈ s.db.acceptTxs, ∀ T' ∈ s.db.acceptTxs, T.pid ≠ T'.pid →
    ∀ m m', T.membership = some m → T'.membership = some m' →
      (m.tenantId, m.userId) ≠ (m'.tenantId, m'.userId)

/-- The invariant. -/
structure Invariant (s : AppState) : Prop where
  exclusive : Exclusive s
  neverOwner : NeverOwner s
  pendingOnce : PendingOnce s
  once : JoinedOnce s
  accepted : ∀ x ∈ s.history.joined, ∃ v ∈ s.db.invitations, v.id = x.2.1 ∧ v.acceptedAt.isSome
  locks : Locks s

theorem Start.invariant {s : AppState} (h : Start s) : Invariant s where
  exclusive := h.exclusive
  neverOwner := h.neverOwner
  pendingOnce := h.pendingOnce
  once := by rw [JoinedOnce, h.unjoined]; exact List.nodup_nil
  accepted := by rw [h.unjoined]; exact fun _ hx => absurd hx List.not_mem_nil
  locks := by constructor <;> simp [h.closed]

/-- Where the invitations that are locked are still there, and no place that is locked has been
taken, the locks of the transactions that are still open hold. -/
theorem Locks.mono {s s' : AppState} (h : Locks s)
    (htxs : ∀ T ∈ s'.db.acceptTxs, T ∈ s.db.acceptTxs)
    (hrow : ∀ T ∈ s'.db.acceptTxs, T.invitation ∈ s.db.invitations →
      isPendingInvitation T.invitation = true → T.invitation ∈ s'.db.invitations)
    (hfree : ∀ T ∈ s'.db.acceptTxs, ∀ m, T.membership = some m →
      s.db.memberships.find? (m.tenantId, m.userId) = none →
      s'.db.memberships.find? (m.tenantId, m.userId) = none) : Locks s' where
  row T hT := hrow T hT (h.row T (htxs T hT)) (h.pending T (htxs T hT))
  pending T hT := h.pending T (htxs T hT)
  apart T hT T' hT' := h.apart T (htxs T hT) T' (htxs T' hT')
  free T hT m hm := hfree T hT m hm (h.free T (htxs T hT) m hm)
  alone T hT T' hT' := h.alone T (htxs T hT) T' (htxs T' hT')

theorem mem_endAcceptTx {i : Nat} {s : AppState} {T : AcceptTx} :
    T ∈ (endAcceptTx i s).db.acceptTxs ↔ T ∈ s.db.acceptTxs ∧ T.pid ≠ i := by
  simp [endAcceptTx]

theorem mem_putAcceptTx {s : AppState} {T T' : AcceptTx} :
    T' ∈ (putAcceptTx T s).db.acceptTxs ↔ T' = T ∨ T' ∈ s.db.acceptTxs ∧ T'.pid ≠ T.pid := by
  simp [putAcceptTx]

/-- A transaction that has locked what is free is put in the place of what its call had open. -/
theorem Locks.put {s : AppState} {T : AcceptTx} (h : Locks s)
    (hrow : T.invitation ∈ s.db.invitations) (hpending : isPendingInvitation T.invitation = true)
    (hapart : ∀ T' ∈ s.db.acceptTxs, T'.pid ≠ T.pid → T'.invitation.id ≠ T.invitation.id)
    (hfree : ∀ m, T.membership = some m → s.db.memberships.find? (m.tenantId, m.userId) = none)
    (halone : ∀ T' ∈ s.db.acceptTxs, T'.pid ≠ T.pid → ∀ m m', T'.membership = some m →
      T.membership = some m' → (m.tenantId, m.userId) ≠ (m'.tenantId, m'.userId)) :
    Locks (putAcceptTx T s) where
  row T' hT' := by
    rcases mem_putAcceptTx.mp hT' with rfl | ⟨hT', -⟩
    · exact hrow
    · exact h.row T' hT'
  pending T' hT' := by
    rcases mem_putAcceptTx.mp hT' with rfl | ⟨hT', -⟩
    · exact hpending
    · exact h.pending T' hT'
  apart T₁ h₁ T₂ h₂ hne := by
    rcases mem_putAcceptTx.mp h₁ with rfl | ⟨hold₁, -⟩
    · rcases mem_putAcceptTx.mp h₂ with rfl | ⟨hold₂, hne₂⟩
      · exact absurd rfl hne
      · exact (hapart T₂ hold₂ hne₂).symm
    · rcases mem_putAcceptTx.mp h₂ with rfl | ⟨hold₂, -⟩
      · exact hapart T₁ hold₁ hne
      · exact h.apart T₁ hold₁ T₂ hold₂ hne
  free T' hT' := by
    rcases mem_putAcceptTx.mp hT' with rfl | ⟨hT', -⟩
    · exact hfree
    · exact h.free T' hT'
  alone T₁ h₁ T₂ h₂ hne m₁ m₂ hm₁ hm₂ := by
    rcases mem_putAcceptTx.mp h₁ with rfl | ⟨hold₁, -⟩
    · rcases mem_putAcceptTx.mp h₂ with rfl | ⟨hold₂, hne₂⟩
      · exact absurd rfl hne
      · exact (halone T₂ hold₂ hne₂ m₂ m₁ hm₂ hm₁).symm
    · rcases mem_putAcceptTx.mp h₂ with rfl | ⟨hold₂, -⟩
      · exact halone T₁ hold₁ hne m₁ m₂ hm₁ hm₂
      · exact h.alone T₁ hold₁ T₂ hold₂ hne m₁ m₂ hm₁ hm₂

/-! ### What a statement does -/

variable {name : Nat → Option MemberRequest} {i : Nat} {s s' : AppState} {k : MemberRequest}
  {tenantId userId : Uuid}

/-- What a statement of request `i` does, where the requests are those of `name`. -/
structure Step (name : Nat → Option MemberRequest) (i : Nat) (s s' : AppState) : Prop where
  lasts : Lasts s s'
  joining : ∀ k, name i = some k → Joining i k s s'
  mine : ∀ x ∈ s'.history.joined, x ∈ s.history.joined ∨ x.1 = i
  theirs : ∀ T ∈ s.db.acceptTxs, T.pid ≠ i → T ∈ s'.db.acceptTxs
  users : s'.db.users = s.db.users
  clocks : ∀ x ∈ s.history.acceptClocks, x ∈ s'.history.acceptClocks
  invariant : Invariant s'

/-- The request accepts no invitation. -/
def Apart (k : MemberRequest) : Prop := ∀ tenantId token, k.route ≠ .acceptInvitation tenantId token

theorem Joining.of_apart (hk : Apart k) (h : s'.history.joined = s.history.joined) :
    Joining i k s s' := by
  unfold Joining
  split
  · exact absurd ‹_› (hk _ _)
  · exact h

theorem Joining.of_untouched (h : Untouched s s') : Joining i k s s' := by
  unfold Joining
  split
  · exact .inl h
  · exact h.joined

theorem Lasts.of_eq (h : s'.db.invitations = s.db.invitations) : Lasts s s' :=
  fun v hv => ⟨v, h ▸ hv, rfl, rfl, rfl, rfl, rfl, fun _ => rfl, fun _ => rfl⟩

/-- Only pending invitations change, in what is no part of them. -/
theorem Lasts.of_update {p : InvitationRecord → Bool} {f : InvitationRecord → InvitationRecord}
    (hf : Table.KeepsKey InvitationRecord.id f)
    (h : s'.db.invitations = s.db.invitations.update p f hf)
    (hp : ∀ v ∈ s.db.invitations, p v = true → isPendingInvitation v = true)
    (hsame : ∀ v, (f v).tenantId = v.tenantId ∧ (f v).email = v.email ∧ (f v).role = v.role ∧
      (f v).expiresAt = v.expiresAt) : Lasts s s' := by
  intro v hv
  cases hpv : p v with
  | false => exact ⟨v, h ▸ Table.mem_update_of_false hv hpv hf, rfl, rfl, rfl, rfl, rfl,
      fun _ => rfl, fun _ => rfl⟩
  | true =>
      have hpending := hp v hv hpv
      simp only [isPendingInvitation, Bool.and_eq_true, Option.isNone_iff_eq_none] at hpending
      obtain ⟨ht, he, hr, hx⟩ := hsame v
      refine ⟨f v, h ▸ Table.mem_update_of_true hv hpv hf, hf.key_eq v, ht, he, hr, hx, ?_, ?_⟩
      · simp [hpending.1]
      · simp [hpending.2]

theorem Untouched.refl (s : AppState) : Untouched s s := ⟨rfl, rfl, rfl⟩

theorem Invariant.of_untouched (h : Invariant s) (hu : Untouched s s') (hl : Locks s') :
    Invariant s' where
  exclusive := by rw [Exclusive, hu.invitations]; exact h.exclusive
  neverOwner := by rw [NeverOwner, hu.invitations]; exact h.neverOwner
  pendingOnce := by rw [PendingOnce, hu.invitations]; exact h.pendingOnce
  once := by rw [JoinedOnce, hu.joined]; exact h.once
  accepted := by rw [hu.joined, hu.invitations]; exact h.accepted
  locks := hl

/-- A statement that at most locks something, or gives it free. -/
theorem Step.of_locks (hi : Invariant s) (hu : Untouched s s') (hl : Locks s')
    (htheirs : ∀ T ∈ s.db.acceptTxs, T.pid ≠ i → T ∈ s'.db.acceptTxs)
    (husers : s'.db.users = s.db.users)
    (hclocks : ∀ x ∈ s.history.acceptClocks, x ∈ s'.history.acceptClocks) : Step name i s s' where
  lasts := .of_eq hu.invitations
  joining _ _ := .of_untouched hu
  mine _ hx := .inl (hu.joined ▸ hx)
  theirs := htheirs
  users := husers
  clocks := hclocks
  invariant := hi.of_untouched hu hl

/-- A statement that touches none of it. -/
theorem Step.of_eq (hi : Invariant s) (hu : Untouched s s')
    (htxs : s'.db.acceptTxs = s.db.acceptTxs) (husers : s'.db.users = s.db.users)
    (hclocks : s'.history.acceptClocks = s.history.acceptClocks) : Step name i s s' := by
  refine .of_locks hi hu (hi.locks.mono ?_ ?_ ?_) ?_ husers fun x hx => hclocks ▸ hx
  · exact fun T hT => htxs ▸ hT
  · exact fun _ _ h _ => hu.invitations ▸ h
  · exact fun _ _ _ _ h => hu.memberships ▸ h
  · exact fun T hT _ => htxs ▸ hT

/-- The call's transaction, if one is open, ends without having done anything. -/
theorem Step.endTx (hi : Invariant s) : Step name i s (endAcceptTx i s) := by
  refine .of_locks hi ⟨rfl, rfl, rfl⟩ (hi.locks.mono ?_ ?_ ?_) ?_ rfl fun _ hx => hx
  · exact fun T hT => (mem_endAcceptTx.mp hT).1
  · exact fun _ _ h _ => h
  · exact fun _ _ _ _ h => h
  · exact fun T hT hne => mem_endAcceptTx.mpr ⟨hT, hne⟩

theorem Step.putTx {T : AcceptTx} (hi : Invariant s) (hpid : T.pid = i)
    (hl : Locks (putAcceptTx T s)) : Step name i s (putAcceptTx T s) := by
  refine .of_locks hi ⟨rfl, rfl, rfl⟩ hl ?_ rfl fun _ hx => hx
  exact fun T' hT' hne => mem_putAcceptTx.mpr (.inr ⟨hT', hpid ▸ hne⟩)

/-- Rows that are pending after an update are rows that were pending, and were left alone. -/
theorem PendingOnce.update {p : InvitationRecord → Bool} {f : InvitationRecord → InvitationRecord}
    (h : PendingOnce s) (hf : Table.KeepsKey InvitationRecord.id f)
    (heq : s'.db.invitations = s.db.invitations.update p f hf)
    (hdone : ∀ v, isPendingInvitation (f v) = false) : PendingOnce s' := by
  have hold : ∀ w ∈ s'.db.invitations, isPendingInvitation w = true → w ∈ s.db.invitations := by
    intro w hw hp
    rw [heq, Table.mem_update] at hw
    obtain ⟨v, hv, rfl⟩ := hw
    split at hp
    · rw [hdone v] at hp
      cases hp
    · rename_i hno
      rw [if_neg hno]
      exact hv
  exact fun v hv w hw hpv hpw => h v (hold v hv hpv) w (hold w hw hpw) hpv hpw

/-- A new invitation is pending, and no other is for its address. -/
theorem Step.invite {v : InvitationRecord} (hi : Invariant s)
    (hname : ∀ k, name i = some k → Apart k) (htaken : invitationTaken s v = false)
    (hins : s.db.invitations.insert v = some s'.db.invitations) (hv : v.acceptedAt = none)
    (hrole : v.role ≠ .owner) (hm : s'.db.memberships = s.db.memberships)
    (hj : s'.history.joined = s.history.joined) (htxs : s'.db.acceptTxs = s.db.acceptTxs)
    (husers : s'.db.users = s.db.users)
    (hclocks : s'.history.acceptClocks = s.history.acceptClocks) : Step name i s s' where
  lasts w hw := ⟨w, ((Table.insert_eq_some hins).2 w).mpr (.inl hw), rfl, rfl, rfl, rfl, rfl,
    fun _ => rfl, fun _ => rfl⟩
  joining k hk := .of_apart (hname k hk) hj
  mine x hx := .inl (hj ▸ hx)
  theirs T hT _ := htxs ▸ hT
  users := husers
  clocks x hx := hclocks ▸ hx
  invariant := by
    have hmem := (Table.insert_eq_some hins).2
    -- The unique index on pending invitations has let the row in.
    have hnone : ∀ w ∈ s.db.invitations, isPendingInvitation w = true → w.tenantId = v.tenantId →
        w.email ≠ v.email := by
      intro w hw hp ht he
      have hany : invitationTaken s v = true := by
        refine Table.any_eq_true.mpr ⟨w, hw, ?_⟩
        simp only [isPendingInvitation, Bool.and_eq_true] at hp
        simp [conflictsWith, ht, he, hp]
      rw [htaken] at hany
      cases hany
    refine ⟨fun w hw => ?_, fun w hw => ?_, fun w hw x hx hpw hpx ht he => ?_, ?_, fun x hx => ?_,
      hi.locks.mono ?_ ?_ ?_⟩
    · rcases (hmem w).mp hw with hw | rfl
      · exact hi.exclusive w hw
      · exact .inl hv
    · rcases (hmem w).mp hw with hw | rfl
      · exact hi.neverOwner w hw
      · exact hrole
    · rcases (hmem w).mp hw with hw | rfl
      · rcases (hmem x).mp hx with hx | rfl
        · exact hi.pendingOnce w hw x hx hpw hpx ht he
        · exact absurd he (hnone w hw hpw ht)
      · rcases (hmem x).mp hx with hx | rfl
        · exact absurd he.symm (hnone x hx hpx ht.symm)
        · rfl
    · rw [JoinedOnce, hj]
      exact hi.once
    · obtain ⟨w, hw, hx⟩ := hi.accepted x (hj ▸ hx)
      exact ⟨w, (hmem w).mpr (.inl hw), hx⟩
    · exact fun T hT => htxs ▸ hT
    · exact fun T _ h _ => (hmem _).mpr (.inl h)
    · exact fun _ _ _ _ h => hm ▸ h

/-- A revocation finds no invitation that is being accepted. -/
theorem Step.revoke {invitationId : Uuid} {now : Time} (hi : Invariant s)
    (hname : ∀ k, name i = some k → Apart k)
    (hfree : invitationLocked (isRevocable tenantId invitationId) s = false) :
    Step name i s { s with
      db.invitations := s.db.invitations.update (isRevocable tenantId invitationId)
        fun i => { i with revokedAt := some now } } where
  lasts := by
    refine .of_update (f := fun i => { i with revokedAt := some now }) ⟨fun _ => rfl⟩ rfl
      (fun v _ hv => ?_) fun v => ⟨rfl, rfl, rfl, rfl⟩
    simp only [isRevocable, Bool.and_eq_true] at hv
    exact hv.2
  joining k hk := .of_apart (hname k hk) rfl
  mine x hx := .inl hx
  theirs T hT _ := hT
  users := rfl
  clocks x hx := hx
  invariant := by
    have honce : PendingOnce { s with
        db.invitations := s.db.invitations.update (isRevocable tenantId invitationId)
          fun i => { i with revokedAt := some now } } := by
      refine hi.pendingOnce.update (f := fun i => { i with revokedAt := some now }) ⟨fun _ => rfl⟩ rfl
        fun v => ?_
      simp [isPendingInvitation]
    refine ⟨fun w hw => ?_, fun w hw => ?_, honce, hi.once, fun x hx => ?_, hi.locks.mono ?_ ?_ ?_⟩
    · rw [Table.mem_update] at hw
      obtain ⟨v, hv, rfl⟩ := hw
      split
      · rename_i hp
        simp only [isRevocable, isPendingInvitation, Bool.and_eq_true,
          Option.isNone_iff_eq_none] at hp
        exact .inl hp.2.1
      · exact hi.exclusive v hv
    · rw [Table.mem_update] at hw
      obtain ⟨v, hv, rfl⟩ := hw
      split
      · exact hi.neverOwner v hv
      · exact hi.neverOwner v hv
    -- An invitation that has been accepted is not pending, so the UPDATE passes it by.
    · obtain ⟨v, hv, hid, hacc⟩ := hi.accepted x hx
      refine ⟨v, Table.mem_update_of_false hv ?_, hid, hacc⟩
      rw [Bool.eq_false_iff]
      intro hp
      simp only [isRevocable, isPendingInvitation, Bool.and_eq_true,
        Option.isNone_iff_eq_none] at hp
      simp [hp.2.1] at hacc
    · exact fun T hT => hT
    · intro T hT h hpending
      refine Table.mem_update_of_false h ?_
      simp only [invitationLocked, List.any_eq_false] at hfree
      exact Bool.eq_false_iff.mpr (hfree T hT)
    · exact fun _ _ _ _ h => h

/-- A change of a role, or a removal, takes no place that was free. -/
theorem Step.write {role : Option MembershipRole} (hi : Invariant s)
    (hname : ∀ k, name i = some k → Apart k) : Step name i s
      { s with db.memberships := written tenantId userId role s.db.memberships } where
  lasts := .of_eq rfl
  joining k hk := .of_apart (hname k hk) rfl
  mine x hx := .inl hx
  theirs T hT _ := hT
  users := rfl
  clocks x hx := hx
  invariant := by
    refine ⟨hi.exclusive, hi.neverOwner, hi.pendingOnce, hi.once, hi.accepted, hi.locks.mono ?_ ?_ ?_⟩
    · exact fun T hT => hT
    · exact fun _ _ h _ => h
    · intro T hT m hm hnone
      cases role with
      | none => simp [written, Table.find?_delete, hnone]
      | some role => simp [written, Table.find?_update, hnone]

/-- The transaction of request `i` is ready to be committed for the user. -/
structure Ready (i : Nat) (userId : Uuid) (T : AcceptTx) (s : AppState) : Prop where
  pid : T.pid = i
  mem : T ∈ s.db.acceptTxs
  clock : (i, T.acceptedAt) ∈ s.history.acceptClocks
  notExpired : T.acceptedAt < T.invitation.expiresAt
  addressee : ∃ u ∈ s.db.users, u.id = userId ∧
    toAsciiLowercase T.invitation.email = toAsciiLowercase u.email
  membership : T.membership = some (AcceptTx.memberFor T userId)

/-- A commit turns the invitation that it has locked into a membership. -/
theorem Ready.joins {T : AcceptTx} (hT : Ready i userId T s) (hi : Invariant s)
    (h : applyAcceptance T s = some s') :
    Joins i userId T.invitation T.acceptedAt s (endAcceptTx i s') := by
  obtain ⟨m, memberships, hm, hins, -, rfl⟩ := applyAcceptance_eq_some h
  obtain rfl := Option.some.inj (hm.symm.trans hT.membership)
  have hrow := hi.locks.row T hT.mem
  have hpending := hi.locks.pending T hT.mem
  simp only [isPendingInvitation, Bool.and_eq_true, Option.isNone_iff_eq_none] at hpending
  refine ⟨hrow, hpending.1, hpending.2, hT.clock, hT.notExpired, hT.addressee,
    hi.neverOwner _ hrow, hins, fun m hm => ?_, rfl, ?_⟩
  · exact ((Table.insert_eq_some hins).2 m).mpr (.inl hm)
  · simp only [endAcceptTx, hT.pid, AcceptTx.memberFor]

/-- What is joined is what the transaction has locked, and nobody else has. -/
theorem Step.commit {T : AcceptTx} (hi : Invariant s) (hT : Ready i userId T s)
    (hname : ∀ k, name i = some k → k.userId = userId ∧ ¬ Apart k)
    (hj : Joins i userId T.invitation T.acceptedAt s s')
    (htxs : ∀ T', T' ∈ s'.db.acceptTxs ↔ T' ∈ s.db.acceptTxs ∧ T'.pid ≠ i)
    (husers : s'.db.users = s.db.users)
    (hclocks : s'.history.acceptClocks = s.history.acceptClocks) : Step name i s s' := by
  have hother : ∀ v ∈ s.db.invitations, v.id = T.invitation.id → v = T.invitation :=
    fun v hv hid => Table.eq_of_key hv hj.mem hid
  -- The row that is accepted is still pending: nobody else could end it under the lock.
  have hlasts : Lasts s s' := by
    refine .of_update (f := fun w => { w with acceptedAt := some T.acceptedAt }) ⟨fun _ => rfl⟩
      hj.accepted (fun v hv hid => ?_) fun v => ⟨rfl, rfl, rfl, rfl⟩
    rw [hother v hv (by simpa using hid)]
    exact hi.locks.pending T hT.mem
  have honce : PendingOnce s' := by
    refine hi.pendingOnce.update (f := fun w => { w with acceptedAt := some T.acceptedAt })
      ⟨fun _ => rfl⟩ hj.accepted fun v => ?_
    simp [isPendingInvitation]
  refine ⟨hlasts, fun k hk => ?_, fun x hx => ?_, fun T' hT' hne => (htxs T').mpr ⟨hT', hne⟩,
    husers, fun x hx => hclocks ▸ hx, fun w hw => ?_, fun w hw => ?_, honce, ?_, fun x hx => ?_,
    hi.locks.mono (fun T' hT' => ((htxs T').mp hT').1) ?_ ?_⟩
  · obtain ⟨rfl, hk⟩ := hname k hk
    obtain ⟨t, token, hroute⟩ : ∃ t token, k.route = .acceptInvitation t token := by
      simpa only [Apart, not_forall, not_not] using hk
    rw [Joining, hroute]
    exact .inr ⟨T.invitation, T.acceptedAt, hj⟩
  · rw [hj.noted] at hx
    rcases List.mem_cons.mp hx with rfl | hx
    · exact .inr rfl
    · exact .inl hx
  · rw [hj.accepted, Table.mem_update] at hw
    obtain ⟨v, hv, rfl⟩ := hw
    split
    · rename_i hid
      rw [hother v hv (by simpa using hid)]
      exact .inr hj.notRevoked
    · exact hi.exclusive v hv
  · rw [hj.accepted, Table.mem_update] at hw
    obtain ⟨v, hv, rfl⟩ := hw
    split
    · exact hi.neverOwner v hv
    · exact hi.neverOwner v hv
  · rw [JoinedOnce, hj.noted]
    refine List.nodup_cons.mpr ⟨fun hx => ?_, hi.once⟩
    -- An invitation that has yielded a membership is accepted, and this one is pending.
    obtain ⟨x, hx, hid⟩ := List.mem_map.mp hx
    obtain ⟨v, hv, hvid, hacc⟩ := hi.accepted x hx
    rw [hother v hv (hvid.trans hid), hj.notAccepted] at hacc
    cases hacc
  · rw [hj.noted] at hx
    rcases List.mem_cons.mp hx with rfl | hx
    · refine ⟨{ T.invitation with acceptedAt := some T.acceptedAt }, ?_, rfl, rfl⟩
      rw [hj.accepted]
      exact Table.mem_update_of_true hj.mem (by simp)
    · obtain ⟨v, hv, hid, hacc⟩ := hi.accepted x hx
      obtain ⟨v', hv', hid', -, -, -, -, hsame, -⟩ := hlasts v hv
      exact ⟨v', hv', hid'.trans hid, hsame hacc ▸ hacc⟩
  · intro T' hT' hold _
    obtain ⟨hT', hne⟩ := (htxs T').mp hT'
    rw [hj.accepted]
    refine Table.mem_update_of_false hold ?_
    -- Another transaction has locked another invitation, and will join another member.
    have happart := hi.locks.apart T' hT' T hT.mem (hT.pid ▸ hne)
    simpa using happart
  · intro T' hT' m' hm' hfree
    obtain ⟨hT', hne⟩ := (htxs T').mp hT'
    have halone := hi.locks.alone T' hT' T hT.mem (hT.pid ▸ hne) m' _ hm' hT.membership
    exact (Table.find?_insert hj.inserted _).trans ((if_neg (Ne.symm halone)).trans hfree)

/-! ### The contract -/

/-- The contract for the requests of `name`.  With `answered`, no reply to a `COMMIT` is lost. -/
def lifecycleContract (name : Nat → Option MemberRequest) (answered : Prop) :
    Contract Event Env AppState where
  inv := Invariant
  guar i _ _ s s' := Step name i s s'
  adm i l e s := admissible i l e s = true ∧
    (answered → l = .commitAcceptance → e.fault ≠ .lost)
  guar_inv _ h := h.invariant

variable {answered : Prop}

theorem lifecycle_tolerant : TolerantOfKeys (lifecycleContract name answered) where
  stay _ _ _ s hi _ := .of_eq hi (.refl s) rfl rfl rfl
  bystander _ _ _ _ hi h := by
    refine .of_eq hi ⟨h.memberships, h.invitations, ?_⟩ h.acceptTxs h.users ?_
    · rw [h.history]
    · rw [h.history]
  issue _ _ _ hi _ := .of_eq hi ⟨rfl, rfl, rfl⟩ rfl rfl rfl
  keys _ _ _ _ hi h := by
    refine .of_eq hi ⟨?_, ?_, ?_⟩ ?_ ?_ ?_
    · rw [h.db]
    · rw [h.db]
    · rw [h.history]
    · rw [h.db]
    · rw [h.db]
    · rw [h.history]

theorem lifecycle_lenient : Lenient (lifecycleContract name answered) :=
  lifecycle_tolerant.toTolerant.lenient

theorem pid_of_adm {l : Event} {e : Env} (h : (lifecycleContract name answered).adm i l e s) :
    e.pid = i :=
  (not_issued_of_admissible h.1).1

/-- Only the request itself turns an invitation into a membership. -/
theorem stable_notJoined : (lifecycleContract name answered).Stable i (NotJoined i) := by
  intro s s' j l e _ hs hj hg x hx
  rcases hg.mine x hx with hx | rfl
  · exact hs x hx
  · exact hj

theorem stable_unjoined (_ : AppError) :
    (lifecycleContract name answered).Stable i fun s => answered → NotJoined i s :=
  fun s s' j l e hi hs hj hg ha => stable_notJoined s s' j l e hi (hs ha) hj hg

/-- Where an error is returned, the request has turned no invitation into a membership. -/
abbrev OrUnjoined {A : Type} (answered : Prop) (i : Nat) (Q : A → AppState → Prop) :
    Except AppError A → AppState → Prop :=
  orFail (fun _ s => answered → NotJoined i s) Q

theorem lasting_user {u : UserRecord} :
    (lifecycleContract name answered).Lasting fun s => u ∈ s.db.users := by
  intro _ _ _ s s' _ h hg
  rw [hg.users]
  exact h

/-! ### Requests that accept no invitation -/

section Others

variable (hname : ∀ k, name i = some k → Apart k) {app : App} {user : AuthenticatedUser}
include hname

theorem createInvitation_row {email tokenHash : String} {role : MembershipRole} {expiresAt : Time} :
    (lifecycleContract name answered).Safe i
      (Db.createInvitation tenantId email role tokenHash expiresAt userId) := by
  have hK : Patient (lifecycleContract name answered) := lifecycle_tolerant.toPatient
  refine .bind (newUuid_safe hK) fun id => .bind (utcNow_safe hK) fun now => ?_
  refine sqlWhen_safe hK fun s e hi _ _ _ => ?_
  split
  · exact .of_eq hi (.refl s) rfl rfl rfl
  · rename_i hrole
    split
    · exact .of_eq hi (.refl s) rfl rfl rfl
    · rename_i htaken
      split
      · rename_i invitations hins
        exact .invite hi hname (by simpa using htaken) hins rfl hrole rfl rfl rfl rfl rfl
      · exact .of_eq hi (.refl s) rfl rfl rfl

theorem createInvitation_safe {actorRole : MembershipRole} {email : String}
    {role : MembershipRole} : (lifecycleContract name answered).Safe i
      (Fluxa.createInvitation app tenantId actorRole userId email role) := by
  have hK : Patient (lifecycleContract name answered) := lifecycle_tolerant.toPatient
  refine .bind .done fun _ => .bind ?_ fun _ => .bind (generateRandom_safe hK) fun token => ?_
  · refine .bind (select_safe hK) fun found => ?_
    split
    · exact .done
    · exact .bind (select_safe hK) fun _ => .ensure
  · refine .bind (utcNow_safe hK) fun now => .bind (.attempt (createInvitation_row hname)) fun _ => ?_
    refine .bind .done fun invitation => .bind (.attempt ?_) fun _ => ?_
    · refine .bind (newUuid_safe hK) fun id => sql_safe hK fun s e hi _ _ => ?_
      split
      · exact .of_eq hi ⟨rfl, rfl, rfl⟩ rfl rfl rfl
      · split
        · exact .of_eq hi ⟨rfl, rfl, rfl⟩ rfl rfl rfl
        · exact .of_eq hi ⟨rfl, rfl, rfl⟩ rfl rfl rfl
    · exact .bind (recordEvent_safe lifecycle_lenient.discreet) fun _ => .done

theorem revokeInvitation_safe {invitationId : Uuid} : (lifecycleContract name answered).Safe i
    (Fluxa.revokeInvitation tenantId userId invitationId) := by
  have hK : Patient (lifecycleContract name answered) := lifecycle_tolerant.toPatient
  refine .bind (sqlWhen_safe hK fun s e hi hy _ _ => ?_) fun _ =>
    recordEvent_safe lifecycle_lenient.discreet
  dsimp only
  split
  · exact .revoke hi hname (by simpa using hy)
  · exact .of_eq hi (.refl s) rfl rfl rfl

theorem updateMemberRole_safe {actorRole newRole : MembershipRole} {memberId : Uuid} :
    (lifecycleContract name answered).Safe i
      (Fluxa.updateMemberRole tenantId actorRole userId memberId newRole) := by
  have hK : Patient (lifecycleContract name answered) := lifecycle_tolerant.toPatient
  refine updateMemberRole_of lifecycle_lenient.discreet
    (updateMembershipRole_from hK stable_const ?_ ?_)
  · exact fun s e hi _ _ => .of_eq hi (.refl s) rfl rfl rfl
  · exact fun s e hi _ _ _ => .write hi hname

theorem removeMember_safe {actorRole : MembershipRole} {memberId : Uuid} :
    (lifecycleContract name answered).Safe i
      (Fluxa.removeMember tenantId actorRole userId memberId) := by
  have hK : Patient (lifecycleContract name answered) := lifecycle_tolerant.toPatient
  refine removeMember_of lifecycle_lenient.discreet (deleteMembership_from hK stable_const ?_ ?_)
    (.bind (utcNow_safe hK) fun _ => .bind (.bind (.atomic fun s _ hi _ _ => ?_)
      fun _ => sqlWhen_safe hK fun s _ hi _ _ _ => ?_) fun _ => .done)
  · exact fun s e hi _ _ => .of_eq hi (.refl s) rfl rfl rfl
  · exact fun s e hi _ _ _ => .write hi hname
  · exact .of_eq hi ⟨rfl, rfl, rfl⟩ rfl rfl rfl
  · exact .of_eq hi ⟨rfl, rfl, rfl⟩ rfl rfl rfl

end Others

/-! ### Acceptances -/

section Acceptance

variable {u : UserRecord} {T : AcceptTx}

/-- The transaction of request `i` has locked an invitation for the user `u`, read before. -/
structure Opened (i : Nat) (u : UserRecord) (T : AcceptTx) (s : AppState) : Prop where
  pid : T.pid = i
  mem : T ∈ s.db.acceptTxs
  clock : (i, T.acceptedAt) ∈ s.history.acceptClocks
  notExpired : T.acceptedAt < T.invitation.expiresAt
  user : u ∈ s.db.users
  unjoined : NotJoined i s

theorem stable_opened : (lifecycleContract name answered).Stable i (Opened i u T) := by
  intro s s' j l e hi hs hj hg
  refine ⟨hs.pid, hg.theirs T hs.mem ?_, hg.clocks _ hs.clock, hs.notExpired,
    hg.users.symm ▸ hs.user, stable_notJoined s s' j l e hi hs.unjoined hj hg⟩
  rw [hs.pid]
  exact Ne.symm hj

theorem stable_ready : (lifecycleContract name answered).Stable i fun s =>
    Ready i userId T s ∧ NotJoined i s := by
  rintro s s' j l e hi ⟨hs, hn⟩ hj hg
  refine ⟨⟨hs.pid, hg.theirs T hs.mem ?_, hg.clocks _ hs.clock, hs.notExpired, ?_, hs.membership⟩,
    stable_notJoined s s' j l e hi hn hj hg⟩
  · rw [hs.pid]
    exact Ne.symm hj
  · rw [hg.users]
    exact hs.addressee

/-- To end the transaction is to have done nothing. -/
theorem endTx_unjoined {e : Env} (hi : Invariant s) (hn : NotJoined i s) (hpid : e.pid = i) :
    Step name i s (endAcceptTx e.pid s) ∧
      ∀ _ : AppError, answered → NotJoined i (endAcceptTx e.pid s) :=
  ⟨hpid ▸ .endTx hi, fun _ _ => hn⟩

theorem acceptanceTime_or : (lifecycleContract name answered).Triple i
    (fun s => NotJoined i s ∧ u ∈ s.db.users) acceptanceTime
    (OrUnjoined answered i fun now s => (NotJoined i s ∧ u ∈ s.db.users) ∧
      (i, now) ∈ s.history.acceptClocks) := by
  have hP := stable_notJoined.and (lasting_user.stable i)
    (K := lifecycleContract name answered) (i := i) (Q := fun s => u ∈ s.db.users)
  refine Triple.atomic hP (stable_orFail stable_unjoined fun now => hP.and ?_)
    fun s e hi hs _ ha => ⟨?_, hs, ?_⟩
  · exact fun _ _ _ _ _ _ h _ hg => hg.clocks _ h
  · refine .of_locks hi ⟨rfl, rfl, rfl⟩ ?_ (fun _ h _ => h) rfl fun _ hx => ?_
    · exact ⟨hi.locks.row, hi.locks.pending, hi.locks.apart, hi.locks.free, hi.locks.alone⟩
    · exact List.mem_cons_of_mem _ hx
  · rw [pid_of_adm ha]
    exact List.mem_cons_self

/-- The `UPDATE` locks a pending invitation that nobody has locked. -/
theorem markAccepted_or {tokenHash : String} {now : Time} :
    (lifecycleContract name answered).Triple i
      (fun s => (NotJoined i s ∧ u ∈ s.db.users) ∧ (i, now) ∈ s.history.acceptClocks)
      (markAccepted tenantId tokenHash now) (OrUnjoined answered i (Opened i u)) := by
  have hP : (lifecycleContract name answered).Stable i fun s =>
      (NotJoined i s ∧ u ∈ s.db.users) ∧ (i, now) ∈ s.history.acceptClocks :=
    (stable_notJoined.and (lasting_user.stable i)).and fun _ _ _ _ _ _ h _ hg => hg.clocks _ h
  refine inAcceptTx_or hP stable_unjoined (fun _ => stable_opened)
    (fun s e hi hs ha => endTx_unjoined hi hs.1.1 (pid_of_adm ha))
    fun s e T s' hi hs hy ha h => ?_
  dsimp only at h
  split at h
  · cases h
  · rename_i v hv
    obtain ⟨hmem, hacc⟩ := Table.mem_select.mp (List.mem_of_head? hv)
    have hcond := hacc
    simp only [isAcceptable, Bool.and_eq_true, decide_eq_true_eq] at hcond
    cases h
    have hpid := pid_of_adm ha
    have hlocked : ∀ T' ∈ s.db.acceptTxs, T'.invitation.id ≠ v.id := by
      intro T' hT' hid
      have hT := Table.eq_of_key (hi.locks.row T' hT') hmem hid
      have hbusy : invitationLocked (isAcceptable tenantId tokenHash now) s = true :=
        List.any_eq_true.mpr ⟨T', hT', hT ▸ hacc⟩
      simp [hbusy] at hy
    refine ⟨.putTx hi hpid (hi.locks.put hmem hcond.1.2 (fun T' hT' _ => hlocked T' hT') ?_ ?_),
      hpid, mem_putAcceptTx.mpr (.inl rfl), hs.2, hcond.2, hs.1.2, hs.1.1⟩
    · rintro m ⟨⟩
    · rintro T' - - m m' - ⟨⟩

/-- The insertion locks a free place. -/
theorem insertMember_or (hmail : toAsciiLowercase T.invitation.email = toAsciiLowercase u.email) :
    (lifecycleContract name answered).Triple i (Opened i u T) (insertMember T u.id)
      (OrUnjoined answered i fun r s => Ready i u.id r.1 s ∧ NotJoined i s) := by
  refine inAcceptTx_or stable_opened stable_unjoined (fun _ => stable_ready)
    (fun s e hi hs ha => endTx_unjoined hi hs.unjoined (pid_of_adm ha))
    fun s e r s' hi hs hy ha h => ?_
  dsimp only at h
  split at h
  · cases h
  · cases h
  · rename_i memberships tenant hins _
    cases h
    obtain ⟨hnew, -⟩ := Table.insert_eq_some hins
    refine ⟨.putTx hi hs.pid (hi.locks.put (hi.locks.row T hs.mem) (hi.locks.pending T hs.mem)
      (fun T' hT' hne => hi.locks.apart T' hT' T hs.mem hne) ?_ ?_),
      ⟨hs.pid, mem_putAcceptTx.mpr (.inl rfl), hs.clock, hs.notExpired,
        ⟨u, hs.user, rfl, hmail⟩, rfl⟩, hs.unjoined⟩
    · rintro m ⟨⟩
      exact Table.find?_eq_none.mpr hnew
    · rintro T' hT' hne m m' hm ⟨⟩ heq
      have hbusy : memberLocked T u.id s = true := by
        refine List.any_eq_true.mpr ⟨T', hT', ?_⟩
        simp only [AcceptTx.memberFor, Prod.mk.injEq] at heq
        have hne' : T'.pid ≠ T.pid := hne
        simp [hne', hm, heq]
      simp [hbusy] at hy

/-- An error of the `COMMIT` is one of the database, which has done nothing. -/
theorem commitAcceptance_unjoined (hname : ∀ k, name i = some k → k.userId = userId ∧ ¬ Apart k) :
    (lifecycleContract name answered).Triple i (fun s => Ready i userId T s ∧ NotJoined i s)
      (commitAcceptance T) (OrUnjoined answered i fun _ _ => True) := by
  refine commitAcceptance_or stable_ready stable_unjoined
    (fun s e hi hs ha => endTx_unjoined hi hs.2 (pid_of_adm ha)) fun s e s' hi hs ha h => ?_
  have hpid := pid_of_adm ha
  refine ⟨?_, fun hlost _ hans => absurd hlost (ha.2 hans rfl)⟩
  have hj := hs.1.joins hi h
  obtain ⟨m, memberships, -, -, -, rfl⟩ := applyAcceptance_eq_some h
  rw [hpid]
  exact .commit hi hs.1 hname hj (fun _ => mem_endAcceptTx) rfl rfl

theorem acceptInvitation_row {tokenHash : String}
    (hname : ∀ k, name i = some k → k.userId = u.id ∧ ¬ Apart k) :
    (lifecycleContract name answered).Triple i (fun s => NotJoined i s ∧ u ∈ s.db.users)
      (Db.acceptInvitation tenantId tokenHash u.id u.email)
      (OrUnjoined answered i fun _ _ => True) := by
  refine acceptanceTime_or.seq_or fun now => markAccepted_or.seq_or fun T =>
    Triple.ite (fun _ => ?_) fun hmail => ?_
  · exact dropAcceptTx_or stable_opened stable_unjoined
      fun s e hi hs ha => endTx_unjoined hi hs.unjoined (pid_of_adm ha)
  · refine (insertMember_or (not_not.mp hmail)).seq_or fun r => ?_
    refine (commitAcceptance_unjoined hname).seq_or fun _ => ?_
    exact Triple.done stable_const fun _ _ _ => trivial

end Acceptance

/-! ### Whole requests -/

section Requests

variable {app : App} {user : AuthenticatedUser}

theorem authorise_or : (lifecycleContract name answered).Triple i (NotJoined i)
    (authorise tenantId userId)
    (OrUnjoined answered i fun user s => user.userId = userId ∧ NotJoined i s) := by
  refine sqlWhen_or lifecycle_tolerant.toPatient stable_notJoined stable_unjoined
    (fun _ => stable_const.and stable_notJoined) (fun _ _ _ hs _ => hs)
    fun s e hi hs _ _ _ => ?_
  split
  · exact ⟨.of_eq hi (.refl s) rfl rfl rfl, fun _ => hs, fun _ => hs⟩
  · exact ⟨.of_eq hi ⟨rfl, rfl, rfl⟩ rfl rfl rfl, ⟨rfl, hs⟩, fun _ => hs⟩

/-- The user that is found, if one is. -/
def Found (userId : Uuid) (found : Option UserRecord) (s : AppState) : Prop :=
  ∀ u, found = some u → u.id = userId ∧ u ∈ s.db.users

theorem stable_found {found : Option UserRecord} :
    (lifecycleContract name answered).Stable i fun s => Found userId found s ∧ NotJoined i s := by
  refine Stable.and (fun s s' _ _ _ _ h _ hg u hu => ⟨(h u hu).1, ?_⟩) stable_notJoined
  rw [hg.users]
  exact (h u hu).2

theorem getUserById_or : (lifecycleContract name answered).Triple i (NotJoined i)
    (getUserById userId)
    (OrUnjoined answered i fun u s => u.id = userId ∧ NotJoined i s ∧ u ∈ s.db.users) := by
  refine Triple.seq_or (Q := fun found s => Found userId found s ∧ NotJoined i s) ?_ fun found => ?_
  · refine select_or lifecycle_tolerant.toPatient stable_notJoined stable_unjoined
      (fun _ => stable_found) (fun _ _ _ hs _ => hs) fun s e hi hs => ⟨fun u hu => ?_, hs⟩
    exact (Table.find?_eq_some.mp hu).symm
  · have herror : ∀ s, (lifecycleContract name answered).inv s →
        Found userId found s ∧ NotJoined i s → found = none → answered → NotJoined i s :=
      fun _ _ hs _ _ => hs.2
    refine (Triple.okOr_or (F := fun _ s => answered → NotJoined i s) stable_found herror).post
      fun r s _ h => ?_
    cases r with
    | error x => exact h
    | ok u =>
        obtain ⟨hfound, hu, hn⟩ := h
        exact ⟨(hu u hfound).1, hn, (hu u hfound).2⟩

theorem acceptInvitation_or {token : String}
    (hname : ∀ k, name i = some k → k.userId = user.userId ∧ ¬ Apart k) :
    (lifecycleContract name answered).Triple i (NotJoined i)
      (Http.acceptInvitation app user tenantId token)
      (OrUnjoined answered i fun _ _ => True) := by
  refine (Triple.ensure_or stable_notJoined fun _ _ hs _ => hs).seq_or fun _ => ?_
  refine getUserById_or.seq_or fun u => Triple.of_fact fun hu => ?_
  refine (acceptInvitation_row (hu ▸ hname)).seq_or fun membership => ?_
  refine (recordEvent_or lifecycle_lenient.discreet).seq_or fun _ => ?_
  exact Triple.done stable_const fun _ _ _ => trivial

theorem handler_safe {route : Route} (hname : ∀ k, name i = some k → Apart k)
    (hroute : ∀ tenantId token, route ≠ .acceptInvitation tenantId token) :
    (lifecycleContract name answered).Safe i (route.handler app user) := by
  cases route with
  | createInvitation tenantId idempotencyKey email role =>
      refine .bind (.lift_bind fun _ _ => .lift_bind fun email _ => .lift_bind fun role _ =>
        .lift_bind fun key _ => ?_) fun _ => .done
      exact idempotent_from lifecycle_tolerant.patient lasting_const fun _ => createInvitation_safe hname
  | revokeInvitation tenantId invitationId =>
      exact .lift_bind fun _ _ => revokeInvitation_safe hname
  | acceptInvitation tenantId token => exact absurd rfl (hroute tenantId token)
  | updateMemberRole tenantId memberId role =>
      refine .bind (.lift_bind fun _ _ => .lift_bind fun role _ => ?_) fun _ => .done
      exact updateMemberRole_safe hname
  | removeMember tenantId memberId => exact .lift_bind fun _ _ => removeMember_safe hname

theorem authorise_safe :
    (lifecycleContract name answered).Safe i (authorise tenantId userId) := by
  refine sql_safe lifecycle_tolerant.toPatient fun s e hi _ _ => ?_
  split
  · exact .of_eq hi (.refl s) rfl rfl rfl
  · exact .of_eq hi ⟨rfl, rfl, rfl⟩ rfl rfl rfl

/-- The request, of whatever kind, keeps to the contract; an acceptance that returns an error has done
nothing. -/
theorem request_or (hname : name i = some k) : (lifecycleContract name answered).Triple i
    (NotJoined i) ((authoritySystem app).body k) fun r s => ∀ x, r = .error x →
      ¬ Apart k → answered → NotJoined i s := by
  by_cases hk : Apart k
  · have hname' : ∀ k', name i = some k' → Apart k' := fun k' hk' => by
      obtain rfl := Option.some.inj (hname.symm.trans hk')
      exact hk
    have hsafe : (lifecycleContract name answered).Safe i ((authoritySystem app).body k) :=
      .bind authorise_safe fun user => handler_safe hname' hk
    exact hsafe.conseq (fun _ _ _ => trivial) fun _ _ _ _ _ _ hno => absurd hk hno
  · obtain ⟨t, token, hroute⟩ : ∃ t token, k.route = .acceptInvitation t token := by
      simpa only [Apart, not_forall, not_not] using hk
    have hbody : (lifecycleContract name answered).Triple i (NotJoined i)
        ((authoritySystem app).body k) (OrUnjoined answered i fun _ _ => True) := by
      refine authorise_or.seq_or fun user => Triple.of_fact fun hu => ?_
      rw [hroute]
      refine (acceptInvitation_or fun k' hk' => ?_).seq_or fun _ =>
        Triple.done stable_const fun _ _ _ => trivial
      obtain rfl := Option.some.inj (hname.symm.trans hk')
      exact ⟨hu.symm, hk⟩
    refine hbody.post fun r s _ h x hx _ => ?_
    subst hx
    exact h

end Requests

end Lifecycle

open Authority Lifecycle

/-- Tenant 1 of the user 10 has invited the user 12, who has tenant 2. -/
def invited : AppState :=
  { (default : AppState) with
    db := { (default : Database) with
      users := ⟨[⟨10, "a@x", "h", none, none, 0⟩, ⟨12, "c@x", "h", none, none, 0⟩], by decide⟩
      tenants := ⟨[⟨1, "T", 0⟩, ⟨2, "U", 0⟩], by decide⟩
      memberships := ⟨[⟨1, 10, .owner, 0⟩, ⟨2, 12, .owner, 0⟩], by decide⟩
      invitations := ⟨[⟨7, 1, "C@x", .member, "t", 5, none, none, 10, 0⟩], by decide⟩ } }

theorem invited_start : Start invited where
  exclusive := by rintro v (_ | ⟨_, ⟨⟩⟩); exact .inl rfl
  neverOwner := by rintro v (_ | ⟨_, ⟨⟩⟩); decide
  pendingOnce := by rintro v (_ | ⟨_, ⟨⟩⟩) w (_ | ⟨_, ⟨⟩⟩) - - - -; rfl
  closed := rfl
  unjoined := rfl

end Fluxa
