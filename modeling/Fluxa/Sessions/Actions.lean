import Fluxa.Http.Sessions
import Fluxa.Relational.Chains
import Fluxa.State.Quiet

/-!
# Sessions — actions

What the calls that open, rotate, list and end sessions do to the refresh tokens, one statement at a time.

A statement of call `i` is one of the actions of **`SessionAction`**.  What the other calls need to know of it is its **`SessionFrame`**; the invariant **`SessionInv`** and every fact that a call relies on between its statements are kept because of the frame.
-/

namespace Fluxa
open Interleave Relational Db Contract

/-! ### The invariant -/

/-- The refresh token `a` has been rotated to `b`. -/
def Replaced (s : AppState) (a b : Uuid) : Prop := ∃ i, (a, b, i) ∈ s.history.rotations

/-- What holds of the refresh tokens, of the rotations and of the signed tokens. -/
structure SessionInv (s : AppState) : Prop where
  issued_once : IssuedOnce s
  token_issued : ∀ r ∈ s.db.refreshTokens, Issued s r.id
  minted_issued : ∀ c ∈ s.history.minted, c.tokenType = .refresh → Issued s c.jti
  rotation_issued : ∀ a b, Replaced s a b → Issued s a ∧ Issued s b
  known_issued : ∀ k u ids, s.history.terminating k = some (u, ids) → ∀ id ∈ ids, Issued s id
  lock_once : ∀ id i j, (id, i) ∈ s.db.tokenLocks → (id, j) ∈ s.db.tokenLocks → i = j
  /-- A signed refresh token names the user of its row. -/
  minted_user : ∀ c ∈ s.history.minted, c.tokenType = .refresh →
    ∀ r ∈ s.db.refreshTokens, r.id = c.jti → r.userId = c.sub
  token_origin : ∀ r ∈ s.db.refreshTokens, r.origin < s.history.checks
  minted_origin : ∀ c ∈ s.history.minted, c.origin < s.history.checks
  chains : Chains (Replaced s)
  rotated_once : ∀ a b c i j, (a, b, i) ∈ s.history.rotations → (a, c, j) ∈ s.history.rotations →
    i = j
  /-- A rotated token is revoked and points to its successor. -/
  rotated : ∀ a b, Replaced s a b → ∀ r ∈ s.db.refreshTokens, r.id = a →
    r.revokedAt ≠ none ∧ r.replacedBy = some b
  replaced : ∀ r ∈ s.db.refreshTokens, ∀ b, r.replacedBy = some b → Replaced s r.id b
  same_user : ∀ a b, Replaced s a b → ∀ r ∈ s.db.refreshTokens, ∀ t ∈ s.db.refreshTokens,
    r.id = a → t.id = b → r.userId = t.userId

/-- Before the first session: no refresh tokens, and none signed. -/
structure SessionStart (s : AppState) : Prop where
  issued_once : IssuedOnce s
  tokens : ∀ r, ¬ r ∈ s.db.refreshTokens
  locks : s.db.tokenLocks = []
  minted : s.history.minted = []
  rotations : s.history.rotations = []
  terminating : ∀ i, s.history.terminating i = none
  terminated : s.history.terminated = []

theorem SessionStart.not_replaced {s : AppState} (h : SessionStart s) (a b : Uuid) :
    ¬ Replaced s a b := by
  simp [Replaced, h.rotations]

theorem SessionStart.inv {s : AppState} (h : SessionStart s) : SessionInv s where
  issued_once := h.issued_once
  token_issued r hr := absurd hr (h.tokens r)
  minted_issued c hc := by simp [h.minted] at hc
  rotation_issued a b hab := absurd hab (h.not_replaced a b)
  known_issued k u ids hk := by simp [h.terminating] at hk
  lock_once id i j hi := by simp [h.locks] at hi
  minted_user c hc := by simp [h.minted] at hc
  token_origin r hr := absurd hr (h.tokens r)
  minted_origin c hc := by simp [h.minted] at hc
  chains := chains_of_isEmpty h.not_replaced
  rotated_once a b c i j hab := absurd ⟨i, hab⟩ (h.not_replaced a b)
  rotated a b hab := absurd hab (h.not_replaced a b)
  replaced r hr := absurd hr (h.tokens r)
  same_user a b hab := absurd hab (h.not_replaced a b)

/-! ### Facts about identifiers -/

/-- The identifier was generated by call `i`, and no token has had it yet. -/
structure Unspent (i : Nat) (id : Uuid) (s : AppState) : Prop where
  issued : (id, i) ∈ s.history.issued
  no_token : ∀ r ∈ s.db.refreshTokens, r.id ≠ id
  no_minted : ∀ c ∈ s.history.minted, c.tokenType = .refresh → c.jti ≠ id
  no_link : IsNew (Replaced s) id
  unknown : ∀ k u ids, s.history.terminating k = some (u, ids) → id ∉ ids

/-- The identifier was generated by call `i`, and if a token has it, it is one of `userId`. -/
structure Spendable (i : Nat) (id userId : Uuid) (s : AppState) : Prop where
  issued : (id, i) ∈ s.history.issued
  user : ∀ r ∈ s.db.refreshTokens, r.id = id → r.userId = userId

/-! ### The actions -/

/-- Everything that sessions depend on is as it was. -/
structure SessionQuiet (s s' : AppState) : Prop where
  tokens : s'.db.refreshTokens = s.db.refreshTokens
  locks : s'.db.tokenLocks = s.db.tokenLocks
  issued : s'.history.issued = s.history.issued
  minted : s'.history.minted = s.history.minted
  rotations : s'.history.rotations = s.history.rotations
  checks : s'.history.checks = s.history.checks
  terminating : s'.history.terminating = s.history.terminating
  terminated : s'.history.terminated = s.history.terminated

theorem SessionQuiet.refl (s : AppState) : SessionQuiet s s := by
  constructor <;> rfl

theorem Bystander.sessionQuiet {s s' : AppState} (h : Bystander s s') : SessionQuiet s s' := by
  have hh := h.history
  exact ⟨h.refreshTokens, h.tokenLocks, by rw [hh], by rw [hh], by rw [hh], by rw [hh], by rw [hh], by rw [hh]⟩

/-- The statements that open a session or return from a termination. -/
def Event.concernsSessions : Event → Bool
  | .issueToken _ _ | .returnTermination => true
  | _ => false

/-- The history after call `i` has returned from a termination. -/
def History.returned (i : Nat) (h : History) : History :=
  { h with
    terminated :=
      match h.terminating i with
      | some (userId, _) => (i, userId, h.checks) :: h.terminated
      | none => h.terminated
    terminating := Function.update h.terminating i none }

/-- The history after a termination by call `i` has failed. -/
def History.abandoned (i : Nat) (h : History) : History :=
  { h with terminating := Function.update h.terminating i none }

/-- What a statement of call `i` does to the sessions. -/
inductive SessionAction (i : Nat) : Event → Env → AppState → AppState → Prop where
  | quiet {l e s s'} (h : SessionQuiet s s')
      (hl : l.concernsSessions = true → e.fault = .failed) : SessionAction i l e s s'
  | issue {e s} (hf : ¬ Issued s e.uuid) : SessionAction i .quiet e s
      { s with history.issued := (e.uuid, i) :: s.history.issued }
  | check {e s} : SessionAction i .quiet e s
      { s with history.checks := s.history.checks + 1 }
  | mint {e s cs} (ho : ∀ c ∈ cs, c.origin < s.history.checks)
      (hu : ∀ c ∈ cs, c.tokenType = .refresh → Spendable i c.jti c.sub s) :
      SessionAction i .quiet e s { s with history.minted := cs ++ s.history.minted }
  | insert {e s s'} {row : RefreshTokenRecord} (hf : e.fault ≠ .failed) (hu : Unspent i row.id s)
      (ho : row.origin < s.history.checks) (hr : row.revokedAt = none)
      (hp : row.replacedBy = none)
      (ht : ∀ r, r ∈ s'.db.refreshTokens ↔ r ∈ s.db.refreshTokens ∨ r = row)
      (hl : s'.db.tokenLocks = s.db.tokenLocks) (hh : s'.history = s.history) :
      SessionAction i (.issueToken row.userId row.origin) e s s'
  | snapshot {e s userId} : SessionAction i .quiet e s
      { s with history.terminating := Function.update s.history.terminating i
                 (some (userId, s.db.refreshTokens.rows.map (·.id))) }
  | revoke {e s p now} (hp : ∀ r ∈ s.db.refreshTokens, p r = true → tokenLocked s r.id = false) :
      SessionAction i .quiet e s
        { s with db.refreshTokens := s.db.refreshTokens.update p (coalesceRevoked now) }
  | purge {e s p} (hp : ∀ r ∈ s.db.refreshTokens, p r = true → tokenLocked s r.id = false) :
      SessionAction i .quiet e s
        { s with db.refreshTokens := s.db.refreshTokens.delete p }
  | lock {e s id} (hm : ∃ r ∈ s.db.refreshTokens, r.id = id ∧ r.revokedAt = none)
      (hf : tokenLocked s id = false) : SessionAction i .quiet e s
        { s with db.tokenLocks := (id, i) :: s.db.tokenLocks }
  | unlock {e s userId} : SessionAction i (.rotateToken userId) e s (releaseLocks i s)
  | rotate {e s s'} {userId : Uuid} {old row : RefreshTokenRecord} {now : Time}
      (hk : (old.id, i) ∈ s.db.tokenLocks) (hm : old ∈ s.db.refreshTokens)
      (hv : old.revokedAt = none) (hu : Unspent i row.id s) (hus : row.userId = old.userId)
      (ho : row.origin = old.origin) (hr : row.revokedAt = none) (hp : row.replacedBy = none)
      (ht : ∀ r, r ∈ s'.db.refreshTokens ↔ (∃ r₀ ∈ s.db.refreshTokens,
        r = if r₀.id = old.id then Db.rotated now row.id r₀ else r₀) ∨ r = row)
      (hl : s'.db.tokenLocks = s.db.tokenLocks.filter fun k => k.2 ≠ i)
      (hh : s'.history =
        { s.history with rotations := (old.id, row.id, i) :: s.history.rotations }) :
      SessionAction i (.rotateToken userId) e s s'
  | returned {e s} (he : ∀ u ids, s.history.terminating i = some (u, ids) →
        ∀ r ∈ s.db.refreshTokens, r.userId = u → r.id ∈ ids → r.revokedAt ≠ none) :
      SessionAction i .returnTermination e s { s with history := s.history.returned i }
  | abandoned {e s} : SessionAction i .quiet e s { s with history := s.history.abandoned i }

/-! ### The frame of an action -/

/-- How a token may change: it is revoked, or rotated. -/
structure Later (i : Nat) (s' : AppState) (r r' : RefreshTokenRecord) : Prop where
  id : r'.id = r.id
  userId : r'.userId = r.userId
  origin : r'.origin = r.origin
  active : r' = r ∨ r'.revokedAt ≠ none
  replacedBy : r'.replacedBy = r.replacedBy ∨
    ∃ b, r'.replacedBy = some b ∧ (r.id, b, i) ∈ s'.history.rotations

/-- How a new token looks. -/
structure NewToken (i : Nat) (s s' : AppState) (r : RefreshTokenRecord) : Prop where
  unspent : Unspent i r.id s
  minted : s'.history.minted = s.history.minted
  origin : r.origin < s.history.checks
  replacedBy : r.replacedBy = none

/-- The link that a rotation by call `i` adds. -/
structure NewLink (i : Nat) (s s' : AppState) (old : RefreshTokenRecord) (b : Uuid) : Prop where
  mem : old ∈ s.db.refreshTokens
  active : old.revokedAt = none
  unspent : Unspent i b s
  rotations : s'.history.rotations = (old.id, b, i) :: s.history.rotations
  revoked : ∀ r ∈ s'.db.refreshTokens, r.id = old.id → r.revokedAt ≠ none ∧ r.replacedBy = some b
  user : ∀ r ∈ s'.db.refreshTokens, r.id = b → r.userId = old.userId

/-- What the other calls need to know of a statement of call `i`. -/
structure SessionFrame (i : Nat) (s s' : AppState) : Prop where
  issued : s'.history.issued = s.history.issued ∨
    ∃ id, ¬ Issued s id ∧ s'.history.issued = (id, i) :: s.history.issued
  checks : s.history.checks ≤ s'.history.checks
  minted : ∀ c ∈ s'.history.minted, c ∈ s.history.minted ∨
    c.origin < s.history.checks ∧ (c.tokenType = .refresh → Spendable i c.jti c.sub s)
  minted_mono : ∀ c ∈ s.history.minted, c ∈ s'.history.minted
  rotations : s'.history.rotations = s.history.rotations ∨ ∃ old b, NewLink i s s' old b
  rows : ∀ r' ∈ s'.db.refreshTokens,
    (∃ r ∈ s.db.refreshTokens, Later i s' r r') ∨ NewToken i s s' r'
  /-- A token locked by another call is left alone. -/
  kept : ∀ r ∈ s.db.refreshTokens, ∀ k, k ≠ i → (r.id, k) ∈ s.db.tokenLocks →
    r ∈ s'.db.refreshTokens
  locks : ∀ id k, k ≠ i → ((id, k) ∈ s'.db.tokenLocks ↔ (id, k) ∈ s.db.tokenLocks)
  own_locks : ∀ id, (id, i) ∈ s'.db.tokenLocks → (id, i) ∈ s.db.tokenLocks ∨
    ∀ k, (id, k) ∉ s.db.tokenLocks
  terminating : ∀ k, k ≠ i → s'.history.terminating k = s.history.terminating k
  own_terminating : ∀ u ids, s'.history.terminating i = some (u, ids) →
    s.history.terminating i = some (u, ids) ∨ ∀ id ∈ ids, ∃ r ∈ s.db.refreshTokens, r.id = id
  terminated : ∀ x ∈ s.history.terminated, x ∈ s'.history.terminated

theorem Later.refl {i : Nat} {s : AppState} (r : RefreshTokenRecord) : Later i s r r :=
  ⟨rfl, rfl, rfl, .inl rfl, .inl rfl⟩

theorem tokenLocked_iff {s : AppState} {id : Uuid} :
    tokenLocked s id = true ↔ ∃ k, (id, k) ∈ s.db.tokenLocks := by
  simp [tokenLocked]

theorem not_mem_locks {s : AppState} {id : Uuid} (h : tokenLocked s id = false) (k : Nat) :
    (id, k) ∉ s.db.tokenLocks := by
  intro hk
  rw [tokenLocked_iff.mpr ⟨k, hk⟩] at h
  cases h

theorem mem_releaseLocks {s : AppState} {i k : Nat} (hk : k ≠ i) {id : Uuid} :
    (id, k) ∈ s.db.tokenLocks.filter (fun l => l.2 ≠ i) ↔ (id, k) ∈ s.db.tokenLocks := by
  simp [hk]

/-- The frame of an action that only changes the history, and links nothing. -/
theorem SessionFrame.of_history {i : Nat} {s s' : AppState}
    (ht : s'.db.refreshTokens = s.db.refreshTokens) (hl : s'.db.tokenLocks = s.db.tokenLocks)
    (hi : s'.history.issued = s.history.issued ∨
      ∃ id, ¬ Issued s id ∧ s'.history.issued = (id, i) :: s.history.issued)
    (hc : s.history.checks ≤ s'.history.checks)
    (hm : ∀ c ∈ s'.history.minted, c ∈ s.history.minted ∨
      c.origin < s.history.checks ∧ (c.tokenType = .refresh → Spendable i c.jti c.sub s))
    (hmm : ∀ c ∈ s.history.minted, c ∈ s'.history.minted)
    (hr : s'.history.rotations = s.history.rotations)
    (hk : ∀ k, k ≠ i → s'.history.terminating k = s.history.terminating k)
    (hok : ∀ u ids, s'.history.terminating i = some (u, ids) →
      s.history.terminating i = some (u, ids) ∨ ∀ id ∈ ids, ∃ r ∈ s.db.refreshTokens, r.id = id)
    (htd : ∀ x ∈ s.history.terminated, x ∈ s'.history.terminated) : SessionFrame i s s' where
  issued := hi
  checks := hc
  minted := hm
  minted_mono := hmm
  rotations := .inl hr
  rows r hr := .inl ⟨r, by rwa [ht] at hr, .refl r⟩
  kept r hr _ _ _ := by rwa [ht]
  locks id k _ := by rw [hl]
  own_locks id hid := .inl (by rwa [hl] at hid)
  terminating := hk
  own_terminating := hok
  terminated := htd

/-- The frame of an action that leaves the history alone. -/
theorem SessionFrame.of_rows {i : Nat} {s s' : AppState} (hh : s'.history = s.history)
    (hr : ∀ r' ∈ s'.db.refreshTokens,
      (∃ r ∈ s.db.refreshTokens, Later i s' r r') ∨ NewToken i s s' r')
    (hk : ∀ r ∈ s.db.refreshTokens, ∀ k, k ≠ i → (r.id, k) ∈ s.db.tokenLocks →
      r ∈ s'.db.refreshTokens)
    (hl : ∀ id k, k ≠ i → ((id, k) ∈ s'.db.tokenLocks ↔ (id, k) ∈ s.db.tokenLocks))
    (hol : ∀ id, (id, i) ∈ s'.db.tokenLocks → (id, i) ∈ s.db.tokenLocks ∨
      ∀ k, (id, k) ∉ s.db.tokenLocks) : SessionFrame i s s' where
  issued := .inl (by rw [hh])
  checks := by rw [hh]
  minted c hc := .inl (by rwa [hh] at hc)
  minted_mono c hc := by rwa [hh]
  rotations := .inl (by rw [hh])
  rows := hr
  kept := hk
  locks := hl
  own_locks := hol
  terminating k _ := by rw [hh]
  own_terminating u ids h := .inl (by rwa [hh] at h)
  terminated x hx := by rwa [hh]

/-- Tokens that no other call has locked may be revoked. -/
theorem later_revoked {i : Nat} {s' : AppState} {r : RefreshTokenRecord} {p : Bool} {now : Time} :
    Later i s' r (if p then coalesceRevoked now r else r) := by
  cases p with
  | false => exact .refl r
  | true => exact ⟨rfl, rfl, rfl, .inr (by simp [coalesceRevoked]), .inl rfl⟩

theorem SessionAction.frame {i : Nat} {l : Event} {e : Env} {s s' : AppState} (hi : SessionInv s)
    (h : SessionAction i l e s s') : SessionFrame i s s' := by
  cases h with
  | quiet h =>
      refine .of_history h.tokens h.locks (.inl h.issued) (by rw [h.checks]) (fun c hc => .inl ?_)
        (fun c hc => ?_) h.rotations (fun k _ => by rw [h.terminating]) (fun u ids hu => .inl ?_)
        fun x hx => ?_
      · rwa [h.minted] at hc
      · rwa [h.minted]
      · rwa [h.terminating] at hu
      · rwa [h.terminated]
  | issue hf =>
      exact .of_history rfl rfl (.inr ⟨_, hf, rfl⟩) (Nat.le_refl _) (fun _ hc => .inl hc)
        (fun _ hc => hc) rfl (fun _ _ => rfl) (fun _ _ h => .inl h) fun _ hx => hx
  | check =>
      exact .of_history rfl rfl (.inl rfl) (Nat.le_succ _) (fun _ hc => .inl hc)
        (fun _ hc => hc) rfl (fun _ _ => rfl) (fun _ _ h => .inl h) fun _ hx => hx
  | mint ho hu =>
      -- New in the history is the token minted here; whom it is for the action says.
      refine .of_history rfl rfl (.inl rfl) (Nat.le_refl _) (fun c hc => ?_)
        (fun _ hc => List.mem_append_right _ hc) rfl (fun _ _ => rfl) (fun _ _ h => .inl h)
        fun _ hx => hx
      rcases List.mem_append.mp hc with hc | hc
      · exact .inr ⟨ho c hc, hu c hc⟩
      · exact .inl hc
  | insert hf hu ho hr hp ht hl hh =>
      refine .of_rows hh (fun r' hr' => ?_) (fun r hr k _ _ => (ht r).mpr (.inl hr))
        (fun id k _ => by rw [hl]) fun id hid => .inl (by rwa [hl] at hid)
      rcases (ht r').mp hr' with hr' | rfl
      · exact .inl ⟨r', hr', .refl r'⟩
      · exact .inr ⟨hu, by rw [hh], ho, hp⟩
  | snapshot =>
      refine .of_history rfl rfl (.inl rfl) (Nat.le_refl _) (fun _ hc => .inl hc)
        (fun _ hc => hc) rfl (fun k hk => Function.update_of_ne hk _ _) (fun u ids h => .inr ?_)
        fun _ hx => hx
      simp only [Function.update_self, Option.some.injEq, Prod.mk.injEq] at h
      obtain ⟨-, rfl⟩ := h
      intro id hid
      exact List.mem_map.mp hid
  | revoke hp =>
      -- Rows that other calls have locked are not revoked: the statement waits for the locks.
      refine .of_rows rfl (fun r' hr' => .inl ?_) (fun r hr k _ hk => ?_) (fun _ _ _ => Iff.rfl)
        fun _ h => .inl h
      · simp only [Table.mem_update] at hr'
        obtain ⟨r, hr, rfl⟩ := hr'
        exact ⟨r, hr, later_revoked⟩
      · refine Table.mem_update_of_false hr ?_
        by_contra hpr
        exact not_mem_locks (hp r hr (by simpa using hpr)) k hk
  | purge hp =>
      refine .of_rows rfl (fun r' hr' => .inl ⟨r', (Table.mem_delete.mp hr').1, .refl r'⟩)
        (fun r hr k _ hk => Table.mem_delete.mpr ⟨hr, ?_⟩) (fun _ _ _ => Iff.rfl)
        fun _ h => .inl h
      by_contra hpr
      exact not_mem_locks (hp r hr (by simpa using hpr)) k hk
  | lock hm hf =>
      refine .of_rows rfl (fun r hr => .inl ⟨r, hr, .refl r⟩) (fun r hr _ _ _ => hr)
        (fun id k hk => ?_) fun id hid => ?_
      · simp [hk]
      · rcases List.mem_cons.mp hid with hid | hid
        · obtain ⟨rfl, -⟩ := Prod.mk.inj hid
          exact .inr (not_mem_locks hf)
        · exact .inl hid
  | unlock =>
      refine .of_rows rfl (fun r hr => .inl ⟨r, hr, .refl r⟩) (fun r hr _ _ _ => hr)
        (fun id k hk => mem_releaseLocks hk) fun id hid => ?_
      simp [releaseLocks] at hid
  | @rotate _ _ _ _ old row now hk hm hv hu hus ho hr hp ht hl hh =>
      have hne : ∀ r ∈ s.db.refreshTokens, r.id ≠ row.id := hu.no_token
      -- The row that is replaced, the one that replaces it, and then all rows.
      refine ⟨.inl (by rw [hh]), by rw [hh], fun c hc => .inl (by rwa [hh] at hc),
        fun c hc => by rwa [hh], .inr ⟨old, row.id, hm, hv, hu, by rw [hh], ?_, ?_⟩, ?_, ?_, ?_, ?_,
        fun k _ => by rw [hh], fun u ids h => .inl (by rwa [hh] at h), fun x hx => by rwa [hh]⟩
      · intro r hr' hid
        rcases (ht r).mp hr' with ⟨r₀, h₀, rfl⟩ | rfl
        · split
          · exact ⟨by simp [Db.rotated], rfl⟩
          · rename_i hne'
            rw [if_neg hne'] at hid
            exact absurd hid hne'
        · exact absurd hid.symm (hne old hm)
      · intro r hr' hid
        rcases (ht r).mp hr' with ⟨r₀, h₀, rfl⟩ | rfl
        · refine absurd ?_ (hne r₀ h₀)
          rw [← hid]
          split <;> rfl
        · exact hus
      · intro r' hr'
        rcases (ht r').mp hr' with ⟨r₀, h₀, rfl⟩ | rfl
        · refine .inl ⟨r₀, h₀, ?_⟩
          split
          · rename_i hid
            refine ⟨rfl, rfl, rfl, .inr (by simp [Db.rotated]), .inr ⟨row.id, rfl, ?_⟩⟩
            simp [hh, hid]
          · exact .refl r₀
        · exact .inr ⟨hu, by rw [hh], ho ▸ hi.token_origin old hm, hp⟩
      · intro r hr' k hki hlk
        refine (ht r).mpr (.inl ⟨r, hr', ?_⟩)
        have hne' : r.id ≠ old.id := fun hid =>
          hki (hi.lock_once _ _ _ (hid ▸ hlk) hk)
        simp [hne']
      · intro id k hki
        rw [hl]
        exact mem_releaseLocks hki
      · intro id hid
        rw [hl] at hid
        simp at hid
  | returned =>
      refine .of_history rfl rfl (.inl rfl) (Nat.le_refl _) (fun _ hc => .inl hc)
        (fun _ hc => hc) rfl (fun k hk => Function.update_of_ne hk _ _) (fun u ids h => ?_)
        fun x hx => ?_
      · simp [History.returned] at h
      · simp only [History.returned]
        split
        · exact List.mem_cons_of_mem _ hx
        · exact hx
  | abandoned =>
      refine .of_history rfl rfl (.inl rfl) (Nat.le_refl _) (fun _ hc => .inl hc)
        (fun _ hc => hc) rfl (fun k hk => Function.update_of_ne hk _ _) (fun u ids h => ?_)
        fun _ hx => hx
      simp [History.abandoned] at h

/-! ### The invariant is kept -/

section Frame

variable {i : Nat} {s s' : AppState} (hi : SessionInv s) (h : SessionFrame i s s')

include h in
theorem SessionFrame.issued_mono {id : Uuid} {k : Nat} (hk : (id, k) ∈ s.history.issued) :
    (id, k) ∈ s'.history.issued := by
  rcases h.issued with he | ⟨x, -, he⟩
  · rwa [he]
  · rw [he]
    exact List.mem_cons_of_mem _ hk

include h in
theorem SessionFrame.issued' {id : Uuid} (hid : Issued s id) : Issued s' id :=
  hid.imp fun _ => h.issued_mono

include h in
theorem SessionFrame.rotations_mono {x : Uuid × Uuid × Nat} (hx : x ∈ s.history.rotations) :
    x ∈ s'.history.rotations := by
  rcases h.rotations with he | ⟨_, _, hn⟩
  · rwa [he]
  · rw [hn.rotations]
    exact List.mem_cons_of_mem _ hx

theorem NewLink.replaced_iff {old : RefreshTokenRecord} {b : Uuid} (hn : NewLink i s s' old b)
    {x y : Uuid} : Replaced s' x y ↔ link (Replaced s) old.id b x y := by
  simp only [Replaced, hn.rotations, List.mem_cons, Prod.mk.injEq, link]
  constructor
  · rintro ⟨k, ⟨rfl, rfl, -⟩ | hk⟩
    · exact .inr ⟨rfl, rfl⟩
    · exact .inl ⟨k, hk⟩
  · rintro (⟨k, hk⟩ | ⟨rfl, rfl⟩)
    · exact ⟨k, .inr hk⟩
    · exact ⟨i, .inl ⟨rfl, rfl, rfl⟩⟩

include hi in
/-- A token that is not revoked is the end of its chain. -/
theorem SessionInv.isEnd {r : RefreshTokenRecord} (hr : r ∈ s.db.refreshTokens)
    (ha : r.revokedAt = none) : IsEnd (Replaced s) r.id :=
  fun b hb => (hi.rotated r.id b hb r hr rfl).1 ha

include hi h in
theorem SessionFrame.chains : Chains (Replaced s') := by
  rcases h.rotations with he | ⟨old, b, hn⟩
  · have : Replaced s' = Replaced s := by
      funext x y
      simp only [Replaced, he]
    rw [this]
    exact hi.chains
  · have : Replaced s' = link (Replaced s) old.id b := by
      funext x y
      exact propext hn.replaced_iff
    rw [this]
    exact hi.chains.extend (hi.isEnd hn.mem hn.active) hn.unspent.no_link
      (hn.unspent.no_token old hn.mem)

include hi h in
theorem SessionFrame.rotated_once {a b c : Uuid} {j k : Nat}
    (hb : (a, b, j) ∈ s'.history.rotations) (hc : (a, c, k) ∈ s'.history.rotations) : j = k := by
  rcases h.rotations with he | ⟨old, b', hn⟩
  · rw [he] at hb hc
    exact hi.rotated_once a b c j k hb hc
  · have hend := hi.isEnd hn.mem hn.active
    simp only [hn.rotations, List.mem_cons, Prod.mk.injEq] at hb hc
    rcases hb with ⟨rfl, rfl, rfl⟩ | hb
    · rcases hc with ⟨-, -, rfl⟩ | hc
      · rfl
      · exact absurd ⟨k, hc⟩ (hend c)
    · rcases hc with ⟨rfl, rfl, rfl⟩ | hc
      · exact absurd ⟨j, hb⟩ (hend b)
      · exact hi.rotated_once a b c j k hb hc

include hi h in
theorem SessionFrame.rotated {a b : Uuid} (hab : Replaced s' a b) {r' : RefreshTokenRecord}
    (hr' : r' ∈ s'.db.refreshTokens) (hid : r'.id = a) :
    r'.revokedAt ≠ none ∧ r'.replacedBy = some b := by
  -- A link of before is that of the token's earlier self, and its `replaced_by` can only have
  -- become another link, which by the chains is the same.
  have old : Replaced s a b → r'.revokedAt ≠ none ∧ r'.replacedBy = some b := by
    intro hab₀
    rcases h.rows r' hr' with ⟨r, hr, hl⟩ | hnew
    · obtain ⟨hv, hp⟩ := hi.rotated a b hab₀ r hr (hl.id ▸ hid)
      constructor
      · rcases hl.active with rfl | hv'
        · exact hv
        · exact hv'
      · rcases hl.replacedBy with hp' | ⟨b', hp', hb'⟩
        · rw [hp', hp]
        · rw [hp', (h.chains hi).succ_unique a b' b ⟨i, by rwa [← hid, hl.id]⟩ hab]
    · exact absurd (hid ▸ hab₀) (hnew.unspent.no_link b).1
  rcases h.rotations with he | ⟨o, b', hn⟩
  · exact old (by simpa only [Replaced, he] using hab)
  · rcases hn.replaced_iff.mp hab with hab | ⟨rfl, rfl⟩
    · exact old hab
    · exact hn.revoked r' hr' hid

include hi h in
theorem SessionFrame.same_user {a b : Uuid} (hab : Replaced s' a b) {r t : RefreshTokenRecord}
    (hr : r ∈ s'.db.refreshTokens) (ht : t ∈ s'.db.refreshTokens) (hra : r.id = a)
    (htb : t.id = b) : r.userId = t.userId := by
  have old : Replaced s a b → r.userId = t.userId := by
    intro hab₀
    rcases h.rows r hr with ⟨r₀, hr₀, hlr⟩ | hnew
    · rcases h.rows t ht with ⟨t₀, ht₀, hlt⟩ | hnew
      · rw [hlr.userId, hlt.userId]
        exact hi.same_user a b hab₀ r₀ hr₀ t₀ ht₀ (hlr.id ▸ hra) (hlt.id ▸ htb)
      · exact absurd (htb ▸ hab₀) (hnew.unspent.no_link a).2
    · exact absurd (hra ▸ hab₀) (hnew.unspent.no_link b).1
  rcases h.rotations with he | ⟨o, b', hn⟩
  · exact old (by simpa only [Replaced, he] using hab)
  · rcases hn.replaced_iff.mp hab with hab | ⟨rfl, rfl⟩
    · exact old hab
    · rcases h.rows r hr with ⟨r₀, hr₀, hlr⟩ | hnew
      · rw [hlr.userId, Table.eq_of_key hr₀ hn.mem (hlr.id ▸ hra), hn.user t ht htb]
      · exact absurd hra.symm (hnew.unspent.no_token o hn.mem)

include hi h in
theorem SessionFrame.minted_user {c : TokenClaims} (hc : c ∈ s'.history.minted)
    (ht : c.tokenType = .refresh) {r' : RefreshTokenRecord} (hr' : r' ∈ s'.db.refreshTokens)
    (hid : r'.id = c.jti) : r'.userId = c.sub := by
  rcases h.rows r' hr' with ⟨r, hr, hl⟩ | hnew
  · rw [hl.userId]
    rw [hl.id] at hid
    rcases h.minted c hc with hc | ⟨-, hsp⟩
    · exact hi.minted_user c hc ht r hr hid
    · exact (hsp ht).user r hr hid
  · rw [hnew.minted] at hc
    exact absurd hid.symm (hnew.unspent.no_minted c hc ht)

include hi h in
theorem SessionFrame.lock_once {id : Uuid} {j k : Nat} (hj : (id, j) ∈ s'.db.tokenLocks)
    (hk : (id, k) ∈ s'.db.tokenLocks) : j = k := by
  -- A lock of call `i` is one it had, or nobody else has one.
  have own : ∀ m, (id, i) ∈ s'.db.tokenLocks → (id, m) ∈ s'.db.tokenLocks → i = m := by
    intro m hi' hm
    by_contra hne
    have hm₀ := (h.locks id m (Ne.symm hne)).mp hm
    rcases h.own_locks id hi' with h₀ | h₀
    · exact hne (hi.lock_once id i m h₀ hm₀)
    · exact h₀ m hm₀
  by_cases hji : j = i
  · subst hji
    exact own k hj hk
  · by_cases hki : k = i
    · subst hki
      exact (own j hk hj).symm
    · exact hi.lock_once id j k ((h.locks id j hji).mp hj) ((h.locks id k hki).mp hk)

include hi h in
/-- The frame keeps the invariant. -/
theorem SessionFrame.inv : SessionInv s' where
  issued_once := by
    rcases h.issued with he | ⟨id, hf, he⟩
    · simpa only [IssuedOnce, he] using hi.issued_once
    · simpa only [IssuedOnce, he] using hi.issued_once.cons hf
  token_issued r' hr' := by
    rcases h.rows r' hr' with ⟨r, hr, hl⟩ | hnew
    · exact hl.id ▸ h.issued' (hi.token_issued r hr)
    · exact h.issued' ⟨i, hnew.unspent.issued⟩
  minted_issued c hc ht := by
    rcases h.minted c hc with hc | ⟨-, hsp⟩
    · exact h.issued' (hi.minted_issued c hc ht)
    · exact h.issued' ⟨i, (hsp ht).issued⟩
  rotation_issued a b hab := by
    -- What replaced a token before still does; a rotation adds one pair to that.
    have old : Replaced s a b → Issued s' a ∧ Issued s' b := fun hab =>
      ⟨h.issued' (hi.rotation_issued a b hab).1, h.issued' (hi.rotation_issued a b hab).2⟩
    rcases h.rotations with he | ⟨o, b', hn⟩
    · exact old (by simpa only [Replaced, he] using hab)
    · rcases hn.replaced_iff.mp hab with hab | ⟨rfl, rfl⟩
      · exact old hab
      · exact ⟨h.issued' (hi.token_issued o hn.mem), h.issued' ⟨i, hn.unspent.issued⟩⟩
  known_issued k u ids hk id hid := by
    have old : s.history.terminating k = some (u, ids) → Issued s' id := fun hk =>
      h.issued' (hi.known_issued k u ids hk id hid)
    by_cases hki : k = i
    · subst hki
      rcases h.own_terminating u ids hk with hk | hk
      · exact old hk
      · obtain ⟨r, hr, rfl⟩ := hk id hid
        exact h.issued' (hi.token_issued r hr)
    · exact old ((h.terminating k hki).symm.trans hk)
  lock_once _ _ _ := h.lock_once hi
  minted_user c hc ht r hr := h.minted_user hi hc ht hr
  token_origin r' hr' := by
    refine lt_of_lt_of_le ?_ h.checks
    rcases h.rows r' hr' with ⟨r, hr, hl⟩ | hnew
    · exact hl.origin ▸ hi.token_origin r hr
    · exact hnew.origin
  minted_origin c hc := by
    refine lt_of_lt_of_le ?_ h.checks
    rcases h.minted c hc with hc | ⟨ho, -⟩
    · exact hi.minted_origin c hc
    · exact ho
  chains := h.chains hi
  rotated_once _ _ _ _ _ := h.rotated_once hi
  rotated _ _ hab _ hr := h.rotated hi hab hr
  replaced r' hr' b hb := by
    rcases h.rows r' hr' with ⟨r, hr, hl⟩ | hnew
    · rw [hl.id]
      rcases hl.replacedBy with hp | ⟨b', hp, hb'⟩
      · obtain ⟨k, hk⟩ := hi.replaced r hr b (hp ▸ hb)
        exact ⟨k, h.rotations_mono hk⟩
      · obtain rfl := Option.some.inj (hb.symm.trans hp)
        exact ⟨i, hb'⟩
    · rw [hnew.replacedBy] at hb
      cases hb
  same_user _ _ hab _ hr _ ht := h.same_user hi hab hr ht

end Frame

/-! ### The contract -/

/-- The contract: every statement is a `SessionAction`. -/
def sessionContract : Contract Event Env AppState where
  inv := SessionInv
  guar := SessionAction
  adm i l e s := admissible i l e s = true
  guar_inv hi h := (h.frame hi).inv hi

end Fluxa
