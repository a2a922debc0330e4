import Fluxa.Accounts.Mails
import Fluxa.Accounts.Tokens
import Fluxa.State.Clock

/-!
# Accounts — the address of a reset token

A reset token is mailed to the address that the user has when it is requested.  A change of address invalidates the verification tokens of the user, but not the reset tokens: one that is outstanding can still be used by whoever reads the mail of the old address.

* **`resets_stay_current`**: a reset token is consumed only for the address it was delivered to, in every run in which no user is given another address while a reset token is outstanding, and none is issued for an address the user has left.
* **`old_mailbox_resets_password`**: a token is requested, the address is changed, and the token resets the password.
-/

namespace Fluxa.Accounts
open Interleave Relational Db Contract

/-! ### The system -/

inductive ResetCall where
  | requestPasswordReset (email : String)
  | changeEmail (bearer : Jwt) (currentPassword newEmail : String)
  | changePassword (bearer : Jwt) (currentPassword newPassword : String)
  | confirmPasswordReset (token newPassword : String)

def ResetCall.body (app : App) : ResetCall → Service Unit
  | .requestPasswordReset email => Http.requestPasswordReset app email
  | .changeEmail bearer currentPassword newEmail => do
    let _ ← Http.changeEmail app bearer currentPassword newEmail
    return ()
  | .changePassword bearer currentPassword newPassword =>
    Http.changePassword app bearer currentPassword newPassword
  | .confirmPasswordReset token newPassword => Http.confirmPasswordReset app token newPassword

/-- Any number of these calls, side by side. -/
def resetSystem (app : App) : System Event Env AppState AppError ResetCall Unit :=
  ⟨ResetCall.body app, admissible⟩

/-! ### What is asked -/

/-- The token was delivered to the address that its user has. -/
def Delivered (s : AppState) (t : UserTokenRecord) : Prop :=
  ∀ u ∈ s.db.users, u.id = t.userId → u.email = t.address

/-- If the step consumes a reset token, it was delivered to the address that its user has. -/
def ConsumesDelivered (s s' : AppState) : Prop :=
  ∀ id i, s'.history.uses = (id, i) :: s.history.uses →
    ∀ t ∈ s.db.userTokens, t.id = id → t.kind = .passwordReset → Delivered s t

/-- A reset token of the user is neither used nor expired. -/
def ResetOutstanding (s : AppState) (userId : Uuid) (now : Time) : Prop :=
  ∃ t ∈ s.db.userTokens, isPending userId .passwordReset t = true ∧ now < t.expiresAt

/-- Nobody but the user has the address. -/
def FreeFor (s : AppState) (userId : Uuid) (email : String) : Prop :=
  ∀ v ∈ s.db.users, v.email = email → v.id = userId

/-- If the statement gives a user another address, no reset token of the user is outstanding. -/
def NoneOutstanding (_ : Nat) : Event → Env → AppState → Prop
  | .setEmail userId email, e, s => e.fault ≠ .failed → FreeFor s userId email →
    ∀ u ∈ s.db.users, u.id = userId → u.email ≠ email → ¬ ResetOutstanding s userId e.now
  | _, _, _ => True

/-- If the statement issues a reset token, it is for the address that the user has. -/
def IssuedCurrent (_ : Nat) : Event → Env → AppState → Prop
  | .issueUserToken id userId .passwordReset tokenHash address _, e, s => e.fault ≠ .failed →
    ¬ Taken s id tokenHash → ∀ u ∈ s.db.users, u.id = userId → u.email = address
  | _, _, _ => True

/-- Every reset token was delivered to the address that its user has, unless it is used, or will
have expired at the times given. -/
def ResetsDelivered (later : List Time) (s : AppState) : Prop :=
  ∀ t ∈ s.db.userTokens, t.kind = .passwordReset → t.usedAt = none →
    Delivered s t ∨ ∀ now ∈ later, t.expiresAt ≤ now

/-! ### What a statement does to the addresses -/

/-- Every user of `s'` is one of `s`, with the same address. -/
def SameAddresses (s s' : AppState) : Prop :=
  ∀ u' ∈ s'.db.users, ∃ u ∈ s.db.users, u.id = u'.id ∧ u.email = u'.email

theorem SameAddresses.of_eq {s s' : AppState} (h : s'.db.users = s.db.users) :
    SameAddresses s s' :=
  fun u' hu => ⟨u', h ▸ hu, rfl, rfl⟩

/-- What a statement does to the addresses of users. -/
inductive AddressAction : Event → Env → AppState → AppState → Prop where
  | keep {l e s s'} (h : SameAddresses s s') : AddressAction l e s s'
  | set {e s s' userId email} (hf : e.fault ≠ .failed) (hfree : FreeFor s userId email)
      (h : ∀ u' ∈ s'.db.users, ∃ u ∈ s.db.users, u.id = u'.id ∧
        (u.email = u'.email ∨ u'.id = userId ∧ u'.email = email)) :
      AddressAction (.setEmail userId email) e s s'

section Actions

variable {i : Nat} {l : Event} {e : Env} {s s' : AppState}

theorem SameAddresses.delivered (h : SameAddresses s s') {t t' : UserTokenRecord}
    (hu : t'.userId = t.userId) (ha : t'.address = t.address) (ht : Delivered s t) :
    Delivered s' t' := by
  intro u' hu' hid
  obtain ⟨u, hmem, huid, hue⟩ := h u' hu'
  rw [← hue, ha]
  exact ht u hmem (huid.trans (hid.trans hu))

/-- Addresses change only for users without an outstanding reset token. -/
theorem AddressAction.delivered (h : AddressAction l e s s') (hnone : NoneOutstanding i l e s)
    {t t' : UserTokenRecord} (hmem : t ∈ s.db.userTokens) (hk : t.kind = .passwordReset)
    (hn : t.usedAt = none) (hlive : e.now < t.expiresAt) (hu : t'.userId = t.userId)
    (ha : t'.address = t.address) (ht : Delivered s t) : Delivered s' t' := by
  cases h with
  | keep h => exact h.delivered hu ha ht
  | @set _ _ _ userId email hf hfree h =>
      intro u' hu' hid
      obtain ⟨u, humem, huid, he | ⟨hset, he⟩⟩ := h u' hu'
      · rw [← he, ha]
        exact ht u humem (huid.trans (hid.trans hu))
      · -- The token is outstanding, so the address that is set is the one the user has.
        have hown : t.userId = userId := hu.symm.trans (hid.symm.trans hset)
        by_contra hne
        have hother : u.email ≠ email := by
          intro hsame
          rw [he, ← hsame, ha] at hne
          exact hne (ht u humem (huid.trans (hid.trans hu)))
        refine hnone hf hfree u humem (huid.trans hset) hother ⟨t, hmem, ?_, hlive⟩
        exact isPending_iff.mpr ⟨hown, hk, hn⟩

/-- One step keeps the outstanding reset tokens those delivered to the addresses that their users
have. -/
theorem ResetsDelivered.step {later : List Time} (hs : ResetsDelivered (e.now :: later) s)
    (ht : TokenAction i l e s s') (ha : AddressAction l e s s') (hnone : NoneOutstanding i l e s)
    (hissued : IssuedCurrent i l e s) (hlater : ∀ now ∈ later, e.now ≤ now) :
    ResetsDelivered later s' := by
  intro t' hmem hk hn
  obtain ⟨f, new, hf, hrows, hnew⟩ := ht.rows
  rw [Table.mem_def, hrows, List.mem_append] at hmem
  rcases hmem with hmem | hmem
  · obtain ⟨t, ht₀, rfl⟩ := List.mem_map.mp hmem
    rw [hf.kind] at hk
    have hunused : t.usedAt = none := by
      by_contra hused
      exact hf.usedAt t hused hn
    by_cases hlive : e.now < t.expiresAt
    · rcases hs t ht₀ hk hunused with hd | hexp
      · exact .inl (ha.delivered hnone ht₀ hk hunused hlive (hf.userId t) (hf.address t) hd)
      · exact absurd hlive (not_lt.mpr (hexp e.now List.mem_cons_self))
    · refine .inr fun now hnow => ?_
      rw [hf.expiresAt]
      exact (not_lt.mp hlive).trans (hlater now hnow)
  · obtain ⟨-, -, htaken, hfault, known, rfl⟩ := hnew t' hmem
    refine .inl ?_
    cases ha with
    | keep h =>
        rw [hk] at hissued
        exact h.delivered rfl rfl (hissued hfault htaken)

/-- What a statement consumes is outstanding. -/
theorem ResetsDelivered.consumes {later : List Time} (hs : ResetsDelivered (e.now :: later) s)
    (ht : TokenAction i l e s s') : ConsumesDelivered s s' := by
  intro id j huse t hmem hid hk
  cases ht with
  | keep _ hu => exact absurd (huse.symm.trans hu) (List.cons_ne_self _ _)
  | issue _ _ _ _ hu => exact absurd (huse.symm.trans hu) (List.cons_ne_self _ _)
  | @consume _ _ _ kind tokenHash t₀ hmem₀ hc hrows hu =>
      have hid₀ : t₀.id = id := by
        rw [hu, List.cons.injEq, Prod.mk.injEq] at huse
        exact huse.1.1
      obtain rfl := Table.eq_of_key hmem hmem₀ (hid.trans hid₀.symm)
      obtain ⟨-, -, hn, hlive⟩ := isConsumable_iff.mp hc
      rcases hs t hmem hk hn with hd | hexp
      · exact hd
      · exact absurd hlive (not_lt.mpr (hexp e.now List.mem_cons_self))

end Actions

/-! ### The calls keep to it -/

/-- The contract: every statement is an `AddressAction`. -/
def addressContract : Contract Event Env AppState where
  inv _ := True
  guar _ := AddressAction
  adm _ _ _ _ := True
  guar_inv _ _ := trivial

/-- The contract: every statement is a `TokenAction` as well. -/
def resetContract : Contract Event Env AppState := tokenContract.both addressContract

theorem addressContract_tolerant : Tolerant addressContract where
  stay _ _ _ _ _ _ := .keep (.of_eq rfl)
  bystander _ _ _ _ _ h := .keep (.of_eq h.users)
  issue _ _ _ _ _ := .keep (.of_eq rfl)

theorem resetContract_tolerant : Tolerant resetContract :=
  tokenContract_tolerant.both addressContract_tolerant

section Calls

variable {app : App} {i : Nat} {A : Type}

/-- The two states have the same tokens, consumptions and addresses. -/
structure ResetApart (s s' : AppState) : Prop where
  userTokens : s'.db.userTokens = s.db.userTokens
  uses : s'.history.uses = s.history.uses
  addresses : SameAddresses s s'

theorem ResetApart.refl (s : AppState) : ResetApart s s := ⟨rfl, rfl, .of_eq rfl⟩

/-- A statement that is about none of these. -/
theorem resetContract_apart {e : Env} {s s' : AppState} (h : ResetApart s s') :
    resetContract.guar i .quiet e s s' :=
  ⟨.keep h.userTokens h.uses issuesNone_of_quiet, .keep h.addresses⟩

theorem sql_reset {run : Env → AppState → Except AppError A × AppState}
    (h : ∀ e s, ResetApart s (run e s).2) : resetContract.Safe i (sql .quiet run) :=
  sql_safe resetContract_tolerant fun s e _ _ _ => resetContract_apart (h e s)

theorem createUserToken_reset {userId : Uuid} {kind : TokenKind} {tokenHash address : String}
    {expiresAt : Time} :
    resetContract.Safe i (createUserToken userId kind tokenHash expiresAt address) := by
  refine createUserToken_safe.both ?_
  refine .bind (select_safe addressContract_tolerant) fun known => ?_
  refine .bind (newUuid_safe addressContract_tolerant) fun id => ?_
  refine sql_safe addressContract_tolerant fun s e _ _ _ => .keep (.of_eq ?_)
  dsimp only
  split
  · rfl
  · split <;> rfl

theorem enqueueNotification_reset {n : NewNotification} {maxAttempts : Nat} :
    resetContract.Safe i (enqueueNotification n maxAttempts) :=
  enqueue_safe resetContract_tolerant fun _ _ _ _ _ _ _ =>
    resetContract_apart ⟨rfl, rfl, .of_eq rfl⟩

theorem createAndEnqueueToken_safe {user : UserRecord} {tokenKind : TokenKind}
    {notificationKind : NotificationKind} {ttl : Nat} :
    resetContract.Safe i (createAndEnqueueToken app user tokenKind notificationKind ttl) :=
  .bind (generateRandom_safe resetContract_tolerant) fun _ =>
    .bind (utcNow_safe resetContract_tolerant) fun _ =>
    .bind createUserToken_reset fun _ => .bind enqueueNotification_reset fun _ => .done

theorem updateUserPassword_safe {userId : Uuid} {passwordHash : String} :
    resetContract.Safe i (updateUserPassword userId passwordHash) := by
  refine sql_reset fun e s => ?_
  dsimp only
  split
  · exact .refl s
  · refine ⟨rfl, rfl, fun u' hu' => ?_⟩
    simp only [Table.mem_update, decide_eq_true_eq] at hu'
    obtain ⟨u, hu, rfl⟩ := hu'
    refine ⟨u, hu, ?_⟩
    split <;> exact ⟨rfl, rfl⟩

theorem updateUserEmail_reset {userId : Uuid} {email : String} :
    resetContract.Safe i (updateUserEmail userId email) := by
  refine Safe.both ?_ ?_
  · refine sql_safe tokenContract_tolerant fun s e _ _ _ => .keep ?_ ?_ ?_
    · dsimp only
      split
      · rfl
      · split <;> rfl
    · dsimp only
      split
      · rfl
      · split <;> rfl
    · intro _ _ _ _ _ _ hl
      cases hl
  · refine sql_safe addressContract_tolerant fun s e _ _ hf => ?_
    dsimp only
    split
    · exact .keep (.of_eq rfl)
    · split
      · exact .keep (.of_eq rfl)
      · rename_i hfree
        refine .set hf (fun v hv he => ?_) fun u' hu' => ?_
        · by_contra hne
          refine hfree (Table.any_eq_true.mpr ⟨v, hv, ?_⟩)
          simp [he, hne]
        · simp only [Table.mem_update, decide_eq_true_eq] at hu'
          obtain ⟨u, hu, rfl⟩ := hu'
          refine ⟨u, hu, ?_⟩
          split
          · rename_i hid
            exact ⟨rfl, .inr ⟨hid, rfl⟩⟩
          · exact ⟨rfl, .inl rfl⟩

theorem revokeAll_safe {userId : Uuid} :
    resetContract.Safe i (revokeAllUserRefreshTokens userId) :=
  .bind (utcNow_safe resetContract_tolerant) fun _ => .bind (.bind
    (.atomic fun _ _ _ _ _ => resetContract_apart ⟨rfl, rfl, .of_eq rfl⟩) fun _ =>
      sqlWhen_safe resetContract_tolerant fun _ _ _ _ _ _ =>
        resetContract_apart ⟨rfl, rfl, .of_eq rfl⟩) fun _ => .done

theorem requestPasswordReset_safe {email : String} :
    resetContract.Safe i (Http.requestPasswordReset app email) := by
  refine .bind lift_safe fun email => .bind (select_safe resetContract_tolerant) fun o => ?_
  cases o with
  | none => exact .done
  | some user => exact .bind (.attempt createAndEnqueueToken_safe) fun _ => .done

theorem changeEmail_reset {bearer : Jwt} {currentPassword newEmail : String} :
    resetContract.Safe i (Http.changeEmail app bearer currentPassword newEmail) := by
  have hK := resetContract_tolerant
  refine .bind (protectedMiddleware_safe hK) fun user => .bind lift_safe fun email => ?_
  refine .bind (getUserById_safe hK) fun user => .bind lift_safe fun _ => ?_
  refine .bind updateUserEmail_reset fun updated => .bind (.ite (fun _ => .done) fun _ => ?_) fun _ => ?_
  · exact .bind (.attempt createAndEnqueueToken_safe) fun _ => .done
  · exact .bind (recordEvent_safe hK) fun _ => .done

theorem changePassword_safe {bearer : Jwt} {currentPassword newPassword : String} :
    resetContract.Safe i (Http.changePassword app bearer currentPassword newPassword) := by
  have hK := resetContract_tolerant
  refine .bind (protectedMiddleware_safe hK) fun user => .bind lift_safe fun _ => ?_
  refine .bind (getUserById_safe hK) fun user => .bind lift_safe fun _ => ?_
  refine .bind (hashPassword_safe hK) fun _ => .bind updateUserPassword_safe fun _ => ?_
  exact .bind revokeAll_safe fun _ => recordEvent_safe hK

theorem both_lasting {F : AppState → Prop} (hF : tokenContract.Lasting F) :
    resetContract.Lasting F :=
  fun i l e s s' hi hs hg => hF i l e s s' hi.1 hs hg.1

theorem consumeUserToken_reset {tokenHash : String} :
    resetContract.Triple i (fun _ => True) (consumeUserToken .passwordReset tokenHash)
      (onOk fun _ => HasConsumed i .passwordReset tokenHash) := by
  have haddress : addressContract.Safe i (consumeUserToken .passwordReset tokenHash) := by
    refine sql_safe addressContract_tolerant fun s e _ _ _ => .keep (.of_eq ?_)
    dsimp only
    split <;> rfl
  refine (consumeUserToken_triple.both haddress).conseq (fun _ _ _ => ⟨trivial, trivial⟩) ?_
  rintro (x | t) s - ⟨h, -⟩
  · trivial
  · exact h.1.2

theorem confirmPasswordReset_triple {token newPassword : String} :
    resetContract.Triple i (fun _ => True) (Http.confirmPasswordReset app token newPassword)
      (onOk fun _ => HasConsumed i .passwordReset (app.lib.sha256Hex (trim token))) := by
  have hK := resetContract_tolerant
  have hF : resetContract.Lasting
      (HasConsumed i .passwordReset (app.lib.sha256Hex (trim token))) := both_lasting hasConsumed_lasting
  refine Triple.seq (Q := fun _ _ => True) (Triple.onOk_any Safe.ensure) fun _ => ?_
  refine Triple.seq (Q := fun _ _ => True) (Triple.onOk_any lift_safe) fun _ => ?_
  refine Triple.seq consumeUserToken_reset fun record => ?_
  refine (hashPassword_safe hK).carry_seq hF fun _ => ?_
  refine updateUserPassword_safe.carry_seq hF fun _ => ?_
  exact revokeAll_safe.carry_seq hF fun _ => (recordEvent_safe hK).carry hF

/-- What a call has achieved when it returns: a confirmation has consumed the token presented. -/
def ResetPost (app : App) (i : Nat) : ResetCall → Except AppError Unit → AppState → Prop
  | .confirmPasswordReset token _, .ok (), s =>
    HasConsumed i .passwordReset (app.lib.sha256Hex (trim token)) s
  | _, _, _ => True

theorem resetCall_triple (i : Nat) (k : ResetCall) :
    resetContract.Triple i (fun _ => True) ((resetSystem app).body k) (ResetPost app i k) := by
  cases k with
  | requestPasswordReset => exact requestPasswordReset_safe
  | changeEmail => exact Safe.bind changeEmail_reset fun _ => Safe.done
  | changePassword => exact changePassword_safe
  | confirmPasswordReset =>
      refine confirmPasswordReset_triple.post fun r s _ h => ?_
      cases r with
      | ok u => exact h
      | error x => trivial

end Calls

/-- The calls hand out tokens only in mails to the addresses that the tokens are issued for. -/
theorem resetCall_mails {app : App} {i : Nat} (k : ResetCall) :
    (Mails.mailContract app).Safe i ((resetSystem app).body k) := by
  cases k with
  | requestPasswordReset email => exact Mails.requestPasswordReset_keeps
  | changeEmail bearer currentPassword newEmail =>
      exact Mails.unit_keeps Mails.changeEmail_keeps
  | changePassword bearer currentPassword newPassword => exact Mails.changePassword_keeps
  | confirmPasswordReset token newPassword => exact Mails.confirmPasswordReset_keeps

/-! ### Runs -/

abbrev ResetConfig := Config Event Env AppState AppError ResetCall Unit

/-- What holds when a run starts: hashes are unique, nothing has been noted yet, and unused reset
tokens were delivered to the addresses that their users have. -/
structure ResetStart (s : AppState) : Prop where
  hashes : ∀ a ∈ s.db.userTokens, ∀ b ∈ s.db.userTokens, a.tokenHash = b.tokenHash → a = b
  uses : s.history.uses = []
  delivered : ∀ t ∈ s.db.userTokens, t.kind = .passwordReset → t.usedAt = none → Delivered s t

theorem ResetStart.inv {s : AppState} (h : ResetStart s) : resetContract.inv s := by
  refine ⟨⟨h.hashes, fun id j hj => ?_, ?_⟩, trivial⟩
  · rw [h.uses] at hj
    cases hj
  · rw [h.uses]
    exact List.nodup_nil

/-- What is known in the middle of a run: its remaining moves meet the conditions. -/
structure ResetRemaining (app : App) (ms : List (Move Env ResetCall)) (d : ResetConfig) : Prop where
  keeps : Keeps resetContract (ResetPost app) d
  delivered : ResetsDelivered (times ms) d.st
  clock : Chronological ms
  conditions : (resetSystem app).Along (fun d m => d.Meets NoneOutstanding m ∧
    d.Meets IssuedCurrent m) d ms

theorem ResetRemaining.step {app : App} {m : Move Env ResetCall} {ms : List (Move Env ResetCall)}
    {d d' : ResetConfig} (h : ResetRemaining app (m :: ms) d)
    (hd : (resetSystem app).step d m = some d') : ResetRemaining app ms d' := by
  refine ⟨keeps_step_all resetCall_triple (fun _ _ _ _ ha => ⟨ha, trivial⟩) h.keeps hd, ?_,
    h.clock.tail, h.conditions.2 d' hd⟩
  cases m with
  | call k =>
      obtain rfl := System.step_call hd
      exact h.delivered
  | exec i e =>
      obtain ⟨l, hl, ha⟩ := label_of_step hd
      obtain ⟨ht, haddr⟩ := h.keeps.guar hd hl ⟨ha, trivial⟩
      exact h.delivered.step ht haddr (h.conditions.1.1 i e rfl l hl)
        (h.conditions.1.2 i e rfl l hl) h.clock.le

theorem ResetRemaining.consumes {app : App} {m : Move Env ResetCall}
    {ms : List (Move Env ResetCall)} {d d' : ResetConfig} (h : ResetRemaining app (m :: ms) d)
    (hd : (resetSystem app).step d m = some d') : ConsumesDelivered d.st d'.st := by
  cases m with
  | call k =>
      obtain rfl := System.step_call hd
      exact fun id i huse => absurd huse.symm (List.cons_ne_self _ _)
  | exec i e =>
      obtain ⟨l, hl, ha⟩ := label_of_step hd
      exact h.delivered.consumes (h.keeps.guar hd hl ⟨ha, trivial⟩).1

end Fluxa.Accounts

namespace Fluxa
open Interleave Relational Accounts

/-- In a run in which no user is given another address while a reset token of the user is
outstanding, and no reset token is issued for an address that the user does not have, every reset
token that is consumed was delivered to the address that its user has then; and a confirmation that
succeeds has consumed the token presented.  The address that a token was delivered to is the one
that its mail goes to. -/
theorem resets_stay_current {app : App} {s : AppState} (hs : ResetStart s)
    {ms : List (Move Env ResetCall)} {c : ResetConfig}
    (h : (resetSystem app).exec (.start s) ms = some c) (hclock : Chronological ms)
    (haddress : (resetSystem app).Along (fun d m => d.Meets NoneOutstanding m) (.start s) ms)
    (hissued : (resetSystem app).Along (fun d m => d.Meets IssuedCurrent m) (.start s) ms) :
    (resetSystem app).Along (fun d m => ∀ d', (resetSystem app).step d m = some d' →
        ConsumesDelivered d.st d'.st) (.start s) ms ∧
      (∀ (i : Nat) token newPassword,
        c.calls[i]? = some (.confirmPasswordReset token newPassword, .done (.ok ())) →
        HasConsumed i .passwordReset (app.lib.sha256Hex (trim token)) c.st) ∧
      (Mails.MailInv app s → ∀ n ∈ c.st.db.notifications, ∀ kind : TokenKind,
        n.kind = kind.notification → ∃ token t, Mails.HandsOut app c.st n token t) := by
  have hstart : ResetRemaining app ms (.start s) :=
    ⟨Contract.keeps_start hs.inv, fun t ht hk hn => .inl (hs.delivered t ht hk hn), hclock,
      haddress.and hissued⟩
  refine ⟨System.along_remaining (I := ResetRemaining app) (fun m ms d d' hI hd => hI.step hd)
    (fun m ms d hI d' hd => hI.consumes hd) hstart, fun i token newPassword hi => ?_,
    fun hmails => ?_⟩
  · have hend := System.exec_remaining (I := ResetRemaining app)
      (fun m ms d d' hI hd => hI.step hd) hstart h
    exact hend.keeps.result hi
  · have hkeeps : Contract.Keeps (Mails.mailContract app) (fun _ _ _ _ => True) c :=
      Contract.sound_all (fun _ k => resetCall_mails k) (fun _ _ _ _ _ => trivial) hmails h
    exact hkeeps.1.tokenMails

/-! ### A token for an address that has been left -/

namespace Accounts

/-- A user with the address `a@x`, signed in. -/
def resetToken : Jwt :=
  { sub := 10, tenantId := 1, role := .owner, tokenType := .access, jti := 2, iat := 0, exp := 900,
    origin := 0 }

def signedIn : AppState :=
  { (default : AppState) with
    db := { (default : Database) with
      users := .single ⟨10, "a@x", "h", none, none, 0⟩
      tenants := .single ⟨1, "T", 0⟩
      memberships := .single ⟨1, 10, .owner, 0⟩ }
    history := { (default : History) with minted := [resetToken] } }

/-- The next `n` statements of call `i`, without failures; what they generate is numbered from
`first`, or is the text given. -/
def resetStatements (i n first : Nat) (random : String) : List (Move Env ResetCall) :=
  (List.range n).map fun k => .exec i { (default : Env) with pid := i, uuid := first + k, random }

/-- A user requests a reset, changes the address, and presents the token. -/
def untilConfirmation : List (Move Env ResetCall) :=
  .call (.requestPasswordReset "a@x") :: resetStatements 0 8 100 "token" ++
    .call (.changeEmail resetToken "h" "b@x") :: resetStatements 1 14 200 "other" ++
    [.call (.confirmPasswordReset "token" "correct horse")]

/-- A user requests a reset and completes it. -/
def ownMailboxRun : List (Move Env ResetCall) :=
  .call (.requestPasswordReset "a@x") :: resetStatements 0 8 100 "token" ++
    .call (.confirmPasswordReset "token" "correct horse") :: resetStatements 1 8 300 "salt"

theorem signedIn_resetStart : ResetStart signedIn where
  hashes _ ha := absurd ha Table.not_mem_empty
  uses := rfl
  delivered _ ht := absurd ht Table.not_mem_empty

instance (s : AppState) (userId : Uuid) (email : String) : Decidable (FreeFor s userId email) :=
  inferInstanceAs (Decidable (∀ v ∈ s.db.users.rows, v.email = email → v.id = userId))

instance (s : AppState) (userId : Uuid) (now : Time) : Decidable (ResetOutstanding s userId now) :=
  inferInstanceAs (Decidable (∃ t ∈ s.db.userTokens.rows,
    Db.isPending userId .passwordReset t = true ∧ now < t.expiresAt))

instance (s : AppState) (id : Uuid) (tokenHash : String) : Decidable (Taken s id tokenHash) :=
  inferInstanceAs (Decidable (∃ t ∈ s.db.userTokens.rows, t.id = id ∨ t.tokenHash = tokenHash))

instance (i : Nat) (l : Event) (e : Env) (s : AppState) : Decidable (NoneOutstanding i l e s) := by
  unfold NoneOutstanding
  split
  · exact inferInstanceAs (Decidable (_ → _ → ∀ u ∈ s.db.users.rows, _))
  · infer_instance

instance (i : Nat) (l : Event) (e : Env) (s : AppState) : Decidable (IssuedCurrent i l e s) := by
  unfold IssuedCurrent
  split
  · exact inferInstanceAs (Decidable (_ → _ → ∀ u ∈ s.db.users.rows, _))
  · infer_instance

end Accounts

/-- What is said of runs, of one. -/
theorem resets_stay_current_ownMailbox :
    ∃ c, (resetSystem default).exec (.start signedIn) ownMailboxRun = some c ∧
      (resetSystem default).Along (fun d m => ∀ d', (resetSystem default).step d m = some d' →
        ConsumesDelivered d.st d'.st) (.start signedIn) ownMailboxRun ∧
      ∀ n ∈ c.st.db.notifications, ∀ kind : TokenKind, n.kind = kind.notification →
        ∃ token t, Mails.HandsOut default c.st n token t := by
  have h : ((resetSystem default).exec (.start signedIn) ownMailboxRun).isSome := by
    decide +kernel
  obtain ⟨c, hc⟩ := Option.isSome_iff_exists.mp h
  obtain ⟨hdelivered, -, hmails⟩ := resets_stay_current signedIn_resetStart hc
    (by decide +kernel) (by decide +kernel) (by decide +kernel)
  exact ⟨c, hc, hdelivered, hmails ⟨Table.unique_empty, Table.unique_empty,
    fun _ hn => absurd hn Table.not_mem_empty⟩⟩

/-- The token that was delivered to `a@x` resets the password of the user, who has `b@x`. -/
theorem old_mailbox_resets_password :
    ResetStart signedIn ∧
      ¬ (resetSystem default).Along (fun d m => ∀ d', (resetSystem default).step d m = some d' →
        ConsumesDelivered d.st d'.st) (.start signedIn)
          (untilConfirmation ++ resetStatements 2 1 300 "salt") ∧
      ((resetSystem default).exec (.start signedIn)
        (untilConfirmation ++ resetStatements 2 8 300 "salt")).map (fun c => (c.result? 2).map (·.isOk)) =
        some (some true) := by
  refine ⟨signedIn_resetStart, fun hall => ?_, by decide +kernel⟩
  have hrun : ((resetSystem default).exec (.start signedIn) untilConfirmation).any fun d =>
      ((resetSystem default).step d (.exec 2
        { (default : Env) with pid := 2, uuid := 300, random := "salt" })).any fun d' =>
          d'.st.history.uses = (104, 2) :: d.st.history.uses ∧
          (104, 10, TokenKind.passwordReset, "a@x") ∈
            d.st.db.userTokens.rows.map (fun t => (t.id, t.userId, t.kind, t.address)) ∧
          (10, "b@x") ∈ d.st.db.users.rows.map fun u => (u.id, u.email) := by decide +kernel
  obtain ⟨d, hd, hrun⟩ := (Option.any_eq_true _ _).mp hrun
  obtain ⟨d', hd', hrun⟩ := (Option.any_eq_true _ _).mp hrun
  obtain ⟨huse, htokens, husers⟩ := of_decide_eq_true hrun
  obtain ⟨t, ht, he⟩ := List.mem_map.mp htokens
  obtain ⟨u, hu, heu⟩ := List.mem_map.mp husers
  simp only [Prod.mk.injEq] at he heu
  have hall := System.Along.last hall hd d' hd' 104 2 huse t ht he.1 he.2.2.1 u hu
    (heu.1.trans he.2.1.symm)
  rw [heu.2, he.2.2.2] at hall
  simp at hall

end Fluxa
