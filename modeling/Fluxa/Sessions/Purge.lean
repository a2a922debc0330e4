import Fluxa.Relational.Deletion
import Fluxa.Sessions.Calls
import Fluxa.State.Couplings

/-!
# Sessions — the purge of refresh tokens

Two runs of the same requests one after the other, the second with a purge somewhere between them.  From the purge on, the table of the second run is that of the first without rows that are *dead*: revoked, or expired for every clock that the later requests can read (**`Purged`**).  No reader of the table tells a dead row from a missing one: where a request looks up a dead row, it is turned away with the error that it would get for a missing row, up to the message; every other query and update selects live rows only, or changes rows without telling how many.

So the replies are the same (**`purge_invisible`**), and so are the active tokens afterwards.  The condition on clocks is that no later clock is behind the purge's by more than the retention.
-/

namespace Fluxa
open Interleave Relational Db

/-! ### The requests -/

/-- The requests about refresh tokens, and the purge. -/
inductive TokenCall where
  | refresh (refreshToken : Jwt) (tenantId : Option Uuid)
  | listSessions (bearer : Jwt)
  | revokeSession (bearer : Jwt) (sessionId : Uuid)
  | logout (refreshToken : Jwt) (accessToken : Option Jwt)
  | logoutAllSessions (bearer : Jwt)
  | purgeStaleRefreshTokens (retentionDays : Nat)

def TokenCall.body (app : App) : TokenCall → Service SessionReply
  | .refresh refreshToken tenantId => do return .session (← Fluxa.refresh app refreshToken tenantId)
  | .listSessions bearer => do return .sessions (← Http.listSessions bearer)
  | .revokeSession bearer sessionId => do
    Http.revokeSession app bearer sessionId
    return .done
  | .logout refreshToken accessToken => do
    Fluxa.logout refreshToken accessToken
    return .done
  | .logoutAllSessions bearer => do
    Http.logoutAllSessions bearer
    return .done
  | .purgeStaleRefreshTokens retentionDays => do
    return .purged (← Db.purgeStaleRefreshTokens retentionDays)

/-! ### Replies -/

/-- Equal errors, or both `Unauthorized`. -/
inductive AlikeErrors : AppError → AppError → Prop
  | same (x : AppError) : AlikeErrors x x
  | unauthorized (m m' : String) : AlikeErrors (.unauthorized m) (.unauthorized m')

/-- Equal values; how many rows a purge deletes may differ. -/
inductive AlikeReplies : SessionReply → SessionReply → Prop
  | same (r : SessionReply) : AlikeReplies r r
  | purged (n n' : Nat) : AlikeReplies (.purged n) (.purged n')

/-- Equal results, up to the message of an `Unauthorized` error. -/
inductive Alike : Except AppError SessionReply → Except AppError SessionReply → Prop
  | ok {r r' : SessionReply} (h : AlikeReplies r r') : Alike (.ok r) (.ok r')
  | error {x x' : AppError} (h : AlikeErrors x x') : Alike (.error x) (.error x')

theorem Alike.of_agree {R : AppState → AppState → Prop} {r r' : Except AppError SessionReply}
    {s s' : AppState} (h : Agree AlikeReplies AlikeErrors R r r' s s') : Alike r r' := by
  cases r with
  | ok a =>
      cases r' with
      | ok b => exact .ok h.1
      | error y => exact h.elim
  | error x =>
      cases r' with
      | ok b => exact h.elim
      | error y => exact .error h.1

/-! ### The two states -/

/-- The row is revoked, or expired at time `τ` and ever after. -/
def deadToken (τ : Time) (t : RefreshTokenRecord) : Bool := t.revokedAt.isSome || t.expiresAt ≤ τ

/-- The state with other refresh tokens, and another record of the terminations under way, which
names the rows there were. -/
def setTokens (tokens : Table RefreshTokenRecord RefreshTokenRecord.id)
    (terminating : Nat → Option (Uuid × List Uuid)) (s : AppState) : AppState :=
  { s with db.refreshTokens := tokens, history.terminating := terminating }

/-- The table without the rows whose identifiers are `gone`. -/
def without (gone : Uuid → Bool) (s : AppState) : Table RefreshTokenRecord RefreshTokenRecord.id :=
  s.db.refreshTokens.delete fun t => gone t.id

/-- The second state is the first without the rows `gone`, which are dead at time `τ`. -/
structure Purged (τ : Time) (gone : Uuid → Bool) (s s' : AppState) : Prop where
  eq : ∃ x, s' = setTokens (without gone s) x s
  dead : ∀ t ∈ s.db.refreshTokens, gone t.id = true → deadToken τ t = true

/-- Inputs whose clock has reached `τ`, and whose identifiers are not those of rows `gone`. -/
structure PurgeInputs (τ : Time) (gone : Uuid → Bool) (e : Env) : Prop where
  clock : τ ≤ e.now
  fresh : gone e.uuid = false

variable {A B : Type} {τ : Time} {gone : Uuid → Bool}

/-- Programs coupled from `Purged` states on, with results in `M`. -/
def CoupledBy (τ : Time) (gone : Uuid → Bool) (M : A → B → Prop) (p : Service A) (q : Service B) :
    Prop :=
  Couples (PurgeInputs τ gone) (Purged τ gone) p q (Agree M AlikeErrors (Purged τ gone))

/-- The program does the same with and without the rows. -/
def Unseen (τ : Time) (gone : Uuid → Bool) (p : Service A) : Prop :=
  CoupledBy τ gone (fun a a' => a = a') p p

namespace Unseen

theorem done {r : Except AppError A} : Unseen τ gone (.done r) := by
  refine Couples.done fun s s' hs => ?_
  cases r with
  | ok a => exact ⟨rfl, hs⟩
  | error x => exact ⟨.same x, hs⟩

theorem bind {p : Service A} {f : A → Service B} (hp : Unseen τ gone p)
    (hf : ∀ a, Unseen τ gone (f a)) : Unseen τ gone (p.bind f) := by
  refine Couples.seq hp fun a a' h => ?_
  subst h
  exact hf a

theorem ensure {b : Bool} {x : AppError} : Unseen τ gone (Prog.ensure b x) := by
  unfold Prog.ensure
  split
  · exact .done
  · exact .done

/-- A program that leaves the table alone. -/
theorem of_ignores {p : Service A} (h : ∀ tokens x, Ignores (setTokens tokens x) p) :
    Unseen τ gone p := by
  rintro es s s' hes ⟨⟨x, rfl⟩, hdead⟩ r t rest hp
  have ht : t.db.refreshTokens = s.db.refreshTokens := by
    have hself : alone p es s = (alone p es s).map fun a =>
        (a.1, setTokens s.db.refreshTokens s.history.terminating a.2.1, a.2.2) :=
      alone_ignores (h s.db.refreshTokens s.history.terminating)
    rw [hp] at hself
    exact congrArg (fun a : Except AppError A × AppState × (Nat → Env) =>
      a.2.1.db.refreshTokens) (Option.some.inj hself)
  have hpurged : Purged τ gone t (setTokens (without gone s) x t) := by
    refine ⟨⟨x, ?_⟩, ht ▸ hdead⟩
    unfold without
    rw [ht]
  have hq : alone p es (setTokens (without gone s) x s) = (alone p es s).map fun a =>
      (a.1, setTokens (without gone s) x a.2.1, a.2.2) := alone_ignores (h (without gone s) x)
  rw [hp, Option.map_some] at hq
  refine ⟨r, _, rest, hq, ?_, fun _ _ _ _ => rfl, ?_⟩
  · cases r with
    | ok a => exact ⟨rfl, hpurged⟩
    | error y => exact ⟨.same y, hpurged⟩
  · exact alone_rest hes hp

end Unseen

/-! ### Programs that leave the table alone -/

section Ignored

variable {tokens : Table RefreshTokenRecord RefreshTokenRecord.id}
  {x : Nat → Option (Uuid × List Uuid)}

theorem decodeToken_ignores {token : Jwt} {expected : TokenType} :
    Ignores (setTokens tokens x) (decodeToken token expected) := by
  refine .atomic (fun _ => rfl) fun e s => ?_
  show (if token ∈ s.history.minted ∧ accepted token e.now then _ else _) = _
  split
  · split
    · rfl
    · rfl
  · rfl

theorem newUuid_ignores : Ignores (setTokens tokens x) newUuid :=
  .atomic (fun _ => rfl) fun _ _ => rfl

theorem getMembership_ignores {userId tenantId : Uuid} :
    Ignores (setTokens tokens x) (getMembership userId tenantId) :=
  ignores_select fun _ _ => rfl

theorem getUserById_ignores {userId : Uuid} :
    Ignores (setTokens tokens x) (getUserById userId) :=
  .bind (ignores_select fun _ _ => rfl) fun _ => .okOr

theorem protectedMiddleware_ignores {token : Jwt} :
    Ignores (setTokens tokens x) (protectedMiddleware token) := by
  refine .bind decodeToken_ignores fun claims => ?_
  refine .bind (ignores_redis fun _ _ => rfl) fun denied => ?_
  refine .bind .ensure fun _ => ?_
  refine .bind getMembership_ignores fun o => ?_
  exact .bind .okOr fun _ => .done

theorem resolveMembership_ignores {userId : Uuid} {tenantId : Option Uuid} :
    Ignores (setTokens tokens x) (resolveMembership userId tenantId) := by
  cases tenantId with
  | some tenantId => exact .bind getMembership_ignores fun _ => .okOr
  | none => exact .bind (ignores_select fun _ _ => rfl) fun _ => .okOr

theorem refreshExpiry_ignores {app : App} : Ignores (setTokens tokens x) (refreshExpiry app) :=
  .bind ignores_utcNow fun _ => .done

theorem issueTokenPair_ignores {app : App} {user : UserRecord} {membership : MembershipRecord}
    {id : Uuid} {origin : Nat} :
    Ignores (setTokens tokens x) (issueTokenPair app user membership id origin) := by
  refine .bind ignores_utcNow fun now => ?_
  refine .bind newUuid_ignores fun jti => ?_
  exact .bind (.atomic (fun _ => rfl) fun _ _ => rfl) fun _ => .done

theorem recordEvent_ignores {tenantId actor subject : Option Uuid} {type event : String}
    {payload : Value} :
    Ignores (setTokens tokens x) (recordEvent tenantId actor type subject event payload) := by
  refine .bind (.attempt (.bind newUuid_ignores fun id => ?_)) fun _ => .done
  refine ignores_sql fun e s => ?_
  dsimp only [setTokens]
  generalize s.db.auditLog.insert _ = table
  cases table with
  | none => rfl
  | some table => rfl

theorem denyAccessToken_ignores {token : Jwt} :
    Ignores (setTokens tokens x) (denyAccessToken token) := by
  refine .bind (.attempt decodeToken_ignores) fun r => ?_
  cases r with
  | error y => exact .done
  | ok claims =>
      refine .bind ignores_utcNow fun now => ?_
      exact .ite .done (ignores_redis fun _ _ => rfl)

end Ignored

/-! ### The statements about refresh tokens -/

theorem Purged.tokens {s s' : AppState} (h : Purged τ gone s s') :
    s'.db.refreshTokens = without gone s := by
  obtain ⟨⟨x, rfl⟩, -⟩ := h
  rfl

/-- A change of the table that both make. -/
theorem Purged.change {s s' : AppState} (h : Purged τ gone s s')
    {table : Table RefreshTokenRecord RefreshTokenRecord.id}
    (hdead : ∀ t ∈ table, gone t.id = true → deadToken τ t = true) :
    Purged τ gone { s with db.refreshTokens := table }
      { s' with db.refreshTokens := table.delete fun t => gone t.id } := by
  obtain ⟨⟨x, rfl⟩, -⟩ := h
  exact ⟨⟨x, rfl⟩, hdead⟩

/-- The rows of the purged table are not among those gone. -/
theorem not_gone {s : AppState} {t : RefreshTokenRecord} (h : t ∈ without gone s) :
    gone t.id = false :=
  (Table.mem_delete.mp h).2

/-- A query for live rows selects the same. -/
theorem Purged.select {s s' : AppState} (h : Purged τ gone s s') {p : RefreshTokenRecord → Bool}
    (hp : ∀ t, deadToken τ t = true → p t = false) :
    s'.db.refreshTokens.select p = s.db.refreshTokens.select p := by
  rw [h.tokens]
  exact Table.select_delete fun t ht hg => hp t (h.dead t ht hg)

/-- The row that a look-up finds, unless it is gone. -/
theorem Purged.find {s s' : AppState} (h : Purged τ gone s s') (id : Uuid) :
    s'.db.refreshTokens.find? id = (s.db.refreshTokens.find? id).filter fun t => !gone t.id := by
  rw [h.tokens]
  exact Table.find?_delete

theorem utcNow_coupled :
    CoupledBy τ gone (fun now now' => now = now' ∧ τ ≤ now) utcNow utcNow :=
  .atomic fun _ _ _ he hs _ => ⟨rfl, ⟨rfl, he.clock⟩, hs⟩

theorem newUuid_coupled :
    CoupledBy τ gone (fun id id' => id = id' ∧ gone id = false) newUuid newUuid := by
  refine .atomic ?_
  rintro e s _ he ⟨⟨x, rfl⟩, hdead⟩ -
  exact ⟨rfl, ⟨rfl, he.fresh⟩, ⟨x, rfl⟩, hdead⟩

/-- What a look-up of a token finds in the second run: the row, unless it is dead and gone. -/
structure Found (τ : Time) (gone : Uuid → Bool) (o o' : Option RefreshTokenRecord) : Prop where
  eq : o' = o.filter fun t => !gone t.id
  dead : ∀ t, o = some t → gone t.id = true → deadToken τ t = true

theorem getRefreshToken_coupled {id : Uuid} :
    CoupledBy τ gone (Found τ gone) (getRefreshToken id) (getRefreshToken id) := by
  refine couples_select .same fun e s s' he hs => ⟨hs.find id, fun t ht => ?_⟩
  exact hs.dead t (Table.find?_eq_some.mp ht).1

/-- A dead row is not active. -/
theorem deadToken_not_active {t : RefreshTokenRecord} {now : Time} (ht : deadToken τ t = true)
    (hτ : τ ≤ now) (b : Bool) :
    (b && t.revokedAt.isNone && decide (t.expiresAt > now)) = false := by
  rcases Bool.or_eq_true_iff.mp ht with hrevoked | hexpired
  · rw [← Option.not_isSome, hrevoked, Bool.not_true, Bool.and_false, Bool.false_and]
  · have hle : ¬ t.expiresAt > now := Nat.not_lt.mpr ((of_decide_eq_true hexpired).trans hτ)
    rw [decide_eq_false hle, Bool.and_false]

theorem listActiveRefreshTokens_unseen {userId : Uuid} :
    Unseen τ gone (listActiveRefreshTokens userId) :=
  couples_select .same fun _ _ _ he hs =>
    congrArg newestFirst (hs.select fun _ ht => deadToken_not_active ht he.clock _).symm

/-- The same update of both tables, which revives no row. -/
theorem Purged.update {s s' : AppState} (h : Purged τ gone s s') {p p' : RefreshTokenRecord → Bool}
    {f : RefreshTokenRecord → RefreshTokenRecord} {hf : Table.KeepsKey RefreshTokenRecord.id f}
    (hp : ∀ t ∈ without gone s, p' t = p t)
    (hdead : ∀ t, deadToken τ t = true → deadToken τ (f t) = true) :
    Purged τ gone { s with db.refreshTokens := s.db.refreshTokens.update p f hf }
      { s' with db.refreshTokens := s'.db.refreshTokens.update p' f hf } := by
  have htable : s'.db.refreshTokens.update p' f hf =
      (s.db.refreshTokens.update p f hf).delete fun t => gone t.id := by
    rw [h.tokens, Table.update_congr hp]
    exact Table.update_delete
  rw [htable]
  refine h.change fun t ht hg => ?_
  obtain ⟨a, ha, rfl⟩ := Table.mem_update.mp ht
  split at hg
  · rename_i hpa
    rw [if_pos hpa]
    exact hdead a (h.dead a ha (by rwa [hf.key_eq] at hg))
  · rename_i hpa
    rw [if_neg hpa]
    exact h.dead a ha hg

/-- The rows that a statement has found, with its time. -/
structure Snapshots (τ : Time) (gone : Uuid → Bool) (a a' : Time × List Uuid) : Prop where
  time : a'.1 = a.1
  clock : τ ≤ a.1
  ids : a'.2 = a.2.filter fun id => !gone id

theorem tokenSnapshot_coupled {clause : Time → RefreshTokenRecord → Bool}
    {record : Env → AppState → History}
    (hrecord : ∀ e s s', Purged τ gone s s' →
      Purged τ gone { s with history := record e s } { s' with history := record e s' }) :
    CoupledBy τ gone (Snapshots τ gone) (tokenSnapshot clause record)
      (tokenSnapshot clause record) := by
  refine .atomic fun e s s' he hs _ => ⟨rfl, ⟨rfl, he.clock, ?_⟩, hrecord e s s' hs⟩
  dsimp only
  rw [hs.tokens, List.filter_map]
  unfold without Table.select Table.delete
  rw [List.filter_filter, List.filter_filter]
  refine congrArg _ (List.filter_congr fun t _ => ?_)
  exact Bool.and_comm _ _

/-- Of the rows found, the second run finds unlocked what the first finds unlocked. -/
theorem Purged.unlocked {s s' : AppState} (h : Purged τ gone s s') {a a' : Time × List Uuid}
    (ha : Snapshots τ gone a a') (hu : tokensUnlocked a.2 s = true) :
    tokensUnlocked a'.2 s' = true := by
  obtain ⟨⟨x, rfl⟩, -⟩ := h
  rw [ha.ids]
  exact List.all_eq_true.mpr fun id hid =>
    List.all_eq_true.mp hu id (List.mem_of_mem_filter hid)

/-- On the rows of the purged table the two snapshots agree. -/
theorem Snapshots.same {a a' : Time × List Uuid} (ha : Snapshots τ gone a a') {s : AppState}
    (p : RefreshTokenRecord → Bool) :
    ∀ t ∈ without gone s, (a'.2.contains t.id && p t) = (a.2.contains t.id && p t) := by
  intro t ht
  have hids : a'.2.contains t.id = a.2.contains t.id := by
    rw [ha.ids, Bool.eq_iff_iff]
    simp [not_gone ht]
  rw [hids]

/-- They count the same live rows. -/
theorem Purged.count {s s' : AppState} (h : Purged τ gone s s') {a a' : Time × List Uuid}
    (ha : Snapshots τ gone a a') {p : RefreshTokenRecord → Bool}
    (hp : ∀ t, deadToken τ t = true → p t = false) :
    s.db.refreshTokens.count (fun t => a.2.contains t.id && p t) =
      s'.db.refreshTokens.count fun t => a'.2.contains t.id && p t := by
  rw [h.tokens, Table.count_congr (ha.same p)]
  refine (Table.count_delete fun t ht hg => ?_).symm
  rw [hp t (h.dead t ht hg), Bool.and_false]

theorem revokeTokens_coupled {clause : Time → RefreshTokenRecord → Bool}
    {record : Env → AppState → History} {revokedAt : Time}
    (hrecord : ∀ e s s', Purged τ gone s s' →
      Purged τ gone { s with history := record e s } { s' with history := record e s' }) :
    CoupledBy τ gone
      (fun n n' => (∀ now t, τ ≤ now → deadToken τ t = true → clause now t = false) → n = n')
      (revokeTokens clause record revokedAt) (revokeTokens clause record revokedAt) := by
  refine .seq (tokenSnapshot_coupled hrecord) ?_
  rintro ⟨now, ids⟩ ⟨now', ids'⟩ ha
  obtain rfl : now' = now := ha.time
  refine couples_sqlWhen .same (fun _ _ h => h) (fun s s' hs => hs.unlocked ha)
    fun e s s' he hs => ?_
  refine ⟨fun hlive => hs.count ha fun t => hlive now' t ha.clock,
    hs.update (ha.same _) fun t ht => ?_⟩
  exact Bool.or_eq_true_iff.mpr ((Bool.or_eq_true_iff.mp ht).imp (fun _ => rfl) id)

/-- A statement that notes nothing. -/
theorem quiet_record (e : Env) (s s' : AppState) (h : Purged τ gone s s') :
    Purged τ gone { s with history := (fun _ s => s.history : Env → AppState → History) e s }
      { s' with history := (fun _ s => s.history : Env → AppState → History) e s' } :=
  h

theorem revokeRefreshToken_unseen {id : Uuid} : Unseen τ gone (revokeRefreshToken id) := by
  refine .seq utcNow_coupled ?_
  rintro now _ ⟨rfl, -⟩
  exact .seq (revokeTokens_coupled quiet_record) fun _ _ _ => Unseen.done

theorem revokeAllUserRefreshTokens_unseen {userId : Uuid} :
    Unseen τ gone (revokeAllUserRefreshTokens userId) := by
  refine .seq utcNow_coupled ?_
  rintro now _ ⟨rfl, -⟩
  refine .seq (revokeTokens_coupled ?_) fun _ _ _ => Unseen.done
  rintro e s _ ⟨⟨x, rfl⟩, hdead⟩
  exact ⟨⟨_, rfl⟩, hdead⟩

theorem revokeUserRefreshToken_unseen {userId tokenId : Uuid} :
    Unseen τ gone (revokeUserRefreshToken userId tokenId) := by
  refine .seq utcNow_coupled ?_
  rintro now _ ⟨rfl, -⟩
  refine .seq (revokeTokens_coupled quiet_record) fun n n' hn => ?_
  rw [hn fun now t hτ ht => deadToken_not_active ht hτ _]
  exact Unseen.done

/-! ### Rotation -/

theorem Purged.find_of_not_gone {s s' : AppState} (h : Purged τ gone s s') {id : Uuid}
    (hid : gone id = false) : s'.db.refreshTokens.find? id = s.db.refreshTokens.find? id := by
  rw [h.find]
  cases hf : s.db.refreshTokens.find? id with
  | none => rfl
  | some t =>
      obtain rfl := (Table.find?_eq_some.mp hf).2
      rw [Option.filter_some_pos (by rw [hid]; rfl)]

/-- Rotation keeps to rows that are not gone, and the new row is none of those. -/
theorem commitRotation_coupled {previous : Uuid} {row : RefreshTokenRecord}
    (hprevious : gone previous = false) (hrow : gone row.id = false) {e : Env} {s s' : AppState}
    (hs : Purged τ gone s s') :
    Agree (fun a a' => a = a') AlikeErrors (Purged τ gone) (commitRotation previous row e s).1
      (commitRotation previous row e s').1 (commitRotation previous row e s).2
      (commitRotation previous row e s').2 := by
  let f := rotated row.createdAt row.id
  have hupdated : Purged τ gone
      { s with db.refreshTokens := s.db.refreshTokens.update (fun t => t.id = previous) f }
      { s' with db.refreshTokens := s'.db.refreshTokens.update (fun t => t.id = previous) f } :=
    hs.update (fun _ _ => rfl) fun _ _ => rfl
  have htable : s'.db.refreshTokens.update (fun t => t.id = previous) f =
      (s.db.refreshTokens.update (fun t => t.id = previous) f).delete fun t => gone t.id :=
    hupdated.tokens
  have hdead : ∀ t ∈ s.db.refreshTokens.update (fun t => t.id = previous) f,
      gone t.id = true → deadToken τ t = true := hupdated.dead
  have hfresh : ∀ origin, gone { row with origin }.id = false := fun _ => hrow
  obtain ⟨⟨x, rfl⟩, -⟩ := id hs
  unfold commitRotation
  dsimp only
  rw [hs.find_of_not_gone hprevious, htable, Table.insert_delete (hfresh _)]
  cases hins : (s.db.refreshTokens.update (fun t => t.id = previous)
      (rotated row.createdAt row.id)).insert { row with
        origin := ((s.db.refreshTokens.find? previous).map (·.origin)).getD 0 } with
  | none => exact ⟨.same _, ⟨x, rfl⟩, hs.dead⟩
  | some table =>
      refine ⟨rfl, ⟨x, rfl⟩, fun t ht hg => ?_⟩
      rcases ((Table.insert_eq_some hins).2 t).mp ht with ht | rfl
      · exact hdead t ht hg
      · exact absurd (hrow.symm.trans hg) Bool.false_ne_true

theorem rotateRefreshToken_unseen {previous next userId tenantId : Uuid} {expiresAt : Time}
    (hnext : gone next = false) :
    Unseen τ gone (rotateRefreshToken previous next userId tenantId expiresAt) := by
  refine .seq utcNow_coupled ?_
  rintro now _ ⟨rfl, hnow⟩
  -- A token that the purge may take is not one that can be rotated.
  have hlive : ∀ t, deadToken τ t = true → rotatable previous now t = false :=
    fun t ht => deadToken_not_active ht hnow _
  refine .seq (tokenSnapshot_coupled quiet_record) ?_
  rintro ⟨time, ids⟩ ⟨time', ids'⟩ ha
  -- Both runs count the same rows, and a row that is found is not one that is gone.
  have hcount : CoupledBy τ gone (fun n n' => n = n' ∧ (n ≠ 0 → gone previous = false))
      (Prog.atomic .quiet (tokensUnlocked ids) fun e s =>
        let n := s.db.refreshTokens.count fun t =>
          ids.contains t.id && rotatable previous now t
        if e.fault ≠ .none then (.error (databaseError e.detail), s)
        else if n = 0 then (.ok n, s)
        else (.ok n, { s with db.tokenLocks := (previous, e.pid) :: s.db.tokenLocks }))
      (Prog.atomic .quiet (tokensUnlocked ids') fun e s =>
        let n := s.db.refreshTokens.count fun t =>
          ids'.contains t.id && rotatable previous now t
        if e.fault ≠ .none then (.error (databaseError e.detail), s)
        else if n = 0 then (.ok n, s)
        else (.ok n, { s with db.tokenLocks := (previous, e.pid) :: s.db.tokenLocks })) := by
    refine .atomic fun e s s' he hs hu => ⟨hs.unlocked ha hu, ?_⟩
    dsimp only
    rw [← hs.count ha hlive]
    split
    · exact ⟨.same _, hs⟩
    · split
      · rename_i hzero
        exact ⟨⟨rfl, fun hne => absurd hzero hne⟩, hs⟩
      · rename_i hpos
        obtain ⟨t, ht, htp⟩ := Table.count_pos.mp (Nat.pos_of_ne_zero hpos)
        have hrotatable : rotatable previous now t = true := (Bool.and_eq_true_iff.mp htp).2
        have hid : t.id = previous := by
          simp only [rotatable, Bool.and_eq_true, decide_eq_true_eq] at hrotatable
          exact hrotatable.1.1
        refine ⟨⟨rfl, fun _ => ?_⟩, ?_⟩
        · rw [← hid, ← Bool.not_eq_true]
          intro hg
          rw [hlive t (hs.dead t ht hg)] at hrotatable
          cases hrotatable
        · obtain ⟨⟨x, rfl⟩, hdead⟩ := hs
          exact ⟨⟨x, rfl⟩, hdead⟩
  refine .seq hcount ?_
  rintro n _ ⟨rfl, hprevious⟩
  by_cases hn : n = 0
  · subst hn
    exact Unseen.done
  · rw [Prog.ensure, if_pos (by simpa using hn)]
    refine .atomic fun e s s' he hs _ => ⟨rfl, ?_⟩
    let row : RefreshTokenRecord :=
      { id := next, userId, tenantId, expiresAt, revokedAt := none, replacedBy := none,
        createdAt := now, origin := 0 }
    have hcommit : Agree (fun a a' => a = a') AlikeErrors (Purged τ gone)
        (commitRotation previous row e s).1 (commitRotation previous row e s').1
        (commitRotation previous row e s).2 (commitRotation previous row e s').2 :=
      commitRotation_coupled (hprevious hn) hnext hs
    cases hf : e.fault with
    | none => exact hcommit
    | failed =>
        obtain ⟨⟨x, rfl⟩, hdead⟩ := hs
        exact ⟨.same _, ⟨x, rfl⟩, hdead⟩
    | lost => exact ⟨.same _, hcommit.states⟩

/-! ### The requests in both runs -/

/-- A dead row is turned away, as a missing row is. -/
theorem refused_of_dead {t : RefreshTokenRecord} (ht : deadToken τ t = true) {m m' : String}
    {f : Unit → Service A} {M : A → A → Prop} :
    CoupledBy τ gone M
      (utcNow.bind fun now =>
        (Prog.ensure (t.revokedAt.isNone && now < t.expiresAt) (.unauthorized m)).bind f)
      (.done (.error (.unauthorized m'))) := by
  intro es s s' hes hs r u rest hp
  have hdead : (t.revokedAt.isNone && decide ((es 0).now < t.expiresAt)) = false :=
    deadToken_not_active ht (hes 0).clock true
  have hrefused : alone (utcNow.bind fun now =>
      (Prog.ensure (t.revokedAt.isNone && now < t.expiresAt) (.unauthorized m)).bind f) es s =
      some (.error (.unauthorized m), s, fun n => es (n + 1)) := by
    show alone ((Prog.ensure (t.revokedAt.isNone && (es 0).now < t.expiresAt) _).bind f) _ s = _
    rw [hdead]
    rfl
  rw [hrefused] at hp
  cases hp
  exact ⟨_, s', es, rfl, ⟨.unauthorized m m', hs⟩, (by intro _ _ he; cases he),
    fun n => hes (n + 1)⟩

theorem refresh_unseen {app : App} {refreshToken : Jwt} {tenantId : Option Uuid} :
    Unseen τ gone (refresh app refreshToken tenantId) := by
  refine .bind (.of_ignores fun _ _ => decodeToken_ignores) fun claims => ?_
  refine Couples.seq getRefreshToken_coupled fun o o' ho => ?_
  obtain ⟨rfl, hdead⟩ := ho
  cases o with
  | none => exact Unseen.done
  | some recorded =>
      cases hg : gone recorded.id with
      | true =>
          rw [Option.filter_some_neg (by simp [hg])]
          exact refused_of_dead (hdead recorded rfl hg)
      | false =>
          rw [Option.filter_some_pos (by simp [hg])]
          show Unseen τ gone (utcNow.bind _)
          refine .bind (.of_ignores fun _ _ => ignores_utcNow) fun now => ?_
          refine .bind .ensure fun _ => ?_
          refine .bind (.of_ignores fun _ _ => getUserById_ignores) fun user => ?_
          refine .bind .ensure fun _ => ?_
          refine .bind (.of_ignores fun _ _ => resolveMembership_ignores) fun membership => ?_
          refine Couples.seq newUuid_coupled ?_
          rintro next _ ⟨rfl, hnext⟩
          refine Unseen.bind (.of_ignores fun _ _ => refreshExpiry_ignores) fun expiresAt => ?_
          refine .bind (rotateRefreshToken_unseen hnext) fun _ => ?_
          refine .bind (.of_ignores fun _ _ => issueTokenPair_ignores) fun tokens => ?_
          exact .bind (.of_ignores fun _ _ => recordEvent_ignores) fun _ => .done

theorem logout_unseen {refreshToken : Jwt} {accessToken : Option Jwt} :
    Unseen τ gone (logout refreshToken accessToken) := by
  refine .bind (.of_ignores fun _ _ => decodeToken_ignores) fun claims => ?_
  refine .bind revokeRefreshToken_unseen fun _ => ?_
  refine .bind (.of_ignores fun _ _ => recordEvent_ignores) fun _ => ?_
  cases accessToken with
  | none => exact .done
  | some token => exact .of_ignores fun _ _ => denyAccessToken_ignores

theorem revokeSession_unseen {app : App} {bearer : Jwt} {sessionId : Uuid} :
    Unseen τ gone (Http.revokeSession app bearer sessionId) := by
  refine .bind (.of_ignores fun _ _ => protectedMiddleware_ignores) fun user => ?_
  refine .bind revokeUserRefreshToken_unseen fun revoked => ?_
  refine .bind .ensure fun _ => ?_
  exact .of_ignores fun _ _ => recordEvent_ignores

theorem logoutAllSessions_unseen {bearer : Jwt} :
    Unseen τ gone (Http.logoutAllSessions bearer) := by
  refine .bind (.of_ignores fun _ _ => protectedMiddleware_ignores) fun user => ?_
  refine .bind revokeAllUserRefreshTokens_unseen fun _ => ?_
  refine .bind (.of_ignores fun _ _ => denyAccessToken_ignores) fun _ => ?_
  exact .of_ignores fun _ _ => recordEvent_ignores

/-- A purge in both runs may delete fewer rows in the second. -/
theorem purgeStaleRefreshTokens_coupled {days : Nat} :
    CoupledBy τ gone (fun _ _ => True) (purgeStaleRefreshTokens days)
      (purgeStaleRefreshTokens days) := by
  refine .seq (tokenSnapshot_coupled quiet_record) ?_
  rintro ⟨now, ids⟩ ⟨now', ids'⟩ ha
  obtain rfl : now' = now := ha.time
  refine couples_sqlWhen .same (fun _ _ h => h) (fun s s' hs => hs.unlocked ha)
    fun e s s' he hs => ⟨trivial, ?_⟩
  dsimp only
  rw [hs.tokens, Table.delete_congr (ha.same _)]
  unfold without
  rw [Table.delete_delete]
  exact hs.change fun t ht => hs.dead t (Table.mem_delete.mp ht).1

/-- Every call does the same in both runs. -/
theorem body_coupled {app : App} (call : TokenCall) :
    CoupledBy τ gone AlikeReplies (call.body app) (call.body app) := by
  have hreply : ∀ {A : Type} {p : Service A} {reply : A → SessionReply}, Unseen τ gone p →
      CoupledBy τ gone AlikeReplies (p.bind fun a => .done (.ok (reply a)))
        (p.bind fun a => .done (.ok (reply a))) := by
    intro A p reply hp
    refine .seq hp fun a a' h => .done fun s s' hs => ?_
    subst h
    exact ⟨.same _, hs⟩
  cases call with
  | refresh refreshToken tenantId => exact hreply refresh_unseen
  | listSessions bearer =>
      exact hreply (.bind (.of_ignores fun _ _ => protectedMiddleware_ignores) fun user =>
        listActiveRefreshTokens_unseen)
  | revokeSession bearer sessionId => exact hreply revokeSession_unseen
  | logout refreshToken accessToken => exact hreply logout_unseen
  | logoutAllSessions bearer => exact hreply logoutAllSessions_unseen
  | purgeStaleRefreshTokens days =>
      exact .seq purgeStaleRefreshTokens_coupled fun n n' _ =>
        .done fun s s' hs => ⟨.purged n n', hs⟩

/-! ### The purge in one of the runs -/

/-- What a purge at time `now` selects. -/
def stale (days : Nat) (now : Time) (t : RefreshTokenRecord) : Bool :=
  olderThan now days t.expiresAt ||
    match t.revokedAt with
    | some r => olderThan now days r
    | none => false

theorem deadToken_of_stale {days : Nat} {now : Time} {t : RefreshTokenRecord}
    (h : stale days now t = true) : deadToken (now - daysInterval days) t = true := by
  rcases Bool.or_eq_true_iff.mp h with hexpired | hrevoked
  · have hlt : t.expiresAt + daysInterval days < now := of_decide_eq_true hexpired
    exact Bool.or_eq_true_iff.mpr (.inr (decide_eq_true (Nat.le_sub_of_add_le hlt.le)))
  · cases hr : t.revokedAt with
    | none =>
        rw [hr] at hrevoked
        cases hrevoked
    | some r => exact Bool.or_eq_true_iff.mpr (.inl (by rw [hr]; rfl))

/-- A purge removes dead rows, and does nothing else. -/
theorem purged_of_purge {days : Nat} {es rest : Nat → Env} {s t : AppState}
    {r : Except AppError Nat} (h : alone (purgeStaleRefreshTokens days) es s = some (r, t, rest)) :
    ∃ gone : Uuid → Bool, (∀ id, gone id = true → ∃ row ∈ s.db.refreshTokens, row.id = id) ∧
      Purged ((es 0).now - daysInterval days) gone s t := by
  let ids := (s.db.refreshTokens.select (stale days (es 0).now)).map (·.id)
  have hids : ∀ row ∈ s.db.refreshTokens, ids.contains row.id = stale days (es 0).now row := by
    intro row hrow
    rw [Bool.eq_iff_iff, List.contains_iff_mem, List.mem_map]
    constructor
    · rintro ⟨row', hrow', hid⟩
      obtain ⟨hmem, hstale⟩ := Table.mem_select.mp hrow'
      rwa [Table.eq_of_key hmem hrow hid] at hstale
    · exact fun hstale => ⟨row, Table.mem_select.mpr ⟨hrow, hstale⟩, rfl⟩
  have hsecond : alone (sqlWhen .quiet (tokensUnlocked ids) fun _ s =>
      let p := fun t => ids.contains t.id && stale days (es 0).now t
      (.ok (s.db.refreshTokens.count p),
        { s with db.refreshTokens := s.db.refreshTokens.delete p })) (fun n => es (n + 1)) s =
      some (r, t, rest) := h
  have hdelete : (s.db.refreshTokens.delete fun row =>
      ids.contains row.id && stale days (es 0).now row) =
      s.db.refreshTokens.delete fun row => ids.contains row.id :=
    Table.delete_congr fun row hrow => by rw [hids row hrow, Bool.and_self]
  have hpurged : Purged ((es 0).now - daysInterval days) (fun id => ids.contains id) s
      { s with db.refreshTokens := s.db.refreshTokens.delete fun row =>
          ids.contains row.id && stale days (es 0).now row } := by
    rw [hdelete]
    exact ⟨⟨_, rfl⟩, fun row hrow hg => deadToken_of_stale ((hids row hrow).symm.trans hg)⟩
  have hknown : ∀ id, ids.contains id = true → ∃ row ∈ s.db.refreshTokens, row.id = id := by
    intro id hid
    obtain ⟨row, hrow, rfl⟩ := List.mem_map.mp (List.contains_iff_mem.mp hid)
    exact ⟨row, (Table.mem_select.mp hrow).1, rfl⟩
  unfold sqlWhen at hsecond
  rw [alone_atomic] at hsecond
  split at hsecond
  · cases hf : (es 1).fault with
    | none =>
        rw [hf] at hsecond
        cases hsecond
        exact ⟨_, hknown, hpurged⟩
    | failed =>
        rw [hf] at hsecond
        cases hsecond
        have hself : without (fun _ => false) s = s.db.refreshTokens :=
          Table.delete_eq_self fun _ _ => rfl
        refine ⟨fun _ => false, (by simp), ⟨s.history.terminating, ?_⟩, (by simp)⟩
        rw [hself]
        rfl
    | lost =>
        rw [hf] at hsecond
        cases hsecond
        exact ⟨_, hknown, hpurged⟩
  · cases hsecond

/-- **The purge is invisible.**  A purge between any two requests of a sequence that runs to its
end leaves every reply as it is, up to the message of `Unauthorized`, and every user's active
tokens, for identifiers that are new and clocks that are behind the purge's by at most the
retention. -/
theorem purge_invisible {app : App} {before after : List (TokenCall × (Nat → Env))}
    {s s₀ s₁ t₀ : AppState} {rs₀ rs₁ : List (Except AppError SessionReply)}
    {r : Except AppError SessionReply} {days : Nat} {es rest : Nat → Env}
    (h₀ : inTurn (TokenCall.body app) before s = some (rs₀, s₀))
    (h₁ : inTurn (TokenCall.body app) after s₀ = some (rs₁, s₁))
    (hpurge : alone ((TokenCall.purgeStaleRefreshTokens days).body app) es s₀ =
      some (r, t₀, rest))
    (hfresh : ∀ call ∈ after, ∀ n, ∀ row ∈ s₀.db.refreshTokens, row.id ≠ (call.2 n).uuid)
    (hclock : ∀ call ∈ after, ∀ n, (es 0).now ≤ (call.2 n).now + daysInterval days) :
    inTurn (TokenCall.body app) (before ++ after) s = some (rs₀ ++ rs₁, s₁) ∧
      ∃ rs₂ s₂, inTurn (TokenCall.body app)
          (before ++ (.purgeStaleRefreshTokens days, es) :: after) s =
          some (rs₀ ++ r :: rs₂, s₂) ∧
        List.Forall₂ Alike rs₁ rs₂ ∧
        ∀ userId now, (es 0).now ≤ now + daysInterval days →
          activeRefreshTokens s₂ userId now = activeRefreshTokens s₁ userId now := by
  obtain ⟨⟨n, t, rest'⟩, hn, hr⟩ := Option.bind_eq_some_iff.mp (alone_bind.symm.trans hpurge)
  obtain ⟨gone, hknown, hpurged⟩ := purged_of_purge hn
  obtain rfl : t = t₀ := by
    cases n with
    | ok a => exact congrArg (fun x => x.2.1) (Option.some.inj hr)
    | error x => exact congrArg (fun x => x.2.1) (Option.some.inj hr)
  have hinputs : ∀ call ∈ after, ∀ n,
      PurgeInputs ((es 0).now - daysInterval days) gone (call.2 n) := by
    intro call hcall n
    refine ⟨Nat.sub_le_of_le_add (hclock call hcall n), ?_⟩
    rw [← Bool.not_eq_true]
    intro hgone
    obtain ⟨row, hrow, hid⟩ := hknown _ hgone
    exact hfresh call hcall n row hrow hid
  have hbody : ∀ call : TokenCall,
      Couples (PurgeInputs ((es 0).now - daysInterval days) gone)
        (Purged ((es 0).now - daysInterval days) gone) (call.body app) (call.body app)
        fun r r' s s' => Alike r r' ∧ Purged ((es 0).now - daysInterval days) gone s s' :=
    fun call => (body_coupled call).post fun _ _ _ _ h => ⟨Alike.of_agree h, h.states⟩
  obtain ⟨rs₂, s₂, h₂, hrs, hfinal⟩ := Couples.inTurn hbody hinputs hpurged h₁
  refine ⟨?_, rs₂, s₂, ?_, hrs, fun userId now hnow => ?_⟩
  · rw [inTurn_append h₀, h₁]
    rfl
  · rw [inTurn_append h₀, inTurn, hpurge, Option.bind_some, h₂]
    rfl
  · exact congrArg newestFirst (hfinal.select fun row hrow =>
      deadToken_not_active hrow (Nat.sub_le_of_le_add hnow) _)

/-! ### A token replayed before and after its purge -/

/-- The refresh token of user 10 that has been rotated long ago. -/
def replayedToken : Jwt :=
  { sub := 10, tenantId := 1, role := .owner, tokenType := .refresh, jti := 20, iat := 0,
    exp := 1000000, origin := 0 }

/-- Its row, revoked at time 1. -/
def replayedRow : RefreshTokenRecord :=
  { id := 20, userId := 10, tenantId := 1, expiresAt := seconds 1000000, revokedAt := some 1,
    replacedBy := some 21, createdAt := 0, origin := 0 }

/-- The state in which it has been signed, and its row is there. -/
def replayState : AppState :=
  { (default : AppState) with
    db.refreshTokens := Table.single replayedRow
    history.minted := [replayedToken] }

/-- Inputs a day and a second after the epoch. -/
def replayInputs (_ : Nat) : Env := { (default : Env) with now := seconds 86401, uuid := 30 }

/-- The token is replayed, with a retention of a day before or after the purge of its row. -/
theorem purge_invisible_replay :
    ∃ rs₁ s₁ r rs₂ s₂,
      inTurn (TokenCall.body default) [(.refresh replayedToken none, replayInputs)] replayState =
        some (rs₁, s₁) ∧
      inTurn (TokenCall.body default)
        [(.purgeStaleRefreshTokens 1, replayInputs), (.refresh replayedToken none, replayInputs)]
        replayState = some (r :: rs₂, s₂) ∧
      List.Forall₂ Alike rs₁ rs₂ := by
  have h₁ : (inTurn (TokenCall.body default) [(.refresh replayedToken none, replayInputs)]
      replayState).isSome = true := by decide
  have hpurge : (alone ((TokenCall.purgeStaleRefreshTokens 1).body default) replayInputs
      replayState).isSome = true := by decide
  obtain ⟨⟨rs₁, s₁⟩, h₁⟩ := Option.isSome_iff_exists.mp h₁
  obtain ⟨⟨r, t₀, rest⟩, hpurge⟩ := Option.isSome_iff_exists.mp hpurge
  have h₀ : inTurn (TokenCall.body default) [] replayState = some ([], replayState) := rfl
  have hinputs : ∀ call ∈ [(TokenCall.refresh replayedToken none, replayInputs)],
      call.2 = replayInputs :=
    fun call hcall => congrArg Prod.snd (List.mem_singleton.mp hcall)
  obtain ⟨-, rs₂, s₂, h₂, hrs, -⟩ := purge_invisible h₀ h₁ hpurge
    (fun call hcall n row hrow => by
      obtain rfl := List.mem_singleton.mp hrow
      rw [hinputs call hcall]
      show (20 : Uuid) ≠ 30
      decide)
    (fun call hcall n => by
      rw [hinputs call hcall]
      exact Nat.le_add_right _ _)
  exact ⟨rs₁, s₁, r, rs₂, s₂, h₁, h₂, hrs⟩

end Fluxa
