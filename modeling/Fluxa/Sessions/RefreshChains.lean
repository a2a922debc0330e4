import Fluxa.Sessions.Calls

/-!
# Sessions — chains of refresh tokens

Every refresh replaces the token presented, so the tokens of a session form a chain, of which only the last can be active.

* **`refresh_chains`**: in every state that a run reaches, the tokens satisfy `TokenChains`, of the refreshes that present one token at most one has succeeded, and a list of sessions shows at most one token of each chain.
-/

namespace Fluxa
open Interleave Relational Db Contract Relation

/-- Two tokens of one chain: rotations lead from the one to the other, or from a third to both. -/
def SameChain (s : AppState) (r t : RefreshTokenRecord) : Prop := EqvGen (Replaced s) r.id t.id

/-- How the rows of `refresh_tokens` hang together.  The chains are those of all rotations so far,
so they hold together when a purge deletes rows in between. -/
structure TokenChains (s : AppState) : Prop where
  /-- Where a row points, it has been rotated. -/
  replaced : ∀ r ∈ s.db.refreshTokens, ∀ b, r.replacedBy = some b → Replaced s r.id b
  replaced_once : ∀ a a' b, Replaced s a b → Replaced s a' b → a = a'
  replaced_revoked : ∀ r ∈ s.db.refreshTokens, r.replacedBy ≠ none → r.revokedAt ≠ none
  acyclic : ∀ a, ¬ TransGen (Replaced s) a a
  same_user : ∀ r ∈ s.db.refreshTokens, ∀ t ∈ s.db.refreshTokens, r.replacedBy = some t.id →
    r.userId = t.userId
  one_active : ∀ r ∈ s.db.refreshTokens, ∀ t ∈ s.db.refreshTokens, SameChain s r t →
    r.revokedAt = none → t.revokedAt = none → r = t

theorem SessionInv.one_active {s : AppState} (hi : SessionInv s) {r t : RefreshTokenRecord}
    (hr : r ∈ s.db.refreshTokens) (ht : t ∈ s.db.refreshTokens) (hc : SameChain s r t)
    (hra : r.revokedAt = none) (hta : t.revokedAt = none) : r = t :=
  Table.eq_of_key hr ht (hi.chains.eq_of_ends (hi.isEnd hr hra) (hi.isEnd ht hta) hc)

theorem SessionInv.tokenChains {s : AppState} (hi : SessionInv s) : TokenChains s where
  replaced := hi.replaced
  replaced_once := hi.chains.pred_unique
  replaced_revoked r hr hp := by
    obtain ⟨b, hb⟩ := Option.ne_none_iff_exists'.mp hp
    exact (hi.rotated r.id b (hi.replaced r hr b hb) r hr rfl).1
  acyclic := hi.chains.acyclic
  same_user r hr t ht hb := hi.same_user r.id t.id (hi.replaced r hr t.id hb) r hr t ht rfl rfl
  one_active _ hr _ ht := hi.one_active hr ht

theorem mem_activeRefreshTokens {s : AppState} {userId : Uuid} {now : Time}
    {r : RefreshTokenRecord} : r ∈ activeRefreshTokens s userId now ↔
      r ∈ s.db.refreshTokens ∧ r.userId = userId ∧ r.revokedAt = none ∧ now < r.expiresAt := by
  simp [activeRefreshTokens, newestFirst, and_assoc]

theorem activeRefreshTokens_nodup {s : AppState} {userId : Uuid} {now : Time} :
    (activeRefreshTokens s userId now).Nodup := by
  have hrows : s.db.refreshTokens.rows.Nodup := .of_map _ s.db.refreshTokens.nodup
  exact (List.perm_insertionSort _ _).nodup_iff.mpr (hrows.filter _)

/-- A list of sessions shows at most one token of each chain. -/
theorem SessionInv.listed_once {s : AppState} (hi : SessionInv s) (userId : Uuid) (now : Time) :
    (activeRefreshTokens s userId now).Pairwise fun r t => ¬ SameChain s r t := by
  refine activeRefreshTokens_nodup.imp_of_mem fun {r t} hr ht hne hc => hne ?_
  obtain ⟨hr, -, hra, -⟩ := mem_activeRefreshTokens.mp hr
  obtain ⟨ht, -, hta, -⟩ := mem_activeRefreshTokens.mp ht
  exact hi.one_active hr ht hc hra hta

abbrev SessionConfig := Config Event Env AppState AppError SessionCall SessionReply

theorem sessionSystem_keeps {app : App} {s : AppState} (hs : SessionStart s)
    {ms : List (Move Env SessionCall)} {c : SessionConfig}
    (h : (sessionSystem app).exec (.start s) ms = some c) :
    Keeps sessionContract SessionPost c :=
  sound_all (fun _ k => sessionCall_triple k) (fun _ _ _ _ ha => ha) hs.inv h

/-- Call `i` is a refresh that has succeeded with the token. -/
def Refreshed (c : SessionConfig) (i : Nat) (token : Jwt) : Prop :=
  ∃ tenantId reply, c.calls[i]? = some (SessionCall.refresh token tenantId, .done (.ok reply))

/-- In every state reached, the refresh tokens form chains with at most one active token each;
of any number of refreshes that present one token at most one has succeeded; and a list of
sessions shows at most one token of each chain. -/
theorem refresh_chains {app : App} {s : AppState} (hs : SessionStart s)
    {ms : List (Move Env SessionCall)} {c : SessionConfig}
    (h : (sessionSystem app).exec (.start s) ms = some c) :
    TokenChains c.st ∧
      (∀ i j token token', token.jti = token'.jti → Refreshed c i token → Refreshed c j token' →
        i = j) ∧
      ∀ userId now,
        (activeRefreshTokens c.st userId now).Pairwise fun r t => ¬ SameChain c.st r t := by
  have hk := sessionSystem_keeps hs h
  refine ⟨hk.1.tokenChains, ?_, hk.1.listed_once⟩
  rintro i j token token' hjti ⟨_, _, hi⟩ ⟨_, _, hj⟩
  obtain ⟨b, hb⟩ := hk.result hi
  obtain ⟨b', hb'⟩ := hk.result hj
  rw [← hjti] at hb'
  exact hk.1.rotated_once token.jti b b' i j hb hb'

/-! ### A session and its refreshes -/

/-- Tenant 1 with the one member 10, whose password is `pw`. -/
def oneMember : AppState :=
  { (default : AppState) with
    db := { (default : Database) with
      users := .single ⟨10, "a@x", "pw", none, none, 0⟩
      tenants := .single ⟨1, "T", 0⟩
      memberships := .single ⟨1, 10, .owner, 0⟩ } }

theorem sessionStart_oneMember : SessionStart oneMember where
  issued_once _ _ _ hi := absurd hi List.not_mem_nil
  tokens _ hr := Table.not_mem_empty hr
  locks := rfl
  minted := rfl
  rotations := rfl
  terminating _ := rfl
  terminated := rfl

/-- The next `n` statements of call `i`, without failures, at time `now`; what they generate is
numbered from `first`. -/
def statements (i n first : Nat) (now : Time) : List (Move Env SessionCall) :=
  (List.range n).map fun k => .exec i { (default : Env) with pid := i, uuid := first + k, now }

/-- The refresh token that the login of call 0 issues. -/
def firstRefreshToken : Jwt :=
  { sub := 10, tenantId := 1, role := .owner, tokenType := .refresh, jti := 105, iat := 0,
    exp := 2592000, origin := 0 }

/-- After a login two refreshes with its token both find the token active; one of them rotates
it first. -/
def twoRefreshes : List (Move Env SessionCall) :=
  .call (.login "a@x" "pw" none) :: statements 0 12 100 0 ++
    .call (.refresh firstRefreshToken none) :: .call (.refresh firstRefreshToken none) ::
    statements 1 9 200 0 ++ statements 2 9 300 0 ++ statements 1 7 400 0 ++ statements 2 1 500 0

/-- The chains at the end of that run. -/
theorem refresh_chains_twoRefreshes :
    ∃ c, (sessionSystem default).exec (.start oneMember) twoRefreshes = some c ∧
      TokenChains c.st ∧
      (Refreshed c 1 firstRefreshToken → Refreshed c 2 firstRefreshToken → 1 = 2) := by
  have h : ((sessionSystem default).exec (.start oneMember) twoRefreshes).isSome := by decide
  obtain ⟨c, hc⟩ := Option.isSome_iff_exists.mp h
  obtain ⟨hchains, honce, -⟩ := refresh_chains sessionStart_oneMember hc
  exact ⟨c, hc, hchains, honce 1 2 _ _ rfl⟩

end Fluxa
