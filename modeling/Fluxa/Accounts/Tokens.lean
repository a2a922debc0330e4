import Fluxa.Services.Quiet

/-!
# Accounts — single-use tokens

`create_user_token` marks the unused tokens of the user and kind as used and inserts the new one, in one transaction; but the `UPDATE` marks only the tokens that it finds, and nothing keeps two such transactions apart.

* **`tokens_one_time_iff`**: a run keeps at most one unused token for each user and kind, with all older ones used, exactly when no token is inserted beside an unused one that its `UPDATE` has missed; and in any run a token is consumed at most once, and before it expires.
* **`two_resets_both_usable`**: two requests that overlap leave two tokens, and the older one is consumed after the newer one has been issued.
-/

namespace Fluxa.Accounts
open Interleave Relational Db Contract

/-! ### The system -/

inductive TokenCall where
  | createUserToken (userId : Uuid) (kind : TokenKind) (tokenHash : String) (expiresAt : Time)
      (address : String)
  | consumeUserToken (kind : TokenKind) (tokenHash : String)

def TokenCall.body : TokenCall → Service UserTokenRecord
  | .createUserToken userId kind tokenHash expiresAt address =>
    Db.createUserToken userId kind tokenHash expiresAt address
  | .consumeUserToken kind tokenHash => Db.consumeUserToken kind tokenHash

/-- Any number of these calls, side by side. -/
def tokenSystem : System Event Env AppState AppError TokenCall UserTokenRecord :=
  ⟨TokenCall.body, admissible⟩

/-! ### What is asked -/

/-- At most one token of a user and kind is unused. -/
def OneUnused (s : AppState) : Prop :=
  ∀ a ∈ s.db.userTokens, ∀ b ∈ s.db.userTokens, a.usedAt = none → b.usedAt = none →
    a.userId = b.userId → a.kind = b.kind → a = b

/-- A token is used when a newer one of the user and kind has been issued. -/
def Superseded (s : AppState) : Prop :=
  s.db.userTokens.rows.Pairwise fun old new =>
    old.userId = new.userId → old.kind = new.kind → old.usedAt ≠ none

/-- A token has the identifier or the hash already, so that another one is not inserted. -/
def Taken (s : AppState) (id : Uuid) (tokenHash : String) : Prop :=
  ∃ t ∈ s.db.userTokens, t.id = id ∨ t.tokenHash = tokenHash

/-- If the statement issues a token, the call has found all tokens of the user and kind that are
unused. -/
def NoneMissed (_ : Nat) (l : Event) (e : Env) (s : AppState) : Prop :=
  ∀ id userId kind tokenHash address known,
    l = .issueUserToken id userId kind tokenHash address known →
    e.fault ≠ .failed → ¬ Taken s id tokenHash →
    ∀ t ∈ s.db.userTokens, isPending userId kind t = true → t.id ∈ known

theorem isPending_iff {userId : Uuid} {kind : TokenKind} {t : UserTokenRecord} :
    isPending userId kind t = true ↔ t.userId = userId ∧ t.kind = kind ∧ t.usedAt = none := by
  simp [isPending, and_assoc]

theorem isConsumable_iff {kind : TokenKind} {tokenHash : String} {now : Time}
    {t : UserTokenRecord} : isConsumable kind tokenHash now t = true ↔
      t.kind = kind ∧ t.tokenHash = tokenHash ∧ t.usedAt = none ∧ now < t.expiresAt := by
  simp [isConsumable, and_assoc]

/-- Of two tokens of a user and kind, the older one is used. -/
theorem Superseded.oneUnused {s : AppState} (h : Superseded s) : OneUnused s := by
  intro a ha b hb hna hnb hu hk
  obtain ⟨m, hm, rfl⟩ := List.mem_iff_getElem.mp ha
  obtain ⟨n, hn, rfl⟩ := List.mem_iff_getElem.mp hb
  rcases Nat.lt_trichotomy m n with hlt | rfl | hlt
  · exact absurd hna (List.pairwise_iff_getElem.mp h m n hm hn hlt hu hk)
  · rfl
  · exact absurd hnb (List.pairwise_iff_getElem.mp h n m hn hm hlt hu.symm hk.symm)

/-! ### What a statement does to the tokens -/

/-- The statement issues no token. -/
def IssuesNone (l : Event) (e : Env) (s : AppState) : Prop :=
  ∀ id userId kind tokenHash address known,
    l = .issueUserToken id userId kind tokenHash address known →
    e.fault = .failed ∨ Taken s id tokenHash

/-- The token after the `UPDATE` of `create_user_token`. -/
def invalidated (userId : Uuid) (kind : TokenKind) (known : List Uuid) (now : Time)
    (t : UserTokenRecord) : UserTokenRecord :=
  if known.contains t.id && isPending userId kind t then { t with usedAt := some now } else t

/-- The token after the `UPDATE` of `consume_user_token`. -/
def consumed (kind : TokenKind) (tokenHash : String) (now : Time) (t : UserTokenRecord) :
    UserTokenRecord :=
  if isConsumable kind tokenHash now t then { t with usedAt := some now } else t

/-- What a statement of call `i` does to the tokens. -/
inductive TokenAction (i : Nat) : Event → Env → AppState → AppState → Prop where
  | keep {l e s s'} (ht : s'.db.userTokens = s.db.userTokens)
      (hu : s'.history.uses = s.history.uses) (hl : IssuesNone l e s) : TokenAction i l e s s'
  | issue {e s s' known} {t : UserTokenRecord} (hf : e.fault ≠ .failed)
      (hnew : ¬ Taken s t.id t.tokenHash) (hunused : t.usedAt = none)
      (hrows : s'.db.userTokens.rows =
        s.db.userTokens.rows.map (invalidated t.userId t.kind known e.now) ++ [t])
      (hu : s'.history.uses = s.history.uses) :
      TokenAction i (.issueUserToken t.id t.userId t.kind t.tokenHash t.address known) e s s'
  | consume {e s s' kind tokenHash} {t : UserTokenRecord} (hmem : t ∈ s.db.userTokens)
      (hc : isConsumable kind tokenHash e.now t = true)
      (hrows : s'.db.userTokens.rows = s.db.userTokens.rows.map (consumed kind tokenHash e.now))
      (hu : s'.history.uses = (t.id, i) :: s.history.uses) : TokenAction i .quiet e s s'

/-- The hashes are unique, and a token that has been consumed has been consumed once and stays
used. -/
structure TokenInv (s : AppState) : Prop where
  hashes : ∀ a ∈ s.db.userTokens, ∀ b ∈ s.db.userTokens, a.tokenHash = b.tokenHash → a = b
  uses : ∀ id i, (id, i) ∈ s.history.uses → ∃ t ∈ s.db.userTokens, t.id = id ∧ t.usedAt ≠ none
  once : (s.history.uses.map Prod.fst).Nodup

/-- An `UPDATE` of the tokens changes no more than that some become used. -/
structure OnlyUses (f : UserTokenRecord → UserTokenRecord) : Prop where
  id : ∀ t, (f t).id = t.id
  userId : ∀ t, (f t).userId = t.userId
  kind : ∀ t, (f t).kind = t.kind
  tokenHash : ∀ t, (f t).tokenHash = t.tokenHash
  expiresAt : ∀ t, (f t).expiresAt = t.expiresAt
  address : ∀ t, (f t).address = t.address
  usedAt : ∀ t, t.usedAt ≠ none → (f t).usedAt ≠ none

theorem invalidated_onlyUses {userId : Uuid} {kind : TokenKind} {known : List Uuid} {now : Time} :
    OnlyUses (invalidated userId kind known now) := by
  constructor <;> intro t <;> unfold invalidated <;> split <;> simp

theorem consumed_onlyUses {kind : TokenKind} {tokenHash : String} {now : Time} :
    OnlyUses (consumed kind tokenHash now) := by
  constructor <;> intro t <;> unfold consumed <;> split <;> simp

section Actions

variable {i : Nat} {l : Event} {e : Env} {s s' : AppState}

/-- The tokens of before are changed by `f`, and at most one comes after them, which the statement
has issued. -/
theorem TokenAction.rows (h : TokenAction i l e s s') : ∃ f new, OnlyUses f ∧
    s'.db.userTokens.rows = s.db.userTokens.rows.map f ++ new ∧
    ∀ t ∈ new, new = [t] ∧ t.usedAt = none ∧ ¬ Taken s t.id t.tokenHash ∧ e.fault ≠ .failed ∧
      ∃ known, l = .issueUserToken t.id t.userId t.kind t.tokenHash t.address known := by
  cases h with
  | keep ht => exact ⟨id, [], by constructor <;> simp, by simp [ht], fun t ht => by cases ht⟩
  | @issue _ _ _ known t hf hnew hunused hrows =>
      refine ⟨_, _, invalidated_onlyUses, hrows, fun t ht => ?_⟩
      obtain rfl := List.mem_singleton.mp ht
      exact ⟨rfl, hunused, hnew, hf, known, rfl⟩
  | consume hmem hc hrows =>
      exact ⟨_, [], consumed_onlyUses, by rw [hrows, List.append_nil], fun t ht => by cases ht⟩

/-- A token of before is still there, and used if it was. -/
theorem TokenAction.exists (h : TokenAction i l e s s') {t : UserTokenRecord}
    (ht : t ∈ s.db.userTokens) :
    ∃ t' ∈ s'.db.userTokens, t'.id = t.id ∧ (t.usedAt ≠ none → t'.usedAt ≠ none) := by
  obtain ⟨f, new, hf, hrows, -⟩ := h.rows
  refine ⟨f t, ?_, hf.id t, hf.usedAt t⟩
  rw [Table.mem_def, hrows]
  exact List.mem_append_left _ (List.mem_map_of_mem ht)

theorem TokenAction.hashes (h : TokenAction i l e s s')
    (hs : ∀ a ∈ s.db.userTokens, ∀ b ∈ s.db.userTokens, a.tokenHash = b.tokenHash → a = b) :
    ∀ a ∈ s'.db.userTokens, ∀ b ∈ s'.db.userTokens, a.tokenHash = b.tokenHash → a = b := by
  obtain ⟨f, new, hf, hrows, hnew⟩ := h.rows
  have hfresh : ∀ a ∈ s.db.userTokens, ∀ t ∈ new, (f a).tokenHash ≠ t.tokenHash :=
    fun a ha t ht he => (hnew t ht).2.2.1 ⟨a, ha, .inr ((hf.tokenHash a).symm.trans he)⟩
  intro a ha b hb hab
  rw [Table.mem_def, hrows, List.mem_append] at ha hb
  rcases ha with ha | ha <;> rcases hb with hb | hb
  · obtain ⟨a₀, ha₀, rfl⟩ := List.mem_map.mp ha
    obtain ⟨b₀, hb₀, rfl⟩ := List.mem_map.mp hb
    rw [hf.tokenHash, hf.tokenHash] at hab
    rw [hs a₀ ha₀ b₀ hb₀ hab]
  · obtain ⟨a₀, ha₀, rfl⟩ := List.mem_map.mp ha
    exact absurd hab (hfresh a₀ ha₀ b hb)
  · obtain ⟨b₀, hb₀, rfl⟩ := List.mem_map.mp hb
    exact absurd hab.symm (hfresh b₀ hb₀ a ha)
  · have hone := (hnew a ha).1
    rw [hone, List.mem_singleton] at hb
    exact hb.symm

/-- The tokens that have been consumed stay used. -/
theorem TokenAction.uses (h : TokenAction i l e s s')
    (hs : ∀ id j, (id, j) ∈ s.history.uses → ∃ t ∈ s.db.userTokens, t.id = id ∧ t.usedAt ≠ none) :
    ∀ id j, (id, j) ∈ s'.history.uses →
      ∃ t ∈ s'.db.userTokens, t.id = id ∧ t.usedAt ≠ none := by
  have hkept : ∀ id j, (id, j) ∈ s.history.uses →
      ∃ t ∈ s'.db.userTokens, t.id = id ∧ t.usedAt ≠ none := by
    intro id j hj
    obtain ⟨t, ht, rfl, hu⟩ := hs id j hj
    obtain ⟨t', ht', hid, hused⟩ := h.exists ht
    exact ⟨t', ht', hid, hused hu⟩
  intro id j hj
  cases h with
  | keep ht hu => exact hkept id j (hu ▸ hj)
  | issue hf hnew hunused hrows hu => exact hkept id j (hu ▸ hj)
  | @consume _ _ _ kind tokenHash t hmem hc hrows hu =>
      rw [hu, List.mem_cons] at hj
      rcases hj with hj | hj
      · cases hj
        refine ⟨consumed kind tokenHash e.now t, ?_, consumed_onlyUses.id t, ?_⟩
        · rw [Table.mem_def, hrows]
          exact List.mem_map_of_mem hmem
        · simp [consumed, hc]
      · exact hkept id j hj

theorem TokenInv.step (hs : TokenInv s) (h : TokenAction i l e s s') : TokenInv s' := by
  refine ⟨h.hashes hs.hashes, h.uses hs.uses, ?_⟩
  cases h with
  | keep ht hu => exact hu ▸ hs.once
  | issue hf hnew hunused hrows hu => exact hu ▸ hs.once
  | @consume _ _ _ kind tokenHash t hmem hc hrows hu =>
      rw [hu, List.map_cons, List.nodup_cons]
      refine ⟨fun hid => ?_, hs.once⟩
      -- What has been consumed is used, and so not consumable.
      obtain ⟨use, huse, hfst⟩ := List.mem_map.mp hid
      obtain ⟨t', ht', he, hused⟩ := hs.uses use.1 use.2 huse
      obtain rfl := Table.eq_of_key ht' hmem (he.trans hfst)
      exact hused (isConsumable_iff.mp hc).2.2.1

/-- Older tokens stay used exactly when the statement misses no unused token. -/
theorem TokenAction.superseded_iff (h : TokenAction i l e s s') (hs : Superseded s) :
    Superseded s' ↔ NoneMissed i l e s := by
  have hmap : ∀ {f}, OnlyUses f → (s.db.userTokens.rows.map f).Pairwise fun old new =>
      old.userId = new.userId → old.kind = new.kind → old.usedAt ≠ none := by
    intro f hf
    refine List.pairwise_map.mpr (hs.imp fun {a b} hab hu hk => hf.usedAt a (hab ?_ ?_))
    · rwa [hf.userId, hf.userId] at hu
    · rwa [hf.kind, hf.kind] at hk
  cases h with
  | keep ht hu hl =>
      refine iff_of_true (by rw [Superseded, ht]; exact hs) ?_
      intro id userId kind tokenHash address known he hf hnew
      exact absurd (hl id userId kind tokenHash address known he) (not_or.mpr ⟨hf, hnew⟩)
  | @issue _ _ _ known t hf hnew hunused hrows hu =>
      rw [Superseded, hrows, List.pairwise_append]
      constructor
      · rintro ⟨-, -, hlast⟩ _ _ _ _ _ _ hl - - a ha hp
        cases hl
        by_contra hmiss
        have hkeep : invalidated t.userId t.kind known e.now a = a := by
          simp [invalidated, hmiss]
        obtain ⟨hua, hka, hna⟩ := isPending_iff.mp hp
        exact hlast a (List.mem_map.mpr ⟨a, ha, hkeep⟩) t (List.mem_singleton.mpr rfl) hua hka hna
      · intro hmiss
        refine ⟨hmap invalidated_onlyUses, List.pairwise_singleton _ _, fun a' ha' b hb hu hk => ?_⟩
        obtain ⟨a, ha, rfl⟩ := List.mem_map.mp ha'
        obtain rfl := List.mem_singleton.mp hb
        rw [invalidated_onlyUses.userId] at hu
        rw [invalidated_onlyUses.kind] at hk
        by_cases hna : a.usedAt = none
        · have hp := isPending_iff.mpr ⟨hu, hk, hna⟩
          simp [invalidated, hp, hmiss _ _ _ _ _ _ rfl hf hnew a ha hp]
        · exact invalidated_onlyUses.usedAt a hna
  | consume hmem hc hrows hu =>
      refine iff_of_true (by rw [Superseded, hrows]; exact hmap consumed_onlyUses) ?_
      intro _ _ _ _ _ _ hl
      cases hl

end Actions

/-! ### The calls keep to it -/

/-- The contract: every statement is a `TokenAction`. -/
def tokenContract : Contract Event Env AppState where
  inv := TokenInv
  guar := TokenAction
  adm i l e s := admissible i l e s = true
  guar_inv := TokenInv.step

variable {i : Nat}

theorem issuesNone_of_quiet {e : Env} {s : AppState} : IssuesNone .quiet e s :=
  fun _ _ _ _ _ _ hl => by cases hl

theorem tokenContract_tolerant : Tolerant tokenContract where
  stay _ _ _ _ _ hf := .keep rfl rfl fun _ _ _ _ _ _ _ => .inl hf
  bystander _ _ _ _ _ h := .keep h.userTokens (by rw [h.history]) issuesNone_of_quiet
  issue _ _ _ _ _ := .keep rfl rfl issuesNone_of_quiet

/-- The call has consumed the token. -/
theorem used_lasting {id : Uuid} {j : Nat} :
    tokenContract.Lasting fun s => (id, j) ∈ s.history.uses := by
  intro i l e s s' _ hid hg
  cases hg with
  | keep ht hu => exact hu ▸ hid
  | issue hf hnew hunused hrows hu => exact hu ▸ hid
  | consume hmem hc hrows hu => exact hu ▸ List.mem_cons_of_mem _ hid

/-- The call has consumed a token of the kind with this hash. -/
def HasConsumed (i : Nat) (kind : TokenKind) (tokenHash : String) (s : AppState) : Prop :=
  ∃ t ∈ s.db.userTokens, (t.id, i) ∈ s.history.uses ∧ t.kind = kind ∧ t.tokenHash = tokenHash

theorem hasConsumed_lasting {j : Nat} {kind : TokenKind} {tokenHash : String} :
    tokenContract.Lasting (HasConsumed j kind tokenHash) := by
  rintro i l e s s' hi ⟨t, ht, huse, hk, hh⟩ hg
  obtain ⟨f, new, hf, hrows, -⟩ := hg.rows
  refine ⟨f t, ?_, ?_, (hf.kind t).trans hk, (hf.tokenHash t).trans hh⟩
  · rw [Table.mem_def, hrows]
    exact List.mem_append_left _ (List.mem_map_of_mem ht)
  · rw [hf.id]
    exact used_lasting i l e s s' hi huse hg

theorem createUserToken_safe {userId : Uuid} {kind : TokenKind} {tokenHash address : String}
    {expiresAt : Time} :
    tokenContract.Safe i (createUserToken userId kind tokenHash expiresAt address) := by
  refine .bind (select_safe tokenContract_tolerant) fun known => ?_
  refine .bind (newUuid_safe tokenContract_tolerant) fun id => ?_
  refine sql_safe tokenContract_tolerant fun s e _ _ hf => ?_
  dsimp only
  split
  · rename_i hhash
    obtain ⟨t, ht, he⟩ := Table.any_eq_true.mp hhash
    refine .keep rfl rfl fun _ _ _ _ _ _ hl => ?_
    cases hl
    exact .inr ⟨t, ht, .inr (of_decide_eq_true he)⟩
  · rename_i hhash
    split
    · rename_i table hins
      refine @TokenAction.issue _ _ _ _ known
        ⟨id, userId, kind, tokenHash, expiresAt, none, e.now, address⟩ hf ?_ rfl (Table.rows_insert hins) rfl
      rintro ⟨t, ht, hid | he⟩
      · have hnew := (Table.insert_eq_some hins).1
        obtain ⟨t', ht', he⟩ := Table.exists_mem_update ht
          (fun t => known.contains t.id && isPending userId kind t)
          (fun t => { t with usedAt := some e.now }) ⟨fun _ => rfl⟩
        exact hnew t' ht' (he.trans hid)
      · exact hhash (Table.any_eq_true.mpr ⟨t, ht, decide_eq_true he⟩)
    · rename_i hins
      refine .keep rfl rfl fun _ _ _ _ _ _ hl => ?_
      cases hl
      obtain ⟨t', ht', he⟩ := Table.insert_eq_none hins
      obtain ⟨t, ht, rfl⟩ := Table.mem_update.mp ht'
      refine .inr ⟨t, ht, .inl ?_⟩
      split at he <;> exact he

theorem consumeUserToken_triple {kind : TokenKind} {tokenHash : String} :
    tokenContract.Triple i (fun _ => True) (consumeUserToken kind tokenHash)
      (onOk fun t s => ((t.id, i) ∈ s.history.uses ∧ HasConsumed i kind tokenHash s) ∧
        ∃ now, t.usedAt = some now ∧ now < t.expiresAt) := by
  refine sql_triple tokenContract_tolerant stable_const
    (fun t => ((used_lasting.and hasConsumed_lasting).and lasting_const).stable i)
    fun s e _ _ ha _ => ?_
  cases hsel : (s.db.userTokens.select (isConsumable kind tokenHash e.now)).head? with
  | none => exact ⟨.keep rfl rfl issuesNone_of_quiet, trivial⟩
  | some t =>
      obtain ⟨hmem, hc⟩ := Table.mem_select.mp (List.mem_of_mem_head? hsel)
      have huses : (Db.History.afterConsumption e.pid t s.history).uses =
          (t.id, i) :: s.history.uses := by
        rw [← (not_issued_of_admissible ha).1]
        unfold Db.History.afterConsumption
        split <;> rfl
      have hnew : (t.id, i) ∈ (Db.History.afterConsumption e.pid t s.history).uses :=
        huses ▸ List.mem_cons_self
      obtain ⟨hk, hh, -, hlt⟩ := isConsumable_iff.mp hc
      refine ⟨.consume hmem hc rfl huses, ⟨hnew, ?_⟩, e.now, rfl, hlt⟩
      exact ⟨consumed kind tokenHash e.now t, List.mem_map_of_mem hmem,
        (consumed_onlyUses.id t).symm ▸ hnew, (consumed_onlyUses.kind t).trans hk,
        (consumed_onlyUses.tokenHash t).trans hh⟩

/-- What a call has achieved when it returns: a consumption is noted, and was in time. -/
def TokenPost (i : Nat) : TokenCall → Except AppError UserTokenRecord → AppState → Prop
  | .consumeUserToken _ _, .ok t, s =>
    (t.id, i) ∈ s.history.uses ∧ ∃ now, t.usedAt = some now ∧ now < t.expiresAt
  | _, _, _ => True

theorem tokenCall_triple (i : Nat) (k : TokenCall) :
    tokenContract.Triple i (fun _ => True) (tokenSystem.body k) (TokenPost i k) := by
  cases k with
  | createUserToken => exact createUserToken_safe
  | consumeUserToken =>
      refine consumeUserToken_triple.post fun r s _ h => ?_
      cases r with
      | ok t => exact ⟨h.1.1, h.2⟩
      | error x => trivial

/-- What holds when a run starts: hashes are unique, only the newest token of a user and kind is
unused, and nothing has been noted yet. -/
structure TokenStart (s : AppState) : Prop where
  hashes : ∀ a ∈ s.db.userTokens, ∀ b ∈ s.db.userTokens, a.tokenHash = b.tokenHash → a = b
  superseded : Superseded s
  uses : s.history.uses = []

theorem TokenStart.inv {s : AppState} (h : TokenStart s) : TokenInv s := by
  refine ⟨h.hashes, fun id j hj => ?_, ?_⟩
  · rw [h.uses] at hj
    cases hj
  · rw [h.uses]
    exact List.nodup_nil

/-- A token has been consumed by one call. -/
theorem TokenInv.user_unique {s : AppState} (h : TokenInv s) {id : Uuid} {j k : Nat}
    (hj : (id, j) ∈ s.history.uses) (hk : (id, k) ∈ s.history.uses) : j = k :=
  (Prod.ext_iff.mp (List.inj_on_of_nodup_map h.once hj hk rfl)).2

end Fluxa.Accounts

namespace Fluxa
open Interleave Relational Accounts

/-- A run has in every state at most one unused token for each user and kind, and all older ones
used, exactly when no token is issued beside an unused one that the call has missed.  In every run,
calls that consume a token consume different tokens, and not after their expiry. -/
theorem tokens_one_time_iff {s : AppState} (hs : TokenStart s) {ms : List (Move Env TokenCall)}
    {c : Config Event Env AppState AppError TokenCall UserTokenRecord}
    (h : tokenSystem.exec (.start s) ms = some c) :
    (tokenSystem.Through (fun d => OneUnused d.st ∧ Superseded d.st) (.start s) ms ↔
      tokenSystem.Along (fun d m => d.Meets NoneMissed m) (.start s) ms) ∧
    (∀ (i j : Nat) kind kind' hash hash' (t t' : UserTokenRecord),
      c.calls[i]? = some (.consumeUserToken kind hash, .done (.ok t)) →
      c.calls[j]? = some (.consumeUserToken kind' hash', .done (.ok t')) → t.id = t'.id → i = j) ∧
    ∀ (i : Nat) kind hash (t : UserTokenRecord), c.calls[i]? = some (.consumeUserToken kind hash, .done (.ok t)) →
      ∃ now, t.usedAt = some now ∧ now < t.expiresAt := by
  have hkeeps := Contract.sound_all (K := tokenContract) tokenCall_triple
    (fun _ _ _ _ ha => ha) hs.inv h
  refine ⟨?_, fun i j kind kind' hash hash' t t' hi hj hid => ?_, fun i kind hash t hi => ?_⟩
  · have hiff := Contract.through_iff_along (K := tokenContract) (P := Superseded)
      tokenCall_triple (fun _ _ _ _ ha => ha)
      (fun _ _ _ _ _ _ _ hp hg => hg.superseded_iff hp) hs.inv hs.superseded h
    rw [← hiff]
    exact ⟨fun ht => ht.mono fun _ hd => hd.2, fun ht => ht.mono fun _ hd => ⟨hd.oneUnused, hd⟩⟩
  · have hui := (hkeeps.result hi).1
    rw [hid] at hui
    exact hkeeps.1.user_unique hui (hkeeps.result hj).1
  · exact (hkeeps.result hi).2

/-! ### Two requests at once -/

namespace Accounts

/-- Two creations of a reset token for user 1, which both look before either inserts, and the
consumption of the token that is inserted first. -/
def twoResets : List (Move Env TokenCall) :=
  [.call (.createUserToken 1 .passwordReset "a" 100 "u@x"),
    .call (.createUserToken 1 .passwordReset "b" 100 "u@x"),
    .exec 0 { (default : Env) with pid := 0 }, .exec 1 { (default : Env) with pid := 1 },
    .exec 0 { (default : Env) with pid := 0, uuid := 5 },
    .exec 1 { (default : Env) with pid := 1, uuid := 6 },
    .exec 0 { (default : Env) with pid := 0, now := 1 },
    .exec 1 { (default : Env) with pid := 1, now := 2 },
    .call (.consumeUserToken .passwordReset "a"), .exec 2 { (default : Env) with pid := 2, now := 3 }]

theorem default_tokenStart : TokenStart default where
  hashes _ ha := absurd ha Table.not_mem_empty
  superseded := .nil
  uses := rfl

/-- The token that the consumption has got, once it has one. -/
def consumedToken (c : Config Event Env AppState AppError TokenCall UserTokenRecord) :
    Option UserTokenRecord :=
  match (c.calls[2]? : Option (TokenCall × Service UserTokenRecord)) with
  | some (.consumeUserToken .passwordReset "a", .done (.ok t)) => some t
  | _ => none

end Accounts

/-- The equivalence at a run. -/
theorem tokens_one_time_iff_twoResets :
    ∃ c, tokenSystem.exec (.start default) twoResets = some c ∧
      (tokenSystem.Through (fun d => OneUnused d.st ∧ Superseded d.st) (.start default) twoResets ↔
        tokenSystem.Along (fun d m => d.Meets NoneMissed m) (.start default) twoResets) := by
  have h : (tokenSystem.exec (.start default) twoResets).isSome := by decide +kernel
  obtain ⟨c, hc⟩ := Option.isSome_iff_exists.mp h
  exact ⟨c, hc, (tokens_one_time_iff default_tokenStart hc).1⟩

/-- Both tokens are unused before the consumption, and the older one is consumed after the newer
one has been issued. -/
theorem two_resets_both_usable :
    TokenStart default ∧
      (∃ c, tokenSystem.exec (.start default) (twoResets.take 8) = some c ∧ ¬ OneUnused c.st) ∧
      ∃ c t, tokenSystem.exec (.start default) twoResets = some c ∧ consumedToken c = some t ∧
        t.id = 5 ∧ ∃ new ∈ c.st.db.userTokens, new.id = 6 ∧ t.createdAt < new.createdAt ∧
          new.userId = t.userId ∧ new.kind = t.kind ∧ new.usedAt = none := by
  refine ⟨default_tokenStart, ?_, ?_⟩
  · have h : (tokenSystem.exec (.start default) (twoResets.take 8)).any fun c =>
        c.st.db.userTokens.rows = [⟨5, 1, .passwordReset, "a", 100, none, 1, "u@x"⟩,
          ⟨6, 1, .passwordReset, "b", 100, none, 2, "u@x"⟩] := by decide +kernel
    obtain ⟨c, hc, h⟩ := (Option.any_eq_true _ _).mp h
    have hrows := of_decide_eq_true h
    refine ⟨c, hc, fun hone => ?_⟩
    have := hone ⟨5, 1, .passwordReset, "a", 100, none, 1, "u@x"⟩
      (by rw [Table.mem_def, hrows]; simp) ⟨6, 1, .passwordReset, "b", 100, none, 2, "u@x"⟩
      (by rw [Table.mem_def, hrows]; simp) rfl rfl rfl rfl
    simp at this
  · have h : (tokenSystem.exec (.start default) twoResets).any fun c =>
        (consumedToken c).any fun t => t.id = 5 ∧ ∃ new ∈ c.st.db.userTokens.rows, new.id = 6 ∧
          t.createdAt < new.createdAt ∧ new.userId = t.userId ∧ new.kind = t.kind ∧
          new.usedAt = none := by decide +kernel
    obtain ⟨c, hc, h⟩ := (Option.any_eq_true _ _).mp h
    obtain ⟨t, ht, h⟩ := (Option.any_eq_true _ _).mp h
    exact ⟨c, t, hc, ht, of_decide_eq_true h⟩

end Fluxa
