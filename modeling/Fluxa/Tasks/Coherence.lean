import Fluxa.Interleave.Named
import Fluxa.Interleave.Visits
import Fluxa.Relational.Versions
import Fluxa.Services.Labels
import Fluxa.Services.Projects
import Fluxa.State.Quiet

/-!
# Tasks — coherence of the cached answers

Reads of tasks go through Redis: an answer is stored under a key that carries the tenant's cache version, and each change of tasks, labels and projects raises that version after its commit.

**`cached_reads_coherent`**: a read that comes in after a change of its tenant has returned is answered from a state of the database after the change's commit, whether the answer is read from Redis or computed.  The stamp of an answer is the number of commits before the query that computed it (`CachedTasks.asOf`), and the answer is what the database holds in that state (`AnswerOf`).
-/

namespace Fluxa
open Interleave Relational Db Contract

/-- A cached read of tasks. -/
inductive TaskRead where
  | list (filters : TaskFilters) (cursorToken : Option String) (cursor : Option Cursor)
      (limit : Nat)
  | detail (taskId : Uuid)

/-- A change that bumps the tenant's cache version. -/
inductive TaskChange where
  | createTask (actorId : Uuid) (input : CreateTaskInput)
  | updateTask (taskId actorId : Uuid) (input : UpdateTaskInput)
  | bulkUpdateTaskStatus (actorId : Uuid) (taskIds : List Uuid) (status : TaskStatus)
  | archiveTask (taskId actorId : Uuid)
  | restoreTask (taskId actorId : Uuid)
  | setTaskLabels (taskId actorId : Uuid) (labelIds : List Uuid)
  | deleteLabel (labelId actorId : Uuid)
  | archiveProject (actorId projectId : Uuid)
  | restoreProject (actorId projectId : Uuid)
  | updateProject (projectId actorId : Uuid) (input : UpdateProjectInput)

/-- The calls: reads and changes of a tenant. -/
inductive CachedCall where
  | read (tenantId : Uuid) (r : TaskRead)
  | change (tenantId : Uuid) (c : TaskChange)

def TaskRead.run (app : App) (tenantId : Uuid) : TaskRead → Service CachedTasks
  | .list filters cursorToken cursor limit => do
    let (page, asOf) ← Tasks.listTasksCached app tenantId filters cursorToken cursor limit
    return ⟨.inl page, asOf⟩
  | .detail taskId => do
    let (task, asOf) ← Tasks.getTaskCached app tenantId taskId
    return ⟨.inr task, asOf⟩

/-- The key of the answer, under a version. -/
def TaskRead.key (tenantId : Uuid) (version : Nat) : TaskRead → TaskCacheKey
  | .list filters cursorToken _ limit => .list tenantId version filters cursorToken limit
  | .detail taskId => .detail tenantId version taskId

/-- What the database answers to a read. -/
def TaskRead.answer? (app : App) (tenantId : Uuid) (s : AppState) :
    TaskRead → Option (TaskPage ⊕ TaskRecord)
  | .list filters _ cursor limit =>
    let (tasks, next) := tasksPage app tenantId filters cursor limit s
    some (.inl ⟨tasks, next.map (·.encode app)⟩)
  | .detail taskId => (findTask s tenantId taskId).map .inr

def TaskChange.run (app : App) (tenantId : Uuid) : TaskChange → Service Unit
  | .createTask actorId input => do
    let _ ← Tasks.createTask app tenantId actorId input
  | .updateTask taskId actorId input => do
    let _ ← Tasks.updateTask app tenantId taskId actorId input
  | .bulkUpdateTaskStatus actorId taskIds status => do
    let _ ← Tasks.bulkUpdateTaskStatus app tenantId actorId taskIds status
  | .archiveTask taskId actorId => Tasks.archiveTask app tenantId taskId actorId
  | .restoreTask taskId actorId => do
    let _ ← Tasks.restoreTask app tenantId taskId actorId
  | .setTaskLabels taskId actorId labelIds => do
    let _ ← Labels.setTaskLabels app tenantId taskId actorId labelIds
  | .deleteLabel labelId actorId => Labels.deleteLabel tenantId labelId actorId
  | .archiveProject actorId projectId => Projects.archiveProject tenantId actorId projectId
  | .restoreProject actorId projectId => do
    let _ ← Projects.restoreProject tenantId actorId projectId
  | .updateProject projectId actorId input => do
    let _ ← Projects.updateProject tenantId projectId actorId input

/-- Reads and changes, one statement at a time; a read ends with its answer. -/
def cachedSystem (app : App) :
    System Event Env AppState AppError CachedCall (Option CachedTasks) where
  body
    | .read tenantId r => do return some (← r.run app tenantId)
    | .change tenantId c => do
      c.run app tenantId
      return none
  adm := admissible

def TaskCacheKey.tenantId : TaskCacheKey → Uuid
  | .list tenantId .. => tenantId
  | .detail tenantId .. => tenantId

def TaskCacheKey.version : TaskCacheKey → Nat
  | .list _ version .. => version
  | .detail _ version _ => version

namespace Coherence

variable {app : App} {i : Nat} {s s' : AppState} {tenantId : Uuid}
  {good : TaskCacheKey → CachedTasks → Prop} {seen : AppState → Prop}

/-! ### The contract -/

/-- An answer of the tenant with the stamp `a` may be stored under the version `v`. -/
structure Fresh (s : AppState) (tenantId : Uuid) (v a : Nat) : Prop where
  covers : Covers (s.cache.versions tenantId) (s.cache.bumps tenantId) v a
  past : a ≤ s.history.commits.length

/-- No cached answer leaves out a change whose bump its version includes. -/
structure Coherent (s : AppState) : Prop where
  raised : ∀ tenantId, Raised (s.cache.versions tenantId) s.history.commits.length
    (s.cache.bumps tenantId)
  fresh : ∀ key entry, s.cache.tasks key = some entry →
    Fresh s key.tenantId key.version entry.value.asOf

/-- No cached answer leaves out such a change, and each is good for its key. -/
structure CacheInv (good : TaskCacheKey → CachedTasks → Prop) (s : AppState) : Prop where
  coherent : Coherent s
  good : ∀ key entry, s.cache.tasks key = some entry → good key entry.value

/-- The cached answers are left alone. -/
structure SameCaches (s s' : AppState) : Prop where
  versions : s'.cache.versions = s.cache.versions
  bumps : s'.cache.bumps = s.cache.bumps
  tasks : s'.cache.tasks = s.cache.tasks

/-- What a statement of call `i` does. -/
inductive CacheAction (good : TaskCacheKey → CachedTasks → Prop) (i : Nat) (s s' : AppState) :
    Prop where
  /-- At most a change is committed. -/
  | work (hcaches : SameCaches s s')
      (hcommits : s'.history.commits = s.history.commits ∨
        s'.history.commits = s.history.commits ++ [i])
  | bump (tenantId : Uuid)
      (hversions : s'.cache.versions =
        Function.update s.cache.versions tenantId (s.cache.versions tenantId + 1))
      (hbumps : s'.cache.bumps = Function.update s.cache.bumps tenantId
        ((s.cache.versions tenantId + 1, s.history.commits.length) :: s.cache.bumps tenantId))
      (htasks : s'.cache.tasks = s.cache.tasks)
      (hcommits : s'.history.commits = s.history.commits)
  | store (key : TaskCacheKey) (entry : Entry CachedTasks)
      (hfresh : Fresh s key.tenantId key.version entry.value.asOf)
      (hgood : good key entry.value)
      (hversions : s'.cache.versions = s.cache.versions)
      (hbumps : s'.cache.bumps = s.cache.bumps)
      (htasks : s'.cache.tasks = Function.update s.cache.tasks key (some entry))
      (hcommits : s'.history.commits = s.history.commits)

theorem SameCaches.of_cache (h : s'.cache = s.cache) : SameCaches s s' := by
  constructor <;> rw [h]

theorem CacheAction.commits_le (h : CacheAction good i s s') :
    s.history.commits.length ≤ s'.history.commits.length := by
  cases h with
  | work _ hcommits =>
      rcases hcommits with h | h
      · rw [h]
      · rw [h, List.length_append]
        exact Nat.le_add_right _ _
  | bump _ _ _ _ hcommits => rw [hcommits]
  | store _ _ _ _ _ _ _ hcommits => rw [hcommits]

/-- What may be stored under a version may be stored under it for ever. -/
theorem Fresh.action {v a : Nat} (hf : Fresh s tenantId v a) (h : CacheAction good i s s') :
    Fresh s' tenantId v a := by
  refine ⟨?_, hf.past.trans h.commits_le⟩
  cases h with
  | work hcaches =>
      rw [hcaches.versions, hcaches.bumps]
      exact hf.covers
  | bump T hversions hbumps =>
      rw [hversions, hbumps]
      by_cases hT : tenantId = T
      · subst hT
        simp only [Function.update_self]
        exact hf.covers.raise
      · simp only [Function.update_of_ne hT]
        exact hf.covers
  | store _ _ _ _ hversions hbumps =>
      rw [hversions, hbumps]
      exact hf.covers

theorem Coherent.action (hi : Coherent s) (h : CacheAction good i s s') : Coherent s' := by
  refine ⟨fun tenantId => ?_, fun key entry he => ?_⟩
  · refine Raised.mono ?_ h.commits_le
    cases h with
    | work hcaches =>
        rw [hcaches.versions, hcaches.bumps]
        exact hi.raised tenantId
    | bump T hversions hbumps =>
        rw [hversions, hbumps]
        by_cases hT : tenantId = T
        · subst hT
          simp only [Function.update_self]
          exact (hi.raised tenantId).raise
        · simp only [Function.update_of_ne hT]
          exact hi.raised tenantId
    | store _ _ _ _ hversions hbumps =>
        rw [hversions, hbumps]
        exact hi.raised tenantId
  · refine Fresh.action ?_ h
    cases h with
    | work hcaches => exact hi.fresh key entry (hcaches.tasks ▸ he)
    | bump _ _ _ htasks => exact hi.fresh key entry (htasks ▸ he)
    | store key' entry' hfresh _ _ _ htasks =>
        rw [htasks, Function.update_apply] at he
        split at he
        · cases he
          exact ‹key = key'› ▸ hfresh
        · exact hi.fresh key entry he

theorem CacheInv.action (hi : CacheInv good s) (h : CacheAction good i s s') : CacheInv good s' := by
  refine ⟨hi.coherent.action h, fun key entry he => ?_⟩
  cases h with
  | work hcaches => exact hi.good key entry (hcaches.tasks ▸ he)
  | bump _ _ _ htasks => exact hi.good key entry (htasks ▸ he)
  | store key' entry' _ hgood _ _ htasks =>
      rw [htasks, Function.update_apply] at he
      split at he
      · cases he
        exact ‹key = key'› ▸ hgood
      · exact hi.good key entry he

/-- The contract: every statement is a `CacheAction`, and runs in a state that has been seen. -/
def cacheContract (good : TaskCacheKey → CachedTasks → Prop) (seen : AppState → Prop) :
    Contract Event Env AppState where
  inv := CacheInv good
  guar i _ _ := CacheAction good i
  adm i l e s := admissible i l e s = true ∧ seen s
  guar_inv := CacheInv.action

theorem cacheContract_lenient : Lenient (cacheContract good seen) where
  stay _ _ _ _ _ _ := .work (.of_cache rfl) (.inl rfl)
  onlooker _ _ _ _ _ h :=
    .work ⟨h.versions, h.bumps, h.cachedTasks⟩ (.inl (by rw [h.history]))
  issue _ _ _ _ _ := .work (.of_cache rfl) (.inl rfl)

theorem cacheContract_patient : Patient (cacheContract good seen) := cacheContract_lenient.toPatient

/-- Redis as it is when nothing has been cached. -/
theorem Coherent.of_empty (hbumps : ∀ tenantId, s.cache.bumps tenantId = [])
    (htasks : ∀ key, s.cache.tasks key = none) : Coherent s :=
  ⟨fun tenantId => hbumps tenantId ▸ .nil, fun key _ h => by simp [htasks key] at h⟩

theorem fresh_lasting {v a : Nat} : (cacheContract good seen).Lasting fun s => Fresh s tenantId v a :=
  fun _ _ _ _ _ _ hf hg => hf.action hg

/-! ### Reads -/

section Reads

variable {A : Type} {B : List (Nat × Nat)} {v a : Nat}

/-- The version `v` has been read after the raises `B`. -/
structure Reading (B : List (Nat × Nat)) (tenantId : Uuid) (v : Nat) (s : AppState) : Prop where
  fresh : Fresh s tenantId v s.history.commits.length
  raises : ∀ x ∈ B, x ∈ s.cache.bumps tenantId ∧ x.1 ≤ v

theorem mem_bumps_action {x : Nat × Nat} (hx : x ∈ s.cache.bumps tenantId)
    (h : CacheAction good i s s') : x ∈ s'.cache.bumps tenantId := by
  cases h with
  | work hcaches => rwa [hcaches.bumps]
  | bump T _ hbumps =>
      rw [hbumps]
      by_cases hT : tenantId = T
      · subst hT
        rw [Function.update_self]
        exact List.mem_cons_of_mem _ hx
      · rwa [Function.update_of_ne hT]
  | store _ _ _ _ _ hbumps => rwa [hbumps]

theorem raises_lasting :
    (cacheContract good seen).Lasting fun s => ∀ x ∈ B, x ∈ s.cache.bumps tenantId :=
  fun _ _ _ _ _ _ hs hg x hx => mem_bumps_action (hs x hx) hg

theorem reading_lasting : (cacheContract good seen).Lasting (Reading B tenantId v) := by
  intro j l e s s' _ hs hg
  refine ⟨?_, fun x hx => ⟨mem_bumps_action (hs.raises x hx).1 hg, (hs.raises x hx).2⟩⟩
  have hf := hs.fresh.action hg
  exact ⟨hf.covers.mono hf.past, le_rfl⟩

theorem Reading.le {s : AppState} (h : Reading B tenantId v s) (hf : Fresh s tenantId v a) :
    ∀ x ∈ B, x.2 ≤ a :=
  fun x hx => hf.covers.le x (h.raises x hx).1 (h.raises x hx).2

theorem tenantCacheVersion_triple :
    (cacheContract good seen).Triple i (fun s => ∀ x ∈ B, x ∈ s.cache.bumps tenantId)
      (Cache.tenantCacheVersion tenantId) (onOk (Reading B tenantId)) := by
  refine redisAs_triple cacheContract_patient (raises_lasting.stable i)
    (fun v => reading_lasting.stable i) fun s e hi hs _ _ => ?_
  have hraised := hi.coherent.raised tenantId
  refine ⟨.work (.of_cache rfl) (.inl rfl), ⟨hraised.covers, le_rfl⟩, fun x hx => ?_⟩
  exact ⟨hs x hx, (hraised x (hs x hx)).1⟩

/-- What is found in Redis under the version that has been read. -/
theorem getJson_triple {key : TaskCacheKey} {decode : CachedTasks → Option (A × Nat)}
    (encode : A → TaskPage ⊕ TaskRecord)
    (hdecode : ∀ c p, decode c = some p → c = ⟨encode p.1, p.2⟩) (hkey : key.tenantId = tenantId)
    (hv : key.version = v) :
    (cacheContract good seen).Triple i (Reading B tenantId v) (Cache.getJson key decode)
      (onOk fun o s => Reading B tenantId v s ∧
        ∀ p, o = some p → (∀ x ∈ B, x.2 ≤ p.2) ∧ good key ⟨encode p.1, p.2⟩) := by
  refine Triple.atomic (reading_lasting.stable i)
    (stable_onOk fun o => (reading_lasting.stable i).and stable_const) fun s e hi hs _ _ => ?_
  have hkeep : CacheAction good i s s := .work (.of_cache rfl) (.inl rfl)
  split
  · exact ⟨hkeep, hs, fun p hp => by cases hp⟩
  · rename_i entry _ hentry
    obtain ⟨hget, -⟩ := Option.filter_eq_some_iff.mp hentry
    have hf := hi.coherent.fresh key entry hget
    have hgood := hi.good key entry hget
    rw [hkey, hv] at hf
    split
    · rename_i p hp
      refine ⟨hkeep, hs, fun q hq => ?_⟩
      cases hq
      rw [hdecode _ _ hp] at hf hgood
      exact ⟨hs.le hf, hgood⟩
    · exact ⟨hkeep, trivial⟩
  · exact ⟨hkeep, trivial⟩

/-- What is computed after the version has been read. -/
theorem selectAsOf_triple {run : Env → AppState → A} :
    (cacheContract good seen).Triple i (Reading B tenantId v) (selectAsOf run)
      (onOk fun p s => ((∀ x ∈ B, x.2 ≤ p.2) ∧
        ∃ e t, seen t ∧ p = (run e t, t.history.commits.length)) ∧ Fresh s tenantId v p.2) := by
  refine sql_triple cacheContract_patient (reading_lasting.stable i)
    (fun p => stable_const.and (fresh_lasting.stable i)) fun s e _ hs ha _ => ?_
  exact ⟨.work (.of_cache rfl) (.inl rfl), ⟨hs.le hs.fresh, e, s, ha.2, rfl⟩, hs.fresh⟩

theorem setJson_triple {key : TaskCacheKey} {value : CachedTasks} {ttl : Nat}
    (hkey : key.tenantId = tenantId) (hv : key.version = v) (ha : value.asOf = a)
    (hgood : good key value) :
    (cacheContract good seen).Triple i (fun s => Fresh s tenantId v a) (Cache.setJson key value ttl)
      fun _ _ => True := by
  refine Triple.any <| redisAs_triple (Q := fun _ _ => True) cacheContract_patient
    (fresh_lasting.stable i) (fun _ => stable_const) fun s e _ hs _ _ => ⟨?_, trivial⟩
  exact .store key _ (by rw [hkey, hv, ha]; exact hs) hgood rfl rfl rfl rfl

/-- What the database answers to the read in a state that has been seen is good to be stored. -/
def GoodRead (app : App) (good : TaskCacheKey → CachedTasks → Prop) (seen : AppState → Prop)
    (tenantId : Uuid) (r : TaskRead) : Prop :=
  ∀ v t answer, seen t → r.answer? app tenantId t = some answer →
    good (r.key tenantId v) ⟨answer, t.history.commits.length⟩

/-- The answer leaves out no change before the raises `B`, and is good for the read. -/
def Answers (good : TaskCacheKey → CachedTasks → Prop) (B : List (Nat × Nat)) (tenantId : Uuid)
    (r : TaskRead) (cached : CachedTasks) : Prop :=
  (∀ x ∈ B, x.2 ≤ cached.asOf) ∧ ∃ v, good (r.key tenantId v) cached

/-- A read ends with an answer that leaves out no change that a raise before it followed. -/
theorem listTasksCached_triple {filters : TaskFilters} {cursorToken : Option String}
    {cursor : Option Cursor} {limit : Nat}
    (hgood : GoodRead app good seen tenantId (.list filters cursorToken cursor limit)) :
    (cacheContract good seen).Triple i (fun s => ∀ x ∈ B, x ∈ s.cache.bumps tenantId)
      (Tasks.listTasksCached app tenantId filters cursorToken cursor limit)
      (onOk fun p _ => Answers good B tenantId (.list filters cursorToken cursor limit)
        ⟨.inl p.1, p.2⟩) := by
  refine Triple.seq tenantCacheVersion_triple fun v => ?_
  refine Triple.seq (getJson_triple Sum.inl ?_ rfl rfl) fun o => ?_
  · rintro ⟨answer, asOf⟩ p hp
    obtain ⟨page, hpage, rfl⟩ := Option.map_eq_some_iff.mp hp
    exact congrArg (CachedTasks.mk · asOf) (Sum.getLeft?_eq_some_iff.mp hpage)
  · cases o with
    | some p =>
        refine Triple.done ((reading_lasting.stable i).and stable_const) fun s _ hs => ?_
        obtain ⟨hle, hgood⟩ := hs.2 p rfl
        exact ⟨hle, v, hgood⟩
    | none =>
        refine Triple.seq (selectAsOf_triple.pre fun s _ hs => hs.1) fun p => ?_
        refine Triple.of_fact fun ⟨hle, e, t, ht, hp⟩ => ?_
        subst hp
        have hnew := hgood v t _ ht rfl
        refine Triple.bind (setJson_triple rfl rfl rfl hnew) (fun _ => ?_) fun _ _ _ _ => trivial
        exact Triple.done stable_const fun _ _ _ => ⟨hle, v, hnew⟩

theorem getTaskCached_triple {taskId : Uuid}
    (hgood : GoodRead app good seen tenantId (.detail taskId)) :
    (cacheContract good seen).Triple i (fun s => ∀ x ∈ B, x ∈ s.cache.bumps tenantId)
      (Tasks.getTaskCached app tenantId taskId)
      (onOk fun p _ => Answers good B tenantId (.detail taskId) ⟨.inr p.1, p.2⟩) := by
  refine Triple.seq tenantCacheVersion_triple fun v => ?_
  refine Triple.seq (getJson_triple Sum.inr ?_ rfl rfl) fun o => ?_
  · rintro ⟨answer, asOf⟩ p hp
    obtain ⟨task, htask, rfl⟩ := Option.map_eq_some_iff.mp hp
    exact congrArg (CachedTasks.mk · asOf) (Sum.getRight?_eq_some_iff.mp htask)
  · cases o with
    | some p =>
        refine Triple.done ((reading_lasting.stable i).and stable_const) fun s _ hs => ?_
        obtain ⟨hle, hgood⟩ := hs.2 p rfl
        exact ⟨hle, v, hgood⟩
    | none =>
        refine Triple.seq (selectAsOf_triple.pre fun s _ hs => hs.1) fun p => ?_
        refine Triple.of_fact fun ⟨hle, e, t, ht, hp⟩ => ?_
        subst hp
        refine Triple.seq (Triple.okOr (fresh_lasting.stable i)) fun task => ?_
        refine Triple.of_fact fun htask => ?_
        have hnew := hgood v t (.inr task) ht (by rw [TaskRead.answer?, htask, Option.map_some])
        refine Triple.bind (setJson_triple rfl rfl rfl hnew) (fun _ => ?_) fun _ _ _ _ => trivial
        exact Triple.done stable_const fun _ _ _ => ⟨hle, v, hnew⟩

theorem read_triple (r : TaskRead) (hgood : GoodRead app good seen tenantId r) :
    (cacheContract good seen).Triple i (fun s => ∀ x ∈ B, x ∈ s.cache.bumps tenantId)
      (r.run app tenantId) (onOk fun cached _ => Answers good B tenantId r cached) := by
  cases r with
  | list =>
      exact Triple.seq (listTasksCached_triple hgood) fun p => .done stable_const fun _ _ hp => hp
  | detail =>
      exact Triple.seq (getTaskCached_triple hgood) fun p => .done stable_const fun _ _ hp => hp

end Reads

/-! ### Changes -/

section Changes

/-- Call `i` has committed its change and then bumped the version. -/
structure Published (i : Nat) (tenantId : Uuid) (s : AppState) : Prop where
  committed : i ∈ s.history.commits
  bumped : ∃ x ∈ s.cache.bumps tenantId, ∀ n, s.history.commits[n]? = some i → n < x.2

theorem committed_lasting : (cacheContract good seen).Lasting fun s => i ∈ s.history.commits := by
  intro j l e s s' _ hs hg
  cases hg with
  | work _ hcommits =>
      rcases hcommits with h | h
      · exact h ▸ hs
      · exact h ▸ List.mem_append_left _ hs
  | bump _ _ _ _ hcommits => exact hcommits ▸ hs
  | store _ _ _ _ _ _ _ hcommits => exact hcommits ▸ hs

/-- The others commit changes of their own only. -/
theorem published_stable : (cacheContract good seen).Stable i (Published i tenantId) := by
  intro s s' j l e hi hs hj hg
  obtain ⟨x, hx, hlt⟩ := hs.bumped
  refine ⟨committed_lasting j l e s s' hi hs.committed hg, x, mem_bumps_action hx hg,
    fun n hn => hlt n ?_⟩
  cases hg with
  | work _ hcommits =>
      rcases hcommits with h | h
      · rwa [h] at hn
      · rw [h, List.getElem?_append] at hn
        split at hn
        · exact hn
        · rw [List.getElem?_singleton] at hn
          split at hn
          · cases hn
            exact absurd rfl hj
          · cases hn
  | bump _ _ _ _ hcommits => rwa [hcommits] at hn
  | store _ _ _ _ _ _ _ hcommits => rwa [hcommits] at hn

/-- Neither a commit nor a bump. -/
def Idle (_ : Event) (_ : Env) (s s' : AppState) : Prop :=
  s'.cache.bumps = s.cache.bumps ∧ s'.history.commits = s.history.commits

theorem idle_lenient : Lenient ((cacheContract good seen).within i Idle) :=
  cacheContract_lenient.within (fun _ _ _ => ⟨rfl, rfl⟩)
    (fun _ _ _ h => ⟨h.bumps, by rw [h.history]⟩) fun _ _ => ⟨rfl, rfl⟩

theorem published_within : ((cacheContract good seen).within i Idle).Lasting (Published i tenantId) :=
  lasting_within published_stable fun _ _ s s' _ hs _ hw =>
    ⟨hw.2 ▸ hs.committed, by rw [hw.1, hw.2]; exact hs.bumped⟩

theorem bump_triple {event : Event} :
    (cacheContract good seen).Triple i (fun s => i ∈ s.history.commits)
      (Cache.bumpTenantCacheVersion tenantId event) (onOk fun _ => Published i tenantId) := by
  refine redisAs_triple cacheContract_patient (committed_lasting.stable i)
    (fun _ => published_stable) fun s e _ hs _ _ => ⟨.bump tenantId rfl rfl rfl rfl, hs, ?_⟩
  refine ⟨(s.cache.versions tenantId + 1, s.history.commits.length), ?_, fun n hn => ?_⟩
  · simp only [Function.update_self]
    exact List.mem_cons_self
  · exact (List.getElem?_eq_some_iff.mp hn).1

/-- A change that commits, then bumps, and then does nothing of interest. -/
theorem publish_triple {A B : Type} {event : Event} {p : Service A} {tail : A → Nat → Service B}
    (hp : (cacheContract good seen).Triple i (fun _ => True) p (onOk fun _ s => i ∈ s.history.commits))
    (htail : ∀ a v, ((cacheContract good seen).within i Idle).Safe i (tail a v)) :
    (cacheContract good seen).Triple i (fun _ => True)
      (p.bind fun a => (Cache.bumpTenantCacheVersion tenantId event).bind fun v => tail a v)
      (onOk fun _ => Published i tenantId) :=
  Triple.seq hp fun a => Triple.seq bump_triple fun v =>
    Triple.of_within ((htail a v).carry published_within)

/-- What a transaction leaves: its change committed, or nothing. -/
inductive Commits {A : Type} (pid : Nat) (s : AppState) : Except AppError A × AppState → Prop where
  | failed (x : AppError) : Commits pid s (.error x, s)
  | committed (a : A) (s' : AppState) (hcache : s'.cache = s.cache)
      (hcommits : s'.history.commits = s.history.commits ++ [pid]) : Commits pid s (.ok a, s')

theorem commits_triple {A : Type} {event : Event} {ready : AppState → Bool}
    {run : Env → AppState → Except AppError A × AppState}
    (h : ∀ e s, Commits e.pid s (run e s)) :
    (cacheContract good seen).Triple i (fun _ => True) (sqlWhen event ready run)
      (onOk fun _ s => i ∈ s.history.commits) := by
  refine sqlWhen_triple cacheContract_patient stable_const
    (fun _ => committed_lasting.stable i) fun s e _ _ _ ha _ => ?_
  have hpid : e.pid = i := (not_issued_of_admissible ha.1).1
  have hrun := h e s
  generalize run e s = r at hrun
  cases hrun with
  | failed x => exact ⟨.work (.of_cache rfl) (.inl rfl), trivial⟩
  | committed a s' hcache hcommits =>
      rw [hpid] at hcommits
      exact ⟨.work (.of_cache hcache) (.inr hcommits),
        show i ∈ s'.history.commits by rw [hcommits]; exact List.mem_append_right _ (List.mem_singleton.mpr rfl)⟩

/-- What a call knows of the commits once `p` has succeeded. -/
abbrev Committing (good : TaskCacheKey → CachedTasks → Prop) (seen : AppState → Prop) {A : Type}
    (i : Nat) (p : Service A) : Prop :=
  (cacheContract good seen).Triple i (fun _ => True) p (onOk fun _ s => i ∈ s.history.commits)

/-- A prelude that commits nothing. -/
theorem Committing.after {A B : Type} {p : Service A} {f : A → Service B}
    (hp : (cacheContract good seen).Safe i p) (hf : ∀ a, Committing good seen i (f a)) : Committing good seen i (p.bind f) :=
  hp.carry_seq lasting_const hf

variable {taskId actorId labelId projectId : Uuid}

theorem utcNow_idle : (cacheContract good seen).Safe i utcNow := utcNow_safe cacheContract_patient

theorem newUuid_idle : (cacheContract good seen).Safe i newUuid := newUuid_safe cacheContract_patient

theorem newUuids_idle {ids : List Uuid} : (cacheContract good seen).Safe i (newUuids ids) := by
  induction ids with
  | nil => exact .done
  | cons id ids ih => exact .bind newUuid_idle fun _ => .bind ih fun _ => .done

theorem createTask_commits {input : CreateTaskInput} :
    Committing good seen i (Db.createTask app tenantId actorId input) := by
  refine .after utcNow_idle fun now => .after newUuid_idle fun id => ?_
  refine .after newUuid_idle fun auditId => commits_triple fun e s => ?_
  dsimp only
  split
  · exact .failed _
  · split
    · exact .committed _ _ rfl (noteChange_commits _ _ _)
    · exact .failed _

theorem changeTask_commits {guard : TaskRecord → Bool} {f : TaskRecord → TaskRecord}
    {hf : Table.KeepsKey TaskRecord.id f} {missing eventType : String}
    {payload : TaskRecord → Value} {auditId : Uuid} {auditAt : Time} :
    Committing good seen i (changeTask tenantId taskId actorId guard f hf missing eventType payload
      auditId auditAt) := by
  refine commits_triple fun e s => ?_
  dsimp only
  split
  · exact .failed _
  · split
    · exact .failed _
    · split
      · exact .committed _ _ rfl (noteChange_commits _ _ _)
      · exact .failed _

theorem updateTask_commits {input : UpdateTaskInput} :
    Committing good seen i (Db.updateTask app tenantId taskId actorId input) :=
  .after .ensure fun _ => .after utcNow_idle fun _ => .after newUuid_idle fun _ =>
    changeTask_commits

theorem archiveTask_commits : Committing good seen i (Db.archiveTask app tenantId taskId actorId) :=
  .after utcNow_idle fun _ => .after newUuid_idle fun _ => .after utcNow_idle fun _ =>
    changeTask_commits

theorem restoreTask_commits : Committing good seen i (Db.restoreTask app tenantId taskId actorId) :=
  .after utcNow_idle fun _ => .after newUuid_idle fun _ => .after utcNow_idle fun _ =>
    changeTask_commits

theorem bulkUpdateTaskStatus_commits {taskIds : List Uuid} {status : TaskStatus} :
    Committing good seen i (Db.bulkUpdateTaskStatus tenantId actorId taskIds status) := by
  refine .after utcNow_idle fun now => .after newUuids_idle fun auditIds => ?_
  refine commits_triple fun e s => ?_
  dsimp only
  split
  · exact .failed _
  · split
    · exact .committed _ _ rfl rfl
    · exact .failed _

theorem deleteLabel_commits : Committing good seen i (Db.deleteLabel tenantId labelId) := by
  refine commits_triple fun e s => ?_
  split
  · exact .failed _
  · exact .committed _ _ rfl rfl

theorem changeProject_commits {guard : ProjectRecord → Bool} {f : ProjectRecord → ProjectRecord}
    {hf : Table.KeepsKey ProjectRecord.id f} {missing : String} :
    Committing good seen i (changeProject tenantId projectId guard f hf missing) := by
  refine commits_triple fun e s => ?_
  split
  · exact .failed _
  · split
    · exact .failed _
    · exact .committed _ _ rfl rfl

/-! ### The replacement of labels -/

/-- A statement in a transaction changes the transaction only. -/
theorem inLabelTx_idle {A : Type} {run : Env → AppState → Option (A × AppState)}
    (h : ∀ e s a s', run e s = some (a, s') →
      s'.cache = s.cache ∧ s'.history.commits = s.history.commits) :
    (cacheContract good seen).Safe i (inLabelTx run) := by
  refine .atomic fun s e _ _ _ => ?_
  split
  · rename_i a s' _ hr
    obtain ⟨hcache, hcommits⟩ := h e s a s' hr
    exact .work (.of_cache hcache) (.inl hcommits)
  · exact .work (.of_cache rfl) (.inl rfl)

theorem commitLabelTx_commits {T : LabelTx} {entry : TaskAuditRecord} :
    Committing good seen i (commitLabelTx T entry) := by
  refine Triple.atomic stable_const (stable_onOk fun _ => committed_lasting.stable i)
    fun s e _ _ _ ha => ?_
  have hpid : e.pid = i := (not_issued_of_admissible ha.1).1
  have hleft : CacheAction good i s (endLabelTx e.pid s) := .work (.of_cache rfl) (.inl rfl)
  have hdone : ∀ taskLabels taskAudit, CacheAction good i s (endLabelTx e.pid { s with
      db.taskLabels := taskLabels
      db.taskAudit := taskAudit
      history.commits := s.history.commits ++ [e.pid]
      history.replaced := (e.pid, T.taskId, T.wanted) :: s.history.replaced }) :=
    fun _ _ => .work (.of_cache rfl) (.inr (by rw [← hpid]; rfl))
  split
  · exact ⟨hleft, trivial⟩
  · exact ⟨hleft, trivial⟩
  · exact ⟨hleft, trivial⟩
  · refine ⟨hdone _ _, ?_⟩
    split
    · exact List.mem_append_right _ (List.mem_singleton.mpr hpid.symm)
    · trivial

theorem setTaskLabels_commits {labelIds : List Uuid} :
    Committing good seen i (Db.setTaskLabels app tenantId taskId actorId labelIds) := by
  refine .after (select_safe cacheContract_patient) fun labels =>
    Triple.ite (fun _ => .fail) fun _ => ?_
  refine Committing.after (inLabelTx_idle fun e s T s' h => ?_) fun T => ?_
  · cases h
    exact ⟨rfl, rfl⟩
  refine .after (inLabelTx_idle fun e s T' s' h => ?_) fun T => ?_
  · dsimp only at h
    split at h
    · cases h
    · cases h
      exact ⟨rfl, rfl⟩
  refine .after (inLabelTx_idle fun e s T' s' h => ?_) fun T => ?_
  · dsimp only at h
    split at h
    · cases h
    · split at h
      · cases h
      · cases h
        exact ⟨rfl, rfl⟩
  refine .after newUuid_idle fun auditId => .after utcNow_idle fun now => ?_
  refine .after (inLabelTx_idle fun e s _ s' h => ?_) fun _ => ?_
  · obtain ⟨_, -, h⟩ := Option.map_eq_some_iff.mp h
    cases h
    exact ⟨rfl, rfl⟩
  refine Triple.seq commitLabelTx_commits fun _ => ?_
  exact Triple.done (committed_lasting.stable i) fun _ _ hs => hs

/-! ### The calls -/

theorem getTask_idle : (cacheContract good seen).Safe i (Tasks.getTask tenantId taskId) :=
  .bind (select_safe cacheContract_patient) fun _ => .okOr

/-- After a change has returned, its commit is followed by a bump of its tenant's version. -/
theorem change_triple (c : TaskChange) :
    (cacheContract good seen).Triple i (fun _ => True) (c.run app tenantId)
      (onOk fun _ => Published i tenantId) := by
  have lenient : Lenient ((cacheContract good seen).within i Idle) := idle_lenient
  have finish : ∀ {A : Type} {p : Service A},
      (cacheContract good seen).Triple i (fun _ => True) p (onOk fun _ => Published i tenantId) →
      (cacheContract good seen).Triple i (fun _ => True) (p.bind fun _ => .done (.ok ()))
        (onOk fun _ => Published i tenantId) :=
    fun hp => Triple.seq hp fun _ => Triple.done published_stable fun _ _ hs => hs
  cases c with
  | createTask =>
      refine finish (Safe.carry_seq (ensureProject_safe cacheContract_patient) lasting_const
        fun _ => ?_)
      exact publish_triple createTask_commits fun task _ =>
        .bind (emitTaskWebhook_safe lenient) fun _ => .done
  | updateTask =>
      refine finish (Safe.carry_seq (ensureProject_safe cacheContract_patient) lasting_const
        fun _ => ?_)
      exact publish_triple updateTask_commits fun task _ =>
        .bind (emitTaskWebhook_safe lenient) fun _ => .done
  | bulkUpdateTaskStatus =>
      refine finish (Safe.carry_seq .done lasting_const fun _ => ?_)
      exact publish_triple bulkUpdateTaskStatus_commits fun tasks _ =>
        .bind (emitAll_safe fun _ => emitTaskWebhook_safe lenient) fun _ => .done
  | archiveTask =>
      exact publish_triple archiveTask_commits fun task _ => emitTaskWebhook_safe lenient
  | restoreTask =>
      exact finish (publish_triple restoreTask_commits fun task _ =>
        .bind (emitTaskWebhook_safe lenient) fun _ => .done)
  | setTaskLabels =>
      refine finish (Safe.carry_seq .done lasting_const fun _ => ?_)
      refine Safe.carry_seq getTask_idle lasting_const fun _ => ?_
      exact publish_triple setTaskLabels_commits fun labels _ => .done
  | deleteLabel =>
      exact publish_triple deleteLabel_commits fun label _ => recordEvent_safe lenient
  | archiveProject =>
      exact publish_triple (Committing.after utcNow_idle fun _ => changeProject_commits) fun project _ =>
        recordEvent_safe lenient
  | restoreProject =>
      exact finish (publish_triple (Committing.after utcNow_idle fun _ => changeProject_commits)
        fun project _ => .bind (recordEvent_safe lenient) fun _ => .done)
  | updateProject =>
      exact finish (publish_triple (Committing.after utcNow_idle fun _ => changeProject_commits)
        fun project _ => .bind (recordEvent_safe lenient) fun _ => .done)

/-- What a call ends in: a read that came in after the raises `B` of the tenant leaves out none of
the changes before them, and a change is published. -/
def CallPost (good : TaskCacheKey → CachedTasks → Prop) (tenantId : Uuid) (B : List (Nat × Nat))
    (i : Nat) : CachedCall → Except AppError (Option CachedTasks) → AppState → Prop
  | .read T read, r, _ => ∀ cached, r = .ok (some cached) →
    Answers good (if T = tenantId then B else []) T read cached
  | .change T _, r, s => ∀ o, r = .ok o → Published i T s

theorem call_triple {B : List (Nat × Nat)} {k : CachedCall}
    (hgood : ∀ T r, k = .read T r → GoodRead app good seen T r) :
    (cacheContract good seen).Triple i (fun s => ∀ x ∈ B, x ∈ s.cache.bumps tenantId)
      ((cachedSystem app).body k) (CallPost good tenantId B i k) := by
  cases k with
  | read T r =>
      refine (Triple.seq ((read_triple (B := if T = tenantId then B else []) r
        (hgood T r rfl)).pre fun s _ hs x hx => ?_) fun cached => Triple.done stable_const
        (Q := onOk fun (o : Option CachedTasks) _ => ∀ c, o = some c →
          Answers good (if T = tenantId then B else []) T r c) ?_).post ?_
      · split at hx
        · subst T
          exact hs x hx
        · cases hx
      · intro s _ hs c hc
        cases hc
        exact hs
      · rintro r s - hq cached rfl
        exact hq cached rfl
  | change T c =>
      have hrun : (cacheContract good seen).Triple i (fun _ => True)
          ((cachedSystem app).body (.change T c)) (onOk fun _ => Published i T) :=
        Triple.seq (change_triple c) fun _ => Triple.done published_stable fun _ _ hs => hs
      refine hrun.conseq (fun _ _ _ => trivial) ?_
      rintro r s - hq o rfl
      exact hq

end Changes

/-! ### Runs -/

abbrev CachedConfig := Config Event Env AppState AppError CachedCall (Option CachedTasks)

/-- The answer had been stored under the key before; or it is what the database answers to a read
with that key, in the state that has been seen with as many commits as the stamp says. -/
def AnswerOf (app : App) (name : Nat → Option CachedCall)
    (old : TaskCacheKey → Option (Entry CachedTasks)) (seen : AppState → Prop) (key : TaskCacheKey)
    (cached : CachedTasks) : Prop :=
  (∃ entry, old key = some entry ∧ entry.value = cached) ∨
    ∃ j T read v t, name j = some (.read T read) ∧ read.key T v = key ∧ seen t ∧
      t.history.commits.length = cached.asOf ∧ read.answer? app T t = some cached.answer

theorem goodRead_answerOf {name : Nat → Option CachedCall}
    {old : TaskCacheKey → Option (Entry CachedTasks)} {T : Uuid} {r : TaskRead} {j : Nat}
    (hj : name j = some (.read T r)) : GoodRead app (AnswerOf app name old seen) seen T r :=
  fun v t _ ht hanswer => .inr ⟨j, T, r, v, t, hj, rfl, ht, rfl, hanswer⟩

/-- What a run answers to a read, the database has held. -/
theorem read_answerOf (hs : Coherent s) {ms : List (Move Env CachedCall)} {c : CachedConfig}
    (h : (cachedSystem app).exec (.start s) ms = some c) {j : Nat} {read : TaskRead}
    {cached : CachedTasks} (hj : c.calls[j]? = some (.read tenantId read, .done (.ok (some cached)))) :
    ∃ v, AnswerOf app c.names s.cache.tasks ((cachedSystem app).Passes (.start s) ms)
      (read.key tenantId v) cached := by
  let passes := (cachedSystem app).Passes (.start s) ms
  let good := AnswerOf app c.names s.cache.tasks passes
  have hbody : ∀ i k, c.names i = some k → (cacheContract good passes).Triple i (fun _ => True)
      ((cachedSystem app).body k) (CallPost good tenantId [] i k) := fun i k hi =>
    (call_triple fun T r hr => goodRead_answerOf (hr ▸ hi)).pre fun _ _ _ x hx => by cases hx
  have hpasses : (cachedSystem app).Along (fun d m => d.Meets (fun _ _ _ t => passes t) m)
      (.start s) ms := System.along_passes.mono fun _ _ hp _ _ _ _ _ => hp
  have hkeeps := soundNamed (fun _ => stable_const) hbody (fun _ _ _ _ ha ht => ⟨ha, ht⟩)
    ⟨hs, fun key entry he => .inl ⟨entry, he, rfl⟩⟩ (fun _ => trivial) hpasses h c.named_names
  exact (hkeeps.1.result hj cached rfl).2

end Coherence

open Coherence

/-- A read that comes in after a change of its tenant has returned gets an answer that has been
computed after the change's commit: what the database answers to it in a state of the run, or what
had been cached for it before the run. -/
theorem cached_reads_coherent {app : App} {s : AppState} {ms₁ ms₂ : List (Move Env CachedCall)}
    {c₁ c₂ : CachedConfig} {tenantId : Uuid} {i j : Nat} {change : TaskChange}
    {o : Option CachedTasks} {read : TaskRead} {cached : CachedTasks} (hs : Coherent s)
    (h₁ : (cachedSystem app).exec (.start s) ms₁ = some c₁)
    (hi : c₁.calls[i]? = some (.change tenantId change, .done (.ok o)))
    (h₂ : (cachedSystem app).exec c₁ ms₂ = some c₂) (hlate : c₁.calls.length ≤ j)
    (hj : c₂.calls[j]? = some (.read tenantId read, .done (.ok (some cached)))) :
    i ∈ c₁.st.history.commits ∧
      (∀ n, c₁.st.history.commits[n]? = some i → n < cached.asOf) ∧
      ∃ v, AnswerOf app c₂.names s.cache.tasks
        ((cachedSystem app).Passes (.start s) (ms₁ ++ ms₂)) (read.key tenantId v) cached := by
  have hadm : ∀ i l e s, (cachedSystem app).adm i l e s = true →
      (cacheContract (fun _ _ => True) fun _ => True).adm i l e s := fun _ _ _ _ h => ⟨h, trivial⟩
  have hbody : ∀ {B} i k, (cacheContract (fun _ _ => True) fun _ => True).Triple i
      (fun s => ∀ x ∈ B, x ∈ s.cache.bumps tenantId) ((cachedSystem app).body k)
      (CallPost (fun _ _ => True) tenantId B i k) :=
    fun i k => call_triple fun _ _ _ _ _ _ _ _ => trivial
  have hkeeps : Keeps (cacheContract (fun _ _ => True) fun _ => True)
      (CallPost (fun _ _ => True) tenantId []) c₁ :=
    sound_all (fun i k => (hbody i k).pre fun _ _ _ x hx => by cases hx) hadm
      ⟨hs, fun _ _ _ => trivial⟩ h₁
  have hpub : Published i tenantId c₁.st := hkeeps.result hi o rfl
  obtain ⟨x, hx, hlt⟩ := hpub.bumped
  refine ⟨hpub.committed, fun n hn => (hlt n hn).trans_le ?_, ?_⟩
  · have hread : CallPost (fun _ _ => True) tenantId [x] j (.read tenantId read)
        (.ok (some cached)) c₂.st :=
      hkeeps.later raises_lasting hbody hadm (fun y hy => List.mem_singleton.mp hy ▸ hx) h₂ hlate hj
    have hanswer := hread cached rfl
    rw [if_pos rfl] at hanswer
    exact hanswer.1 x (List.mem_singleton.mpr rfl)
  · refine read_answerOf hs ?_ hj
    rw [System.exec_append, h₁]
    exact h₂

/-! ### A slow read beside a change -/

namespace Coherence

/-- A tenant with one task. -/
def oneTask : AppState :=
  { (default : AppState) with
    db.tasks := ⟨[⟨0, 1, none, "t", none, .open, .low, none, none, 9, 9, 0, 0⟩], by decide⟩ }

theorem oneTask_coherent : Coherent oneTask := .of_empty (fun _ => rfl) fun _ => rfl

/-- A read queries the task, and then the task is archived. -/
def queryThenArchive : List (Move Env CachedCall) :=
  [.call (.read 1 (.detail 0)), .exec 0 { (default : Env) with pid := 0 },
    .exec 0 { (default : Env) with pid := 0 }, .exec 0 { (default : Env) with pid := 0 },
    .call (.change 1 (.archiveTask 0 9)), .exec 1 { (default : Env) with pid := 1, now := 1 },
    .exec 1 { (default : Env) with pid := 1, uuid := 7 },
    .exec 1 { (default : Env) with pid := 1, now := 1 }, .exec 1 { (default : Env) with pid := 1 },
    .exec 1 { (default : Env) with pid := 1 }, .exec 1 { (default : Env) with pid := 1 },
    .exec 1 { (default : Env) with pid := 1 }]

/-- The read stores its old answer, and another read follows. -/
def storeThenRead : List (Move Env CachedCall) :=
  [.exec 0 { (default : Env) with pid := 0 }, .call (.read 1 (.detail 0)),
    .exec 2 { (default : Env) with pid := 2 }, .exec 2 { (default : Env) with pid := 2 },
    .exec 2 { (default : Env) with pid := 2 }, .exec 2 { (default : Env) with pid := 2 }]

/-- The archiving has returned. -/
def archived (c : CachedConfig) : Bool :=
  match (c.calls[1]? : Option (CachedCall × Service (Option CachedTasks))) with
  | some (.change 1 (.archiveTask 0 9), .done (.ok none)) => true
  | _ => false

/-- The answer of the second read, once it has one. -/
def secondAnswer (c : CachedConfig) : Option CachedTasks :=
  match (c.calls[2]? : Option (CachedCall × Service (Option CachedTasks))) with
  | some (.read 1 (.detail 0), .done (.ok o)) => o
  | _ => none

theorem calls_of_archived {c : CachedConfig} (h : archived c = true) :
    c.calls[1]? = some (.change 1 (.archiveTask 0 9), .done (.ok none)) := by
  unfold archived at h
  split at h
  · assumption
  · cases h

theorem calls_of_secondAnswer {c : CachedConfig} {cached : CachedTasks}
    (h : secondAnswer c = some cached) :
    c.calls[2]? = some (.read 1 (.detail 0), .done (.ok (some cached))) := by
  unfold secondAnswer at h
  split at h
  · rename_i hc
    rw [hc, h]
  · cases h

theorem storeThenRead_answers :
    ∃ c₁ c₂ cached, (cachedSystem default).exec (.start oneTask) queryThenArchive = some c₁ ∧
      archived c₁ = true ∧ c₁.calls.length = 2 ∧
      (cachedSystem default).exec c₁ storeThenRead = some c₂ ∧
      secondAnswer c₂ = some cached := by
  have h : ((cachedSystem default).exec (.start oneTask) queryThenArchive).any fun c₁ =>
      archived c₁ && c₁.calls.length = 2 && ((cachedSystem default).exec c₁ storeThenRead).any
        fun c₂ => (secondAnswer c₂).isSome := by decide +kernel
  obtain ⟨c₁, h₁, h⟩ := (Option.any_eq_true _ _).mp h
  rw [Bool.and_eq_true, Bool.and_eq_true, decide_eq_true_eq] at h
  obtain ⟨c₂, h₂, hc⟩ := (Option.any_eq_true _ _).mp h.2
  obtain ⟨cached, hcached⟩ := Option.isSome_iff_exists.mp hc
  exact ⟨c₁, c₂, cached, h₁, h.1.1, h.1.2, h₂, hcached⟩

end Coherence

/-- The slow read stores an answer from before the change; the one that follows gets another. -/
theorem slow_read_coherent :
    ∃ c₁ c₂ cached, (cachedSystem default).exec (.start oneTask) queryThenArchive = some c₁ ∧
      (cachedSystem default).exec c₁ storeThenRead = some c₂ ∧
      c₂.calls[2]? = some (.read 1 (.detail 0), .done (.ok (some cached))) ∧
      1 ∈ c₁.st.history.commits ∧ (∀ n, c₁.st.history.commits[n]? = some 1 → n < cached.asOf) ∧
      ∃ v, AnswerOf default c₂.names oneTask.cache.tasks ((cachedSystem default).Passes
        (.start oneTask) (queryThenArchive ++ storeThenRead)) (.detail 1 v 0) cached := by
  obtain ⟨c₁, c₂, cached, h₁, hi, hlen, h₂, hj⟩ := storeThenRead_answers
  refine ⟨c₁, c₂, cached, h₁, h₂, calls_of_secondAnswer hj, ?_⟩
  exact cached_reads_coherent oneTask_coherent h₁ (calls_of_archived hi) h₂ (by rw [hlen])
    (calls_of_secondAnswer hj)

end Fluxa
