import Fluxa.Http.Idempotency
import Fluxa.Tenants.Transactions

/-!
# Tenants — the keys and files of a tenant

Redis keys and storage keys have the tenant in them, so what a request of a tenant does to them it does in the tenant's part, and nobody else sees it.  The stamps of cached answers are no part of them and may differ.
-/

namespace Fluxa
open Interleave Relational Db

namespace Tenants

variable {app : App} {o : Whose} {i : Nat} {s v : AppState} {tenantId taskId : Uuid} {A B : Type}

/-! ### Idempotency keys -/

theorem idempotencyEntry_part (hv : Part app o tenantId s v) {key : IdempotencyKey}
    (hkey : key.tenantId = tenantId) (now : Time) :
    Cache.idempotencyEntry v key now = Cache.idempotencyEntry s key now := by
  rw [Cache.idempotencyEntry, hv.idempotency key hkey]
  rfl

theorem setIdempotency_step (hs : Consistent app o s) (hv : Part app o tenantId s v)
    {key : IdempotencyKey} (hkey : key.tenantId = tenantId) (entry : Option (Entry IdempotencyValue)) :
    (tenantParts app o).Step tenantId s (Cache.setIdempotency s key entry) v
      (Cache.setIdempotency v key entry) := by
  refine ⟨{ hs with }, { hv with idempotency := fun key' hkey' => ?_ },
    fun b' hb w hw => { hw with idempotency := fun key' hkey' => ?_ }⟩
  · show Function.update v.cache.idempotency key entry key' =
      Function.update s.cache.idempotency key entry key'
    by_cases h : key' = key
    · rw [h, Function.update_self, Function.update_self]
    · rw [Function.update_of_ne h, Function.update_of_ne h]
      exact hv.idempotency key' hkey'
  · have hne : key' ≠ key := by
      rintro rfl
      exact hb (hkey'.symm.trans hkey)
    show _ = Function.update s.cache.idempotency key entry key'
    rw [Function.update_of_ne hne]
    exact hw.idempotency key' hkey'

/-- What is noted besides is seen by nobody. -/
theorem setIdempotency_noted {key : IdempotencyKey} {entry : Option (Entry IdempotencyValue)}
    (hs : Consistent app o s) (hv : Part app o tenantId s v) (hkey : key.tenantId = tenantId)
    (record : History → History) (hrecord : ∀ h, (record h).issued = h.issued) :
    (tenantParts app o).Step tenantId s
      { Cache.setIdempotency s key entry with history := record s.history } v
      { Cache.setIdempotency v key entry with history := record v.history } := by
  obtain ⟨hs₁, hv₁, hothers⟩ := setIdempotency_step hs hv hkey entry
  refine ⟨{ hs₁ with }, { hv₁ with issued := fun x hx => ?_ },
    fun b' hb w hw => { hothers b' hb w hw with issued := fun x hx => ?_ }⟩
  · have hx' : x ∈ (record v.history).issued := hx
    show x ∈ (record s.history).issued
    rw [hrecord] at hx' ⊢
    exact hv.issued x hx'
  · show x ∈ (record s.history).issued
    rw [hrecord]
    exact hw.issued x hx

theorem replayIdempotent_apart {key : IdempotencyKey} (hkey : key.tenantId = tenantId) :
    Apart app o tenantId i (fun _ => True) (Http.replayIdempotent key) := by
  refine .bind (Q := fun _ => True) (.redis fun e s v hs hv => ⟨.refl hs hv, ?_, trivial⟩)
    fun value _ => ?_
  · rw [idempotencyEntry_part hv hkey]
  · cases value with
    | none => exact .done trivial
    | some value =>
        cases value with
        | pending => exact .done trivial
        | ready response => exact .ite (fun _ => .done trivial) fun _ => .fail

theorem claimIdempotencyKey_apart {key : IdempotencyKey} {ttl : Nat}
    (hkey : key.tenantId = tenantId) :
    Apart app o tenantId i (fun _ => True) (Cache.claimIdempotencyKey key ttl) := by
  refine .bind (Q := fun _ => True) (.redis fun e s v hs hv => ?_) fun claimed _ =>
    .ite (fun _ => .bind (Q := fun _ => True) (.redis fun e s v hs hv => ?_)
      fun _ _ => .done trivial) fun _ => .done trivial
  · rw [idempotencyEntry_part hv hkey]
    cases Cache.idempotencyEntry s key e.now with
    | some entry => exact ⟨.refl hs hv, rfl, trivial⟩
    | none =>
        exact ⟨setIdempotency_noted hs hv hkey
          (fun h => { h with keyClaims := (e.pid, key) :: h.keyClaims }) fun _ => rfl, rfl, trivial⟩
  · rw [idempotencyEntry_part hv hkey]
    cases Cache.idempotencyEntry s key e.now with
    | some entry => exact ⟨setIdempotency_step hs hv hkey _, rfl, trivial⟩
    | none => exact ⟨.refl hs hv, rfl, trivial⟩

theorem replayOrClaim_apart {key : IdempotencyKey} (hkey : key.tenantId = tenantId) :
    Apart app o tenantId i (fun _ => True) (Http.replayOrClaim app key) := by
  refine .bind (replayIdempotent_apart hkey) fun response _ => ?_
  cases response with
  | some response => exact .done trivial
  | none =>
      refine .bind (claimIdempotencyKey_apart hkey) fun claimed _ =>
        .ite (fun _ => .done trivial) fun _ => .bind (replayIdempotent_apart hkey) fun response _ => ?_
      cases response with
      | some response => exact .done trivial
      | none => exact .fail

theorem storeOrRelease_apart {key : IdempotencyKey} (hkey : key.tenantId = tenantId)
    (r : Except AppError StoredResponse) :
    Apart app o tenantId i (fun _ => True) (Http.storeOrRelease app key r) := by
  cases r with
  | ok response =>
      exact .bind (Q := fun _ => True) (.redis fun e s v hs hv =>
        ⟨setIdempotency_noted hs hv hkey
          (fun h => { h with stored := (e.pid, key, response) :: h.stored }) fun _ => rfl,
          rfl, trivial⟩) fun _ _ => .done trivial
  | error x =>
      exact .bind (Q := fun _ => True) (.redis fun e s v hs hv =>
        ⟨setIdempotency_noted hs hv hkey
          (fun h => { h with released := e.pid :: h.released }) fun _ => rfl,
          rfl, trivial⟩) fun _ _ => .fail

/-- An idempotent request is apart from others as soon as the creation is. -/
theorem idempotent_apart {key : IdempotencyKey} {prepare : Except AppError B}
    {create : B → Service A} {respond : A → StoredResponse} (hkey : key.tenantId = tenantId)
    (h : ∀ input, Apart app o tenantId i (fun _ => True) (create input)) :
    Apart app o tenantId i (fun _ => True) (Http.idempotent app key prepare create respond) := by
  refine .bind (replayOrClaim_apart hkey) fun response _ => ?_
  cases response with
  | some response => exact .done trivial
  | none =>
      exact .bind .lift fun input _ => .bind (h input).attempt fun created _ =>
        storeOrRelease_apart hkey _

/-! ### Cached answers -/

theorem tenantCacheVersion_apart :
    Apart app o tenantId i (fun _ => True) (Cache.tenantCacheVersion tenantId) :=
  .redis fun _ _ _ hs hv => ⟨.refl hs hv, hv.versions, trivial⟩

theorem bumpTenantCacheVersion_apart {event : Event} :
    Apart app o tenantId i (fun _ => True) (Cache.bumpTenantCacheVersion tenantId event) := by
  refine .redis fun e s v hs hv => ⟨⟨{ hs with }, { hv with versions := ?_ },
    fun b' hb w hw => { hw with versions := ?_ }⟩, ?_, trivial⟩
  · show Function.update v.cache.versions tenantId _ tenantId =
      Function.update s.cache.versions tenantId _ tenantId
    rw [Function.update_self, Function.update_self, hv.versions]
  · show w.cache.versions b' = Function.update s.cache.versions tenantId _ b'
    rw [Function.update_of_ne hb]
    exact hw.versions
  · rw [hv.versions]

/-- What is decoded of two entries with the same answer and expiry. -/
theorem getJson_follows {key : TaskCacheKey} {decode : CachedTasks → Option (A × Nat)}
    (hkey : key.tenantId = tenantId)
    (hdecode : ∀ c c' : CachedTasks, c'.answer = c.answer →
      (decode c').map Prod.fst = (decode c).map Prod.fst) :
    (tenantParts app o).Follows tenantId i
      (fun a a' => a'.map Prod.fst = a.map Prod.fst) (Cache.getJson key decode)
      (Cache.getJson key decode) := by
  refine Parts.Follows.atomic .free fun e s v hs hv _ _ => ?_
  have hanswer := hv.answers key hkey
  generalize v.cache.tasks key = entry' at hanswer
  generalize s.cache.tasks key = entry at hanswer
  cases entry with
  | none =>
      cases entry' with
      | some entry' => cases hanswer
      | none => cases e.fault <;> exact ⟨.refl hs hv, rfl⟩
  | some entry =>
      cases entry' with
      | none => cases hanswer
      | some entry' =>
          obtain ⟨hvalue, hexpires⟩ := Prod.mk.inj (Option.some.inj hanswer)
          have hlive : entry'.live e.now = entry.live e.now := by
            unfold Entry.live
            rw [hexpires]
          have hfilter' : Option.filter (fun entry => entry.live e.now) (some entry') =
              if entry.live e.now = true then some entry' else none := by
            rw [Option.filter_some, hlive]
          rw [hfilter', Option.filter_some]
          cases entry.live e.now with
          | false => cases e.fault <;> exact ⟨.refl hs hv, rfl⟩
          | true =>
              have hboth := hdecode entry.value entry'.value hvalue
              cases e.fault with
              | failed => exact ⟨.refl hs hv, rfl⟩
              | lost => exact ⟨.refl hs hv, rfl⟩
              | none =>
                  cases hd : decode entry.value with
                  | none =>
                      rw [hd] at hboth
                      obtain hd' := Option.map_eq_none_iff.mp hboth
                      simp only [if_true, hd, hd']
                      exact ⟨.refl hs hv, rfl⟩
                  | some a =>
                      rw [hd] at hboth
                      obtain ⟨a', hd', ha'⟩ := Option.map_eq_some_iff.mp hboth
                      simp only [if_true, hd, hd']
                      exact ⟨.refl hs hv, congrArg some ha'⟩

/-- Answers are stored whatever their stamps. -/
theorem setJson_follows {key : TaskCacheKey} {answer : TaskPage ⊕ TaskRecord} {asOf asOf' ttl : Nat}
    (hkey : key.tenantId = tenantId) :
    (tenantParts app o).Follows tenantId i (fun a a' => a' = a)
      (Cache.setJson key ⟨answer, asOf⟩ ttl) (Cache.setJson key ⟨answer, asOf'⟩ ttl) := by
  refine redis_follows fun e s v hs hv => ⟨⟨{ hs with }, { hv with answers := fun key' hkey' => ?_ },
    fun b' hb w hw => { hw with answers := fun key' hkey' => ?_ }⟩, rfl⟩
  · show answerOf (Function.update v.cache.tasks key _ key') =
      answerOf (Function.update s.cache.tasks key _ key')
    by_cases h : key' = key
    · rw [h, Function.update_self, Function.update_self]
      rfl
    · rw [Function.update_of_ne h, Function.update_of_ne h]
      exact hv.answers key' hkey'
  · have hne : key' ≠ key := by
      rintro rfl
      exact hb (hkey'.symm.trans hkey)
    show _ = answerOf (Function.update s.cache.tasks key _ key')
    rw [Function.update_of_ne hne]
    exact hw.answers key' hkey'

/-- The page is the same, whatever its stamp. -/
theorem listTasksCached_follows {filters : TaskFilters} {cursorToken : Option String}
    {cursor : Option Cursor} {limit : Nat} :
    (tenantParts app o).Follows tenantId i (fun a a' => a'.1 = a.1)
      (Tasks.listTasksCached app tenantId filters cursorToken cursor limit)
      (Tasks.listTasksCached app tenantId filters cursorToken cursor limit) := by
  refine Parts.Follows.bind tenantCacheVersion_apart.follows fun version version' hversion => ?_
  subst hversion
  have hdecode : ∀ c c' : CachedTasks, c'.answer = c.answer →
      c'.page?.map Prod.fst = c.page?.map Prod.fst := by
    intro c c' h
    simp only [CachedTasks.page?, h, Option.map_map]
    rfl
  refine Parts.Follows.bind (getJson_follows rfl hdecode) fun cached cached' hcached => ?_
  cases cached with
  | some cached =>
      obtain ⟨cached', rfl, hsame⟩ := Option.map_eq_some_iff.mp hcached
      exact Parts.Follows.done hsame
  | none =>
      obtain rfl := Option.map_eq_none_iff.mp hcached
      have hpage : (tenantParts app o).Follows tenantId i (fun a a' => a'.1 = a.1)
          (selectAsOf fun _ s => tasksPage app tenantId filters cursor limit s)
          (selectAsOf fun _ s => tasksPage app tenantId filters cursor limit s) :=
        select_follows fun e s v hs hv => tasksPage_part hs hv
      refine Parts.Follows.bind hpage fun page page' hsame => ?_
      obtain ⟨tasks, asOf⟩ := page
      obtain ⟨tasks', asOf'⟩ := page'
      obtain rfl : tasks' = tasks := hsame
      exact Parts.Follows.bind (setJson_follows rfl) fun _ _ _ => Parts.Follows.done rfl

theorem getTaskCached_follows :
    (tenantParts app o).Follows tenantId i (fun a a' => a'.1 = a.1)
      (Tasks.getTaskCached app tenantId taskId) (Tasks.getTaskCached app tenantId taskId) := by
  refine Parts.Follows.bind tenantCacheVersion_apart.follows fun version version' hversion => ?_
  subst hversion
  have hdecode : ∀ c c' : CachedTasks, c'.answer = c.answer →
      c'.task?.map Prod.fst = c.task?.map Prod.fst := by
    intro c c' h
    simp only [CachedTasks.task?, h, Option.map_map]
    rfl
  refine Parts.Follows.bind (getJson_follows rfl hdecode) fun cached cached' hcached => ?_
  cases cached with
  | some cached =>
      obtain ⟨cached', rfl, hsame⟩ := Option.map_eq_some_iff.mp hcached
      exact Parts.Follows.done hsame
  | none =>
      obtain rfl := Option.map_eq_none_iff.mp hcached
      have htask : (tenantParts app o).Follows tenantId i (fun a a' => a'.1 = a.1)
          (selectAsOf fun _ s => findTask s tenantId taskId)
          (selectAsOf fun _ s => findTask s tenantId taskId) :=
        select_follows fun e s v hs hv => findTask_part hv
      refine Parts.Follows.bind htask fun task task' hsame => ?_
      obtain ⟨task, asOf⟩ := task
      obtain ⟨task', asOf'⟩ := task'
      obtain rfl : task' = task := hsame
      refine Parts.Follows.bind Parts.Follows.okOr fun t t' ht => ?_
      obtain ⟨rfl, -⟩ := ht
      exact Parts.Follows.bind (setJson_follows rfl) fun _ _ _ => Parts.Follows.done rfl

/-- The queue is nobody's. -/
theorem enqueueJob_apart {jobId : Uuid} :
    Apart app o tenantId i (fun _ => True) (Cache.enqueueJob jobId) :=
  .redis fun _ _ _ hs hv => ⟨⟨{ hs with }, { hv with }, fun _ _ _ hw => { hw with }⟩, rfl, trivial⟩

/-! ### Files -/

theorem setFile_step (hlib : UuidTexts app.lib) (hs : Consistent app o s)
    (hv : Part app o tenantId s v) {key : String} (hkey : KeyOf app tenantId key)
    (file : Option Bytes) :
    (tenantParts app o).Step tenantId s { s with storage := Function.update s.storage key file } v
      { v with storage := Function.update v.storage key file } := by
  refine ⟨{ hs with }, { hv with storage := fun key' hkey' => ?_ },
    fun b' hb w hw => { hw with storage := fun key' hkey' => ?_ }⟩
  · show Function.update v.storage key file key' = Function.update s.storage key file key'
    by_cases h : key' = key
    · rw [h, Function.update_self, Function.update_self]
    · rw [Function.update_of_ne h, Function.update_of_ne h]
      exact hv.storage key' hkey'
  · have hne : key' ≠ key := by
      rintro rfl
      exact hb (keyOf_unique hlib hkey hkey')
    show _ = Function.update s.storage key file key'
    rw [Function.update_of_ne hne]
    exact hw.storage key' hkey'

theorem put_apart (hlib : UuidTexts app.lib) {key : String} (hkey : KeyOf app tenantId key)
    {bytes : Bytes} : Apart app o tenantId i (fun _ => True) (Storage.put key bytes) := by
  refine .bind .lift fun _ _ => .bind (Q := fun _ => True)
    (Parts.Follows.atomic .free fun e s v hs hv _ _ => ?_)
    fun _ _ => Parts.Follows.atomic .free fun e s v hs hv _ _ => ?_
  · cases e.fault with
    | none => exact ⟨setFile_step hlib hs hv hkey _, rfl, trivial⟩
    | failed => exact ⟨.refl hs hv, rfl⟩
    | lost => exact ⟨.refl hs hv, rfl⟩
  · cases e.fault with
    | none => exact ⟨setFile_step hlib hs hv hkey _, rfl, trivial⟩
    | failed => exact ⟨setFile_step hlib hs hv hkey _, rfl⟩
    | lost => exact ⟨setFile_step hlib hs hv hkey _, rfl⟩

theorem get_apart {key : String} (hkey : KeyOf app tenantId key) :
    Apart app o tenantId i (fun _ => True) (Storage.get key) := by
  refine .bind .lift fun _ _ => Parts.Follows.atomic .free fun e s v hs hv _ _ => ?_
  cases e.fault with
  | none => exact ⟨.refl hs hv, hv.storage key hkey, trivial⟩
  | failed => exact ⟨.refl hs hv, rfl⟩
  | lost => exact ⟨.refl hs hv, rfl⟩

theorem delete_apart (hlib : UuidTexts app.lib) {key : String} (hkey : KeyOf app tenantId key) :
    Apart app o tenantId i (fun _ => True) (Storage.delete key) := by
  refine .bind .lift fun _ _ => Parts.Follows.atomic .free fun e s v hs hv _ _ => ?_
  cases e.fault with
  | none => exact ⟨setFile_step hlib hs hv hkey _, rfl, trivial⟩
  | failed => exact ⟨.refl hs hv, rfl⟩
  | lost => exact ⟨.refl hs hv, rfl⟩

end Tenants

end Fluxa
