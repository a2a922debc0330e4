import Fluxa.Keys.Artifacts
import Fluxa.Services.Tasks
import Fluxa.State.Json
import Fluxa.Texts.Base64

/-!
# Keys — Redis

The texts of the keys in `cache.rs` and in the middleware.  They are made of parts with colons between them; some parts are whatever a client sends.

**A key is read in one way** (`key_unique`).  Two keys with one text are the same: of one kind and made of the same parts.  Only where the rate limit of authentication is concerned, path and client cannot be told apart by their key.

**Keys do not collide** (`redis_keys_injective`): the keys of the caches and of idempotency have texts of their own, as the maps in `Cache` take for granted, and no two kinds of keys have a text in common.
-/

namespace Fluxa
open Db

namespace Cache

/-- `cache_key`: the first part, the tenant, the version and the payload in base64. -/
def cacheKey (app : App) (first : String) (tenantId : Uuid) (version : Nat) (payload : Value) :
    String :=
  s!"{first}:{app.lib.uuidString tenantId}:{version}:{app.lib.base64Encode (app.lib.jsonBytes payload)}"

/-- The JSON of `TaskFilters`; the fields of an object are sorted. -/
def filtersValue (app : App) (filters : TaskFilters) : Value :=
  .obj [("assignee_id", idValue app filters.assigneeId), ("due_after", timeValue app filters.dueAfter),
    ("due_before", timeValue app filters.dueBefore), ("label_id", idValue app filters.labelId),
    ("priority", .ofOption (filters.priority.map TaskPriority.asStr)),
    ("project_id", idValue app filters.projectId), ("q", .ofOption filters.q),
    ("status", .ofOption (filters.status.map TaskStatus.asStr)),
    ("updated_after", timeValue app filters.updatedAfter)]

/-- What `list_tasks_cached` makes a key of. -/
def listPayload (app : App) (tenantId : Uuid) (filters : TaskFilters) (cursorToken : Option String)
    (limit : Nat) : Value :=
  .obj [("cursor", .ofOption cursorToken), ("filters", filtersValue app filters),
    ("limit", .num limit), ("tenant_id", .str (app.lib.uuidString tenantId))]

def taskListCacheKey (app : App) (tenantId : Uuid) (version : Nat) (payload : Value) : String :=
  cacheKey app "cache:tasks:list" tenantId version payload

def taskDetailCacheKey (app : App) (tenantId : Uuid) (version : Nat) (taskId : Uuid) : String :=
  s!"cache:tasks:detail:{app.lib.uuidString tenantId}:{version}:{app.lib.uuidString taskId}"

/-- The key of a tenant's cache version. -/
def tenantVersionKey (app : App) (tenantId : Uuid) : String :=
  s!"cache:tenant:{app.lib.uuidString tenantId}:version"

def idempotencyKey (app : App) (tenantId : Uuid) (route key : String) : String :=
  s!"idempotency:{app.lib.uuidString tenantId}:{route}:{app.lib.base64Encode key.toUTF8.data.toList}"

def accessTokenDenylistKey (jti : String) : String := s!"auth:denylist:{jti}"

end Cache

namespace Http

/-- The bucket of `auth_rate_limit_middleware`. -/
def authBucketKey (path client : String) : String := s!"ratelimit:auth:{path}:{client}"

/-- The bucket of `protected_middleware`. -/
def appBucketKey (app : App) (tenantId userId : Uuid) (client : String) : String :=
  s!"ratelimit:app:{app.lib.uuidString tenantId}:{app.lib.uuidString userId}:{client}"

end Http

/-- What a key of Redis is made of. -/
inductive RedisKey where
  | taskList (tenantId : Uuid) (version : Nat) (filters : TaskFilters) (cursorToken : Option String)
      (limit : Nat)
  | taskDetail (tenantId : Uuid) (version : Nat) (taskId : Uuid)
  | tenantVersion (tenantId : Uuid)
  | idempotency (tenantId : Uuid) (route key : String)
  | denylist (jti : String)
  | authBucket (path client : String)
  | appBucket (tenantId userId : Uuid) (client : String)
deriving DecidableEq

/-- The key in Redis. -/
def RedisKey.text (app : App) : RedisKey → String
  | .taskList tenantId version filters cursorToken limit =>
    Cache.taskListCacheKey app tenantId version
      (Cache.listPayload app tenantId filters cursorToken limit)
  | .taskDetail tenantId version taskId => Cache.taskDetailCacheKey app tenantId version taskId
  | .tenantVersion tenantId => Cache.tenantVersionKey app tenantId
  | .idempotency tenantId route key => Cache.idempotencyKey app tenantId route key
  | .denylist jti => Cache.accessTokenDenylistKey jti
  | .authBucket path client => Http.authBucketKey path client
  | .appBucket tenantId userId client => Http.appBucketKey app tenantId userId client

/-- The parameters of a list have a JSON text of their own. -/
def RendersPayloads (app : App) : Prop :=
  ∀ tenantId tenantId' filters filters' cursorToken cursorToken' limit limit',
    app.lib.jsonBytes (Cache.listPayload app tenantId filters cursorToken limit) =
      app.lib.jsonBytes (Cache.listPayload app tenantId' filters' cursorToken' limit') →
    Cache.listPayload app tenantId filters cursorToken limit =
      Cache.listPayload app tenantId' filters' cursorToken' limit'

/-- What the keys rely on: identifiers, times, JSON and base64 have texts of their own, and the
characters of base64 are those of its alphabet. -/
structure KeyTexts (app : App) : Prop where
  uuids : UuidTexts app.lib
  times : Function.Injective app.lib.jsonTime
  json : RendersPayloads app
  base64 : Function.Injective app.lib.base64Encode
  alphabet : ∀ bytes, ∀ c ∈ (app.lib.base64Encode bytes).toList, Base64.isDigit c = true

namespace Keys

variable {app : App} {α : Type} {sep : α} {xs xs' ys ys' : List α}

/-- What comes before the first separator can be told from what comes after it. -/
theorem split_first (hxs : sep ∉ xs) (hxs' : sep ∉ xs') (h : xs ++ sep :: ys = xs' ++ sep :: ys') :
    xs = xs' ∧ ys = ys' := by
  induction xs generalizing xs' with
  | nil =>
      cases xs' with
      | nil => exact ⟨rfl, (List.cons.inj h).2⟩
      | cons x xs' => exact absurd ((List.cons.inj h).1 ▸ List.mem_cons_self) hxs'
  | cons x xs ih =>
      cases xs' with
      | nil => exact absurd ((List.cons.inj h).1 ▸ List.mem_cons_self) hxs
      | cons x' xs' =>
          obtain ⟨rfl, htail⟩ := List.cons.inj h
          obtain ⟨rfl, hys⟩ := ih (fun hm => hxs (List.mem_cons_of_mem _ hm))
            (fun hm => hxs' (List.mem_cons_of_mem _ hm)) htail
          exact ⟨rfl, hys⟩

/-- So can what comes after the last one. -/
theorem split_last (hys : sep ∉ ys) (hys' : sep ∉ ys') (h : xs ++ sep :: ys = xs' ++ sep :: ys') :
    xs = xs' ∧ ys = ys' := by
  have hreverse : ys.reverse ++ sep :: xs.reverse = ys'.reverse ++ sep :: xs'.reverse := by
    simpa using congrArg List.reverse h
  obtain ⟨hy, hx⟩ := split_first (mt List.mem_reverse.mp hys) (mt List.mem_reverse.mp hys') hreverse
  exact ⟨List.reverse_inj.mp hx, List.reverse_inj.mp hy⟩

/-! ### The parts -/

theorem colon_notMem_uuid (h : UuidTexts app.lib) (id : Uuid) :
    ':' ∉ (app.lib.uuidString id).toList := by
  intro hc
  rcases h.shape id ':' hc with hdigit | hhyphen
  · exact absurd hdigit (by decide)
  · exact absurd hhyphen (by decide)

theorem colon_notMem_version (version : Nat) : ':' ∉ (toString version).toList := by
  intro hc
  rw [show toString version = version.repr from rfl, Nat.toList_repr] at hc
  exact absurd (Nat.isDigit_of_mem_toDigits (by decide) (by decide) hc) (by decide)

theorem colon_notMem_base64 (h : KeyTexts app) (bytes : Bytes) :
    ':' ∉ (app.lib.base64Encode bytes).toList :=
  fun hc => absurd (h.alphabet bytes ':' hc) (by decide)

theorem version_inj {n m : Nat} (h : (toString n).toList = (toString m).toList) : n = m :=
  Json.repr_inj h

theorem uuid_inj (h : UuidTexts app.lib) {a b : Uuid}
    (hab : (app.lib.uuidString a).toList = (app.lib.uuidString b).toList) : a = b :=
  h.injective (String.toList_injective hab)

theorem ofOption_injective : Function.Injective Value.ofOption := by
  intro a b h
  cases a <;> cases b <;> first | rfl | exact congrArg some (Value.str.inj h) | exact nomatch h

/-- An optional part can be told from its JSON. -/
theorem ofOption_map_inj {β : Type} {encode : β → String} (hencode : Function.Injective encode)
    {a b : Option β} (h : Value.ofOption (a.map encode) = .ofOption (b.map encode)) : a = b :=
  Option.map_injective hencode (ofOption_injective h)

theorem status_injective : Function.Injective TaskStatus.asStr := by
  intro a b h
  cases a <;> cases b <;> first | rfl | exact absurd h (by decide)

theorem priority_injective : Function.Injective TaskPriority.asStr := by
  intro a b h
  cases a <;> cases b <;> first | rfl | exact absurd h (by decide)

theorem filtersValue_inj (h : KeyTexts app) {a b : TaskFilters}
    (hab : Cache.filtersValue app a = Cache.filtersValue app b) : a = b := by
  simp only [Cache.filtersValue, idValue, timeValue, Value.obj.injEq, List.cons.injEq, Prod.mk.injEq,
    true_and, and_true] at hab
  obtain ⟨hassignee, hafter, hbefore, hlabel, hpriority, hproject, hq, hstatus, hupdated⟩ := hab
  obtain ⟨⟩ := a
  obtain ⟨⟩ := b
  simp only [TaskFilters.mk.injEq]
  exact ⟨ofOption_map_inj status_injective hstatus, ofOption_map_inj priority_injective hpriority,
    ofOption_map_inj h.uuids.injective hproject, ofOption_map_inj h.uuids.injective hassignee,
    ofOption_map_inj h.uuids.injective hlabel, ofOption_map_inj h.times hbefore,
    ofOption_map_inj h.times hafter, ofOption_map_inj h.times hupdated, ofOption_injective hq⟩

theorem listPayload_inj (h : KeyTexts app) {tenantId tenantId' : Uuid} {filters filters' : TaskFilters}
    {cursorToken cursorToken' : Option String} {limit limit' : Nat}
    (hpayload : Cache.listPayload app tenantId filters cursorToken limit =
      Cache.listPayload app tenantId' filters' cursorToken' limit') :
    filters = filters' ∧ cursorToken = cursorToken' ∧ limit = limit' := by
  simp only [Cache.listPayload, Value.obj.injEq, List.cons.injEq, Prod.mk.injEq, true_and,
    and_true] at hpayload
  obtain ⟨hcursor, hfilters, hlimit, -⟩ := hpayload
  exact ⟨filtersValue_inj h hfilters, ofOption_injective hcursor,
    Int.ofNat.inj (Value.num.inj hlimit)⟩

/-! ### Texts -/

/-- The characters of a key: what its kind begins with, and its parts with colons before them. -/
def chars (app : App) : RedisKey → List Char
  | .taskList tenantId version filters cursorToken limit =>
    "cache:tasks:list:".toList ++ ((app.lib.uuidString tenantId).toList ++ ':' ::
      ((toString version).toList ++ ':' :: (app.lib.base64Encode (app.lib.jsonBytes
        (Cache.listPayload app tenantId filters cursorToken limit))).toList))
  | .taskDetail tenantId version taskId =>
    "cache:tasks:detail:".toList ++ ((app.lib.uuidString tenantId).toList ++ ':' ::
      ((toString version).toList ++ ':' :: (app.lib.uuidString taskId).toList))
  | .tenantVersion tenantId =>
    "cache:tenant:".toList ++ ((app.lib.uuidString tenantId).toList ++ ':' :: "version".toList)
  | .idempotency tenantId route key =>
    "idempotency:".toList ++ ((app.lib.uuidString tenantId).toList ++ ':' ::
      (route.toList ++ ':' :: (app.lib.base64Encode key.toUTF8.data.toList).toList))
  | .denylist jti => "auth:denylist:".toList ++ jti.toList
  | .authBucket path client => "ratelimit:auth:".toList ++ (path.toList ++ ':' :: client.toList)
  | .appBucket tenantId userId client =>
    "ratelimit:app:".toList ++ ((app.lib.uuidString tenantId).toList ++ ':' ::
      ((app.lib.uuidString userId).toList ++ ':' :: client.toList))

theorem colon_toList : ":".toList = [':'] := rfl

theorem text_toList (k : RedisKey) : (k.text app).toList = chars app k := by
  cases k with
  | taskList tenantId version filters cursorToken limit =>
      have h : (RedisKey.taskList tenantId version filters cursorToken limit).text app =
          "cache:tasks:list" ++ ":" ++ app.lib.uuidString tenantId ++ ":" ++ toString version ++ ":" ++
            app.lib.base64Encode (app.lib.jsonBytes
              (Cache.listPayload app tenantId filters cursorToken limit)) := rfl
      simp only [h, String.toList_append, colon_toList, List.append_assoc, List.singleton_append]
      rfl
  | taskDetail tenantId version taskId =>
      have h : (RedisKey.taskDetail tenantId version taskId).text app =
          "cache:tasks:detail:" ++ app.lib.uuidString tenantId ++ ":" ++ toString version ++ ":" ++
            app.lib.uuidString taskId := rfl
      simp only [h, String.toList_append, colon_toList, List.append_assoc, List.singleton_append]
      rfl
  | tenantVersion tenantId =>
      have h : (RedisKey.tenantVersion tenantId).text app =
          "cache:tenant:" ++ app.lib.uuidString tenantId ++ ":version" := rfl
      simp only [h, String.toList_append, List.append_assoc]
      rfl
  | idempotency tenantId route key =>
      have h : (RedisKey.idempotency tenantId route key).text app =
          "idempotency:" ++ app.lib.uuidString tenantId ++ ":" ++ route ++ ":" ++
            app.lib.base64Encode key.toUTF8.data.toList := rfl
      simp only [h, String.toList_append, colon_toList, List.append_assoc, List.singleton_append]
      rfl
  | denylist jti =>
      have h : (RedisKey.denylist jti).text app = "auth:denylist:" ++ jti := rfl
      rw [h, String.toList_append]
      rfl
  | authBucket path client =>
      have h : (RedisKey.authBucket path client).text app =
          "ratelimit:auth:" ++ path ++ ":" ++ client := rfl
      simp only [h, String.toList_append, colon_toList, List.append_assoc, List.singleton_append]
      rfl
  | appBucket tenantId userId client =>
      have h : (RedisKey.appBucket tenantId userId client).text app =
          "ratelimit:app:" ++ app.lib.uuidString tenantId ++ ":" ++ app.lib.uuidString userId ++ ":" ++
            client := rfl
      simp only [h, String.toList_append, colon_toList, List.append_assoc, List.singleton_append]
      rfl

/-- What the keys of each kind begin with. -/
def beginnings : List (List Char) :=
  ["cache:tasks:list:".toList, "cache:tasks:detail:".toList, "cache:tenant:".toList,
    "idempotency:".toList, "auth:denylist:".toList, "ratelimit:auth:".toList,
    "ratelimit:app:".toList]

/-- The number of a kind. -/
def kind : RedisKey → Nat
  | .taskList .. => 0
  | .taskDetail .. => 1
  | .tenantVersion .. => 2
  | .idempotency .. => 3
  | .denylist .. => 4
  | .authBucket .. => 5
  | .appBucket .. => 6

theorem findIdx_chars (k : RedisKey) :
    beginnings.findIdx (·.isPrefixOf (chars app k)) = kind k := by
  cases k <;> rfl

theorem kind_eq {k k' : RedisKey} (h : chars app k = chars app k') : kind k = kind k' := by
  have hidx := @findIdx_chars app k
  rw [← hidx, h, findIdx_chars]

/-- The parts of a key, with the kind before them. -/
theorem parts_eq {k k' : RedisKey} (h : k.text app = k'.text app) : chars app k = chars app k' := by
  rw [← text_toList k, ← text_toList k', h]

/-- **A key of Redis is read in one way**: two keys with one text are the same, unless both are
buckets of the rate limit of authentication. -/
theorem key_unique (h : KeyTexts app) {k k' : RedisKey}
    (htext : k.text app = k'.text app) :
    k = k' ∨ ∃ path client path' client', k = .authBucket path client ∧
      k' = .authBucket path' client' := by
  have hkind := kind_eq (parts_eq htext)
  have hchars := parts_eq htext
  have huuid := colon_notMem_uuid h.uuids
  cases k with
  | taskList tenantId version filters cursorToken limit =>
      cases k' with
      | taskList tenantId' version' filters' cursorToken' limit' =>
          obtain ⟨htenant, hrest⟩ := split_first (huuid _) (huuid _) (List.append_cancel_left hchars)
          obtain ⟨hversion, hpayload⟩ :=
            split_first (colon_notMem_version _) (colon_notMem_version _) hrest
          obtain ⟨rfl, rfl, rfl⟩ := listPayload_inj h
            (h.json _ _ _ _ _ _ _ _ (h.base64 (String.toList_injective hpayload)))
          rw [uuid_inj h.uuids htenant, version_inj hversion]
          exact Or.inl rfl
      | _ => exact nomatch hkind
  | taskDetail tenantId version taskId =>
      cases k' with
      | taskDetail tenantId' version' taskId' =>
          obtain ⟨htenant, hrest⟩ := split_first (huuid _) (huuid _) (List.append_cancel_left hchars)
          obtain ⟨hversion, htask⟩ :=
            split_first (colon_notMem_version _) (colon_notMem_version _) hrest
          rw [uuid_inj h.uuids htenant, version_inj hversion, uuid_inj h.uuids htask]
          exact Or.inl rfl
      | _ => exact nomatch hkind
  | tenantVersion tenantId =>
      cases k' with
      | tenantVersion tenantId' =>
          obtain ⟨htenant, -⟩ := split_first (huuid _) (huuid _) (List.append_cancel_left hchars)
          rw [uuid_inj h.uuids htenant]
          exact Or.inl rfl
      | _ => exact nomatch hkind
  | idempotency tenantId route key =>
      cases k' with
      | idempotency tenantId' route' key' =>
          obtain ⟨htenant, hrest⟩ := split_first (huuid _) (huuid _) (List.append_cancel_left hchars)
          -- a route may have colons, and the key in base64 has none
          obtain ⟨hroute, hkey⟩ :=
            split_last (colon_notMem_base64 h _) (colon_notMem_base64 h _) hrest
          have hbytes := h.base64 (String.toList_injective hkey)
          have hkey : key = key' :=
            String.toByteArray_inj.mp (ByteArray.ext (Array.toList_inj.mp hbytes))
          rw [uuid_inj h.uuids htenant, String.toList_injective hroute, hkey]
          exact Or.inl rfl
      | _ => exact nomatch hkind
  | denylist jti =>
      cases k' with
      | denylist jti' =>
          rw [String.toList_injective (List.append_cancel_left hchars)]
          exact Or.inl rfl
      | _ => exact nomatch hkind
  | authBucket path client =>
      cases k' with
      | authBucket path' client' => exact Or.inr ⟨path, client, path', client', rfl, rfl⟩
      | _ => exact nomatch hkind
  | appBucket tenantId userId client =>
      cases k' with
      | appBucket tenantId' userId' client' =>
          obtain ⟨htenant, hrest⟩ := split_first (huuid _) (huuid _) (List.append_cancel_left hchars)
          obtain ⟨huser, hclient⟩ := split_first (huuid _) (huuid _) hrest
          rw [uuid_inj h.uuids htenant, uuid_inj h.uuids huser, String.toList_injective hclient]
          exact Or.inl rfl
      | _ => exact nomatch hkind

/-- The key of a cached answer. -/
def ofTasks : TaskCacheKey → RedisKey
  | .list tenantId version filters cursorToken limit =>
    .taskList tenantId version filters cursorToken limit
  | .detail tenantId version taskId => .taskDetail tenantId version taskId

/-- The key of an idempotent request. -/
def ofIdempotency (key : IdempotencyKey) : RedisKey :=
  .idempotency key.tenantId key.route key.key

theorem ofTasks_inj (h : KeyTexts app) {k k' : TaskCacheKey}
    (htext : (ofTasks k).text app = (ofTasks k').text app) : k = k' := by
  rcases key_unique h htext with he | ⟨path, client, _, _, he, -⟩
  · cases k <;> cases k' <;> cases he <;> rfl
  · cases k <;> exact nomatch he

theorem ofIdempotency_inj (h : KeyTexts app) {k k' : IdempotencyKey}
    (htext : (ofIdempotency k).text app = (ofIdempotency k').text app) : k = k' := by
  rcases key_unique h htext with he | ⟨path, client, _, _, he, -⟩
  · obtain ⟨htenant, hroute, hkey⟩ := RedisKey.idempotency.inj he
    cases k
    cases k'
    exact IdempotencyKey.mk.injEq .. ▸ ⟨htenant, hroute, hkey⟩
  · exact nomatch he

theorem text_ne_of_kind {k k' : RedisKey} (hkind : kind k ≠ kind k') : k.text app ≠ k'.text app :=
  fun htext => hkind (kind_eq (parts_eq htext))

end Keys

open Keys

/-- **Keys do not collide**, whatever clients send: those of cached answers and of idempotent
requests have texts of their own, and no two kinds of keys have a text in common. -/
theorem redis_keys_injective {app : App} (h : KeyTexts app) :
    (∀ k k' : TaskCacheKey, k ≠ k' → (ofTasks k).text app ≠ (ofTasks k').text app) ∧
      (∀ k k' : IdempotencyKey, k ≠ k' →
        (ofIdempotency k).text app ≠ (ofIdempotency k').text app) ∧
      ∀ k k' : RedisKey, kind k ≠ kind k' → k.text app ≠ k'.text app :=
  ⟨fun _ _ hne htext => hne (ofTasks_inj h htext),
    fun _ _ hne htext => hne (ofIdempotency_inj h htext), fun _ _ => text_ne_of_kind⟩

/-- The bytes of a text. -/
def textBytes (text : List Char) : Bytes := (String.ofList text).toUTF8.data.toList

/-- Libraries that write identifiers, JSON and base64 as the platform does. -/
def writing : App :=
  { hyphenating with
    lib := { hyphenating.lib with
      jsonBytes := fun v => textBytes (Json.text v)
      base64Encode := fun bytes => String.ofList (Base64.encode bytes) } }

theorem textBytes_injective : Function.Injective textBytes := by
  intro a b h
  exact String.ofList_injective (String.toByteArray_inj.mp (ByteArray.ext (Array.toList_inj.mp h)))

theorem writing_texts : KeyTexts writing where
  uuids := ⟨hyphenating_texts.injective, hyphenating_texts.ne_nil, hyphenating_texts.shape⟩
  times := fun _ _ h => Json.repr_inj (congrArg String.toList h)
  json := fun _ _ _ _ _ _ _ _ h => Json.text_injective (textBytes_injective h)
  base64 := fun _ _ h => Base64.encode_injective (String.ofList_injective h)
  alphabet := fun bytes c hc => by
    change c ∈ (String.ofList (Base64.encode bytes)).toList at hc
    rw [String.toList_ofList] at hc
    exact Base64.mem_encode hc

/-- A search for some text and a key under some route that are made of one another's parts. -/
theorem redis_keys_injective_colons :
    (ofTasks (.list 1 2 ⟨none, none, none, none, none, none, none, none, some "a:b"⟩ none 20)).text
        writing ≠
      (ofTasks (.list 1 2 ⟨none, none, none, none, none, none, none, none, some "a"⟩ (some ":b")
        20)).text writing ∧
      (ofIdempotency ⟨1, "tasks:create", "exports:create"⟩).text writing ≠
        (ofIdempotency ⟨1, "tasks", "create:exports:create"⟩).text writing :=
  ⟨(redis_keys_injective writing_texts).1 _ _ (by decide),
    (redis_keys_injective writing_texts).2.1 _ _ (by decide)⟩

end Fluxa
