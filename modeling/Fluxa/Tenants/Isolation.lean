import Mathlib.Data.List.Induction
import Fluxa.Tenants.Noninterference

/-!
# Tenants — isolation

**A request, in two states that differ in what others have** (`request_isolated`).  The states agree on the users and on the rows, cache entries and files of the tenant for which the request is authenticated; the identifiers in the request are arbitrary, also those of rows of other tenants.  The statements of the request can be executed in the one state as in the other, they end with the same reply, and they change what the tenant has in the same way.  What another tenant has stays as it was.

The statements rely on it that rows refer to rows of their own tenant, as all that are written do.  Some name only the identifier of the row that another refers to: a task in a project of another tenant would be listed or not as that tenant archives its project (`foreign_project_seen`).
-/

namespace Fluxa
open Interleave Relational Db Contract Parts

namespace Tenants

variable {app : App} {owner : Uuid → Option Uuid} {s v : AppState} {c : RequestConfig}
  {k : AuthenticatedUser × Request} {es : List Env} {b : Uuid}

/-- What the platform supplies to a request that is answered on its own. -/
def Supplies (app : App) (k : AuthenticatedUser × Request) (es : List Env) (s : AppState) : Prop :=
  (requestSystem app).Along
    (fun d m => d.Meets (fun i l e s => admissible i l e s = true ∧ FreshRows e s) m)
    (.start s) (single k es)

/-- The states agree on the users and on what tenant `b` has. -/
def Agree (app : App) (b : Uuid) (o₁ : Whose) (s₁ : AppState) (o₂ : Whose) (s₂ : AppState) : Prop :=
  ∃ v, Part app o₁ b s₁ v ∧ Part app o₂ b s₂ v

/-- What the tenants other than `b` had, they have. -/
def Untouched (app : App) (b : Uuid) (o : Whose) (s : AppState) (o' : Whose) (s' : AppState) :
    Prop := ∀ b', b' ≠ b → ∀ w, Part app o b' s w → Part app o' b' s' w

theorem fresh_of_supplies (h : Supplies app k es s) : (requestSystem app).Along
    (fun d m => d.Meets (fun _ _ e s => FreshRows e s) m) (.start s) (single k es) :=
  h.mono fun _ _ hm i e he l hl => (hm i e he l hl).2

/-- A request on its own is answered in its tenant's part as on the whole state. -/
theorem single_seen (hlib : UuidTexts app.lib) (hs : TenantStart app owner s)
    (hv : Part app ⟨owner, fun _ => 0⟩ (home k) s v) (hin : Supplies app k es s)
    (h : (requestSystem app).exec (.start s) (single k es) = some c) :
    ∃ d, (requestSystem app).exec (.start v) (single k es) = some d ∧
      (tenantParts app (whose owner s c)).Seen home k (home k) c d := by
  obtain ⟨d, hd, hseen⟩ := exec_seen hs (fresh_of_supplies hin) h hlib hv k
  rw [seenBy_single, if_pos rfl] at hd
  exact ⟨d, hd, hseen⟩

/-- The other tenants see nothing of it. -/
theorem single_untouched (hlib : UuidTexts app.lib) (hs : TenantStart app owner s)
    (hin : Supplies app k es s)
    (h : (requestSystem app).exec (.start s) (single k es) = some c) :
    Untouched app (home k) ⟨owner, fun _ => 0⟩ s (whose owner s c) c.st := by
  intro b' hb w hw
  obtain ⟨d, hd, hseen⟩ := exec_seen hs (fresh_of_supplies hin) h hlib hw k
  rw [seenBy_single, if_neg (Ne.symm hb)] at hd
  obtain rfl := Option.some.inj hd
  exact hseen.part

/-- Whatever a request on its own executes in its tenant's part, it executes on the whole state: no
transaction is open that it could wait for. -/
theorem single_whole (hlib : UuidTexts app.lib) (hs : TenantStart app owner s)
    (hv : Part app ⟨owner, fun _ => 0⟩ (home k) s v) (hin : Supplies app k es s) {d : RequestConfig}
    (hd : (requestSystem app).exec (.start v) (single k es) = some d) :
    ∃ c, (requestSystem app).exec (.start s) (single k es) = some c := by
  induction es using List.reverseRecOn generalizing d with
  | nil => exact ⟨_, rfl⟩
  | append_singleton es e ih =>
      have hmoves : single k (es ++ [e]) = single k es ++ [.exec 0 e] := by
        rw [single, List.map_append]
        rfl
      rw [Supplies, hmoves] at hin
      rw [hmoves, System.exec_append] at hd ⊢
      obtain ⟨d₁, hd₁, hlast⟩ := Option.bind_eq_some_iff.mp hd
      obtain ⟨d₂, hstep, -⟩ := System.exec_cons hlast
      obtain ⟨c, hc⟩ := ih hin.init hd₁
      obtain ⟨d', hd', hseen⟩ := single_seen hlib hs hv hin.init hc
      obtain rfl := Option.some.inj (hd'.symm.trans hd₁)
      obtain ⟨p, hp⟩ := calls_single hc
      have halone : (tenantParts app (whose owner s c)).Alone (home k) c.st := fun b' hb =>
        ⟨_, single_untouched hlib hs hin.init hc b' hb _ part_partOf, by
          constructor
          · exact List.filter_eq_nil_iff.mpr fun T hT => absurd (hs.labelTxs ▸ hT) List.not_mem_nil
          · exact List.filter_eq_nil_iff.mpr fun T hT =>
              absurd (hs.webhookTxs ▸ hT) List.not_mem_nil⟩
      obtain ⟨c', hc'⟩ := hseen.exec_whole hp rfl halone
        (fun l hl => (hin.last hc 0 e rfl l hl).1) hstep
      exact ⟨c', by rw [hc]; exact (Option.bind_some _ _).trans (by rw [System.exec, hc']; rfl)⟩

end Tenants

open Tenants

/-- **Tenants are isolated.**  A request gets the same reply in two states that agree on what its
tenant has, and changes that in the same way; the other tenants have what they had. -/
theorem request_isolated {app : App} (hlib : UuidTexts app.lib) {owner₁ owner₂ : Uuid → Option Uuid}
    {s₁ s₂ : AppState} {k : AuthenticatedUser × Request} {es : List Env}
    (hs₁ : TenantStart app owner₁ s₁) (hs₂ : TenantStart app owner₂ s₂)
    (hagree : Agree app (home k) ⟨owner₁, fun _ => 0⟩ s₁ ⟨owner₂, fun _ => 0⟩ s₂)
    (hin₁ : Supplies app k es s₁) (hin₂ : Supplies app k es s₂) {c₁ : RequestConfig}
    (h₁ : (requestSystem app).exec (.start s₁) (single k es) = some c₁) :
    ∃ c₂, (requestSystem app).exec (.start s₂) (single k es) = some c₂ ∧
      c₂.result? 0 = c₁.result? 0 ∧
      Agree app (home k) (whose owner₁ s₁ c₁) c₁.st (whose owner₂ s₂ c₂) c₂.st ∧
      Untouched app (home k) ⟨owner₁, fun _ => 0⟩ s₁ (whose owner₁ s₁ c₁) c₁.st ∧
      Untouched app (home k) ⟨owner₂, fun _ => 0⟩ s₂ (whose owner₂ s₂ c₂) c₂.st := by
  obtain ⟨v, hv₁, hv₂⟩ := hagree
  obtain ⟨d, hd, hseen₁⟩ := single_seen hlib hs₁ hv₁ hin₁ h₁
  obtain ⟨c₂, h₂⟩ := single_whole hlib hs₂ hv₂ hin₂ hd
  obtain ⟨d', hd', hseen₂⟩ := single_seen hlib hs₂ hv₂ hin₂ h₂
  obtain rfl := Option.some.inj (hd.symm.trans hd')
  obtain ⟨p₁, hp₁⟩ := calls_single h₁
  obtain ⟨p₂, hp₂⟩ := calls_single h₂
  refine ⟨c₂, h₂, ?_, ⟨_, hseen₁.part, hseen₂.part⟩, single_untouched hlib hs₁ hin₁ h₁,
    single_untouched hlib hs₂ hin₂ h₂⟩
  exact (hseen₂.result hp₂ rfl).symm.trans (hseen₁.result hp₁ rfl)

namespace Tenants

theorem supplies_of_rowsFrom {app : App} {k : AuthenticatedUser × Request} {us : List Nat}
    {s : AppState}
    (h : (requestSystem app).Along (fun d m => d.st.db.webhookDeliveries.rows.length = 0 ∧
      d.Meets (fun i l e s => admissible i l e s = true) m) (.start s)
        (single k (us.map (requestInput 0)))) : Supplies app k (us.map (requestInput 0)) s := by
  have hrows : ∀ m ∈ single k (us.map (requestInput 0)), RowsFrom m := by
    intro m hm i e he
    subst he
    rcases List.mem_cons.mp hm with hm | hm
    · cases hm
    · obtain ⟨e', he', hm⟩ := List.mem_map.mp hm
      obtain ⟨u, -, rfl⟩ := List.mem_map.mp he'
      cases hm
      rfl
  refine (h.and (fresh_of_rowsFrom hrows (h.mono fun _ _ hm => hm.1))).mono fun d m hm => ?_
  exact fun i e he l hl => ⟨hm.1.2 i e he l hl, hm.2 i e he l hl⟩

/-- A user of tenant 1 comments on its task. -/
def comment : AuthenticatedUser × Request :=
  (⟨2, 1, .member, 0⟩, .write (.createTaskComment 3 (some "a") "mine"))

def commentInputs : List Env := [10, 11, 12, 13, 14, 15, 16, 17, 18].map (requestInput 0)

/-- The comment is the same whatever the task of tenant 9 is called. -/
theorem request_isolated_comment : ∃ c₁ c₂,
    (requestSystem hyphenating).exec (.start (tasksWith "nine")) (single comment commentInputs) =
      some c₁ ∧
    (requestSystem hyphenating).exec (.start (tasksWith "ten")) (single comment commentInputs) =
      some c₂ ∧
    (c₁.result? 0).isSome = true ∧ c₂.result? 0 = c₁.result? 0 ∧
    Agree hyphenating 1 (whose eachOwner (tasksWith "nine") c₁) c₁.st
      (whose eachOwner (tasksWith "ten") c₂) c₂.st ∧
    Untouched hyphenating 1 ⟨eachOwner, fun _ => 0⟩ (tasksWith "nine")
      (whose eachOwner (tasksWith "nine") c₁) c₁.st := by
  have hrun : ((requestSystem hyphenating).exec (.start (tasksWith "nine"))
      (single comment commentInputs)).any fun c => (c.result? 0).isSome = true := by decide +kernel
  obtain ⟨c₁, hc₁, hended⟩ := (Option.any_eq_true _ _).mp hrun
  have hstart : Agree hyphenating (home comment) ⟨eachOwner, fun _ => 0⟩ (tasksWith "nine")
      ⟨eachOwner, fun _ => 0⟩ (tasksWith "ten") :=
    ⟨partOf ⟨eachOwner, fun _ => 0⟩ 1 (tasksWith "nine"), part_partOf, part_partOf⟩
  obtain ⟨c₂, hc₂, hresult, hagree, huntouched, -⟩ := request_isolated hyphenating_texts
    tasksWith_start tasksWith_start hstart (supplies_of_rowsFrom (by decide +kernel))
    (supplies_of_rowsFrom (by decide +kernel)) hc₁
  exact ⟨c₁, c₂, hc₁, hc₂, of_decide_eq_true hended, hresult, hagree, huntouched⟩

/-! ### A task in a project of another tenant -/

/-- Task 3 of tenant 1 is in project 7 of tenant 9. -/
def foreignProject (archivedAt : Option Time) : AppState :=
  { (default : AppState) with
    db := { (default : Database) with
      users := ⟨[⟨2, "a@x", "h", none, none, 0⟩, ⟨8, "b@x", "h", none, none, 0⟩], by decide⟩
      tenants := ⟨[⟨1, "T", 0⟩, ⟨9, "U", 0⟩], by decide⟩
      projects := ⟨[⟨7, 9, "P", none, 8, 8, 0, 0, archivedAt⟩],
        (by decide : ([7] : List Uuid).Nodup)⟩
      tasks := ⟨[⟨3, 1, some 7, "one", none, .open, .medium, none, none, 2, 2, 0, 0⟩],
        by decide⟩ }
    history.issued := [(3, 0), (7, 0)] }

/-- A user of tenant 1 lists its tasks. -/
def listing : AuthenticatedUser × Request :=
  (⟨2, 1, .member, 0⟩, .listTasks ⟨⟨none, none, none, none, none, none, none, none, none, none⟩,
    none, none⟩)

def listingInputs : List Env := [10, 11, 12, 13].map (requestInput 0)

/-- The number of rows in a page. -/
def pageLength : Option (Except AppError Reply) → Option Nat
  | some (.ok (.value page)) =>
    match page.get "data" with
    | .arr values => some values.length
    | _ => none
  | _ => none

/-- Two states that agree on what tenant 1 has; in the second, tenant 9 has archived its project,
and the task that tenant 1 has in it is not listed. -/
theorem foreign_project_seen :
    Agree hyphenating 1 ⟨fun _ => none, fun _ => 0⟩ (foreignProject none)
      ⟨fun _ => none, fun _ => 0⟩ (foreignProject (some 5)) ∧
    Supplies hyphenating listing listingInputs (foreignProject none) ∧
    Supplies hyphenating listing listingInputs (foreignProject (some 5)) ∧
    ∃ c₁ c₂, (requestSystem hyphenating).exec (.start (foreignProject none))
        (single listing listingInputs) = some c₁ ∧
      (requestSystem hyphenating).exec (.start (foreignProject (some 5)))
        (single listing listingInputs) = some c₂ ∧
      pageLength (c₁.result? 0) = some 1 ∧ pageLength (c₂.result? 0) = some 0 ∧
      c₂.result? 0 ≠ c₁.result? 0 := by
  have h₁ : ((requestSystem hyphenating).exec (.start (foreignProject none))
      (single listing listingInputs)).any fun c => pageLength (c.result? 0) = some 1 := by
    decide +kernel
  have h₂ : ((requestSystem hyphenating).exec (.start (foreignProject (some 5)))
      (single listing listingInputs)).any fun c => pageLength (c.result? 0) = some 0 := by
    decide +kernel
  obtain ⟨c₁, hc₁, hone⟩ := (Option.any_eq_true _ _).mp h₁
  obtain ⟨c₂, hc₂, hnone⟩ := (Option.any_eq_true _ _).mp h₂
  have hdiffer : c₂.result? 0 ≠ c₁.result? 0 := by
    intro heq
    have hone' := of_decide_eq_true hone
    rw [← heq, of_decide_eq_true hnone] at hone'
    cases hone'
  exact ⟨⟨partOf ⟨fun _ => none, fun _ => 0⟩ 1 (foreignProject none), part_partOf, part_partOf⟩,
    supplies_of_rowsFrom (by decide +kernel), supplies_of_rowsFrom (by decide +kernel), c₁, c₂, hc₁,
    hc₂, of_decide_eq_true hone, of_decide_eq_true hnone, hdiffer⟩

end Tenants

end Fluxa
