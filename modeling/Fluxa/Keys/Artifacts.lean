import Fluxa.Services.Attachments
import Fluxa.Services.Jobs
import Fluxa.Texts.Hex
import Fluxa.Texts.Paths

/-!
# Keys — Artifacts

Where `storage.rs` puts the artifact of a key: below the directory of the configuration.

**Below the root** (`artifact_keys_confined`).  The normal form of the path of an accepted key is that of the root with the segments of the key after it.  Every key of an attachment and of an export is accepted, and different accepted keys have different paths.
-/

namespace Fluxa

/-- The text of an identifier: there is one of its own for each, of hexadecimal digits and
hyphens. -/
structure UuidTexts (lib : Libraries) : Prop where
  injective : Function.Injective lib.uuidString
  ne_nil : ∀ id, (lib.uuidString id).toList ≠ []
  shape : ∀ id, ∀ c ∈ (lib.uuidString id).toList, Hex.isDigit c = true ∨ c = '-'

namespace Storage

/-- `LocalFsStore::resolve`. -/
def resolve (root key : String) : Except AppError String := do
  validateKey key
  return String.ofList (Paths.join root.toList key.toList)

/-- The key of an export's artifact. -/
def exportKey (app : App) (tenantId jobId : Uuid) (format : ExportFormat) : String :=
  s!"{app.lib.uuidString tenantId}/{app.lib.uuidString jobId}.{format.extension}"

/-- The normal form of a path. -/
def normalForm (path : String) : List Paths.Component := Paths.normalize path.toList

/-- The path is strictly below the root: names follow the root's normal form. -/
def Below (root path : String) : Prop :=
  ∃ names : List (List Char), names ≠ [] ∧
    normalForm path = normalForm root ++ names.map .name

variable {app : App} {root key other path otherPath : String} {segment : List Char} {c : Char}

/-! ### Accepted keys -/

/-- The characters of the segments of a key. -/
def isPlain (c : Char) : Bool := c.isAlphanum || c = '-' || c = '_' || c = '.'

theorem validSegment_iff :
    validSegment segment = true ↔ Paths.IsName segment ∧ ∀ c ∈ segment, isPlain c = true := by
  simp only [validSegment, Paths.IsName, isPlain, Bool.and_eq_true, decide_eq_true_eq,
    List.all_eq_true, and_assoc]

theorem validateKey_ok_iff : validateKey key = .ok () ↔
    key ≠ "" ∧ key.toList.head? ≠ some '/' ∧
      ∀ segment ∈ Paths.segments key.toList, validSegment segment = true := by
  rw [← List.all_eq_true]
  unfold validateKey
  split
  · next h => exact iff_of_true rfl h
  · next h => exact iff_of_false (fun he => nomatch he) h

/-- The segments of an accepted key are names. -/
theorem plain_of_validateKey (h : validateKey key = .ok ()) : Paths.Plain key.toList :=
  fun segment hmem => (validSegment_iff.mp ((validateKey_ok_iff.mp h).2.2 segment hmem)).1

/-- A key is accepted when its segments are. -/
theorem validateKey_of_segments (h : ∀ segment ∈ Paths.segments key.toList,
    Paths.IsName segment ∧ ∀ c ∈ segment, isPlain c = true) : validateKey key = .ok () := by
  have hplain : Paths.Plain key.toList := fun segment hmem => (h segment hmem).1
  refine validateKey_ok_iff.mpr ⟨?_, hplain.relative, fun segment hmem =>
    validSegment_iff.mpr (h segment hmem)⟩
  rintro rfl
  exact (hplain [] List.mem_cons_self).1 rfl

theorem validateKey_of_resolve (h : resolve root key = .ok path) :
    validateKey key = .ok () ∧ path = String.ofList (Paths.join root.toList key.toList) := by
  unfold resolve at h
  cases hkey : validateKey key with
  | ok _ =>
      rw [hkey] at h
      exact ⟨rfl, (Except.ok.inj h).symm⟩
  | error e => rw [hkey] at h; exact nomatch h

theorem normalForm_resolve (h : resolve root key = .ok path) :
    normalForm path = normalForm root ++ (Paths.segments key.toList).map .name := by
  obtain ⟨hkey, rfl⟩ := validateKey_of_resolve h
  rw [normalForm, String.toList_ofList]
  exact Paths.normalize_join (plain_of_validateKey hkey)

/-- **An accepted key stays below the root.** -/
theorem below_of_resolve (h : resolve root key = .ok path) : Below root path :=
  ⟨_, Paths.segments_ne_nil, normalForm_resolve h⟩

/-- **Different accepted keys have different paths.** -/
theorem key_eq_of_resolve (hkey : resolve root key = .ok path)
    (hother : resolve root other = .ok otherPath) (h : normalForm path = normalForm otherPath) :
    key = other := by
  obtain ⟨hplain, rfl⟩ := validateKey_of_resolve hkey
  obtain ⟨hplain', rfl⟩ := validateKey_of_resolve hother
  simp only [normalForm, String.toList_ofList] at h
  exact String.toList_injective (Paths.eq_of_normalize_join_eq (plain_of_validateKey hplain)
    (plain_of_validateKey hplain') h)

/-! ### Generated keys -/

theorem isPlain_of_isDigit (h : Hex.isDigit c = true) : isPlain c = true := by
  have halnum : c.isAlphanum = true := by
    have hdigit : c.isDigit = (decide ('0' ≤ c) && decide (c ≤ '9')) := rfl
    have hlower : c.isLower = (decide ('a' ≤ c) && decide (c ≤ 'z')) := rfl
    change ((c.isUpper || c.isLower) || c.isDigit) = true
    rw [hdigit, hlower]
    simp only [Hex.isDigit, Bool.or_eq_true, Bool.and_eq_true, decide_eq_true_eq] at h ⊢
    rcases h with ⟨h0, h9⟩ | ⟨ha, hf⟩
    · exact Or.inr ⟨h0, h9⟩
    · have hz : 'f' ≤ 'z' := by decide
      exact Or.inl (Or.inr ⟨ha, UInt32.le_trans hf hz⟩)
  simp only [isPlain, halnum, Bool.true_or]

theorem slash_not_plain : isPlain '/' = false := rfl

/-- The text of an identifier, with something plain after it, is the name of a file. -/
theorem segment_of_uuid (h : UuidTexts app.lib) (id : Uuid) {suffix : List Char}
    (hsuffix : ∀ c ∈ suffix, isPlain c = true) :
    Paths.IsName ((app.lib.uuidString id).toList ++ suffix) ∧
      ∀ c ∈ (app.lib.uuidString id).toList ++ suffix, isPlain c = true := by
  obtain ⟨first, rest, hid⟩ := List.exists_cons_of_ne_nil (h.ne_nil id)
  have hshape := h.shape id
  rw [hid] at hshape ⊢
  -- no identifier begins with a dot
  have hdot : first ≠ '.' := by
    rintro rfl
    exact absurd (hshape '.' List.mem_cons_self) (by decide)
  refine ⟨⟨List.cons_ne_nil _ _, fun he => hdot (List.cons.inj he).1,
    fun he => hdot (List.cons.inj he).1⟩, fun c hc => ?_⟩
  rcases List.mem_append.mp hc with hc | hc
  · rcases hshape c hc with hc | rfl
    · exact isPlain_of_isDigit hc
    · rfl
  · exact hsuffix c hc

/-- Plain texts are the segments of what they are joined to with slashes. -/
theorem segments_intercalate {names : List (List Char)} (hne : names ≠ [])
    (h : ∀ name ∈ names, ∀ c ∈ name, isPlain c = true) :
    Paths.segments (['/'].intercalate names) = names := by
  refine List.splitOn_intercalate '/' (fun name hname hslash => ?_) hne
  have hplain := h name hname '/' hslash
  rw [slash_not_plain] at hplain
  exact nomatch hplain

/-- A key of plain names is accepted. -/
theorem validateKey_of_names {names : List (List Char)} (hne : names ≠ [])
    (hkey : key.toList = ['/'].intercalate names)
    (h : ∀ name ∈ names, Paths.IsName name ∧ ∀ c ∈ name, isPlain c = true) :
    validateKey key = .ok () := by
  refine validateKey_of_segments ?_
  rw [hkey, segments_intercalate hne fun name hname => (h name hname).2]
  exact h

theorem validateKey_storageKey (h : UuidTexts app.lib) (tenantId taskId attachmentId : Uuid) :
    validateKey (Attachments.storageKey app tenantId taskId attachmentId) = .ok () := by
  have hnone : ∀ c ∈ ([] : List Char), isPlain c = true := fun _ hc => absurd hc List.not_mem_nil
  have huuid := fun id => segment_of_uuid h id hnone
  simp only [List.append_nil] at huuid
  have hfolder : Paths.IsName "attachments".toList ∧
      ∀ c ∈ "attachments".toList, isPlain c = true := by
    refine ⟨⟨by decide, by decide, by decide⟩, List.all_eq_true.mp (by decide)⟩
  have hne : ["attachments".toList, (app.lib.uuidString tenantId).toList,
      (app.lib.uuidString taskId).toList, (app.lib.uuidString attachmentId).toList] ≠ [] :=
    List.cons_ne_nil _ _
  refine validateKey_of_names hne ?_ ?_
  · simp [Attachments.storageKey, toString, String.toList_append, List.intercalate]
  · intro name hname
    simp only [List.mem_cons, List.not_mem_nil, or_false] at hname
    rcases hname with rfl | rfl | rfl | rfl
    · exact hfolder
    all_goals exact huuid _

theorem validateKey_exportKey (h : UuidTexts app.lib) (tenantId jobId : Uuid)
    (format : ExportFormat) : validateKey (exportKey app tenantId jobId format) = .ok () := by
  have hnone : ∀ c ∈ ([] : List Char), isPlain c = true := fun _ hc => absurd hc List.not_mem_nil
  have htenant := segment_of_uuid h tenantId hnone
  rw [List.append_nil] at htenant
  have hextension : ∀ c ∈ ('.' :: format.extension.toList), isPlain c = true := by
    cases format <;> exact List.all_eq_true.mp (by decide)
  have hne : [(app.lib.uuidString tenantId).toList,
      (app.lib.uuidString jobId).toList ++ '.' :: format.extension.toList] ≠ [] :=
    List.cons_ne_nil _ _
  refine validateKey_of_names hne ?_ ?_
  · simp [exportKey, toString, String.toList_append, List.intercalate]
  · intro name hname
    simp only [List.mem_cons, List.not_mem_nil, or_false] at hname
    rcases hname with rfl | rfl
    · exact htenant
    · exact segment_of_uuid h jobId hextension

/-- An export stores its artifact under the key. -/
theorem processExportJob_key (rounds : Nat) (jobId tenantId requestedBy : Uuid)
    (filters : TaskFilters) (format : ExportFormat) :
    Jobs.processExportJob app rounds jobId tenantId requestedBy filters format = (do
      let allTasks ← Jobs.exportLoop app tenantId filters rounds none []
      Storage.put (exportKey app tenantId jobId format) (Jobs.exportBytes app format allTasks)
      let now ← utcNow
      return .obj [("requested_by", .str (app.lib.uuidString requestedBy)),
        ("generated_at", .str (app.lib.jsonTime now)), ("task_count", .num allTasks.length),
        ("format", .str format.asStr),
        ("artifact", .obj [("key", .str (exportKey app tenantId jobId format)),
          ("content_type", .str format.contentType),
          ("size_bytes", .num (Jobs.exportBytes app format allTasks).length),
          ("download_path", .str s!"/v1/jobs/{app.lib.uuidString jobId}/artifact")])]) :=
  rfl

end Storage

open Storage

/-- **Artifacts stay below the root.**  An accepted key has a path strictly below the root, the
keys of attachments and exports are accepted, and different accepted keys have different paths. -/
theorem artifact_keys_confined {app : App} (h : UuidTexts app.lib) (root : String) :
    (∀ key, validateKey key = .ok () → ∃ path, resolve root key = .ok path ∧ Below root path) ∧
      (∀ tenantId taskId attachmentId,
        validateKey (Attachments.storageKey app tenantId taskId attachmentId) = .ok ()) ∧
      (∀ tenantId jobId format, validateKey (exportKey app tenantId jobId format) = .ok ()) ∧
      ∀ key other path otherPath, resolve root key = .ok path → resolve root other = .ok otherPath →
        key ≠ other → normalForm path ≠ normalForm otherPath := by
  refine ⟨fun key hkey => ?_, validateKey_storageKey h, validateKey_exportKey h,
    fun key other path otherPath hpath hother hne he => hne (key_eq_of_resolve hpath hother he)⟩
  have hpath : resolve root key = .ok (String.ofList (Paths.join root.toList key.toList)) := by
    rw [resolve, hkey]
    rfl
  exact ⟨_, hpath, below_of_resolve hpath⟩

/-- Libraries that write identifiers in groups of hexadecimal digits. -/
def hyphenating : App :=
  { (default : App) with
    lib := { (default : Libraries) with uuidString := fun id => String.ofList (Hex.hyphenated id) } }

theorem hyphenating_texts : UuidTexts hyphenating.lib where
  injective := fun _ _ h => Hex.hyphenated_injective (String.ofList_injective h)
  ne_nil := fun id => by
    change (String.ofList (Hex.hyphenated id)).toList ≠ []
    rw [String.toList_ofList]
    exact Hex.hyphenated_ne_nil
  shape := fun id c hc => by
    change c ∈ (String.ofList (Hex.hyphenated id)).toList at hc
    rw [String.toList_ofList] at hc
    exact Hex.mem_hyphenated hc

/-- The file of an attachment is below the storage directory, whatever that is. -/
theorem artifact_keys_confined_attachment :
    ∃ path, resolve "../data//artifacts" (Attachments.storageKey hyphenating 1 2 3) = .ok path ∧
      Below "../data//artifacts" path :=
  (artifact_keys_confined hyphenating_texts "../data//artifacts").1 _
    ((artifact_keys_confined hyphenating_texts "../data//artifacts").2.1 1 2 3)

end Fluxa
