import Mathlib.Data.List.Sort
import Mathlib.Data.List.Nodup
import Mathlib.Data.List.TakeDrop

/-!
# Relational — paging

Rows in pages of at most `limit` rows, the greatest keys first, each page below the last key of the page before.

* **`descending_after`**: from rows that do not change, a page leaves exactly the rows after it.
* **`walk_nodup`**: from rows whose keys may grow between two pages, a walk through all pages has no row twice.
* **`mem_walk_iff`**: the walk has a row that is there at each page exactly when the row is not **`Overtaken`**: never below the cursor at one page and past it at the next.
-/

namespace Relational

variable {α κ ι : Type} [LinearOrder κ] (key : α → κ) (ident : α → ι) (limit : Nat)

/-- The row comes after the cursor. -/
def below (cursor : Option κ) (a : α) : Prop := ∀ c, cursor = some c → key a < c

instance (cursor : Option κ) (a : α) : Decidable (below key cursor a) :=
  match cursor with
  | none => .isTrue fun _ h => by cases h
  | some c => decidable_of_iff (key a < c) ⟨fun h _ e => Option.some.inj e ▸ h, fun h => h c rfl⟩

/-- The rows below the cursor, the greatest keys first. -/
def descending (cursor : Option κ) (rows : List α) : List α :=
  (rows.filter fun a => below key cursor a).insertionSort fun a b => key b ≤ key a

/-- The first `limit` rows below the cursor. -/
def page (cursor : Option κ) (rows : List α) : List α :=
  (descending key cursor rows).take limit

/-- The cursor after a page. -/
def cursorAfter (p : List α) : Option κ := p.getLast?.map key

/-- The pages read one after the other from the given states of the rows. -/
def walk : Option κ → List (List α) → List α
  | _, [] => []
  | cursor, rows :: rest =>
    page key limit cursor rows ++ walk (cursorAfter key (page key limit cursor rows)) rest

/-- All pages but the last are full, and the last is not. -/
def Complete : Option κ → List (List α) → Prop
  | _, [] => False
  | cursor, [rows] => (page key limit cursor rows).length ≠ limit
  | cursor, rows :: rest =>
    (page key limit cursor rows).length = limit ∧
      Complete (cursorAfter key (page key limit cursor rows)) rest

/-- The row `x` is below the cursor when one page has been read, and no more when the next one is
read. -/
def Overtaken (x : ι) : Option κ → List (List α) → Prop
  | cursor, rows :: rows' :: rest =>
    let next := cursorAfter key (page key limit cursor rows)
    ((∃ a ∈ rows, ident a = x ∧ below key next a) ∧ ∃ b ∈ rows', ident b = x ∧ ¬ below key next b) ∨
      Overtaken x next (rows' :: rest)
  | _, _ => False

/-- The rows have an identity each. -/
def Distinct (rows : List α) : Prop := (rows.map ident).Nodup

/-- From one state of the rows to a later one, keys do not decrease. -/
def Later (rows rows' : List α) : Prop :=
  ∀ a ∈ rows, ∀ b ∈ rows', ident a = ident b → key a ≤ key b

section Page

variable {key ident limit} {cursor : Option κ} {rows : List α}

theorem below_none {a : α} : below key none a := fun _ h => by cases h

theorem below_some {a : α} {c : κ} : below key (some c) a ↔ key a < c :=
  ⟨fun h => h c rfl, fun h _ e => Option.some.inj e ▸ h⟩

theorem mem_descending {a : α} :
    a ∈ descending key cursor rows ↔ a ∈ rows ∧ below key cursor a := by
  simp [descending, List.mem_insertionSort]

theorem mem_of_mem_page {a : α} (h : a ∈ page key limit cursor rows) :
    a ∈ rows ∧ below key cursor a :=
  mem_descending.mp (List.mem_of_mem_take h)

theorem descending_pairwise :
    (descending key cursor rows).Pairwise fun a b => key b ≤ key a := by
  have : Std.Total fun a b : α => key b ≤ key a := ⟨fun a b => le_total (key b) (key a)⟩
  have : IsTrans α fun a b => key b ≤ key a := ⟨fun _ _ _ hab hbc => hbc.trans hab⟩
  exact List.pairwise_insertionSort _ _

theorem page_pairwise : (page key limit cursor rows).Pairwise fun a b => key b ≤ key a :=
  descending_pairwise.sublist (List.take_sublist _ _)

theorem page_nodup (h : Distinct ident rows) :
    ((page key limit cursor rows).map ident).Nodup := by
  have hf : ((rows.filter fun a => below key cursor a).map ident).Nodup :=
    h.sublist (List.filter_sublist.map ident)
  have hd : ((descending key cursor rows).map ident).Nodup :=
    ((List.perm_insertionSort _ _).map ident).nodup_iff.mpr hf
  exact hd.sublist ((List.take_sublist _ _).map ident)

/-- No row of a page is below the cursor after it. -/
theorem cursorAfter_le {p : List α} (hp : p.Pairwise fun a b => key b ≤ key a) {a : α} {c : κ}
    (ha : a ∈ p) (hc : cursorAfter key p = some c) : c ≤ key a := by
  obtain ⟨b, hb, rfl⟩ := Option.map_eq_some_iff.mp hc
  rw [← List.dropLast_append_getLast? b hb] at ha hp
  rw [List.mem_append, List.mem_singleton] at ha
  rcases ha with ha | rfl
  · exact (List.pairwise_append.mp hp).2.2 a ha b List.mem_cons_self
  · exact le_rfl

omit [LinearOrder κ] in
/-- The cursor after rows is the key of one of them. -/
theorem exists_of_cursorAfter {p : List α} {c : κ} (hc : cursorAfter key p = some c) :
    ∃ a ∈ p, key a = c := by
  obtain ⟨a, ha, rfl⟩ := Option.map_eq_some_iff.mp hc
  exact ⟨a, List.mem_of_getLast? ha, rfl⟩

omit [LinearOrder κ] in
theorem cursorAfter_isSome {p : List α} (hp : p ≠ []) : ∃ c, cursorAfter key p = some c :=
  ⟨_, congrArg (Option.map key) (List.getLast?_eq_some_getLast hp)⟩

/-- A row below the cursor that is not on the page comes after all its rows, and the page is
full. -/
theorem of_not_mem_page {a : α} (ha : a ∈ rows) (hb : below key cursor a)
    (hn : a ∉ page key limit cursor rows) :
    (page key limit cursor rows).length = limit ∧
      ∀ b ∈ page key limit cursor rows, key a ≤ key b := by
  have hs := mem_descending.mpr ⟨ha, hb⟩
  have hp : (descending key cursor rows).Pairwise fun a b => key b ≤ key a := descending_pairwise
  unfold page at hn ⊢
  generalize descending key cursor rows = sorted at hs hp hn ⊢
  rw [← List.take_append_drop limit sorted, List.mem_append] at hs
  have hd := hs.resolve_left hn
  refine ⟨?_, fun b hb => ?_⟩
  · rw [List.length_take]
    refine min_eq_left (le_of_not_gt fun hlt => ?_)
    rw [List.drop_of_length_le hlt.le] at hd
    cases hd
  · rw [← List.take_append_drop limit sorted] at hp
    exact (List.pairwise_append.mp hp).2.2 b hb a hd

end Page

/-! ### Rows that do not change -/

section Unchanging

variable {key} {cursor : Option κ} {rows : List α}

/-- The rows below the cursor in descending order are the one list with these elements in this
order. -/
theorem descending_eq (hrows : rows.Nodup) {l : List α} (hl : l.Pairwise fun a b => key b < key a)
    (hmem : ∀ a, a ∈ l ↔ a ∈ rows ∧ below key cursor a) : descending key cursor rows = l := by
  have hd : (descending key cursor rows).Nodup :=
    (List.perm_insertionSort _ _).nodup_iff.mpr (hrows.filter _)
  have hln : l.Nodup := hl.imp fun h e => absurd (e ▸ h) (lt_irrefl _)
  have hperm : (descending key cursor rows).Perm l :=
    (List.perm_ext_iff_of_nodup hd hln).mpr fun a => mem_descending.trans (hmem a).symm
  have hkeys : (l.map key).Nodup := List.pairwise_map.mpr (hl.imp fun h => h.ne')
  exact hperm.eq_of_pairwise
    (fun a b ha hb hab hba =>
      List.inj_on_of_nodup_map hkeys (hperm.mem_iff.mp ha) hb (le_antisymm hba hab))
    descending_pairwise (hl.imp le_of_lt)

theorem descending_strict (hrows : rows.Nodup) (hkey : Set.InjOn key {a | a ∈ rows}) :
    (descending key cursor rows).Pairwise fun a b => key b < key a := by
  have hd : (descending key cursor rows).Nodup :=
    (List.perm_insertionSort _ _).nodup_iff.mpr (hrows.filter _)
  refine (descending_pairwise.and hd).imp_of_mem fun ha hb h => lt_of_le_of_ne h.1 fun he => ?_
  exact h.2 (hkey (mem_descending.mp ha).1 (mem_descending.mp hb).1 he.symm)

/-- After the first `n` rows, the rows below their cursor are the others. -/
theorem descending_after (hrows : rows.Nodup) (hkey : Set.InjOn key {a | a ∈ rows}) {n : Nat}
    (hn : (descending key cursor rows).take n ≠ []) :
    descending key (cursorAfter key ((descending key cursor rows).take n)) rows =
      (descending key cursor rows).drop n := by
  have hs : (descending key cursor rows).Pairwise fun a b => key b < key a :=
    descending_strict hrows hkey
  obtain ⟨c, hc⟩ := @cursorAfter_isSome _ _ key _ hn
  obtain ⟨l, hl, rfl⟩ := exists_of_cursorAfter hc
  have hbelow : below key cursor l := (mem_descending.mp (List.mem_of_mem_take hl)).2
  refine descending_eq hrows (hs.sublist (List.drop_sublist _ _)) fun a => ?_
  rw [hc, below_some]
  rw [← List.take_append_drop n (descending key cursor rows)] at hs
  constructor
  · intro ha
    exact ⟨(mem_descending.mp (List.mem_of_mem_drop ha)).1,
      (List.pairwise_append.mp hs).2.2 l hl a ha⟩
  · rintro ⟨ha, hlt⟩
    have hmem := mem_descending.mpr ⟨ha, fun c hc => hlt.trans (hbelow c hc)⟩
    rw [← List.take_append_drop n (descending key cursor rows), List.mem_append] at hmem
    refine hmem.resolve_left fun ht => ?_
    have hle := cursorAfter_le (descending_pairwise.sublist (List.take_sublist _ _)) ht hc
    exact absurd hlt (not_lt_of_ge hle)

end Unchanging

/-! ### Rows whose keys grow -/

section Growing

variable {key ident limit} {cursor : Option κ} {x : ι}

theorem Complete.tail {rows rows' : List α} {rest : List (List α)}
    (h : Complete key limit cursor (rows :: rows' :: rest)) :
    (page key limit cursor rows).length = limit ∧
      Complete key limit (cursorAfter key (page key limit cursor rows)) (rows' :: rest) :=
  h

/-- After a full page there is a cursor, below the one before. -/
theorem exists_next (hlimit : 0 < limit) {rows : List α}
    (h : (page key limit cursor rows).length = limit) :
    ∃ c, cursorAfter key (page key limit cursor rows) = some c ∧ ∀ d, cursor = some d → c < d := by
  obtain ⟨c, hc⟩ := @cursorAfter_isSome _ _ key _ (List.ne_nil_of_length_pos (h ▸ hlimit))
  obtain ⟨a, ha, rfl⟩ := exists_of_cursorAfter hc
  exact ⟨_, hc, (mem_of_mem_page ha).2⟩

/-- What is on a walk has been below its first cursor. -/
theorem below_of_mem_walk (hlimit : 0 < limit) {snaps : List (List α)}
    (h : Complete key limit cursor snaps) {a : α} (ha : a ∈ walk key limit cursor snaps) :
    ∃ rows ∈ snaps, a ∈ rows ∧ below key cursor a := by
  induction snaps generalizing cursor with
  | nil => cases ha
  | cons rows rest ih =>
      rcases List.mem_append.mp ha with ha | ha
      · exact ⟨rows, List.mem_cons_self, mem_of_mem_page ha⟩
      · cases rest with
        | nil => cases ha
        | cons rows' rest =>
            obtain ⟨c, hc, hlt⟩ := exists_next hlimit h.tail.1
            obtain ⟨rows₁, hr, ha', hb⟩ := ih h.tail.2 ha
            rw [hc, below_some] at hb
            exact ⟨rows₁, List.mem_cons_of_mem _ hr, ha', fun d hd => hb.trans (hlt d hd)⟩

theorem walk_nodup (hlimit : 0 < limit) {snaps : List (List α)}
    (hd : ∀ rows ∈ snaps, Distinct ident rows) (hl : snaps.Pairwise (Later key ident))
    (h : Complete key limit cursor snaps) : ((walk key limit cursor snaps).map ident).Nodup := by
  induction snaps generalizing cursor with
  | nil => exact List.nodup_nil
  | cons rows rest ih =>
      have hpage := @page_nodup _ _ _ _ key _ limit cursor _
        (hd rows List.mem_cons_self)
      cases rest with
      | nil => simpa only [walk, List.append_nil] using hpage
      | cons rows' rest =>
          obtain ⟨hfull, hrest⟩ := h.tail
          obtain ⟨c, hc, -⟩ := exists_next hlimit hfull
          rw [walk, List.map_append]
          refine hpage.append (ih (fun r hr => hd r (List.mem_cons_of_mem _ hr))
            (List.pairwise_cons.mp hl).2 hrest) fun y hy hy' => ?_
          -- a row of this page is past the cursor, and its key only grows
          obtain ⟨a, ha, rfl⟩ := List.mem_map.mp hy
          obtain ⟨b, hb, hab⟩ := List.mem_map.mp hy'
          obtain ⟨rows₁, hr, hb', hlt⟩ := below_of_mem_walk hlimit hrest hb
          rw [hc, below_some] at hlt
          have hle := cursorAfter_le page_pairwise ha hc
          have hgrow := (List.pairwise_cons.mp hl).1 rows₁ hr a (mem_of_mem_page ha).1 b hb' hab.symm
          exact absurd hlt (not_lt_of_ge (hle.trans hgrow))

/-- A row that is past the cursor at all pages is not overtaken. -/
theorem not_overtaken_of_passed (hlimit : 0 < limit) {snaps : List (List α)}
    (h : Complete key limit cursor snaps)
    (hx : ∀ rows ∈ snaps, ∀ a ∈ rows, ident a = x → ¬ below key cursor a) :
    ¬ Overtaken key ident limit x cursor snaps := by
  induction snaps generalizing cursor with
  | nil => exact id
  | cons rows rest ih =>
      cases rest with
      | nil => exact id
      | cons rows' rest =>
          obtain ⟨hfull, hrest⟩ := h.tail
          obtain ⟨c, hc, hlt⟩ := exists_next hlimit hfull
          have hmono : ∀ a : α, below key (cursorAfter key (page key limit cursor rows)) a →
              below key cursor a := by
            intro a ha d hd
            rw [hc, below_some] at ha
            exact ha.trans (hlt d hd)
          rintro (⟨⟨a, ha, hax, hab⟩, -⟩ | ho)
          · exact hx rows List.mem_cons_self a ha hax (hmono a hab)
          · exact ih hrest (fun r hr a ha hax hb =>
              hx r (List.mem_cons_of_mem _ hr) a ha hax (hmono a hb)) ho

/-- A row that does not change is not overtaken. -/
theorem not_overtaken_of_mem {snaps : List (List α)} (hd : ∀ rows ∈ snaps, Distinct ident rows)
    {a : α} (h : ∀ rows ∈ snaps, a ∈ rows) :
    ¬ Overtaken key ident limit (ident a) cursor snaps := by
  induction snaps generalizing cursor with
  | nil => exact id
  | cons rows rest ih =>
      cases rest with
      | nil => exact id
      | cons rows' rest =>
          have hsame : ∀ r ∈ rows :: rows' :: rest, ∀ b ∈ r, ident b = ident a → b = a :=
            fun r hr b hb he => List.inj_on_of_nodup_map (hd r hr) hb (h r hr) he
          rintro (⟨⟨b, hb, hba, hbelow⟩, b', hb', hba', hnot⟩ | ho)
          · rw [hsame rows List.mem_cons_self b hb hba] at hbelow
            rw [hsame rows' (List.mem_cons_of_mem _ List.mem_cons_self) b' hb' hba'] at hnot
            exact hnot hbelow
          · exact ih (fun r hr => hd r (List.mem_cons_of_mem _ hr))
              (fun r hr => h r (List.mem_cons_of_mem _ hr)) ho

/-- A row that is there at each page is on the walk exactly when it is not overtaken. -/
theorem mem_walk_iff (hlimit : 0 < limit) {snaps : List (List α)}
    (hd : ∀ rows ∈ snaps, Distinct ident rows) (hl : snaps.Pairwise (Later key ident))
    (hkey : ∀ rows ∈ snaps, Set.InjOn key {a | a ∈ rows})
    (h : Complete key limit cursor snaps) (hx : ∀ rows ∈ snaps, ∃ a ∈ rows, ident a = x)
    (hbelow : ∀ rows ∈ snaps.head?, ∀ a ∈ rows, ident a = x → below key cursor a) :
    x ∈ (walk key limit cursor snaps).map ident ↔ ¬ Overtaken key ident limit x cursor snaps := by
  induction snaps generalizing cursor with
  | nil => exact h.elim
  | cons rows rest ih =>
      obtain ⟨a, ha, hax⟩ := hx rows List.mem_cons_self
      have hb : below key cursor a := hbelow rows rfl a ha hax
      have huniq : ∀ b ∈ rows, ident b = x → b = a := fun b hb hbx =>
        List.inj_on_of_nodup_map (hd rows List.mem_cons_self) hb ha (hbx.trans hax.symm)
      have hpage : x ∈ (page key limit cursor rows).map ident ↔
          a ∈ page key limit cursor rows := by
        constructor
        · intro hm
          obtain ⟨b, hbp, hbx⟩ := List.mem_map.mp hm
          exact huniq b (mem_of_mem_page hbp).1 hbx ▸ hbp
        · exact fun hm => List.mem_map.mpr ⟨a, hm, hax⟩
      rw [walk, List.map_append, List.mem_append, hpage]
      by_cases hp : a ∈ page key limit cursor rows
      · -- on this page, and so past the cursor from then on
        refine iff_of_true (.inl hp) ?_
        cases rest with
        | nil => exact id
        | cons rows' rest =>
            obtain ⟨hfull, hrest⟩ := h.tail
            obtain ⟨c, hc, -⟩ := exists_next hlimit hfull
            have hle := cursorAfter_le page_pairwise hp hc
            rintro (⟨⟨b, hbr, hbx, hbb⟩, -⟩ | ho)
            · rw [huniq b hbr hbx, hc, below_some] at hbb
              exact absurd hbb (not_lt_of_ge hle)
            · refine not_overtaken_of_passed hlimit hrest (fun r hr b hbr hbx hbb => ?_) ho
              rw [hc, below_some] at hbb
              have hgrow := (List.pairwise_cons.mp hl).1 r hr a ha b hbr (hax.trans hbx.symm)
              exact absurd hbb (not_lt_of_ge (hle.trans hgrow))
      · -- not on this page, which is full, and so below the cursor after it
        obtain ⟨hfull, hafter⟩ := of_not_mem_page ha hb hp
        cases rest with
        | nil => exact absurd hfull h
        | cons rows' rest =>
            obtain ⟨-, hrest⟩ := h.tail
            obtain ⟨c, hc, -⟩ := exists_next hlimit hfull
            obtain ⟨l, hlp, rfl⟩ := exists_of_cursorAfter hc
            have hac : key a < key l := lt_of_le_of_ne (hafter l hlp) fun he =>
              hp (hkey rows List.mem_cons_self ha (mem_of_mem_page hlp).1 he ▸ hlp)
            have hstep : (∃ a ∈ rows, ident a = x ∧
                below key (cursorAfter key (page key limit cursor rows)) a) :=
              ⟨a, ha, hax, by rw [hc, below_some]; exact hac⟩
            by_cases hjump : ∃ b ∈ rows', ident b = x ∧
                ¬ below key (cursorAfter key (page key limit cursor rows)) b
            · -- overtaken here, and past the cursor from then on
              refine iff_of_false ?_ (not_not.mpr (.inl ⟨hstep, hjump⟩))
              rintro (hm | hm)
              · exact hp hm
              · obtain ⟨b, hbr, hbx, hnb⟩ := hjump
                obtain ⟨d, hdw, hdx⟩ := List.mem_map.mp hm
                obtain ⟨r, hr, hdr, hdb⟩ := below_of_mem_walk hlimit hrest hdw
                rw [hc, below_some] at hnb hdb
                have hbd : key b ≤ key d := by
                  rcases List.mem_cons.mp hr with rfl | hr
                  · exact le_of_eq <| congrArg key <| List.inj_on_of_nodup_map
                      (hd _ (List.mem_cons_of_mem _ List.mem_cons_self)) hbr hdr
                      (hbx.trans hdx.symm)
                  · exact (List.pairwise_cons.mp (List.pairwise_cons.mp hl).2).1 r hr b hbr d hdr
                      (hbx.trans hdx.symm)
                exact hnb (hbd.trans_lt hdb)
            · have hrec := ih (fun r hr => hd r (List.mem_cons_of_mem _ hr))
                (List.pairwise_cons.mp hl).2 (fun r hr => hkey r (List.mem_cons_of_mem _ hr)) hrest
                (fun r hr => hx r (List.mem_cons_of_mem _ hr)) fun r hr b hbr hbx => by
                  cases hr
                  exact not_not.mp fun hnb => hjump ⟨b, hbr, hbx, hnb⟩
              rw [or_iff_right hp, hrec]
              exact not_congr (or_iff_right fun hj => hjump hj.2).symm

end Growing

end Relational
