import Mathlib.Data.List.Infix

/-!
# Texts — LIKE patterns

Patterns of `LIKE`: a percent sign stands for any text, an underscore for any one character, and a backslash makes the next character stand for itself.

**Substrings** (`like_substring_iff`).  The pattern of percent, `q`, percent is matched by the texts that `q` is a part of, and by no others, exactly if there is none of the three characters in `q`.  Otherwise there is a text that matches and that `q` is no part of: what is left of `q` when it is read as a pattern (`residue`).

Where case does not matter, pattern and text are folded character by character.
-/

namespace Like

/-- The characters that stand for something else in a pattern. -/
def IsMeta (c : Char) : Prop := c = '%' ∨ c = '_' ∨ c = '\\'

instance : DecidablePred IsMeta := fun _ => inferInstanceAs (Decidable (_ ∨ _))

/-- The text matches the pattern. -/
def like : (pattern text : List Char) → Bool
  | [], text => text.isEmpty
  | '%' :: rest, text => text.tails.any fun tail => like rest tail
  | '_' :: rest, text => text.head?.isSome && like rest text.tail
  | ['\\'], _ => false
  | '\\' :: d :: rest, text => text.head? = some d && like rest text.tail
  | c :: rest, text => text.head? = some c && like rest text.tail

/-- A folding of the case, which leaves the characters of patterns alone. -/
def Folds (fold : Char → Char) : Prop := ∀ c m, IsMeta m → (fold c = m ↔ c = m)

theorem like_percent {rest text : List Char} :
    like ('%' :: rest) text = true ↔ ∃ tail, tail <:+ text ∧ like rest tail = true := by
  rw [like, List.any_eq_true]
  simp only [List.mem_tails]

theorem like_underscore {rest tail : List Char} {x : Char} :
    like ('_' :: rest) (x :: tail) = like rest tail := by
  rw [like]
  simp

theorem like_escaped {rest tail : List Char} {d : Char} :
    like ('\\' :: d :: rest) (d :: tail) = like rest tail := by
  rw [like]
  simp

theorem like_literal {c : Char} {rest text : List Char} (hc : ¬ IsMeta c) :
    like (c :: rest) text = (decide (text.head? = some c) && like rest text.tail) := by
  unfold IsMeta at hc
  have hpercent : c ≠ '%' := fun h => hc (.inl h)
  have hunderscore : c ≠ '_' := fun h => hc (.inr (.inl h))
  have hbackslash : c ≠ '\\' := fun h => hc (.inr (.inr h))
  rw [like]
  · exact hpercent
  · exact hunderscore
  · exact fun h => absurd h hbackslash
  · exact fun _ _ h => absurd h hbackslash

/-- A percent sign at the end matches whatever is left. -/
theorem like_last {text : List Char} : like ['%'] text = true :=
  like_percent.mpr ⟨[], List.nil_suffix, rfl⟩

/-- A plain text and a percent sign match what begins with the text. -/
theorem like_plain_iff {q text : List Char} (hq : ∀ c ∈ q, ¬ IsMeta c) :
    like (q ++ ['%']) text = true ↔ q <+: text := by
  induction q generalizing text with
  | nil => exact iff_of_true like_last List.nil_prefix
  | cons c q ih =>
      have hrest := fun {text} => @ih text fun d hd => hq d (List.mem_cons_of_mem _ hd)
      rw [List.cons_append, like_literal (hq c List.mem_cons_self)]
      cases text with
      | nil => simp
      | cons x tail =>
          simp only [List.head?_cons, Option.some.injEq, List.tail_cons, Bool.and_eq_true,
            decide_eq_true_eq, hrest, List.cons_prefix_cons, eq_comm (a := x)]

theorem like_substring_of_plain {q text : List Char} (hq : ∀ c ∈ q, ¬ IsMeta c) :
    like ('%' :: q ++ ['%']) text = true ↔ q <:+: text := by
  rw [List.cons_append, like_percent, List.infix_iff_prefix_suffix]
  simp only [like_plain_iff hq, and_comm]

/-! ### Substrings -/

/-- The text that is left of a pattern: nothing for a percent sign, some character for an
underscore, the escaped character for a backslash, and at the end the percent sign that follows. -/
def residue : List Char → List Char
  | [] => []
  | '%' :: q => residue q
  | '_' :: q => 'a' :: residue q
  | ['\\'] => ['%']
  | '\\' :: d :: q => d :: residue q
  | c :: q => c :: residue q

theorem residue_length_le (q : List Char) : (residue q).length ≤ q.length := by
  fun_induction residue q with
  | case1 => exact le_rfl
  | case2 q ih => exact ih.trans (Nat.le_succ _)
  | case3 q ih => exact Nat.succ_le_succ ih
  | case4 => exact le_rfl
  | case5 d q ih => exact (Nat.succ_le_succ ih).trans (Nat.le_succ _)
  | case6 c q _ _ _ _ ih => exact Nat.succ_le_succ ih

variable {fold : Char → Char}

theorem Folds.eq (h : Folds fold) {m : Char} (hm : IsMeta m) : fold m = m := (h m m hm).mpr rfl

theorem Folds.isMeta (h : Folds fold) {c : Char} : IsMeta (fold c) ↔ IsMeta c := by
  constructor
  · intro hc
    exact (h c _ hc).mp rfl ▸ hc
  · intro hc
    rwa [h.eq hc]

theorem not_isMeta_of {c : Char} {q : List Char} (hpercent : c = '%' → False)
    (hunderscore : c = '_' → False) (hend : c = '\\' → q = [] → False)
    (hescape : ∀ d rest, c = '\\' → q = d :: rest → False) : ¬ IsMeta c := by
  rintro (hc | hc | hc)
  · exact hpercent hc
  · exact hunderscore hc
  · cases q with
    | nil => exact hend hc rfl
    | cons d rest => exact hescape d rest hc rfl

/-- The residue matches the pattern, with whatever folding. -/
theorem like_residue (h : Folds fold) (q : List Char) :
    like (q.map fold ++ ['%']) ((residue q).map fold) = true := by
  fun_induction residue q with
  | case1 => exact like_last
  | case2 q ih =>
      rw [List.map_cons, h.eq (.inl rfl), List.cons_append, like_percent]
      exact ⟨_, List.suffix_rfl, ih⟩
  | case3 q ih =>
      rwa [List.map_cons, h.eq (.inr (.inl rfl)), List.cons_append, List.map_cons, like_underscore]
  | case4 =>
      rw [List.map_singleton, List.map_singleton, h.eq (.inr (.inr rfl)), h.eq (.inl rfl)]
      exact like_escaped.trans rfl
  | case5 d q ih =>
      rwa [List.map_cons, List.map_cons, h.eq (.inr (.inr rfl)), List.cons_append, List.cons_append,
        List.map_cons, like_escaped]
  | case6 c q hpercent hunderscore hend hescape ih =>
      have hc := not_isMeta_of hpercent hunderscore hend hescape
      rw [List.map_cons, List.cons_append, like_literal (mt h.isMeta.mp hc), List.map_cons]
      simpa using ih

/-- A pattern that is its own residue has no character that stands for something else. -/
theorem plain_of_residue (h : Folds fold) {q : List Char}
    (hq : (residue q).map fold = q.map fold) : ∀ c ∈ q, ¬ IsMeta c := by
  fun_induction residue q with
  | case1 => exact fun c hc => absurd hc List.not_mem_nil
  | case2 q ih =>
      have hshort := congrArg List.length hq
      rw [List.length_map, List.length_map, List.length_cons] at hshort
      have := residue_length_le q
      omega
  | case3 q ih =>
      have hhead : fold 'a' = fold '_' := (List.cons.inj hq).1
      rw [h.eq (.inr (.inl rfl))] at hhead
      exact absurd ((h 'a' '_' (.inr (.inl rfl))).mp hhead) (by decide)
  | case4 =>
      have hhead : fold '%' = fold '\\' := (List.cons.inj hq).1
      rw [h.eq (.inl rfl), h.eq (.inr (.inr rfl))] at hhead
      exact absurd hhead (by decide)
  | case5 d q ih =>
      have hshort := congrArg List.length hq
      rw [List.length_map, List.length_map, List.length_cons, List.length_cons,
        List.length_cons] at hshort
      have := residue_length_le q
      omega
  | case6 c q hpercent hunderscore hend hescape ih =>
      have hrest := ih (List.cons.inj hq).2
      intro d hd
      rcases List.mem_cons.mp hd with rfl | hd
      · exact not_isMeta_of hpercent hunderscore hend hescape
      · exact hrest d hd

theorem like_substring_residue (h : Folds fold) (q : List Char) :
    like ('%' :: q.map fold ++ ['%']) ((residue q).map fold) = true := by
  rw [List.cons_append, like_percent]
  exact ⟨_, List.suffix_rfl, like_residue h q⟩

/-- The residue has no room for the pattern beside itself. -/
theorem plain_of_infix_residue (h : Folds fold) {q : List Char}
    (hpart : q.map fold <:+: (residue q).map fold) : ∀ c ∈ q, ¬ IsMeta c := by
  refine plain_of_residue h (hpart.eq_of_length_le ?_).symm
  rw [List.length_map, List.length_map]
  exact residue_length_le q

/-- **Substrings**: the pattern stands for them exactly if it is plain. -/
theorem like_substring_iff (h : Folds fold) (q : List Char) :
    (∀ text : List Char, like ('%' :: q.map fold ++ ['%']) (text.map fold) = true ↔
      q.map fold <:+: text.map fold) ↔ ∀ c ∈ q, ¬ IsMeta c := by
  constructor
  · intro hall
    exact plain_of_infix_residue h ((hall (residue q)).mp (like_substring_residue h q))
  · intro hq text
    refine like_substring_of_plain fun c hc => ?_
    obtain ⟨d, hd, rfl⟩ := List.mem_map.mp hc
    exact mt h.isMeta.mp (hq d hd)

end Like
