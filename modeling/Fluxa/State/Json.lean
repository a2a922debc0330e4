import Fluxa.State.Rows
import Fluxa.Texts.Hex

/-!
# State — JSON texts

How `serde_json` writes a value: without blanks, and with the short escapes of strings.

**A text is that of one value only** (`text_injective`), and where it ends can be told from what follows it (`text_inj`).
-/

namespace Fluxa.Json

/-- A character of a string. -/
def escape (c : Char) : List Char :=
  if c = '"' then ['\\', '"']
  else if c = '\\' then ['\\', '\\']
  else if c = '\n' then ['\\', 'n']
  else if c = '\r' then ['\\', 'r']
  else if c = '\t' then ['\\', 't']
  else if c.toNat = 8 then ['\\', 'b']
  else if c.toNat = 12 then ['\\', 'f']
  else if c.toNat < 32 then
    ['\\', 'u', '0', '0', Hex.digit (c.toNat / 16), Hex.digit (c.toNat % 16)]
  else [c]

/-- A string. -/
def quote (s : List Char) : List Char := '"' :: (s.flatMap escape ++ ['"'])

mutual
/-- The text of a value. -/
def text : Value → List Char
  | .null => "null".toList
  | .bool true => "true".toList
  | .bool false => "false".toList
  | .num n => (toString n).toList
  | .str s => quote s.toList
  | .arr [] => "[]".toList
  | .arr (v :: values) => '[' :: (text v ++ (moreElements values ++ [']']))
  | .obj [] => "{}".toList
  | .obj ((k, v) :: fields) =>
    '{' :: (quote k.toList ++ ':' :: (text v ++ (moreFields fields ++ ['}'])))

/-- Further elements of an array. -/
def moreElements : List Value → List Char
  | [] => []
  | v :: values => ',' :: (text v ++ moreElements values)

/-- Further fields of an object. -/
def moreFields : List (String × Value) → List Char
  | [] => []
  | (k, v) :: fields => ',' :: (quote k.toList ++ ':' :: (text v ++ moreFields fields))
end

variable {c d : Char} {s s' r r' : List Char} {v w : Value}

/-! ### Strings -/

/-- The first character of a string, read back. -/
def unescape : List Char → Option (Char × List Char)
  | '\\' :: 'n' :: rest => some ('\n', rest)
  | '\\' :: 'r' :: rest => some ('\r', rest)
  | '\\' :: 't' :: rest => some ('\t', rest)
  | '\\' :: 'b' :: rest => some (Char.ofNat 8, rest)
  | '\\' :: 'f' :: rest => some (Char.ofNat 12, rest)
  | '\\' :: 'u' :: _ :: _ :: h :: l :: rest => some (Char.ofNat (Hex.value h * 16 + Hex.value l), rest)
  | '\\' :: c :: rest => some (c, rest)
  | c :: rest => some (c, rest)
  | [] => none

theorem eq_of_toNat {n : Nat} (h : c.toNat = n) : Char.ofNat n = c := by
  rw [← h, Char.ofNat_toNat]

theorem unescape_escape : unescape (escape c ++ r) = some (c, r) := by
  unfold escape
  split
  · next h => subst h; rfl
  split
  · next h => subst h; rfl
  split
  · next h => subst h; rfl
  split
  · next h => subst h; rfl
  split
  · next h => subst h; rfl
  split
  · next h => exact congrArg (fun x => some (x, r)) (eq_of_toNat h)
  split
  · next h => exact congrArg (fun x => some (x, r)) (eq_of_toNat h)
  split
  · next h =>
    have hhigh : Hex.value (Hex.digit (c.toNat / 16)) = c.toNat / 16 := Hex.value_digit (by omega)
    have hlow : Hex.value (Hex.digit (c.toNat % 16)) = c.toNat % 16 := Hex.value_digit (by omega)
    simp only [List.cons_append, List.nil_append, unescape, hhigh, hlow]
    rw [Nat.div_add_mod', Char.ofNat_toNat]
  · next hquote hbackslash _ _ _ _ _ _ =>
    rw [List.singleton_append]
    unfold unescape
    split
    all_goals first
      | (next he => exact absurd (List.cons.inj he).1 hbackslash)
      | (next he => obtain ⟨rfl, rfl⟩ := List.cons.inj he; rfl)
      | (next he => exact nomatch he)

/-- No escape begins with a quote. -/
theorem escape_ne_quote : escape c ++ r ≠ '"' :: r' := by
  intro h
  unfold escape at h
  split at h
  · exact absurd (List.cons.inj h).1 (by decide)
  repeat (split at h; · exact absurd (List.cons.inj h).1 (by decide))
  exact absurd (List.cons.inj h).1 ‹¬ c = '"'›

/-- A string can be told from what follows it. -/
theorem escapes_inj (h : s.flatMap escape ++ '"' :: r = s'.flatMap escape ++ '"' :: r') :
    s = s' ∧ r = r' := by
  induction s generalizing s' with
  | nil =>
      cases s' with
      | nil => exact ⟨rfl, (List.cons.inj h).2⟩
      | cons d s' =>
          rw [List.flatMap_cons, List.append_assoc] at h
          exact absurd h.symm escape_ne_quote
  | cons c s ih =>
      cases s' with
      | nil =>
          rw [List.flatMap_cons, List.append_assoc] at h
          exact absurd h escape_ne_quote
      | cons d s' =>
          rw [List.flatMap_cons, List.flatMap_cons, List.append_assoc, List.append_assoc] at h
          have hread := congrArg unescape h
          rw [unescape_escape, unescape_escape] at hread
          obtain ⟨rfl, hrest⟩ := Prod.mk.inj (Option.some.inj hread)
          obtain ⟨rfl, hr⟩ := ih hrest
          exact ⟨rfl, hr⟩

theorem quote_inj (h : quote s ++ r = quote s' ++ r') : s = s' ∧ r = r' := by
  simp only [quote, List.cons_append, List.append_assoc, List.nil_append] at h
  exact escapes_inj (List.cons.inj h).2

/-! ### Numbers -/

/-- A character of a number. -/
def isNumeric (c : Char) : Bool := c.isDigit || c = '-'

theorem numeric_repr (n : Nat) : ∀ c ∈ n.repr.toList, isNumeric c = true := by
  intro c hc
  rw [Nat.toList_repr] at hc
  rw [isNumeric, Nat.isDigit_of_mem_toDigits (by decide) (by decide) hc]
  rfl

theorem repr_inj {n m : Nat} (h : n.repr.toList = m.repr.toList) : n = m := by
  rw [Nat.toList_repr, Nat.toList_repr] at h
  rw [← Nat.ofDigitChars_ten_toDigits (n := n), h, Nat.ofDigitChars_ten_toDigits]

theorem minus_notMem_repr (n : Nat) : '-' ∉ n.repr.toList := by
  intro hc
  rw [Nat.toList_repr] at hc
  exact absurd (Nat.isDigit_of_mem_toDigits (by decide) (by decide) hc) (by decide)

theorem toString_ofNat (n : Nat) : (toString (Int.ofNat n)).toList = n.repr.toList := rfl

theorem toString_negSucc (n : Nat) :
    (toString (Int.negSucc n)).toList = '-' :: (n + 1).repr.toList := by
  have h : toString (Int.negSucc n) = "-" ++ (n + 1).repr := rfl
  rw [h, String.toList_append]
  rfl

theorem numeric_toString (n : Int) : ∀ c ∈ (toString n).toList, isNumeric c = true := by
  cases n with
  | ofNat n => exact numeric_repr n
  | negSucc n =>
      rw [toString_negSucc]
      intro c hc
      rcases List.mem_cons.mp hc with rfl | hc
      · rfl
      · exact numeric_repr _ c hc

theorem toString_ne_nil (n : Int) : (toString n).toList ≠ [] := by
  cases n with
  | ofNat n =>
      rw [toString_ofNat, Nat.toList_repr]
      exact Nat.toDigits_ne_nil
  | negSucc n =>
      rw [toString_negSucc]
      exact List.cons_ne_nil _ _

theorem toString_inj {n m : Int} (h : (toString n).toList = (toString m).toList) : n = m := by
  cases n with
  | ofNat n =>
      cases m with
      | ofNat m => exact congrArg Int.ofNat (repr_inj h)
      | negSucc m =>
          rw [toString_negSucc] at h
          exact absurd (h ▸ List.mem_cons_self : '-' ∈ n.repr.toList) (minus_notMem_repr n)
  | negSucc n =>
      rw [toString_negSucc] at h
      cases m with
      | ofNat m => exact absurd (h ▸ List.mem_cons_self : '-' ∈ m.repr.toList) (minus_notMem_repr m)
      | negSucc m =>
          rw [toString_negSucc] at h
          exact congrArg Int.negSucc (Nat.succ.inj (repr_inj (List.cons.inj h).2))

/-! ### Values -/

/-- What may follow a value. -/
def Ends (r : List Char) : Prop := ∀ c ∈ r.head?, c = ',' ∨ c = ']' ∨ c = '}'

theorem ends_comma : Ends (',' :: r) := fun _ hc => .inl (Option.some.inj hc).symm

theorem ends_bracket : Ends (']' :: r) := fun _ hc => .inr (.inl (Option.some.inj hc).symm)

theorem ends_brace : Ends ('}' :: r) := fun _ hc => .inr (.inr (Option.some.inj hc).symm)

theorem ends_moreElements {values : List Value} : Ends (moreElements values ++ ']' :: r) := by
  cases values with
  | nil => exact ends_bracket
  | cons v values => exact ends_comma

theorem ends_moreFields {fields : List (String × Value)} :
    Ends (moreFields fields ++ '}' :: r) := by
  cases fields with
  | nil => exact ends_brace
  | cons f fields => exact ends_comma

theorem takeWhile_numeric (h : Ends r) : r.takeWhile isNumeric = [] := by
  cases r with
  | nil => rfl
  | cons c r =>
      have hc : isNumeric c = false := by
        rcases h c rfl with rfl | rfl | rfl <;> rfl
      rw [List.takeWhile_cons, hc]
      rfl

theorem number_inj {n m : Int} (hr : Ends r) (hr' : Ends r')
    (h : (toString n).toList ++ r = (toString m).toList ++ r') : n = m ∧ r = r' := by
  have htext := congrArg (List.takeWhile isNumeric) h
  rw [List.takeWhile_append_of_pos (numeric_toString n), takeWhile_numeric hr,
    List.takeWhile_append_of_pos (numeric_toString m), takeWhile_numeric hr', List.append_nil,
    List.append_nil] at htext
  obtain rfl := toString_inj htext
  exact ⟨rfl, List.append_cancel_left h⟩

/-- The kind of value that begins with the character. -/
def kind (c : Char) : Nat :=
  if c = '"' then 1 else if c = '[' then 2 else if c = '{' then 3 else if c = 'n' then 4
  else if c = 't' then 5 else if c = 'f' then 6 else if c = ']' then 7 else if c = '}' then 8 else 0

/-- The kind of a value. -/
def kindOf : Value → Nat
  | .num _ => 0
  | .str _ => 1
  | .arr _ => 2
  | .obj _ => 3
  | .null => 4
  | .bool true => 5
  | .bool false => 6

theorem text_head (v : Value) : ∃ c rest, text v = c :: rest ∧ kind c = kindOf v := by
  unfold text
  split
  case h_4 n =>
    obtain ⟨c, rest, hn⟩ := List.exists_cons_of_ne_nil (toString_ne_nil n)
    refine ⟨c, rest, hn, ?_⟩
    have hc : isNumeric c = true := numeric_toString n c (hn ▸ List.mem_cons_self)
    unfold kind
    repeat (rw [if_neg (by rintro rfl; exact absurd hc (by decide))])
    rfl
  all_goals exact ⟨_, _, rfl, rfl⟩

theorem kindOf_lt (v : Value) : kindOf v < 7 := by
  unfold kindOf
  split <;> decide

/-- No value begins with a closing bracket. -/
theorem text_ne_closing (h : text v ++ r = c :: r') : kind c < 7 := by
  obtain ⟨d, rest, hv, hd⟩ := text_head v
  rw [hv] at h
  rw [← (List.cons.inj h).1, hd]
  exact kindOf_lt v

theorem kindOf_eq (h : text v ++ r = text w ++ r') : kindOf v = kindOf w := by
  obtain ⟨c, rest, hv, hc⟩ := text_head v
  obtain ⟨d, rest', hw, hd⟩ := text_head w
  rw [hv, hw] at h
  rw [← hc, ← hd, (List.cons.inj h).1]

mutual
/-- **Where a value ends can be told from what follows it.** -/
theorem text_inj : (v : Value) → ∀ {w : Value} {r r' : List Char}, Ends r → Ends r' →
    text v ++ r = text w ++ r' → v = w ∧ r = r'
  | .null, w, r, r', _, _, h => by
      cases w with
      | null => exact ⟨rfl, List.append_cancel_left h⟩
      | bool b => cases b <;> exact nomatch kindOf_eq h
      | _ => exact nomatch kindOf_eq h
  | .bool b, w, r, r', _, _, h => by
      cases w with
      | bool b' =>
          have hb : b = b' := by
            have hkind := kindOf_eq h
            cases b <;> cases b' <;> first | rfl | exact nomatch hkind
          subst hb
          exact ⟨rfl, List.append_cancel_left h⟩
      | _ => cases b <;> exact nomatch kindOf_eq h
  | .num n, w, r, r', hr, hr', h => by
      cases w with
      | num m =>
          obtain ⟨rfl, hrest⟩ := number_inj hr hr' h
          exact ⟨rfl, hrest⟩
      | bool b => cases b <;> exact nomatch kindOf_eq h
      | _ => exact nomatch kindOf_eq h
  | .str s, w, r, r', _, _, h => by
      cases w with
      | str s' =>
          obtain ⟨hs, hrest⟩ := quote_inj h
          exact ⟨congrArg Value.str (String.toList_injective hs), hrest⟩
      | bool b => cases b <;> exact nomatch kindOf_eq h
      | _ => exact nomatch kindOf_eq h
  | .arr values, w, r, r', _, _, h => by
      cases w with
      | arr values' =>
          -- An empty array differs in the second character: no value begins with a bracket.
          cases values with
          | nil =>
              cases values' with
              | nil => exact ⟨rfl, List.append_cancel_left h⟩
              | cons w values' =>
                  simp only [text, List.cons_append, List.append_assoc] at h
                  exact absurd (text_ne_closing (List.cons.inj h).2.symm) (by decide)
          | cons v values =>
              cases values' with
              | nil =>
                  simp only [text, List.cons_append, List.append_assoc] at h
                  exact absurd (text_ne_closing (List.cons.inj h).2) (by decide)
              | cons w values' =>
                  simp only [text, List.cons_append, List.append_assoc] at h
                  obtain ⟨rfl, hmore⟩ :=
                    text_inj v ends_moreElements ends_moreElements (List.cons.inj h).2
                  obtain ⟨rfl, hrest⟩ := moreElements_inj values hmore
                  exact ⟨rfl, hrest⟩
      | bool b => cases b <;> exact nomatch kindOf_eq h
      | _ => exact nomatch kindOf_eq h
  | .obj fields, w, r, r', _, _, h => by
      cases w with
      | obj fields' =>
          -- An empty object differs in the second character: every other goes on with a quote.
          cases fields with
          | nil =>
              cases fields' with
              | nil => exact ⟨rfl, List.append_cancel_left h⟩
              | cons f fields' =>
                  simp only [text, List.cons_append] at h
                  exact nomatch (List.cons.inj (List.cons.inj h).2).1
          | cons f fields =>
              cases fields' with
              | nil =>
                  simp only [text, List.cons_append] at h
                  exact nomatch (List.cons.inj (List.cons.inj h).2).1
              | cons f' fields' =>
                  simp only [text, List.cons_append, List.append_assoc] at h
                  obtain ⟨hk, hvalue⟩ := quote_inj (List.cons.inj h).2
                  obtain ⟨hv, hmore⟩ :=
                    text_inj f.2 ends_moreFields ends_moreFields (List.cons.inj hvalue).2
                  obtain ⟨rfl, hrest⟩ := moreFields_inj fields hmore
                  have hf : f = f' := Prod.ext (String.toList_injective hk) hv
                  exact ⟨hf ▸ rfl, hrest⟩
      | bool b => cases b <;> exact nomatch kindOf_eq h
      | _ => exact nomatch kindOf_eq h

theorem moreElements_inj : (values : List Value) → ∀ {values' : List Value} {r r' : List Char},
    moreElements values ++ ']' :: r = moreElements values' ++ ']' :: r' → values = values' ∧ r = r'
  | [], values', r, r', h => by
      cases values' with
      | nil => exact ⟨rfl, (List.cons.inj h).2⟩
      | cons w values' => exact nomatch (List.cons.inj h).1
  | v :: values, values', r, r', h => by
      cases values' with
      | nil => exact nomatch (List.cons.inj h).1
      | cons w values' =>
          simp only [moreElements, List.cons_append, List.append_assoc] at h
          obtain ⟨rfl, hmore⟩ := text_inj v ends_moreElements ends_moreElements (List.cons.inj h).2
          obtain ⟨rfl, hrest⟩ := moreElements_inj values hmore
          exact ⟨rfl, hrest⟩

theorem moreFields_inj : (fields : List (String × Value)) →
    ∀ {fields' : List (String × Value)} {r r' : List Char},
      moreFields fields ++ '}' :: r = moreFields fields' ++ '}' :: r' → fields = fields' ∧ r = r'
  | [], fields', r, r', h => by
      cases fields' with
      | nil => exact ⟨rfl, (List.cons.inj h).2⟩
      | cons f fields' => exact nomatch (List.cons.inj h).1
  | f :: fields, fields', r, r', h => by
      cases fields' with
      | nil => exact nomatch (List.cons.inj h).1
      | cons f' fields' =>
          simp only [moreFields, List.cons_append, List.append_assoc] at h
          obtain ⟨hk, hvalue⟩ := quote_inj (List.cons.inj h).2
          obtain ⟨hv, hmore⟩ := text_inj f.2 ends_moreFields ends_moreFields (List.cons.inj hvalue).2
          obtain ⟨rfl, hrest⟩ := moreFields_inj fields hmore
          have hf : f = f' := Prod.ext (String.toList_injective hk) hv
          exact ⟨hf ▸ rfl, hrest⟩
end

/-- **A text is that of one value only.** -/
theorem text_injective : Function.Injective text := by
  intro v w h
  have hends : Ends [] := fun _ hc => absurd hc (by simp)
  exact (text_inj v hends hends (by rw [h])).1

example : String.ofList (text (.obj [("q", .str "a\"\n"), ("limit", .num 20), ("ids", .arr [])])) =
    "\x7b\"q\":\"a\\\"\\n\",\"limit\":20,\"ids\":[]\x7d" := by decide +kernel

end Fluxa.Json
