import Mathlib.Data.List.Basic

/-!
# Texts — header values

The values of HTTP headers, which are bytes of a certain range, and quoted strings within them, in which a backslash makes the next character stand for itself.

**Printable text is a header value** (`ofString?_printable`), with its own characters for bytes.

**Text without special characters needs no escape** (`unquote_plain`): between quotes it is read as itself.
-/

namespace Headers

/-- A byte of a header value: none of the control characters, apart from the tab. -/
def isValueByte (b : UInt8) : Bool := (32 ≤ b && b ≠ 127) || b = 9

/-- The value of a header. -/
structure HeaderValue where
  bytes : List UInt8
  valid : bytes.all isValueByte = true
deriving DecidableEq, Repr

/-- The bytes of a text in UTF-8. -/
def utf8 (text : List Char) : List UInt8 := text.flatMap String.utf8EncodeChar

/-- The header value of a text, if all its bytes may be there. -/
def ofString? (text : List Char) : Option HeaderValue :=
  if h : (utf8 text).all isValueByte = true then some ⟨utf8 text, h⟩ else none

/-- A character that a line of text can show: graphic ASCII or a space. -/
def isPrintable (c : Char) : Bool := 32 ≤ c.toNat && c.toNat ≤ 126

/-- A character that stands for itself between quotes: it is no quote, no backslash and no control
character. -/
def isPlain (c : Char) : Bool := c ≠ '"' && c ≠ '\\' && 32 ≤ c.toNat && c.toNat ≠ 127

/-- What follows an opening quote, read up to the closing one: the text that is quoted, and what
comes after it. -/
def unquote : List Char → Option (List Char × List Char)
  | [] => none
  | '"' :: after => some ([], after)
  | '\\' :: c :: rest => (unquote rest).map fun r => (c :: r.1, r.2)
  | c :: rest => if isPlain c then (unquote rest).map fun r => (c :: r.1, r.2) else none

variable {c : Char} {text rest : List Char}

theorem utf8_ascii (h : c.toNat < 128) : String.utf8EncodeChar c = [c.toNat.toUInt8] := by
  have hval : c.val.toNat ≤ 127 := Nat.le_of_lt_succ h
  unfold String.utf8EncodeChar
  rw [if_pos hval]
  rfl

theorem isValueByte_of_printable (h : isPrintable c = true) :
    isValueByte c.toNat.toUInt8 = true := by
  simp only [isPrintable, Bool.and_eq_true, decide_eq_true_eq] at h
  have hall : ∀ n : Fin 127, 32 ≤ n.val → isValueByte n.val.toUInt8 = true := by decide
  exact hall ⟨c.toNat, Nat.lt_succ_of_le h.2⟩ h.1

/-- **Printable text is a header value.** -/
theorem ofString?_printable (h : ∀ c ∈ text, isPrintable c = true) :
    ∃ value, ofString? text = some value ∧ value.bytes = text.map fun c => c.toNat.toUInt8 := by
  have hascii : utf8 text = text.map fun c => c.toNat.toUInt8 := by
    induction text with
    | nil => rfl
    | cons c text ih =>
        have hc := h c List.mem_cons_self
        have hlt : c.toNat < 128 := by
          simp only [isPrintable, Bool.and_eq_true, decide_eq_true_eq] at hc
          exact Nat.lt_of_le_of_lt hc.2 (by decide)
        have htail := ih fun d hd => h d (List.mem_cons_of_mem _ hd)
        change String.utf8EncodeChar c ++ utf8 text = _
        rw [utf8_ascii hlt, htail]
        rfl
  have hvalid : (utf8 text).all isValueByte = true := by
    rw [hascii, List.all_map, List.all_eq_true]
    exact fun c hc => isValueByte_of_printable (h c hc)
  exact ⟨⟨utf8 text, hvalid⟩, dif_pos hvalid, hascii⟩

theorem unquote_plain_cons (h : isPlain c = true) :
    unquote (c :: rest) = (unquote rest).map fun r => (c :: r.1, r.2) := by
  have hne : c ≠ '"' ∧ c ≠ '\\' := by
    simp only [isPlain, Bool.and_eq_true, decide_eq_true_eq, ne_eq] at h
    exact ⟨h.1.1.1, h.1.1.2⟩
  rw [unquote, if_pos h]
  · exact hne.1
  · exact fun _ _ he => absurd he hne.2

/-- **Text without special characters is read as itself**, up to the quote that ends it. -/
theorem unquote_plain (h : ∀ c ∈ text, isPlain c = true) :
    unquote (text ++ '"' :: rest) = some (text, rest) := by
  induction text with
  | nil => rw [List.nil_append, unquote]
  | cons c text ih =>
      rw [List.cons_append, unquote_plain_cons (h c List.mem_cons_self),
        ih fun d hd => h d (List.mem_cons_of_mem _ hd)]
      rfl

/-- Between quotes, an escaped quote is none. -/
example : unquote "a\\\"b\" c".toList = some ("a\"b".toList, " c".toList) := by decide

end Headers
