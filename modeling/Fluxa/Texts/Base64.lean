import Mathlib.Data.List.Basic

/-!
# Texts — base64

Bytes as text in the URL-safe alphabet and without padding.

**Bytes can be read back** (`decode_encode`), and a text has the characters of the alphabet only (`mem_encode`).
-/

namespace Base64

/-- The character for six bits. -/
def digit (n : Nat) : Char :=
  Char.ofNat (if n < 26 then 65 + n else if n < 52 then 71 + n else if n < 62 then n - 4
    else if n = 62 then 45 else 95)

/-- The six bits of a character. -/
def value (c : Char) : Nat :=
  let n := c.toNat
  if 97 ≤ n then n - 71 else if n = 95 then 63 else if 65 ≤ n then n - 65
    else if 48 ≤ n then n + 4 else 62

/-- A character of the alphabet. -/
def isDigit (c : Char) : Bool := c.isAlphanum || c = '-' || c = '_'

/-- The text of some bytes. -/
def encode : List UInt8 → List Char
  | [] => []
  | [a] => [digit (a.toNat / 4), digit (a.toNat % 4 * 16)]
  | [a, b] =>
    [digit (a.toNat / 4), digit (a.toNat % 4 * 16 + b.toNat / 16), digit (b.toNat % 16 * 4)]
  | a :: b :: c :: rest =>
    digit (a.toNat / 4) :: digit (a.toNat % 4 * 16 + b.toNat / 16) ::
      digit (b.toNat % 16 * 4 + c.toNat / 64) :: digit (c.toNat % 64) :: encode rest

/-- The bytes of a text. -/
def decode : List Char → List UInt8
  | [p, q] => [.ofNat (value p * 4 + value q / 16)]
  | [p, q, r] =>
    [.ofNat (value p * 4 + value q / 16), .ofNat (value q % 16 * 16 + value r / 4)]
  | p :: q :: r :: s :: rest =>
    .ofNat (value p * 4 + value q / 16) :: .ofNat (value q % 16 * 16 + value r / 4) ::
      .ofNat (value r % 4 * 64 + value s) :: decode rest
  | _ => []

variable {bytes other : List UInt8} {n : Nat} {c : Char}

theorem value_digit (h : n < 64) : value (digit n) = n := by
  have hall : ∀ k : Fin 64, value (digit k) = k := by decide
  exact hall ⟨n, h⟩

theorem isDigit_digit (h : n < 64) : isDigit (digit n) = true := by
  have hall : ∀ k : Fin 64, isDigit (digit k) = true := by decide
  exact hall ⟨n, h⟩

/-- A byte is put together again from the bits that were taken apart. -/
theorem ofNat_eq {a : UInt8} (h : n = a.toNat) : UInt8.ofNat n = a := h ▸ UInt8.ofNat_toNat

/-- **Bytes can be read back.** -/
theorem decode_encode : decode (encode bytes) = bytes := by
  induction bytes using encode.induct with
  | case1 => rfl
  | case2 a =>
      have ha := a.toNat_lt
      rw [encode, decode, value_digit (by omega), value_digit (by omega), ofNat_eq (a := a) (by omega)]
  | case3 a b =>
      have ha := a.toNat_lt
      have hb := b.toNat_lt
      rw [encode, decode, value_digit (by omega), value_digit (by omega), value_digit (by omega),
        ofNat_eq (a := a) (by omega), ofNat_eq (a := b) (by omega)]
  | case4 a b c rest ih =>
      have ha := a.toNat_lt
      have hb := b.toNat_lt
      have hc := c.toNat_lt
      rw [encode, decode, value_digit (by omega), value_digit (by omega), value_digit (by omega),
        value_digit (by omega), ofNat_eq (a := a) (by omega), ofNat_eq (a := b) (by omega),
        ofNat_eq (a := c) (by omega), ih]

theorem encode_injective : Function.Injective encode :=
  Function.LeftInverse.injective fun _ => decode_encode

/-- A text has the characters of the alphabet. -/
theorem mem_encode (h : c ∈ encode bytes) : isDigit c = true := by
  induction bytes using encode.induct with
  | case1 => exact absurd h List.not_mem_nil
  | case2 a =>
      have ha := a.toNat_lt
      simp only [encode, List.mem_cons, List.not_mem_nil, or_false] at h
      rcases h with rfl | rfl <;> exact isDigit_digit (by omega)
  | case3 a b =>
      have ha := a.toNat_lt
      have hb := b.toNat_lt
      simp only [encode, List.mem_cons, List.not_mem_nil, or_false] at h
      rcases h with rfl | rfl | rfl <;> exact isDigit_digit (by omega)
  | case4 a b d rest ih =>
      have ha := a.toNat_lt
      have hb := b.toNat_lt
      have hd := d.toNat_lt
      simp only [encode, List.mem_cons] at h
      rcases h with rfl | rfl | rfl | rfl | h
      · exact isDigit_digit (by omega)
      · exact isDigit_digit (by omega)
      · exact isDigit_digit (by omega)
      · exact isDigit_digit (by omega)
      · exact ih h

example : encode [251, 255, 254, 7] = "-__-Bw".toList := by decide

end Base64
