import Mathlib.Algebra.Group.Nat.Defs
import Mathlib.Data.List.Basic

/-!
# Texts — hexadecimal digits

A number as a given count of hexadecimal digits, and the five groups of 8, 4, 4, 4 and 12 digits with hyphens between them.

**A text for each number** (`hyphenated_injective`).  Two numbers have different texts.
-/

namespace Hex

/-- The digit of a number below sixteen. -/
def digit (n : Nat) : Char := Char.ofNat (if n < 10 then 48 + n else 87 + n)

/-- What a digit stands for. -/
def value (c : Char) : Nat := if c.toNat < 58 then c.toNat - 48 else c.toNat - 87

/-- The character is a digit. -/
def isDigit (c : Char) : Bool := ('0' ≤ c && c ≤ '9') || ('a' ≤ c && c ≤ 'f')

/-- The last `width` digits of a number. -/
def digits : (width n : Nat) → List Char
  | 0, _ => []
  | width + 1, n => digits width (n / 16) ++ [digit (n % 16)]

/-- The groups of a 128-bit number.  A greater number has a zero more in front for each time that
it exceeds that. -/
def hyphenated (n : Nat) : List Char :=
  List.replicate (n / 2 ^ 128) '0' ++ (digits 8 (n / 2 ^ 96) ++ '-' :: (digits 4 (n / 2 ^ 80) ++
    '-' :: (digits 4 (n / 2 ^ 64) ++ '-' :: (digits 4 (n / 2 ^ 48) ++ '-' :: digits 12 n))))

variable {n m width : Nat} {c : Char}

theorem value_digit (h : n < 16) : value (digit n) = n := by
  have hall : ∀ k : Fin 16, value (digit k) = k := by decide
  exact hall ⟨n, h⟩

theorem isDigit_digit (h : n < 16) : isDigit (digit n) = true := by
  have hall : ∀ k : Fin 16, isDigit (digit k) = true := by decide
  exact hall ⟨n, h⟩

theorem digits_length : (digits width n).length = width := by
  induction width generalizing n with
  | zero => rfl
  | succ width ih => rw [digits, List.length_append, ih]; rfl

theorem isDigit_of_mem_digits (h : c ∈ digits width n) : isDigit c = true := by
  induction width generalizing n with
  | zero => exact absurd h List.not_mem_nil
  | succ width ih =>
      rcases List.mem_append.mp h with h | h
      · exact ih h
      · rw [List.mem_singleton.mp h]
        exact isDigit_digit (Nat.mod_lt n (by decide))

/-- Digits tell what is left of the number below their range. -/
theorem mod_eq_of_digits_eq (h : digits width n = digits width m) :
    n % 16 ^ width = m % 16 ^ width := by
  induction width generalizing n m with
  | zero => rw [Nat.pow_zero, Nat.mod_one, Nat.mod_one]
  | succ width ih =>
      obtain ⟨hinit, hlast⟩ := List.append_inj h (by rw [digits_length, digits_length])
      have hdigit : n % 16 = m % 16 := by
        have hvalue := congrArg value (List.cons.inj hlast).1
        rwa [value_digit (Nat.mod_lt n (by decide)), value_digit (Nat.mod_lt m (by decide))]
          at hvalue
      rw [Nat.pow_succ', Nat.mod_mul, Nat.mod_mul, ih hinit, hdigit]

/-- Digits before a hyphen tell themselves from what follows. -/
theorem digits_cons_inj {rest rest' : List Char}
    (h : digits width n ++ '-' :: rest = digits width m ++ '-' :: rest') :
    n % 16 ^ width = m % 16 ^ width ∧ rest = rest' := by
  obtain ⟨hdigits, hrest⟩ := List.append_inj h (by rw [digits_length, digits_length])
  exact ⟨mod_eq_of_digits_eq hdigits, (List.cons.inj hrest).2⟩

theorem hyphenated_length : (hyphenated n).length = n / 2 ^ 128 + 36 := by
  simp only [hyphenated, List.length_append, List.length_cons, List.length_replicate,
    digits_length]

theorem hyphenated_injective : Function.Injective hyphenated := by
  intro n m h
  -- the length tells what is above the groups, and then each group a range of the number
  have hlength : n / 2 ^ 128 = m / 2 ^ 128 := by
    have := congrArg List.length h
    rw [hyphenated_length, hyphenated_length] at this
    exact Nat.add_right_cancel this
  unfold hyphenated at h
  rw [hlength] at h
  obtain ⟨h₁, h⟩ := digits_cons_inj (List.append_cancel_left h)
  obtain ⟨h₂, h⟩ := digits_cons_inj h
  obtain ⟨h₃, h⟩ := digits_cons_inj h
  obtain ⟨h₄, h⟩ := digits_cons_inj h
  have h₅ := mod_eq_of_digits_eq h
  omega

theorem mem_hyphenated (h : c ∈ hyphenated n) : isDigit c = true ∨ c = '-' := by
  simp only [hyphenated, List.mem_append, List.mem_cons, List.mem_replicate] at h
  rcases h with ⟨-, rfl⟩ | h | rfl | h | rfl | h | rfl | h | rfl | h
  · exact Or.inl rfl
  all_goals first | exact Or.inr rfl | exact Or.inl (isDigit_of_mem_digits h)

theorem hyphenated_ne_nil : hyphenated n ≠ [] := by
  intro h
  have hlength := hyphenated_length (n := n)
  rw [h, List.length_nil] at hlength
  exact absurd hlength.symm (Nat.succ_ne_zero _)

example : String.ofList (hyphenated 0x67e5504410b1426f9247bb680e5fe0c8) =
    "67e55044-10b1-426f-9247-bb680e5fe0c8" := by decide

end Hex
