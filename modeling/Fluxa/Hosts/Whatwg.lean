import Fluxa.Hosts.Addresses
import Mathlib

/-!
# Hosts — The URL standard

The host parser of the URL standard for `http` and `https`, as the HTTP client applies it, as far as it yields addresses.  An IPv4 address may be written with one to four numbers, each decimal, octal or hexadecimal, the last of which fills the octets that remain.

The usual spelling means the same to both parsers (`hostNumber_of_parseIpv4`).
-/

namespace Fluxa.Whatwg
open IpAddr

/-- The IPv4 number parser. -/
def parseIpv4Number : List Char → Option Nat
  | [] => none
  | '0' :: 'x' :: digits => parseDigits 16 digits
  | '0' :: 'X' :: digits => parseDigits 16 digits
  | '0' :: c :: digits => parseDigits 8 (c :: digits)
  | text => parseDigits 10 text

/-- The parts between dots, without an empty last one. -/
def parts (text : List Char) : List (List Char) :=
  let parts := text.splitOn '.'
  if parts.getLast? = some [] ∧ 1 < parts.length then parts.dropLast else parts

/-- The ends-in-a-number checker. -/
def endsInNumber (text : List Char) : Bool :=
  (parts text).getLast?.any fun last =>
    last ≠ [] && (last.all (·.isDigit) || (parseIpv4Number last).isSome)

/-- The value of an IPv4 address from its numbers, `counter` of which precede them. -/
def ipv4Value (counter : Nat) : List Nat → Option Nat
  | [] => none
  | [last] => if last < 256 ^ (4 - counter) then some last else none
  | n :: rest =>
    if n ≤ 255 then (ipv4Value (counter + 1) rest).map (n * 256 ^ (3 - counter) + ·) else none

/-- The IPv4 parser. -/
def parseIpv4 (text : List Char) : Option Nat :=
  if 4 < (parts text).length then none
  else ((parts text).mapM parseIpv4Number).bind (ipv4Value 0)

/-- The address with the given value. -/
def ipv4OfValue (n : Nat) : IpAddr :=
  .v4 (n / 16777216) (n / 65536 % 256) (n / 256 % 256) (n % 256)

/-- The address of an ASCII domain; the forbidden code points make no number. -/
def hostNumber (domain : List Char) : Option IpAddr :=
  if endsInNumber domain then (parseIpv4 domain).map ipv4OfValue else none

/-- ASCII lowercase. -/
def asciiLower (text : List Char) : List Char := text.map Char.toLower

/-- Percent-decoding and the mapping of a domain to ASCII.  Of ASCII text without a percent sign
nothing but the lowercase can become, and letters, digits and dots always become it. -/
structure DomainMapping where
  toAscii : List Char → Option (List Char)
  toAscii_ascii : ∀ {host domain}, (∀ c ∈ host, c.toNat < 128 ∧ c ≠ '%') →
    toAscii host = some domain → domain = asciiLower host
  toAscii_plain : ∀ {host}, host ≠ [] → (∀ c ∈ host, c.isAlphanum ∨ c = '.') →
    toAscii host = some (asciiLower host)

/-- The host parser: the address that a host denotes, if it denotes one. -/
def parseHost (m : DomainMapping) : List Char → Option IpAddr
  | '[' :: rest =>
    if rest.getLast? = some ']' then (parseIpv6 rest.dropLast).map .v6 else none
  | host => (m.toAscii host).bind hostNumber

/-- The mapping of ASCII text. -/
def asciiMapping : DomainMapping where
  toAscii host := some (asciiLower host)
  toAscii_ascii := fun _ h => (Option.some.inj h).symm
  toAscii_plain := fun _ _ => rfl

/-! ### The usual spelling -/

theorem isDigit_of_digitValue {c : Char} {d : Nat} (h : digitValue c = some d) (hd : d < 10) :
    c.isDigit = true := by
  unfold digitValue at h
  split at h
  · rename_i hc
    simpa [Char.isDigit, Char.le_def] using hc
  · split at h
    · rename_i hc
      have hlow : 97 ≤ c.toNat := hc.1
      obtain rfl := Option.some.inj h
      omega
    · split at h
      · rename_i hc
        have hlow : 65 ≤ c.toNat := hc.1
        obtain rfl := Option.some.inj h
        omega
      · cases h

theorem isDigit_of_decimal {n m : Nat} {text : List Char}
    (h : text.foldlM (pushDigit 10) n = some m) : ∀ c ∈ text, c.isDigit = true := by
  induction text generalizing n with
  | nil => exact fun _ hc => absurd hc List.not_mem_nil
  | cons c text ih =>
      obtain ⟨d, hd, hlt, hrest⟩ := parseDigits_cons h
      intro x hx
      rcases List.mem_cons.mp hx with rfl | hx
      · exact isDigit_of_digitValue hd hlt
      · exact ih hrest x hx

theorem toLower_of_isDigit {c : Char} (h : c.isDigit = true) : c.toLower = c := by
  have hc := Char.isDigit_iff_toNat.mp h
  have h9 : c.toNat ≤ 57 := hc.2
  unfold Char.toLower
  rw [dif_neg]
  rintro ⟨hle, -⟩
  have : 65 ≤ c.toNat := hle
  omega

/-- An octet is a decimal number of the URL standard. -/
theorem parseIpv4Number_of_parseOctet {text : List Char} {n : Nat} (h : parseOctet text = some n) :
    parseIpv4Number text = some n := by
  obtain ⟨hne, hzero, hn, -⟩ := parseOctet_eq h
  unfold parseIpv4Number
  split
  · exact absurd rfl hne
  · exact absurd ⟨rfl, by simp⟩ hzero
  · exact absurd ⟨rfl, by simp⟩ hzero
  · exact absurd ⟨rfl, by simp⟩ hzero
  · exact hn

/-- **A dotted quad denotes the same address to both parsers.** -/
theorem hostNumber_of_parseIpv4 {text : List Char} {a b c d : Nat}
    (h : IpAddr.parseIpv4 text = some (a, b, c, d)) :
    hostNumber (asciiLower text) = some (.v4 a b c d) := by
  obtain ⟨ta, tb, tc, td, hsplit, ha, hb, hc, hd⟩ := parseIpv4_eq h
  have hdne := (parseOctet_eq hd).1
  have hdigits := isDigit_of_decimal (parseOctet_eq hd).2.2.1
  have hlower : asciiLower text = text := by
    refine (List.map_congr_left fun x hx => ?_).trans (List.map_id _)
    rcases @mem_of_splitOn '.' _ _ hx with rfl | ⟨part, hpart, hx⟩
    · rfl
    · rw [hsplit] at hpart
      simp only [List.mem_cons, List.not_mem_nil, or_false] at hpart
      rcases hpart with rfl | rfl | rfl | rfl
      · exact toLower_of_isDigit (isDigit_of_decimal (parseOctet_eq ha).2.2.1 x hx)
      · exact toLower_of_isDigit (isDigit_of_decimal (parseOctet_eq hb).2.2.1 x hx)
      · exact toLower_of_isDigit (isDigit_of_decimal (parseOctet_eq hc).2.2.1 x hx)
      · exact toLower_of_isDigit (hdigits x hx)
  have hparts : parts text = [ta, tb, tc, td] := by
    unfold parts
    rw [hsplit]
    simp [hdne]
  have hends : endsInNumber text = true := by
    unfold endsInNumber
    rw [hparts]
    simp [hdne, List.all_eq_true.mpr hdigits]
  have hvalue : parseIpv4 text = some (a * 256 ^ 3 + (b * 256 ^ 2 + (c * 256 ^ 1 + d))) := by
    unfold parseIpv4
    rw [hparts]
    simp [parseIpv4Number_of_parseOctet ha, parseIpv4Number_of_parseOctet hb,
      parseIpv4Number_of_parseOctet hc, parseIpv4Number_of_parseOctet hd, ipv4Value,
      (parseOctet_eq ha).2.2.2, (parseOctet_eq hb).2.2.2, (parseOctet_eq hc).2.2.2,
      Nat.lt_succ_of_le (parseOctet_eq hd).2.2.2]
  have ha' := (parseOctet_eq ha).2.2.2
  have hb' := (parseOctet_eq hb).2.2.2
  have hc' := (parseOctet_eq hc).2.2.2
  have hd' := (parseOctet_eq hd).2.2.2
  rw [hlower, hostNumber, if_pos hends, hvalue]
  simp only [Option.map_some, ipv4OfValue, Option.some.injEq, IpAddr.v4.injEq]
  omega

/-! ### The characters of a number -/

theorem isAlphanum_of_isDigit {c : Char} (h : IsDigit c) : c.isAlphanum = true := by
  unfold IsDigit digitValue at h
  simp only [Char.isAlphanum, Char.isAlpha, Char.isUpper, Char.isLower, Char.isDigit,
    Bool.or_eq_true, Bool.and_eq_true, decide_eq_true_eq, UInt32.le_iff_toNat_le]
  split at h
  · rename_i hc
    exact .inr ⟨hc.1, hc.2⟩
  · split at h
    · rename_i hc
      exact .inl (.inr ⟨hc.1, Nat.le_trans hc.2 (by decide)⟩)
    · split at h
      · rename_i hc
        exact .inl (.inl ⟨hc.1, Nat.le_trans hc.2 (by decide)⟩)
      · cases h

theorem isAlphanum_of_parseIpv4Number {text : List Char} {n : Nat}
    (h : parseIpv4Number text = some n) : ∀ c ∈ text, c.isAlphanum = true := by
  unfold parseIpv4Number at h
  have hdigits : ∀ {radix : Nat} {digits : List Char}, parseDigits radix digits = some n →
      ∀ c ∈ digits, c.isAlphanum = true :=
    fun hp c hc => isAlphanum_of_isDigit (isDigit_of_parseDigits hp c hc)
  split at h
  · cases h
  · rename_i digits
    intro c hc
    simp only [List.mem_cons] at hc
    rcases hc with rfl | rfl | hc
    · rfl
    · rfl
    · exact hdigits h c hc
  · rename_i digits
    intro c hc
    simp only [List.mem_cons] at hc
    rcases hc with rfl | rfl | hc
    · rfl
    · rfl
    · exact hdigits h c hc
  · intro c hc
    rcases List.mem_cons.mp hc with rfl | hc
    · rfl
    · exact hdigits h c hc
  · exact hdigits h

theorem isSome_of_mapM {A B : Type} {f : A → Option B} {xs : List A} {ys : List B}
    (h : xs.mapM f = some ys) : ∀ x ∈ xs, ∃ y, f x = some y := by
  induction xs generalizing ys with
  | nil => exact fun _ hx => absurd hx List.not_mem_nil
  | cons x xs ih =>
      rw [List.mapM_cons] at h
      obtain ⟨y, hy, hrest⟩ := Option.bind_eq_some_iff.mp h
      obtain ⟨rest, hxs, -⟩ := Option.bind_eq_some_iff.mp hrest
      intro z hz
      rcases List.mem_cons.mp hz with rfl | hz
      · exact ⟨y, hy⟩
      · exact ih hxs z hz

theorem mem_parts {text part : List Char} (h : part ∈ text.splitOn '.') (hne : part ≠ []) :
    part ∈ parts text := by
  unfold parts
  dsimp only
  split
  · rename_i hlast
    obtain ⟨front, hfront⟩ := List.getLast?_eq_some_iff.mp hlast.1
    rw [hfront, List.dropLast_concat]
    rw [hfront, List.mem_append, List.mem_singleton] at h
    exact h.resolve_right hne
  · exact h

/-- A domain that is a number has letters, digits and dots only. -/
theorem isAlphanum_of_hostNumber {domain : List Char} {addr : IpAddr}
    (h : hostNumber domain = some addr) : ∀ c ∈ domain, c.isAlphanum = true ∨ c = '.' := by
  unfold hostNumber at h
  split at h
  · obtain ⟨value, hvalue, -⟩ := Option.map_eq_some_iff.mp h
    unfold parseIpv4 at hvalue
    split at hvalue
    · cases hvalue
    · obtain ⟨numbers, hnumbers, -⟩ := Option.bind_eq_some_iff.mp hvalue
      intro c hc
      rcases @mem_of_splitOn '.' _ _ hc with hc | ⟨part, hpart, hc⟩
      · exact .inr hc
      · left
        obtain ⟨n, hn⟩ := isSome_of_mapM hnumbers part (mem_parts hpart (List.ne_nil_of_mem hc))
        exact isAlphanum_of_parseIpv4Number hn c hc
  · cases h

end Fluxa.Whatwg
