import Mathlib.Data.List.Basic

/-!
# Hosts — IP addresses

The text forms of IP addresses, as `std::net` parses them, and the ranges of addresses that are not public.  An IPv4 address is four decimal octets without leading zeros.  An IPv6 address is eight hexadecimal groups, of which `::` stands for a run of zeros and the last two may be written as an IPv4 address; the URL standard has the same form between brackets.
-/

namespace Fluxa

/-- An IP address: four octets, or eight groups of 16 bits. -/
inductive IpAddr where
  | v4 (a b c d : Nat)
  | v6 (segments : List Nat)
deriving DecidableEq, Repr

namespace IpAddr

/-! ### Parsing -/

/-- The value of a hexadecimal digit. -/
def digitValue (c : Char) : Option Nat :=
  if '0' ≤ c ∧ c ≤ '9' then some (c.toNat - 48)
  else if 'a' ≤ c ∧ c ≤ 'f' then some (c.toNat - 87)
  else if 'A' ≤ c ∧ c ≤ 'F' then some (c.toNat - 55)
  else none

/-- One more digit of a number. -/
def pushDigit (radix n : Nat) (c : Char) : Option Nat :=
  (digitValue c).bind fun d => if d < radix then some (n * radix + d) else none

/-- The number that a text of digits denotes. -/
def parseDigits (radix : Nat) (text : List Char) : Option Nat := text.foldlM (pushDigit radix) 0

/-- An octet: at most three decimal digits without a leading zero. -/
def parseOctet (text : List Char) : Option Nat :=
  if text = [] ∨ 3 < text.length ∨ (text.head? = some '0' ∧ 1 < text.length) then none
  else (parseDigits 10 text).filter (· ≤ 255)

/-- `Ipv4Addr::from_str`. -/
def parseIpv4 (text : List Char) : Option (Nat × Nat × Nat × Nat) :=
  match text.splitOn '.' with
  | [a, b, c, d] =>
    (parseOctet a).bind fun a => (parseOctet b).bind fun b => (parseOctet c).bind fun c =>
      (parseOctet d).bind fun d => some (a, b, c, d)
  | _ => none

/-- A group: at most four hexadecimal digits. -/
def parseGroup (text : List Char) : Option Nat :=
  if text = [] ∨ 4 < text.length then none else parseDigits 16 text

/-- The groups between colons, the last of which may be an IPv4 address if `quad` is set. -/
def parseGroups (quad : Bool) : List (List Char) → Option (List Nat)
  | [] => some []
  | [last] =>
    match if quad then parseIpv4 last else none with
    | some (a, b, c, d) => some [a * 256 + b, c * 256 + d]
    | none => (parseGroup last).map fun n => [n]
  | text :: rest => (parseGroup text).bind fun n => (parseGroups quad rest).map (n :: ·)

/-- The groups of a text, none if it is empty. -/
def groupsOf (quad : Bool) (text : List Char) : Option (List Nat) :=
  if text = [] then some [] else parseGroups quad (text.splitOn ':')

/-- The text before and after the first `::`. -/
def cutDoubleColon : List Char → Option (List Char × List Char)
  | [] => none
  | c :: rest =>
    if c = ':' ∧ rest.head? = some ':' then some ([], rest.tail)
    else (cutDoubleColon rest).map fun cut => (c :: cut.1, cut.2)

/-- `Ipv6Addr::from_str`. -/
def parseIpv6 (text : List Char) : Option (List Nat) :=
  match cutDoubleColon text with
  | none => (groupsOf true text).filter fun groups => groups.length = 8
  | some (before, after) =>
    (groupsOf false before).bind fun head => (groupsOf true after).bind fun tail =>
      if head.length + tail.length ≤ 7 then
        some (head ++ List.replicate (8 - (head.length + tail.length)) 0 ++ tail)
      else none

/-- `IpAddr::from_str`. -/
def parse (text : List Char) : Option IpAddr :=
  match parseIpv4 text with
  | some (a, b, c, d) => some (.v4 a b c d)
  | none => (parseIpv6 text).map .v6

/-! ### Ranges -/

/-- Loopback, unspecified, link-local, broadcast, or one of the three ranges for private use. -/
def InternalV4 (a b c d : Nat) : Prop :=
  a = 127 ∨ (a = 0 ∧ b = 0 ∧ c = 0 ∧ d = 0) ∨ (a = 169 ∧ b = 254) ∨
    (a = 255 ∧ b = 255 ∧ c = 255 ∧ d = 255) ∨
    a = 10 ∨ (a = 172 ∧ 16 ≤ b ∧ b ≤ 31) ∨ (a = 192 ∧ b = 168)

instance (a b c d : Nat) : Decidable (InternalV4 a b c d) := by unfold InternalV4; infer_instance

/-- Loopback, unspecified, link-local or unique-local. -/
def InternalV6 (segments : List Nat) : Prop :=
  segments = [0, 0, 0, 0, 0, 0, 0, 1] ∨ segments = [0, 0, 0, 0, 0, 0, 0, 0] ∨
    (segments.headD 0 &&& 0xffc0) = 0xfe80 ∨ (segments.headD 0 &&& 0xfe00) = 0xfc00

instance (segments : List Nat) : Decidable (InternalV6 segments) := by
  unfold InternalV6; infer_instance

/-- The IPv4 address that an IPv6 address maps. -/
def mappedV4 : List Nat → Option (Nat × Nat × Nat × Nat)
  | [0, 0, 0, 0, 0, 0xffff, x, y] => some (x / 256, x % 256, y / 256, y % 256)
  | _ => none

/-- The address maps an internal IPv4 address. -/
def MapsInternal (segments : List Nat) : Prop :=
  (mappedV4 segments).any fun q => decide (InternalV4 q.1 q.2.1 q.2.2.1 q.2.2.2)

instance (segments : List Nat) : Decidable (MapsInternal segments) := by
  unfold MapsInternal; infer_instance

/-- An address that no public service has. -/
def Internal : IpAddr → Prop
  | .v4 a b c d => InternalV4 a b c d
  | .v6 segments => InternalV6 segments ∨ MapsInternal segments

/-! ### The characters of an address -/

/-- A digit in some radix up to 16. -/
def IsDigit (c : Char) : Prop := (digitValue c).isSome

instance (c : Char) : Decidable (IsDigit c) := by unfold IsDigit; infer_instance

theorem parseDigits_cons {radix n m : Nat} {c : Char} {text : List Char}
    (h : (c :: text).foldlM (pushDigit radix) n = some m) :
    ∃ d, digitValue c = some d ∧ d < radix ∧
      text.foldlM (pushDigit radix) (n * radix + d) = some m := by
  rw [List.foldlM_cons] at h
  obtain ⟨k, hk, hrest⟩ := Option.bind_eq_some_iff.mp h
  obtain ⟨d, hd, hlt⟩ := Option.bind_eq_some_iff.mp hk
  by_cases hr : d < radix
  · rw [if_pos hr] at hlt
    obtain rfl : n * radix + d = k := Option.some.inj hlt
    exact ⟨d, hd, hr, hrest⟩
  · rw [if_neg hr] at hlt
    cases hlt

theorem isDigit_of_foldlM {radix n m : Nat} {text : List Char}
    (h : text.foldlM (pushDigit radix) n = some m) : ∀ c ∈ text, IsDigit c := by
  induction text generalizing n with
  | nil => exact fun _ hc => absurd hc List.not_mem_nil
  | cons c text ih =>
      obtain ⟨d, hd, -, hrest⟩ := parseDigits_cons h
      intro x hx
      rcases List.mem_cons.mp hx with rfl | hx
      · simp [IsDigit, hd]
      · exact ih hrest x hx

theorem isDigit_of_parseDigits {radix m : Nat} {text : List Char}
    (h : parseDigits radix text = some m) : ∀ c ∈ text, IsDigit c :=
  isDigit_of_foldlM h

theorem parseOctet_eq {text : List Char} {n : Nat} (h : parseOctet text = some n) :
    text ≠ [] ∧ ¬ (text.head? = some '0' ∧ 1 < text.length) ∧ parseDigits 10 text = some n ∧
      n ≤ 255 := by
  unfold parseOctet at h
  split at h
  · cases h
  · rename_i hform
    rw [not_or, not_or, not_and] at hform
    obtain ⟨hn, hle⟩ := Option.filter_eq_some_iff.mp h
    exact ⟨hform.1, fun hz => hform.2.2 hz.1 hz.2, hn, of_decide_eq_true hle⟩

theorem parseGroup_eq {text : List Char} {n : Nat} (h : parseGroup text = some n) :
    parseDigits 16 text = some n := by
  unfold parseGroup at h
  split at h
  · cases h
  · exact h

/-- A split text has its separators and the characters of its parts. -/
theorem mem_of_splitOn {sep c : Char} {text : List Char} (h : c ∈ text) :
    c = sep ∨ ∃ part ∈ text.splitOn sep, c ∈ part := by
  rw [← @List.intercalate_splitOn _ text _ _ sep] at h
  generalize text.splitOn sep = parts at h
  induction parts with
  | nil => simp [List.intercalate] at h
  | cons part parts ih =>
      cases parts with
      | nil =>
          right
          exact ⟨part, List.mem_cons_self, by simpa [List.intercalate] using h⟩
      | cons next rest =>
          rw [List.intercalate_cons_cons, List.mem_append, List.mem_append,
            List.mem_singleton] at h
          rcases h with (h | rfl) | h
          · exact .inr ⟨part, List.mem_cons_self, h⟩
          · exact .inl rfl
          · rcases ih h with h | ⟨p, hp, hc⟩
            · exact .inl h
            · exact .inr ⟨p, List.mem_cons_of_mem _ hp, hc⟩

theorem parseIpv4_eq {text : List Char} {a b c d : Nat} (h : parseIpv4 text = some (a, b, c, d)) :
    ∃ ta tb tc td, text.splitOn '.' = [ta, tb, tc, td] ∧ parseOctet ta = some a ∧
      parseOctet tb = some b ∧ parseOctet tc = some c ∧ parseOctet td = some d := by
  unfold parseIpv4 at h
  split at h
  · rename_i ta tb tc td hsplit
    simp only [Option.bind_eq_some_iff, Option.some.injEq, Prod.mk.injEq] at h
    obtain ⟨a', ha, b', hb, c', hc, d', hd, rfl, rfl, rfl, rfl⟩ := h
    exact ⟨ta, tb, tc, td, hsplit, ha, hb, hc, hd⟩
  · cases h

theorem isDigit_of_parseIpv4 {text : List Char} {q : Nat × Nat × Nat × Nat}
    (h : parseIpv4 text = some q) : ∀ c ∈ text, c = '.' ∨ IsDigit c := by
  obtain ⟨a, b, c, d⟩ := q
  obtain ⟨ta, tb, tc, td, hsplit, ha, hb, hc, hd⟩ := parseIpv4_eq h
  intro x hx
  rcases @mem_of_splitOn '.' _ _ hx with hx | ⟨part, hpart, hx⟩
  · exact .inl hx
  · right
    rw [hsplit] at hpart
    simp only [List.mem_cons, List.not_mem_nil, or_false] at hpart
    rcases hpart with rfl | rfl | rfl | rfl
    · exact isDigit_of_parseDigits (parseOctet_eq ha).2.2.1 x hx
    · exact isDigit_of_parseDigits (parseOctet_eq hb).2.2.1 x hx
    · exact isDigit_of_parseDigits (parseOctet_eq hc).2.2.1 x hx
    · exact isDigit_of_parseDigits (parseOctet_eq hd).2.2.1 x hx

/-- The characters of groups. -/
def IsGroupChar (c : Char) : Prop := c = '.' ∨ c = ':' ∨ IsDigit c

theorem groupChar_of_parseGroups {quad : Bool} {parts : List (List Char)} {groups : List Nat}
    (h : parseGroups quad parts = some groups) : ∀ part ∈ parts, ∀ c ∈ part, IsGroupChar c := by
  induction parts generalizing groups with
  | nil => exact fun _ hp => absurd hp List.not_mem_nil
  | cons text rest ih =>
      cases rest with
      | nil =>
          intro part hp c hc
          obtain rfl := List.mem_singleton.mp hp
          unfold parseGroups at h
          split at h
          · rename_i hquad
            split at hquad
            · rcases isDigit_of_parseIpv4 hquad c hc with hc | hc
              · exact .inl hc
              · exact .inr (.inr hc)
            · cases hquad
          · obtain ⟨n, hn, -⟩ := Option.map_eq_some_iff.mp h
            exact .inr (.inr (isDigit_of_parseDigits (parseGroup_eq hn) c hc))
      | cons next rest =>
          unfold parseGroups at h
          obtain ⟨n, hn, hrest⟩ := Option.bind_eq_some_iff.mp h
          obtain ⟨ns, hns, -⟩ := Option.map_eq_some_iff.mp hrest
          intro part hp
          rcases List.mem_cons.mp hp with rfl | hp
          · exact fun c hc => .inr (.inr (isDigit_of_parseDigits (parseGroup_eq hn) c hc))
          · exact ih hns part hp

theorem groupChar_of_groupsOf {quad : Bool} {text : List Char} {groups : List Nat}
    (h : groupsOf quad text = some groups) : ∀ c ∈ text, IsGroupChar c := by
  intro c hc
  unfold groupsOf at h
  split at h
  · rename_i hnil
    rw [hnil] at hc
    exact absurd hc List.not_mem_nil
  · rcases @mem_of_splitOn ':' _ _ hc with hc | ⟨part, hpart, hc⟩
    · exact .inr (.inl hc)
    · exact groupChar_of_parseGroups h part hpart c hc

/-- The cut leaves out two colons. -/
theorem eq_of_cutDoubleColon {text before after : List Char}
    (h : cutDoubleColon text = some (before, after)) : text = before ++ ':' :: ':' :: after := by
  induction text generalizing before with
  | nil => cases h
  | cons c rest ih =>
      unfold cutDoubleColon at h
      split at h
      · rename_i hcut
        obtain ⟨rfl, hhead⟩ := hcut
        obtain ⟨rfl, rfl⟩ := Prod.mk.inj (Option.some.inj h)
        cases rest with
        | nil => cases hhead
        | cons x rest =>
            obtain rfl : x = ':' := Option.some.inj hhead
            rfl
      · obtain ⟨cut, hcut, heq⟩ := Option.map_eq_some_iff.mp h
        obtain ⟨rfl, rfl⟩ := Prod.mk.inj heq
        rw [@ih cut.1 hcut]
        rfl

theorem groupChar_of_parseIpv6 {text : List Char} {segments : List Nat}
    (h : parseIpv6 text = some segments) : ∀ c ∈ text, IsGroupChar c := by
  unfold parseIpv6 at h
  split at h
  · exact groupChar_of_groupsOf (Option.filter_eq_some_iff.mp h).1
  · rename_i before after hcut
    obtain ⟨head, hhead, hrest⟩ := Option.bind_eq_some_iff.mp h
    obtain ⟨tail, htail, -⟩ := Option.bind_eq_some_iff.mp hrest
    rw [eq_of_cutDoubleColon hcut]
    intro c hc
    rw [List.mem_append, List.mem_cons, List.mem_cons] at hc
    rcases hc with hc | rfl | rfl | hc
    · exact groupChar_of_groupsOf hhead c hc
    · exact .inr (.inl rfl)
    · exact .inr (.inl rfl)
    · exact groupChar_of_groupsOf htail c hc

/-- An IPv6 address has a colon. -/
theorem colon_of_parseIpv6 {text : List Char} {segments : List Nat}
    (h : parseIpv6 text = some segments) : ':' ∈ text := by
  unfold parseIpv6 at h
  split at h
  · by_contra hnone
    obtain ⟨hgroups, hlength⟩ := Option.filter_eq_some_iff.mp h
    unfold groupsOf at hgroups
    split at hgroups
    · obtain rfl := Option.some.inj hgroups
      cases hlength
    · -- A text without a colon is one part, which is one group or an IPv4 address.
      rw [List.splitOn_eq_singleton hnone] at hgroups
      unfold parseGroups at hgroups
      split at hgroups
      · obtain rfl := Option.some.inj hgroups
        cases hlength
      · obtain ⟨n, -, rfl⟩ := Option.map_eq_some_iff.mp hgroups
        cases hlength
  · rename_i before after hcut
    rw [eq_of_cutDoubleColon hcut]
    simp

end IpAddr

end Fluxa
