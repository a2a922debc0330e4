import Fluxa.State.Rows

/-!
# State — text

The functions of Rust's `str` that the services use.
-/

namespace Fluxa

/-- The characters with the Unicode property `White_Space`. -/
def isWhitespace (c : Char) : Bool :=
  let n := c.toNat
  (9 ≤ n && n ≤ 13) || n = 32 || n = 0x85 || n = 0xA0 || n = 0x1680 ||
    (0x2000 ≤ n && n ≤ 0x200A) || n = 0x2028 || n = 0x2029 || n = 0x202F || n = 0x205F ||
    n = 0x3000

/-- `trim` on the characters. -/
def trimChars (cs : List Char) : List Char :=
  ((cs.dropWhile isWhitespace).reverse.dropWhile isWhitespace).reverse

/-- `str::trim`. -/
def trim (s : String) : String := String.ofList (trimChars s.toList)

/-- `s.trim().is_empty()`. -/
def isBlank (s : String) : Bool := trimChars s.toList = []

/-- `str::to_ascii_lowercase`. -/
def toAsciiLowercase (s : String) : String := String.ofList (s.toList.map Char.toLower)

/-- `s.chars().count()`. -/
def charCount (s : String) : Nat := s.toList.length

/-- `char::is_control`: the Unicode category `Cc`. -/
def isControl (c : Char) : Bool := c.toNat < 32 || (127 ≤ c.toNat && c.toNat < 160)

/-- `char::is_ascii_graphic`. -/
def isAsciiGraphic (c : Char) : Bool := 33 ≤ c.toNat && c.toNat ≤ 126

/-- The text before the first `c`, or all of it. -/
def beforeFirst (c : Char) (s : String) : String := String.ofList (s.toList.takeWhile (· ≠ c))

end Fluxa
