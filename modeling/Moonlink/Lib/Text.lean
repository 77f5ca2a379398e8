-- SUMMARY: Texts as lists of characters: white space and lower case.
import Mathlib.Data.List.Basic

namespace Lib

/-- The characters with the Unicode property `White_Space`. -/
def isWhitespace (c : Char) : Bool :=
  (9 ≤ c.toNat && c.toNat ≤ 13) || (0x2000 ≤ c.toNat && c.toNat ≤ 0x200A) ||
    c.toNat ∈ [0x20, 0x85, 0xA0, 0x1680, 0x2028, 0x2029, 0x202F, 0x205F, 0x3000]

def trim (s : List Char) : List Char := ((s.dropWhile isWhitespace).reverse.dropWhile isWhitespace).reverse

/-- The ASCII letters in lower case. Other characters stay as they are. -/
def toLowercase (s : List Char) : List Char := s.map Char.toLower

end Lib
