/-!
# Blanks

The characters with the Unicode property `White_Space`, and lists of entries in
which blanks around an entry do not count.

## Main definitions

* `isBlank`: Whether a character has the property.
* `trim`: A text without the blanks at its ends.
* `splitOn`: The stretches between separators, at least one.
-/

namespace ContractHost.Text

/-- Whether a character has the Unicode property `White_Space`. -/
def isBlank (c : Char) : Bool :=
  let n := c.toNat
  (9 ≤ n && n ≤ 13) || n = 0x20 || n = 0x85 || n = 0xa0 || n = 0x1680 ||
    (0x2000 ≤ n && n ≤ 0x200a) || n = 0x2028 || n = 0x2029 || n = 0x202f ||
    n = 0x205f || n = 0x3000

/-- The characters without the blanks at both ends. -/
def trim (cs : List Char) : List Char :=
  ((cs.dropWhile isBlank).reverse.dropWhile isBlank).reverse

/-- The stretches between separators; a list without separators is one stretch. -/
def splitOn (sep : Char) : List Char → List (List Char)
  | [] => [[]]
  | c :: rest =>
    if c = sep then [] :: splitOn sep rest
    else
      match splitOn sep rest with
      | [] => [[c]]
      | first :: others => (c :: first) :: others

end ContractHost.Text
