/-!
Sets of characters as lists of closed ranges of code points, and the first of them, white space,
with trimming by it. The tables of the Unicode properties that the library needs are such lists;
they hold the characters from U+0080 on, since each property has a short description below that.
-/

namespace Workflow.Text

/-- The code points from the first number to the second, both included. -/
abbrev CharRange := Nat × Nat

def memRanges (ranges : List CharRange) (c : Char) : Bool :=
  ranges.any fun (first, last) => first ≤ c.toNat && c.toNat ≤ last

set_option maxRecDepth 4000 in
def blankRanges : List CharRange := [
  (0x85, 0x85), (0xA0, 0xA0), (0x1680, 0x1680), (0x2000, 0x200A), (0x2028, 0x2029),
  (0x202F, 0x202F), (0x205F, 0x205F), (0x3000, 0x3000)]

/-- Unicode property `White_Space`; below U+0080 these are U+0009 to U+000D and the space. -/
def isBlank (c : Char) : Bool :=
  if c.toNat < 0x80 then c == ' ' || (0x09 ≤ c.toNat && c.toNat ≤ 0x0D) else memRanges blankRanges c

def trimStart (cs : List Char) : List Char :=
  cs.dropWhile isBlank

def trimEnd (cs : List Char) : List Char :=
  (cs.reverse.dropWhile isBlank).reverse

def trim (cs : List Char) : List Char :=
  trimEnd (trimStart cs)

end Workflow.Text
