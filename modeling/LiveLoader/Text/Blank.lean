import LiveLoader.Text.Pieces

/-!
# Blank characters and lines

A blank character is one with the White_Space property of Unicode.
-/

namespace LiveLoader.Text

def isBlank (c : Char) : Bool :=
  let n := c.toNat
  (9 ≤ n && n ≤ 13) || n == 0x20 || n == 0x85 || n == 0xA0 || n == 0x1680
    || (0x2000 ≤ n && n ≤ 0x200A) || n == 0x2028 || n == 0x2029 || n == 0x202F || n == 0x205F
    || n == 0x3000

def trim (s : List Char) : List Char :=
  ((s.dropWhile isBlank).reverse.dropWhile isBlank).reverse

/-- A final carriage return is part of the line's end. -/
def dropReturn (line : List Char) : List Char := (dropEnd? ['\r'] line).getD line

/-- Lines end at a line feed with an optional carriage return before it; a last line may lack
its end, and an empty text has no line. -/
def lines (s : List Char) : List (List Char) :=
  let ps := pieces '\n' s
  let closed := ps.dropLast.map dropReturn
  match ps.getLast? with
  | none | some [] => closed
  | some last => closed ++ [last]

end LiveLoader.Text
