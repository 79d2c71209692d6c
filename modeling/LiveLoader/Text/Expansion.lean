import LiveLoader.Text.Pieces

/-!
# Replacement texts

In a replacement text a dollar sign and a name stand for a group of what is replaced, and two dollar
signs for one. The group with number zero is the whole of it, and there are no other groups here.
-/

namespace LiveLoader.Text.Expansion

def isNameChar (c : Char) : Bool := c.isAlphanum || c = '_'

/-- The group named after a dollar sign, and what follows it. A name in braces may hold anything;
one without ends where its characters do. -/
def reference? : List Char → Option (List Char × List Char)
  | '\x7b' :: r => breakOn ['\x7d'] r
  | s =>
    let name := s.takeWhile isNameChar
    if name = [] then none else some (name, s.drop name.length)

/-- Zero, written with any number of digits and perhaps a sign. -/
def namesWhole (name : List Char) : Bool :=
  let digits := match name with
    | '+' :: r => r
    | r => r
  digits ≠ [] && digits.all (· = '0')

/-- Expands a text in place of `whole`; `fuel` bounds its length. -/
def expandWithin (whole : List Char) : Nat → List Char → List Char
  | 0, _ => []
  | _ + 1, [] => []
  | fuel + 1, '$' :: '$' :: r => '$' :: expandWithin whole fuel r
  | fuel + 1, '$' :: r =>
    match reference? r with
    | none => '$' :: expandWithin whole fuel r
    | some (name, r) => (if namesWhole name then whole else []) ++ expandWithin whole fuel r
  | fuel + 1, c :: r => c :: expandWithin whole fuel r

def expand (whole replacement : List Char) : List Char :=
  expandWithin whole replacement.length replacement

end LiveLoader.Text.Expansion
