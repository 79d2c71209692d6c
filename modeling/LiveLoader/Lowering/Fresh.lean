/-!
# Fresh names

Names for variables that a program does not have yet. A fresh name is an underscore and a stem; if
names with that stem and underscores occur, it continues their numbering.
-/

namespace LiveLoader.Lowering

/-- The highest name with a stem: its underscores and its number, where no number counts as one. -/
structure Series where
  stem : List Char
  underscores : Nat
  number : Nat
  deriving DecidableEq, Repr

namespace Series

def text (s : Series) : List Char :=
  List.replicate s.underscores '_' ++ s.stem ++ if s.number = 1 then [] else Nat.toDigits 10 s.number

/-- A name without its underscores in front and its digits behind. -/
def stemOf (name : List Char) : List Char :=
  ((name.dropWhile (· = '_')).reverse.dropWhile Char.isDigit).reverse

/-- The series of a name that begins with an underscore. -/
def ofName? (name : List Char) : Option Series :=
  if name.head? = some '_' then
    let digits := (name.reverse.takeWhile Char.isDigit).reverse
    some ⟨stemOf name, (name.takeWhile (· = '_')).length,
      if digits.isEmpty then 1 else Nat.ofDigitChars 10 digits 0⟩
  else none

/-- The higher of two names with the same stem. -/
def max (s t : Series) : Series :=
  if s.underscores < t.underscores then t
  else if t.underscores < s.underscores then s
  else if s.number < t.number then t else s

end Series

abbrev Fresh := List Series

namespace Fresh

def record (f : Fresh) (s : Series) : Fresh :=
  match f.find? (·.stem = s.stem) with
  | some t => (t.max s) :: f.filter (·.stem ≠ s.stem)
  | none => s :: f

def ofNames (names : List String) : Fresh :=
  names.foldl (fun f name => match Series.ofName? name.toList with
    | some s => f.record s
    | none => f) []

def take (f : Fresh) (name : String) : String × Fresh :=
  let stem := Series.stemOf name.toList
  let s : Series := match f.find? (·.stem = stem) with
    | some t => { t with number := t.number + 1 }
    | none => ⟨stem, 1, 1⟩
  (String.ofList s.text, f.record s)

end Fresh

end LiveLoader.Lowering
