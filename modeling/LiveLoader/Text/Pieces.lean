/-!
# Pieces of a text

Texts are cut at a separator and searched as lists of characters.
-/

namespace LiveLoader.Text

/-- The parts between the separators; a text without separator is its only part. -/
def pieces (sep : Char) : List Char → List (List Char)
  | [] => [[]]
  | c :: r =>
    if c = sep then [] :: pieces sep r
    else match pieces sep r with
      | [] => [[c]]
      | p :: ps => (c :: p) :: ps

def joinPieces (sep : Char) : List (List Char) → List Char
  | [] => []
  | [p] => p
  | p :: ps => p ++ sep :: joinPieces sep ps

theorem pieces_ne_nil (sep : Char) (s : List Char) : pieces sep s ≠ [] := by
  cases s with
  | nil => simp [pieces]
  | cons c r =>
    simp only [pieces]
    split
    · simp
    · split <;> simp

theorem joinPieces_pieces (sep : Char) (s : List Char) :
    joinPieces sep (pieces sep s) = s := by
  induction s with
  | nil => rfl
  | cons c r ih =>
    simp only [pieces]
    split
    · next h =>
      subst h
      match hp : pieces c r with
      | [] => exact absurd hp (pieces_ne_nil c r)
      | p :: ps => simp [joinPieces, ← hp, ih]
    · match hp : pieces sep r with
      | [] => exact absurd hp (pieces_ne_nil sep r)
      | [p] => rw [hp] at ih; simpa [joinPieces] using ih
      | p :: q :: ps => rw [hp] at ih; simpa [joinPieces] using ih

/-- What follows the first occurrence of `pat`, together with what stands before it. -/
def breakOn (pat : List Char) : List Char → Option (List Char × List Char)
  | [] => if pat.isEmpty then some ([], []) else none
  | c :: r =>
    if pat.isPrefixOf (c :: r) then some ([], (c :: r).drop pat.length)
    else (breakOn pat r).map fun (a, b) => (c :: a, b)

def contains (pat : List Char) (s : List Char) : Bool := (breakOn pat s).isSome

/-- Every character `a` is exchanged for `b`. -/
def exchange (a b : Char) (s : List Char) : List Char := s.map fun c => if c = a then b else c

def endsWith (suf s : List Char) : Bool := suf.reverse.isPrefixOf s.reverse

/-- The text without its ending `suf`, when it ends so. -/
def dropEnd? (suf s : List Char) : Option (List Char) :=
  if endsWith suf s then some (s.take (s.length - suf.length)) else none

/-- Splits at the last occurrence of `c`; the second part follows it. -/
def breakLast (c : Char) (s : List Char) : Option (List Char × List Char) :=
  let tail := s.reverse.takeWhile (· ≠ c)
  if tail.length = s.length then none
  else some (s.take (s.length - tail.length - 1), tail.reverse)

end LiveLoader.Text
