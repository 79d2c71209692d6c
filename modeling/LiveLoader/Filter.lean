import LiveLoader.Text.CaseFold
import LiveLoader.Text.Pieces
import LiveLoader.Path.Basic

/-!
# Filters

A filter accepts the texts that end with what it describes: one of some characters at each place,
some places optional. `text` writes a filter as a bundler is told it, and `read?` reads that form
back.
-/

namespace LiveLoader

/-- One place: the characters allowed there, and whether it may be left out. -/
structure Place where
  chars : List Char
  optional : Bool := false
  deriving DecidableEq, Repr

structure Filter where
  ignoreCase : Bool
  places : List Place
  deriving DecidableEq, Repr

namespace Filter

/-- The characters that have a meaning of their own in the written form. -/
def special : List Char := "\\.+*?()|[]\x7b\x7d^$#&-~".toList

def escapeChar (c : Char) : List Char := if c ∈ special then ['\\', c] else [c]

/-- A text written so that each of its characters stands for itself. -/
def escape (s : List Char) : List Char := s.flatMap escapeChar

def Place.text (p : Place) : List Char :=
  (match p.chars with
    | [c] => escapeChar c
    | cs => '[' :: cs ++ [']'])
  ++ if p.optional then ['?'] else []

def text (f : Filter) : List Char :=
  (if f.ignoreCase then "(?i)".toList else []) ++ f.places.flatMap Place.text ++ ['$']

def literal (ignoreCase : Bool) (s : List Char) : Filter := ⟨ignoreCase, s.map fun c => ⟨[c], false⟩⟩

/-- Reads places up to the closing dollar sign; `group` holds the characters of an open bracket,
last first. -/
def readPlaces? : Option (List Char) → List Char → Option (List Place)
  | _, [] => none
  | some group, ']' :: '?' :: r => (readPlaces? none r).map (⟨group.reverse, true⟩ :: ·)
  | some group, ']' :: r => (readPlaces? none r).map (⟨group.reverse, false⟩ :: ·)
  | some group, c :: r => readPlaces? (some (c :: group)) r
  | none, ['$'] => some []
  | none, '\\' :: c :: '?' :: r =>
    if c ∈ special then (readPlaces? none r).map (⟨[c], true⟩ :: ·) else none
  | none, '\\' :: c :: r =>
    if c ∈ special then (readPlaces? none r).map (⟨[c], false⟩ :: ·) else none
  | none, '[' :: r => readPlaces? (some []) r
  | none, c :: '?' :: r =>
    if c ∈ special then none else (readPlaces? none r).map (⟨[c], true⟩ :: ·)
  | none, c :: r =>
    if c ∈ special then none else (readPlaces? none r).map (⟨[c], false⟩ :: ·)

def read? (s : List Char) : Option Filter :=
  if "(?i)".toList.isPrefixOf s then (readPlaces? none (s.drop 4)).map (⟨true, ·⟩)
  else (readPlaces? none s).map (⟨false, ·⟩)

def accepts (ignoreCase : Bool) (p : Place) (c : Char) : Bool :=
  p.chars.any fun d => if ignoreCase then Text.sameFolded c d else c = d

/-- The whole of the text fills the places in order. -/
def fills (ignoreCase : Bool) : List Place → List Char → Bool
  | [], s => s.isEmpty
  | p :: ps, [] => p.optional && fills ignoreCase ps []
  | p :: ps, c :: r =>
    (accepts ignoreCase p c && fills ignoreCase ps r) || (p.optional && fills ignoreCase ps (c :: r))

/-- Some ending of the text fills the places. -/
def accept (f : Filter) : List Char → Bool
  | [] => fills f.ignoreCase f.places []
  | c :: r => fills f.ignoreCase f.places (c :: r) || f.accept r

/-- Paths are filtered with their separators written as `/`. -/
def acceptPath (f : Filter) (p : Path) : Bool := f.accept p.toSlash

end Filter

end LiveLoader
