import LiveLoader.Text.Pieces

/-!
# Paths

A path is kept as the text it was given as. Two paths name the same place in a program when their
components are equal: repeated separators, a trailing separator and a `.` that is not first do not
count.
-/

namespace LiveLoader

open Text

inductive Component where
  | root
  | current
  | parent
  | normal (name : List Char)
  deriving DecidableEq, Repr

namespace Component

def text : Component → List Char
  | root => ['/']
  | current => ['.']
  | parent => ['.', '.']
  | normal name => name

/-- What a part between separators stands for; a `.` counts only where `first` says so. -/
def ofPiece (first : Bool) (p : List Char) : Option Component :=
  if p = [] then none
  else if p = ['.'] then (if first then some current else none)
  else if p = ['.', '.'] then some parent
  else some (normal p)

end Component

structure Path where
  text : List Char
  deriving DecidableEq, Repr, Inhabited

namespace Path

def ofString (s : String) : Path := ⟨s.toList⟩

def toString (p : Path) : String := String.ofList p.text

instance : Coe String Path := ⟨ofString⟩
instance : ToString Path := ⟨toString⟩

def isAbsolute (p : Path) : Bool := p.text.head? = some '/'

def components (p : Path) : List Component :=
  let ps := pieces '/' p.text
  if p.isAbsolute then .root :: ps.filterMap (Component.ofPiece false)
  else (ps.take 1).filterMap (Component.ofPiece true)
    ++ (ps.drop 1).filterMap (Component.ofPiece false)

/-- Equality of places: the components agree. -/
def same (p q : Path) : Bool := p.components = q.components

@[simp] theorem same_self (p : Path) : p.same p = true := by simp [same]

theorem same_comm (p q : Path) : p.same q = q.same p := by simp [same, eq_comm]

theorem same_trans {p q r : Path} (h : p.same q = true) (k : q.same r = true) :
    p.same r = true := by simp_all [same]

/-- An absolute path replaces; otherwise one separator stands between the two texts. -/
def join (p q : Path) : Path :=
  if q.isAbsolute then q
  else if p.text = [] then q
  else if p.text.getLast? = some '/' then ⟨p.text ++ q.text⟩
  else ⟨p.text ++ '/' :: q.text⟩

def ofComponents (cs : List Component) : Path :=
  cs.foldl (fun p c => p.join ⟨c.text⟩) ⟨[]⟩

def trimmed (p : Path) : List Char :=
  go p.text.length p.text
where
  go : Nat → List Char → List Char
    | 0, s => s
    | n + 1, s =>
      match s.reverse with
      | '/' :: r => if r.isEmpty then s else go n r.reverse
      | '.' :: '/' :: r => if r.isEmpty then ['/'] else go n r.reverse
      | _ => s

/-- The name of the last component, if it is a name. -/
def fileName? (p : Path) : Option (List Char) :=
  match p.components.getLast? with
  | some (.normal name) => some name
  | _ => none

/-- A name before and after its last dot; a name whose only dot is first has no extension. -/
def splitExtension (name : List Char) : List Char × Option (List Char) :=
  match breakLast '.' name with
  | none | some ([], _) => (name, none)
  | some (stem, ext) => (stem, some ext)

def extension? (p : Path) : Option (List Char) := p.fileName?.bind fun n => (splitExtension n).2

/-- Exchanges the extension of the last component; an empty one removes it. The old one is cut off
before, and where that leaves a `..` there is no name any more that could have an extension. -/
def withExtension (p : Path) (ext : List Char) : Path :=
  match p.fileName? with
  | none => p
  | some name =>
    let t := p.trimmed
    let front := t.take (t.length - name.length)
    let stem := (splitExtension name).1
    if stem = ['.'] ∧ t = p.text then ⟨front ++ ['.', '.']⟩
    else ⟨front ++ stem ++ (if ext = [] then [] else '.' :: ext)⟩

/-- The path without its last component; a root and an empty path have none. -/
def parent? (p : Path) : Option Path :=
  match p.components.getLast? with
  | none | some .root => none
  | some c =>
    let t := p.trimmed
    some ⟨(Path.mk (t.take (t.length - c.text.length))).trimmed⟩

/-- The path and the paths above it, the topmost first. -/
def lineage (p : Path) : List Path :=
  go p.text.length p
where
  go : Nat → Path → List Path
    | 0, p => [p]
    | n + 1, p => ((p.parent?.map (go n)).getD []) ++ [p]

/-- Separators of either slant are written as `/`. -/
def toSlash (p : Path) : List Char := exchange '\\' '/' p.text

/-- A component named `node_modules` marks code of others. -/
def isVendored (p : Path) : Bool :=
  p.components.any (· == .normal "node_modules".toList)

/-- The rest of `p` below `base`, when `base` is a prefix of it by components. -/
def below? (p base : Path) : Option Path :=
  go p.text base.components p.components
where
  /-- Drops separators and `.` components that no longer count. -/
  skip : List Char → List Char
    | '/' :: r => skip r
    | '.' :: '/' :: r => skip r
    | ['.'] => []
    | s => s
  go (s : List Char) : List Component → List Component → Option Path
    | [], _ => some ⟨(Path.mk s).trimmed⟩
    | _ :: _, [] => none
    | b :: bs, c :: cs => if b = c then go (skip (s.drop c.text.length)) bs cs else none

/-- Folds `.` away and lets `..` remove what stands before it; with nothing left to remove the `..`
stays. -/
def normalize (p : Path) : Path :=
  p.components.foldl step ⟨[]⟩
where
  step (out : Path) : Component → Path
    | .current => out
    | .parent => out.parent?.getD (out.join ⟨['.', '.']⟩)
    | c => out.join ⟨c.text⟩

/-- Seen from the directory `cwd`, and normalized. -/
def absolutize (p cwd : Path) : Path :=
  if p.isAbsolute then p.normalize else (cwd.join p).normalize

end Path

end LiveLoader
