import LiveLoader.Path.Basic

/-!
# File systems

A file system is a list of entries: files, directories and links, each at a location. A path is
followed name by name from the root; relative paths start in the working directory.
-/

namespace LiveLoader

open Text

/-- The names from an entry up to the root: its own name is first, and the root has none. -/
abbrev Location := List (List Char)

inductive Entry where
  /-- The text of a file; a file of other bytes has none. -/
  | file (text : Option (List Char))
  | directory
  /-- Stands for what is found at the target, seen from the directory of the link. -/
  | link (target : Path)
  deriving DecidableEq, Repr

def Entry.isDirectory : Entry → Bool
  | directory => true
  | _ => false

structure FileSystem where
  workingDirectory : Path
  entries : List (Location × Entry)
  deriving Repr

inductive FileFailure where
  | missing
  | notDirectory
  | isDirectory
  | tooManyLinks
  | nameTooLong
  | nullByte
  | notText
  deriving DecidableEq, Repr

def FileFailure.message : FileFailure → String
  | missing => "No such file or directory (os error 2)"
  | notDirectory => "Not a directory (os error 20)"
  | isDirectory => "Is a directory (os error 21)"
  | tooManyLinks => "Too many levels of symbolic links (os error 40)"
  | nameTooLong => "File name too long (os error 36)"
  | nullByte => "file name contained an unexpected NUL byte"
  | notText => "stream did not contain valid UTF-8"

namespace FileSystem

/-- The root is always a directory. -/
def entry? (fs : FileSystem) : Location → Option Entry
  | [] => some .directory
  | l => fs.entries.lookup l

/-- Where a walk ends: at an entry, or at a link with names left to go. -/
inductive Stop where
  | reached (l : Location)
  | link (directory : Location) (target : Path) (rest : List (List Char))

def byteCount (s : List Char) : Nat := s.foldl (fun n c => n + c.utf8Size) 0

/-- A name has at most 255 bytes. -/
def isLongName (name : List Char) : Bool := 255 < byteCount name

/-- A path has fewer than 4096 bytes. -/
def isLongPath (p : Path) : Bool := 4095 < byteCount p.text

def hasNullByte (p : Path) : Bool := p.text.contains '\x00'

/-- Goes down from an entry by the pieces of a path, up to the first link. -/
def walk (fs : FileSystem) (l : Location) : List (List Char) → Except FileFailure Stop
  | [] => .ok (.reached l)
  | piece :: rest =>
    if fs.entry? l ≠ some .directory then .error .notDirectory
    else if piece = [] ∨ piece = ['.'] then fs.walk l rest
    else if piece = ['.', '.'] then fs.walk l.tail rest
    else if isLongName piece then .error .nameTooLong
    else match fs.entry? (piece :: l) with
      | none => .error .missing
      | some (.link target) => .ok (.link l target rest)
      | some _ => fs.walk (piece :: l) rest

/-- Goes down by the pieces of a path and through at most `links` links. -/
def follow (fs : FileSystem) : Nat → Location → List (List Char) → Except FileFailure Location
  | links, l, ps =>
    match fs.walk l ps with
    | .error e => .error e
    | .ok (.reached l) => .ok l
    | .ok (.link directory target rest) =>
      match links with
      | 0 => .error .tooManyLinks
      | links + 1 =>
        fs.follow links (if target.isAbsolute then [] else directory)
          (pieces '/' target.text ++ rest)

def maxLinks : Nat := 40

def fromRoot (fs : FileSystem) (p : Path) : List (List Char) :=
  if p.isAbsolute then pieces '/' p.text
  else pieces '/' fs.workingDirectory.text ++ pieces '/' p.text

/-- The location that a path leads to. -/
def locate (fs : FileSystem) (p : Path) : Except FileFailure Location :=
  if p.text = [] then .error .missing
  else if hasNullByte p then .error .nullByte
  else if isLongPath p then .error .nameTooLong
  else fs.follow maxLinks [] (fs.fromRoot p)

def holds (fs : FileSystem) (p : Path) : Bool := (fs.locate p).toOption.isSome

def textAt (fs : FileSystem) (l : Location) : Except FileFailure (List Char) :=
  match fs.entry? l with
  | some (.file (some text)) => .ok text
  | some (.file none) => .error .notText
  | some .directory => .error .isDirectory
  | _ => .error .missing

def readText (fs : FileSystem) (p : Path) : Except FileFailure (List Char) :=
  fs.locate p >>= fs.textAt

/-- The names in a directory and what stands under them, in no particular order. -/
def children (fs : FileSystem) (l : Location) : List (List Char × Entry) :=
  fs.entries.filterMap fun (k, e) =>
    match k with
    | name :: parent => if parent = l then some (name, e) else none
    | [] => none

def depth (fs : FileSystem) : Nat := fs.entries.foldl (fun n (l, _) => max n l.length) 0

end FileSystem

end LiveLoader
