import LiveLoader.FileSystem.Basic

/-!
# Changing a file system

Writing an entry makes the directories above it. A file is written through links, and over a file that
is there already; directories and links are made only where nothing stands. What cannot be done changes
nothing. Removing an entry removes all that stands below it.
-/

namespace LiveLoader.FileSystem

open Text

def put (fs : FileSystem) (l : Location) (e : Entry) : FileSystem :=
  { fs with entries := fs.entries.filter (·.1 ≠ l) ++ [(l, e)] }

/-- What stands at the location or below it is dropped. -/
def drop (fs : FileSystem) (l : Location) : FileSystem :=
  { fs with entries := fs.entries.filter fun (k, _) => !l.isSuffixOf k }

def isDirectoryAt (fs : FileSystem) (l : Location) : Bool := (fs.entry? l).any Entry.isDirectory

/-- A name that an entry can have. -/
def isEntryName (name : List Char) : Bool :=
  name ≠ [] && name ≠ ['.'] && name ≠ ['.', '.'] && !isLongName name

/-- Where a name stands below the directory that pieces lead to from an entry. -/
def slotBelow? (fs : FileSystem) (l : Location) (above : List (List Char)) (name : List Char) :
    Option Location :=
  match fs.follow maxLinks l above with
  | .ok d => if isEntryName name && fs.isDirectoryAt d then some (name :: d) else none
  | .error _ => none

def isUsable (p : Path) : Bool := !hasNullByte p && !isLongPath p

def endsInSlash (p : Path) : Bool := p.text.getLast? = some '/'

/-- Where the entry named by a path stands, or could be made; a link there is not gone through. -/
def slot? (fs : FileSystem) (p : Path) : Option Location :=
  match (fs.fromRoot p).reverse.dropWhile (· = []) with
  | name :: above => if isUsable p then fs.slotBelow? [] above.reverse name else none
  | [] => none

/-- Where a file is found or made by pieces from an entry, through at most `links` links at the end. -/
def fileSlot? (fs : FileSystem) (links : Nat) (l : Location) (ps : List (List Char)) :
    Option Location :=
  match fs.slotBelow? l ps.dropLast (ps.getLastD []) with
  | none => none
  | some slot =>
    match fs.entry? slot with
    | some (.link target) =>
      match links with
      | 0 => none
      | links + 1 =>
        fs.fileSlot? links (if target.isAbsolute then [] else slot.tail) (pieces '/' target.text)
    | some .directory => none
    | _ => some slot

/-- A directory at a path, which may be there already. -/
def ensureDirectory? (fs : FileSystem) (p : Path) : Option FileSystem :=
  if (fs.locate p).toOption.any fs.isDirectoryAt then some fs
  else match fs.slot? p with
    | some l => if (fs.entry? l).isNone then some (fs.put l .directory) else none
    | none => none

/-- Makes directories one after the other until one cannot be made. -/
def ensureAll (fs : FileSystem) : List Path → FileSystem
  | [] => fs
  | p :: ps =>
    match fs.ensureDirectory? p with
    | some fs => fs.ensureAll ps
    | none => fs

def ensureDirectories (fs : FileSystem) (p : Path) : FileSystem :=
  if isUsable p then fs.ensureAll (p.lineage.filter (·.text ≠ [])) else fs

def writeFile (fs : FileSystem) (p : Path) (text : Option (List Char)) : FileSystem :=
  if isUsable p then
    match fs.fileSlot? maxLinks [] (fs.fromRoot p) with
    | some l => fs.put l (.file text)
    | none => fs
  else fs

def makeLink (fs : FileSystem) (p target : Path) : FileSystem :=
  match fs.slot? p with
  | some l =>
    if endsInSlash p || target.text = [] || !isUsable target || (fs.entry? l).isSome then fs
    else fs.put l (.link target)
  | none => fs

def write (fs : FileSystem) (p : Path) (e : Entry) : FileSystem :=
  let fs := match p.parent? with
    | some above => fs.ensureDirectories above
    | none => fs
  match e with
  | .file text => fs.writeFile p text
  | .directory => fs.ensureDirectories p
  | .link target => fs.makeLink p target

def remove (fs : FileSystem) (p : Path) : FileSystem :=
  match fs.slot? p with
  | some l => if endsInSlash p && !fs.isDirectoryAt l then fs else fs.drop l
  | none => fs

/-- A file system with nothing but its working directory. -/
def empty (workingDirectory : Path) : FileSystem :=
  (⟨workingDirectory, []⟩ : FileSystem).ensureDirectories workingDirectory

end LiveLoader.FileSystem
