import LiveLoader.FileSystem.Basic
import LiveLoader.Logged
import LiveLoader.Routes.Table

/-!
# Finding pages

Each script below the pages directory is a page. In every directory the directories come first and
then everything else, each by name; a page whose key was met before is left out with a warning.
-/

namespace LiveLoader.Routes

open Text

abbrev Item := List Char × Entry

def Item.le (a b : Item) : Bool :=
  if a.2.isDirectory = b.2.isDirectory then !decide (b.1 < a.1) else a.2.isDirectory

/-- The files below a directory in scan order, under the path that the directory was reached by.
Links are gone through unless they lead nowhere or to one of the directories `above`; `fuel` bounds
the nesting. -/
def filesBelow (fs : FileSystem) : Nat → List Location → Location → Path → List Path
  | 0, _, _, _ => []
  | fuel + 1, above, dir, path =>
    ((fs.children dir).mergeSort Item.le).flatMap fun (name, entry) =>
      let child := path.join ⟨name⟩
      match entry with
      | .file _ => [child]
      | .directory => filesBelow fs fuel (dir :: above) (name :: dir) child
      | .link _ =>
        match fs.follow FileSystem.maxLinks dir [name] with
        | .error _ => []
        | .ok l =>
          if (fs.entry? l).any Entry.isDirectory then
            if l ∈ dir :: above then [] else filesBelow fs fuel (dir :: above) l child
          else [child]

/-- No walk is longer: it goes through a link to each directory at most, and down from each. -/
def walkBound (fs : FileSystem) : Nat := (fs.entries.length + 1) * (fs.depth + 1)

/-- The files that a path leads to, in scan order; a file is its only one. -/
def filesAt (fs : FileSystem) (path : Path) (l : Location) : List Path :=
  if (fs.entry? l).any Entry.isDirectory then filesBelow fs (walkBound fs) [] l path else [path]

def pageExtensions : List (List Char) :=
  ["ts".toList, "tsx".toList, "js".toList, "jsx".toList]

def isPage (path : Path) : Bool :=
  !endsWith ".d.ts".toList path.text && path.extension?.any (· ∈ pageExtensions)

/-- The key of a page: its path below the pages directory without extension; a page named `index`
has the key of its directory. -/
def routeKey (pagesDir file : Path) : List Char :=
  let key := '/' :: (((file.below? pagesDir).getD file).withExtension []).toSlash
  if key = "/index".toList then ['/'] else (dropEnd? "/index".toList key).getD key

/-- The pages of a list of files, without those whose key is among the keys `seen`. -/
def distinctPages (pagesDir : Path) (seen : List (List Char)) : List Path → Logged (List Page)
  | [] => return []
  | file :: files => do
    let key := routeKey pagesDir file
    if key ∈ seen then
      Logged.write (.warn ("duplicate route " ++ String.ofList key ++ " from " ++ file.toString
        ++ ", keeping the first"))
      distinctPages pagesDir seen files
    else
      let rest ← distinctPages pagesDir (key :: seen) files
      return ⟨key, file⟩ :: rest

def scan (fs : FileSystem) (pagesDir : Path) : Logged (List Page) :=
  match fs.locate pagesDir with
  | .error _ => do
    Logged.write (.warn ("pages directory " ++ pagesDir.toString ++ " does not exist"))
    return []
  | .ok l => distinctPages pagesDir [] ((filesAt fs pagesDir l).filter isPage)

end LiveLoader.Routes
