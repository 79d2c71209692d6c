import LiveLoader.Lowering.Build

/-!
# Pragmas

Comments can say how markup is written out: by the runtime's functions or by one function of a
library, and where these come from.
-/

namespace LiveLoader.Lowering

open Syntax

/-- How markup is written out. -/
structure MarkupStyle where
  /-- By one function that takes the children as arguments. -/
  isClassic : Bool := false
  element : Option String := none
  fragment : Option String := none
  /-- The library that is imported otherwise. -/
  source : Option String := none
  deriving Repr

namespace MarkupStyle

inductive Keyword where
  | element | fragment | runtime | source

def keyword? (word : List Char) : Option Keyword :=
  match String.ofList word with
  | "" => some .element
  | "Frag" => some .fragment
  | "Runtime" => some .runtime
  | "ImportSource" => some .source
  | _ => none

def isGap (c : Char) : Bool := c = ' ' || c = '\t'

def endsValue (c : Char) : Bool := isGap c || c = '\r' || c = '\n'

/-- What stands behind the next `@jsx`, if anything does. -/
def behindMark? : List Char → Option (List Char)
  | '@' :: 'j' :: 's' :: 'x' :: r => some r
  | _ :: r => behindMark? r
  | [] => none

def set (s : MarkupStyle) (k : Keyword) (value : String) : MarkupStyle :=
  match k with
  | .element => { s with element := some value }
  | .fragment => { s with fragment := some value }
  | .source => { s with source := some value }
  | .runtime =>
    match value with
    | "classic" => { s with isClassic := true }
    | "automatic" => { s with isClassic := false }
    | _ => s

/-- Takes up all pragmas of a text. A mark, the rest of a keyword, blanks and a value make one. -/
def readFrom : Nat → MarkupStyle → List Char → MarkupStyle
  | 0, s, _ => s
  | fuel + 1, s, text =>
    match behindMark? text with
    | none => s
    | some r =>
      let word := r.takeWhile (!isGap ·)
      match r.drop word.length, keyword? word with
      | [], _ => s
      | _ :: r, none => readFrom fuel s r
      | _ :: r, some k =>
        let r := r.dropWhile isGap
        let value := r.takeWhile (!endsValue ·)
        if value.isEmpty then s
        else readFrom fuel (s.set k (String.ofList value)) (r.drop (value.length + 1))

def commentBody (c : Comment) : List Char :=
  let body := c.text.toList.drop 2
  if c.isLine then body else body.take (body.length - 2)

def ofComments (cs : List Comment) : MarkupStyle :=
  cs.foldl (fun s c => let body := commentBody c; readFrom body.length s body) {}

/-- The messages for pragmas that do not go together. -/
def problems (s : MarkupStyle) : List String :=
  if s.isClassic then
    if s.source.isSome then ["importSource cannot be set when runtime is classic."] else []
  else if s.element.isSome || s.fragment.isSome then
    ["pragma and pragmaFrag cannot be set when runtime is automatic."]
  else []

/-- The library that markup refers to where no other is named. -/
def defaultName : String := "React"

def elementPath (s : MarkupStyle) : List String :=
  (s.element.map (·.splitOn ".")).getD [defaultName, "createElement"]

def fragmentPath (s : MarkupStyle) : List String :=
  (s.fragment.map (·.splitOn ".")).getD [defaultName, "Fragment"]

def pathNode (path : List String) : Node :=
  match path with
  | "this" :: members => members.foldl Build.member (.made .this [])
  | "import" :: "meta" :: members =>
    members.foldl Build.member (.made (.metaProperty "import.meta") [])
  | name :: members => members.foldl Build.member (Build.name name)
  | [] => .absent

/-- The name that elements refer to: in typed programs an import stays for it. -/
def elementName (s : MarkupStyle) : String := s.elementPath.headD defaultName

def fragmentName (s : MarkupStyle) : String := s.fragmentPath.headD defaultName

end MarkupStyle

end LiveLoader.Lowering
