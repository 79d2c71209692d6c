/-!
# JSON values

The values a settings text can denote. Text is kept only where it denotes characters: a string with
half of a surrogate pair has no characters. Numbers are recognised but no setting holds one.
-/

namespace LiveLoader

inductive Json where
  | null
  | bool (b : Bool)
  | number
  | string (text : Option (List Char))
  | array (items : List Json)
  | object (members : List (Option (List Char) × Json))
  deriving Repr, Inhabited

namespace Json

def text? : Json → Option (List Char)
  | string t => t
  | _ => none

def bool? : Json → Option Bool
  | bool b => some b
  | _ => none

/-- A text or `null`. -/
def nullableText? : Json → Option (Option (List Char))
  | null => some none
  | j => j.text?.map some

/-- The value of a member that occurs at most once. -/
def unique? (members : List (List Char × Json)) (name : List Char) : Option (Option Json) :=
  match members.filter (·.1 = name) with
  | [] => some none
  | [(_, j)] => some (some j)
  | _ => none

/-- The values given for the named fields: of an object its members of these names, none repeated;
of an array its items in order, no more than there are names. -/
def fields? (names : List (List Char)) : Json → Option (List (Option Json))
  | object members => do
    let members ← members.mapM fun (k, j) => k.map (·, j)
    names.mapM (unique? members)
  | array items =>
    if items.length ≤ names.length then
      some (items.map some ++ List.replicate (names.length - items.length) none)
    else none
  | _ => none

end Json

end LiveLoader
