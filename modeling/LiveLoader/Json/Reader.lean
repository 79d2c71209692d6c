import LiveLoader.Json.Value

/-!
# Reading JSON

Reads one value of RFC 8259 and nothing after it but blanks. Surrogate pairs written as escapes are
put together.
-/

namespace LiveLoader.Json

def isSpace (c : Char) : Bool := c == ' ' || c == '\n' || c == '\t' || c == '\r'

def skipSpace (s : List Char) : List Char := s.dropWhile isSpace

def hexValue? (c : Char) : Option Nat :=
  let n := c.toNat
  if 48 ≤ n && n ≤ 57 then some (n - 48)
  else if 65 ≤ n && n ≤ 70 then some (n - 55)
  else if 97 ≤ n && n ≤ 102 then some (n - 87)
  else none

def hex4? (a b c d : Char) : Option Nat := do
  return (((← hexValue? a) * 16 + (← hexValue? b)) * 16 + (← hexValue? c)) * 16 + (← hexValue? d)

def simpleEscape? : Char → Option Char
  | '"' => some '"' | '\\' => some '\\' | '/' => some '/' | 'b' => some '\x08'
  | 'f' => some '\x0c' | 'n' => some '\n' | 'r' => some '\r' | 't' => some '\t'
  | _ => none

/-- Reads up to the closing quote: the code units that the characters and escapes stand for, and
what follows the quote. -/
def readUnits? : List Char → Option (List Nat × List Char)
  | [] => none
  | '"' :: r => some ([], r)
  | '\\' :: 'u' :: a :: b :: c :: d :: r => do
    let n ← hex4? a b c d
    let (us, r) ← readUnits? r
    return (n :: us, r)
  | '\\' :: c :: r => do
    let x ← simpleEscape? c
    let (us, r) ← readUnits? r
    return (x.toNat :: us, r)
  | c :: r =>
    if c.toNat < 0x20 then none
    else do
      let (us, r) ← readUnits? r
      return (c.toNat :: us, r)

def isHigh (n : Nat) : Bool := 0xD800 ≤ n && n < 0xDC00
def isLow (n : Nat) : Bool := 0xDC00 ≤ n && n < 0xE000

/-- The characters of code units; half of a pair has none. -/
def pair? : List Nat → Option (List Char)
  | [] => some []
  | n :: r =>
    if isHigh n then
      match r with
      | m :: r' =>
        if isLow m then
          (pair? r').map (Char.ofNat (0x10000 + (n - 0xD800) * 0x400 + (m - 0xDC00)) :: ·)
        else none
      | [] => none
    else if isLow n then none
    else (pair? r).map (Char.ofNat n :: ·)

def readString? (s : List Char) : Option (Option (List Char) × List Char) :=
  (readUnits? s).map fun (us, r) => (pair? us, r)

/-- At least one digit. -/
def digits? (s : List Char) : Option (List Char) :=
  match s with
  | c :: r => if c.isDigit then some (r.dropWhile Char.isDigit) else none
  | [] => none

/-- A number may have a minus sign. -/
def afterSign : List Char → List Char
  | '-' :: r => r
  | s => s

/-- The integer part has no leading zeros. -/
def afterInteger? : List Char → Option (List Char)
  | '0' :: r => some r
  | s => digits? s

def afterFraction? : List Char → Option (List Char)
  | '.' :: r => digits? r
  | s => some s

/-- An exponent may have a sign of either kind. -/
def afterEitherSign : List Char → List Char
  | '+' :: r | '-' :: r => r
  | s => s

def afterExponent? : List Char → Option (List Char)
  | e :: r => if e = 'e' || e = 'E' then digits? (afterEitherSign r) else some (e :: r)
  | [] => some []

/-- What follows a number: an integer part, then optional fraction and exponent. -/
def readNumber? (s : List Char) : Option (List Char) :=
  afterInteger? (afterSign s) >>= afterFraction? >>= afterExponent?

mutual

/-- Reads one value; `fuel` bounds the depth and the number of items. -/
def readValue? (fuel : Nat) (s : List Char) : Option (Json × List Char) :=
  match fuel with
  | 0 => none
  | fuel + 1 =>
    match skipSpace s with
    | 'n' :: 'u' :: 'l' :: 'l' :: r => some (.null, r)
    | 't' :: 'r' :: 'u' :: 'e' :: r => some (.bool true, r)
    | 'f' :: 'a' :: 'l' :: 's' :: 'e' :: r => some (.bool false, r)
    | '"' :: r => (readString? r).map fun (t, r) => (.string t, r)
    | '[' :: r =>
      match skipSpace r with
      | ']' :: r => some (.array [], r)
      | r => (readItems? fuel r).map fun (js, r) => (.array js, r)
    | '\x7b' :: r =>
      match skipSpace r with
      | '\x7d' :: r => some (.object [], r)
      | r => (readMembers? fuel r).map fun (ms, r) => (.object ms, r)
    | s => (readNumber? s).map fun r => (.number, r)

/-- Reads the items of an array up to its closing bracket. -/
def readItems? (fuel : Nat) (s : List Char) : Option (List Json × List Char) :=
  match fuel with
  | 0 => none
  | fuel + 1 => do
    let (j, r) ← readValue? fuel s
    match skipSpace r with
    | ',' :: r => (readItems? fuel r).map fun (js, r) => (j :: js, r)
    | ']' :: r => some ([j], r)
    | _ => none

/-- Reads the members of an object up to its closing brace. -/
def readMembers? (fuel : Nat) (s : List Char) :
    Option (List (Option (List Char) × Json) × List Char) :=
  match fuel with
  | 0 => none
  | fuel + 1 =>
    match skipSpace s with
    | '"' :: r => do
      let (k, r) ← readString? r
      match skipSpace r with
      | ':' :: r =>
        let (j, r) ← readValue? fuel r
        match skipSpace r with
        | ',' :: r => (readMembers? fuel r).map fun (ms, r) => ((k, j) :: ms, r)
        | '\x7d' :: r => some ([(k, j)], r)
        | _ => none
      | _ => none
    | _ => none

end

def ofText? (s : List Char) : Option Json := do
  let (j, r) ← readValue? (s.length + 1) s
  if (skipSpace r).isEmpty then some j else none

end LiveLoader.Json
