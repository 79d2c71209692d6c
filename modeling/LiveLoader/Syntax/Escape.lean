/-!
# Escapes in literals

What the characters between the quotes of a script literal denote. Escapes may write halves of
surrogate pairs; two escapes of four digits that write a pair are put together.
-/

namespace LiveLoader.Syntax

def hexDigit? (c : Char) : Option Nat :=
  let n := c.toNat
  if 48 ≤ n && n ≤ 57 then some (n - 48)
  else if 65 ≤ n && n ≤ 70 then some (n - 55)
  else if 97 ≤ n && n ≤ 102 then some (n - 87)
  else none

def isHexDigit (c : Char) : Bool := (hexDigit? c).isSome

/-- The value of hexadecimal digits; `none` if one is none. -/
def hexValue? (cs : List Char) : Option Nat :=
  cs.foldlM (fun n c => (hexDigit? c).map (n * 16 + ·)) 0

/-- The largest code point. -/
def maxCodePoint : Nat := 0x10FFFF

/-- The code point that hexadecimal digits name. -/
def codePoint? (digits : List Char) : Option Nat := do
  let n ← if digits.isEmpty then none else hexValue? digits
  if n ≤ maxCodePoint then some n else none

def isLineEnd (c : Char) : Bool := c == '\n' || c == '\r' || c == '\u2028' || c == '\u2029'

def isHighHalf (n : Nat) : Bool := 0xD800 ≤ n && n < 0xDC00
def isLowHalf (n : Nat) : Bool := 0xDC00 ≤ n && n < 0xE000

/-- The code point of a high half and the low half behind it. -/
def joinHalves (high low : Nat) : Nat := 0x10000 + (high - 0xD800) * 0x400 + (low - 0xDC00)

/-- Four hexadecimal digits, as `u` has them behind it. -/
def fourHex? : List Char → Option (Nat × List Char)
  | a :: b :: c :: d :: r => (hexValue? [a, b, c, d]).map fun n => (n, r)
  | _ => none

/-- Four hexadecimal digits, and another escape that completes a pair. -/
def plainEscape? (s : List Char) : Option (Nat × List Char) := do
  let (n, r) ← fourHex? s
  match r with
  | '\\' :: 'u' :: r' =>
    match fourHex? r' with
    | some (m, r'') => if isHighHalf n && isLowHalf m then some (joinHalves n m, r'') else some (n, r)
    | none => some (n, r)
  | _ => some (n, r)

/-- The text of code points. Where half of a pair occurs, each such half, and the character U+FFFD,
is written as U+FFFD and four hexadecimal digits. -/
def textOfUnits (us : List Nat) : String :=
  let lossy := us.any fun n => isHighHalf n || isLowHalf n
  String.ofList (us.flatMap fun n =>
    if lossy && (isHighHalf n || isLowHalf n || n == 0xFFFD) then '\uFFFD' :: Nat.toDigits 16 n
    else [Char.ofNat n])

def unitsOfText (s : String) : List Nat := s.toList.map Char.toNat

structure Unescaped where
  units : List Nat
  valid : Bool

def Unescaped.push (ns : List Nat) (u : Unescaped) : Unescaped := ⟨ns ++ u.units, u.valid⟩
def Unescaped.spoil (u : Unescaped) : Unescaped := ⟨u.units, false⟩

def controlEscape? : Char → Option Nat
  | 'n' => some 10 | 't' => some 9 | 'r' => some 13 | 'b' => some 8 | 'v' => some 11
  | 'f' => some 12 | _ => none

def isOctal (c : Char) : Bool := '0' ≤ c && c ≤ '7'

def octalValue (cs : List Char) : Nat := cs.foldl (fun n c => n * 8 + (c.toNat - 48)) 0

/-- Reads escapes up to the end; `octal` says whether a digit may be escaped. -/
def unescapeFrom (octal : Bool) : Nat → List Char → Unescaped
  | 0, _ => ⟨[], true⟩
  | _, [] => ⟨[], true⟩
  | fuel + 1, '\\' :: c :: r =>
    let next := unescapeFrom octal fuel
    match controlEscape? c with
    | some n => (next r).push [n]
    | none =>
      if c = '\r' then next (match r with | '\n' :: r => r | _ => r)
      else if isLineEnd c then next r
      else if c = 'x' then
        match r with
        | a :: b :: r' =>
          match hexValue? [a, b] with
          | some n => (next r').push [n]
          | none => (next r).spoil
        | _ => (next r).spoil
      else if c = 'u' then
        match r with
        | '\x7b' :: r' =>
          let digits := r'.takeWhile isHexDigit
          match r'.drop digits.length, codePoint? digits with
          | '\x7d' :: rest, some n => (next rest).push [n]
          | rest, _ => (next rest).spoil
        | _ =>
          match plainEscape? r with
          | some (n, rest) => (next rest).push [n]
          | none => (next r).spoil
      else if c = '0' && !(r.head?.any Char.isDigit) then (next r).push [0]
      else if c.isDigit then
        if !octal then (next r).spoil
        else if !isOctal c then (next r).push [c.toNat]
        else
          let width := if c ≤ '3' then 2 else 1
          let more := (r.take width).takeWhile isOctal
          (next (r.drop more.length)).push [octalValue (c :: more)]
      else (next r).push [c.toNat]
  | fuel + 1, '\r' :: '\n' :: r => (unescapeFrom octal fuel r).push [10]
  | fuel + 1, '\r' :: r => (unescapeFrom octal fuel r).push [10]
  | fuel + 1, c :: r => (unescapeFrom octal fuel r).push [c.toNat]

/-- What the characters between the quotes denote, and whether all escapes are well formed. -/
def unescape (octal : Bool) (body : List Char) : Unescaped := unescapeFrom octal body.length body

end LiveLoader.Syntax
