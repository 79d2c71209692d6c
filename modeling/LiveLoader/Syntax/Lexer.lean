import LiveLoader.Number.Binary
import LiveLoader.Syntax.Escape
import LiveLoader.Syntax.Token
import LiveLoader.Text.Blank
import LiveLoader.Text.Identifier

/-!
# Lexer

Each function reads one lexical class from the front of the source and returns what follows it.
Positions count characters.
-/

namespace LiveLoader.Syntax

open Text

def isScriptBlank (c : Char) : Bool :=
  let n := c.toNat
  n == 9 || n == 11 || n == 12 || n == 0x20 || n == 0x85 || n == 0xA0 || n == 0xFEFF || n == 0x1680
    || (0x2000 ≤ n && n ≤ 0x200B) || n == 0x202F || n == 0x205F || n == 0x3000

/-- What is known of the blanks and comments before a token. -/
structure Trivia where
  newline : Bool
  plainNewline : Bool
  /-- The comments, last first, and whether each belongs to the coming token. -/
  comments : List (Comment × Bool) := []
  markedPure : Bool := false
  markedFree : Bool := false

def Trivia.start (newline : Bool) : Trivia := { newline, plainNewline := newline }

def Trivia.detach (t : Trivia) : Trivia :=
  { t with comments := t.comments.map fun (c, _) => (c, false) }

/-- A comment whose line ends before the token, on the line of the previous token, belongs to
neither. -/
def Trivia.endLine (t : Trivia) : Trivia :=
  let t :=
    if t.plainNewline then
      { t with
        comments := t.comments.modifyHead fun (c, belongs) => ({ c with newlineAfter := true }, belongs) }
    else t.detach
  { t with newline := true, plainNewline := true }

def Trivia.commentsAt (t : Trivia) (place : Nat) : List Comment :=
  t.comments.map fun (c, belongs) => { c with attachedTo := if belongs then some place else none }

def blockComment? : List Char → Option (List Char × List Char)
  | [] => none
  | '*' :: '/' :: r => some (['*', '/'], r)
  | c :: r => (blockComment? r).map fun (a, b) => (c :: a, b)

def commentMark (body : List Char) : List Char := body.dropWhile isBlank

def marksPure (body : List Char) : Bool :=
  let s := commentMark body
  "@__PURE__".toList.isPrefixOf s || "#__PURE__".toList.isPrefixOf s

def marksFree (body : List Char) : Bool :=
  let s := commentMark body
  "@__NO_SIDE_EFFECTS__".toList.isPrefixOf s || "#__NO_SIDE_EFFECTS__".toList.isPrefixOf s

/-- Adds a comment; one that only marks the coming token does not belong to it. -/
def Trivia.addComment (t : Trivia) (c : Comment) (body : List Char) : Trivia :=
  let c := { c with newlineBefore := t.plainNewline }
  let pure := marksPure body
  let free := marksFree body
  { t with
    comments := (c, !(pure || free)) :: t.comments
    markedPure := t.markedPure || pure
    markedFree := t.markedFree || free }

/-- Skips blanks and comments from position `pos`; `sticky` says that a line comment may follow the
last token and still belong to the coming one. Fails on a comment that is not closed. -/
def skipTrivia (sticky : Bool) : Nat → Trivia → List Char → Nat → Option (Trivia × List Char × Nat)
  | 0, t, s, pos => some (t, s, pos)
  | fuel + 1, t, s, pos =>
    match s with
    | '/' :: '/' :: r =>
      let body := r.takeWhile (!isLineEnd ·)
      let after := r.drop body.length
      let c : Comment := ⟨String.ofList ('/' :: '/' :: body), none, true, false, true⟩
      let trailing := !t.plainNewline && !sticky
      let t := t.addComment c body
      let t := { if trailing then t.detach else t with newline := true, plainNewline := true }
      match after with
      | _ :: after => skipTrivia sticky fuel t after (pos + 2 + body.length + 1)
      | [] => some (t, [], pos + 2 + body.length)
    | '/' :: '*' :: r =>
      match blockComment? r with
      | none => none
      | some (body, after) =>
        let c : Comment := ⟨String.ofList ('/' :: '*' :: body), none, false, false, false⟩
        let t := t.addComment c body
        let t := { t with newline := t.newline || body.any isLineEnd }
        skipTrivia sticky fuel t after (pos + 2 + body.length)
    | c :: r =>
      if isLineEnd c then skipTrivia sticky fuel t.endLine r (pos + 1)
      else if isScriptBlank c then skipTrivia sticky fuel t r (pos + 1)
      else some (t, s, pos)
    | [] => some (t, s, pos)

/-- One character of a word, perhaps written as an escape. -/
def wordChar? (accept : Char → Bool) : List Char → Option (Char × Bool × List Char)
  | '\\' :: 'u' :: '\x7b' :: r =>
    let digits := r.takeWhile isHexDigit
    match r.drop digits.length, codePoint? digits with
    | '\x7d' :: rest, some n =>
      if accept (Char.ofNat n) then some (Char.ofNat n, true, rest) else none
    | _, _ => none
  | '\\' :: 'u' :: a :: b :: c :: d :: r => do
    let n ← hexValue? [a, b, c, d]
    if accept (Char.ofNat n) then some (Char.ofNat n, true, r) else none
  | c :: r => if accept c then some (c, false, r) else none
  | [] => none

def wordRest : Nat → List Char → List Char × Bool × List Char
  | 0, s => ([], false, s)
  | fuel + 1, s =>
    match wordChar? isIdentifierPart s with
    | none => ([], false, s)
    | some (c, e, r) =>
      let (cs, e', r) := wordRest fuel r
      (c :: cs, e || e', r)

def word? (s : List Char) : Option (String × Bool × List Char) := do
  let (c, e, r) ← wordChar? isIdentifierStart s
  let (cs, e', r) := wordRest r.length r
  return (String.ofList (c :: cs), e || e', r)

/-- Digits with single separators between them. -/
def separated (accept : Char → Bool) : List Char → List Char × List Char
  | '_' :: c :: r =>
    if accept c then
      let (ds, rest) := separated accept r
      (c :: ds, rest)
    else ([], '_' :: c :: r)
  | c :: r =>
    if accept c then
      let (ds, rest) := separated accept r
      (c :: ds, rest)
    else ([], c :: r)
  | [] => ([], [])

def digitRun (accept : Char → Bool) (s : List Char) : List Char × List Char :=
  match s with
  | '_' :: _ => ([], s)
  | _ => separated accept s

def natOf (base : Nat) (ds : List Char) : Nat :=
  ds.foldl (fun n c => n * base + (hexDigit? c).getD 0) 0

/-- `digits · 10 ^ exponent` as a double; beyond the range of doubles the exponent does not
matter. -/
def decimalValue (digits : Nat) (exponent : Int) : Float :=
  if digits = 0 then 0.0
  else
    let bound : Int := 400 + digits.log2
    if exponent < 0 then Float.ofScientific digits true (min (-exponent) bound).toNat
    else Float.ofScientific digits false (min exponent bound).toNat

def exponent? (s : List Char) : Option (Int × List Char) :=
  let (negative, s) := match s with
    | '-' :: r => (true, r)
    | '+' :: r => (false, r)
    | _ => (false, s)
  let (ds, rest) := digitRun Char.isDigit s
  if ds.isEmpty then none
  else
    let n := natOf 10 (ds.take 9)
    some (if negative then -(n : Int) else n, rest)

def closesNumber (s : List Char) : Bool :=
  match s with
  | c :: _ => !(isIdentifierStart c || c.isDigit || c == '\\')
  | [] => true

/-- A whole number in the base that its mark names, perhaps of any size. -/
def radixNumber (base : Nat) (accept : Char → Bool) (s : List Char) : Lexeme × List Char :=
  let (ds, rest) := digitRun accept s
  if ds.isEmpty then (.invalid, s)
  else match rest with
    | 'n' :: rest => (.bigInt (natOf base ds), rest)
    | _ => (.number (Float.ofNat (natOf base ds)), rest)

def decimalNumber (ds : List Char) (s : List Char) : Lexeme × List Char :=
  let (fraction, s) := match s with
    | '.' :: r => digitRun Char.isDigit r
    | _ => ([], s)
  let digits := natOf 10 (ds ++ fraction)
  let shift : Int := -fraction.length
  match s with
  | e :: r =>
    if e = 'e' || e = 'E' then
      match exponent? r with
      | some (n, rest) => (.number (decimalValue digits (n + shift)), rest)
      | none => (.invalid, r)
    else (.number (decimalValue digits shift), s)
  | [] => (.number (decimalValue digits shift), [])

def isBinary (c : Char) : Bool := c == '0' || c == '1'

def number (s : List Char) : Lexeme × List Char :=
  let (lexeme, rest) := match s with
    | '0' :: x :: r =>
      if x = 'x' || x = 'X' then radixNumber 16 isHexDigit r
      else if x = 'o' || x = 'O' then radixNumber 8 isOctal r
      else if x = 'b' || x = 'B' then radixNumber 2 isBinary r
      else if x.isDigit then
        let ds := (x :: r).takeWhile Char.isDigit
        let rest := (x :: r).drop ds.length
        if ds.all isOctal then (.number (Float.ofNat (natOf 8 ds)), rest)
        else decimalNumber ds rest
      else if x = 'n' then (.bigInt 0, r)
      else decimalNumber ['0'] (x :: r)
    | _ =>
      let (ds, rest) := digitRun Char.isDigit s
      match rest with
      | 'n' :: r => (.bigInt (natOf 10 ds), r)
      | _ => decimalNumber ds rest
  if closesNumber rest then (lexeme, rest) else (.invalid, rest)

/-- The characters up to the closing quote on the same line. -/
def quotedBody? (quote : Char) : List Char → Option (List Char × List Char)
  | [] => none
  | '\\' :: '\r' :: '\n' :: r =>
    (quotedBody? quote r).map fun (a, b) => ('\\' :: '\r' :: '\n' :: a, b)
  | '\\' :: c :: r => (quotedBody? quote r).map fun (a, b) => ('\\' :: c :: a, b)
  | c :: r =>
    if c = quote then some ([], r)
    else if c = '\n' || c = '\r' then none
    else (quotedBody? quote r).map fun (a, b) => (c :: a, b)

/-- The characters of a template up to a substitution or the end, and whether it is the end. -/
def templateBody? : List Char → Option (List Char × Bool × List Char)
  | [] => none
  | '\x60' :: r => some ([], true, r)
  | '$' :: '\x7b' :: r => some ([], false, r)
  | '\\' :: c :: r => (templateBody? r).map fun (a, b) => ('\\' :: c :: a, b)
  | c :: r => (templateBody? r).map fun (a, b) => (c :: a, b)

/-- Line ends in a template are line feeds. -/
def plainLines : List Char → List Char
  | '\r' :: '\n' :: r => '\n' :: plainLines r
  | '\r' :: r => '\n' :: plainLines r
  | c :: r => c :: plainLines r
  | [] => []

def templatePiece? (s : List Char) : Option (Lexeme × Bool × List Char) := do
  let (body, isLast, rest) ← templateBody? s
  let u := unescape false body
  let part := ⟨String.ofList (plainLines body), if u.valid then some u.units else none⟩
  return (.template part isLast, u.valid, rest)

/-- The pattern of a regular expression up to its closing slash; `inClass` inside brackets. -/
def regexBody? (inClass : Bool) : List Char → Option (List Char × List Char)
  | [] => none
  | '\\' :: c :: r =>
    if isLineEnd c then none else (regexBody? inClass r).map fun (a, b) => ('\\' :: c :: a, b)
  | c :: r =>
    if isLineEnd c then none
    else if c = '/' && !inClass then some ([], r)
    else
      let inClass := if c = '[' then true else if c = ']' then false else inClass
      (regexBody? inClass r).map fun (a, b) => (c :: a, b)

def goodFlags (fs : List Char) : Bool :=
  fs.all ("gimsuydv".toList.contains ·) && fs.eraseDups.length == fs.length

def orderedFlags (fs : List Char) : List Char := "dgimsuvy".toList.filter fs.contains

def regex? (s : List Char) : Option (Lexeme × Bool × List Char) :=
  match s with
  | '/' :: r => do
    let (pattern, rest) ← regexBody? false r
    let flags := rest.takeWhile isIdentifierPart
    return (.regex (String.ofList pattern) (String.ofList (orderedFlags flags)), goodFlags flags,
      rest.drop flags.length)
  | _ => none

/-- All marks, longer ones before their beginnings. A closing angle is always one mark. -/
def marks : List String :=
  ["...", "===", "!==", "**=", "<<=", "&&=", "||=", "??=",
    "=>", "==", "!=", "<=", "<<", "+=", "-=", "*=", "/=", "%=", "**", "++", "--", "&=", "|=", "^=",
    "&&", "||", "??", "?.",
    "\x7b", "\x7d", "(", ")", "[", "]", ";", ",", "<", ">", "+", "-", "*", "/", "%", "&", "|", "^",
    "!", "~", "?", ":", "=", ".", "@"]

def markLists : List (String × List Char) := marks.map fun m => (m, m.toList)

/-- The longest mark at the front; `?.` before a digit is a question mark. -/
def mark? (s : List Char) : Option (String × List Char) :=
  match s with
  | '?' :: '.' :: d :: r => if d.isDigit then some ("?", '.' :: d :: r) else some ("?.", d :: r)
  | _ => (markLists.find? fun m => m.2.isPrefixOf s).map fun m => (m.1, s.drop m.2.length)

/-- The marks that begin with a closing angle, longest first. -/
def angleMarks : List String := [">>>=", ">>>", ">>=", ">>", ">="]

/-- Joins closing angles to an operator where one is expected. -/
def joinAngles (s : List Char) : String × List Char :=
  match angleMarks.find? fun m => m.toList.isPrefixOf s with
  | some m => (m, s.drop m.length)
  | none => (">", s.drop 1)

/-- One lexeme at the front of a text without blanks before it: whether it is well formed, and what
follows. -/
def lexeme (s : List Char) : Lexeme × Bool × List Char :=
  match s with
  | [] => (.eof, true, [])
  | '#' :: r =>
    match word? r with
    | some (w, _, rest) => (.privateWord w, true, rest)
    | none => (.invalid, true, r)
  | '\x60' :: r => (templatePiece? r).getD (.invalid, true, r)
  | '.' :: d :: r =>
    if d.isDigit then
      let (l, rest) := decimalNumber [] s
      if closesNumber rest then (l, true, rest) else (.invalid, true, rest)
    else match mark? s with
      | some (m, rest) => (.mark m, true, rest)
      | none => (.invalid, true, d :: r)
  | c :: r =>
    if c = '"' || c = '\'' then
      match quotedBody? c r with
      | some (body, rest) =>
        let u := unescape true body
        (.string u.units, u.valid, rest)
      | none => (.invalid, true, r)
    else if c.isDigit then
      let (l, rest) := number s
      (l, true, rest)
    else match word? s with
      | some (w, e, rest) => (.word w e, true, rest)
      | none =>
        match mark? s with
        | some (m, rest) => (.mark m, true, rest)
        | none => (.invalid, true, r)

def endsMarkupText (c : Char) : Bool := c == '\x7b' || c == '\x7d' || c == '<' || c == '>'

/-- A text between tags, an opening brace or an opening angle. A text must end at one of these. -/
def markupChild (s : List Char) : Lexeme × Bool × List Char :=
  match s with
  | [] => (.eof, true, [])
  | '<' :: r => (.mark "<", true, r)
  | '\x7b' :: r => (.mark "\x7b", true, r)
  | s =>
    let text := s.takeWhile (!endsMarkupText ·)
    match s.drop text.length with
    | '<' :: r => (.jsxText (String.ofList text), true, '<' :: r)
    | '\x7b' :: r => (.jsxText (String.ofList text), true, '\x7b' :: r)
    | r => (.invalid, true, r)

/-- The value of an attribute: quoted characters without escapes, or any other lexeme. -/
def markupValue (s : List Char) : Lexeme × Bool × List Char :=
  match s with
  | c :: r =>
    if c = '"' || c = '\'' then
      let text := r.takeWhile (· ≠ c)
      match r.drop text.length with
      | _ :: rest => (.jsxText (String.ofList text), true, rest)
      | [] => (.invalid, true, [])
    else lexeme s
  | [] => lexeme s

def isMarkupNamePart (c : Char) : Bool := isIdentifierPart c || c == '-'

/-- A name in a tag may have hyphens. -/
def markupName (s : List Char) : Lexeme × Bool × List Char :=
  let name := s.takeWhile isMarkupNamePart
  (.word (String.ofList name) false, true, s.drop name.length)

end LiveLoader.Syntax
