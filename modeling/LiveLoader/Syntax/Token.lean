import LiveLoader.Syntax.Node

/-!
# Tokens

A token is a word, a mark or a literal with its place in the source. Whether a slash begins a
regular expression, and where text between tags ends, depends on the grammar, so tokens are taken
from the source one at a time.
-/

namespace LiveLoader.Syntax

inductive Lexeme where
  | eof
  /-- A name or keyword, perhaps written with an escape. -/
  | word (text : String) (escaped : Bool)
  | privateWord (text : String)
  | mark (text : String)
  | number (value : Float)
  | bigInt (value : Nat)
  | string (units : List Nat)
  /-- A piece of a template; the last one closes it. -/
  | template (part : TemplatePart) (isLast : Bool)
  | regex (pattern : String) (flags : String)
  | jsxText (raw : String)
  | invalid
  deriving Repr, Inhabited

structure Token where
  lexeme : Lexeme
  span : Span
  newlineBefore : Bool
  /-- A comment right before it says that the call it begins has no effect. -/
  markedPure : Bool
  /-- A comment right before it says that calls of the function it begins have no effect. -/
  markedFree : Bool
  deriving Repr, Inhabited

def literalWords : List String := ["true", "false", "null"]

/-- Words that cannot name a variable anywhere. -/
def reservedWords : List String :=
  literalWords ++
  ["break", "case", "catch", "class", "const", "continue", "debugger", "default", "delete", "do",
    "else", "enum", "export", "extends", "finally", "for", "function", "if", "import", "in",
    "instanceof", "new", "return", "super", "switch", "this", "throw", "try", "typeof", "var", "void",
    "while", "with"]

/-- Words that can name a variable only outside of some functions. -/
def halfReservedWords : List String := ["await", "yield"]

/-- Words that can name a variable outside of strict code. -/
def strictWords : List String :=
  ["implements", "interface", "let", "package", "private", "protected", "public", "static"]

/-- Words with a meaning in some places. -/
def contextualWords : List String :=
  ["async", "from", "get", "meta", "of", "set", "target", "accessor", "source", "defer", "abstract",
    "as", "asserts", "assert", "any", "boolean", "constructor", "declare", "infer", "intrinsic", "is",
    "keyof", "module", "namespace", "never", "out", "readonly", "require", "number", "object",
    "satisfies", "string", "symbol", "type", "undefined", "unique", "using", "unknown", "global",
    "bigint", "override"]

def isKeyword (w : String) : Bool :=
  w ∈ reservedWords || w ∈ halfReservedWords || w ∈ strictWords || w ∈ contextualWords

namespace Token

def isMark (t : Token) (s : String) : Bool :=
  match t.lexeme with | .mark m => m == s | _ => false

def isWord (t : Token) (s : String) : Bool :=
  match t.lexeme with | .word w _ => w == s | _ => false

def word? (t : Token) : Option String :=
  match t.lexeme with | .word w _ => some w | _ => none

def isAnyWord (t : Token) : Bool := t.word?.isSome

/-- A word that can name a variable, at least in some places. -/
def name? (t : Token) : Option String :=
  match t.lexeme with
  | .word w _ => if w ∈ reservedWords then none else some w
  | _ => none

def isName (t : Token) : Bool := t.name?.isSome

/-- A word that can name a variable in any function. -/
def isPlainName (t : Token) : Bool := t.name?.any fun w => !(w ∈ halfReservedWords)

/-- A keyword that is written with an escape. -/
def isDisguised (t : Token) : Bool :=
  match t.lexeme with | .word w true => isKeyword w | _ => false

def isEscaped (t : Token) : Bool :=
  match t.lexeme with | .word _ e => e | _ => false

def isNumber (t : Token) : Bool :=
  match t.lexeme with | .number _ | .bigInt _ => true | _ => false

def isTemplate (t : Token) : Bool :=
  match t.lexeme with | .template .. => true | _ => false

def isEof (t : Token) : Bool := match t.lexeme with | .eof => true | _ => false

def isString (t : Token) : Bool := match t.lexeme with | .string _ => true | _ => false

/-- A number, a string, a regular expression or a word that names a value. -/
def isLiteral (t : Token) : Bool :=
  match t.lexeme with
  | .number _ | .bigInt _ | .string _ | .regex .. => true
  | .word w _ => w ∈ literalWords
  | _ => false

end Token

end LiveLoader.Syntax
