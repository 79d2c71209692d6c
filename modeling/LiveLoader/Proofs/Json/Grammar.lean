import LiveLoader.Json.Value

/-!
# The grammar of JSON

Which texts are JSON, and what they denote, after RFC 8259: blanks may stand between the parts, the
characters of a string may be escaped in several ways, and a value may have values inside. A string
with half of a surrogate pair is well formed but denotes no text.
-/

namespace LiveLoader.Json

/-- Any number of the four blank characters. -/
def Blank (s : List Char) : Prop := ∀ c ∈ s, c ∈ [' ', '\n', '\t', '\r']

instance : DecidablePred Blank := fun s => List.decidableBAll _ s

/-- What may stand behind a backslash, and the character that it stands for. -/
def shortEscapes : List (Char × Char) :=
  [('"', '"'), ('\\', '\\'), ('/', '/'), ('b', '\x08'), ('f', '\x0c'), ('n', '\n'), ('r', '\r'),
    ('t', '\t')]

/-- A hexadecimal digit of either case, with its value. -/
def HexDigit (d : Char) (n : Nat) : Prop :=
  "0123456789abcdef".toList[n]? = some d ∨ "0123456789ABCDEF".toList[n]? = some d

instance (d : Char) (n : Nat) : Decidable (HexDigit d n) := inferInstanceAs (Decidable (_ ∨ _))

/-- How a number is written in a string: as the character of this number, or escaped. -/
inductive SpellsUnit : Nat → List Char → Prop where
  | plain {c : Char} (printable : 0x20 ≤ c.toNat) (quote : c ≠ '"') (backslash : c ≠ '\\') :
      SpellsUnit c.toNat [c]
  | short {e c : Char} (escape : (e, c) ∈ shortEscapes) : SpellsUnit c.toNat ['\\', e]
  | hex {d₁ d₂ d₃ d₄ : Char} {n₁ n₂ n₃ n₄ : Nat} (first : HexDigit d₁ n₁) (second : HexDigit d₂ n₂)
      (third : HexDigit d₃ n₃) (fourth : HexDigit d₄ n₄) :
      SpellsUnit (0x1000 * n₁ + 0x100 * n₂ + 0x10 * n₃ + n₄) ['\\', 'u', d₁, d₂, d₃, d₄]

/-- What stands between the quotes of a string. -/
inductive SpellsUnits : List Nat → List Char → Prop where
  | nil : SpellsUnits [] []
  | cons {n : Nat} {ns : List Nat} {s t : List Char} (unit : SpellsUnit n s)
      (more : SpellsUnits ns t) : SpellsUnits (n :: ns) (s ++ t)

/-- The text that numbers denote: each is a character, but for surrogate pairs. -/
inductive Denotes : List Nat → List Char → Prop where
  | nil : Denotes [] []
  | single (c : Char) {ns : List Nat} {t : List Char} (more : Denotes ns t) :
      Denotes (c.toNat :: ns) (c :: t)
  | pair {c : Char} {ns : List Nat} {t : List Char} (far : 0x10000 ≤ c.toNat)
      (more : Denotes ns t) :
      Denotes ((0xD800 + (c.toNat - 0x10000) / 0x400) ::
        (0xDC00 + (c.toNat - 0x10000) % 0x400) :: ns) (c :: t)

/-- A string with the text that it denotes, if there is one. -/
inductive SpellsString : Option (List Char) → List Char → Prop where
  | whole {ns : List Nat} {t s : List Char} (body : SpellsUnits ns s) (text : Denotes ns t) :
      SpellsString (some t) ('"' :: (s ++ ['"']))
  | broken {ns : List Nat} {s : List Char} (body : SpellsUnits ns s) (text : ∀ t, ¬ Denotes ns t) :
      SpellsString none ('"' :: (s ++ ['"']))

def Digits (s : List Char) : Prop := s ≠ [] ∧ ∀ c ∈ s, c.isDigit = true

instance : DecidablePred Digits := fun s =>
  @instDecidableAnd (s ≠ []) _ inferInstance (List.decidableBAll _ s)

/-- Digits without a leading zero, or a single zero. -/
inductive SpellsInteger : List Char → Prop where
  | zero : SpellsInteger ['0']
  | digits {c : Char} {s : List Char} (digits : Digits (c :: s)) (leading : c ≠ '0') :
      SpellsInteger (c :: s)

inductive SpellsFraction : List Char → Prop where
  | none : SpellsFraction []
  | some {s : List Char} (digits : Digits s) : SpellsFraction ('.' :: s)

inductive SpellsExponent : List Char → Prop where
  | none : SpellsExponent []
  | some {e : Char} {sign s : List Char} (mark : e = 'e' ∨ e = 'E')
      (signed : sign ∈ [[], ['+'], ['-']]) (digits : Digits s) : SpellsExponent (e :: (sign ++ s))

inductive SpellsNumber : List Char → Prop where
  | mk {sign i f e : List Char} (signed : sign ∈ [[], ['-']]) (integer : SpellsInteger i)
      (fraction : SpellsFraction f) (exponent : SpellsExponent e) :
      SpellsNumber (sign ++ (i ++ (f ++ e)))

/-- A member of an object; the key of some denotes no text. -/
abbrev Member := Option (List Char) × Json

/-- The parts of a text that have others inside. -/
inductive Part where
  | value (j : Json)
  | items (js : List Json)
  | members (ms : List Member)

/-- How a part is written. Items and members are written up to their closing bracket. -/
inductive Spells : Part → List Char → Prop where
  | null : Spells (.value .null) "null".toList
  | true : Spells (.value (.bool true)) "true".toList
  | false : Spells (.value (.bool false)) "false".toList
  | number {s : List Char} (number : SpellsNumber s) : Spells (.value .number) s
  | string {t : Option (List Char)} {s : List Char} (string : SpellsString t s) :
      Spells (.value (.string t)) s
  | emptyArray {b : List Char} (blank : Blank b) : Spells (.value (.array [])) ('[' :: (b ++ [']']))
  | array {js : List Json} {s : List Char} (items : Spells (.items js) s) :
      Spells (.value (.array js)) ('[' :: s)
  | emptyObject {b : List Char} (blank : Blank b) :
      Spells (.value (.object [])) ('\x7b' :: (b ++ ['\x7d']))
  | object {ms : List Member} {s : List Char}
      (members : Spells (.members ms) s) : Spells (.value (.object ms)) ('\x7b' :: s)
  | lastItem {j : Json} {a s b : List Char} (front : Blank a) (item : Spells (.value j) s)
      (back : Blank b) : Spells (.items [j]) (a ++ (s ++ (b ++ [']'])))
  | item {j : Json} {js : List Json} {a s b r : List Char} (front : Blank a)
      (item : Spells (.value j) s) (back : Blank b) (more : Spells (.items js) r) :
      Spells (.items (j :: js)) (a ++ (s ++ (b ++ ',' :: r)))
  | lastMember {k : Option (List Char)} {j : Json} {a q b c s d : List Char} (front : Blank a)
      (key : SpellsString k q) (colon : Blank b) (gap : Blank c) (value : Spells (.value j) s)
      (back : Blank d) :
      Spells (.members [(k, j)]) (a ++ (q ++ (b ++ ':' :: (c ++ (s ++ (d ++ ['\x7d']))))))
  | member {k : Option (List Char)} {j : Json} {ms : List Member}
      {a q b c s d r : List Char} (front : Blank a) (key : SpellsString k q) (colon : Blank b)
      (gap : Blank c) (value : Spells (.value j) s) (back : Blank d)
      (more : Spells (.members ms) r) :
      Spells (.members ((k, j) :: ms)) (a ++ (q ++ (b ++ ':' :: (c ++ (s ++ (d ++ ',' :: r))))))

/-- A text for one value: blanks may stand around it. -/
inductive SpellsText (j : Json) : List Char → Prop where
  | mk {a s b : List Char} (front : Blank a) (value : Spells (.value j) s) (back : Blank b) :
      SpellsText j (a ++ (s ++ b))

end LiveLoader.Json
