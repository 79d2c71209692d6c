import LiveLoader.Text.Hidden

/-!
# Shown texts

How a text is shown in descriptions of values: between double quotes, with escapes for what would
not be seen.
-/

namespace LiveLoader.Text.Shown

def escapeChar (c : Char) : List Char :=
  if c = '"' then ['\\', '"']
  else if c = '\\' then ['\\', '\\']
  else if c = '\n' then ['\\', 'n']
  else if c = '\r' then ['\\', 'r']
  else if c = '\t' then ['\\', 't']
  else if c.toNat = 0 then ['\\', '0']
  else if isHidden c then
    ['\\', 'u', Char.ofNat 0x7B] ++ Nat.toDigits 16 c.toNat ++ [Char.ofNat 0x7D]
  else [c]

/-- A text between quotes. -/
def text (s : List Char) : List Char := '"' :: s.flatMap escapeChar ++ ['"']

def list (items : List (List Char)) : List Char :=
  '[' :: (items.intersperse [',', ' ']).flatten ++ [']']

end LiveLoader.Text.Shown
