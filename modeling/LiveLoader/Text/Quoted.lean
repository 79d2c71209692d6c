/-!
# Single-quoted script literals

`escape` writes a text so that it can stand between single quotes, and `encode` adds the quotes. What
would end the literal, or begin an escape, is written with a backslash in front.
-/

namespace LiveLoader.Text.Quoted

/-- A backslash, a quote, a line feed and a carriage return are written with a backslash. -/
def escape : List Char → List Char
  | [] => []
  | c :: r =>
    if c = '\\' then '\\' :: '\\' :: escape r
    else if c = '\'' then '\\' :: '\'' :: escape r
    else if c = '\n' then '\\' :: 'n' :: escape r
    else if c = '\r' then '\\' :: 'r' :: escape r
    else c :: escape r

def encode (s : List Char) : List Char := '\'' :: escape s ++ ['\'']

end LiveLoader.Text.Quoted
