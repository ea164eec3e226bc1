import EdgePlacement.Text.Hidden

/-!
# Quoted text

A text inside a message stands in single quotes, or in double quotes when it holds a single quote
and no double one. The quote in use, the backslash and every character without a visible form are
escaped.
-/

namespace EdgePlacement.Text

def hexDigit (n : Nat) : Char :=
  if n < 10 then Char.ofNat (0x30 + n) else Char.ofNat (0x61 + (n - 10))

def hexDigits : Nat → Nat → List Char
  | 0, _ => []
  | width + 1, n => hexDigits width (n / 16) ++ [hexDigit (n % 16)]

def escapeLetter (quote c : Char) : List Char :=
  if c = '\\' || c = quote then ['\\', c]
  else if c = '\n' then ['\\', 'n']
  else if c = '\r' then ['\\', 'r']
  else if c = '\t' then ['\\', 't']
  else if isHidden c then
    if c.toNat < 0x100 then ['\\', 'x'] ++ hexDigits 2 c.toNat
    else if c.toNat < 0x10000 then ['\\', 'u'] ++ hexDigits 4 c.toNat
    else ['\\', 'U'] ++ hexDigits 8 c.toNat
  else [c]

def quoteFor (s : List Char) : Char :=
  if s.contains '\'' && !s.contains '"' then '"' else '\''

def quoted (s : String) : String :=
  let quote := quoteFor s.toList
  String.ofList ([quote] ++ s.toList.flatMap (escapeLetter quote) ++ [quote])

def quotedList (items : List String) : String :=
  "[" ++ String.intercalate ", " (items.map quoted) ++ "]"

end EdgePlacement.Text
