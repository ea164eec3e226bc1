/-!
# Blank characters

The characters that count as space at the ends of a cell or a number: the separators of Unicode, the
ASCII layout characters, the four information separators and the next-line control.
-/

namespace EdgePlacement.Text

def isBlank (c : Char) : Bool :=
  let code := c.toNat
  (0x09 ≤ code && code ≤ 0x0d) || (0x1c ≤ code && code ≤ 0x20) || code == 0x85 || code == 0xa0 ||
    code == 0x1680 || (0x2000 ≤ code && code ≤ 0x200a) || code == 0x2028 || code == 0x2029 ||
    code == 0x202f || code == 0x205f || code == 0x3000

def trimStartChars (s : List Char) : List Char :=
  s.dropWhile isBlank

def trimChars (s : List Char) : List Char :=
  (trimStartChars (trimStartChars s).reverse).reverse

def trim (s : String) : String :=
  String.ofList (trimChars s.toList)

end EdgePlacement.Text
