/-!
# The order of names

Names are ordered by their code points, first difference first; a name that another one continues
comes before it.
-/

namespace EdgePlacement.Text

def codesPrecede : List Char → List Char → Bool
  | _, [] => false
  | [], _ :: _ => true
  | a :: rest, b :: rest' =>
    if a.toNat = b.toNat then codesPrecede rest rest' else a.toNat < b.toNat

def namePrecedes (a b : String) : Bool :=
  codesPrecede a.toList b.toList

def sortNames (names : List String) : List String :=
  names.mergeSort fun a b => !namePrecedes b a

end EdgePlacement.Text
