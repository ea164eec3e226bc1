/-!
# Seeds as words

A seed of any size is cut into words of 32 bits, the least significant one first.
-/

namespace EdgePlacement.Random

def wordsOf (n : Nat) : List UInt32 :=
  if n = 0 then [] else UInt32.ofNat (n % 4294967296) :: wordsOf (n / 4294967296)
termination_by n

def seedWords (n : Nat) : List UInt32 :=
  if n = 0 then [0] else wordsOf n

end EdgePlacement.Random
