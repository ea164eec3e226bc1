import EdgePlacement.Random.Seed

/-!
# The Mersenne twister

The generator of 32-bit words with 624 words of state, set from a key of words; and whole numbers
below a bound, drawn from as many bits as the bound has and drawn again while they are not below it.
-/

namespace EdgePlacement.Random

structure MersenneTwister where
  words : Array UInt32
  /-- The next word to hand out; at 624 the state is renewed first. -/
  place : Nat

namespace MersenneTwister

def size : Nat := 624

def carry (word : UInt32) : UInt32 :=
  word ^^^ (word >>> 30)

def ofWord (seed : UInt32) : Array UInt32 :=
  (List.range (size - 1)).foldl (fun words i =>
    words.push (1812433253 * carry (words.getD i 0) + UInt32.ofNat (i + 1))) #[seed]

/-- The state while a key is mixed in: the place comes round to one, and the last word is then
copied to the front. -/
structure Mixing where
  words : Array UInt32
  place : Nat

def Mixing.advance (m : Mixing) : Mixing :=
  if m.place + 1 = size then ⟨m.words.setIfInBounds 0 (m.words.getD (size - 1) 0), 1⟩
  else ⟨m.words, m.place + 1⟩

def Mixing.update (m : Mixing) (multiplier offset : UInt32) : Mixing :=
  let mixed :=
    (m.words.getD m.place 0 ^^^ (carry (m.words.getD (m.place - 1) 0) * multiplier)) + offset
  Mixing.advance ⟨m.words.setIfInBounds m.place mixed, m.place⟩

def ofKey (key : Array UInt32) : MersenneTwister :=
  let keyed := (List.range (max size key.size)).foldl (fun m i =>
    let j := i % key.size
    m.update 1664525 (key.getD j 0 + UInt32.ofNat j)) (⟨ofWord 19650218, 1⟩ : Mixing)
  let settled := (List.range (size - 1)).foldl (fun m _ =>
    m.update 1566083941 (0 - UInt32.ofNat m.place)) keyed
  ⟨settled.words.setIfInBounds 0 0x80000000, size⟩

/-- The sign of a seed is ignored. -/
def ofSeed (seed : Int) : MersenneTwister :=
  ofKey (seedWords seed.natAbs).toArray

def twist (high low : UInt32) : UInt32 :=
  let joined := (high &&& 0x80000000) ||| (low &&& 0x7fffffff)
  (joined >>> 1) ^^^ (if joined &&& 1 = 1 then 0x9908b0df else 0)

def renew (words : Array UInt32) : Array UInt32 :=
  (List.range size).foldl (fun words i =>
    let next := words.getD ((i + 1) % size) 0
    let far := words.getD ((i + 397) % size) 0
    words.setIfInBounds i (far ^^^ twist (words.getD i 0) next)) words

def temper (word : UInt32) : UInt32 :=
  let word := word ^^^ (word >>> 11)
  let word := word ^^^ ((word <<< 7) &&& 0x9d2c5680)
  let word := word ^^^ ((word <<< 15) &&& 0xefc60000)
  word ^^^ (word >>> 18)

def next (g : MersenneTwister) : UInt32 × MersenneTwister :=
  if g.place < size then (temper (g.words.getD g.place 0), { g with place := g.place + 1 })
  else
    let words := renew g.words
    (temper (words.getD 0 0), ⟨words, 1⟩)

/-- A number of `count` bits: whole words from the least significant one on, the last cut to the
bits that are left by dropping its lower ones. -/
def bits : Nat → MersenneTwister → Nat × MersenneTwister
  | count, g =>
    let (word, g) := g.next
    if _ : count ≤ 32 then (word.toNat / Nat.pow 2 (32 - count), g)
    else
      let (rest, g) := bits (count - 32) g
      (word.toNat + Nat.pow 2 32 * rest, g)
termination_by count => count

def below? (bound : Nat) : Nat → MersenneTwister → Option (Nat × MersenneTwister)
  | 0, _ => none
  | fuel + 1, g =>
    let (drawn, g) := g.bits (Nat.log2 bound + 1)
    if drawn < bound then some (drawn, g) else below? bound fuel g

end MersenneTwister
end EdgePlacement.Random
