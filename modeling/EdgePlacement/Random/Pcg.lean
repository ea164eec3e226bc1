import EdgePlacement.Random.Seed

/-!
# A permuted congruential generator

A seed is hashed into a pool of four words, the pool into eight words, and these set the state and
the increment of a linear congruential generator on 128 bits. Each draw takes one step and folds the
new state to 64 bits, rotated by its highest six bits; its upper 53 bits make a number in the unit
interval.
-/

namespace EdgePlacement.Random

structure Hasher where
  constant : UInt32
  multiplier : UInt32

def Hasher.hash (hasher : Hasher) (word : UInt32) : UInt32 × Hasher :=
  let constant := hasher.constant * hasher.multiplier
  let mixed := (word ^^^ hasher.constant) * constant
  (mixed ^^^ (mixed >>> 16), { hasher with constant })

def poolHasher : Hasher := ⟨0x43b0d7e5, 0x931e8875⟩

def stateHasher : Hasher := ⟨0x8b51f9dd, 0x58f38ded⟩

def mixWords (x y : UInt32) : UInt32 :=
  let mixed := x * 0xca01f9dd - y * 0x4973f715
  mixed ^^^ (mixed >>> 16)

structure SeedPool where
  words : Array UInt32
  hasher : Hasher

namespace SeedPool

def word (pool : SeedPool) (i : Nat) : UInt32 :=
  pool.words.getD i 0

def append (pool : SeedPool) (entropy : UInt32) : SeedPool :=
  let (hashed, hasher) := pool.hasher.hash entropy
  ⟨pool.words.push hashed, hasher⟩

def stir (pool : SeedPool) (entropy : UInt32) (place : Nat) : SeedPool :=
  let (hashed, hasher) := pool.hasher.hash entropy
  ⟨pool.words.setIfInBounds place (mixWords (pool.word place) hashed), hasher⟩

def stirAll (pool : SeedPool) : SeedPool :=
  (List.range 4).foldl (fun pool i =>
    (List.range 4).foldl (fun pool j =>
      if i = j then pool else pool.stir (pool.word i) j) pool) pool

/-- The first four words of the seed fill the pool, missing ones being zero; further words are mixed
into all its places. -/
def ofSeed (seed : Nat) : SeedPool :=
  let entropy := seedWords seed
  let filled := (List.range 4).foldl (fun pool i => pool.append (entropy.getD i 0))
    (⟨#[], poolHasher⟩ : SeedPool)
  (entropy.drop 4).foldl (fun pool extra =>
    (List.range 4).foldl (fun pool j => pool.stir extra j) pool) filled.stirAll

def stateWords (pool : SeedPool) : List UInt32 :=
  ((List.range 8).foldl (fun (words, hasher) i =>
    let (hashed, hasher) := Hasher.hash hasher (pool.word (i % 4))
    (words ++ [hashed], hasher)) (([] : List UInt32), stateHasher)).1

end SeedPool

structure Pcg where
  state : BitVec 128
  increment : BitVec 128

namespace Pcg

def multiplier : BitVec 128 := BitVec.ofNat 128 0x2360ed051fc65da44385df649fccf645

def step (g : Pcg) : Pcg :=
  { g with state := g.state * multiplier + g.increment }

/-- Two pairs of words, the lower word of each pair first, and the higher pair first. -/
def wide (words : List UInt32) (i : Nat) : BitVec 128 :=
  let word (j : Nat) : Nat := (words.getD j 0).toNat
  BitVec.ofNat 128
    ((word i + Nat.pow 2 32 * word (i + 1)) * Nat.pow 2 64 +
      (word (i + 2) + Nat.pow 2 32 * word (i + 3)))

def ofSeed (seed : Nat) : Pcg :=
  let words := (SeedPool.ofSeed seed).stateWords
  let started := step ⟨0, 2 * wide words 4 + 1⟩
  step { started with state := started.state + wide words 0 }

def output (state : BitVec 128) : BitVec 64 :=
  let folded := (state >>> 64).setWidth 64 ^^^ state.setWidth 64
  folded.rotateRight (state >>> 122).toNat

def next (g : Pcg) : BitVec 64 × Pcg :=
  let g := g.step
  (output g.state, g)

def unit (g : Pcg) : Float × Pcg :=
  let (bits, g) := g.next
  (Float.ofNat (bits >>> 11).toNat / 9007199254740992, g)

end Pcg
end EdgePlacement.Random
