import DampedLeastSquares.Call

/-!
# A generator of pseudo-random numbers

A linear congruential sequence of 128 bit words. Each word gives 64 bits of
output: its halves are combined and rotated by its highest bits.
-/

set_option autoImplicit false

namespace DampedLeastSquares

/-- The word a generator is at. -/
structure Generator where
  word : BitVec 128

namespace Generator

def multiplier : BitVec 128 := 0x2360ed051fc65da44385df649fccf645#128

/-- The increment of the sequence, which selects one of many. -/
def increment : BitVec 128 := 86625949289666656544807559270110712949#128

def initial : Generator := ⟨170740881631534979674546372191819977557#128⟩

def advance (generator : Generator) : Generator :=
  ⟨generator.word * multiplier + increment⟩

/-- The output of a word: the exclusive or of both halves, rotated to the right by
the six highest bits. -/
def output (generator : Generator) : BitVec 64 :=
  let halves := (generator.word >>> 64).setWidth 64 ^^^ generator.word.setWidth 64
  halves.rotateRight (generator.word >>> 122).toNat

def bits : StateM Generator Nat := do
  modify advance
  return (← get).output.toNat

/-- The next number between zero and one, one excluded: a multiple of two to the
power of -53. -/
def unit : StateM Generator Float := do
  let drawn ← bits
  return Float.ofNat (drawn >>> 11) / 9007199254740992.0

end Generator

end DampedLeastSquares
