/-!
# Random numbers

The random numbers of a session are a function of its seed, so that a run can be repeated. The
number at a position is the seed, advanced by that many odd steps and mixed.
-/

namespace Pseudocode

/-- Spreads every bit of a word over the whole word. -/
def mixWord (w : UInt64) : UInt64 :=
  let a := (w ^^^ (w >>> 30)) * 0xBF58476D1CE4E5B9
  let b := (a ^^^ (a >>> 27)) * 0x94D049BB133111EB
  b ^^^ (b >>> 31)

/-- The random numbers of a seed. -/
def drawsOf (seed : Nat) (i : Nat) : Nat :=
  (mixWord (seed.toUInt64 + (i + 1).toUInt64 * 0x9E3779B97F4A7C15)).toNat

end Pseudocode
