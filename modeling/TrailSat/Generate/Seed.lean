import TrailSat.Generate.Draws

/-!
# Words from a seed

The command that writes a bucket is given a generator for each seed (`Command.Generate.report`), and
nothing is assumed of it.  When the command is started by a user, the generator is a stream of random
words that is made here.  It stands in for the generator of a numerical library, whose numbers it
does not reproduce.

The word with a given index depends on the seed and the index alone: a counter that starts at the
seed takes equal odd steps, and its bits are mixed by two rounds of shifting and multiplying.
-/

namespace TrailSat.Generate

/-- The step of the counter. -/
def counterStep : UInt64 := 0x9E3779B97F4A7C15

/-- Mixes the bits of a counter. -/
def mixBits (counter : UInt64) : UInt64 :=
  let once := (counter ^^^ (counter >>> 30)) * 0xBF58476D1CE4E5B9
  let twice := (once ^^^ (once >>> 27)) * 0x94D049BB133111EB
  twice ^^^ (twice >>> 31)

/-- The random words that belong to a seed. -/
def Draws.ofSeed (seed : Int) : Draws where
  words := fun index =>
    let start := (seed % 0x10000000000000000).toNat.toUInt64
    (mixBits (start + (index + 1).toUInt64 * counterStep) >>> 32).toUInt32

end TrailSat.Generate
