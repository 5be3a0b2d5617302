import DiceNotation.Dice

/-!
# The Mersenne Twister

MT19937 keeps 624 words of 32 bits.  When they are used up it twists them all into new ones, and
each word it hands out is tempered first.  A float in `[0, 1)` is made of two words: the top 27
bits of the first and the top 26 bits of the second give 53 bits, divided by `2^53`, so every
such float is exact.

A whole-number seed is taken without its sign and cut into 32-bit key words, least significant
first (zero gives the one key word `0`).  The key is mixed into the words that the fixed seed
`19650218` spreads out, in two passes, and the first word is set to `2^31` so that the state is
never all zero.
-/

namespace DiceNotation

/-- The state of the generator: its 624 words and the index of the next word to hand out; an
index of 624 or more asks for a twist first. -/
structure Twister where
  words : Array UInt32
  index : Nat

namespace Twister

/-- Number of words in the state. -/
def size : Nat := 624

/-- Distance between the two words a twist combines with a third. -/
def middle : Nat := 397

/-- The word at index `i`, counted around the state. -/
def wordAt (mt : Array UInt32) (i : Nat) : UInt32 := mt.getD (i % size) 0

/-- The words spread out from one 32-bit seed: each is `1812433253` times the previous one
mixed with its top bits, plus its index. -/
def spread (s : UInt32) : Array UInt32 :=
  ((List.range (size - 1)).foldl (fun (acc : Array UInt32 × UInt32) i =>
    let w := (1812433253 : UInt32) * (acc.2 ^^^ (acc.2 >>> 30)) + (i + 1).toUInt32
    (acc.1.push w, w)) (#[s], s)).1

/-- One step of a mixing pass: the word at `i` is mixed with the one before it by the
multiplier `c` and then offset by `add`; past the last word the pass starts again at index 1,
with the last word copied to the front. -/
def mixStep (c : UInt32) (mt : Array UInt32) (i : Nat) (add : UInt32) : Array UInt32 × Nat :=
  let prev := wordAt mt (i - 1)
  let mt := mt.setIfInBounds i ((wordAt mt i ^^^ ((prev ^^^ (prev >>> 30)) * c)) + add)
  if i + 1 ≥ size then (mt.setIfInBounds 0 (wordAt mt (size - 1)), 1) else (mt, i + 1)

/-- The first mixing pass: `k` steps that add the key words, cycling through the key, and the
place of each step in the key. -/
def mixKey (key : Array UInt32) : Nat → Array UInt32 → Nat → Nat → Array UInt32 × Nat
  | 0, mt, i, _ => (mt, i)
  | k + 1, mt, i, j =>
    let (mt, i) := mixStep 1664525 mt i (key.getD j 0 + j.toUInt32)
    mixKey key k mt i (if j + 1 ≥ key.size then 0 else j + 1)

/-- The second mixing pass: `k` steps that subtract the index. -/
def mixIndex : Nat → Array UInt32 → Nat → Array UInt32
  | 0, mt, _ => mt
  | k + 1, mt, i =>
    let (mt, i') := mixStep 1566083941 mt i (0 - i.toUInt32)
    mixIndex k mt i'

/-- A generator seeded with key words, to be twisted before its first word. -/
def ofKey (key : Array UInt32) : Twister :=
  let (mt, i) := mixKey key (max size key.size) (spread 19650218) 1 0
  ⟨(mixIndex (size - 1) mt i).setIfInBounds 0 0x80000000, size⟩

/-- The 32-bit words of `n`, least significant first; zero has the one word `0`. -/
def keyWords (n : Nat) : List UInt32 :=
  if h : n < 4294967296 then [n.toUInt32]
  else n.toUInt32 :: keyWords (n / 4294967296)
decreasing_by omega

/-- A generator seeded with a whole number. -/
def ofSeed (seed : Int) : Twister := ofKey (keyWords seed.natAbs).toArray

/-- One step of a twist at index `k`: the top bit of word `k` and the low bits of the next word
are shifted down, and the matrix `0x9908b0df` is mixed in when the lowest bit is set. -/
def twistAt (mt : Array UInt32) (k : Nat) : Array UInt32 :=
  let y := (wordAt mt k &&& 0x80000000) ||| (wordAt mt (k + 1) &&& 0x7fffffff)
  let mag : UInt32 := if y &&& 1 = 1 then 0x9908b0df else 0
  mt.setIfInBounds k (wordAt mt (k + middle) ^^^ (y >>> 1) ^^^ mag)

/-- All the words twisted into new ones, in index order. -/
def twist (mt : Array UInt32) : Array UInt32 := (List.range size).foldl twistAt mt

/-- A word with its bits tempered. -/
def temper (y : UInt32) : UInt32 :=
  let y := y ^^^ (y >>> 11)
  let y := y ^^^ ((y <<< 7) &&& 0x9d2c5680)
  let y := y ^^^ ((y <<< 15) &&& 0xefc60000)
  y ^^^ (y >>> 18)

/-- The next 32-bit word and the state after it. -/
def next (t : Twister) : UInt32 × Twister :=
  let t := if t.index ≥ size then ⟨twist t.words, 0⟩ else t
  (temper (wordAt t.words t.index), ⟨t.words, t.index + 1⟩)

/-- The next float in `[0, 1)`, a multiple of `2^-53`, and the state after it. -/
def nextFloat (t : Twister) : Binary64 × Twister :=
  let (a, t) := t.next
  let (b, t) := t.next
  (Binary64.ofRatio ((a >>> 5).toNat * 67108864 + (b >>> 6).toNat : Nat) 9007199254740992, t)

/-- The generator as a source of draws that never runs out. -/
def source : DrawSource Twister := ⟨fun t => let (x, t') := t.nextFloat; .ok (.float x, t'), []⟩

end Twister

end DiceNotation
