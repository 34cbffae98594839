namespace StoryGrammar.Random

-- Sixteen words, in four rows of four.
abbrev Block := Vector UInt32 16

def rotateLeft (word : UInt32) (amount : UInt32) : UInt32 :=
  word <<< amount ||| word >>> (32 - amount)

def rotateRight (word : UInt32) (amount : UInt32) : UInt32 :=
  word >>> amount ||| word <<< (32 - amount)

namespace Block

def quarter (block : Block) (a b c d : Fin 16) : Block :=
  let x := block[a] + block[b]
  let w := rotateLeft (block[d] ^^^ x) 16
  let z := block[c] + w
  let y := rotateLeft (block[b] ^^^ z) 12
  let x := x + y
  let w := rotateLeft (w ^^^ x) 8
  let z := z + w
  let y := rotateLeft (y ^^^ z) 7
  (((block.set a x).set b y).set c z).set d w

-- A round over the columns, then one over the diagonals.
def doubleRound (block : Block) : Block :=
  let block := block.quarter 0 4 8 12
  let block := block.quarter 1 5 9 13
  let block := block.quarter 2 6 10 14
  let block := block.quarter 3 7 11 15
  let block := block.quarter 0 5 10 15
  let block := block.quarter 1 6 11 12
  let block := block.quarter 2 7 8 13
  block.quarter 3 4 9 14

-- Twelve rounds.
def mix (block : Block) : Block :=
  let mixed := block.doubleRound.doubleRound.doubleRound.doubleRound.doubleRound.doubleRound
  mixed.zipWith (· + ·) block

end Block

abbrev Key := Vector UInt32 8

namespace Key

-- A step of the generator that spreads a seed over the words of a key.
def advance (state : UInt64) : UInt64 := state * 6364136223846793005 + 11634580027462260723

def word (state : UInt64) : UInt32 :=
  rotateRight (((state >>> 18) ^^^ state) >>> 27).toUInt32 (state >>> 59).toUInt32

def ofSeed (seed : UInt64) : Key :=
  let s₁ := advance seed
  let s₂ := advance s₁
  let s₃ := advance s₂
  let s₄ := advance s₃
  let s₅ := advance s₄
  let s₆ := advance s₅
  let s₇ := advance s₆
  let s₈ := advance s₇
  #v[word s₁, word s₂, word s₃, word s₄, word s₅, word s₆, word s₇, word s₈]

def start (key : Key) (counter : UInt64) : Block :=
  #v[0x61707865, 0x3320646E, 0x79622D32, 0x6B206574,
    key[0], key[1], key[2], key[3], key[4], key[5], key[6], key[7],
    counter.toUInt32, (counter >>> 32).toUInt32, 0, 0]

def block (key : Key) (counter : UInt64) : Block := (key.start counter).mix

end Key

-- An endless sequence of 64-bit numbers. Eight numbers make up a block, the low half of each
-- coming first; the blocks are counted from zero.
structure Keystream where
  key : Key
  position : Nat := 0
deriving DecidableEq, Repr

namespace Keystream

def ofSeed (seed : UInt64) : Keystream := ⟨Key.ofSeed seed, 0⟩

-- The number of numbers after which the count of the blocks starts anew.
def period : Nat := 8 * UInt64.size

def numberAt (key : Key) (position : Nat) : UInt64 :=
  let block := key.block (UInt64.ofNat (position / 8))
  let i := 2 * (position % 8)
  block[i].toUInt64 ||| block[i + 1].toUInt64 <<< 32

def next (stream : Keystream) : UInt64 × Keystream :=
  (numberAt stream.key stream.position, { stream with position := stream.position + 1 })

theorem numberAt_add_period (key : Key) (position : Nat) :
    numberAt key (position + period) = numberAt key position := by
  have hd : (position + period) / 8 = position / 8 + UInt64.size := by
    simp only [period, UInt64.size]
    omega
  have hm : (position + period) % 8 = position % 8 := by
    simp only [period, UInt64.size]
    omega
  have hc : UInt64.ofNat (position / 8 + UInt64.size) = UInt64.ofNat (position / 8) := by
    apply UInt64.toNat.inj
    simp
  simp only [numberAt, hd, hm, hc]

end Keystream

end StoryGrammar.Random
