import Chip8.Nibble

namespace Chip8.ChaCha

/-- The state that is stirred to make one block of random words. -/
abbrev State := Vector UInt32 16

/-- Turns a word to the left. -/
def rotateLeft (w : UInt32) (k : UInt32) : UInt32 := w <<< k ||| w >>> (32 - k)

/-- Stirs four words of a state into each other. -/
def quarter (s : State) (a b c d : Fin 16) : State :=
  let s := s.set a (s[a] + s[b])
  let s := s.set d (rotateLeft (s[d] ^^^ s[a]) 16)
  let s := s.set c (s[c] + s[d])
  let s := s.set b (rotateLeft (s[b] ^^^ s[c]) 12)
  let s := s.set a (s[a] + s[b])
  let s := s.set d (rotateLeft (s[d] ^^^ s[a]) 8)
  let s := s.set c (s[c] + s[d])
  s.set b (rotateLeft (s[b] ^^^ s[c]) 7)

/-- Two rounds: the columns of the state seen as a square, then its diagonals. -/
def twoRounds (s : State) : State :=
  let s := quarter s 0 4 8 12
  let s := quarter s 1 5 9 13
  let s := quarter s 2 6 10 14
  let s := quarter s 3 7 11 15
  let s := quarter s 0 5 10 15
  let s := quarter s 1 6 11 12
  let s := quarter s 2 7 8 13
  quarter s 3 4 9 14

/-- The state from which the block of a given number starts. -/
def start (key : Vector UInt32 8) (number : Nat) : State :=
  #v[0x61707865, 0x3320646E, 0x79622D32, 0x6B206574,
    key[0], key[1], key[2], key[3], key[4], key[5], key[6], key[7],
    UInt32.ofNat number, UInt32.ofNat (number / 0x100000000), 0, 0]

/-- A block: the state after twelve rounds, added to the one it started from. -/
def block (key : Vector UInt32 8) (number : Nat) : State :=
  let s := start key number
  s.zipWith (· + ·) (Nat.repeat twoRounds 6 s)

/-- The state of the generator that widens a seed, one step on. -/
def nextState (s : UInt64) : UInt64 := s * 6364136223846793005 + 11634580027462260723

/-- The word that a state of the seed's generator stands for: its upper bits folded, and turned to
the right by its top five. -/
def output (s : UInt64) : UInt32 :=
  let w := (((s >>> 18) ^^^ s) >>> 27).toUInt32
  let k := (s >>> 59).toUInt32
  w >>> k ||| w <<< (32 - k)

/-- The key of a seed. -/
def key (seed : UInt64) : Vector UInt32 8 :=
  Vector.ofFn fun i => output (Nat.repeat nextState (i.val + 1) seed)

/-- The stream of a seed: the low bytes of the words of its blocks, in order. -/
def stream (seed : UInt64) (k : Nat) : UInt8 :=
  (block (key seed) (k / 16))[Fin.ofNat 16 k].toUInt8

end Chip8.ChaCha
