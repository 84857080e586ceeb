import Chip8.Random.ChaCha

namespace Chip8

/-- An endless supply of bytes, and how many of them have been used up. -/
structure ByteSource where
  stream : Nat → UInt8
  taken : Nat

namespace ByteSource

/-- A supply from which nothing has been taken. -/
def ofStream (stream : Nat → UInt8) : ByteSource := ⟨stream, 0⟩

/-- The byte that comes next. -/
def head (s : ByteSource) : UInt8 := s.stream s.taken

/-- Uses up a number of bytes. -/
def drop (s : ByteSource) (count : Nat) : ByteSource := { s with taken := s.taken + count }

/-- The next bytes, without using them up. -/
def take (s : ByteSource) (count : Nat) : List UInt8 :=
  (List.range count).map fun k => s.stream (s.taken + k)

/-- The pseudorandom bytes of a seed. -/
def seeded (seed : UInt64) : ByteSource := .ofStream (ChaCha.stream seed)

/-- The same bytes over and over; zeros, if there are none. -/
def cycling (bytes : Array UInt8) : ByteSource :=
  .ofStream fun k => bytes.getD (k % bytes.size) 0

end ByteSource

end Chip8
