/-! The 64-bit digest of a byte string, in the four-lane form of xxHash. Whole stripes of 32 bytes
are absorbed into four running lanes, the lanes are merged, and what is left over is folded in by
words of eight bytes, then four, then one. All arithmetic wraps at 64 bits. -/

namespace Breakpoint.Digest

def prime1 : UInt64 := 11400714785074694791
def prime2 : UInt64 := 14029467366897019727
def prime3 : UInt64 := 1609587929392839161
def prime4 : UInt64 := 9650029242287828579
def prime5 : UInt64 := 2870177450012600261

/-- Rotation to the left by `n` bits, for `n` between 1 and 63. -/
def rotateLeft (x n : UInt64) : UInt64 := (x <<< n) ||| (x >>> (64 - n))

/-- The number that a byte string spells with its least significant byte first. -/
def littleEndian (bytes : List UInt8) : UInt64 :=
  bytes.foldr (fun byte rest => (rest <<< 8) ||| byte.toUInt64) 0

/-- The first `count` blocks of `size` bytes. -/
def blocks (size : Nat) : Nat → List UInt8 → List (List UInt8)
  | 0, _ => []
  | count + 1, bytes => bytes.take size :: blocks size count (bytes.drop size)

/-- One word absorbed into a lane. -/
def mix (lane word : UInt64) : UInt64 := rotateLeft (lane + word * prime2) 31 * prime1

/-- The four running lanes. -/
structure Lanes where
  first : UInt64
  second : UInt64
  third : UInt64
  fourth : UInt64

/-- The lanes before any input. -/
def Lanes.start (seed : UInt64) : Lanes :=
  ⟨seed + prime1 + prime2, seed + prime2, seed, seed - prime1⟩

/-- A stripe of 32 bytes gives each lane one word. -/
def Lanes.absorb (lanes : Lanes) (stripe : List UInt8) : Lanes where
  first := mix lanes.first (littleEndian (stripe.take 8))
  second := mix lanes.second (littleEndian ((stripe.drop 8).take 8))
  third := mix lanes.third (littleEndian ((stripe.drop 16).take 8))
  fourth := mix lanes.fourth (littleEndian ((stripe.drop 24).take 8))

/-- A lane folded into the merged state. -/
def foldLane (state lane : UInt64) : UInt64 := (state ^^^ mix 0 lane) * prime1 + prime4

/-- The four lanes as one word. -/
def Lanes.merge (lanes : Lanes) : UInt64 :=
  [lanes.first, lanes.second, lanes.third, lanes.fourth].foldl foldLane
    (rotateLeft lanes.first 1 + rotateLeft lanes.second 7 +
      rotateLeft lanes.third 12 + rotateLeft lanes.fourth 18)

/-- Eight left-over bytes folded into the state. -/
def foldLong (state : UInt64) (word : List UInt8) : UInt64 :=
  rotateLeft (state ^^^ mix 0 (littleEndian word)) 27 * prime1 + prime4

/-- Four left-over bytes folded into the state. -/
def foldShort (state : UInt64) (word : List UInt8) : UInt64 :=
  rotateLeft (state ^^^ (littleEndian word * prime1)) 23 * prime2 + prime3

/-- One left-over byte folded into the state. -/
def foldByte (state : UInt64) (byte : UInt8) : UInt64 :=
  rotateLeft (state ^^^ (byte.toUInt64 * prime5)) 11 * prime1

/-- The bytes after the last whole stripe, fewer than 32 of them, folded into the state. -/
def foldTail (state : UInt64) (bytes : List UInt8) : UInt64 :=
  let longs := bytes.length / 8
  let state := (blocks 8 longs bytes).foldl foldLong state
  let bytes := bytes.drop (8 * longs)
  let shorts := bytes.length / 4
  let state := (blocks 4 shorts bytes).foldl foldShort state
  (bytes.drop (4 * shorts)).foldl foldByte state

/-- The closing shifts and products, which spread every bit over the whole word. -/
def avalanche (state : UInt64) : UInt64 :=
  let state := (state ^^^ (state >>> 33)) * prime2
  let state := (state ^^^ (state >>> 29)) * prime3
  state ^^^ (state >>> 32)

/-- The digest of a byte string under a seed. -/
def ofBytes (seed : UInt64) (bytes : List UInt8) : UInt64 :=
  let stripes := bytes.length / 32
  let state :=
    if stripes = 0 then seed + prime5
    else ((blocks 32 stripes bytes).foldl Lanes.absorb (Lanes.start seed)).merge
  avalanche (foldTail (state + bytes.length.toUInt64) (bytes.drop (32 * stripes)))

end Breakpoint.Digest
