/-!
# A 64-bit digest of bytes

XXH64 with seed zero. Blocks of 32 bytes feed four lanes; the lanes are merged,
and what is left of the bytes is mixed in by eights, by a four and singly. All
arithmetic is modulo `2 ^ 64`, and words are little-endian.
-/

namespace ShaderChain.Source.Digest

def prime1 : UInt64 := 0x9E3779B185EBCA87
def prime2 : UInt64 := 0xC2B2AE3D27D4EB4F
def prime3 : UInt64 := 0x165667B19E3779F9
def prime4 : UInt64 := 0x85EBCA77C2B2AE63
def prime5 : UInt64 := 0x27D4EB2F165667C5

def rotateLeft (x n : UInt64) : UInt64 := (x <<< n) ||| (x >>> (64 - n))

/-- The word of bytes, the lowest one first. -/
def littleEndian (bytes : List UInt8) : UInt64 :=
  bytes.foldr (fun b w => (w <<< 8) ||| b.toUInt64) 0

/-- Take a word into a lane. -/
def round (lane word : UInt64) : UInt64 := rotateLeft (lane + word * prime2) 31 * prime1

structure Lanes where
  a : UInt64
  b : UInt64
  c : UInt64
  d : UInt64

def Lanes.start : Lanes := ⟨prime1 + prime2, prime2, 0, 0 - prime1⟩

/-- Take a block of 32 bytes into the lanes. -/
def Lanes.absorb (l : Lanes) (block : List UInt8) : Lanes where
  a := round l.a (littleEndian (block.take 8))
  b := round l.b (littleEndian ((block.drop 8).take 8))
  c := round l.c (littleEndian ((block.drop 16).take 8))
  d := round l.d (littleEndian ((block.drop 24).take 8))

def Lanes.absorbAll (l : Lanes) : Nat → List UInt8 → Lanes
  | 0, _ => l
  | n + 1, bytes => (l.absorb (bytes.take 32)).absorbAll n (bytes.drop 32)

def mergeLane (h lane : UInt64) : UInt64 := (h ^^^ round 0 lane) * prime1 + prime4

def Lanes.merge (l : Lanes) : UInt64 :=
  let h := rotateLeft l.a 1 + rotateLeft l.b 7 + rotateLeft l.c 12 + rotateLeft l.d 18
  mergeLane (mergeLane (mergeLane (mergeLane h l.a) l.b) l.c) l.d

/-- Mix in `n` words of eight bytes. -/
def mixEights (h : UInt64) : Nat → List UInt8 → UInt64
  | 0, _ => h
  | n + 1, bytes =>
      let h := h ^^^ round 0 (littleEndian (bytes.take 8))
      mixEights (rotateLeft h 27 * prime1 + prime4) n (bytes.drop 8)

/-- Mix in four bytes, if there are as many, and then single ones. -/
def mixRest (h : UInt64) (bytes : List UInt8) : UInt64 :=
  let one (h : UInt64) (b : UInt8) : UInt64 :=
    rotateLeft (h ^^^ (b.toUInt64 * prime5)) 11 * prime1
  if bytes.length < 4 then bytes.foldl one h
  else
    let h := h ^^^ (littleEndian (bytes.take 4) * prime1)
    (bytes.drop 4).foldl one (rotateLeft h 23 * prime2 + prime3)

/-- Let every bit depend on every other. -/
def avalanche (h : UInt64) : UInt64 :=
  let h := (h ^^^ (h >>> 33)) * prime2
  let h := (h ^^^ (h >>> 29)) * prime3
  h ^^^ (h >>> 32)

def ofBytes (bytes : List UInt8) : UInt64 :=
  let n := bytes.length
  let h := if n < 32 then prime5 else (Lanes.start.absorbAll (n / 32) bytes).merge
  let rest := bytes.drop (n / 32 * 32)
  let h := mixEights (h + UInt64.ofNat n) (rest.length / 8) rest
  avalanche (mixRest h (rest.drop (rest.length / 8 * 8)))

end ShaderChain.Source.Digest
