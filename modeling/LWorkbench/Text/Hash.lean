import LWorkbench.Text.Utf8

/-!
# Hashes of texts

Two texts are compared by 64 bits that are computed from their bytes: the hash XXH64 with seed zero.
Four words take up the bytes in stripes of 32, eight bytes each, and are merged into one. What is
left over is mixed in eight bytes, then four, then one at a time, and in the end the bits are spread
over the whole word. All arithmetic is that of 64-bit words. Different texts may have the same hash.

## Main definitions

* `TextHash.Lanes` — the four words that take up stripes
* `TextHash.ofBytes` — the hash of some bytes
* `contentHash` — the hash of a text
-/

namespace LWorkbench

namespace TextHash

/-- The first multiplier. -/
def prime1 : UInt64 := 0x9E3779B185EBCA87

/-- The second multiplier. -/
def prime2 : UInt64 := 0xC2B2AE3D27D4EB4F

/-- The third multiplier. -/
def prime3 : UInt64 := 0x165667B19E3779F9

/-- The fourth multiplier. -/
def prime4 : UInt64 := 0x85EBCA77C2B2AE63

/-- The fifth multiplier. -/
def prime5 : UInt64 := 0x27D4EB2F165667C5

/-- The word with its bits moved up by some places, those at the top coming in again below. -/
def rotate (word places : UInt64) : UInt64 := (word <<< places) ||| (word >>> (64 - places))

/-- The word that is written by some bytes, the lowest one first. -/
def word (bytes : List UInt8) : UInt64 :=
  bytes.foldr (fun byte rest => byte.toUInt64 + 256 * rest) 0

/-- A word takes up eight bytes. -/
def absorb (lane input : UInt64) : UInt64 := rotate (lane + input * prime2) 31 * prime1

/-- The four words that take up stripes. -/
structure Lanes where
  first : UInt64
  second : UInt64
  third : UInt64
  fourth : UInt64
  deriving DecidableEq, Repr

namespace Lanes

/-- The words before any stripe. -/
def start : Lanes := ⟨prime1 + prime2, prime2, 0, 0 - prime1⟩

/-- The words after the stripe at the head of some bytes. -/
def stripe (lanes : Lanes) (bytes : List UInt8) : Lanes where
  first := absorb lanes.first (word (bytes.take 8))
  second := absorb lanes.second (word ((bytes.drop 8).take 8))
  third := absorb lanes.third (word ((bytes.drop 16).take 8))
  fourth := absorb lanes.fourth (word ((bytes.drop 24).take 8))

/-- The words after a number of stripes. -/
def stripes : (count : Nat) → (lanes : Lanes) → (bytes : List UInt8) → Lanes
  | 0, lanes, _ => lanes
  | count + 1, lanes, bytes => stripes count (lanes.stripe bytes) (bytes.drop 32)

/-- One word from four. -/
def merge (lanes : Lanes) : UInt64 :=
  let mix (hash lane : UInt64) : UInt64 := (hash ^^^ absorb 0 lane) * prime1 + prime4
  let sum := rotate lanes.first 1 + rotate lanes.second 7 + rotate lanes.third 12 +
    rotate lanes.fourth 18
  mix (mix (mix (mix sum lanes.first) lanes.second) lanes.third) lanes.fourth

end Lanes

/-- The hash with a number of words at the head of some bytes mixed in. -/
def mixWords : (count : Nat) → (hash : UInt64) → (bytes : List UInt8) → UInt64
  | 0, hash, _ => hash
  | count + 1, hash, bytes =>
    mixWords count (rotate (hash ^^^ absorb 0 (word (bytes.take 8))) 27 * prime1 + prime4)
      (bytes.drop 8)

/-- The hash with fewer than eight bytes mixed in. -/
def mixRest (hash : UInt64) (bytes : List UInt8) : UInt64 :=
  let single (hash : UInt64) (byte : UInt8) : UInt64 :=
    rotate (hash ^^^ (byte.toUInt64 * prime5)) 11 * prime1
  if bytes.length < 4 then bytes.foldl single hash
  else
    (bytes.drop 4).foldl single
      (rotate (hash ^^^ (word (bytes.take 4) * prime1)) 23 * prime2 + prime3)

/-- The hash with its bits spread over the whole word. -/
def spread (hash : UInt64) : UInt64 :=
  let hash := (hash ^^^ (hash >>> 33)) * prime2
  let hash := (hash ^^^ (hash >>> 29)) * prime3
  hash ^^^ (hash >>> 32)

/-- The hash of some bytes. Fewer bytes than a stripe leave the four words out. -/
def ofBytes (bytes : List UInt8) : UInt64 :=
  let length := bytes.length
  let count := length / 32
  let striped := if count = 0 then prime5 else (Lanes.start.stripes count bytes).merge
  let hash := striped + UInt64.ofNat length
  let rest := bytes.drop (32 * count)
  let words := rest.length / 8
  spread (mixRest (mixWords words hash rest) (rest.drop (8 * words)))

end TextHash

/-- The hash of a text. -/
def contentHash (text : String) : UInt64 := TextHash.ofBytes (Utf8.encode text)

end LWorkbench
