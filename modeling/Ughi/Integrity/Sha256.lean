import Mathlib.Data.UInt
import Mathlib.Tactic.SplitIfs
import Ughi.Lib.Text

/-!
# The hand-written SHA-256

The hasher buffers up to one block of 64 bytes and compresses each block as it
fills.  Words are 32-bit and wrap around; the bit length is a 64-bit word.
-/

namespace Ughi.Integrity

open Ughi.Lib

structure Sha256 where
  state : List UInt32
  buffer : List UInt8
  bufferLen : Nat
  totalLen : UInt64
deriving DecidableEq, Repr

namespace Sha256

def roundConstants : List UInt32 :=
  [0x428a2f98, 0x71374491, 0xb5c0fbcf, 0xe9b5dba5, 0x3956c25b, 0x59f111f1,
    0x923f82a4, 0xab1c5ed5, 0xd807aa98, 0x12835b01, 0x243185be, 0x550c7dc3,
    0x72be5d74, 0x80deb1fe, 0x9bdc06a7, 0xc19bf174, 0xe49b69c1, 0xefbe4786,
    0x0fc19dc6, 0x240ca1cc, 0x2de92c6f, 0x4a7484aa, 0x5cb0a9dc, 0x76f988da,
    0x983e5152, 0xa831c66d, 0xb00327c8, 0xbf597fc7, 0xc6e00bf3, 0xd5a79147,
    0x06ca6351, 0x14292967, 0x27b70a85, 0x2e1b2138, 0x4d2c6dfc, 0x53380d13,
    0x650a7354, 0x766a0abb, 0x81c2c92e, 0x92722c85, 0xa2bfe8a1, 0xa81a664b,
    0xc24b8b70, 0xc76c51a3, 0xd192e819, 0xd6990624, 0xf40e3585, 0x106aa070,
    0x19a4c116, 0x1e376c08, 0x2748774c, 0x34b0bcb5, 0x391c0cb3, 0x4ed8aa4a,
    0x5b9cca4f, 0x682e6ff3, 0x748f82ee, 0x78a5636f, 0x84c87814, 0x8cc70208,
    0x90befffa, 0xa4506ceb, 0xbef9a3f7, 0xc67178f2]

def new : Sha256 :=
  { state := [0x6a09e667, 0xbb67ae85, 0x3c6ef372, 0xa54ff53a, 0x510e527f,
      0x9b05688c, 0x1f83d9ab, 0x5be0cd19]
    buffer := List.replicate 64 0
    bufferLen := 0
    totalLen := 0 }

def rotateRight (word count : UInt32) : UInt32 :=
  (word >>> count) ||| (word <<< (32 - count))

def fromBeBytes (b0 b1 b2 b3 : UInt8) : UInt32 :=
  (b0.toUInt32 <<< 24) ||| (b1.toUInt32 <<< 16) ||| (b2.toUInt32 <<< 8) |||
    b3.toUInt32

/-- The first sixteen words of the schedule. -/
def blockWords (block : List UInt8) : List UInt32 :=
  (List.range 16).map fun i =>
    fromBeBytes (block.getD (i * 4) 0) (block.getD (i * 4 + 1) 0)
      (block.getD (i * 4 + 2) 0) (block.getD (i * 4 + 3) 0)

/-- The schedule word at index `i`, from the words before it. -/
def scheduleWord (w : List UInt32) (i : Nat) : UInt32 :=
  let w15 := w.getD (i - 15) 0
  let w2 := w.getD (i - 2) 0
  let s0 := rotateRight w15 7 ^^^ rotateRight w15 18 ^^^ (w15 >>> 3)
  let s1 := rotateRight w2 17 ^^^ rotateRight w2 19 ^^^ (w2 >>> 10)
  w.getD (i - 16) 0 + s0 + w.getD (i - 7) 0 + s1

def schedule (block : List UInt8) : List UInt32 :=
  (List.range' 16 48).foldl (fun w i => w ++ [scheduleWord w i])
    (blockWords block)

structure Working where
  a : UInt32
  b : UInt32
  c : UInt32
  d : UInt32
  e : UInt32
  f : UInt32
  g : UInt32
  h : UInt32
deriving DecidableEq, Repr

/-- One round, with its constant and its schedule word. -/
def round (v : Working) (constant word : UInt32) : Working :=
  let s1 := rotateRight v.e 6 ^^^ rotateRight v.e 11 ^^^ rotateRight v.e 25
  let ch := (v.e &&& v.f) ^^^ (~~~v.e &&& v.g)
  let temp1 := v.h + s1 + ch + constant + word
  let s0 := rotateRight v.a 2 ^^^ rotateRight v.a 13 ^^^ rotateRight v.a 22
  let maj := (v.a &&& v.b) ^^^ (v.a &&& v.c) ^^^ (v.b &&& v.c)
  let temp2 := s0 + maj
  { a := temp1 + temp2
    b := v.a
    c := v.b
    d := v.c
    e := v.d + temp1
    f := v.e
    g := v.f
    h := v.g }

def compress (hasher : Sha256) (block : List UInt8) : Sha256 :=
  let start : Working :=
    { a := hasher.state.getD 0 0
      b := hasher.state.getD 1 0
      c := hasher.state.getD 2 0
      d := hasher.state.getD 3 0
      e := hasher.state.getD 4 0
      f := hasher.state.getD 5 0
      g := hasher.state.getD 6 0
      h := hasher.state.getD 7 0 }
  let v := (roundConstants.zip (schedule block)).foldl
    (fun v (constant, word) => round v constant word) start
  { hasher with
    state := List.zipWith (· + ·) hasher.state
      [v.a, v.b, v.c, v.d, v.e, v.f, v.g, v.h] }

/-- Compress the buffer once it is full. -/
def flush (hasher : Sha256) : Sha256 :=
  if hasher.bufferLen = 64 then
    { hasher.compress hasher.buffer with bufferLen := 0 }
  else hasher

/-- Copy bytes into the buffer behind those it holds. -/
def fill (hasher : Sha256) (bytes : List UInt8) : Sha256 :=
  { hasher with
    buffer := hasher.buffer.take hasher.bufferLen ++ bytes ++
      hasher.buffer.drop (hasher.bufferLen + bytes.length)
    bufferLen := hasher.bufferLen + bytes.length }

/-- The loop of `update`: each turn takes what fits.  The buffer is never full
between turns, so the loop only stops once the data is used up. -/
def updateLoop (hasher : Sha256) (data : List UInt8) : Sha256 :=
  let take := min (64 - hasher.bufferLen) data.length
  if take = 0 then hasher
  else updateLoop (hasher.fill (data.take take)).flush (data.drop take)
termination_by data.length
decreasing_by
  rw [List.length_drop]
  omega

def update (hasher : Sha256) (data : List UInt8) : Sha256 :=
  updateLoop
    { hasher with totalLen := hasher.totalLen + data.length.toUInt64 } data

/-- One turn of the padding loop: a zero behind the bytes held, in a fresh
block when the buffer is full. -/
def padByte (hasher : Sha256) : Sha256 :=
  let flushed :=
    if hasher.bufferLen ≥ 64 then
      { hasher.compress hasher.buffer with bufferLen := 0 }
    else hasher
  { flushed with
    buffer := flushed.buffer.set flushed.bufferLen 0
    bufferLen := flushed.bufferLen + 1 }

theorem padByte_bufferLen (hasher : Sha256) :
    hasher.padByte.bufferLen =
      if hasher.bufferLen ≥ 64 then 1 else hasher.bufferLen + 1 := by
  simp only [padByte]
  split
  · rfl
  · rfl

/-- The turns the padding loop still takes, at most. -/
def padTurns (bufferLen : Nat) : Nat :=
  if bufferLen ≤ 56 then 56 - bufferLen else 57 + (64 - bufferLen)

theorem padTurns_lt {bufferLen : Nat} (unfinished : bufferLen ≠ 56) :
    padTurns (if bufferLen ≥ 64 then 1 else bufferLen + 1) <
      padTurns bufferLen := by
  simp only [padTurns]
  split_ifs <;> omega

/-- Zeros until 56 bytes of a block are used. -/
def padLoop (hasher : Sha256) : Sha256 :=
  if hasher.bufferLen = 56 then hasher
  else padLoop hasher.padByte
termination_by padTurns hasher.bufferLen
decreasing_by
  rw [padByte_bufferLen]
  exact padTurns_lt ‹_›

def toBeBytes (word : UInt64) : List UInt8 :=
  [(word >>> 56).toUInt8, (word >>> 48).toUInt8, (word >>> 40).toUInt8,
    (word >>> 32).toUInt8, (word >>> 24).toUInt8, (word >>> 16).toUInt8,
    (word >>> 8).toUInt8, word.toUInt8]

def finalize (hasher : Sha256) : String :=
  let bitLen := hasher.totalLen * 8
  let padded := (hasher.update [0x80]).padLoop
  let block := padded.buffer.take 56 ++ toBeBytes bitLen
  let final := padded.compress block
  String.ofList (final.state.flatMap fun word => hexPadded 8 word.toNat)

end Sha256

def sha256Hex (data : List UInt8) : String :=
  (Sha256.new.update data).finalize

end Ughi.Integrity
