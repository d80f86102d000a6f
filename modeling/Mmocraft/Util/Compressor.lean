/-
# Mmocraft.Util.Compressor -- the gzip stream behind `deflate_n`

zlib is not part of the repository.  It enters as a record of the three functions the code relies
on, and the two facts about them that are documented: what is deflated inflates to itself, and
`deflateBound` bounds the compressed size.  `Compressor` is then the stream that `deflate` hands
out piece by piece when it is called with `Z_FINISH`.
-/
import Mathlib.Algebra.Group.Nat.Defs
import Mmocraft.Lib.Memory

namespace Mmocraft.Util

open Mmocraft.Lib

/-- zlib as `Compressor` uses it: whole-input gzip compression, its inverse on the client, and the
bound on the compressed size of an input of a given length. -/
structure Zlib where
  deflate : List UInt8 → List UInt8
  inflate : List UInt8 → List UInt8
  deflateBound : Nat → Nat

namespace Zlib

/-- Compression loses nothing. -/
def Lossless (z : Zlib) : Prop := ∀ source, z.inflate (z.deflate source) = source

/-- For every input whose length is a `uInt`, `deflateBound` is a `size_t` that the compressed size
does not exceed. -/
def Bounded (z : Zlib) : Prop :=
  ∀ source : List UInt8, source.length < 2 ^ 32 →
    (z.deflate source).length ≤ z.deflateBound source.length ∧
      z.deflateBound source.length < 2 ^ 64

end Zlib

/-- `util::Compressor`: what `deflate` has not handed out yet, and `max_compressed_size`. -/
structure Compressor where
  pending : List UInt8
  maxCompressedSize : Nat
  deriving DecidableEq, Repr

namespace Compressor

/-- The constructor: `avail_in` is the size it is given, counted from the pointer it is given. -/
def new (z : Zlib) (blockData : List UInt8) (blockDataSize : Nat) : Compressor :=
  { pending := z.deflate (blockData.take blockDataSize)
    maxCompressedSize := z.deflateBound blockDataSize }

def deflateBound (c : Compressor) : Nat := c.maxCompressedSize

/-- The result of `deflate_n`: the stream afterwards, the memory afterwards and `avail_out`. -/
structure DeflateResult where
  compressor : Compressor
  mem : List UInt8
  availOut : Nat

/-- `deflate_n`: with `Z_FINISH` as much of the stream as fits is written at `dest`; once the stream
has ended nothing is written. -/
def deflateN (c : Compressor) (mem : List UInt8) (dest availSize : Nat) : DeflateResult :=
  { compressor := { c with pending := c.pending.drop availSize }
    mem := Memory.write mem dest (c.pending.take availSize)
    availOut := availSize - (c.pending.take availSize).length }

theorem deflateN_availOut (c : Compressor) (mem : List UInt8) (dest availSize : Nat) :
    (c.deflateN mem dest availSize).availOut = availSize - min availSize c.pending.length := by
  simp only [deflateN, List.length_take]

/-- `avail_out` is untouched exactly when the stream has ended. -/
theorem deflateN_availOut_eq_iff (c : Compressor) (mem : List UInt8) (dest : Nat) {availSize : Nat}
    (h : 0 < availSize) :
    (c.deflateN mem dest availSize).availOut = availSize ↔ c.pending = [] := by
  rw [deflateN_availOut, ← List.length_eq_zero_iff]
  omega

end Compressor

end Mmocraft.Util
