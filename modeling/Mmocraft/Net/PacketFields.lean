/-
# Mmocraft.Net.PacketFields -- the fields of packets

The readers and writers of `PacketStructure`: bytes, big-endian scalars, and strings of 64 bytes that are
padded with spaces.  Each reader is inverse to its writer.  A scalar can have any value; a string has at
most 64 bytes and does not end in a space, since the spaces at the end of the field are its padding.

`Inverts` is the notion of `Lib.Fields`: a reader takes exactly the bytes of its writer from the front of what
there is and gives back the value. Packets are then put together field by field, and their round trips are
those of the fields. The padding makes the one restriction: a string that ends in a space is read back without
it.
-/
import Mathlib.Data.List.DropRight
import Mmocraft.Lib.BigEndian
import Mmocraft.Lib.Fields

namespace Mmocraft.Net

open Mmocraft.Lib

/-- `PacketFieldConstraint::max_string_length`. -/
def maxStringLength : Nat := 64

/-- `std::byte(' ')`. -/
def space : UInt8 := 0x20

namespace PacketStructure

/-! ## Scalars -/

/-- `read_scalar` of a `Byte`. -/
def readByte : Reader UInt8 UInt8
  | [] => none
  | b :: rest => some (b, rest)

/-- `write_byte`. -/
def writeByte (value : UInt8) : List UInt8 := [value]

/-- A byte reads back. -/
theorem byte_inverts : Inverts readByte writeByte (fun _ => True) 1 where
  length_write _ := rfl
  read_write _ _ _ := rfl
  write_read buf hbuf := by
    cases buf with
    | nil => exact absurd hbuf (by decide)
    | cons b rest => exact ⟨b, rest, rfl, rfl, trivial⟩

/-- `read_scalar` of a field of `size` bytes. -/
def readScalar (size : Nat) : Reader UInt8 (BitVec (8 * size)) := fun buf =>
  if size ≤ buf.length then some (BitVec.ofNat (8 * size) (ofBigEndian (buf.take size)), buf.drop size)
  else none

/-- The writer of a scalar of `size` bytes. -/
def writeScalar (size : Nat) (value : BitVec (8 * size)) : List UInt8 := bigEndian size value.toNat

/-- A big-endian scalar of any size reads back. -/
theorem scalar_inverts (size : Nat) :
    Inverts (readScalar size) (writeScalar size) (fun _ => True) size where
  length_write value := length_bigEndian size value.toNat
  read_write value rest _ := by
    have hlength : (writeScalar size value).length = size := length_bigEndian size value.toNat
    have hvalue : value.toNat < 256 ^ size := by
      have hlt := value.isLt
      rwa [Nat.pow_mul] at hlt
    rw [readScalar, if_pos (by rw [List.length_append, hlength]; exact Nat.le_add_right _ _),
      List.take_left' hlength, List.drop_left' hlength, writeScalar, ofBigEndian_bigEndian hvalue,
      BitVec.ofNat_toNat, BitVec.setWidth_eq]
  write_read buf hbuf := by
    have htake : (buf.take size).length = size := List.length_take_of_le hbuf
    have hlt : ofBigEndian (buf.take size) < 2 ^ (8 * size) := by
      have hlt := ofBigEndian_lt (buf.take size)
      rwa [htake, show 256 = 2 ^ 8 from rfl, ← Nat.pow_mul] at hlt
    refine ⟨_, _, if_pos hbuf, ?_, trivial⟩
    have hwrite := bigEndian_ofBigEndian (buf.take size)
    rw [htake] at hwrite
    rw [writeScalar, BitVec.toNat_ofNat, Nat.mod_eq_of_lt hlt, hwrite, List.take_append_drop]

/-- `read_scalar` of a `Short`. -/
def readShort : Reader UInt8 (BitVec 16) := readScalar 2

/-- `write_short`. -/
def writeShort (value : BitVec 16) : List UInt8 := writeScalar 2 value

/-- Two bytes. -/
theorem short_inverts : Inverts readShort writeShort (fun _ => True) 2 := scalar_inverts 2

/-- `write_int`. -/
def writeInt (value : BitVec 32) : List UInt8 := writeScalar 4 value

/-- `read_scalar` of a `UInt64`. -/
def readUint64 : Reader UInt8 (BitVec 64) := readScalar 8

/-- `write_uint64`. -/
def writeUint64 (value : BitVec 64) : List UInt8 := writeScalar 8 value

/-- Eight bytes. -/
theorem uint64_inverts : Inverts readUint64 writeUint64 (fun _ => True) 8 := scalar_inverts 8

/-! ## Strings -/

/-- `read_string`: the loop counts the spaces at the end of the field. -/
def readString : Reader UInt8 (List UInt8) := fun buf =>
  if maxStringLength ≤ buf.length then
    let field := buf.take maxStringLength
    let paddingSize := (field.rtakeWhile (· == space)).length
    some (field.take (maxStringLength - paddingSize), buf.drop maxStringLength)
  else none

/-- `write_string`. -/
def writeString (str : List UInt8) : List UInt8 :=
  let size := min str.length maxStringLength
  str.take size ++ List.replicate (maxStringLength - size) space

/-- A string that a field of a packet can hold. -/
structure IsFieldString (str : List UInt8) : Prop where
  length_le : str.length ≤ maxStringLength
  noTrailingSpace : str.getLast? ≠ some space

instance (str : List UInt8) : Decidable (IsFieldString str) :=
  decidable_of_iff (str.length ≤ maxStringLength ∧ str.getLast? ≠ some space)
    ⟨fun h => ⟨h.1, h.2⟩, fun h => ⟨h.1, h.2⟩⟩

@[simp] theorem length_writeString (str : List UInt8) : (writeString str).length = maxStringLength := by
  simp only [writeString, List.length_append, List.length_take, List.length_replicate]
  omega

/-- A string that fits is followed by spaces. -/
theorem writeString_of_le {str : List UInt8} (h : str.length ≤ maxStringLength) :
    writeString str = str ++ List.replicate (maxStringLength - str.length) space := by
  rw [writeString, Nat.min_eq_left h, List.take_length]

/-- The loop leaves what comes before the spaces. -/
theorem take_padding (field : List UInt8) :
    field.take (field.length - (field.rtakeWhile (· == space)).length) =
      field.rdropWhile (· == space) := by
  have hsplit : field.rdropWhile (· == space) ++ field.rtakeWhile (· == space) = field :=
    List.rdropWhile_append_rtakeWhile
  have hlength := congrArg List.length hsplit
  rw [List.length_append] at hlength
  rw [show field.length - (field.rtakeWhile (· == space)).length =
    (field.rdropWhile (· == space)).length by omega]
  exact (List.prefix_iff_eq_take.mp (List.rdropWhile_prefix _ field)).symm

/-- What the loop leaves and its padding make up the field. -/
theorem writeString_rdropWhile {field : List UInt8} (h : field.length = maxStringLength) :
    writeString (field.rdropWhile (· == space)) = field := by
  have hsplit : field.rdropWhile (· == space) ++ field.rtakeWhile (· == space) = field :=
    List.rdropWhile_append_rtakeWhile
  have hlength := congrArg List.length hsplit
  rw [List.length_append] at hlength
  have hpadding : field.rtakeWhile (· == space) =
      List.replicate (maxStringLength - (field.rdropWhile (· == space)).length) space := by
    rw [List.eq_replicate_iff]
    refine ⟨by omega, fun b hb => ?_⟩
    have hspace : (b == space) = true := List.mem_rtakeWhile_imp (p := (· == space)) hb
    exact eq_of_beq hspace
  rw [writeString_of_le (by omega), ← hpadding, hsplit]

theorem isFieldString_rdropWhile {field : List UInt8} (h : field.length = maxStringLength) :
    IsFieldString (field.rdropWhile (· == space)) where
  length_le := h ▸ (List.rdropWhile_prefix _ field).length_le
  noTrailingSpace hlast := by
    have hne : field.rdropWhile (· == space) ≠ [] := by
      intro hnil
      rw [hnil] at hlast
      exact nomatch hlast
    rw [List.getLast?_eq_some_getLast hne] at hlast
    exact List.rdropWhile_last_not _ field hne (beq_iff_eq.mpr (Option.some.inj hlast))

/-- The padding goes, and no more. -/
theorem rdropWhile_append_spaces {str : List UInt8} (h : str.getLast? ≠ some space) (n : Nat) :
    (str ++ List.replicate n space).rdropWhile (· == space) = str := by
  induction n with
  | zero =>
      rw [List.replicate_zero, List.append_nil, List.rdropWhile_eq_self_iff]
      intro hne hlast
      exact h (by rw [List.getLast?_eq_some_getLast hne, eq_of_beq hlast])
  | succ n ih =>
      rw [List.replicate_succ', ← List.append_assoc, List.rdropWhile_concat_pos _ _ _ (by decide), ih]

/-- A field string reads back. -/
theorem string_inverts : Inverts readString writeString IsFieldString maxStringLength where
  length_write := length_writeString
  read_write str rest hstr := by
    have hlength := length_writeString str
    have htake := take_padding (writeString str)
    rw [hlength] at htake
    rw [readString, if_pos (by rw [List.length_append, hlength]; exact Nat.le_add_right _ _)]
    simp only [List.take_left' hlength, List.drop_left' hlength, htake]
    rw [writeString_of_le hstr.length_le, rdropWhile_append_spaces hstr.noTrailingSpace]
  write_read buf hbuf := by
    have hlength : (buf.take maxStringLength).length = maxStringLength := List.length_take_of_le hbuf
    have htake := take_padding (buf.take maxStringLength)
    rw [hlength] at htake
    refine ⟨(buf.take maxStringLength).rdropWhile (· == space), buf.drop maxStringLength, ?_, ?_,
      isFieldString_rdropWhile hlength⟩
    · rw [readString, if_pos hbuf]
      simp only [htake]
    · rw [writeString_rdropWhile hlength, List.take_append_drop]

/-! ## Reading what was written -/

@[simp] theorem readByte_writeByte (value : UInt8) (rest : List UInt8) :
    readByte (writeByte value ++ rest) = some (value, rest) := rfl

@[simp] theorem readShort_writeShort (value : BitVec 16) (rest : List UInt8) :
    readShort (writeShort value ++ rest) = some (value, rest) := short_inverts.read_write value rest trivial

@[simp] theorem readUint64_writeUint64 (value : BitVec 64) (rest : List UInt8) :
    readUint64 (writeUint64 value ++ rest) = some (value, rest) := uint64_inverts.read_write value rest trivial

theorem readString_writeString {str : List UInt8} (h : IsFieldString str) (rest : List UInt8) :
    readString (writeString str ++ rest) = some (str, rest) := string_inverts.read_write str rest h

/-- The last field of a packet. -/
@[simp] theorem readByte_writeByte_nil (value : UInt8) : readByte (writeByte value) = some (value, []) := rfl

@[simp] theorem readUint64_writeUint64_nil (value : BitVec 64) :
    readUint64 (writeUint64 value) = some (value, []) := by
  simpa using readUint64_writeUint64 value []

theorem readString_writeString_nil {str : List UInt8} (h : IsFieldString str) :
    readString (writeString str) = some (str, []) := by
  simpa using readString_writeString h []

@[simp] theorem length_writeByte (value : UInt8) : (writeByte value).length = 1 := rfl

@[simp] theorem length_writeShort (value : BitVec 16) : (writeShort value).length = 2 := rfl

@[simp] theorem length_writeInt (value : BitVec 32) : (writeInt value).length = 4 :=
  length_bigEndian 4 value.toNat

@[simp] theorem length_writeUint64 (value : BitVec 64) : (writeUint64 value).length = 8 := rfl

end PacketStructure

end Mmocraft.Net
