import Mathlib

/-!
# Constants and the bytes of a ring

The source's constants, and a ring as bytes by offset from its `rb_start_addr`, read and written
one little-endian word or one run of bytes at a time. Offsets are never reduced modulo the ring
size, as in the source, so an access past the ring's end is an offset of at least `rb_size`.
-/

namespace XdnaMailbox

/-- `TOMBSTONE`: the word a producer leaves where the next package would not fit. -/
def tombstone : Nat := 0xDEADFACE

/-- `MAGIC_VAL`, or'ed into every message id the host issues. -/
def magicVal : Nat := 0x1D000000

def magicValMask : Nat := 0xFF000000

/-- `ASYNC_MSG_START_ID`: inbound ids from here on are device-originated. -/
def asyncMsgStartId : Nat := 0x80000000

/-- `MAX_MSG_ID_ENTRIES`: the id allocator hands out keys below this bound. -/
def maxMsgIdEntries : Nat := 256

def msgProtocolVersion : Nat := 1

/-- The size of `struct xdna_msg_header`, `static_assert`ed to be 16. -/
def headerSize : Nat := 16

/-- Linux errno values the mailbox returns, negated at the return site as in the source. -/
def ENOENT : Int := 2
def ENOMEM : Int := 12
def EAGAIN : Int := 11
def EINVAL : Int := 22
def ENOSPC : Int := 28

/-! ### Ring bytes -/

/-- The bytes of a ring window, by offset from the ring's start. -/
abbrev Mem := Nat → UInt8

/-- The four little-endian bytes `iowrite32` stores for a word. -/
def u32Bytes (w : Nat) : List UInt8 :=
  [UInt8.ofNat w, UInt8.ofNat (w / 0x100), UInt8.ofNat (w / 0x10000), UInt8.ofNat (w / 0x1000000)]

/-- `ioread32` at a ring offset. -/
def readU32 (mem : Mem) (off : Nat) : Nat :=
  (mem off).toNat + 0x100 * (mem (off + 1)).toNat + 0x10000 * (mem (off + 2)).toNat +
    0x1000000 * (mem (off + 3)).toNat

/-- `memcpy_toio` of a run of bytes to a ring offset. -/
def writeBytes (mem : Mem) (off : Nat) (bytes : List UInt8) : Mem :=
  fun a => if off ≤ a ∧ a < off + bytes.length then bytes.getD (a - off) 0 else mem a

/-- `iowrite32` at a ring offset. -/
def writeU32 (mem : Mem) (off w : Nat) : Mem := writeBytes mem off (u32Bytes w)

/-- `memcpy_fromio` of `n` bytes from a ring offset. -/
def readBytes (mem : Mem) (off n : Nat) : List UInt8 := (List.range n).map fun i => mem (off + i)

/-- A byte list read as memory, for words inside a package. -/
def listMem (bytes : List UInt8) : Mem := fun a => bytes.getD a 0

/-- `mem` holds `bytes` from `off` on. -/
def Holds (mem : Mem) (off : Nat) (bytes : List UInt8) : Prop := readBytes mem off bytes.length = bytes

@[simp] theorem byte_toNat_ofNat (n : Nat) : (UInt8.ofNat n).toNat = n % 256 := rfl

@[simp] theorem u32Bytes_length (w : Nat) : (u32Bytes w).length = 4 := rfl

@[simp] theorem readBytes_length (mem : Mem) (off n : Nat) : (readBytes mem off n).length = n := by
  simp [readBytes]

theorem readU32_lt (mem : Mem) (off : Nat) : readU32 mem off < 2 ^ 32 := by
  have := (mem off).toNat_lt_size
  have := (mem (off + 1)).toNat_lt_size
  have := (mem (off + 2)).toNat_lt_size
  have := (mem (off + 3)).toNat_lt_size
  simp only [UInt8.size, readU32] at *
  omega

theorem writeBytes_of_lt (mem : Mem) {off a : Nat} (bytes : List UInt8) (ha : a < off) :
    writeBytes mem off bytes a = mem a := by
  simp [writeBytes, show ¬off ≤ a by omega]

theorem writeBytes_of_ge (mem : Mem) {off a : Nat} (bytes : List UInt8)
    (ha : off + bytes.length ≤ a) : writeBytes mem off bytes a = mem a := by
  simp [writeBytes, show ¬a < off + bytes.length by omega]

theorem writeBytes_of_outside (mem : Mem) {off a : Nat} (bytes : List UInt8)
    (ha : a < off ∨ off + bytes.length ≤ a) : writeBytes mem off bytes a = mem a := by
  rcases ha with ha | ha
  · exact writeBytes_of_lt mem bytes ha
  · exact writeBytes_of_ge mem bytes ha

theorem writeBytes_add (mem : Mem) (off : Nat) (bytes : List UInt8) {i : Nat}
    (hi : i < bytes.length) : writeBytes mem off bytes (off + i) = bytes[i] := by
  simp [writeBytes, hi]

theorem readBytes_congr {mem mem' : Mem} {off n : Nat}
    (h : ∀ i, i < n → mem' (off + i) = mem (off + i)) : readBytes mem' off n = readBytes mem off n :=
  List.map_congr_left fun i hi => h i (List.mem_range.mp hi)

theorem readBytes_add (mem : Mem) (off m n : Nat) :
    readBytes mem off (m + n) = readBytes mem off m ++ readBytes mem (off + m) n := by
  simp only [readBytes, List.range_add, List.map_append, List.map_map]
  congr 1
  exact List.map_congr_left fun i _ => by simp [Function.comp, Nat.add_assoc]

theorem holds_writeBytes (mem : Mem) (off : Nat) (bytes : List UInt8) :
    Holds (writeBytes mem off bytes) off bytes := by
  refine List.ext_getElem (by simp) fun i h₁ h₂ => ?_
  simp only [readBytes, List.getElem_map, List.getElem_range]
  exact writeBytes_add mem off bytes h₂

theorem readBytes_writeBytes_of_disjoint (mem : Mem) {off a n : Nat} (bytes : List UInt8)
    (h : a + n ≤ off ∨ off + bytes.length ≤ a) :
    readBytes (writeBytes mem off bytes) a n = readBytes mem a n :=
  readBytes_congr fun i hi => writeBytes_of_outside mem bytes (by omega)

theorem Holds.get {mem : Mem} {off : Nat} {bytes : List UInt8} (hold : Holds mem off bytes) (i : Nat)
    (hi : i < bytes.length) : mem (off + i) = bytes[i] := by
  have := congrArg (fun l => l[i]?) hold
  simpa [readBytes, hi] using this

theorem readU32_of_holds {mem : Mem} {off : Nat} {bytes : List UInt8} (hold : Holds mem off bytes)
    {k : Nat} (hk : k + 4 ≤ bytes.length) : readU32 mem (off + k) = readU32 (listMem bytes) k := by
  have h0 := hold.get (k) (by omega)
  have h1 := hold.get (k + 1) (by omega)
  have h2 := hold.get (k + 2) (by omega)
  have h3 := hold.get (k + 3) (by omega)
  simp only [← Nat.add_assoc] at h1 h2 h3
  simp only [readU32, listMem, List.getD_eq_getElem?_getD, h0, h1, h2, h3]
  simp [show k < bytes.length by omega, show k + 1 < bytes.length by omega,
    show k + 2 < bytes.length by omega, show k + 3 < bytes.length by omega]

theorem readU32_u32Bytes (w : Nat) : readU32 (listMem (u32Bytes w)) 0 = w % 2 ^ 32 := by
  simp [readU32, listMem, u32Bytes]
  omega

theorem readU32_of_holds_u32Bytes {mem : Mem} {off w : Nat} (hold : Holds mem off (u32Bytes w)) :
    readU32 mem off = w % 2 ^ 32 :=
  (readU32_of_holds hold (k := 0) (by simp)).trans (readU32_u32Bytes w)

theorem readU32_writeU32_self (mem : Mem) (off w : Nat) :
    readU32 (writeU32 mem off w) off = w % 2 ^ 32 :=
  readU32_of_holds_u32Bytes (holds_writeBytes mem off (u32Bytes w))

theorem readU32_writeBytes_of_disjoint (mem : Mem) {off a : Nat} (bytes : List UInt8)
    (h : a + 4 ≤ off ∨ off + bytes.length ≤ a) :
    readU32 (writeBytes mem off bytes) a = readU32 mem a := by
  simp only [readU32]
  rw [writeBytes_of_outside mem bytes (by omega), writeBytes_of_outside mem bytes (by omega),
    writeBytes_of_outside mem bytes (by omega), writeBytes_of_outside mem bytes (by omega)]

end XdnaMailbox
