import XdnaMailbox.Basic

/-!
# The message header and the package a send builds

`struct xdna_msg_header` is packed into 16 bytes, each field with its declared width, so that a
store truncates as C does: `header->size = msg->send_size` stores into an 11-bit field. A send
builds its `struct mailbox_msg` in the source's three stages: the argument checks, the filled
allocation, and the id once `mailbox_acquire_msgid` has returned it.
-/

namespace XdnaMailbox

/-- An integer stored into an unsigned field of `w` bits. -/
def truncBits (w n : Nat) : Fin (2 ^ w) := ⟨n % 2 ^ w, Nat.mod_lt _ (Nat.two_pow_pos w)⟩

@[simp] theorem truncBits_val (w n : Nat) : (truncBits w n).val = n % 2 ^ w := rfl

/-- `struct xdna_msg_header`, each field with its declared width. -/
structure MsgHeader where
  totalSize : Fin (2 ^ 32)
  size : Fin (2 ^ 11)
  rsvd0 : Fin (2 ^ 5)
  protocolVersion : Fin (2 ^ 8)
  rsvd1 : Fin (2 ^ 8)
  id : Fin (2 ^ 32)
  opcode : Fin (2 ^ 32)
  deriving DecidableEq, Repr

def MsgHeader.bitfieldWord (h : MsgHeader) : Nat :=
  h.size.val + 2 ^ 11 * h.rsvd0.val + 2 ^ 16 * h.protocolVersion.val + 2 ^ 24 * h.rsvd1.val

/-- The 16 bytes of a header as the packed little-endian struct lays them out. -/
def MsgHeader.bytes (h : MsgHeader) : List UInt8 :=
  u32Bytes h.totalSize.val ++ u32Bytes h.bitfieldWord ++ u32Bytes h.id.val ++ u32Bytes h.opcode.val

/-- `memcpy_fromio(&header, read_addr, sizeof(header))`: the header at a ring offset. -/
def readHeader (mem : Mem) (off : Nat) : MsgHeader :=
  let w := readU32 mem (off + 4)
  { totalSize := truncBits 32 (readU32 mem off)
    size := truncBits 11 w
    rsvd0 := truncBits 5 (w / 2 ^ 11)
    protocolVersion := truncBits 8 (w / 2 ^ 16)
    rsvd1 := truncBits 8 (w / 2 ^ 24)
    id := truncBits 32 (readU32 mem (off + 8))
    opcode := truncBits 32 (readU32 mem (off + 12)) }

@[simp] theorem MsgHeader.bytes_length (h : MsgHeader) : h.bytes.length = headerSize := rfl

theorem holds_listMem (bytes : List UInt8) : Holds (listMem bytes) 0 bytes :=
  List.ext_getElem (by simp) fun i _ h => by simp [readBytes, listMem, h]

theorem holds_append {mem : Mem} {off : Nat} {a b : List UInt8} :
    Holds mem off (a ++ b) ↔ Holds mem off a ∧ Holds mem (off + a.length) b := by
  unfold Holds
  rw [List.length_append, readBytes_add]
  constructor
  · intro h
    exact List.append_inj h (by simp)
  · rintro ⟨h₁, h₂⟩
    rw [h₁, h₂]

theorem readHeader_of_holds {mem : Mem} {off : Nat} {h : MsgHeader} (hold : Holds mem off h.bytes) :
    readHeader mem off = h := by
  unfold MsgHeader.bytes at hold
  simp only [holds_append, List.length_append, u32Bytes_length, Nat.add_assoc] at hold
  obtain ⟨⟨⟨h0, h1⟩, h2⟩, h3⟩ := hold
  replace h0 := readU32_of_holds_u32Bytes h0
  replace h1 := readU32_of_holds_u32Bytes h1
  replace h2 := readU32_of_holds_u32Bytes h2
  replace h3 := readU32_of_holds_u32Bytes h3
  have hs := h.size.isLt
  have hr0 := h.rsvd0.isLt
  have hp := h.protocolVersion.isLt
  have hr1 := h.rsvd1.isLt
  simp only [readHeader, h0, h1, h2, h3, MsgHeader.bitfieldWord]
  clear h0 h1 h2 h3
  cases h
  simp only [MsgHeader.mk.injEq, Fin.ext_iff, truncBits_val]
  refine ⟨?_, ?_, ?_, ?_, ?_, ?_, ?_⟩ <;> omega

/-! ### What a send builds -/

/-- `struct xdna_mailbox_msg` (from `amdxdna_mailbox.h`): the fields `xdna_mailbox_send_msg` reads. -/
structure XdnaMailboxMsg where
  opcode : Nat
  handle : Nat
  notifyCb : Bool
  sendData : List UInt8
  sendSize : Nat
  deriving DecidableEq, Repr

/-- `struct mailbox_msg`, its package being `header` followed by `payload`. -/
structure MailboxMsg where
  handle : Nat
  notifyCb : Bool
  pkgSize : Nat
  header : MsgHeader
  payload : List UInt8
  deriving DecidableEq, Repr

/-- The bytes of `mb_msg->pkg`, which `mailbox_send_msg` copies into the ring. -/
def MailboxMsg.pkg (m : MailboxMsg) : List UInt8 := m.header.bytes ++ m.payload

/-- The three argument checks at the top of `xdna_mailbox_send_msg`, against the X2I ring size. -/
def sendMsgArgsOk (ringbufSize : Nat) (msg : XdnaMailboxMsg) : Bool :=
  !(headerSize + msg.sendSize > ringbufSize) && msg.sendSize % 4 = 0 &&
    !(readU32 (listMem msg.sendData) 0 = tombstone)

/-- The `mailbox_msg` `xdna_mailbox_send_msg` fills in, all but the id. -/
def newMailboxMsg (msg : XdnaMailboxMsg) : MailboxMsg where
  handle := msg.handle
  notifyCb := msg.notifyCb
  pkgSize := headerSize + msg.sendSize
  header :=
    { totalSize := truncBits 32 msg.sendSize
      size := truncBits 11 msg.sendSize
      rsvd0 := 0
      protocolVersion := truncBits 8 msgProtocolVersion
      rsvd1 := 0
      id := 0
      opcode := truncBits 32 msg.opcode }
  payload := readBytes (listMem msg.sendData) 0 msg.sendSize

/-- `header->id = ret`. -/
def MailboxMsg.setId (m : MailboxMsg) (id : Nat) : MailboxMsg :=
  { m with header := { m.header with id := truncBits 32 id } }

@[simp] theorem newMailboxMsg_pkg_length (msg : XdnaMailboxMsg) :
    (newMailboxMsg msg).pkg.length = (newMailboxMsg msg).pkgSize := by
  simp [MailboxMsg.pkg, newMailboxMsg]

@[simp] theorem MailboxMsg.setId_pkgSize (m : MailboxMsg) (id : Nat) : (m.setId id).pkgSize = m.pkgSize := rfl

@[simp] theorem MailboxMsg.setId_pkg_length (m : MailboxMsg) (id : Nat) :
    (m.setId id).pkg.length = m.pkg.length := by
  simp [MailboxMsg.pkg, MailboxMsg.setId]

theorem readHeader_pkg (m : MailboxMsg) : readHeader (listMem m.pkg) 0 = m.header :=
  readHeader_of_holds (holds_append.mp (holds_listMem m.pkg)).1

/-- A 2048-byte payload passes the checks of a 4 KiB ring, and its package's `size` reads 0. -/
theorem send_pkg_size_field_wraps :
    let msg : XdnaMailboxMsg := ⟨0x100, 0, true, List.replicate 2048 1, 2048⟩
    sendMsgArgsOk 4096 msg = true ∧
      (readHeader (listMem ((newMailboxMsg msg).setId 0x1D000000).pkg) 0).size.val = 0 ∧
      (readHeader (listMem ((newMailboxMsg msg).setId 0x1D000000).pkg) 0).totalSize.val = 2048 := by
  simp only [readHeader_pkg]
  decide

end XdnaMailbox
