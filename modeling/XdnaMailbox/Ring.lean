import XdnaMailbox.Package

/-!
# The ring algorithms

`mailbox_send_msg` writes one package into the X2I ring and `mailbox_get_msg` reads one message
from the I2X ring, as functions of the ring's bytes and the pointer values they read. Pointers are
`u32`, so `tail + pkg_size`, `tail - head` and the new head wrap at `2^32`, while
`ringbuf_size - sizeof(u32)` is a `size_t` difference.
-/

namespace XdnaMailbox

/-- `a - b` on `u32` operands. -/
def u32Sub (a b : Nat) : Nat := (a + 2 ^ 32 - b) % 2 ^ 32

/-- `ringbuf_size - sizeof(u32)`, a 64-bit difference since `sizeof` is a `size_t`. -/
def ringbufLimit (ringbufSize : Nat) : Nat := (ringbufSize + 2 ^ 64 - 4) % 2 ^ 64

/-- `mailbox_send_msg`: the ring's bytes and the tail it publishes, or `none` for `-ENOSPC`. -/
def mailboxSendMsg (ringbufSize head tail : Nat) (mem : Mem) (pkg : List UInt8) : Option (Mem × Nat) :=
  let tmpTail := (tail + pkg.length) % 2 ^ 32
  if tail < head ∧ tmpTail ≥ head then none
  else if tail ≥ head ∧ tmpTail > ringbufLimit ringbufSize ∧ pkg.length ≥ head then none
  else if tail ≥ head ∧ tmpTail > ringbufLimit ringbufSize then
    some (writeBytes (writeU32 mem tail tombstone) 0 pkg, (0 + pkg.length) % 2 ^ 32)
  else some (writeBytes mem tail pkg, (tail + pkg.length) % 2 ^ 32)

theorem mailboxSendMsg_eq_some {N H T : Nat} {mem mem' : Mem} {pkg : List UInt8} {T' : Nat}
    (h : mailboxSendMsg N H T mem pkg = some (mem', T')) :
    (T < H ∧ (T + pkg.length) % 2 ^ 32 < H ∧ mem' = writeBytes mem T pkg ∧
        T' = (T + pkg.length) % 2 ^ 32) ∨
      (H ≤ T ∧ (T + pkg.length) % 2 ^ 32 ≤ ringbufLimit N ∧ mem' = writeBytes mem T pkg ∧
        T' = (T + pkg.length) % 2 ^ 32) ∨
      (H ≤ T ∧ ringbufLimit N < (T + pkg.length) % 2 ^ 32 ∧ pkg.length < H ∧
        mem' = writeBytes (writeU32 mem T tombstone) 0 pkg ∧ T' = pkg.length % 2 ^ 32) := by
  dsimp only [mailboxSendMsg] at h
  split_ifs at h with h₁ h₂ h₃
  · simp only [Option.some.injEq, Prod.mk.injEq] at h
    obtain ⟨rfl, rfl⟩ := h
    exact .inr (.inr ⟨h₃.1, h₃.2, by omega, rfl, by simp⟩)
  · simp only [Option.some.injEq, Prod.mk.injEq] at h
    obtain ⟨rfl, rfl⟩ := h
    by_cases hT : T < H
    · exact .inl ⟨hT, by omega, rfl, rfl⟩
    · exact .inr (.inl ⟨by omega, by omega, rfl, rfl⟩)

/-- A call of `mailbox_get_resp` or `mailbox_get_async_msg`, with the header and the payload's offset. -/
inductive Dispatch
  | resp (header : MsgHeader) (data : Nat)
  | async (header : MsgHeader) (data : Nat)
  deriving DecidableEq, Repr

def Dispatch.header : Dispatch → MsgHeader
  | .resp h _ | .async h _ => h

def Dispatch.data : Dispatch → Nat
  | .resp _ d | .async _ d => d

/-- The branch of `mailbox_get_msg` on `header.id`. -/
def routeMsg (header : MsgHeader) (data : Nat) : Dispatch :=
  if header.id.val < asyncMsgStartId then .resp header data else .async header data

@[simp] theorem routeMsg_header (header : MsgHeader) (data : Nat) :
    (routeMsg header data).header = header := by
  unfold routeMsg; split <;> rfl

@[simp] theorem routeMsg_data (header : MsgHeader) (data : Nat) : (routeMsg header data).data = data := by
  unfold routeMsg; split <;> rfl

/-- A call's return value, the head it passed to `mailbox_set_headptr`, and its dispatch. -/
structure GetMsg where
  ret : Int
  head : Option Nat
  dispatch : Option Dispatch
  deriving DecidableEq, Repr

/-- `mailbox_get_msg`, with `tail` read from the tail register and `head` the cached `i2x_head`. -/
def mailboxGetMsg (ringbufSize : Nat) (mem : Mem) (tail head : Nat) : GetMsg :=
  if head &&& u32Sub ringbufSize 1 = tail &&& u32Sub ringbufSize 1 then ⟨-ENOENT, none, none⟩
  else
    let head := if head = ringbufSize then 0 else head
    let val := readU32 mem head
    if val = tombstone then ⟨0, some 0, none⟩
    else
      let header := readHeader mem head
      if val + headerSize > u32Sub tail head then ⟨-EINVAL, none, none⟩
      else
        ⟨0, some ((head + headerSize + val) % 2 ^ 32), some (routeMsg header (head + headerSize))⟩

/-- With the tail wrapped below the head, a header claiming 1000 bytes passes the size check. -/
theorem getMsg_accepts_past_ring :
    let header : MsgHeader := ⟨1000, 1000, 0, 1, 0, 0x80000000, 7⟩
    let r := mailboxGetMsg 64 (writeBytes (fun _ => 0) 48 header.bytes) 16 48
    r.ret = 0 ∧ r.head = some 1064 ∧ r.dispatch = some (.async header 64) := by
  decide

end XdnaMailbox
