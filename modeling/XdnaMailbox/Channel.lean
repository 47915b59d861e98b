import XdnaMailbox.Ring
import XdnaMailbox.AsyncQueue

/-!
# The channel

`struct mailbox_channel` keeps the id map (`chan_idr`), the cached `x2i_tail` and `i2x_head`, and
the async queue; the rings belong to the mailbox's resources (`RingRes`). The requests are
`kzalloc`ed records, so the kernel heap is part of the model, each allocation at a fresh address,
and the host logs what a caller or the allocator could observe (`Event`).
-/

namespace XdnaMailbox

/-! ### The id map -/

/-- The kernel's `struct idr`: the pointer each key holds, and the cursor `idr_next`. -/
structure Idr where
  slots : Nat → Option Nat
  next : Nat

/-- `idr_init`. -/
def Idr.empty : Idr := ⟨fun _ => none, 0⟩

/-- The lowest free key in `[lo, hi)`, as `idr_alloc_u32` finds it. -/
def Idr.lowestFree (idr : Idr) (lo hi : Nat) : Option Nat :=
  (List.range' lo (hi - lo)).find? fun k => (idr.slots k).isNone

/-- `idr_alloc_cyclic(idr, ptr, start, end, gfp)`, or `none` for `-ENOSPC`. -/
def Idr.allocCyclic (idr : Idr) (ptr start stop : Nat) : Option (Nat × Idr) :=
  let id := if idr.next < start then start else idr.next
  let found := match idr.lowestFree id stop with
    | some k => some k
    | none => if id > start then idr.lowestFree start stop else none
  found.map fun k => (k, ⟨Function.update idr.slots k (some ptr), k + 1⟩)

/-- `idr_remove`. -/
def Idr.remove (idr : Idr) (k : Nat) : Idr := { idr with slots := Function.update idr.slots k none }

/-- `mailbox_acquire_msgid`; `memOk` is whether its `GFP_NOWAIT` allocation succeeds. -/
def mailboxAcquireMsgid (idr : Idr) (mbMsg : Nat) (memOk : Bool) : Except Int (Nat × Idr) :=
  if !memOk then .error (-ENOMEM)
  else match idr.allocCyclic mbMsg 0 maxMsgIdEntries with
    | none => .error (-ENOSPC)
    | some (k, idr') => .ok (k ||| magicVal, idr')

/-- `mailbox_release_msgid`. -/
def mailboxReleaseMsgid (idr : Idr) (msgId : Nat) : Idr := idr.remove (msgId &&& 0xFFFFFF)

/-- `mailbox_validate_msgid`. -/
def mailboxValidateMsgid (msgId : Nat) : Bool := msgId &&& magicValMask == magicVal

/-! ### The channel and the kernel heap -/

/-- One ring of the mailbox's resources: `rb_size`, its bytes and its pointer registers. -/
structure RingRes where
  rbSize : Nat
  mem : Mem
  headReg : Nat
  tailReg : Nat

/-- `struct mailbox_channel`: the fields the modelled functions read and write. -/
structure MailboxChannel where
  x2iSize : Nat
  i2xSize : Nat
  chanIdr : Idr
  x2iTail : Nat
  i2xHead : Nat
  asyncMsgList : List XdnaMailboxAsync
  asyncComp : Nat

/-- `is_power_of_2`. -/
def isPowerOf2 (n : Nat) : Bool := n != 0 && n &&& (n - 1) == 0

/-- `xdna_mailbox_create_channel`; `resOk` is whether its allocations and requests succeed. -/
def xdnaMailboxCreateChannel (x2i i2x : RingRes) (resOk : Bool) : Option MailboxChannel :=
  if !isPowerOf2 x2i.rbSize || !isPowerOf2 i2x.rbSize || !resOk then none
  else some { x2iSize := x2i.rbSize, i2xSize := i2x.rbSize, chanIdr := .empty,
              x2iTail := x2i.tailReg, i2xHead := 0, asyncMsgList := [], asyncComp := 0 }

theorem xdnaMailboxCreateChannel_eq {x2i i2x : RingRes} {resOk : Bool} {c : MailboxChannel}
    (h : xdnaMailboxCreateChannel x2i i2x resOk = some c) :
    c = ⟨x2i.rbSize, i2x.rbSize, .empty, x2i.tailReg, 0, [], 0⟩ := by
  unfold xdnaMailboxCreateChannel at h
  split_ifs at h
  exact (Option.some.inj h).symm

inductive Event
  /-- `xdna_mailbox_send_msg` returned `ret`; `addr` is its record, if it allocated one. -/
  | returned (addr : Option Nat) (ret : Int)
  /-- `notify_cb` of the record at `addr`, with the bytes it is handed, or `none` for `NULL`. -/
  | notify (addr : Nat) (data : Option (List UInt8))
  /-- `kfree` of the record at `addr`. -/
  | free (addr : Nat)
  /-- An access to a freed record; `byTrace` for the tracepoint of `mailbox_send_msg`. -/
  | stale (addr : Nat) (byTrace : Bool)
  deriving DecidableEq, Repr

/-- The `kzalloc`ed `mailbox_msg` before anything is stored in it. -/
def zeroMsg : MailboxMsg := ⟨0, false, 0, ⟨0, 0, 0, 0, 0, 0, 0⟩, []⟩

/-- The channel, the records by address, which are allocated, the next address, and the log. -/
structure Host where
  chan : MailboxChannel
  records : Nat → MailboxMsg
  live : Nat → Bool
  nextAddr : Nat
  log : List Event

/-- `kzalloc` of a record and the stores that fill it. -/
def Host.alloc (h : Host) (m : MailboxMsg) : Nat × Host :=
  (h.nextAddr, { h with records := Function.update h.records h.nextAddr m,
                        live := Function.update h.live h.nextAddr true, nextAddr := h.nextAddr + 1 })

@[simp] theorem Host.alloc_fst (h : Host) (m : MailboxMsg) : (h.alloc m).1 = h.nextAddr := rfl

@[simp] theorem Host.alloc_chan (h : Host) (m : MailboxMsg) : (h.alloc m).2.chan = h.chan := rfl

@[simp] theorem Host.alloc_records (h : Host) (m : MailboxMsg) :
    (h.alloc m).2.records = Function.update h.records h.nextAddr m := rfl

@[simp] theorem Host.alloc_live (h : Host) (m : MailboxMsg) :
    (h.alloc m).2.live = Function.update h.live h.nextAddr true := rfl

@[simp] theorem Host.alloc_nextAddr (h : Host) (m : MailboxMsg) : (h.alloc m).2.nextAddr = h.nextAddr + 1 := rfl

@[simp] theorem Host.alloc_log (h : Host) (m : MailboxMsg) : (h.alloc m).2.log = h.log := rfl

/-- An access to the record at `a`, logged if it is no longer allocated. -/
def Host.touch (h : Host) (a : Nat) (byTrace : Bool) : Host :=
  if h.live a then h else { h with log := h.log ++ [.stale a byTrace] }

/-- `kfree`. -/
def Host.kfree (h : Host) (a : Nat) : Host :=
  { h with live := Function.update h.live a false, log := h.log ++ [.free a] }

@[simp] theorem Host.kfree_chan (h : Host) (a : Nat) : (h.kfree a).chan = h.chan := rfl

@[simp] theorem Host.kfree_records (h : Host) (a : Nat) : (h.kfree a).records = h.records := rfl

@[simp] theorem Host.kfree_live (h : Host) (a : Nat) : (h.kfree a).live = Function.update h.live a false := rfl

@[simp] theorem Host.kfree_nextAddr (h : Host) (a : Nat) : (h.kfree a).nextAddr = h.nextAddr := rfl

@[simp] theorem Host.kfree_log (h : Host) (a : Nat) : (h.kfree a).log = h.log ++ [.free a] := rfl

/-- `if (mb_msg->notify_cb) mb_msg->notify_cb(mb_msg->handle, data, size)`. -/
def Host.notify (h : Host) (a : Nat) (data : Option (List UInt8)) : Host :=
  if (h.records a).notifyCb then { h with log := h.log ++ [.notify a data] } else h

/-- `mailbox_get_resp` on a header and the ring offset of its payload. -/
def Host.mailboxGetResp (h : Host) (mem : Mem) (header : MsgHeader) (data : Nat) : Host :=
  if !mailboxValidateMsgid header.id.val then h
  else
    let msgId := header.id.val &&& 0xFFFFFF
    match h.chan.chanIdr.slots msgId with
    | none => h
    | some a =>
      let h := { h with chan := { h.chan with chanIdr := h.chan.chanIdr.remove msgId } }
      ((h.touch a false).notify a (some (readBytes mem data header.size.val))).kfree a

/-- `mailbox_get_async_msg`; `allocOk` is whether its `kzalloc` succeeds. -/
def MailboxChannel.mailboxGetAsyncMsg (c : MailboxChannel) (mem : Mem) (header : MsgHeader)
    (data : Nat) (allocOk : Bool) : MailboxChannel :=
  if allocOk then
    { c with asyncMsgList := c.asyncMsgList ++ [asyncMsgOf mem header data],
             asyncComp := completeDone c.asyncComp }
  else c

/-- One call of `mailbox_get_msg` by the worker, with its dispatch and `mailbox_set_headptr`. -/
def Host.rxGetMsg (h : Host) (i2x : RingRes) (allocOk : Bool) : Int × Host × RingRes :=
  let r := mailboxGetMsg h.chan.i2xSize i2x.mem i2x.tailReg h.chan.i2xHead
  let h' := match r.dispatch with
    | none => h
    | some (.resp header data) => h.mailboxGetResp i2x.mem header data
    | some (.async header data) => { h with chan := h.chan.mailboxGetAsyncMsg i2x.mem header data allocOk }
  match r.head with
  | none => (r.ret, h', i2x)
  | some head => (r.ret, { h' with chan := { h'.chan with i2xHead := head } }, { i2x with headReg := head })

/-- `mailbox_release_msg`. -/
def Host.mailboxReleaseMsg (h : Host) (a : Nat) : Host := ((h.touch a false).notify a none).kfree a

def Host.releaseKey (idr : Idr) (h : Host) (k : Nat) : Host :=
  match idr.slots k with
  | some a => h.mailboxReleaseMsg a
  | none => h

/-- `xdna_mailbox_destroy_channel` once the interrupt and the workqueue are gone. -/
def Host.destroyChannel (h : Host) : Host :=
  let h' := (List.range maxMsgIdEntries).foldl (Host.releaseKey h.chan.chanIdr) h
  { h' with chan := { h'.chan with chanIdr := .empty, asyncMsgList := [] } }

end XdnaMailbox
