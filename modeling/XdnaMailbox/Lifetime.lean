import XdnaMailbox.Layout
import XdnaMailbox.Channel

/-!
# Channel lifetimes

A mailbox's rings outlive its channels. A new channel resumes the X2I side from the tail
register, but its `i2x_head` is the `kzalloc`ed 0 whatever the I2X head register says, so its
worker hands on again what the previous channel consumed (`recreated_channel_redispatches`).
`LifetimeSys` runs creations, destructions, device writes and worker calls.
-/

namespace XdnaMailbox

/-- The rings, the host, whether a channel is open, and what the device wrote and the worker dispatched. -/
structure LifetimeSys where
  x2i : RingRes
  i2x : RingRes
  host : Host
  chanOpen : Bool
  written : List (List UInt8)
  dispatched : List Dispatch

/-- Creation, destruction, a device write into the I2X ring, and one call of the worker. -/
inductive LifetimeStep
  | create (resOk : Bool)
  | destroy
  | deviceWrite (pkg : List UInt8)
  | drain (allocOk : Bool)

def LifetimeSys.step (s : LifetimeSys) : LifetimeStep → Option LifetimeSys
  | .create resOk =>
    if s.chanOpen then none
    else match xdnaMailboxCreateChannel s.x2i s.i2x resOk with
      | none => some s
      | some c => some { s with host := { s.host with chan := c }, chanOpen := true }
  | .destroy => if s.chanOpen then some { s with host := s.host.destroyChannel, chanOpen := false } else none
  | .deviceWrite pkg =>
    match mailboxSendMsg s.i2x.rbSize s.i2x.headReg s.i2x.tailReg s.i2x.mem pkg with
    | none => none
    | some (mem, tail) =>
      some { s with i2x := { s.i2x with mem := mem, tailReg := tail }, written := s.written ++ [pkg] }
  | .drain allocOk =>
    if s.chanOpen then
      let d := (mailboxGetMsg s.host.chan.i2xSize s.i2x.mem s.i2x.tailReg s.host.chan.i2xHead).dispatch
      let r := s.host.rxGetMsg s.i2x allocOk
      some { s with host := r.2.1, i2x := r.2.2, dispatched := s.dispatched ++ d.toList }
    else none

def LifetimeSys.run : LifetimeSys → List LifetimeStep → Option LifetimeSys
  | s, [] => some s
  | s, a :: as => (s.step a).bind fun s' => s'.run as

def LifetimeSys.init (x2i i2x : RingRes) : LifetimeSys :=
  ⟨x2i, i2x, ⟨⟨0, 0, .empty, 0, 0, [], 0⟩, fun _ => zeroMsg, fun _ => false, 0, []⟩, false, [], []⟩

/-- A new channel's first call of `mailbox_get_msg` hands on a package still laid out from offset 0. -/
theorem createChannel_rereads {N : Nat} (hN : RingSize N) {x2i i2x : RingRes} {resOk : Bool}
    {c : MailboxChannel} (hc : xdnaMailboxCreateChannel x2i i2x resOk = some c) (hsize : i2x.rbSize = N)
    {p : Package} {ps : List Package} (hL : Layout N i2x.mem 0 i2x.tailReg (.flat (p :: ps))) :
    mailboxGetMsg c.i2xSize i2x.mem i2x.tailReg c.i2xHead =
      ⟨0, some p.bytes.length, some (routeMsg (readHeader i2x.mem 0) headerSize)⟩ := by
  obtain rfl := xdnaMailboxCreateChannel_eq hc
  have hne : i2x.tailReg ≠ 0 := by
    have := p.header_le
    rw [hL.2.1]
    simp only [span]
    unfold headerSize at this
    omega
  simpa [hsize] using getMsg_front hN hL hL.boundary rfl hne

/-- A channel re-created over an empty I2X ring dispatches its last message again. -/
theorem recreated_channel_redispatches :
    let M : MsgHeader := ⟨0, 0, 0, 1, 0, 0x80000000, 1⟩
    let s₀ := LifetimeSys.init ⟨64, fun _ => 0, 0, 0⟩ ⟨64, fun _ => 0, 0, 0⟩
    (s₀.run [.create true, .deviceWrite M.bytes, .drain true, .drain true, .destroy, .create true]).map
        (fun s => (s.i2x.headReg, s.i2x.tailReg, s.written, s.dispatched)) =
      some (16, 16, [M.bytes], [.async M 16]) ∧
    (s₀.run [.create true, .deviceWrite M.bytes, .drain true, .drain true, .destroy, .create true,
        .drain true]).map (fun s => (s.written, s.dispatched)) =
      some ([M.bytes], [.async M 16, .async M 16]) := by
  decide

end XdnaMailbox
