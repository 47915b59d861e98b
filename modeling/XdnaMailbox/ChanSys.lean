import XdnaMailbox.Layout
import XdnaMailbox.Channel

/-!
# A channel with its device

One channel from `xdna_mailbox_create_channel` to `xdna_mailbox_destroy_channel`, run by parties
whose steps interleave: the caller of `xdna_mailbox_send_msg` (one send at a time, cut where
another thread can see its effects), the receive worker (one `mailbox_get_msg` call a step), the
callers of `xdna_mailbox_wait_async_msg`, and the device, which reads the X2I ring and writes the
I2X ring with the same algorithms. `deviceForge` is a write a device keeping to the protocol never
makes. For the proofs the model also keeps the record each package in flight came from.
-/

namespace XdnaMailbox

/-- The package of a header and a payload whose length its `total_size` states. -/
def Package.ofHeader (h : MsgHeader) (payload : List UInt8) (haligned : payload.length % 4 = 0)
    (hsize : h.totalSize.val = payload.length) : Package where
  bytes := h.bytes ++ payload
  aligned := by simp only [List.length_append, MsgHeader.bytes_length, headerSize]; omega
  header_le := by simp
  totalSize_eq := by
    have h0 := readU32_of_holds (holds_listMem (h.bytes ++ payload)) (k := 0) (by simp [headerSize]; omega)
    have h1 := readU32_of_holds_u32Bytes (holds_append.mp (holds_append.mp (holds_append.mp
      (holds_append.mp (holds_listMem (h.bytes ++ payload))).1).1).1).1
    rw [Nat.add_zero] at h0
    simp only [List.length_append, MsgHeader.bytes_length, Nat.add_sub_cancel_left, ← h0, ← hsize]
    rw [h1, Nat.mod_eq_of_lt h.totalSize.isLt]

@[simp] theorem Package.ofHeader_bytes (h : MsgHeader) (payload : List UInt8) (h₁ h₂) :
    (Package.ofHeader h payload h₁ h₂).bytes = h.bytes ++ payload := rfl

def bareResponse (id : Fin (2 ^ 32)) : Package := .ofHeader ⟨0, 0, 0, 1, 0, id, 0⟩ [] rfl rfl

inductive SendPc
  | idle
  | allocated (a : Nat)
  | acquired (a id : Nat)
  | idSet (a : Nat)
  /-- The tail is published; the tracepoint reads the record next. -/
  | published (a : Nat)
  | releasing (a : Nat) (ret : Int)
  | freeing (a : Nat) (ret : Int)
  deriving DecidableEq, Repr

/-- A channel with its parties; the last three fields are for the proofs only. -/
structure ChanSys where
  x2i : RingRes
  i2x : RingRes
  host : Host
  sender : SendPc
  waiters : List WaiterPc
  inbox : List (MsgHeader × Nat)
  destroyed : Bool
  x2iOwners : List Nat
  i2xOwners : List (Option Nat)
  asyncReturned : List XdnaMailboxAsync

/-- The steps; each boolean is whether an allocation succeeds. -/
inductive ChanStep
  | sendStart (msg : XdnaMailboxMsg) (allocOk : Bool)
  | sendAcquire (memOk : Bool)
  | sendSetId
  | sendRing
  | sendTrace
  | sendRelease
  | sendFree
  | rxGetMsg (allocOk : Bool)
  | deviceRead
  | deviceAnswer (i : Nat) (resp : Package)
  | deviceAsync (msg : Package)
  | deviceForge (msg : Package)
  | destroy
  | wait (w : WaitStep)

/-- A step a device that keeps to the protocol may take. -/
def ChanStep.honest : ChanStep → Bool
  | .deviceForge _ => false
  | _ => true

/-- The device's write of a message into the I2X ring by the write algorithm. -/
def RingRes.devicePush (r : RingRes) (pkg : List UInt8) : Option RingRes :=
  (mailboxSendMsg r.rbSize r.headReg r.tailReg r.mem pkg).map fun w => { r with mem := w.1, tailReg := w.2 }

/-- `header->id = id` in the record at `a`. -/
def Host.setId (h : Host) (a id : Nat) : Host :=
  { h with records := Function.update h.records a ((h.records a).setId id) }

def Host.logReturn (h : Host) (a : Option Nat) (ret : Int) : Host := { h with log := h.log ++ [.returned a ret] }

@[simp] theorem Host.setId_chan (h : Host) (a id : Nat) : (h.setId a id).chan = h.chan := rfl

@[simp] theorem Host.setId_records (h : Host) (a id : Nat) :
    (h.setId a id).records = Function.update h.records a ((h.records a).setId id) := rfl

@[simp] theorem Host.setId_live (h : Host) (a id : Nat) : (h.setId a id).live = h.live := rfl

@[simp] theorem Host.setId_nextAddr (h : Host) (a id : Nat) : (h.setId a id).nextAddr = h.nextAddr := rfl

@[simp] theorem Host.setId_log (h : Host) (a id : Nat) : (h.setId a id).log = h.log := rfl

@[simp] theorem Host.logReturn_chan (h : Host) (a : Option Nat) (ret : Int) : (h.logReturn a ret).chan = h.chan := rfl

@[simp] theorem Host.logReturn_records (h : Host) (a : Option Nat) (ret : Int) :
    (h.logReturn a ret).records = h.records := rfl

@[simp] theorem Host.logReturn_live (h : Host) (a : Option Nat) (ret : Int) : (h.logReturn a ret).live = h.live := rfl

@[simp] theorem Host.logReturn_nextAddr (h : Host) (a : Option Nat) (ret : Int) :
    (h.logReturn a ret).nextAddr = h.nextAddr := rfl

@[simp] theorem Host.logReturn_log (h : Host) (a : Option Nat) (ret : Int) :
    (h.logReturn a ret).log = h.log ++ [.returned a ret] := rfl

/-- The async queue and its callers as the async queue's model holds them. -/
def ChanSys.asyncView (s : ChanSys) : AsyncSys :=
  ⟨s.host.chan.asyncMsgList, s.host.chan.asyncComp, false, s.waiters,
    s.asyncReturned ++ s.host.chan.asyncMsgList, s.asyncReturned⟩

def ChanSys.stepLive (s : ChanSys) : ChanStep → Option ChanSys
  | .sendStart msg allocOk => match s.sender with
    | .idle =>
      if !sendMsgArgsOk s.host.chan.x2iSize msg then some { s with host := s.host.logReturn none (-EINVAL) }
      else if !allocOk then some { s with host := s.host.logReturn none (-ENOMEM) }
      else
        let r := s.host.alloc (newMailboxMsg msg)
        some { s with host := r.2, sender := .allocated r.1 }
    | _ => none
  | .sendAcquire memOk => match s.sender with
    | .allocated a => match mailboxAcquireMsgid s.host.chan.chanIdr a memOk with
      | .error e => some { s with sender := .freeing a e }
      | .ok (id, idr) =>
        some { s with host := { s.host with chan := { s.host.chan with chanIdr := idr } }, sender := .acquired a id }
    | _ => none
  | .sendSetId => match s.sender with
    | .acquired a id => some { s with host := (s.host.touch a false).setId a id, sender := .idSet a }
    | _ => none
  | .sendRing => match s.sender with
    | .idSet a =>
      let h := s.host.touch a false
      match mailboxSendMsg h.chan.x2iSize s.x2i.headReg h.chan.x2iTail s.x2i.mem (h.records a).pkg with
      | none => some { s with host := h, sender := .releasing a (-ENOSPC) }
      | some (mem, tail) =>
        some { s with x2i := { s.x2i with mem := mem, tailReg := tail },
                      host := { h with chan := { h.chan with x2iTail := tail } },
                      sender := .published a, x2iOwners := s.x2iOwners ++ [a] }
    | _ => none
  | .sendTrace => match s.sender with
    | .published a => some { s with host := (s.host.touch a true).logReturn (some a) 0, sender := .idle }
    | _ => none
  | .sendRelease => match s.sender with
    | .releasing a ret =>
      let h := s.host.touch a false
      some { s with host := { h with chan := { h.chan with
                      chanIdr := mailboxReleaseMsgid h.chan.chanIdr (h.records a).header.id.val } },
                    sender := .freeing a ret }
    | _ => none
  | .sendFree => match s.sender with
    | .freeing a ret => some { s with host := (s.host.kfree a).logReturn (some a) ret, sender := .idle }
    | _ => none
  | .rxGetMsg allocOk =>
    let d := (mailboxGetMsg s.host.chan.i2xSize s.i2x.mem s.i2x.tailReg s.host.chan.i2xHead).dispatch
    let r := s.host.rxGetMsg s.i2x allocOk
    some { s with host := r.2.1, i2x := r.2.2, i2xOwners := if d.isSome then s.i2xOwners.tail else s.i2xOwners }
  | .deviceRead =>
    let r := mailboxGetMsg s.x2i.rbSize s.x2i.mem s.x2i.tailReg s.x2i.headReg
    match r.head, r.dispatch with
    | none, _ => none
    | some h, none => some { s with x2i := { s.x2i with headReg := h } }
    | some h, some d =>
      some { s with x2i := { s.x2i with headReg := h }, inbox := s.inbox ++ [(d.header, s.x2iOwners.headD 0)],
                    x2iOwners := s.x2iOwners.tail }
  | .deviceAnswer i resp => match s.inbox[i]? with
    | some (header, a) =>
      if (readHeader (listMem resp.bytes) 0).id = header.id ∧ resp.bytes.length ≤ s.i2x.rbSize then
        (s.i2x.devicePush resp.bytes).map fun i2x =>
          { s with i2x := i2x, inbox := s.inbox.eraseIdx i, i2xOwners := s.i2xOwners ++ [some a] }
      else none
    | none => none
  | .deviceAsync msg =>
    if asyncMsgStartId ≤ (readHeader (listMem msg.bytes) 0).id.val ∧ msg.bytes.length ≤ s.i2x.rbSize then
      (s.i2x.devicePush msg.bytes).map fun i2x => { s with i2x := i2x, i2xOwners := s.i2xOwners ++ [none] }
    else none
  | .deviceForge msg =>
    (s.i2x.devicePush msg.bytes).map fun i2x => { s with i2x := i2x, i2xOwners := s.i2xOwners ++ [none] }
  | .destroy => match s.sender with
    | .idle => some { s with host := s.host.destroyChannel, destroyed := true }
    | _ => none
  | .wait w => (s.asyncView.step w.toAsync).map fun q =>
    { s with host := { s.host with chan := { s.host.chan with asyncMsgList := q.list, asyncComp := q.done } },
             waiters := q.waiters, asyncReturned := q.returned }

def ChanSys.step (s : ChanSys) (a : ChanStep) : Option ChanSys := if s.destroyed then none else s.stepLive a

theorem ChanSys.step_eq_some {s s' : ChanSys} {a : ChanStep} (h : s.step a = some s') :
    s.destroyed = false ∧ s.stepLive a = some s' := by
  unfold ChanSys.step at h
  split at h
  · cases h
  · exact ⟨Bool.eq_false_iff.mpr ‹_›, h⟩

theorem ChanSys.stepLive_destroy {s s' : ChanSys} (h : s.stepLive .destroy = some s') : s'.destroyed = true := by
  simp only [ChanSys.stepLive] at h
  split at h <;> cases h
  rfl

def ChanSys.run : ChanSys → List ChanStep → Option ChanSys
  | s, [] => some s
  | s, a :: as => (s.step a).bind fun s' => s'.run as

/-- A new channel over an X2I ring empty at `P` and an I2X ring empty at 0. -/
def ChanSys.init (N M P : Nat) (mx mi : Mem) (c : MailboxChannel) : ChanSys :=
  ⟨⟨N, mx, P, P⟩, ⟨M, mi, 0, 0⟩, ⟨c, fun _ => zeroMsg, fun _ => false, 0, []⟩, .idle, [], [], false, [], [], []⟩

/-- The states a channel reaches when the device keeps to the protocol. -/
inductive ChanSys.Reachable (N M : Nat) : ChanSys → Prop
  | init (mx mi : Mem) (P : Nat) (c : MailboxChannel) (hP : P % 4 = 0) (hPN : P ≤ N - 4)
      (hc : xdnaMailboxCreateChannel ⟨N, mx, P, P⟩ ⟨M, mi, 0, 0⟩ true = some c) :
      Reachable N M (.init N M P mx mi c)
  | step {s s' : ChanSys} (a : ChanStep) : Reachable N M s → a.honest → s.step a = some s' →
      Reachable N M s'

theorem ChanSys.Reachable.run {N M : Nat} {s s' : ChanSys} {as : List ChanStep} (hr : s.Reachable N M)
    (hh : as.all ChanStep.honest) (h : s.run as = some s') : s'.Reachable N M := by
  induction as generalizing s with
  | nil => cases h; exact hr
  | cons a as ih =>
    simp only [List.all_cons, Bool.and_eq_true] at hh
    obtain ⟨t, ht, h⟩ := Option.bind_eq_some.mp h
    exact ih (hr.step a hh.1 ht) hh.2 h

/-! ### Where records are touched after their `kfree` -/

def chan64 : MailboxChannel := ⟨64, 64, .empty, 0, 0, [], 0⟩

def zeroRequest (sendSize : Nat) : XdnaMailboxMsg := ⟨1, 0, true, List.replicate sendSize 0, sendSize⟩

theorem chan64_reachable : (ChanSys.init 64 64 0 (fun _ => 0) (fun _ => 0) chan64).Reachable 64 64 :=
  .init _ _ 0 _ rfl (by decide) rfl

def busySteps : List ChanStep :=
  [.sendStart (zeroRequest 16) true, .sendAcquire true, .sendSetId, .sendRing, .sendTrace, .deviceRead,
   .deviceAnswer 0 (bareResponse 0x1D000000)]

/-- One request in flight with its response in the I2X ring, the X2I ring read to its tail. -/
def busy64 : ChanSys :=
  ((ChanSys.init 64 64 0 (fun _ => 0) (fun _ => 0) chan64).run busySteps).getD
    (ChanSys.init 64 64 0 (fun _ => 0) (fun _ => 0) chan64)

theorem busy64_reachable : busy64.Reachable 64 64 :=
  chan64_reachable.run (by decide)
    (show (ChanSys.init 64 64 0 (fun _ => 0) (fun _ => 0) chan64).run busySteps = some busy64 from rfl)

/-- A forged response frees a sending record that the send then reads and frees again; and with an
honest device the worker frees a record before the tracepoint of `mailbox_send_msg` reads it. -/
theorem forged_and_fast_responses_touch_freed_records :
    ((ChanSys.init 64 64 0 (fun _ => 0) (fun _ => 0) chan64).run
      [.sendStart (zeroRequest 32) true, .sendAcquire true, .sendSetId, .sendRing, .sendTrace,
       .sendStart (zeroRequest 0) true, .sendAcquire true, .deviceForge (bareResponse 0x1D000001),
       .rxGetMsg true, .sendSetId, .sendRing, .sendRelease, .sendFree]).map (·.host.log) =
      some [.returned (some 0) 0, .notify 1 (some []), .free 1, .stale 1 false, .stale 1 false,
        .stale 1 false, .free 1, .returned (some 1) (-ENOSPC)] ∧
    ∃ s, (ChanSys.init 64 64 0 (fun _ => 0) (fun _ => 0) chan64).run
        [.sendStart (zeroRequest 0) true, .sendAcquire true, .sendSetId, .sendRing, .deviceRead,
         .deviceAnswer 0 (bareResponse 0x1D000000), .rxGetMsg true, .sendTrace] = some s ∧
      s.Reachable 64 64 ∧ s.host.log = [.notify 0 (some []), .free 0, .stale 0 true, .returned (some 0) 0] := by
  obtain ⟨s, hs⟩ : ∃ s, (ChanSys.init 64 64 0 (fun _ => 0) (fun _ => 0) chan64).run
      [.sendStart (zeroRequest 0) true, .sendAcquire true, .sendSetId, .sendRing, .deviceRead,
       .deviceAnswer 0 (bareResponse 0x1D000000), .rxGetMsg true, .sendTrace] = some s := ⟨_, rfl⟩
  have hlog : (some s).map (·.host.log) = some [.notify 0 (some []), .free 0, .stale 0 true,
      .returned (some 0) 0] := by
    rw [← hs]
    decide
  exact ⟨by decide, s, hs, chan64_reachable.run (by decide) hs, Option.some.inj hlog⟩

end XdnaMailbox
