import XdnaMailbox.Protocol

/-!
# Concurrent senders

No lock covers the cached `x2i_tail` in `mailbox_send_msg`, so two callers can copy to the same
offset and both return 0 (`concurrent_sends_lose_package`). Serialized by their caller, senders are
the single producer of `Protocol`, which keeps every package (`serialized_sends_keep_packages`).
-/

namespace XdnaMailbox

inductive SenderPc
  | start (pkg : List UInt8)
  /-- `head = mailbox_get_headptr(...)` has returned. -/
  | readHead (pkg : List UInt8) (head : Nat)
  /-- `tail = mb_chann->x2i_tail` has been read. -/
  | readTail (pkg : List UInt8) (head tail : Nat)
  /-- The package is copied; `mailbox_set_tailptr(tail)` is next. -/
  | wrote (pkg : List UInt8) (tail : Nat)
  | returned (ret : Int)
  deriving DecidableEq, Repr

/-- The X2I ring of one channel with any number of callers in `mailbox_send_msg`. -/
structure SendersSys where
  mem : Mem
  headReg : Nat
  tailReg : Nat
  cachedTail : Nat
  senders : List SenderPc

inductive SenderStep
  | readHead (i : Nat)
  | readTail (i : Nat)
  | write (i : Nat)
  | publish (i : Nat)

/-- One step of sender `i` on a ring of size `N`, or `none` if it is not at that point. -/
def SendersSys.step (N : Nat) (s : SendersSys) : SenderStep → Option SendersSys
  | .readHead i => match s.senders[i]? with
    | some (.start pkg) => some { s with senders := s.senders.set i (.readHead pkg s.headReg) }
    | _ => none
  | .readTail i => match s.senders[i]? with
    | some (.readHead pkg H) => some { s with senders := s.senders.set i (.readTail pkg H s.cachedTail) }
    | _ => none
  | .write i => match s.senders[i]? with
    | some (.readTail pkg H T) => match mailboxSendMsg N H T s.mem pkg with
      | none => some { s with senders := s.senders.set i (.returned (-ENOSPC)) }
      | some (mem, tail) => some { s with mem := mem, senders := s.senders.set i (.wrote pkg tail) }
    | _ => none
  | .publish i => match s.senders[i]? with
    | some (.wrote _ tail) =>
      some { s with tailReg := tail, cachedTail := tail, senders := s.senders.set i (.returned 0) }
    | _ => none

def SendersSys.run (N : Nat) : SendersSys → List SenderStep → Option SendersSys
  | s, [] => some s
  | s, a :: as => (s.step N a).bind fun s' => s'.run N as

def twoSenders : SendersSys :=
  ⟨fun _ => 0, 0, 0, 0,
    [.start (MsgHeader.bytes ⟨0, 0, 0, 1, 0, 0x1D000000, 1⟩),
     .start (MsgHeader.bytes ⟨0, 0, 0, 1, 0, 0x1D000001, 2⟩)]⟩

/-- Both senders read the pointers before either publishes: both return 0, and one package is lost. -/
theorem concurrent_sends_lose_package :
    let s := twoSenders.run 64 [.readHead 0, .readTail 0, .readHead 1, .readTail 1,
      .write 0, .publish 0, .write 1, .publish 1]
    (s.map (·.senders)) = some [.returned 0, .returned 0] ∧ (s.map (·.tailReg)) = some 16 ∧
      (s.map fun s => readBytes s.mem 0 16) = some (MsgHeader.bytes ⟨0, 0, 0, 1, 0, 0x1D000001, 2⟩) ∧
      MsgHeader.bytes ⟨0, 0, 0, 1, 0, 0x1D000000, 1⟩ ≠ MsgHeader.bytes ⟨0, 0, 0, 1, 0, 0x1D000001, 2⟩ := by
  decide

/-- Serialized senders keep every package sent and unreceived, laid out between head and tail. -/
theorem serialized_sends_keep_packages {N : Nat} (hN : RingSize N) {s : RingSys}
    (hs : s.Reachable N) :
    ∃ R, Layout N s.mem s.cachedHead s.tailReg R ∧ s.sent = s.received ++ R.pkgs.map (·.bytes) ∧
      s.tailReg = s.cachedTail := by
  obtain ⟨R, hL, hsent, -⟩ := (hs.inv hN).region
  exact ⟨R, hL, hsent, (hs.inv hN).cached_tail.symm⟩

theorem serialized_sends_keep_packages_sent :
    ∃ s, (RingSys.init (fun _ => 0) 8).run 64 [.readHead, .write bareHeaderPkg, .publish, .readTail] = some s ∧
      RingSize 64 ∧ s.Reachable 64 ∧
      ∃ R, Layout 64 s.mem s.cachedHead s.tailReg R ∧ s.sent = s.received ++ R.pkgs.map (·.bytes) ∧
        s.tailReg = s.cachedTail := by
  obtain ⟨s, hs⟩ : ∃ s, (RingSys.init (fun _ => 0) 8).run 64
      [.readHead, .write bareHeaderPkg, .publish, .readTail] = some s := ⟨_, rfl⟩
  have hr := (RingSys.Reachable.init _ 8 rfl (by decide)).run hs
  exact ⟨s, hs, ringSize_64, hr, serialized_sends_keep_packages ringSize_64 hr⟩

end XdnaMailbox
