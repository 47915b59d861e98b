import XdnaMailbox.PendingMap
import XdnaMailbox.SendBounds

/-!
# One call of `xdna_mailbox_send_msg`

The send steps of `ChanSys` run back to back are one call of the function (`ChanSys.sendCall`). A
call always returns; an error exit leaves the X2I ring and the id map as they were but for the
cursor of `idr_alloc_cyclic`, and a call returning 0 leaves its package queued behind the others in
the layout the device reads.
-/

namespace XdnaMailbox

/-- The caller's next step in the source's order, or `none` once the call has returned. -/
def SendPc.next (memOk : Bool) : SendPc → Option ChanStep
  | .idle => none
  | .allocated _ => some (.sendAcquire memOk)
  | .acquired _ _ => some .sendSetId
  | .idSet _ => some .sendRing
  | .published _ => some .sendTrace
  | .releasing _ _ => some .sendRelease
  | .freeing _ _ => some .sendFree

/-- At most `fuel` of the caller's remaining steps with nothing interleaved. -/
def ChanSys.finishSend (memOk : Bool) : Nat → ChanSys → Option ChanSys
  | 0, _ => none
  | fuel + 1, s => match (s.sender.next memOk).map s.step with
    | none => some s
    | some r => r.bind (ChanSys.finishSend memOk fuel)

/-- One call of `xdna_mailbox_send_msg` with nothing interleaved. -/
def ChanSys.sendCall (s : ChanSys) (msg : XdnaMailboxMsg) (allocOk memOk : Bool) : Option ChanSys :=
  (s.step (.sendStart msg allocOk)).bind (ChanSys.finishSend memOk 6)

/-- A call logged no callback before its return, and an error return left the X2I ring and the
channel as they were but for the id map's cursor. -/
def ChanSys.FailureAtomic (s s' : ChanSys) : Prop :=
  ∃ evs a ret, s'.host.log = s.host.log ++ evs ++ [.returned a ret] ∧ (∀ b d, Event.notify b d ∉ evs) ∧
    (ret ≠ 0 → s'.x2i = s.x2i ∧
      ∃ n, s'.host.chan = { s.host.chan with chanIdr := { s.host.chan.chanIdr with next := n } })

theorem mailboxReleaseMsgid_acquire {idr idr' : Idr} {a id : Nat} {memOk : Bool}
    (h : mailboxAcquireMsgid idr a memOk = .ok (id, idr')) (m : MailboxMsg) :
    mailboxReleaseMsgid idr' (m.setId id).header.id.val = { idr with next := idr'.next } := by
  obtain ⟨k, hk, rfl, hfree, hslots⟩ := mailboxAcquireMsgid_ok h
  have hkey : (m.setId (k ||| magicVal)).header.id.val &&& 0xFFFFFF = k := (m.setId_issued hk).1
  simp only [mailboxReleaseMsgid, Idr.remove, hkey, hslots, Function.update_idem]
  rw [← hfree, Function.update_eq_self]

theorem mailboxAcquireMsgid_error_of_memOk {idr : Idr} {a : Nat} {e : Int}
    (h : mailboxAcquireMsgid idr a true = .error e) : e = -ENOSPC := by
  simp only [mailboxAcquireMsgid, Bool.not_true, Bool.false_eq_true, if_false] at h
  split at h <;> cases h
  rfl

section
variable {s : ChanSys}

/-- Everything one call can end with, on a live channel with no send in progress. -/
theorem ChanSys.sendCall_cases (hs : s.sender = .idle) (hd : s.destroyed = false) (msg : XdnaMailboxMsg)
    (allocOk memOk : Bool) :
    ∃ s', s.sendCall msg allocOk memOk = some s' ∧
      ((∃ e, (sendMsgArgsOk s.host.chan.x2iSize msg = false ∧ e = -EINVAL ∨ allocOk = false ∧ e = -ENOMEM) ∧
          s'.host.log = s.host.log ++ [.returned none e] ∧ s'.host.chan = s.host.chan ∧ s'.x2i = s.x2i) ∨
        (∃ e, mailboxAcquireMsgid s.host.chan.chanIdr s.host.nextAddr memOk = .error e ∧
          s'.host.log = s.host.log ++ [.free s.host.nextAddr, .returned (some s.host.nextAddr) e] ∧
          s'.host.chan = s.host.chan ∧ s'.x2i = s.x2i) ∨
        (∃ id idr, mailboxAcquireMsgid s.host.chan.chanIdr s.host.nextAddr memOk = .ok (id, idr) ∧
          mailboxSendMsg s.host.chan.x2iSize s.x2i.headReg s.host.chan.x2iTail s.x2i.mem
            ((newMailboxMsg msg).setId id).pkg = none ∧
          s'.host.log = s.host.log ++ [.free s.host.nextAddr, .returned (some s.host.nextAddr) (-ENOSPC)] ∧
          s'.host.chan = { s.host.chan with chanIdr := { s.host.chan.chanIdr with next := idr.next } } ∧
          s'.x2i = s.x2i) ∨
        (∃ id idr w, mailboxAcquireMsgid s.host.chan.chanIdr s.host.nextAddr memOk = .ok (id, idr) ∧
          mailboxSendMsg s.host.chan.x2iSize s.x2i.headReg s.host.chan.x2iTail s.x2i.mem
            ((newMailboxMsg msg).setId id).pkg = some w ∧
          s'.host.log = s.host.log ++ [.returned (some s.host.nextAddr) 0])) := by
  by_cases hargs : sendMsgArgsOk s.host.chan.x2iSize msg = true
  swap
  · -- `-EINVAL`
    constructor; constructor
    · simp [ChanSys.sendCall, ChanSys.step, hd, ChanSys.stepLive, hs, hargs, ChanSys.finishSend, SendPc.next]
      rfl
    · exact .inl ⟨_, .inl ⟨by simpa using hargs, rfl⟩, rfl, rfl, rfl⟩
  cases allocOk
  · -- `-ENOMEM`
    constructor; constructor
    · simp [ChanSys.sendCall, ChanSys.step, hd, ChanSys.stepLive, hs, hargs, ChanSys.finishSend, SendPc.next]
      rfl
    · exact .inl ⟨_, .inr ⟨rfl, rfl⟩, rfl, rfl, rfl⟩
  rcases hacq : mailboxAcquireMsgid s.host.chan.chanIdr s.host.nextAddr memOk with e | ⟨id, idr⟩
  · -- `mailbox_acquire_msgid` failed
    constructor; constructor
    · simp [ChanSys.sendCall, ChanSys.step, hd, ChanSys.stepLive, hs, hargs, ChanSys.finishSend, SendPc.next, hacq]
      rfl
    · exact .inr (.inl ⟨e, rfl, by simp, rfl, rfl⟩)
  rcases hring : mailboxSendMsg s.host.chan.x2iSize s.x2i.headReg s.host.chan.x2iTail s.x2i.mem
    ((newMailboxMsg msg).setId id).pkg with _ | ⟨mem, tail⟩
  · -- no space in the ring
    constructor; constructor
    · simp [ChanSys.sendCall, ChanSys.step, hd, ChanSys.stepLive, hs, hargs, ChanSys.finishSend, SendPc.next, hacq,
        Host.touch, hring]
      rfl
    · exact .inr (.inr (.inl ⟨id, idr, rfl, hring, by simp, by simp [mailboxReleaseMsgid_acquire hacq], rfl⟩))
  · -- sent
    constructor; constructor
    · simp [ChanSys.sendCall, ChanSys.step, hd, ChanSys.stepLive, hs, hargs, ChanSys.finishSend, SendPc.next, hacq,
        Host.touch, hring]
      rfl
    · exact .inr (.inr (.inr ⟨id, idr, _, rfl, hring, rfl⟩))

/-- Every call on a live channel with no send in progress returns, and an error return undoes it but
for the id map's cursor. -/
theorem failed_send_leaves_channel (hs : s.sender = .idle) (hd : s.destroyed = false)
    (msg : XdnaMailboxMsg) (allocOk memOk : Bool) :
    ∃ s', s.sendCall msg allocOk memOk = some s' ∧ ChanSys.FailureAtomic s s' := by
  obtain ⟨s', hcall, hcases⟩ := ChanSys.sendCall_cases hs hd msg allocOk memOk
  refine ⟨s', hcall, ?_⟩
  rcases hcases with ⟨e, -, hlog, hchan, hx⟩ | ⟨e, -, hlog, hchan, hx⟩ | ⟨id, idr, -, -, hlog, hchan, hx⟩ |
    ⟨-, -, -, -, -, hlog⟩
  · exact ⟨[], none, e, by simp [hlog], by simp, fun _ => ⟨hx, _, hchan⟩⟩
  · exact ⟨[.free s.host.nextAddr], some s.host.nextAddr, e, by simp [hlog], by simp, fun _ => ⟨hx, _, hchan⟩⟩
  · exact ⟨[.free s.host.nextAddr], some s.host.nextAddr, -ENOSPC, by simp [hlog], by simp,
      fun _ => ⟨hx, _, hchan⟩⟩
  · exact ⟨[], some s.host.nextAddr, 0, by simp [hlog], by simp, fun h => absurd rfl h⟩

end

theorem failed_send_leaves_channel_busy :
    busy64.sender = .idle ∧ busy64.destroyed = false ∧
      ∃ s', busy64.sendCall (zeroRequest 48) true true = some s' ∧ ChanSys.FailureAtomic busy64 s' :=
  ⟨rfl, rfl, failed_send_leaves_channel rfl rfl _ _ _⟩

/-! ### A package as long as the ring -/

/-- A 48-byte request passes the argument checks on a 64-byte X2I ring, and every call of it answers
`-ENOSPC`. -/
theorem ring_sized_msg_always_enospc :
    sendMsgArgsOk 64 (zeroRequest 48) = true ∧
      mailboxSendMsg 64 0 0 (fun _ => 0) ((newMailboxMsg (zeroRequest 48)).setId 0x1D000000).pkg = none ∧
      ∀ M (s : ChanSys), RingSize M → s.Reachable 64 M → s.sender = .idle → s.destroyed = false →
        ∃ s' a, s.sendCall (zeroRequest 48) true true = some s' ∧
          s'.host.log.getLast? = some (.returned (some a) (-ENOSPC)) := by
  have hargs : sendMsgArgsOk 64 (zeroRequest 48) = true := by decide
  have hlen : ∀ id, ((newMailboxMsg (zeroRequest 48)).setId id).pkg.length = 64 := fun _ => rfl
  refine ⟨hargs, mailboxSendMsg_of_length_eq ringSize_64 (by decide) (by decide) (hlen _),
    fun M s hM hr hs hd => ?_⟩
  have hW := (hr.inv ringSize_64 hM).wire hd
  obtain ⟨R, hL, -⟩ := hW.x2i_ring
  obtain ⟨s', hcall, hcases⟩ := ChanSys.sendCall_cases hs hd (zeroRequest 48) true true
  refine ⟨s', s.host.nextAddr, hcall, ?_⟩
  rcases hcases with ⟨e, he, -⟩ | ⟨e, he, hlog, -⟩ | ⟨id, -, -, -, hlog, -⟩ | ⟨id, -, w, -, hw, -⟩
  · simp [hW.x2i_chan_size, hargs] at he
  · simp [hlog, mailboxAcquireMsgid_error_of_memOk he]
  · simp [hlog]
  · have hH := hL.head_le
    rw [hW.x2i_chan_size, hW.x2i_tail, mailboxSendMsg_of_length_eq ringSize_64 (by omega) hL.tail_le
      (hlen id)] at hw
    cases hw

section
variable {N M : Nat} {s s' : ChanSys}

theorem ChanSys.Reachable.finishSend {memOk : Bool} : ∀ (fuel : Nat) {s s' : ChanSys}, s.Reachable N M →
    ChanSys.finishSend memOk fuel s = some s' → s'.Reachable N M
  | 0, _, _, _, h => by cases h
  | fuel + 1, s, s', hr, h => by
    simp only [ChanSys.finishSend] at h
    split at h
    · cases h
      exact hr
    · rename_i r hr'
      obtain ⟨a, ha, rfl⟩ := Option.map_eq_some'.mp hr'
      obtain ⟨s₁, hs₁, h⟩ := Option.bind_eq_some.mp h
      -- every step `SendPc.next` names is one the caller may take
      have hhonest : a.honest := by
        cases hn : s.sender <;> simp only [SendPc.next, hn, Option.some.injEq, reduceCtorEq] at ha <;> subst ha <;> rfl
      exact ChanSys.Reachable.finishSend fuel (.step a hr hhonest hs₁) h

theorem ChanSys.Reachable.sendCall {msg : XdnaMailboxMsg} {allocOk memOk : Bool} (hr : s.Reachable N M)
    (h : s.sendCall msg allocOk memOk = some s') : s'.Reachable N M := by
  obtain ⟨s₁, hs₁, h⟩ := Option.bind_eq_some.mp h
  exact ChanSys.Reachable.finishSend 6 (.step (.sendStart msg allocOk) hr rfl hs₁) h

theorem ChanSys.sendCall_sent (hs : s.sender = .idle) (hd : s.destroyed = false) {msg : XdnaMailboxMsg}
    {memOk : Bool} (hargs : sendMsgArgsOk s.host.chan.x2iSize msg = true) {id : Nat} {idr : Idr}
    (hacq : mailboxAcquireMsgid s.host.chan.chanIdr s.host.nextAddr memOk = .ok (id, idr)) {mem : Mem} {tail : Nat}
    (hring : mailboxSendMsg s.host.chan.x2iSize s.x2i.headReg s.host.chan.x2iTail s.x2i.mem
      ((newMailboxMsg msg).setId id).pkg = some (mem, tail)) :
    ∃ s', s.sendCall msg true memOk = some s' ∧ s'.destroyed = false ∧
      s'.x2iOwners = s.x2iOwners ++ [s.host.nextAddr] ∧ s'.host.chan.chanIdr = idr ∧
      s'.host.records = Function.update s.host.records s.host.nextAddr ((newMailboxMsg msg).setId id) := by
  constructor; constructor
  · simp [ChanSys.sendCall, ChanSys.step, hd, ChanSys.stepLive, hs, hargs, ChanSys.finishSend, SendPc.next, hacq,
      Host.touch, hring]
    rfl
  · simp [hd]

/-- A call returning 0 took a free key for its record and queued its package, carrying that key with
`MAGIC_VAL`, behind the packages before it. -/
theorem send_returning_zero_queues_package (hN : RingSize N) (hM : RingSize M) (hr : s.Reachable N M)
    (hd : s.destroyed = false) (hs : s.sender = .idle) {msg : XdnaMailboxMsg} {allocOk memOk : Bool}
    (h : s.sendCall msg allocOk memOk = some s') (h0 : ∃ a, s'.host.log.getLast? = some (.returned a 0)) :
    ∃ k < maxMsgIdEntries, s.host.chan.chanIdr.slots k = none ∧
      s'.host.chan.chanIdr.slots k = some s.host.nextAddr ∧
      ∃ R, Layout N s'.x2i.mem s'.x2i.headReg s'.x2i.tailReg R ∧
        R.pkgs.map (·.bytes) = s.x2iOwners.map (fun a => (s.host.records a).pkg) ++
          [((newMailboxMsg msg).setId (k ||| magicVal)).pkg] := by
  obtain ⟨a, hlast⟩ := h0
  obtain ⟨s₁, hcall, hcases⟩ := ChanSys.sendCall_cases hs hd msg allocOk memOk
  obtain rfl : s₁ = s' := Option.some.inj (hcall.symm.trans h)
  rcases hcases with ⟨e, he, hlog, -⟩ | ⟨e, he, hlog, -⟩ | ⟨id, idr, -, -, hlog, -⟩ | ⟨id, idr, w, hacq, hring, hlog⟩
  · -- `-EINVAL` or `-ENOMEM`
    rcases he with ⟨-, rfl⟩ | ⟨-, rfl⟩ <;> simp [hlog, EINVAL, ENOMEM] at hlast
  · -- `mailbox_acquire_msgid` failed
    simp [hlog] at hlast
    exact absurd hlast.2 (mailboxAcquireMsgid_error he)
  · -- `-ENOSPC`
    simp [hlog, ENOSPC] at hlast
  · -- sent, so the argument check and the allocation passed: a call that fails either returns at once
    have hearly : ∀ e, s.sendCall msg allocOk memOk ≠ some { s with host := s.host.logReturn none e } := by
      intro e h'
      rw [h', Option.some.injEq] at h
      subst h
      simp at hlog
    have hargs : sendMsgArgsOk s.host.chan.x2iSize msg = true := by
      by_contra hargs
      exact hearly (-EINVAL) (by
        simp [ChanSys.sendCall, ChanSys.step, hd, ChanSys.stepLive, hs, hargs, ChanSys.finishSend, SendPc.next])
    obtain rfl : allocOk = true := by
      by_contra halloc
      exact hearly (-ENOMEM) (by
        simp [ChanSys.sendCall, ChanSys.step, hd, ChanSys.stepLive, hs, hargs, halloc, ChanSys.finishSend,
          SendPc.next])
    obtain ⟨k, hk, rfl, hfree, hslots⟩ := mailboxAcquireMsgid_ok hacq
    obtain ⟨s₂, hcall₂, hd₂, hown, hidr, hrec⟩ := ChanSys.sendCall_sent hs hd hargs hacq hring
    obtain rfl : s₂ = s₁ := Option.some.inj (hcall₂.symm.trans h)
    have hI := hr.inv hN hM
    obtain ⟨R, hR, hpkgs⟩ := ((hr.sendCall h).inv hN hM).wire hd₂ |>.x2i_ring
    refine ⟨k, hk, hfree, by rw [hidr, hslots, Function.update_same], R, hR, ?_⟩
    rw [hpkgs, hown, List.map_append, List.map_singleton, hrec, Function.update_same]
    congr 1
    -- the records already queued were allocated before this one
    refine List.map_congr_left fun b hb => ?_
    rw [Function.update_noteq (Nat.ne_of_lt (hI.lt_of_inFlight hd (ChanSys.mem_inFlight_x2i hb)))]

end

theorem send_returning_zero_queues_package_busy :
    ∃ s', busy64.sendCall (zeroRequest 8) true true = some s' ∧
      (∃ a, s'.host.log.getLast? = some (.returned a 0)) ∧
      ∃ k < maxMsgIdEntries, busy64.host.chan.chanIdr.slots k = none ∧
        s'.host.chan.chanIdr.slots k = some busy64.host.nextAddr ∧
        ∃ R, Layout 64 s'.x2i.mem s'.x2i.headReg s'.x2i.tailReg R ∧
          R.pkgs.map (·.bytes) = busy64.x2iOwners.map (fun a => (busy64.host.records a).pkg) ++
            [((newMailboxMsg (zeroRequest 8)).setId (k ||| magicVal)).pkg] := by
  obtain ⟨s', hcall⟩ : ∃ s', busy64.sendCall (zeroRequest 8) true true = some s' := ⟨_, rfl⟩
  have hlast : (some s').map (·.host.log.getLast?) = some (some (.returned (some 1) 0)) := by
    rw [← hcall]
    decide
  have h0 : ∃ a, s'.host.log.getLast? = some (.returned a 0) := ⟨some 1, Option.some.inj hlast⟩
  exact ⟨s', hcall, h0, send_returning_zero_queues_package ringSize_64 ringSize_64 busy64_reachable rfl rfl hcall h0⟩

end XdnaMailbox
