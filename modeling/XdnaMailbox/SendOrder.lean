import XdnaMailbox.PendingMap

/-!
# Requests reach the device in the order they were sent

Only `mailbox_send_msg` appends to the X2I ring and the device takes from its front, so the ring
holds the packages of a suffix of the sends that returned 0 (`Host.sent`), in order, followed by
the one publishing now.
-/

namespace XdnaMailbox

/-- The record of a send that returned 0, if the event is that return. -/
def Event.sentAddr : Event → Option Nat
  | .returned (some a) ret => if ret = 0 then some a else none
  | _ => none

/-- The records of the sends that returned 0, in the order they returned. -/
def Host.sent (h : Host) : List Nat := h.log.filterMap Event.sentAddr

/-- The record a send has published and not yet returned for. -/
def SendPc.publishing : SendPc → List Nat
  | .published a => [a]
  | _ => []

/-! ### What each host function adds to the sends -/

theorem Host.sent_of_log {h h' : Host} {evs : List Event} (hlog : h'.log = h.log ++ evs)
    (hev : ∀ e ∈ evs, e.sentAddr = none) : h'.sent = h.sent := by
  rw [Host.sent, Host.sent, hlog, List.filterMap_append, List.filterMap_eq_nil_iff.mpr hev, List.append_nil]

@[simp] theorem Host.sent_touch (h : Host) (a : Nat) (t : Bool) : (h.touch a t).sent = h.sent :=
  Host.sent_of_log (by rw [Host.touch_eq]) (by split <;> simp [Event.sentAddr])

@[simp] theorem Host.sent_notify (h : Host) (a : Nat) (d : Option (List UInt8)) : (h.notify a d).sent = h.sent := by
  unfold Host.notify
  split
  · exact Host.sent_of_log rfl (by simp [Event.sentAddr])
  · rfl

@[simp] theorem Host.sent_kfree (h : Host) (a : Nat) : (h.kfree a).sent = h.sent :=
  Host.sent_of_log rfl (by simp [Event.sentAddr])

@[simp] theorem Host.sent_setId (h : Host) (a id : Nat) : (h.setId a id).sent = h.sent := rfl

@[simp] theorem Host.sent_alloc (h : Host) (m : MailboxMsg) : (h.alloc m).2.sent = h.sent := rfl

@[simp] theorem Host.sent_logReturn (h : Host) (a : Option Nat) (ret : Int) :
    (h.logReturn a ret).sent = h.sent ++ (Event.returned a ret).sentAddr.toList := by
  simp only [Host.sent, Host.logReturn_log, List.filterMap_append]
  cases h' : (Event.returned a ret).sentAddr <;> simp [h']

@[simp] theorem Host.sent_chan (h : Host) (c : MailboxChannel) : ({ h with chan := c } : Host).sent = h.sent := rfl

theorem Host.sent_mailboxGetResp (h : Host) (mem : Mem) (header : MsgHeader) (data : Nat) :
    (h.mailboxGetResp mem header data).sent = h.sent := by
  unfold Host.mailboxGetResp
  split_ifs
  · rfl
  · dsimp only
    split
    · rfl
    · simp

theorem Host.sent_rxGetMsg (h : Host) (i2x : RingRes) (allocOk : Bool) :
    (h.rxGetMsg i2x allocOk).2.1.sent = h.sent := by
  dsimp only [Host.rxGetMsg]
  generalize mailboxGetMsg h.chan.i2xSize i2x.mem i2x.tailReg h.chan.i2xHead = g
  rcases g with ⟨ret, _ | head, _ | ⟨header, data⟩ | ⟨header, data⟩⟩ <;>
    simp [Host.sent_mailboxGetResp]

/-! ### The order of the X2I ring -/

section
variable {N M : Nat} {s s' : ChanSys}

theorem ChanSys.stepLive_sendOrder (hMp : MapInv N s) {a : ChanStep} (h : s.stepLive a = some s')
    (hd : s'.destroyed = false) (hI : s.x2iOwners <:+ s.host.sent ++ s.sender.publishing) :
    s'.x2iOwners <:+ s'.host.sent ++ s'.sender.publishing := by
  cases a with
  | destroy => simp [ChanSys.stepLive_destroy h] at hd
  | sendStart msg allocOk =>
    simp only [ChanSys.stepLive] at h
    split at h
    · rename_i hs
      split_ifs at h <;> cases h <;> simpa [SendPc.publishing, Event.sentAddr, hs] using hI
    · cases h
  | sendAcquire memOk =>
    simp only [ChanSys.stepLive] at h
    split at h
    · rename_i hs
      rw [hs] at hI
      split at h <;> cases h <;> simpa [SendPc.publishing] using hI
    · cases h
  | sendSetId | sendRelease =>
    simp only [ChanSys.stepLive] at h
    split at h <;> cases h
    rename_i hs
    rw [hs] at hI
    simpa [SendPc.publishing] using hI
  | sendRing =>
    simp only [ChanSys.stepLive] at h
    split at h
    · rename_i hs
      rw [hs] at hI
      split at h <;> cases h
      · simpa [SendPc.publishing] using hI
      · -- the record joins the ring as the send that has published
        simp only [SendPc.publishing, List.append_nil] at hI
        simpa [SendPc.publishing] using List.suffix_concat_iff.mpr (.inr ⟨_, rfl, hI⟩)
    · cases h
  | sendTrace =>
    -- the return of 0 moves the published record into the sends
    simp only [ChanSys.stepLive] at h
    split at h <;> cases h
    rename_i hs
    rw [hs] at hI
    simpa [SendPc.publishing, Event.sentAddr] using hI
  | sendFree =>
    -- a failed send returns its error, which is not 0
    simp only [ChanSys.stepLive] at h
    split at h <;> cases h
    rename_i b ret hs
    have hret : ret ≠ 0 := by simpa [SendPc.Ok, hs] using hMp.sender_ok
    rw [hs] at hI
    simpa [SendPc.publishing, Event.sentAddr, hret] using hI
  | rxGetMsg allocOk =>
    simp only [ChanSys.stepLive, Option.some.injEq] at h
    subst h
    simpa [Host.sent_rxGetMsg] using hI
  | deviceRead =>
    simp only [ChanSys.stepLive] at h
    split at h <;> cases h
    · exact hI
    · exact (List.tail_suffix _).trans hI
  | deviceAnswer i resp =>
    simp only [ChanSys.stepLive] at h
    split at h
    · split_ifs at h
      obtain ⟨_, -, rfl⟩ := Option.map_eq_some'.mp h
      exact hI
    · cases h
  | deviceAsync msg =>
    simp only [ChanSys.stepLive] at h
    split_ifs at h
    obtain ⟨_, -, rfl⟩ := Option.map_eq_some'.mp h
    exact hI
  | deviceForge msg =>
    obtain ⟨_, -, rfl⟩ := Option.map_eq_some'.mp h
    exact hI
  | wait w =>
    obtain ⟨_, -, rfl⟩ := Option.map_eq_some'.mp h
    exact hI

theorem ChanSys.Reachable.sendOrder (hN : RingSize N) (hM : RingSize M) (hr : s.Reachable N M)
    (hd : s.destroyed = false) : s.x2iOwners <:+ s.host.sent ++ s.sender.publishing := by
  induction hr with
  | init => exact List.nil_suffix
  | step a hr₀ _ hstep ih =>
    obtain ⟨hd₀, hstep⟩ := ChanSys.step_eq_some hstep
    exact ChanSys.stepLive_sendOrder ((hr₀.inv hN hM).map hd₀) hstep hd (ih hd₀)

/-- The X2I ring holds, as the read algorithm lays them out, the packages of the last sends that
returned 0 in order, then the one publishing. -/
theorem device_reads_in_send_order (hN : RingSize N) (hM : RingSize M) (hr : s.Reachable N M)
    (hd : s.destroyed = false) :
    ∃ R, Layout N s.x2i.mem s.x2i.headReg s.x2i.tailReg R ∧ ∃ as : List Nat,
      as <:+ s.host.sent ++ s.sender.publishing ∧ R.pkgs.map (·.bytes) = as.map fun a => (s.host.records a).pkg := by
  obtain ⟨R, hL, hpkgs⟩ := ((hr.inv hN hM).wire hd).x2i_ring
  exact ⟨R, hL, s.x2iOwners, hr.sendOrder hN hM hd, hpkgs⟩

end

theorem device_reads_in_send_order_sent :
    ∃ s, busy64.run [.sendStart (zeroRequest 8) true, .sendAcquire true, .sendSetId, .sendRing, .sendTrace] =
        some s ∧ s.x2i.headReg ≠ s.x2i.tailReg ∧ RingSize 64 ∧ s.Reachable 64 64 ∧ s.destroyed = false ∧
      ∃ R, Layout 64 s.x2i.mem s.x2i.headReg s.x2i.tailReg R ∧ ∃ as : List Nat,
        as <:+ s.host.sent ++ s.sender.publishing ∧ R.pkgs.map (·.bytes) = as.map fun a => (s.host.records a).pkg := by
  obtain ⟨s, hs⟩ : ∃ s, busy64.run [.sendStart (zeroRequest 8) true, .sendAcquire true, .sendSetId, .sendRing,
      .sendTrace] = some s := ⟨_, rfl⟩
  have hr := busy64_reachable.run (by decide) hs
  have hval : (some s).map (fun s => (decide (s.x2i.headReg = s.x2i.tailReg), s.destroyed)) = some (false, false) := by
    rw [← hs]
    decide
  simp only [Option.map_some', Option.some.injEq, Prod.mk.injEq, decide_eq_false_iff_not] at hval
  exact ⟨s, hs, hval.1, ringSize_64, hr, hval.2, device_reads_in_send_order ringSize_64 ringSize_64 hr hval.2⟩

end XdnaMailbox
