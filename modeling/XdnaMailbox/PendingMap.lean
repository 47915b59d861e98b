import XdnaMailbox.SendSteps
import XdnaMailbox.WireSteps

/-!
# The pending map over every run

`ChanSys.Reachable.inv` gives the invariant in every state a channel reaches, and what it means for
the pending map and the records is stated on its own. Records are owned as `ChanSys.RecordsOwned`
says but for the tracepoint of `mailbox_send_msg`, which may read a record the worker freed.
-/

namespace XdnaMailbox

section
variable {N M : Nat} {s s' : ChanSys}

/-- Every step a device that keeps to the protocol may take keeps the invariant. -/
theorem Inv.stepLive (hN : RingSize N) (hM : RingSize M) (hI : Inv N M s) (hd : s.destroyed = false)
    {a : ChanStep} (ha : a.honest) (h : s.stepLive a = some s') : Inv N M s' := by
  have hW := hI.wire hd
  have hMp := hI.map hd
  cases a with
  | sendStart msg allocOk =>
    simp only [ChanSys.stepLive] at h
    split at h
    · rename_i hs
      split_ifs at h with h1 h2 <;> cases h
      · exact hI.logReturn_none _
      · exact hI.logReturn_none _
      · simp only [Bool.not_eq_true', Bool.not_eq_false] at h1
        exact hI.alloc hd hs (newMailboxMsg_ok hN.lt_u32 (hW.x2i_chan_size ▸ h1))
    · cases h
  | sendAcquire memOk =>
    simp only [ChanSys.stepLive] at h
    split at h
    · rename_i a hs
      split at h <;> cases h
      · rename_i e he
        exact hI.sender_phase (by rw [hs]; rfl) (by rw [hs]; rfl) (fun k b => by rw [hs]; exact Iff.rfl)
          (fun _ => mailboxAcquireMsgid_error he) (fun _ h => by cases h)
      · rename_i id idr he
        exact hI.acquire hs (mailboxAcquireMsgid_ok he)
    · cases h
  | sendSetId =>
    simp only [ChanSys.stepLive] at h
    split at h <;> cases h
    exact hI.setId hd ‹_›
  | sendRing =>
    simp only [ChanSys.stepLive] at h
    split at h
    · rename_i a hs
      rw [Host.touch_of_live (hMp.live_of_owned (by rw [hs]; rfl))] at h
      split at h <;> cases h
      · exact hI.sender_phase (by rw [hs]; rfl) (by rw [hs]; rfl) (fun k b => by rw [hs]; exact Iff.rfl)
          (fun _ => ⟨by simpa [hs, SendPc.Ok] using hMp.sender_ok, by decide⟩) (fun _ h => by cases h)
      · rename_i mem tail hw
        exact hI.publish hN hd hs hw
    · cases h
  | sendTrace =>
    simp only [ChanSys.stepLive] at h
    split at h <;> cases h
    exact hI.trace hd ‹_›
  | sendRelease =>
    simp only [ChanSys.stepLive] at h
    split at h <;> cases h
    exact hI.releaseMsgid hd ‹_›
  | sendFree =>
    simp only [ChanSys.stepLive] at h
    split at h <;> cases h
    exact hI.free hd ‹_›
  | rxGetMsg allocOk =>
    rcases ChanSys.rxGetMsg_cases hM hW hMp h with ⟨-, rfl⟩ | ⟨qs, -, hL, hresp, rfl⟩ |
      ⟨a, os, R, head, hdr, off, hown, hL, hresp, -, -, rfl⟩ |
      ⟨os, R, head, hdr, off, l, n, hown, hL, -, hresp, rfl⟩
    · exact hI
    · exact hI.skipTombstone hd hL hresp
    · exact hI.takeResp hd hown hL hresp _
    · exact hI.queueAsync hd hown hL hresp
  | deviceRead => exact hI.deviceRead hN hd h
  | deviceAnswer i resp => exact hI.deviceAnswer hM hd h
  | deviceAsync msg => exact hI.deviceAsync hM hd h
  | deviceForge msg => exact absurd ha (by simp [ChanStep.honest])
  | destroy =>
    simp only [ChanSys.stepLive] at h
    split at h <;> cases h
    exact hI.destroy hd ‹_›
  | wait w =>
    obtain ⟨q, -, rfl⟩ := Option.map_eq_some'.mp h
    exact hI.setAsync _ _ _ _

/-- The invariant holds in every state a channel reaches with a device that keeps to the protocol. -/
theorem ChanSys.Reachable.inv (hN : RingSize N) (hM : RingSize M) (hr : s.Reachable N M) : Inv N M s := by
  induction hr with
  | init mx mi P c _ hPN hc =>
    obtain rfl := xdnaMailboxCreateChannel_eq hc
    exact Inv.init N M P mx mi hPN
  | step a _ ha hs ih =>
    obtain ⟨hd, hs⟩ := ChanSys.step_eq_some hs
    exact ih.stepLive hN hM hd ha hs

end

/-! ### Correlation -/

/-- The id map holds exactly the records in flight, each sent with 0 under an issued id, and these
are the allocated records. -/
structure ChanSys.MapMatches (s : ChanSys) : Prop where
  slots : ∀ k a, s.host.chan.chanIdr.slots k = some a ↔
    a ∈ s.inFlight ∧ k = (s.host.records a).header.id.val &&& 0xFFFFFF
  sent : ∀ a ∈ s.inFlight, Event.returned (some a) 0 ∈ s.host.log
  issued : ∀ a ∈ s.inFlight, ∃ k < maxMsgIdEntries, (s.host.records a).header.id.val = k ||| magicVal
  live : ∀ a, s.host.live a = true ↔ a ∈ s.inFlight

/-- Every issued id is routed to `mailbox_get_resp` and accepted by `mailbox_validate_msgid`. -/
def IssuedIdsRoute : Prop :=
  ∀ idr a memOk id idr', mailboxAcquireMsgid idr a memOk = .ok (id, idr') →
    id / 0x1000000 = 0x1D ∧ id < asyncMsgStartId ∧ mailboxValidateMsgid id = true ∧
      ∀ (header : MsgHeader) data, header.id.val = id → routeMsg header data = .resp header data

/-- A response the worker dispatches completes only the record the I2X ring's first message came
from. -/
def ChanSys.WorkerDelivers (s : ChanSys) : Prop :=
  ∀ allocOk s', s.step (.rxGetMsg allocOk) = some s' →
    (∀ hdr off, (mailboxGetMsg s.host.chan.i2xSize s.i2x.mem s.i2x.tailReg s.host.chan.i2xHead).dispatch =
        some (.resp hdr off) →
      ∃ a, s.i2xOwners.head? = some (some a) ∧ (s.host.records a).header.id = hdr.id ∧
        s'.host.log = s.host.log ++ s.host.doneEvents a (some (readBytes s.i2x.mem off hdr.size.val))) ∧
    ((∀ hdr off, (mailboxGetMsg s.host.chan.i2xSize s.i2x.mem s.i2x.tailReg s.host.chan.i2xHead).dispatch ≠
        some (.resp hdr off)) → s'.host.log = s.host.log)

/-- Once the channel is destroyed, every send that returned 0 has had its callback once. -/
def ChanSys.CallbacksOnce (s : ChanSys) : Prop :=
  s.destroyed = true → ∀ a, Event.returned (some a) 0 ∈ s.host.log →
    s.host.log.countP (Event.notifies a) = if (s.host.records a).notifyCb then 1 else 0

section
variable {N M : Nat} {s : ChanSys}

theorem Inv.mapMatches (hI : Inv N M s) (hd : s.destroyed = false) (hs : s.sender = .idle) : s.MapMatches := by
  have hM := hI.map hd
  refine ⟨fun k a => ?_, fun a ha => ?_, fun a ha => ⟨_, (hM.issued a ha).key_lt, (hM.issued a ha).id_eq⟩,
    fun a => ?_⟩
  · rw [hM.idr, hs]
    simp [SendPc.Maps, MailboxMsg.key]
  · rcases hM.returned a ha with h | h
    · exact h
    · rw [hs] at h; cases h
  · rw [hM.live, ChanSys.tracked_eq_inFlight (by rw [hs]; rfl)]

theorem issuedIdsRoute : IssuedIdsRoute := by
  intro idr a memOk id idr' h
  obtain ⟨k, hk, rfl, -⟩ := mailboxAcquireMsgid_ok h
  obtain ⟨-, hval, hlt, htop⟩ := issued_bits k hk
  refine ⟨htop, hlt, by simp [mailboxValidateMsgid, hval], fun header data hid => ?_⟩
  unfold routeMsg
  rw [if_pos (hid ▸ hlt)]

theorem Inv.workerDelivers (hM : RingSize M) (hI : Inv N M s) : s.WorkerDelivers := by
  intro allocOk s' h
  obtain ⟨hd, h⟩ := ChanSys.step_eq_some h
  rcases ChanSys.rxGetMsg_cases hM (hI.wire hd) (hI.map hd) h with ⟨hdis, rfl⟩ | ⟨qs, hdis, -, -, rfl⟩ |
    ⟨a, os, R, head, hdr, off, hown, -, -, hdis, hid, rfl⟩ | ⟨os, R, head, hdr, off, l, n, -, -, hdis, -, rfl⟩
  · exact ⟨fun _ _ h => (by rw [hdis] at h; cases h), fun _ => rfl⟩
  · exact ⟨fun _ _ h => (by rw [hdis] at h; cases h), fun _ => rfl⟩
  · refine ⟨fun hdr' off' h => ?_, fun h => absurd hdis (h hdr off)⟩
    rw [hdis, Option.some.injEq, Dispatch.resp.injEq] at h
    obtain ⟨rfl, rfl⟩ := h
    exact ⟨a, by rw [hown]; rfl, hid.symm, rfl⟩
  · exact ⟨fun _ _ h => (by rw [hdis] at h; cases h), fun _ => rfl⟩

theorem LogInv.callbacksOnce (hL : LogInv s) : s.CallbacksOnce := by
  intro hd a h0
  have hlt := hL.return_lt a (by
    have := List.countP_pos_iff.mpr ⟨_, h0, (by simp [Event.returnOf] : Event.returnOf a _ = true)⟩
    omega)
  rw [hL.notify_count, hL.destroyed hd a, hL.not_failed_of_returned h0]
  simp [hlt]

/-- The pending map correlates requests and responses when the device echoes the ids it read. -/
theorem pending_map_correlation (hN : RingSize N) (hM : RingSize M) (hr : s.Reachable N M) :
    (s.sender = .idle → s.destroyed = false → s.MapMatches) ∧ IssuedIdsRoute ∧ s.WorkerDelivers ∧
      s.CallbacksOnce :=
  ⟨fun hs hd => (hr.inv hN hM).mapMatches hd hs, issuedIdsRoute, (hr.inv hN hM).workerDelivers hM,
    (hr.inv hN hM).log.callbacksOnce⟩

end

theorem pending_map_correlation_busy :
    RingSize 64 ∧ busy64.Reachable 64 64 ∧
      (busy64.sender = .idle → busy64.destroyed = false → busy64.MapMatches) ∧ IssuedIdsRoute ∧
        busy64.WorkerDelivers ∧ busy64.CallbacksOnce :=
  ⟨ringSize_64, busy64_reachable, pending_map_correlation ringSize_64 ringSize_64 busy64_reachable⟩

/-- Each record freed at most once and once by teardown, touched after it only by the tracepoint,
called back at most once and never after an error. -/
structure ChanSys.RecordsOwned (s : ChanSys) : Prop where
  free_le : ∀ a, s.host.log.count (.free a) ≤ 1
  free_destroyed : s.destroyed = true → ∀ a < s.host.nextAddr, s.host.log.count (.free a) = 1
  no_stale : ∀ a, Event.stale a false ∉ s.host.log
  notify_le : ∀ a, s.host.log.countP (Event.notifies a) ≤ 1
  notify_failed : ∀ a r, r ≠ 0 → Event.returned (some a) r ∈ s.host.log →
    s.host.log.countP (Event.notifies a) = 0

theorem LogInv.recordsOwned {s : ChanSys} (hL : LogInv s) : s.RecordsOwned := by
  refine ⟨fun a => ?_, fun hd a ha => ?_, hL.no_stale, fun a => ?_, fun a r hr h => ?_⟩
  · rw [hL.free_count]; split <;> omega
  · rw [hL.free_count, if_pos ⟨ha, hL.destroyed hd a⟩]
  · rw [hL.notify_count]; split <;> omega
  · have : s.host.log.any (Event.failedSend a) = true :=
      List.any_eq_true.mpr ⟨_, h, by simp [Event.failedSend, hr]⟩
    rw [hL.notify_count, if_neg (by simp [this])]

/-- With serialized senders and an honest device, the channel owns its records but for the
tracepoint of `mailbox_send_msg`. -/
theorem serialized_sends_own_records {N M : Nat} {s : ChanSys} (hN : RingSize N) (hM : RingSize M)
    (hr : s.Reachable N M) : s.RecordsOwned :=
  (hr.inv hN hM).log.recordsOwned

theorem serialized_sends_own_records_busy :
    RingSize 64 ∧ busy64.Reachable 64 64 ∧ busy64.RecordsOwned :=
  ⟨ringSize_64, busy64_reachable, serialized_sends_own_records ringSize_64 ringSize_64 busy64_reachable⟩

end XdnaMailbox
