import XdnaMailbox.PendingMap

/-!
# How requests are completed

`mailbox_rx_worker` calls `mailbox_get_msg` until a call returns nonzero; each call returning 0
lowers `ChanSys.rxMeasure`, so the loop ends, with the answered records called back and freed in
order. `xdna_mailbox_destroy_channel` completes the requests still in flight.
-/

namespace XdnaMailbox

/-- `mailbox_rx_worker` allowed `fuel` calls of `mailbox_get_msg`, or `none` if none returned nonzero. -/
def mailboxRxWorker (allocOk : Bool) : Nat → Host → RingRes → Option (Host × RingRes)
  | 0, _, _ => none
  | fuel + 1, h, i2x =>
    let r := h.rxGetMsg i2x allocOk
    if r.1 ≠ 0 then some r.2 else mailboxRxWorker allocOk fuel r.2.1 r.2.2

@[simp] theorem Host.touch_chan (h : Host) (a : Nat) (t : Bool) : (h.touch a t).chan = h.chan := by
  unfold Host.touch
  split <;> rfl

@[simp] theorem Host.notify_chan (h : Host) (a : Nat) (d : Option (List UInt8)) : (h.notify a d).chan = h.chan := by
  unfold Host.notify
  split <;> rfl

theorem Host.mailboxGetResp_chan (h : Host) (mem : Mem) (header : MsgHeader) (data : Nat) :
    ∃ idr, (h.mailboxGetResp mem header data).chan = { h.chan with chanIdr := idr } := by
  unfold Host.mailboxGetResp
  split_ifs
  · exact ⟨_, rfl⟩
  · dsimp only
    split
    · exact ⟨_, rfl⟩
    · exact ⟨h.chan.chanIdr.remove (header.id.val &&& 0xFFFFFF), by simp⟩

@[simp] theorem Host.mailboxGetResp_i2xHead (h : Host) (mem : Mem) (header : MsgHeader) (data : Nat) :
    (h.mailboxGetResp mem header data).chan.i2xHead = h.chan.i2xHead := by
  obtain ⟨idr, he⟩ := h.mailboxGetResp_chan mem header data
  rw [he]

@[simp] theorem Host.mailboxGetResp_x2iTail (h : Host) (mem : Mem) (header : MsgHeader) (data : Nat) :
    (h.mailboxGetResp mem header data).chan.x2iTail = h.chan.x2iTail := by
  obtain ⟨idr, he⟩ := h.mailboxGetResp_chan mem header data
  rw [he]

@[simp] theorem MailboxChannel.mailboxGetAsyncMsg_i2xHead (c : MailboxChannel) (mem : Mem) (header : MsgHeader)
    (data : Nat) (allocOk : Bool) : (c.mailboxGetAsyncMsg mem header data allocOk).i2xHead = c.i2xHead := by
  unfold MailboxChannel.mailboxGetAsyncMsg
  split <;> rfl

@[simp] theorem MailboxChannel.mailboxGetAsyncMsg_x2iTail (c : MailboxChannel) (mem : Mem) (header : MsgHeader)
    (data : Nat) (allocOk : Bool) : (c.mailboxGetAsyncMsg mem header data allocOk).x2iTail = c.x2iTail := by
  unfold MailboxChannel.mailboxGetAsyncMsg
  split <;> rfl

@[simp] theorem Host.rxGetMsg_fst (h : Host) (i2x : RingRes) (allocOk : Bool) :
    (h.rxGetMsg i2x allocOk).1 = (mailboxGetMsg h.chan.i2xSize i2x.mem i2x.tailReg h.chan.i2xHead).ret := by
  dsimp only [Host.rxGetMsg]
  split <;> rfl

theorem Host.rxGetMsg_pointers (h : Host) (i2x : RingRes) (allocOk : Bool) :
    (h.rxGetMsg i2x allocOk).2.2 =
        { i2x with headReg := (mailboxGetMsg h.chan.i2xSize i2x.mem i2x.tailReg h.chan.i2xHead).head.getD i2x.headReg } ∧
      (h.rxGetMsg i2x allocOk).2.1.chan.i2xHead =
        (mailboxGetMsg h.chan.i2xSize i2x.mem i2x.tailReg h.chan.i2xHead).head.getD h.chan.i2xHead ∧
      (h.rxGetMsg i2x allocOk).2.1.chan.x2iTail = h.chan.x2iTail := by
  dsimp only [Host.rxGetMsg]
  generalize mailboxGetMsg h.chan.i2xSize i2x.mem i2x.tailReg h.chan.i2xHead = g
  rcases g with ⟨ret, _ | head, _ | ⟨header, data⟩ | ⟨header, data⟩⟩ <;> simp

theorem ChanSys.stepLive_rxGetMsg {s s' : ChanSys} {allocOk : Bool}
    (h : s.stepLive (.rxGetMsg allocOk) = some s') :
    (s.host.rxGetMsg s.i2x allocOk).2 = (s'.host, s'.i2x) ∧ s'.x2i = s.x2i ∧ s'.destroyed = s.destroyed := by
  simp only [ChanSys.stepLive, Option.some.injEq] at h
  subst h
  exact ⟨rfl, rfl, rfl⟩

/-- Two calls per message in the I2X ring, and one more while a tombstone lies ahead. -/
def ChanSys.rxMeasure (s : ChanSys) : Nat :=
  2 * s.i2xOwners.length + if s.i2x.tailReg < s.host.chan.i2xHead then 1 else 0

/-- From `s` to `s'` the worker took `taken` and logged the completions of its responses' records. -/
def ChanSys.Completes (s s' : ChanSys) : Prop :=
  ∃ (taken : List (Option Nat)) (ds : List (Nat × List UInt8)), s.i2xOwners = taken ++ s'.i2xOwners ∧
    ds.map Prod.fst = taken.filterMap id ∧
    s'.host.log = s.host.log ++ ds.flatMap (fun p => s.host.doneEvents p.1 (some p.2)) ∧
    s'.host.records = s.host.records

theorem ChanSys.Completes.refl (s : ChanSys) : s.Completes s :=
  ⟨[], [], rfl, rfl, by simp, rfl⟩

theorem ChanSys.Completes.trans {s₁ s₂ s₃ : ChanSys} (h₁ : s₁.Completes s₂) (h₂ : s₂.Completes s₃) :
    s₁.Completes s₃ := by
  obtain ⟨t₁, d₁, ho₁, hd₁, hl₁, hr₁⟩ := h₁
  obtain ⟨t₂, d₂, ho₂, hd₂, hl₂, hr₂⟩ := h₂
  have hdone : s₂.host.doneEvents = s₁.host.doneEvents := by
    funext a d
    simp only [Host.doneEvents, hr₁]
  refine ⟨t₁ ++ t₂, d₁ ++ d₂, by rw [ho₁, ho₂, List.append_assoc], by simp [hd₁, hd₂], ?_, hr₂.trans hr₁⟩
  rw [hl₂, hl₁, hdone, List.flatMap_append, List.append_assoc]

section
variable {N M : Nat} {s : ChanSys}

theorem ChanSys.rxGetMsg_progress (hN : RingSize N) (hM : RingSize M) (hr : s.Reachable N M)
    (hd : s.destroyed = false) (allocOk : Bool) :
    ((s.host.rxGetMsg s.i2x allocOk).1 ≠ 0 ∧ (s.host.rxGetMsg s.i2x allocOk).2 = (s.host, s.i2x) ∧
        s.i2xOwners = [] ∧ s.i2x.headReg = s.i2x.tailReg) ∨
      ((s.host.rxGetMsg s.i2x allocOk).1 = 0 ∧ ∃ s', s.step (.rxGetMsg allocOk) = some s' ∧
        (s.host.rxGetMsg s.i2x allocOk).2 = (s'.host, s'.i2x) ∧ s'.destroyed = false ∧
        s'.rxMeasure < s.rxMeasure ∧ s.Completes s') := by
  have hI := hr.inv hN hM
  have hW := hI.wire hd
  obtain ⟨R, hR, hresp⟩ := hW.i2x_ring
  obtain ⟨s', hs'⟩ : ∃ s', s.stepLive (.rxGetMsg allocOk) = some s' := ⟨_, rfl⟩
  have hstep : s.step (.rxGetMsg allocOk) = some s' := by rw [ChanSys.step, hd]; exact hs'
  obtain ⟨hpair, -, hds⟩ := ChanSys.stepLive_rxGetMsg hs'
  have hget := getMsg_cases hM hR hR.boundary
  rw [← hW.i2x_chan_size] at hget
  rcases hget with ⟨ht, hg⟩ | ⟨p, -, -, hg⟩ | ⟨qs, rfl, -, hg⟩
  · -- the ring is empty
    have hR0 : R = .flat [] := by
      by_contra hne
      exact hR.ne_of_pkgs hne ht.symm
    subst hR0
    exact .inl ⟨by simp [hg, ENOENT], by simp [Host.rxGetMsg, hg], List.forall₂_nil_left_iff.mp hresp,
      hW.i2x_head.trans ht.symm⟩
  · -- a message is taken
    refine .inr ⟨by simp [hg], s', hstep, hpair, hds.trans hd, ?_⟩
    rcases ChanSys.rxGetMsg_cases hM hW (hI.map hd) hs' with ⟨hdis, -⟩ | ⟨-, hdis, -⟩ |
      ⟨a, os, -, head, hdr, off, hown, -, -, -, -, rfl⟩ | ⟨os, -, head, hdr, off, l, n, hown, -, -, -, rfl⟩
    · simp [hg] at hdis
    · simp [hg] at hdis
    · refine ⟨?_, [some a], [(a, readBytes s.i2x.mem off hdr.size.val)], by rw [hown]; rfl, rfl, by simp, rfl⟩
      simp only [ChanSys.rxMeasure, hown, List.length_cons]
      split <;> split <;> omega
    · refine ⟨?_, [none], [], by rw [hown]; rfl, rfl, by simp, rfl⟩
      simp only [ChanSys.rxMeasure, hown, List.length_cons]
      split <;> split <;> omega
  · -- the tombstone is skipped
    have htl : s.i2x.tailReg < s.host.chan.i2xHead := hR.2.2.2.2.2
    simp only [ChanSys.stepLive, Host.rxGetMsg, hg, Option.some.injEq] at hs'
    subst hs'
    refine .inr ⟨by simp [hg], _, hstep, hpair, hds.trans hd, ?_, [], [], rfl, rfl, by simp, rfl⟩
    simp only [ChanSys.rxMeasure, Option.isSome_none, Bool.false_eq_true, Nat.not_lt_zero, if_false, if_pos htl]
    omega

/-! ### The loop -/

theorem ChanSys.rxWorker_run (hN : RingSize N) (hM : RingSize M) (allocOk : Bool) :
    ∀ fuel (s : ChanSys), s.Reachable N M → s.destroyed = false → s.rxMeasure < fuel →
      ∃ t : ChanSys, mailboxRxWorker allocOk fuel s.host s.i2x = some (t.host, t.i2x) ∧ t.Reachable N M ∧
        t.i2xOwners = [] ∧ t.i2x.headReg = t.i2x.tailReg ∧ t.i2x.tailReg = s.i2x.tailReg ∧ s.Completes t
  | 0, _, _, _, hlt => absurd hlt (Nat.not_lt_zero _)
  | fuel + 1, s, hr, hd, hlt => by
    rcases ChanSys.rxGetMsg_progress hN hM hr hd allocOk with ⟨hret, hpair, hown, hht⟩ |
      ⟨hret, s', hstep, hpair, hd', hlt', hc⟩
    · refine ⟨s, ?_, hr, hown, hht, rfl, .refl s⟩
      simp only [mailboxRxWorker, if_pos hret, hpair]
    · obtain ⟨t, hrun, htr, hto, hht, htail, hc'⟩ :=
        ChanSys.rxWorker_run hN hM allocOk fuel s' (.step (.rxGetMsg allocOk) hr rfl hstep) hd' (by omega)
      have hsame : s'.i2x.tailReg = s.i2x.tailReg := by
        rw [← congrArg (·.2.tailReg) hpair, (Host.rxGetMsg_pointers _ _ _).1]
      refine ⟨t, ?_, htr, hto, hht, htail.trans hsame, hc.trans hc'⟩
      simp only [mailboxRxWorker, hret, ne_eq, not_true_eq_false, if_false, hpair]
      exact hrun

/-- `mailbox_rx_worker` returns, leaves the I2X ring empty, and completes the answered records in
order and nothing else. -/
theorem rx_worker_completes_answered (hN : RingSize N) (hM : RingSize M) (hr : s.Reachable N M)
    (hd : s.destroyed = false) (allocOk : Bool) :
    ∃ t : ChanSys, mailboxRxWorker allocOk (2 * s.i2xOwners.length + 2) s.host s.i2x = some (t.host, t.i2x) ∧
      t.Reachable N M ∧ t.i2xOwners = [] ∧ t.i2x.headReg = t.i2x.tailReg ∧ t.i2x.tailReg = s.i2x.tailReg ∧
      ∃ ds : List (Nat × List UInt8), ds.map Prod.fst = s.i2xOwners.filterMap id ∧
        t.host.log = s.host.log ++ ds.flatMap fun p => s.host.doneEvents p.1 (some p.2) := by
  obtain ⟨t, hrun, htr, hto, hht, htail, taken, ds, hown, hds, hlog, -⟩ :=
    ChanSys.rxWorker_run hN hM allocOk (2 * s.i2xOwners.length + 2) s hr hd (by unfold ChanSys.rxMeasure; split <;> omega)
  rw [hto, List.append_nil] at hown
  exact ⟨t, hrun, htr, hto, hht, htail, ds, hown ▸ hds, hlog⟩

end

theorem rx_worker_completes_answered_busy :
    let s := busy64
    RingSize 64 ∧ s.Reachable 64 64 ∧ s.destroyed = false ∧
      ∃ t : ChanSys, mailboxRxWorker true (2 * s.i2xOwners.length + 2) s.host s.i2x = some (t.host, t.i2x) ∧
        t.Reachable 64 64 ∧ t.i2xOwners = [] ∧ t.i2x.headReg = t.i2x.tailReg ∧ t.i2x.tailReg = s.i2x.tailReg ∧
        ∃ ds : List (Nat × List UInt8), ds.map Prod.fst = s.i2xOwners.filterMap id ∧
          t.host.log = s.host.log ++ ds.flatMap fun p => s.host.doneEvents p.1 (some p.2) :=
  ⟨ringSize_64, busy64_reachable, rfl,
    rx_worker_completes_answered ringSize_64 ringSize_64 busy64_reachable rfl true⟩

/-! ### Teardown -/

section
variable {N M : Nat} {s : ChanSys}

/-- `xdna_mailbox_destroy_channel` completes each request in flight once, with `NULL`, and nothing
else. -/
theorem destroy_completes_in_flight (hN : RingSize N) (hM : RingSize M) (hr : s.Reachable N M)
    (hd : s.destroyed = false) (hs : s.sender = .idle) :
    ∃ s', s.step .destroy = some s' ∧ ∃ L : List Nat, L.Perm s.inFlight ∧
      s'.host.log = s.host.log ++ L.flatMap (fun a => s.host.doneEvents a none) ∧
      ∀ a, s'.host.live a = false := by
  have hI := hr.inv hN hM
  obtain ⟨hnd, hmem, hlive⟩ := (hI.map hd).idrRecords hs
  have hfl : s.inFlight.Nodup := by
    have := (hI.map hd).nodup
    rwa [ChanSys.tracked_eq_inFlight (by rw [hs]; rfl)] at this
  refine ⟨_, by simp [ChanSys.step, hd, ChanSys.stepLive, hs], _, (List.perm_ext_iff_of_nodup hnd hfl).mpr hmem,
    ?_, (hI.destroy hd hs).log.destroyed rfl⟩
  simp only [Host.destroyChannel, Host.foldl_releaseKey _ _ _ hnd hlive]

end

theorem destroy_completes_in_flight_busy :
    let s := busy64
    RingSize 64 ∧ s.Reachable 64 64 ∧ s.destroyed = false ∧ s.sender = .idle ∧
      ∃ s', s.step .destroy = some s' ∧ ∃ L : List Nat, L.Perm s.inFlight ∧
        s'.host.log = s.host.log ++ L.flatMap (fun a => s.host.doneEvents a none) ∧
        ∀ a, s'.host.live a = false :=
  ⟨ringSize_64, busy64_reachable, rfl, rfl,
    destroy_completes_in_flight ringSize_64 ringSize_64 busy64_reachable rfl rfl⟩

end XdnaMailbox
