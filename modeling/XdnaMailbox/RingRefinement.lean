import XdnaMailbox.Completion
import XdnaMailbox.Lifetime

/-!
# Each ring of a channel runs the ring protocol

Each ring of a channel, viewed as one ring of `RingSys`, moves by zero, two or three protocol steps
at every step of `ChanSys`: a send and a device write are the producer's three, a device read and a
worker call the consumer's two. So what is proved of `RingSys` holds of both rings of every channel
(`channel_rings_run_ring_protocol`). The I2X ring outlives its channels; it stays a ring of the
protocol across lifetimes when every channel is created with the head register at 0.
-/

namespace XdnaMailbox

section
variable {N : Nat} {mem : Mem} {H T C h : Nat} {sent received : List (List UInt8)}

theorem RingSys.Reachable.send (hr : (⟨mem, H, T, C, h, .idle, .idle, sent, received⟩ : RingSys).Reachable N)
    {p : Package} (hlen : p.bytes.length ≤ N) {mem' : Mem} {T' : Nat}
    (hw : mailboxSendMsg N H C mem p.bytes = some (mem', T')) :
    (⟨mem', H, T', T', h, .idle, .idle, sent ++ [p.bytes], received⟩ : RingSys).Reachable N := by
  have hcopy : RingSys.step N ⟨mem, H, T, C, h, .readHead H, .idle, sent, received⟩ (.write p) =
      some ⟨mem', H, T, C, h, .wrote p T', .idle, sent, received⟩ := by
    simp [RingSys.step, hlen, hw]
  exact ((hr.step .readHead rfl).step _ hcopy).step .publish rfl

theorem RingSys.Reachable.take (hr : (⟨mem, H, T, C, h, .idle, .idle, sent, received⟩ : RingSys).Reachable N) :
    (⟨mem, (mailboxGetMsg N mem T h).head.getD H, T, C, (mailboxGetMsg N mem T h).head.getD h, .idle, .idle,
      sent, received ++ ((mailboxGetMsg N mem T h).dispatch.map (·.frame mem)).toList⟩ : RingSys).Reachable N :=
  (hr.step .readTail rfl).step .consume rfl

end

/-- The X2I ring: the host produces from `x2i_tail`, the device consumes from its head register. -/
def ChanSys.x2iRing (s : ChanSys) (sent received : List (List UInt8)) : RingSys :=
  ⟨s.x2i.mem, s.x2i.headReg, s.x2i.tailReg, s.host.chan.x2iTail, s.x2i.headReg, .idle, .idle, sent, received⟩

/-- The I2X ring: the device produces from its tail register, the worker consumes from `i2x_head`. -/
def ChanSys.i2xRing (s : ChanSys) (sent received : List (List UInt8)) : RingSys :=
  ⟨s.i2x.mem, s.i2x.headReg, s.i2x.tailReg, s.i2x.tailReg, s.host.chan.i2xHead, .idle, .idle, sent, received⟩

/-- Both rings are in states the ring protocol reaches. -/
def ChanSys.RingsRefine (N M : Nat) (s : ChanSys) : Prop :=
  (∃ sent received, (s.x2iRing sent received).Reachable N) ∧
    ∃ sent received, (s.i2xRing sent received).Reachable M

theorem ChanSys.x2iRing_congr {s s' : ChanSys} (hx : s'.x2i = s.x2i)
    (ht : s'.host.chan.x2iTail = s.host.chan.x2iTail) : s'.x2iRing = s.x2iRing := by
  unfold ChanSys.x2iRing
  rw [hx, ht]

theorem ChanSys.i2xRing_congr {s s' : ChanSys} (hi : s'.i2x = s.i2x)
    (hh : s'.host.chan.i2xHead = s.host.chan.i2xHead) : s'.i2xRing = s.i2xRing := by
  unfold ChanSys.i2xRing
  rw [hi, hh]

theorem ChanSys.RingsRefine.congr {N M : Nat} {s s' : ChanSys} (hR : s.RingsRefine N M)
    (hx : s'.x2i = s.x2i) (hi : s'.i2x = s.i2x) (ht : s'.host.chan.x2iTail = s.host.chan.x2iTail)
    (hh : s'.host.chan.i2xHead = s.host.chan.i2xHead) : s'.RingsRefine N M := by
  unfold ChanSys.RingsRefine
  rwa [ChanSys.x2iRing_congr hx ht, ChanSys.i2xRing_congr hi hh]

theorem Host.destroyChannel_pointers (h : Host) :
    h.destroyChannel.chan.x2iTail = h.chan.x2iTail ∧ h.destroyChannel.chan.i2xHead = h.chan.i2xHead := by
  have hfold : ∀ (L : List Nat) (h' : Host), (L.foldl (Host.releaseKey h.chan.chanIdr) h').chan = h'.chan := by
    intro L
    induction L with
    | nil => exact fun _ => rfl
    | cons k L ih =>
      intro h'
      rw [List.foldl_cons, ih]
      unfold Host.releaseKey
      split <;> simp [Host.mailboxReleaseMsg]
  simp [Host.destroyChannel, hfold]

/-! ### One step of the channel -/

section
variable {N M : Nat} {s s' : ChanSys}

theorem ChanSys.RingsRefine.stepLive (hI : Inv N M s) (hd : s.destroyed = false) {a : ChanStep}
    (ha : a.honest) (h : s.stepLive a = some s') (hR : s.RingsRefine N M) : s'.RingsRefine N M := by
  have hW := hI.wire hd
  obtain ⟨sx, rx, hx⟩ := hR.1
  obtain ⟨si, ri, hi⟩ := hR.2
  cases a with
  | sendStart msg allocOk =>
    simp only [ChanSys.stepLive] at h
    split at h
    · split_ifs at h <;> cases h <;> exact hR.congr rfl rfl (by simp) (by simp)
    · cases h
  | sendAcquire memOk =>
    simp only [ChanSys.stepLive] at h
    split at h
    · split at h <;> cases h <;> exact hR.congr rfl rfl rfl rfl
    · cases h
  | sendSetId =>
    simp only [ChanSys.stepLive] at h
    split at h <;> cases h
    exact hR.congr rfl rfl (by simp) (by simp)
  | sendRing =>
    simp only [ChanSys.stepLive] at h
    split at h
    · rename_i a hs
      rw [Host.touch_of_live ((hI.map hd).live_of_owned (by rw [hs]; rfl))] at h
      split at h <;> cases h
      · -- no space: nothing is written
        exact hR.congr rfl rfl rfl rfl
      · -- the producer's three steps
        rename_i mem tail hw
        have hok := (hI.map hd).record_ok a (by rw [hs]; rfl)
        rw [hW.x2i_chan_size] at hw
        refine ⟨⟨sx ++ [(s.host.records a).pkg], rx,
          hx.send (p := (s.host.records a).toPackage hok) ?_ hw⟩, si, ri, hi⟩
        simpa [MailboxMsg.pkg, headerSize] using hok.fits
    · cases h
  | sendTrace =>
    simp only [ChanSys.stepLive] at h
    split at h <;> cases h
    exact hR.congr rfl rfl (by simp) (by simp)
  | sendRelease =>
    simp only [ChanSys.stepLive] at h
    split at h <;> cases h
    exact hR.congr rfl rfl (by simp) (by simp)
  | sendFree =>
    simp only [ChanSys.stepLive] at h
    split at h <;> cases h
    exact hR.congr rfl rfl (by simp) (by simp)
  | rxGetMsg allocOk =>
    -- the consumer's two steps on the I2X ring
    obtain ⟨hpair, hx2i, -⟩ := ChanSys.stepLive_rxGetMsg h
    obtain ⟨h₁, h₂, h₃⟩ := s.host.rxGetMsg_pointers s.i2x allocOk
    rw [hpair, hW.i2x_chan_size] at h₁ h₂
    rw [hpair] at h₃
    dsimp only at h₁ h₂ h₃
    refine ⟨⟨sx, rx, by rwa [ChanSys.x2iRing_congr hx2i h₃]⟩, si, ri ++
      ((mailboxGetMsg M s.i2x.mem s.i2x.tailReg s.host.chan.i2xHead).dispatch.map (·.frame s.i2x.mem)).toList, ?_⟩
    unfold ChanSys.i2xRing
    rw [h₁, h₂]
    exact hi.take
  | deviceRead =>
    -- the consumer's two steps on the X2I ring
    simp only [ChanSys.stepLive] at h
    split at h
    · cases h
    all_goals
      rename_i head hhead _
      cases h
      rw [hW.x2i_size] at hhead
      have ht := hx.take
      simp only [ChanSys.x2iRing, hhead, Option.getD_some] at ht
      exact ⟨⟨sx, _, ht⟩, si, ri, hi⟩
  | deviceAnswer i resp =>
    -- the producer's three steps on the I2X ring
    simp only [ChanSys.stepLive] at h
    split at h
    · split_ifs at h with hc
      obtain ⟨i2x, hpush, rfl⟩ := Option.map_eq_some'.mp h
      simp only [RingRes.devicePush, Option.map_eq_some'] at hpush
      obtain ⟨⟨mem, t⟩, hw, rfl⟩ := hpush
      rw [hW.i2x_size] at hw hc
      exact ⟨⟨sx, rx, hx⟩, si ++ [resp.bytes], ri, hi.send hc.2 hw⟩
    · cases h
  | deviceAsync msg =>
    simp only [ChanSys.stepLive] at h
    split_ifs at h with hc
    obtain ⟨i2x, hpush, rfl⟩ := Option.map_eq_some'.mp h
    simp only [RingRes.devicePush, Option.map_eq_some'] at hpush
    obtain ⟨⟨mem, t⟩, hw, rfl⟩ := hpush
    rw [hW.i2x_size] at hw hc
    exact ⟨⟨sx, rx, hx⟩, si ++ [msg.bytes], ri, hi.send hc.2 hw⟩
  | deviceForge msg => exact absurd ha (by simp [ChanStep.honest])
  | destroy =>
    simp only [ChanSys.stepLive] at h
    split at h <;> cases h
    exact hR.congr rfl rfl s.host.destroyChannel_pointers.1 s.host.destroyChannel_pointers.2
  | wait w =>
    obtain ⟨q, -, rfl⟩ := Option.map_eq_some'.mp h
    exact hR.congr rfl rfl rfl rfl

/-- Both rings of every channel an honest device reaches are in states the ring protocol reaches. -/
theorem channel_rings_run_ring_protocol (hN : RingSize N) (hM : RingSize M) (hr : s.Reachable N M) :
    s.RingsRefine N M := by
  induction hr with
  | init mx mi P c hP hPN hc =>
    obtain rfl := xdnaMailboxCreateChannel_eq hc
    exact ⟨⟨[], [], .init mx P hP hPN⟩, [], [], .init mi 0 rfl (Nat.zero_le _)⟩
  | step a hr ha hs ih =>
    obtain ⟨hd, hs⟩ := ChanSys.step_eq_some hs
    exact ih.stepLive (hr.inv hN hM) hd ha hs

end

theorem channel_rings_run_ring_protocol_busy :
    RingSize 64 ∧ busy64.Reachable 64 64 ∧ busy64.RingsRefine 64 64 :=
  ⟨ringSize_64, busy64_reachable, channel_rings_run_ring_protocol ringSize_64 ringSize_64 busy64_reachable⟩

/-! ### Where the pointers stand -/

section
variable {N M : Nat} {s : ChanSys}

/-- Both rings' pointers stay within `ringbuf_size - 4`, so the `head == ringbuf_size` reset of
`mailbox_get_msg` never applies. -/
theorem ring_pointers_below_limit (hN : RingSize N) (hM : RingSize M) (hr : s.Reachable N M)
    (hd : s.destroyed = false) :
    s.x2i.headReg ≤ N - 4 ∧ s.x2i.tailReg ≤ N - 4 ∧ s.host.chan.x2iTail = s.x2i.tailReg ∧
      s.i2x.headReg ≤ M - 4 ∧ s.i2x.tailReg ≤ M - 4 ∧ s.host.chan.i2xHead = s.i2x.headReg := by
  have hW := (hr.inv hN hM).wire hd
  obtain ⟨R, hR, -⟩ := hW.x2i_ring
  obtain ⟨R', hR', -⟩ := hW.i2x_ring
  exact ⟨hR.head_le, hR.tail_le, hW.x2i_tail, hW.i2x_head ▸ hR'.head_le, hR'.tail_le, hW.i2x_head.symm⟩

end

theorem ring_pointers_below_limit_busy :
    let s := busy64
    RingSize 64 ∧ s.Reachable 64 64 ∧ s.destroyed = false ∧
      s.x2i.headReg ≤ 64 - 4 ∧ s.x2i.tailReg ≤ 64 - 4 ∧ s.host.chan.x2iTail = s.x2i.tailReg ∧
        s.i2x.headReg ≤ 64 - 4 ∧ s.i2x.tailReg ≤ 64 - 4 ∧ s.host.chan.i2xHead = s.i2x.headReg :=
  ⟨ringSize_64, busy64_reachable, rfl, ring_pointers_below_limit ringSize_64 ringSize_64 busy64_reachable rfl⟩

/-! ### Channel lifetimes -/

theorem Dispatch.frame_header_of_getMsg {N : Nat} {mem : Mem} {t h : Nat} {d : Dispatch}
    (hd : (mailboxGetMsg N mem t h).dispatch = some d) : readHeader (listMem (d.frame mem)) 0 = d.header := by
  obtain ⟨h', rfl⟩ : ∃ h', d = routeMsg (readHeader mem h') (h' + headerSize) := by
    simp only [mailboxGetMsg] at hd
    split_ifs at hd <;> simp only [reduceCtorEq, Option.some.injEq] at hd <;> exact ⟨_, hd.symm⟩
  have hold : Holds mem h' ((routeMsg (readHeader mem h') (h' + headerSize)).frame mem) := by
    simp only [Holds, Dispatch.frame, routeMsg_data, Nat.add_sub_cancel, readBytes_length]
  rw [← readHeader_of_holds_bytes hold (by simp [Dispatch.frame]), routeMsg_header]

@[simp] theorem Host.rxGetMsg_i2xSize (h : Host) (i2x : RingRes) (allocOk : Bool) :
    (h.rxGetMsg i2x allocOk).2.1.chan.i2xSize = h.chan.i2xSize := by
  have hresp : ∀ mem header data, (h.mailboxGetResp mem header data).chan.i2xSize = h.chan.i2xSize :=
    fun mem header data => by obtain ⟨idr, he⟩ := h.mailboxGetResp_chan mem header data; rw [he]
  dsimp only [Host.rxGetMsg]
  generalize mailboxGetMsg h.chan.i2xSize i2x.mem i2x.tailReg h.chan.i2xHead = g
  rcases g with ⟨ret, _ | head, _ | ⟨header, data⟩ | ⟨header, data⟩⟩ <;>
    cases allocOk <;> simp [hresp, MailboxChannel.mailboxGetAsyncMsg]

/-- The I2X ring of a mailbox's resources, from the last channel's `i2x_head`. -/
def LifetimeSys.i2xRing (s : LifetimeSys) (received : List (List UInt8)) : RingSys :=
  ⟨s.i2x.mem, s.i2x.headReg, s.i2x.tailReg, s.i2x.tailReg, s.host.chan.i2xHead, .idle, .idle, s.written, received⟩

/-- Runs where the device writes packages that fit and every channel is created at head register 0. -/
inductive LifetimeSys.FreshReachable (M : Nat) : LifetimeSys → Prop
  | init (x2i : RingRes) (mem : Mem) : FreshReachable M (.init x2i ⟨M, mem, 0, 0⟩)
  | create {s s' : LifetimeSys} (resOk : Bool) : FreshReachable M s → s.i2x.headReg = 0 →
      s.step (.create resOk) = some s' → FreshReachable M s'
  | destroy {s s' : LifetimeSys} : FreshReachable M s → s.step .destroy = some s' → FreshReachable M s'
  | deviceWrite {s s' : LifetimeSys} (p : Package) : FreshReachable M s → p.bytes.length ≤ M →
      s.step (.deviceWrite p.bytes) = some s' → FreshReachable M s'
  | drain {s s' : LifetimeSys} (allocOk : Bool) : FreshReachable M s → s.step (.drain allocOk) = some s' →
      FreshReachable M s'

section
variable {M : Nat} {s : LifetimeSys}

theorem LifetimeSys.FreshReachable.ring (hM : RingSize M) (hr : s.FreshReachable M) :
    s.i2x.rbSize = M ∧ (s.chanOpen = true → s.host.chan.i2xSize = M) ∧
      ∃ received, (s.i2xRing received).Reachable M ∧
        List.Forall₂ (fun d b => d.header = readHeader (listMem b) 0) s.dispatched received := by
  induction hr with
  | init x2i mem => exact ⟨rfl, (fun h => by cases h), [], .init mem 0 rfl (Nat.zero_le _), .nil⟩
  | create resOk _ h0 hs ih =>
    obtain ⟨hsize, -, received, hview, hdis⟩ := ih
    simp only [LifetimeSys.step] at hs
    split_ifs at hs
    split at hs <;> cases hs
    · exact ⟨hsize, by simp_all, received, hview, hdis⟩
    · rename_i c hc
      obtain rfl := xdnaMailboxCreateChannel_eq hc
      -- the last channel's head is the head register, which is 0
      have hhead := (hview.inv hM).head_reg
      simp only [LifetimeSys.i2xRing] at hhead
      refine ⟨hsize, fun _ => hsize, received, ?_, hdis⟩
      simpa [LifetimeSys.i2xRing, ← hhead, h0] using hview
  | destroy _ hs ih =>
    obtain ⟨hsize, -, received, hview, hdis⟩ := ih
    simp only [LifetimeSys.step] at hs
    split_ifs at hs
    cases hs
    refine ⟨hsize, (fun h => by cases h), received, ?_, hdis⟩
    simpa [LifetimeSys.i2xRing, (Host.destroyChannel_pointers _).2] using hview
  | deviceWrite p _ hlen hs ih =>
    obtain ⟨hsize, hchan, received, hview, hdis⟩ := ih
    simp only [LifetimeSys.step] at hs
    split at hs <;> cases hs
    rename_i mem t hw
    rw [hsize] at hw
    exact ⟨hsize, hchan, received, hview.send hlen hw, hdis⟩
  | drain allocOk _ hs ih =>
    obtain ⟨hsize, hchan, received, hview, hdis⟩ := ih
    simp only [LifetimeSys.step] at hs
    split_ifs at hs with hopen
    cases hs
    rename_i s _
    obtain ⟨h₁, h₂, -⟩ := s.host.rxGetMsg_pointers s.i2x allocOk
    have hsz := hchan hopen
    rw [hsz] at h₁ h₂
    -- the consumer's two steps, receiving the frame the call dispatches
    have hnew : List.Forall₂ (fun d b => d.header = readHeader (listMem b) 0)
        (mailboxGetMsg M s.i2x.mem s.i2x.tailReg s.host.chan.i2xHead).dispatch.toList
        ((mailboxGetMsg M s.i2x.mem s.i2x.tailReg s.host.chan.i2xHead).dispatch.map (·.frame s.i2x.mem)).toList := by
      cases hd : (mailboxGetMsg M s.i2x.mem s.i2x.tailReg s.host.chan.i2xHead).dispatch with
      | none => exact .nil
      | some d => exact .cons (Dispatch.frame_header_of_getMsg hd).symm .nil
    refine ⟨by rw [h₁]; exact hsize, fun _ => by simp [hsz], _, ?_, by rw [hsz]; exact List.rel_append hdis hnew⟩
    have := hview.take
    simp only [LifetimeSys.i2xRing] at this ⊢
    rw [h₁, h₂]
    exact this

/-- Channels created at I2X head register 0 dispatch a prefix of the device's messages in order, each
at most once. -/
theorem fresh_channels_dispatch_once (hM : RingSize M) (hr : s.FreshReachable M) :
    ∃ received rest, s.written = received ++ rest ∧
      List.Forall₂ (fun d b => d.header = readHeader (listMem b) 0) s.dispatched received := by
  obtain ⟨-, -, received, hview, hdis⟩ := hr.ring hM
  obtain ⟨R, -, hsent, -⟩ := (hview.inv hM).region
  exact ⟨received, _, hsent, hdis⟩

end

theorem fresh_channels_dispatch_once_drained :
    ∃ s : LifetimeSys, s.dispatched.length = 1 ∧ RingSize 64 ∧ s.FreshReachable 64 ∧
      ∃ received rest, s.written = received ++ rest ∧
        List.Forall₂ (fun d b => d.header = readHeader (listMem b) 0) s.dispatched received := by
  have hr : LifetimeSys.FreshReachable 64 _ :=
    .drain true (.deviceWrite bareHeaderPkg (.create true (.init ⟨64, fun _ => 0, 0, 0⟩ fun _ => 0) rfl rfl)
      (by decide) rfl) rfl
  refine ⟨_, ?_, ringSize_64, hr, fresh_channels_dispatch_once ringSize_64 hr⟩
  rfl

end XdnaMailbox
