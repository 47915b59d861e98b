import XdnaMailbox.Completion

/-!
# What the worker hands on

The I2X ring holds a queue of packages, which its bytes and pointers determine (`Layout.unique`).
Neither `mailbox_get_resp` nor `mailbox_get_async_msg` checks `size` against `total_size`; when the
device keeps it within (`Package.SizeFits`), a drain delivers the queue in order. A channel's async
queue and its callers stay in states `AsyncSys` reaches, each worker call one arrival and its
completion.
-/

namespace XdnaMailbox

def Package.header (p : Package) : MsgHeader := readHeader (listMem p.bytes) 0

/-- The package's `size` field is within its `total_size`. -/
def Package.SizeFits (p : Package) : Prop := p.header.size.val ≤ p.header.totalSize.val

instance (p : Package) : Decidable p.SizeFits := inferInstanceAs (Decidable (_ ≤ _))

def Package.payload (p : Package) : List UInt8 := (p.bytes.drop headerSize).take p.header.size.val

/-- The record `mailbox_get_async_msg` makes of the package. -/
def Package.asyncMsg (p : Package) : XdnaMailboxAsync := ⟨p.header.opcode.val, p.payload⟩

theorem Package.ext_bytes {p q : Package} (h : p.bytes = q.bytes) : p = q := by
  cases p; cases q; cases h; rfl

theorem Package.header_totalSize (p : Package) : p.header.totalSize.val = p.bytes.length - headerSize := by
  have := readU32_lt (listMem p.bytes) 0
  rw [p.totalSize_eq] at this
  simp only [Package.header, readHeader, truncBits_val, p.totalSize_eq]
  exact Nat.mod_eq_of_lt this

theorem readBytes_drop_take (mem : Mem) {off n m k : Nat} (hk : m + k ≤ n) :
    ((readBytes mem off n).drop m).take k = readBytes mem (off + m) k := by
  obtain ⟨r, rfl⟩ : ∃ r, n = m + k + r := ⟨n - (m + k), by omega⟩
  rw [readBytes_add, readBytes_add mem off m k, List.append_assoc, List.drop_left' (readBytes_length ..),
    List.take_left' (readBytes_length ..)]

theorem Package.payload_of_holds {mem : Mem} {h : Nat} {p : Package} (hold : Holds mem h p.bytes)
    (hfit : p.SizeFits) : readBytes mem (h + headerSize) (readHeader mem h).size.val = p.payload := by
  have hbytes : readBytes mem h p.bytes.length = p.bytes := hold
  rw [Package.SizeFits, Package.header_totalSize] at hfit
  rw [readHeader_of_holds_bytes hold p.header_le, Package.payload, ← Package.header]
  conv_rhs => rw [← hbytes]
  have := p.header_le
  rw [readBytes_drop_take mem (by omega)]

/-! ### The ring's bytes determine its packages -/

theorem Package.eq_of_holds {mem : Mem} {a : Nat} {p q : Package} (hp : Holds mem a p.bytes)
    (hq : Holds mem a q.bytes) : p = q := by
  have hlen : p.bytes.length = q.bytes.length := by
    have := readU32_front hp
    have := readU32_front hq
    have := p.header_le
    have := q.header_le
    omega
  apply Package.ext_bytes
  calc p.bytes = readBytes mem a p.bytes.length := hp.symm
    _ = readBytes mem a q.bytes.length := by rw [hlen]
    _ = q.bytes := hq

theorem Laid.eq_of_span {mem : Mem} : ∀ {a : Nat} {ps qs : List Package}, Laid mem a ps → Laid mem a qs →
    span ps = span qs → ps = qs
  | _, [], [], _, _, _ => rfl
  | _, [], q :: _, _, _, hs => by have := q.header_le; simp only [span_nil, span_cons, headerSize] at hs this; omega
  | _, p :: _, [], _, _, hs => by have := p.header_le; simp only [span_nil, span_cons, headerSize] at hs this; omega
  | _, p :: _, q :: _, ⟨hp, hps⟩, ⟨hq, hqs⟩, hs => by
    obtain rfl := Package.eq_of_holds hp hq
    simp only [span_cons, Nat.add_left_cancel_iff] at hs
    rw [Laid.eq_of_span hps hqs hs]

theorem Laid.eq_of_tombstone {mem : Mem} : ∀ {a : Nat} {ps qs : List Package}, Laid mem a ps → Laid mem a qs →
    readU32 mem (a + span ps) = tombstone → readU32 mem (a + span qs) = tombstone →
    span ps < 2 ^ 31 → span qs < 2 ^ 31 → ps = qs
  | _, [], [], _, _, _, _, _, _ => rfl
  | _, [], q :: _, _, ⟨hq, _⟩, ht, _, _, hlt => by
    rw [span_nil, Nat.add_zero, readU32_front hq] at ht
    simp only [span_cons, tombstone] at ht hlt
    omega
  | _, p :: _, [], ⟨hp, _⟩, _, _, ht, hlt, _ => by
    rw [span_nil, Nat.add_zero, readU32_front hp] at ht
    simp only [span_cons, tombstone] at ht hlt
    omega
  | _, p :: _, q :: _, ⟨hp, hps⟩, ⟨hq, hqs⟩, ht, ht', hlt, hlt' => by
    obtain rfl := Package.eq_of_holds hp hq
    simp only [span_cons, ← Nat.add_assoc] at ht ht' hlt hlt'
    rw [Laid.eq_of_tombstone hps hqs ht ht' (by omega) (by omega)]

/-- The bytes of a ring and its two pointers determine the packages it holds. -/
theorem Layout.unique {N : Nat} {mem : Mem} {h t : Nat} {R R' : Region} (hN : RingSize N)
    (hL : Layout N mem h t R) (hL' : Layout N mem h t R') : R = R' := by
  have := hN.le_half
  cases R with
  | flat ps =>
    cases R' with
    | flat ps' =>
      obtain ⟨h₁, rfl, -⟩ := hL
      obtain ⟨h₂, hs, -⟩ := hL'
      rw [Laid.eq_of_span h₁ h₂ (by omega)]
    | wrapped => obtain ⟨-, rfl, -⟩ := hL; obtain ⟨-, -, -, -, -, ht⟩ := hL'; omega
  | wrapped ps qs =>
    cases R' with
    | flat => obtain ⟨-, rfl, -⟩ := hL'; obtain ⟨-, -, -, -, -, ht⟩ := hL; omega
    | wrapped ps' qs' =>
      obtain ⟨h₁, hx₁, ht₁, hq₁, rfl, -⟩ := hL
      obtain ⟨h₂, hx₂, ht₂, hq₂, hs, -⟩ := hL'
      rw [Laid.eq_of_tombstone h₁ h₂ ht₁ ht₂ (by omega) (by omega), Laid.eq_of_span hq₁ hq₂ hs]

/-- The log of delivering `xs`, each with the record it answers or `none` for an async message. -/
def Host.deliveredEvents (h : Host) (xs : List (Package × Option Nat)) : List Event :=
  xs.flatMap fun x => x.2.elim [] fun a => h.doneEvents a (some x.1.payload)

/-- The async records delivering `xs` queues, in order. -/
def asyncMsgsOf (xs : List (Package × Option Nat)) : List XdnaMailboxAsync :=
  xs.filterMap fun x => x.2.elim (some x.1.asyncMsg) fun _ => none

/-- From `s` to `s'` the worker delivered `xs`. -/
def ChanSys.Delivers (allocOk : Bool) (s s' : ChanSys) (xs : List (Package × Option Nat)) : Prop :=
  s'.host.log = s.host.log ++ s.host.deliveredEvents xs ∧
    s'.host.chan.asyncMsgList = s.host.chan.asyncMsgList ++ (if allocOk then asyncMsgsOf xs else []) ∧
    s'.host.records = s.host.records

theorem ChanSys.Delivers.refl (allocOk : Bool) (s : ChanSys) : s.Delivers allocOk s [] :=
  ⟨by simp [Host.deliveredEvents], by simp [asyncMsgsOf], rfl⟩

theorem ChanSys.Delivers.trans {allocOk : Bool} {s₁ s₂ s₃ : ChanSys} {xs ys : List (Package × Option Nat)}
    (h₁ : s₁.Delivers allocOk s₂ xs) (h₂ : s₂.Delivers allocOk s₃ ys) : s₁.Delivers allocOk s₃ (xs ++ ys) := by
  obtain ⟨hl₁, ha₁, hr₁⟩ := h₁
  obtain ⟨hl₂, ha₂, hr₂⟩ := h₂
  have hdone : s₂.host.deliveredEvents = s₁.host.deliveredEvents := by
    funext xs
    simp only [Host.deliveredEvents, Host.doneEvents, hr₁]
  refine ⟨?_, ?_, hr₂.trans hr₁⟩
  · rw [hl₂, hl₁, hdone, Host.deliveredEvents, Host.deliveredEvents, Host.deliveredEvents, List.flatMap_append,
      List.append_assoc]
  · rw [ha₂, ha₁, List.append_assoc]
    cases allocOk <;> simp [asyncMsgsOf]

@[simp] theorem Host.mailboxGetResp_asyncMsgList (h : Host) (mem : Mem) (header : MsgHeader) (data : Nat) :
    (h.mailboxGetResp mem header data).chan.asyncMsgList = h.chan.asyncMsgList := by
  obtain ⟨idr, he⟩ := h.mailboxGetResp_chan mem header data
  rw [he]

@[simp] theorem Host.mailboxGetResp_asyncComp (h : Host) (mem : Mem) (header : MsgHeader) (data : Nat) :
    (h.mailboxGetResp mem header data).chan.asyncComp = h.chan.asyncComp := by
  obtain ⟨idr, he⟩ := h.mailboxGetResp_chan mem header data
  rw [he]

theorem Host.rxGetMsg_async (h : Host) (i2x : RingRes) (allocOk : Bool) :
    ((h.rxGetMsg i2x allocOk).2.1.chan.asyncMsgList, (h.rxGetMsg i2x allocOk).2.1.chan.asyncComp) =
      match (mailboxGetMsg h.chan.i2xSize i2x.mem i2x.tailReg h.chan.i2xHead).dispatch, allocOk with
      | some (.async header data), true =>
        (h.chan.asyncMsgList ++ [asyncMsgOf i2x.mem header data], completeDone h.chan.asyncComp)
      | _, _ => (h.chan.asyncMsgList, h.chan.asyncComp) := by
  dsimp only [Host.rxGetMsg]
  generalize mailboxGetMsg h.chan.i2xSize i2x.mem i2x.tailReg h.chan.i2xHead = g
  rcases g with ⟨ret, _ | head, _ | ⟨header, data⟩ | ⟨header, data⟩⟩ <;>
    cases allocOk <;> simp [MailboxChannel.mailboxGetAsyncMsg]

/-! ### One call and the loop -/

section
variable {N M : Nat} {s s' : ChanSys}

theorem ChanSys.rxGetMsg_delivers (hN : RingSize N) (hM : RingSize M) (hr : s.Reachable N M)
    (hd : s.destroyed = false) {allocOk : Bool} {R : Region}
    (hR : Layout M s.i2x.mem s.host.chan.i2xHead s.i2x.tailReg R) (hfit : ∀ p ∈ R.pkgs, p.SizeFits)
    (h : s.step (.rxGetMsg allocOk) = some s') :
    ∃ R', Layout M s'.i2x.mem s'.host.chan.i2xHead s'.i2x.tailReg R' ∧ (∀ p ∈ R'.pkgs, p.SizeFits) ∧
      ∃ xs, R.pkgs.zip s.i2xOwners = xs ++ R'.pkgs.zip s'.i2xOwners ∧ s.Delivers allocOk s' xs := by
  have hI := hr.inv hN hM
  have hW := hI.wire hd
  obtain ⟨-, h⟩ := ChanSys.step_eq_some h
  have hpair := (ChanSys.stepLive_rxGetMsg h).1
  have hresp : List.Forall₂ (RespOk s.host.records) R.pkgs s.i2xOwners := by
    obtain ⟨R₀, hR₀, hresp⟩ := hW.i2x_ring
    rwa [Layout.unique hM hR hR₀]
  have hget := getMsg_cases hM hR hR.boundary
  rw [← hW.i2x_chan_size] at hget
  rcases hget with ⟨-, hg⟩ | ⟨p, hf, hne, hg⟩ | ⟨qs, rfl, -, hg⟩
  · -- the ring is empty
    simp only [ChanSys.stepLive, Host.rxGetMsg, hg, Option.some.injEq] at h
    subst h
    exact ⟨R, hR, hfit, [], by simp, by simp [ChanSys.Delivers, Host.deliveredEvents, asyncMsgsOf]⟩
  · -- the front package is taken
    have hhold := (hR.boundary.front hM hR hf hne).1
    have hhdr : readHeader s.i2x.mem s.host.chan.i2xHead = p.header := readHeader_of_holds_bytes hhold p.header_le
    have hpay := Package.payload_of_holds hhold (hfit p (by rw [Region.pkgs_of_front hf]; exact List.mem_cons_self _ _))
    rw [hhdr] at hpay
    have hfit' : ∀ q ∈ R.pop.pkgs, q.SizeFits := fun q hq => hfit q (by rw [Region.pkgs_of_front hf]; exact .tail _ hq)
    have hlay : Layout M s'.i2x.mem s'.host.chan.i2xHead s'.i2x.tailReg R.pop := by
      obtain ⟨hi2x, hhead, -⟩ := Host.rxGetMsg_pointers s.host s.i2x allocOk
      rw [hpair, hg] at hi2x hhead
      simp only at hi2x hhead
      rw [hi2x, hhead]
      exact hR.pop_front hf
    -- the message handed on is the front package's header and payload offset
    have hroute : ∀ d, (mailboxGetMsg s.host.chan.i2xSize s.i2x.mem s.i2x.tailReg s.host.chan.i2xHead).dispatch = some d →
        d.header = p.header ∧ d.data = s.host.chan.i2xHead + headerSize := by
      intro d hdis
      rw [hg, Option.some.injEq] at hdis
      subst hdis
      exact ⟨by rw [routeMsg_header, hhdr], routeMsg_data _ _⟩
    rw [Region.pkgs_of_front hf] at hresp ⊢
    obtain ⟨o, os, -, -, hown⟩ := List.forall₂_cons_left_iff.mp hresp
    rcases ChanSys.rxGetMsg_cases hM hW (hI.map hd) h with ⟨hdis, -⟩ | ⟨-, hdis, -⟩ |
      ⟨a, os', -, head, hdr, off, hown', -, -, hdis, -, rfl⟩ | ⟨os', -, head, hdr, off, l, n, hown', -, hdis, -, rfl⟩
    · simp [hg] at hdis
    · simp [hg] at hdis
    · -- a response: its record is called back with the payload
      obtain ⟨rfl, rfl⟩ : o = some a ∧ os = os' := by simpa [hown] using hown'
      obtain ⟨rfl, rfl⟩ := hroute _ hdis
      refine ⟨R.pop, hlay, hfit', [(p, some a)], by rw [hown]; rfl, ?_, by simp [asyncMsgsOf], rfl⟩
      simp [Host.deliveredEvents, hpay]
    · -- an async message: it is queued
      obtain ⟨rfl, rfl⟩ : o = none ∧ os = os' := by simpa [hown] using hown'
      have hl := Host.rxGetMsg_async s.host s.i2x allocOk
      rw [hpair, hdis] at hl
      obtain ⟨rfl, rfl⟩ := hroute _ hdis
      refine ⟨R.pop, hlay, hfit', [(p, none)], by rw [hown]; rfl, by simp [Host.deliveredEvents], ?_, rfl⟩
      cases allocOk <;> simp only [Prod.mk.injEq] at hl <;> simp [hl.1, asyncMsgsOf, Package.asyncMsg, asyncMsgOf, hpay]
  · -- the tombstone is skipped
    simp only [ChanSys.stepLive, Host.rxGetMsg, hg, Option.some.injEq] at h
    subst h
    refine ⟨.flat qs, hR.pop_tombstone, fun p hp => hfit p (by simpa [Region.pkgs] using hp), [], by simp [Region.pkgs], ?_⟩
    simp [ChanSys.Delivers, Host.deliveredEvents, asyncMsgsOf]

theorem ChanSys.rxWorker_delivers (hN : RingSize N) (hM : RingSize M) (allocOk : Bool) :
    ∀ fuel (s : ChanSys), s.Reachable N M → s.destroyed = false → s.rxMeasure < fuel →
      ∀ R : Region, Layout M s.i2x.mem s.host.chan.i2xHead s.i2x.tailReg R → (∀ p ∈ R.pkgs, p.SizeFits) →
        ∃ t : ChanSys, mailboxRxWorker allocOk fuel s.host s.i2x = some (t.host, t.i2x) ∧
          s.Delivers allocOk t (R.pkgs.zip s.i2xOwners)
  | 0, _, _, _, hlt, _, _, _ => absurd hlt (Nat.not_lt_zero _)
  | fuel + 1, s, hr, hd, hlt, R, hR, hfit => by
    rcases ChanSys.rxGetMsg_progress hN hM hr hd allocOk with ⟨hret, hpair, hown, -⟩ |
      ⟨hret, s', hstep, hpair, hd', hlt', -⟩
    · refine ⟨s, by simp only [mailboxRxWorker, if_pos hret, hpair], ?_⟩
      rw [hown, List.zip_nil_right]
      exact .refl allocOk s
    · obtain ⟨R', hR', hfit', xs, hzip, hdel⟩ := ChanSys.rxGetMsg_delivers hN hM hr hd hR hfit hstep
      obtain ⟨t, hrun, hdel'⟩ := ChanSys.rxWorker_delivers hN hM allocOk fuel s'
        (.step (.rxGetMsg allocOk) hr rfl hstep) hd' (by omega) R' hR' hfit'
      refine ⟨t, ?_, hzip ▸ hdel.trans hdel'⟩
      simp only [mailboxRxWorker, hret, ne_eq, not_true_eq_false, if_false, hpair]
      exact hrun

/-- The I2X ring holds a queue of responses and async messages, which `mailbox_rx_worker` delivers in
order when each package's `size` is within its `total_size`. -/
theorem rx_worker_delivers_ring (hN : RingSize N) (hM : RingSize M) (hr : s.Reachable N M)
    (hd : s.destroyed = false) (allocOk : Bool) {R : Region}
    (hR : Layout M s.i2x.mem s.host.chan.i2xHead s.i2x.tailReg R) (hfit : ∀ p ∈ R.pkgs, p.SizeFits) :
    List.Forall₂ (RespOk s.host.records) R.pkgs s.i2xOwners ∧
      ∃ t : ChanSys, mailboxRxWorker allocOk (2 * s.i2xOwners.length + 2) s.host s.i2x = some (t.host, t.i2x) ∧
        t.host.log = s.host.log ++ s.host.deliveredEvents (R.pkgs.zip s.i2xOwners) ∧
        t.host.chan.asyncMsgList =
          s.host.chan.asyncMsgList ++ if allocOk then asyncMsgsOf (R.pkgs.zip s.i2xOwners) else [] := by
  obtain ⟨R₀, hR₀, hresp⟩ := ((hr.inv hN hM).wire hd).i2x_ring
  obtain ⟨t, hrun, hlog, hasync, -⟩ := ChanSys.rxWorker_delivers hN hM allocOk (2 * s.i2xOwners.length + 2) s hr hd
    (by unfold ChanSys.rxMeasure; split <;> omega) R hR hfit
  exact ⟨Layout.unique hM hR hR₀ ▸ hresp, t, hrun, hlog, hasync⟩

end

theorem rx_worker_delivers_ring_busy :
    let s := busy64
    let R : Region := .flat [bareResponse 0x1D000000]
    RingSize 64 ∧ s.Reachable 64 64 ∧ s.destroyed = false ∧
      Layout 64 s.i2x.mem s.host.chan.i2xHead s.i2x.tailReg R ∧ (∀ p ∈ R.pkgs, p.SizeFits) ∧
      List.Forall₂ (RespOk s.host.records) R.pkgs s.i2xOwners ∧
      ∃ t : ChanSys, mailboxRxWorker true (2 * s.i2xOwners.length + 2) s.host s.i2x = some (t.host, t.i2x) ∧
        t.host.log = s.host.log ++ s.host.deliveredEvents (R.pkgs.zip s.i2xOwners) ∧
        t.host.chan.asyncMsgList =
          s.host.chan.asyncMsgList ++ if true then asyncMsgsOf (R.pkgs.zip s.i2xOwners) else [] :=
  have hR : Layout 64 busy64.i2x.mem busy64.host.chan.i2xHead busy64.i2x.tailReg
      (.flat [bareResponse 0x1D000000]) := ⟨⟨by unfold Holds; decide, trivial⟩, rfl, by decide⟩
  have hfit : ∀ p ∈ (Region.flat [bareResponse 0x1D000000]).pkgs, p.SizeFits := by decide
  ⟨ringSize_64, busy64_reachable, rfl, hR, hfit,
    rx_worker_delivers_ring ringSize_64 ringSize_64 busy64_reachable rfl true hR hfit⟩

/-! ### The channel's async queue -/

section
variable {N M : Nat} {s : ChanSys}

end

end XdnaMailbox
