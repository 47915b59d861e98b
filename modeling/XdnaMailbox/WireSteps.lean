import XdnaMailbox.Protocol
import XdnaMailbox.Ownership

/-!
# The worker's and the device's steps

`ChanSys.rxGetMsg_cases` says everything one call of `mailbox_get_msg` by the receive worker can do
on a ring laid out as the invariant says: nothing, skip a tombstone, take the response at the front,
which answers the record the ring's first owner names, or queue an async message. Each outcome keeps
the invariant. The device moves a record from the X2I ring to its inbox and from its inbox to the
I2X ring, or adds an async message; teardown calls back and frees every record in the map.
-/

namespace XdnaMailbox

section
variable {N M : Nat} {s s' : ChanSys}

/-! ### The receive worker -/

theorem readHeader_of_holds_bytes {mem : Mem} {off : Nat} {bytes : List UInt8} (hold : Holds mem off bytes)
    (hlen : headerSize ≤ bytes.length) : readHeader mem off = readHeader (listMem bytes) 0 := by
  unfold headerSize at hlen
  have h0 := readU32_of_holds hold (k := 0) (by omega)
  have h4 := readU32_of_holds hold (k := 4) (by omega)
  have h8 := readU32_of_holds hold (k := 8) (by omega)
  have h12 := readU32_of_holds hold (k := 12) (by omega)
  rw [Nat.add_zero] at h0
  simp only [readHeader, h0, h4, h8, h12, Nat.zero_add]

theorem MailboxChannel.mailboxGetAsyncMsg_eq (c : MailboxChannel) (mem : Mem) (header : MsgHeader)
    (data : Nat) (allocOk : Bool) :
    ∃ l n, c.mailboxGetAsyncMsg mem header data allocOk = { c with asyncMsgList := l, asyncComp := n } := by
  unfold MailboxChannel.mailboxGetAsyncMsg
  split
  exacts [⟨_, _, rfl⟩, ⟨c.asyncMsgList, c.asyncComp, rfl⟩]

/-- Everything one call of `mailbox_get_msg` by the worker can do to a channel that keeps the
invariant: nothing, on an empty ring; skip a tombstone; take the response at the front, which
carries the id of the record its owner names, and call back and free that record; or queue an
async message. -/
theorem ChanSys.rxGetMsg_cases (hM : RingSize M) (hW : WireInv N M s) (hMp : MapInv N s) {allocOk : Bool}
    (h : s.stepLive (.rxGetMsg allocOk) = some s') :
    (mailboxGetMsg s.host.chan.i2xSize s.i2x.mem s.i2x.tailReg s.host.chan.i2xHead).dispatch = none ∧ s' = s ∨
    (∃ qs, (mailboxGetMsg s.host.chan.i2xSize s.i2x.mem s.i2x.tailReg s.host.chan.i2xHead).dispatch = none ∧
      Layout M s.i2x.mem 0 s.i2x.tailReg (.flat qs) ∧
      List.Forall₂ (RespOk s.host.records) qs s.i2xOwners ∧
      s' = { s with host := { s.host with chan := { s.host.chan with i2xHead := 0 } },
                    i2x := { s.i2x with headReg := 0 } }) ∨
    (∃ a os R head hdr off, s.i2xOwners = some a :: os ∧ Layout M s.i2x.mem head s.i2x.tailReg R ∧
      List.Forall₂ (RespOk s.host.records) R.pkgs os ∧
      (mailboxGetMsg s.host.chan.i2xSize s.i2x.mem s.i2x.tailReg s.host.chan.i2xHead).dispatch =
        some (.resp hdr off) ∧
      hdr.id = (s.host.records a).header.id ∧
      s' = { s with
        host := { s.host with
          chan := { s.host.chan with chanIdr := s.host.chan.chanIdr.remove (s.host.records a).key,
                                     i2xHead := head },
          live := Function.update s.host.live a false,
          log := s.host.log ++ s.host.doneEvents a (some (readBytes s.i2x.mem off hdr.size.val)) },
        i2x := { s.i2x with headReg := head },
        i2xOwners := os }) ∨
    (∃ os R head hdr off l n, s.i2xOwners = none :: os ∧ Layout M s.i2x.mem head s.i2x.tailReg R ∧
      (mailboxGetMsg s.host.chan.i2xSize s.i2x.mem s.i2x.tailReg s.host.chan.i2xHead).dispatch =
        some (.async hdr off) ∧
      List.Forall₂ (RespOk s.host.records) R.pkgs os ∧
      s' = { s with
        host := { s.host with chan := { s.host.chan with asyncMsgList := l, asyncComp := n, i2xHead := head } },
        i2x := { s.i2x with headReg := head },
        i2xOwners := os }) := by
  obtain ⟨R, hR, hresp⟩ := hW.i2x_ring
  simp only [ChanSys.stepLive, Option.some.injEq] at h
  subst h
  simp only [Host.rxGetMsg]
  have hget := getMsg_cases hM hR hR.boundary
  rw [← hW.i2x_chan_size] at hget
  rcases hget with ⟨-, hr⟩ | ⟨p, hf, hne, hr⟩ | ⟨qs, rfl, -, hr⟩
  · left
    simp [hr]
  · have hhold := (hR.boundary.front hM hR hf hne).1
    have hhdr := readHeader_of_holds_bytes hhold p.header_le
    rw [Region.pkgs_of_front hf, List.forall₂_cons_left_iff] at hresp
    obtain ⟨o, os, hpo, hos, hown⟩ := hresp
    cases o with
    | some a =>
      have ha : a ∈ s.inFlight := ChanSys.mem_inFlight_i2x (by rw [hown]; exact List.mem_cons_self _ _)
      have hiss := hMp.issued a ha
      have hid : (readHeader s.i2x.mem s.host.chan.i2xHead).id = (s.host.records a).header.id := by
        rw [hhdr]; exact hpo
      have hval : (readHeader s.i2x.mem s.host.chan.i2xHead).id.val = (s.host.records a).key ||| magicVal := by
        rw [hid]; exact hiss.id_eq
      have hroute : routeMsg (readHeader s.i2x.mem s.host.chan.i2xHead) (s.host.chan.i2xHead + headerSize) =
          .resp (readHeader s.i2x.mem s.host.chan.i2xHead) (s.host.chan.i2xHead + headerSize) := by
        unfold routeMsg
        rw [if_pos (by rw [hval]; exact (issued_bits _ hiss.key_lt).2.2.1)]
      have hslot : s.host.chan.chanIdr.slots (s.host.records a).key = some a := (hMp.idr _ _).mpr (.inl ⟨ha, rfl⟩)
      right; right; left
      refine ⟨a, os, _, _, _, _, hown, hR.pop_front hf, hos, by rw [hr, hroute], hid, ?_⟩
      simp only [hr, hroute, Host.mailboxGetResp_issued hiss.key_lt hval hslot (hMp.live_of_inFlight ha),
        Option.isSome_some, if_true, hown, List.tail_cons]
    | none =>
      have hroute : routeMsg (readHeader s.i2x.mem s.host.chan.i2xHead) (s.host.chan.i2xHead + headerSize) =
          .async (readHeader s.i2x.mem s.host.chan.i2xHead) (s.host.chan.i2xHead + headerSize) := by
        unfold routeMsg
        rw [if_neg (by rw [hhdr]; exact Nat.not_lt.mpr hpo)]
      obtain ⟨l, n, hc⟩ := s.host.chan.mailboxGetAsyncMsg_eq s.i2x.mem (readHeader s.i2x.mem s.host.chan.i2xHead)
        (s.host.chan.i2xHead + headerSize) allocOk
      right; right; right
      refine ⟨os, _, _, _, _, l, n, hown, hR.pop_front hf, by rw [hr, hroute], hos, ?_⟩
      simp only [hr, hroute, hc, Option.isSome_some, if_true, hown, List.tail_cons]
  · right; left
    refine ⟨qs, by rw [hr], hR.pop_tombstone, by simpa [Region.pkgs] using hresp, ?_⟩
    simp [hr]

theorem Inv.skipTombstone (hI : Inv N M s) (hd : s.destroyed = false) {qs : List Package}
    (hL : Layout M s.i2x.mem 0 s.i2x.tailReg (.flat qs))
    (hresp : List.Forall₂ (RespOk s.host.records) qs s.i2xOwners) :
    Inv N M { s with host := { s.host with chan := { s.host.chan with i2xHead := 0 } },
                     i2x := { s.i2x with headReg := 0 } } := by
  have hW := hI.wire hd
  exact ⟨hI.log.congr rfl rfl rfl (fun _ => rfl) rfl rfl, fun _ => ⟨hW.x2i_size, hW.x2i_chan_size,
    hW.i2x_size, hW.i2x_chan_size, hW.x2i_ring, hW.x2i_tail, ⟨.flat qs, hL, hresp⟩, rfl, hW.inbox⟩,
    fun _ => (hI.map hd).congr rfl rfl rfl (fun _ h => h) rfl (List.Perm.refl _)⟩

theorem Inv.queueAsync (hI : Inv N M s) (hd : s.destroyed = false) {os : List (Option Nat)} {R : Region}
    {head : Nat} {l : List XdnaMailboxAsync} {n : Nat} (hown : s.i2xOwners = none :: os)
    (hL : Layout M s.i2x.mem head s.i2x.tailReg R) (hresp : List.Forall₂ (RespOk s.host.records) R.pkgs os) :
    Inv N M { s with
      host := { s.host with chan := { s.host.chan with asyncMsgList := l, asyncComp := n, i2xHead := head } },
      i2x := { s.i2x with headReg := head },
      i2xOwners := os } := by
  have hW := hI.wire hd
  exact ⟨hI.log.congr rfl rfl rfl (fun _ => rfl) rfl rfl, fun _ => ⟨hW.x2i_size, hW.x2i_chan_size,
    hW.i2x_size, hW.i2x_chan_size, hW.x2i_ring, hW.x2i_tail, ⟨R, hL, hresp⟩, rfl, hW.inbox⟩,
    fun _ => (hI.map hd).congr rfl rfl rfl (fun _ h => h) rfl (by simp [ChanSys.inFlight, hown])⟩

theorem Inv.takeResp (hI : Inv N M s) (hd : s.destroyed = false) {a head : Nat} {os : List (Option Nat)}
    {R : Region} (hown : s.i2xOwners = some a :: os) (hL : Layout M s.i2x.mem head s.i2x.tailReg R)
    (hresp : List.Forall₂ (RespOk s.host.records) R.pkgs os) (data : List UInt8) :
    Inv N M { s with
      host := { s.host with
        chan := { s.host.chan with chanIdr := s.host.chan.chanIdr.remove (s.host.records a).key,
                                   i2xHead := head },
        live := Function.update s.host.live a false,
        log := s.host.log ++ s.host.doneEvents a (some data) },
      i2x := { s.i2x with headReg := head },
      i2xOwners := os } := by
  have hW := hI.wire hd
  have hMp := hI.map hd
  have ha : a ∈ s.inFlight := ChanSys.mem_inFlight_i2x (by rw [hown]; exact List.mem_cons_self _ _)
  have hperm : s.inFlight.Perm (a :: (s.x2iOwners ++ s.inbox.map Prod.snd ++ os.filterMap id)) := by
    simp only [ChanSys.inFlight, hown, List.filterMap_cons_some, id]
    exact List.perm_middle
  have hnd := ((hperm.append_right s.sender.owned.toList).nodup_iff.mp hMp.nodup)
  rw [List.cons_append, List.nodup_cons] at hnd
  have hmem : ∀ b, b ∈ s.inFlight ↔ b = a ∨ b ∈ s.x2iOwners ++ s.inbox.map Prod.snd ++ os.filterMap id :=
    fun b => by rw [hperm.mem_iff, List.mem_cons]
  have hslot : s.host.chan.chanIdr.slots (s.host.records a).key = some a := (hMp.idr _ _).mpr (.inl ⟨ha, rfl⟩)
  refine ⟨hI.log.release (List.nodup_singleton a) (by simpa using hMp.live_of_inFlight ha)
    (by simpa using hI.not_failed hd ha) (fun _ => some data) (fun b => ?_) (by simp) rfl rfl rfl
    (fun h => absurd h (by simp [hd])), fun _ => ⟨hW.x2i_size, hW.x2i_chan_size, hW.i2x_size,
    hW.i2x_chan_size, hW.x2i_ring, hW.x2i_tail, ⟨R, hL, hresp⟩, rfl, hW.inbox⟩, fun _ => ?_⟩
  · by_cases e : b = a
    · subst e; simp
    · simp [Function.update_noteq e, e]
  refine ⟨hnd.2, hMp.record_ok, fun b hb => hMp.issued b ((hmem b).mpr (.inr hb)), hMp.sender_ok,
    fun k b => ?_, fun b => ?_, fun b hb => (hMp.returned b ((hmem b).mpr (.inr hb))).imp_left
      fun h => List.mem_append_left _ h⟩
  · show Function.update s.host.chan.chanIdr.slots (s.host.records a).key none k = some b ↔ _
    by_cases e : k = (s.host.records a).key
    · subst e
      simp only [Function.update_same]
      refine ⟨fun h => (by cases h), fun h => absurd ?_ hnd.1⟩
      have hab : b = a := by
        have := (hMp.idr _ b).mpr (h.imp_left fun h => ⟨(hmem b).mpr (.inr h.1), h.2⟩)
        rw [hslot, Option.some.injEq] at this
        exact this.symm
      subst hab
      rcases h with h | h
      · exact List.mem_append_left _ h.1
      · exact List.mem_append_right _ (by simp [SendPc.owned_of_maps h])
    · rw [Function.update_noteq e, hMp.idr, hmem]
      constructor
      · rintro (⟨rfl | h, rfl⟩ | h)
        exacts [absurd rfl e, .inl ⟨h, rfl⟩, .inr h]
      · rintro (⟨h, rfl⟩ | h)
        exacts [.inl ⟨.inr h, rfl⟩, .inr h]
  · by_cases e : b = a
    · subst e
      exact iff_of_false (by simp) hnd.1
    · show Function.update s.host.live a false b = true ↔ _
      rw [Function.update_noteq e, hMp.live, ChanSys.tracked, List.mem_append, hmem]
      simp [e, ChanSys.tracked, ChanSys.inFlight, or_assoc]

/-! ### The device -/

theorem perm_cons_eraseIdx {α : Type} {l : List α} {i : Nat} {x : α} (h : l[i]? = some x) :
    l.Perm (x :: l.eraseIdx i) := by
  obtain ⟨hi, rfl⟩ := List.getElem?_eq_some_iff.mp h
  rw [List.eraseIdx_eq_take_drop_succ]
  conv_lhs => rw [← List.take_append_drop i l, List.drop_eq_getElem_cons hi]
  exact List.perm_middle

theorem Inv.deviceRead (hN : RingSize N) (hI : Inv N M s) (hd : s.destroyed = false)
    (h : s.stepLive .deviceRead = some s') : Inv N M s' := by
  have hW := hI.wire hd
  obtain ⟨R, hR, hpk⟩ := hW.x2i_ring
  have hget := getMsg_cases hN hR hR.boundary
  rw [← hW.x2i_size] at hget
  simp only [ChanSys.stepLive] at h
  rcases hget with ⟨-, hr⟩ | ⟨p, hf, hne, hr⟩ | ⟨qs, rfl, -, hr⟩
  · simp [hr] at h
  · have hhold := (hR.boundary.front hN hR hf hne).1
    rw [Region.pkgs_of_front hf, List.map_cons, eq_comm, List.map_eq_cons_iff] at hpk
    obtain ⟨a, rest, hown, hpa, hrest⟩ := hpk
    simp only [hr, routeMsg_header, hown, List.headD_cons, List.tail_cons, Option.some.injEq] at h
    subst h
    have hhdr : readHeader s.x2i.mem s.x2i.headReg = (s.host.records a).header := by
      rw [readHeader_of_holds_bytes hhold p.header_le, ← hpa, readHeader_pkg]
    refine ⟨hI.log.congr rfl rfl rfl (fun _ => rfl) rfl rfl, fun _ => ⟨hW.x2i_size, hW.x2i_chan_size,
      hW.i2x_size, hW.i2x_chan_size, ⟨R.pop, hR.pop_front hf, hrest.symm⟩, hW.x2i_tail, hW.i2x_ring,
      hW.i2x_head, fun e he => ?_⟩, fun _ => (hI.map hd).congr rfl rfl rfl (fun _ h => h) rfl ?_⟩
    · rcases List.mem_append.mp he with he | he
      · exact hW.inbox e he
      · rw [List.mem_singleton.mp he]; exact hhdr
    · refine List.perm_iff_count.mpr fun b => ?_
      simp only [ChanSys.inFlight, hown, List.map_append, List.count_append, List.count_cons, List.map_cons,
        List.map_nil, List.count_nil]
      omega
  · simp only [hr, Option.some.injEq] at h
    subst h
    exact ⟨hI.log.congr rfl rfl rfl (fun _ => rfl) rfl rfl, fun _ => ⟨hW.x2i_size, hW.x2i_chan_size,
      hW.i2x_size, hW.i2x_chan_size, ⟨.flat qs, hR.pop_tombstone, by simpa [Region.pkgs] using hpk⟩,
      hW.x2i_tail, hW.i2x_ring, hW.i2x_head, hW.inbox⟩,
      fun _ => (hI.map hd).congr rfl rfl rfl (fun _ h => h) rfl (List.Perm.refl _)⟩

theorem WireInv.devicePush (hM : RingSize M) (hW : WireInv N M s) {msg : Package} {o : Option Nat}
    {i2x : RingRes} (hresp : RespOk s.host.records msg o) (hlen : msg.bytes.length ≤ s.i2x.rbSize)
    (hpush : s.i2x.devicePush msg.bytes = some i2x) :
    i2x.rbSize = M ∧ i2x.headReg = s.i2x.headReg ∧ ∃ R, Layout M i2x.mem s.host.chan.i2xHead i2x.tailReg R ∧
      List.Forall₂ (RespOk s.host.records) R.pkgs (s.i2xOwners ++ [o]) := by
  obtain ⟨R, hR, hok⟩ := hW.i2x_ring
  simp only [RingRes.devicePush, Option.map_eq_some'] at hpush
  obtain ⟨⟨mem, t⟩, hs, rfl⟩ := hpush
  rw [hW.i2x_size, hW.i2x_head] at hs
  rw [hW.i2x_size] at hlen
  obtain ⟨⟨w, hR'⟩, -, -⟩ := layout_sendMsg hM hR hR.behind_self hlen hs
  exact ⟨hW.i2x_size, rfl, _, hR', by rw [Region.pkgs_push]; exact List.rel_append hok (.cons hresp .nil)⟩

theorem Inv.deviceAnswer (hM : RingSize M) (hI : Inv N M s) (hd : s.destroyed = false) {i : Nat}
    {resp : Package} (h : s.stepLive (.deviceAnswer i resp) = some s') : Inv N M s' := by
  have hW := hI.wire hd
  simp only [ChanSys.stepLive] at h
  split at h
  · rename_i header a hi
    split_ifs at h with hc
    obtain ⟨i2x, hpush, rfl⟩ := Option.map_eq_some'.mp h
    have hmem : (header, a) ∈ s.inbox := List.mem_iff_getElem?.mpr ⟨i, hi⟩
    have hresp : RespOk s.host.records resp (some a) := hc.1.trans (congrArg MsgHeader.id (hW.inbox _ hmem))
    obtain ⟨hsize, hhead, R, hR, hok⟩ := hW.devicePush hM hresp hc.2 hpush
    refine ⟨hI.log.congr rfl rfl rfl (fun _ => rfl) rfl rfl, fun _ => ⟨hW.x2i_size, hW.x2i_chan_size, hsize,
      hW.i2x_chan_size, hW.x2i_ring, hW.x2i_tail, ⟨R, hR, hok⟩, hhead.trans hW.i2x_head,
      fun e he => hW.inbox e (List.mem_of_mem_eraseIdx he)⟩,
      fun _ => (hI.map hd).congr rfl rfl rfl (fun _ h => h) rfl (List.perm_iff_count.mpr fun b => ?_)⟩
    have := ((perm_cons_eraseIdx hi).map Prod.snd).count_eq b
    simp only [ChanSys.inFlight, List.filterMap_append, List.count_append, List.map_cons, List.count_cons,
      List.filterMap_cons, id_eq, List.filterMap_nil, List.count_nil] at this ⊢
    omega
  · cases h

theorem Inv.deviceAsync (hM : RingSize M) (hI : Inv N M s) (hd : s.destroyed = false) {msg : Package}
    (h : s.stepLive (.deviceAsync msg) = some s') : Inv N M s' := by
  have hW := hI.wire hd
  simp only [ChanSys.stepLive] at h
  split_ifs at h with hc
  obtain ⟨i2x, hpush, rfl⟩ := Option.map_eq_some'.mp h
  obtain ⟨hsize, hhead, R, hR, hok⟩ := hW.devicePush hM (o := none) hc.1 hc.2 hpush
  exact ⟨hI.log.congr rfl rfl rfl (fun _ => rfl) rfl rfl, fun _ => ⟨hW.x2i_size, hW.x2i_chan_size, hsize,
    hW.i2x_chan_size, hW.x2i_ring, hW.x2i_tail, ⟨R, hR, hok⟩, hhead.trans hW.i2x_head, hW.inbox⟩,
    fun _ => (hI.map hd).congr rfl rfl rfl (fun _ h => h) rfl (by simp [ChanSys.inFlight])⟩

/-! ### Teardown -/

theorem MapInv.idrRecords (hM : MapInv N s) (hs : s.sender = .idle) :
    ((List.range maxMsgIdEntries).filterMap s.host.chan.chanIdr.slots).Nodup ∧
      (∀ a, a ∈ (List.range maxMsgIdEntries).filterMap s.host.chan.chanIdr.slots ↔ a ∈ s.inFlight) ∧
      ∀ a ∈ (List.range maxMsgIdEntries).filterMap s.host.chan.chanIdr.slots, s.host.live a = true := by
  have hslot : ∀ k a, s.host.chan.chanIdr.slots k = some a ↔ a ∈ s.inFlight ∧ k = (s.host.records a).key :=
    fun k a => by rw [hM.idr, hs]; simp [SendPc.Maps]
  have hmemL : ∀ a, a ∈ (List.range maxMsgIdEntries).filterMap s.host.chan.chanIdr.slots ↔ a ∈ s.inFlight :=
    fun a => by
      simp only [List.mem_filterMap, List.mem_range, hslot]
      exact ⟨fun ⟨_, _, ha, _⟩ => ha, fun ha => ⟨_, (hM.issued a ha).key_lt, ha, rfl⟩⟩
  refine ⟨(List.nodup_range _).filterMap fun k k' a ha ha' => ?_, hmemL,
    fun a ha => hM.live_of_inFlight ((hmemL a).mp ha)⟩
  rw [((hslot k a).mp ha).2, ((hslot k' a).mp ha').2]

theorem Inv.destroy (hI : Inv N M s) (hd : s.destroyed = false) (hs : s.sender = .idle) :
    Inv N M { s with host := s.host.destroyChannel, destroyed := true } := by
  obtain ⟨hnd, hmemL, hlive⟩ := (hI.map hd).idrRecords hs
  have hfold := Host.foldl_releaseKey s.host.chan.chanIdr _ s.host hnd hlive
  refine ⟨hI.log.release hnd hlive (fun a ha => hI.not_failed hd ((hmemL a).mp ha)) (fun _ => none)
    (fun b => ?_) ?_ ?_ ?_ rfl (fun _ b hb => (hmemL b).mpr ?_), fun h => absurd h (by simp),
    fun h => absurd h (by simp)⟩
  · simp only [Host.destroyChannel, hfold]
  · simp only [Host.destroyChannel, hfold]
  · simp only [Host.destroyChannel, hfold]
  · simp only [Host.destroyChannel, hfold]
  · rwa [(hI.map hd).live, ChanSys.tracked_eq_inFlight (by rw [hs]; rfl)] at hb

theorem Inv.setAsync (hI : Inv N M s) (l : List XdnaMailboxAsync) (n : Nat) (ws : List WaiterPc)
    (r : List XdnaMailboxAsync) :
    Inv N M { s with host := { s.host with chan := { s.host.chan with asyncMsgList := l, asyncComp := n } },
                     waiters := ws, asyncReturned := r } :=
  ⟨hI.log.congr rfl rfl rfl (fun _ => rfl) rfl rfl, fun hd => let hW := hI.wire hd
    ⟨hW.x2i_size, hW.x2i_chan_size, hW.i2x_size, hW.i2x_chan_size, hW.x2i_ring, hW.x2i_tail, hW.i2x_ring,
      hW.i2x_head, hW.inbox⟩, fun hd => (hI.map hd).congr rfl rfl rfl (fun _ h => h) rfl (List.Perm.refl _)⟩

end

end XdnaMailbox
