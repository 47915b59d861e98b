import XdnaMailbox.ChanFacts

/-!
# Who owns a pending record

The invariant of a channel whose device keeps to the protocol. The id map holds exactly the records
in flight (in the X2I ring, the device's inbox, or answered in the I2X ring) and the sender's, each
under the key of its id; these are the allocated records; and the log counts per address one free
once a record is no longer allocated and at most one callback.
-/

namespace XdnaMailbox

/-- A record the channel can send: a word-aligned payload that fits the ring, its length in `total_size`. -/
structure RecordOk (N : Nat) (m : MailboxMsg) : Prop where
  aligned : m.payload.length % 4 = 0
  fits : headerSize + m.payload.length ≤ N
  totalSize_eq : m.header.totalSize.val = m.payload.length

def MailboxMsg.toPackage {N : Nat} (m : MailboxMsg) (hm : RecordOk N m) : Package :=
  .ofHeader m.header m.payload hm.aligned hm.totalSize_eq

@[simp] theorem MailboxMsg.toPackage_bytes {N : Nat} (m : MailboxMsg) (hm : RecordOk N m) :
    (m.toPackage hm).bytes = m.pkg := rfl

theorem newMailboxMsg_ok {N : Nat} (hN : N < 2 ^ 32) {msg : XdnaMailboxMsg}
    (h : sendMsgArgsOk N msg = true) : RecordOk N (newMailboxMsg msg) := by
  simp only [sendMsgArgsOk, Bool.and_eq_true, Bool.not_eq_true', decide_eq_false_iff_not,
    decide_eq_true_eq] at h
  refine ⟨?_, ?_, ?_⟩ <;> simp only [newMailboxMsg, readBytes_length, truncBits_val] <;> omega

theorem RecordOk.setId {N : Nat} {m : MailboxMsg} (hm : RecordOk N m) (id : Nat) : RecordOk N (m.setId id) :=
  ⟨hm.aligned, hm.fits, hm.totalSize_eq⟩

/-- The key `mailbox_release_msgid` and `mailbox_get_resp` compute from a record's id. -/
def MailboxMsg.key (m : MailboxMsg) : Nat := m.header.id.val &&& 0xFFFFFF

/-- The record's id is the one `mailbox_acquire_msgid` issues for its key. -/
structure MailboxMsg.Issued (m : MailboxMsg) : Prop where
  key_lt : m.key < maxMsgIdEntries
  id_eq : m.header.id.val = m.key ||| magicVal

theorem MailboxMsg.setId_issued (m : MailboxMsg) {k : Nat} (hk : k < maxMsgIdEntries) :
    (m.setId (k ||| magicVal)).key = k ∧ (m.setId (k ||| magicVal)).Issued := by
  obtain ⟨hkey, -, hlt, -⟩ := issued_bits k hk
  have hid : (m.setId (k ||| magicVal)).header.id.val = k ||| magicVal := by
    simp only [MailboxMsg.setId, truncBits_val]
    exact Nat.mod_eq_of_lt (by unfold asyncMsgStartId at hlt; omega)
  have hkey' : (m.setId (k ||| magicVal)).key = k := by rw [MailboxMsg.key, hid, hkey]
  exact ⟨hkey', by rw [hkey']; exact hk, by rw [hid, hkey']⟩

def SendPc.owned : SendPc → Option Nat
  | .allocated a | .acquired a _ | .idSet a | .releasing a _ | .freeing a _ => some a
  | .idle | .published _ => none

def SendPc.addr : SendPc → Option Nat
  | .idle => none
  | .allocated a | .acquired a _ | .idSet a | .published a | .releasing a _ | .freeing a _ => some a

def SendPc.Maps (records : Nat → MailboxMsg) (k a : Nat) : SendPc → Prop
  | .acquired b id => b = a ∧ k = id &&& 0xFFFFFF
  | .idSet b | .releasing b _ => b = a ∧ k = (records b).key
  | _ => False

/-- What each phase of the sender knows of its id and its error. -/
def SendPc.Ok (records : Nat → MailboxMsg) : SendPc → Prop
  | .acquired _ id => ∃ k < maxMsgIdEntries, id = k ||| magicVal
  | .idSet a => (records a).Issued
  | .releasing a ret => (records a).Issued ∧ ret ≠ 0
  | .freeing _ ret => ret ≠ 0
  | _ => True

/-- The records accepted and not yet answered. -/
def ChanSys.inFlight (s : ChanSys) : List Nat :=
  s.x2iOwners ++ s.inbox.map Prod.snd ++ s.i2xOwners.filterMap id

def ChanSys.tracked (s : ChanSys) : List Nat := s.inFlight ++ s.sender.owned.toList

/-- A message in the I2X ring answers the record it came from with that record's id, or is async. -/
def RespOk (records : Nat → MailboxMsg) (p : Package) : Option Nat → Prop
  | some a => (readHeader (listMem p.bytes) 0).id = (records a).header.id
  | none => asyncMsgStartId ≤ (readHeader (listMem p.bytes) 0).id.val

def Event.notifies (a : Nat) : Event → Bool
  | .notify b _ => b == a
  | _ => false

def Event.returnOf (a : Nat) : Event → Bool
  | .returned (some b) _ => b == a
  | _ => false

def Event.failedSend (a : Nat) : Event → Bool
  | .returned (some b) r => b == a && r != 0
  | _ => false

/-- What the log and the heap keep over every run, the teardown included. -/
structure LogInv (s : ChanSys) : Prop where
  live_lt : ∀ a, s.host.live a = true → a < s.host.nextAddr
  addr_lt : ∀ a, s.sender.addr = some a → a < s.host.nextAddr
  free_count : ∀ a, s.host.log.count (.free a) =
    if a < s.host.nextAddr ∧ s.host.live a = false then 1 else 0
  no_stale : ∀ a, Event.stale a false ∉ s.host.log
  notify_count : ∀ a, s.host.log.countP (Event.notifies a) =
    if a < s.host.nextAddr ∧ s.host.live a = false ∧ (s.host.records a).notifyCb = true ∧
      s.host.log.any (Event.failedSend a) = false then 1 else 0
  return_count : ∀ a, s.host.log.countP (Event.returnOf a) ≤ 1
  return_sender : ∀ a, s.sender.addr = some a → s.host.log.countP (Event.returnOf a) = 0
  return_lt : ∀ a, s.host.log.countP (Event.returnOf a) ≠ 0 → a < s.host.nextAddr
  destroyed : s.destroyed = true → ∀ a, s.host.live a = false

/-- The rings and the inbox hold the in-flight records' packages, responses with their ids. -/
structure WireInv (N M : Nat) (s : ChanSys) : Prop where
  x2i_size : s.x2i.rbSize = N
  x2i_chan_size : s.host.chan.x2iSize = N
  i2x_size : s.i2x.rbSize = M
  i2x_chan_size : s.host.chan.i2xSize = M
  x2i_ring : ∃ R, Layout N s.x2i.mem s.x2i.headReg s.x2i.tailReg R ∧
    R.pkgs.map Package.bytes = s.x2iOwners.map fun a => (s.host.records a).pkg
  x2i_tail : s.host.chan.x2iTail = s.x2i.tailReg
  i2x_ring : ∃ R, Layout M s.i2x.mem s.host.chan.i2xHead s.i2x.tailReg R ∧
    List.Forall₂ (RespOk s.host.records) R.pkgs s.i2xOwners
  i2x_head : s.i2x.headReg = s.host.chan.i2xHead
  inbox : ∀ e ∈ s.inbox, e.1 = (s.host.records e.2).header

/-- The id map holds the in-flight records and the sender's, which are the allocated ones. -/
structure MapInv (N : Nat) (s : ChanSys) : Prop where
  nodup : s.tracked.Nodup
  record_ok : ∀ a, s.sender.owned = some a → RecordOk N (s.host.records a)
  issued : ∀ a ∈ s.inFlight, (s.host.records a).Issued
  sender_ok : s.sender.Ok s.host.records
  idr : ∀ k a, s.host.chan.chanIdr.slots k = some a ↔
    (a ∈ s.inFlight ∧ k = (s.host.records a).key) ∨ s.sender.Maps s.host.records k a
  live : ∀ a, s.host.live a = true ↔ a ∈ s.tracked
  returned : ∀ a ∈ s.inFlight, Event.returned (some a) 0 ∈ s.host.log ∨ s.sender = .published a

/-- The log's invariant over every run, the wire's and the map's until the channel is destroyed. -/
structure Inv (N M : Nat) (s : ChanSys) : Prop where
  log : LogInv s
  wire : s.destroyed = false → WireInv N M s
  map : s.destroyed = false → MapInv N s

theorem Inv.init (N M P : Nat) (mx mi : Mem) (hPN : P ≤ N - 4) :
    Inv N M (.init N M P mx mi ⟨N, M, .empty, P, 0, [], 0⟩) := by
  refine ⟨⟨?_, ?_, ?_, ?_, ?_, ?_, ?_, ?_, ?_⟩, fun _ => ⟨rfl, rfl, rfl, rfl, ⟨.flat [], ?_, rfl⟩, rfl,
    ⟨.flat [], ?_, .nil⟩, rfl, ?_⟩, fun _ => ⟨?_, ?_, ?_, trivial, ?_, ?_, ?_⟩⟩ <;>
    simp [ChanSys.init, ChanSys.tracked, ChanSys.inFlight, SendPc.owned, SendPc.addr, SendPc.Maps,
      Idr.empty]
  · exact ⟨trivial, rfl, hPN⟩
  · exact ⟨trivial, rfl, Nat.zero_le _⟩

/-! ### Moving the invariant between states -/

section
variable {N M : Nat} {s s' : ChanSys}

theorem ChanSys.mem_inFlight_x2i {a : Nat} (h : a ∈ s.x2iOwners) : a ∈ s.inFlight := by
  simp [ChanSys.inFlight, h]

theorem ChanSys.mem_inFlight_inbox {e : MsgHeader × Nat} (h : e ∈ s.inbox) : e.2 ∈ s.inFlight := by
  simp only [ChanSys.inFlight, List.mem_append, List.mem_map]
  exact .inl (.inr ⟨e, h, rfl⟩)

theorem ChanSys.mem_inFlight_i2x {a : Nat} (h : some a ∈ s.i2xOwners) : a ∈ s.inFlight := by
  simp [ChanSys.inFlight, h]

theorem forall₂_respOk_congr {r r' : Nat → MailboxMsg} {ps : List Package} {os : List (Option Nat)}
    (h : List.Forall₂ (RespOk r) ps os) (hr : ∀ a, some a ∈ os → r' a = r a) :
    List.Forall₂ (RespOk r') ps os := by
  induction h with
  | nil => exact .nil
  | @cons p o ps os hpo _ ih =>
    refine .cons ?_ (ih fun a ha => hr a (List.mem_cons_of_mem _ ha))
    cases o with
    | none => exact hpo
    | some a =>
      show _ = (r' a).header.id
      rw [hr a (List.mem_cons_self _ _)]
      exact hpo

theorem LogInv.congr (hL : LogInv s) (hl : s'.host.live = s.host.live) (hg : s'.host.log = s.host.log)
    (hn : s'.host.nextAddr = s.host.nextAddr)
    (hr : ∀ a, (s'.host.records a).notifyCb = (s.host.records a).notifyCb)
    (hs : s'.sender.addr = s.sender.addr) (hd : s'.destroyed = s.destroyed) : LogInv s' := by
  refine ⟨?_, ?_, ?_, ?_, ?_, ?_, ?_, ?_, ?_⟩ <;> simp only [hl, hg, hn, hr, hs, hd]
  exacts [hL.live_lt, hL.addr_lt, hL.free_count, hL.no_stale, hL.notify_count, hL.return_count,
    hL.return_sender, hL.return_lt, hL.destroyed]

theorem MapInv.congr (hM : MapInv N s) (hi : s'.host.chan.chanIdr = s.host.chan.chanIdr)
    (hr : s'.host.records = s.host.records) (hl : s'.host.live = s.host.live)
    (hg : ∀ e ∈ s.host.log, e ∈ s'.host.log) (hs : s'.sender = s.sender)
    (hp : s'.inFlight.Perm s.inFlight) : MapInv N s' := by
  have ht : s'.tracked.Perm s.tracked := by
    rw [ChanSys.tracked, ChanSys.tracked, hs]; exact hp.append_right _
  refine ⟨ht.nodup_iff.mpr hM.nodup, ?_, ?_, ?_, ?_, ?_, ?_⟩ <;> simp only [hi, hr, hl, hs]
  · exact hM.record_ok
  · exact fun a ha => hM.issued a (hp.mem_iff.mp ha)
  · exact hM.sender_ok
  · exact fun k a => by rw [hM.idr, hp.mem_iff]
  · exact fun a => by rw [hM.live, ht.mem_iff]
  · exact fun a ha => (hM.returned a (hp.mem_iff.mp ha)).imp_left (hg _)

theorem WireInv.records (hW : WireInv N M s) (hx : s'.x2i = s.x2i) (hi : s'.i2x = s.i2x)
    (hc : s'.host.chan.x2iSize = s.host.chan.x2iSize ∧ s'.host.chan.i2xSize = s.host.chan.i2xSize ∧
      s'.host.chan.x2iTail = s.host.chan.x2iTail ∧ s'.host.chan.i2xHead = s.host.chan.i2xHead)
    (ho : s'.x2iOwners = s.x2iOwners ∧ s'.inbox = s.inbox ∧ s'.i2xOwners = s.i2xOwners)
    (hr : ∀ a ∈ s.inFlight, s'.host.records a = s.host.records a) : WireInv N M s' := by
  obtain ⟨hc₁, hc₂, hc₃, hc₄⟩ := hc
  obtain ⟨ho₁, ho₂, ho₃⟩ := ho
  obtain ⟨R, hR, hpk⟩ := hW.x2i_ring
  obtain ⟨R', hR', hresp⟩ := hW.i2x_ring
  refine ⟨hx ▸ hW.x2i_size, hc₁ ▸ hW.x2i_chan_size, hi ▸ hW.i2x_size, hc₂ ▸ hW.i2x_chan_size,
    ⟨R, hx ▸ hR, ?_⟩, hc₃ ▸ hx ▸ hW.x2i_tail, ⟨R', hc₄ ▸ hi ▸ hR', ?_⟩, hc₄ ▸ hi ▸ hW.i2x_head, ?_⟩
  · rw [hpk, ho₁]
    exact List.map_congr_left fun a ha => congrArg MailboxMsg.pkg (hr a (ChanSys.mem_inFlight_x2i ha)).symm
  · rw [ho₃]
    exact forall₂_respOk_congr hresp fun a ha => hr a (ChanSys.mem_inFlight_i2x ha)
  · intro e he
    rw [ho₂] at he
    rw [hr _ (ChanSys.mem_inFlight_inbox he)]
    exact hW.inbox e he

theorem ChanSys.tracked_eq_inFlight {t : ChanSys} (h : t.sender.owned = none) : t.tracked = t.inFlight := by
  simp [ChanSys.tracked, h]

theorem MapInv.owned_not_mem (hM : MapInv N s) {a : Nat} (ha : s.sender.owned = some a) : a ∉ s.inFlight := by
  have := hM.nodup
  simp only [ChanSys.tracked, ha, Option.toList_some, List.nodup_append, List.disjoint_singleton] at this
  exact this.2.2

theorem MapInv.live_of_inFlight (hM : MapInv N s) {a : Nat} (ha : a ∈ s.inFlight) : s.host.live a = true :=
  (hM.live a).mpr (List.mem_append_left _ ha)

theorem MapInv.live_of_owned (hM : MapInv N s) {a : Nat} (ha : s.sender.owned = some a) : s.host.live a = true :=
  (hM.live a).mpr (by simp [ChanSys.tracked, ha])

theorem Inv.lt_of_inFlight (hI : Inv N M s) (hd : s.destroyed = false) {a : Nat} (ha : a ∈ s.inFlight) :
    a < s.host.nextAddr :=
  hI.log.live_lt a ((hI.map hd).live_of_inFlight ha)

theorem SendPc.owned_of_maps {p : SendPc} {r : Nat → MailboxMsg} {k a : Nat} (h : p.Maps r k a) :
    p.owned = some a := by
  cases p <;> simp_all [SendPc.Maps, SendPc.owned]

/-! ### The log -/

theorem Event.returnOf_of_failedSend {a : Nat} {e : Event} (h : e.failedSend a = true) : e.returnOf a = true := by
  cases e with
  | returned b r => cases b <;> simp_all [Event.failedSend, Event.returnOf]
  | _ => simp [Event.failedSend] at h

theorem Event.countP_returnOf_two {a : Nat} {r : Int} (hr : r ≠ 0) :
    ∀ {l : List Event}, Event.returned (some a) 0 ∈ l → Event.returned (some a) r ∈ l →
      2 ≤ l.countP (Event.returnOf a)
  | [], h0, _ => absurd h0 (List.not_mem_nil _)
  | e :: l, h0, h1 => by
    have hpos : ∀ {r'}, Event.returned (some a) r' ∈ l → 0 < l.countP (Event.returnOf a) := fun h =>
      List.countP_pos_iff.mpr ⟨_, h, by simp [Event.returnOf]⟩
    have hret : ∀ r', (Event.returned (some a) r').returnOf a = true := fun _ => by simp [Event.returnOf]
    rw [List.countP_cons]
    rcases List.mem_cons.mp h0 with e0 | h0' <;> rcases List.mem_cons.mp h1 with e1 | h1'
    · exact absurd ((Event.returned.inj (e1.trans e0.symm)).2) hr
    · rw [← e0, if_pos (hret 0)]; have := hpos h1'; omega
    · rw [← e1, if_pos (hret r)]; have := hpos h0'; omega
    · have := Event.countP_returnOf_two hr h0' h1'; split <;> omega

theorem LogInv.not_failed_of_returned (hL : LogInv s) {a : Nat} (h0 : Event.returned (some a) 0 ∈ s.host.log) :
    s.host.log.any (Event.failedSend a) = false := by
  rw [List.any_eq_false]
  intro e he hf
  cases e with
  | returned b r =>
    obtain ⟨rfl, hr⟩ : b = some a ∧ r ≠ 0 := by cases b <;> simp_all [Event.failedSend]
    have := Event.countP_returnOf_two hr h0 he
    have := hL.return_count a
    omega
  | _ => simp [Event.failedSend] at hf

theorem LogInv.not_failed_of_sender (hL : LogInv s) {a : Nat} (hs : s.sender.addr = some a) :
    s.host.log.any (Event.failedSend a) = false := by
  rw [List.any_eq_false]
  intro e he hf
  exact (List.countP_eq_zero.mp (hL.return_sender a hs)) e he (Event.returnOf_of_failedSend hf)

theorem Inv.not_failed (hI : Inv N M s) (hd : s.destroyed = false) {a : Nat} (ha : a ∈ s.inFlight) :
    s.host.log.any (Event.failedSend a) = false := by
  rcases (hI.map hd).returned a ha with h | h
  · exact hI.log.not_failed_of_returned h
  · exact hI.log.not_failed_of_sender (by simp [h, SendPc.addr])

@[simp] theorem Host.count_free_doneEvents (h : Host) (a b : Nat) (d : Option (List UInt8)) :
    (h.doneEvents a d).count (.free b) = if b = a then 1 else 0 := by
  unfold Host.doneEvents
  by_cases e : b = a
  · subst e; split <;> simp
  · split <;> simp [e, Ne.symm e]

@[simp] theorem Host.countP_notifies_doneEvents (h : Host) (a b : Nat) (d : Option (List UInt8)) :
    (h.doneEvents a d).countP (Event.notifies b) = if b = a ∧ (h.records a).notifyCb = true then 1 else 0 := by
  unfold Host.doneEvents
  by_cases e : b = a
  · subst e; split <;> simp_all [Event.notifies]
  · split <;> simp [e, Event.notifies, Ne.symm e]

@[simp] theorem Host.countP_returnOf_doneEvents (h : Host) (a b : Nat) (d : Option (List UInt8)) :
    (h.doneEvents a d).countP (Event.returnOf b) = 0 := by
  unfold Host.doneEvents; split <;> simp [Event.returnOf]

@[simp] theorem Host.any_failedSend_doneEvents (h : Host) (a b : Nat) (d : Option (List UInt8)) :
    (h.doneEvents a d).any (Event.failedSend b) = false := by
  unfold Host.doneEvents; split <;> simp [Event.failedSend]

@[simp] theorem Host.stale_not_mem_doneEvents (h : Host) (a b : Nat) (t : Bool) (d : Option (List UInt8)) :
    Event.stale b t ∉ h.doneEvents a d := by
  unfold Host.doneEvents; split <;> simp

section
variable (h : Host) (d : Nat → Option (List UInt8))

theorem Host.count_free_flatMap {L : List Nat} (hnd : L.Nodup) (b : Nat) :
    (L.flatMap fun a => h.doneEvents a (d a)).count (.free b) = if b ∈ L then 1 else 0 := by
  induction L with
  | nil => simp
  | cons a L ih =>
    rw [List.nodup_cons] at hnd
    rw [List.flatMap_cons, List.count_append, ih hnd.2, Host.count_free_doneEvents]
    by_cases e : b = a
    · subst e; simp [hnd.1]
    · simp [e]

theorem Host.countP_notifies_flatMap {L : List Nat} (hnd : L.Nodup) (b : Nat) :
    (L.flatMap fun a => h.doneEvents a (d a)).countP (Event.notifies b) =
      if b ∈ L ∧ (h.records b).notifyCb = true then 1 else 0 := by
  induction L with
  | nil => simp
  | cons a L ih =>
    rw [List.nodup_cons] at hnd
    rw [List.flatMap_cons, List.countP_append, ih hnd.2, Host.countP_notifies_doneEvents]
    by_cases e : b = a
    · subst e; simp [hnd.1]
    · simp [e]

theorem Host.countP_returnOf_flatMap (L : List Nat) (b : Nat) :
    (L.flatMap fun a => h.doneEvents a (d a)).countP (Event.returnOf b) = 0 := by
  induction L with
  | nil => simp
  | cons a L ih => rw [List.flatMap_cons, List.countP_append, ih, Host.countP_returnOf_doneEvents]

theorem Host.any_failedSend_flatMap (L : List Nat) (b : Nat) :
    (L.flatMap fun a => h.doneEvents a (d a)).any (Event.failedSend b) = false := by
  induction L with
  | nil => simp
  | cons a L ih => rw [List.flatMap_cons, List.any_append, ih, Host.any_failedSend_doneEvents]; rfl

theorem Host.stale_not_mem_flatMap (L : List Nat) (b : Nat) (t : Bool) :
    Event.stale b t ∉ L.flatMap fun a => h.doneEvents a (d a) := by
  simp only [List.mem_flatMap, not_exists, not_and]
  exact fun a _ => h.stale_not_mem_doneEvents a b t (d a)

end

theorem LogInv.release (hL : LogInv s) {L : List Nat} (hnd : L.Nodup)
    (hlive : ∀ a ∈ L, s.host.live a = true) (hnf : ∀ a ∈ L, s.host.log.any (Event.failedSend a) = false)
    (d : Nat → Option (List UInt8)) (hl : ∀ b, s'.host.live b = (s.host.live b && !L.contains b))
    (hg : s'.host.log = s.host.log ++ L.flatMap fun a => s.host.doneEvents a (d a))
    (hn : s'.host.nextAddr = s.host.nextAddr) (hr : s'.host.records = s.host.records)
    (hs : s'.sender.addr = s.sender.addr)
    (hd : s'.destroyed = true → ∀ b, s.host.live b = true → b ∈ L) : LogInv s' := by
  have hfree : ∀ b ∈ L, s.host.live b = true ∧ s'.host.live b = false := fun b hb =>
    ⟨hlive b hb, by simp [hl, hb]⟩
  have hkeep : ∀ b, b ∉ L → s'.host.live b = s.host.live b := fun b hb => by simp [hl, hb]
  refine ⟨fun b hb => ?_, fun b hb => ?_, fun b => ?_, fun b => ?_, fun b => ?_, fun b => ?_,
    fun b hb => ?_, fun b hb => ?_, fun hd' b => ?_⟩
  · rw [hl, Bool.and_eq_true] at hb
    rw [hn]; exact hL.live_lt b hb.1
  · rw [hn]; exact hL.addr_lt b (hs ▸ hb)
  · rw [hg, List.count_append, Host.count_free_flatMap _ _ hnd, hL.free_count, hn]
    by_cases hb : b ∈ L
    · have := hL.live_lt b (hfree b hb).1
      simp [hb, (hfree b hb).1, (hfree b hb).2, this]
    · simp [hb, hkeep b hb]
  · rw [hg, List.mem_append, not_or]
    exact ⟨hL.no_stale b, Host.stale_not_mem_flatMap _ _ _ _ _⟩
  · rw [hg, List.countP_append, Host.countP_notifies_flatMap _ _ hnd, hL.notify_count, hn, hr,
      List.any_append, Host.any_failedSend_flatMap, Bool.or_false]
    by_cases hb : b ∈ L
    · have := hL.live_lt b (hfree b hb).1
      simp [hb, (hfree b hb).1, (hfree b hb).2, this, hnf b hb]
    · simp [hb, hkeep b hb]
  · rw [hg, List.countP_append, Host.countP_returnOf_flatMap, Nat.add_zero]
    exact hL.return_count b
  · rw [hg, List.countP_append, Host.countP_returnOf_flatMap, Nat.add_zero]
    exact hL.return_sender b (hs ▸ hb)
  · rw [hn]
    rw [hg, List.countP_append, Host.countP_returnOf_flatMap, Nat.add_zero] at hb
    exact hL.return_lt b hb
  · cases hb : s.host.live b
    · simp [hl, hb]
    · exact (hfree b (hd hd' b hb)).2

end

end XdnaMailbox
