import XdnaMailbox.PendingMap
import XdnaMailbox.SendCall

/-!
# The pool of message ids

`idr_alloc_cyclic` fails only when every key below `MAX_MSG_ID_ENTRIES` is taken, and by the pending
map's invariant the keys taken are those of the records in flight: no id leaks. With the pool and
the ring together, a send with room returns 0.
-/

namespace XdnaMailbox

theorem Idr.lowestFree_eq_none {idr : Idr} {lo hi : Nat} :
    idr.lowestFree lo hi = none ↔ ∀ k, lo ≤ k → k < hi → (idr.slots k).isSome := by
  simp only [Idr.lowestFree, List.find?_eq_none, List.mem_range'_1, Option.isNone_iff_eq_none,
    Option.isSome_iff_ne_none]
  exact ⟨fun h k h₁ h₂ => h k ⟨h₁, by omega⟩, fun h k hk => h k hk.1 (by omega)⟩

theorem Idr.allocCyclic_eq_none {idr : Idr} {p stop : Nat} :
    idr.allocCyclic p 0 stop = none ↔ ∀ k < stop, (idr.slots k).isSome := by
  unfold Idr.allocCyclic
  simp only [Nat.not_lt_zero, if_false, Option.map_eq_none']
  split
  · -- a key from the cursor on
    rename_i k hk
    obtain ⟨hlt, hfree⟩ := Idr.lowestFree_some hk
    simp only [reduceCtorEq, false_iff, not_forall]
    exact ⟨k, hlt, by simp [hfree]⟩
  · rename_i hnone
    split_ifs with hpos
    · -- none from the cursor on, so the search wraps to 0
      rw [Idr.lowestFree_eq_none]
      exact ⟨fun h k hk => h k (Nat.zero_le k) hk, fun h k _ hk => h k hk⟩
    · -- the cursor is at 0 and nothing is free
      rw [show idr.next = 0 by omega, Idr.lowestFree_eq_none] at hnone
      simp only [true_iff]
      exact fun k hk => hnone k (Nat.zero_le k) hk

theorem mailboxAcquireMsgid_enospc_iff {idr : Idr} {a : Nat} :
    mailboxAcquireMsgid idr a true = .error (-ENOSPC) ↔ ∀ k < maxMsgIdEntries, (idr.slots k).isSome := by
  rw [← Idr.allocCyclic_eq_none (p := a)]
  simp only [mailboxAcquireMsgid, Bool.not_true, Bool.false_eq_true, if_false]
  split <;> simp_all

/-! ### The keys in use -/

section
variable {N M : Nat} {s : ChanSys}

theorem MapInv.keys_nodup (hMp : MapInv N s) : (s.inFlight.map fun a => (s.host.records a).key).Nodup := by
  have hnd : s.inFlight.Nodup := by
    have := hMp.nodup
    simp only [ChanSys.tracked, List.nodup_append] at this
    exact this.1
  refine hnd.map_on fun a ha b hb hab => ?_
  have h₁ := (hMp.idr _ a).mpr (.inl ⟨ha, rfl⟩)
  rw [hab, (hMp.idr _ b).mpr (.inl ⟨hb, rfl⟩)] at h₁
  exact (Option.some.inj h₁).symm

theorem MapInv.keys_subset (hMp : MapInv N s) :
    (s.inFlight.map fun a => (s.host.records a).key).toFinset ⊆ Finset.range maxMsgIdEntries := by
  intro k hk
  simp only [List.mem_toFinset, List.mem_map] at hk
  obtain ⟨a, ha, rfl⟩ := hk
  exact Finset.mem_range.mpr (hMp.issued a ha).key_lt

theorem MapInv.length_le (hMp : MapInv N s) : s.inFlight.length ≤ maxMsgIdEntries := by
  have := Finset.card_le_card hMp.keys_subset
  rwa [List.toFinset_card_of_nodup hMp.keys_nodup, List.length_map, Finset.card_range] at this

theorem MapInv.full_iff (hMp : MapInv N s) {a : Nat} (hs : s.sender = .allocated a) :
    (∀ k < maxMsgIdEntries, (s.host.chan.chanIdr.slots k).isSome) ↔ s.inFlight.length = maxMsgIdEntries := by
  have hslot : ∀ k, (s.host.chan.chanIdr.slots k).isSome ↔
      k ∈ (s.inFlight.map fun b => (s.host.records b).key).toFinset := fun k => by
    simp only [Option.isSome_iff_exists, hMp.idr, hs, SendPc.Maps, or_false, List.mem_toFinset, List.mem_map]
    exact ⟨fun ⟨b, hb, hk⟩ => ⟨b, hb, hk.symm⟩, fun ⟨b, hb, hk⟩ => ⟨b, hb, hk.symm⟩⟩
  rw [← List.length_map s.inFlight (fun b => (s.host.records b).key),
    ← List.toFinset_card_of_nodup hMp.keys_nodup]
  constructor
  · intro hfull
    rw [Finset.Subset.antisymm hMp.keys_subset fun k hk => (hslot k).mp (hfull k (Finset.mem_range.mp hk)),
      Finset.card_range]
  · intro hcard k hk
    rw [hslot, Finset.eq_of_subset_of_card_le hMp.keys_subset (by rw [hcard, Finset.card_range])]
    exact Finset.mem_range.mpr hk

/-- At most `MAX_MSG_ID_ENTRIES` requests are in flight, and `mailbox_acquire_msgid` answers `-ENOSPC`
exactly when that many are. -/
theorem id_pool_exhausted_iff_full (hN : RingSize N) (hM : RingSize M) (hr : s.Reachable N M)
    (hd : s.destroyed = false) :
    s.inFlight.length ≤ maxMsgIdEntries ∧ ∀ a, s.sender = .allocated a →
      (mailboxAcquireMsgid s.host.chan.chanIdr a true = .error (-ENOSPC) ↔
        s.inFlight.length = maxMsgIdEntries) := by
  have hMp := (hr.inv hN hM).map hd
  exact ⟨hMp.length_le, fun a hs => mailboxAcquireMsgid_enospc_iff.trans (hMp.full_iff hs)⟩

end

theorem id_pool_exhausted_iff_full_busy :
    let s := busy64
    RingSize 64 ∧ s.Reachable 64 64 ∧ s.destroyed = false ∧
      s.inFlight.length ≤ maxMsgIdEntries ∧ ∀ a, s.sender = .allocated a →
        (mailboxAcquireMsgid s.host.chan.chanIdr a true = .error (-ENOSPC) ↔
          s.inFlight.length = maxMsgIdEntries) :=
  ⟨ringSize_64, busy64_reachable, rfl,
    id_pool_exhausted_iff_full ringSize_64 ringSize_64 busy64_reachable rfl⟩

/-! ### A send with room -/

section
variable {N M : Nat} {s : ChanSys}

/-- With an id free and the X2I ring read to its tail, a send of at most half the ring less a word
returns 0. -/
theorem send_with_room_returns_zero (hN : RingSize N) (hM : RingSize M) (hr : s.Reachable N M)
    (hd : s.destroyed = false) (hs : s.sender = .idle) (hcaught : s.x2i.headReg = s.x2i.tailReg)
    (hfree : s.inFlight.length < maxMsgIdEntries) {msg : XdnaMailboxMsg}
    (hargs : sendMsgArgsOk N msg = true) (hlen : headerSize + msg.sendSize ≤ N / 2 - 4) :
    ∃ s', s.sendCall msg true true = some s' ∧
      s'.host.log.getLast? = some (.returned (some s.host.nextAddr) 0) := by
  have hW := (hr.inv hN hM).wire hd
  obtain ⟨s', hcall, hcases⟩ := ChanSys.sendCall_cases hs hd msg true true
  refine ⟨s', hcall, ?_⟩
  rcases hcases with ⟨e, he, -⟩ | ⟨e, he, -⟩ | ⟨id, idr, -, hring, -⟩ | ⟨-, -, -, -, -, hlog⟩
  · -- the argument checks pass and the allocation succeeds
    rw [hW.x2i_chan_size, hargs] at he
    simp at he
  · -- an id is free: the map is full only with `MAX_MSG_ID_ENTRIES` requests in flight
    rw [mailboxAcquireMsgid_error_of_memOk he] at he
    have hstart : s.step (.sendStart msg true) =
        some { s with host := (s.host.alloc (newMailboxMsg msg)).2,
                      sender := .allocated s.host.nextAddr } := by
      simp [ChanSys.step, hd, ChanSys.stepLive, hs, ← hW.x2i_chan_size ▸ hargs]
    have hMp := ((hr.step (.sendStart msg true) rfl hstart).inv hN hM).map hd
    have := (hMp.full_iff rfl).mp (by simpa using mailboxAcquireMsgid_enospc_iff.mp he)
    simp only [ChanSys.inFlight] at this hfree
    omega
  · -- the ring has room: the package fits before the end or, wrapped, below the head
    have ht := (hW.x2i_ring.choose_spec.1).tail_le
    have hhalf := hN.le_half
    have hpkg : ((newMailboxMsg msg).setId id).pkg.length = headerSize + msg.sendSize := by
      simp only [MailboxMsg.setId_pkg_length, newMailboxMsg_pkg_length]
      rfl
    rw [hW.x2i_chan_size, hW.x2i_tail, hcaught] at hring
    generalize s.x2i.tailReg = t at ht hring
    have hmod : (t + (headerSize + msg.sendSize)) % 2 ^ 32 = t + (headerSize + msg.sendSize) :=
      Nat.mod_eq_of_lt (by omega)
    simp only [mailboxSendMsg, hpkg, hmod, ringbufLimit_eq hN] at hring
    rw [if_neg (by omega), if_neg (by omega)] at hring
    split_ifs at hring
  · simp [hlog]

end

theorem send_with_room_returns_zero_busy :
    let s := busy64
    RingSize 64 ∧ s.Reachable 64 64 ∧ s.destroyed = false ∧ s.sender = .idle ∧
      s.x2i.headReg = s.x2i.tailReg ∧ s.inFlight.length < maxMsgIdEntries ∧
      sendMsgArgsOk 64 (zeroRequest 12) = true ∧ headerSize + (zeroRequest 12).sendSize ≤ 64 / 2 - 4 ∧
      ∃ s', s.sendCall (zeroRequest 12) true true = some s' ∧
        s'.host.log.getLast? = some (.returned (some s.host.nextAddr) 0) :=
  ⟨ringSize_64, busy64_reachable, rfl, rfl, rfl, by decide, by decide, by decide,
    send_with_room_returns_zero ringSize_64 ringSize_64 busy64_reachable rfl rfl rfl (by decide) (by decide)
      (by decide)⟩

end XdnaMailbox
