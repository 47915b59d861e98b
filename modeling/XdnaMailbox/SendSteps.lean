import XdnaMailbox.Ownership

/-!
# The sender's steps

One lemma per step of `xdna_mailbox_send_msg`, for the state that step leaves: the allocation of
the record, `mailbox_acquire_msgid`, the store of `header->id`, `mailbox_send_msg` publishing the
package, the tracepoint and the return of 0, and after a failed write `mailbox_release_msgid` and
`kfree`. A step that only moves the sender between two phases holding the same record is one case
of `Inv.sender_phase`.
-/

namespace XdnaMailbox

section
variable {N M : Nat} {s : ChanSys}

/-! ### Phases that hold the same record -/

theorem Inv.sender_phase (hI : Inv N M s) {p : SendPc} (ho : p.owned = s.sender.owned)
    (ha : p.addr = s.sender.addr) (hmaps : ∀ k a, p.Maps s.host.records k a ↔ s.sender.Maps s.host.records k a)
    (hok : s.destroyed = false → p.Ok s.host.records) (hpub : ∀ a, p ≠ .published a) :
    Inv N M { s with sender := p } := by
  refine ⟨hI.log.congr rfl rfl rfl (fun _ => rfl) ha rfl, fun hd => (hI.wire hd).records rfl rfl
    ⟨rfl, rfl, rfl, rfl⟩ ⟨rfl, rfl, rfl⟩ fun _ _ => rfl, fun hd => ?_⟩
  have hM := hI.map hd
  have ht : ({ s with sender := p } : ChanSys).tracked = s.tracked := by
    simp only [ChanSys.tracked, ChanSys.inFlight, ho]
  refine ⟨ht ▸ hM.nodup, fun a h => hM.record_ok a (ho ▸ h), hM.issued, hok hd, fun k a => ?_,
    fun a => ?_, fun a h => (hM.returned a h).imp_right fun e => ?_⟩
  · rw [hM.idr]; exact or_congr_right (hmaps k a).symm
  · rw [hM.live, ← ht]
  · rw [e] at ho ha
    cases p <;> simp_all [SendPc.owned, SendPc.addr]

theorem Inv.logReturn_none (hI : Inv N M s) (e : Int) : Inv N M { s with host := s.host.logReturn none e } := by
  have hL := hI.log
  refine ⟨⟨hL.live_lt, hL.addr_lt, fun a => ?_, fun a => ?_, fun a => ?_, fun a => ?_, fun a h => ?_,
    fun a h => ?_, hL.destroyed⟩, fun hd => (hI.wire hd).records rfl rfl ⟨rfl, rfl, rfl, rfl⟩ ⟨rfl, rfl, rfl⟩
    fun _ _ => rfl, fun hd => (hI.map hd).congr rfl rfl rfl (fun _ => List.mem_append_left _) rfl
    (List.Perm.refl _)⟩
  · simpa using hL.free_count a
  · simpa using hL.no_stale a
  · simpa [Event.notifies, Event.failedSend] using hL.notify_count a
  · simpa [Event.returnOf] using hL.return_count a
  · simpa [Event.returnOf] using hL.return_sender a h
  · exact hL.return_lt a (by simpa [Event.returnOf] using h)

theorem Inv.alloc (hI : Inv N M s) (hd : s.destroyed = false) (hs : s.sender = .idle)
    {m : MailboxMsg} (hm : RecordOk N m) :
    Inv N M { s with host := (s.host.alloc m).2, sender := .allocated s.host.nextAddr } := by
  have hlt := fun a => hI.lt_of_inFlight hd (a := a)
  have hL := hI.log
  have hM := hI.map hd
  have hrec : ∀ a ∈ s.inFlight, Function.update s.host.records s.host.nextAddr m a = s.host.records a :=
    fun a ha => Function.update_noteq (Nat.ne_of_lt (hlt a ha)) _ _
  have hret : s.host.log.countP (Event.returnOf s.host.nextAddr) = 0 := by
    by_contra h
    exact Nat.lt_irrefl _ (hL.return_lt _ h)
  have htr : s.tracked = s.inFlight := by simp [ChanSys.tracked, hs, SendPc.owned]
  have hnext : ∀ a ≠ s.host.nextAddr, (a < s.host.nextAddr + 1 ↔ a < s.host.nextAddr) := fun a e => by omega
  refine ⟨⟨fun a ha => ?_, fun a ha => ?_, fun a => ?_, hL.no_stale, fun a => ?_, hL.return_count,
    fun a ha => ?_, fun a ha => Nat.lt_succ_of_lt (hL.return_lt a ha), fun h => absurd h (by simp [hd])⟩,
    fun _ => (hI.wire hd).records rfl rfl ⟨rfl, rfl, rfl, rfl⟩ ⟨rfl, rfl, rfl⟩ hrec, fun _ => ?_⟩
  · by_cases e : a = s.host.nextAddr
    · simp [e]
    · simp only [Host.alloc_live, Host.alloc_nextAddr, Function.update_noteq e] at ha ⊢
      exact Nat.lt_succ_of_lt (hL.live_lt a ha)
  · simp only [SendPc.addr, Option.some.injEq] at ha
    simp [← ha]
  · by_cases e : a = s.host.nextAddr
    · subst e; simpa using hL.free_count s.host.nextAddr
    · simp only [Host.alloc_live, Host.alloc_nextAddr, Host.alloc_log, Function.update_noteq e, hnext a e]
      exact hL.free_count a
  · by_cases e : a = s.host.nextAddr
    · subst e; simpa using hL.notify_count s.host.nextAddr
    · simp only [Host.alloc_live, Host.alloc_nextAddr, Host.alloc_log, Host.alloc_records,
        Function.update_noteq e, hnext a e]
      exact hL.notify_count a
  · simp only [SendPc.addr, Option.some.injEq] at ha
    simpa [← ha] using hret
  · refine ⟨?_, ?_, ?_, trivial, fun k a => ?_, fun a => ?_, fun a ha => ?_⟩
    · simp only [ChanSys.tracked, ChanSys.inFlight, SendPc.owned, Option.toList_some] at htr hM ⊢
      rw [List.nodup_append]
      exact ⟨htr ▸ hM.nodup, List.nodup_singleton _,
        List.disjoint_singleton.mpr fun h => Nat.lt_irrefl _ (hlt _ h)⟩
    · intro a ha
      simp only [SendPc.owned, Option.some.injEq] at ha
      simpa [← ha] using hm
    · intro a ha
      simp only [Host.alloc_records]
      rw [hrec a ha]
      exact hM.issued a ha
    · simp only [Host.alloc_chan, Host.alloc_records, SendPc.Maps, or_false]
      rw [hM.idr k a, hs]
      simp only [SendPc.Maps, or_false]
      exact and_congr_right fun ha => by rw [hrec a ha]
    · by_cases e : a = s.host.nextAddr
      · subst e; simp [ChanSys.tracked, SendPc.owned]
      · rw [Host.alloc_live, Function.update_noteq e, hM.live a, htr]
        simp [ChanSys.tracked, ChanSys.inFlight, SendPc.owned, e]
    · rcases hM.returned a ha with h | h
      · exact .inl h
      · rw [hs] at h; cases h

theorem Inv.acquire (hI : Inv N M s) {a id : Nat} {idr : Idr} (hs : s.sender = .allocated a)
    (hk : ∃ k < maxMsgIdEntries, id = k ||| magicVal ∧ s.host.chan.chanIdr.slots k = none ∧
      idr.slots = Function.update s.host.chan.chanIdr.slots k (some a)) :
    Inv N M { s with host := { s.host with chan := { s.host.chan with chanIdr := idr } },
                     sender := .acquired a id } := by
  obtain ⟨k, hk, rfl, hfree, hslots⟩ := hk
  refine ⟨hI.log.congr rfl rfl rfl (fun _ => rfl) (by simp [hs, SendPc.addr]) rfl,
    fun hd => (hI.wire hd).records rfl rfl ⟨rfl, rfl, rfl, rfl⟩ ⟨rfl, rfl, rfl⟩ fun _ _ => rfl, fun hd => ?_⟩
  obtain ⟨hnd, hro, his, -, hidr, hlive, hret⟩ := hI.map hd
  simp only [ChanSys.tracked, hs, SendPc.owned] at hnd hlive hro
  refine ⟨hnd, hro, his, ⟨k, hk, rfl⟩, fun k' b => ?_, hlive,
    fun b hb => (hret b hb).imp_right fun e => by rw [hs] at e; cases e⟩
  have hold := hidr k' b
  rw [hs] at hold
  simp only [SendPc.Maps, or_false, (issued_bits k hk).1] at hold ⊢
  rw [hslots]
  by_cases e : k' = k
  · subst e
    rw [Function.update_same, Option.some.injEq]
    constructor
    · rintro rfl; exact .inr ⟨rfl, rfl⟩
    · rintro (h | ⟨rfl, -⟩)
      · exact absurd (hold.mpr h) (by simp [hfree])
      · rfl
  · rw [Function.update_noteq e, hold]
    simp [e, ChanSys.inFlight]

theorem Inv.setId (hI : Inv N M s) (hd : s.destroyed = false) {a id : Nat} (hs : s.sender = .acquired a id) :
    Inv N M { s with host := (s.host.touch a false).setId a id, sender := .idSet a } := by
  have hM := hI.map hd
  rw [Host.touch_of_live (hM.live_of_owned (by simp [hs, SendPc.owned]))]
  have hout := hM.owned_not_mem (a := a) (by simp [hs, SendPc.owned])
  obtain ⟨k, hk, rfl⟩ : ∃ k < maxMsgIdEntries, id = k ||| magicVal := by
    simpa [hs, SendPc.Ok] using hM.sender_ok
  obtain ⟨hkey, hiss⟩ := (s.host.records a).setId_issued hk
  have hrec : ∀ b ∈ s.inFlight,
      Function.update s.host.records a ((s.host.records a).setId (k ||| magicVal)) b = s.host.records b :=
    fun b hb => Function.update_noteq (by rintro rfl; exact hout hb) _ _
  refine ⟨hI.log.congr rfl rfl rfl (fun b => ?_) (by simp [hs, SendPc.addr]) rfl,
    fun _ => (hI.wire hd).records rfl rfl ⟨rfl, rfl, rfl, rfl⟩ ⟨rfl, rfl, rfl⟩ hrec, fun _ => ?_⟩
  · by_cases e : b = a
    · subst e; simp [MailboxMsg.setId]
    · simp [Function.update_noteq e]
  obtain ⟨hnd, hro, his, -, hidr, hlv, hret⟩ := hM
  simp only [ChanSys.tracked, hs, SendPc.owned] at hnd hlv hro
  refine ⟨hnd, fun b hb => ?_, fun b hb => ?_, ?_, fun k' b => ?_, hlv,
    fun b hb => (hret b hb).imp_right fun e => by rw [hs] at e; cases e⟩
  · obtain rfl : a = b := by simpa [SendPc.owned] using hb
    simpa using (hro a rfl).setId _
  · simp only [Host.setId_records]
    rw [hrec b hb]
    exact his b hb
  · simpa [SendPc.Ok] using hiss
  · simp only [Host.setId_chan, Host.setId_records]
    rw [hidr, hs]
    simp only [SendPc.Maps, Function.update_same, hkey, (issued_bits k hk).1]
    exact or_congr (and_congr_right fun hb => by rw [hrec b hb]) Iff.rfl

theorem Inv.publish (hN : RingSize N) (hI : Inv N M s) (hd : s.destroyed = false) {a : Nat}
    (hs : s.sender = .idSet a) {mem : Mem} {tail : Nat}
    (hw : mailboxSendMsg s.host.chan.x2iSize s.x2i.headReg s.host.chan.x2iTail s.x2i.mem
      (s.host.records a).pkg = some (mem, tail)) :
    Inv N M { s with x2i := { s.x2i with mem := mem, tailReg := tail },
                     host := { s.host with chan := { s.host.chan with x2iTail := tail } },
                     sender := .published a, x2iOwners := s.x2iOwners ++ [a] } := by
  have hW := hI.wire hd
  have hM := hI.map hd
  have hro := hM.record_ok a (by simp [hs, SendPc.owned])
  obtain ⟨R, hR, hpk⟩ := hW.x2i_ring
  rw [hW.x2i_chan_size, hW.x2i_tail] at hw
  obtain ⟨⟨w, hR'⟩, -, -⟩ := layout_sendMsg hN hR hR.behind_self (p := (s.host.records a).toPackage hro)
    (by have := hro.fits; simp [MailboxMsg.pkg]; omega) hw
  refine ⟨hI.log.congr rfl rfl rfl (fun _ => rfl) (by simp [hs, SendPc.addr]) rfl,
    fun _ => ⟨hW.x2i_size, hW.x2i_chan_size, hW.i2x_size, hW.i2x_chan_size,
      ⟨_, hR', by simp [Region.pkgs_push, hpk]⟩, rfl, hW.i2x_ring, hW.i2x_head, hW.inbox⟩, fun _ => ?_⟩
  obtain ⟨hnd, -, his, hok, hidr, hlv, hret⟩ := hM
  rw [hs] at hok hret hidr
  have hperm : (s.x2iOwners ++ [a] ++ s.inbox.map Prod.snd ++ s.i2xOwners.filterMap id).Perm
      (s.inFlight ++ [a]) :=
    List.perm_iff_count.mpr fun b => by simp only [ChanSys.inFlight, List.count_append]; omega
  have hmem : ∀ b, b ∈ s.x2iOwners ++ [a] ++ s.inbox.map Prod.snd ++ s.i2xOwners.filterMap id ↔
      b ∈ s.inFlight ∨ b = a := fun b => by rw [hperm.mem_iff]; simp
  simp only [ChanSys.tracked, hs, SendPc.owned, Option.toList_some] at hnd hlv
  refine ⟨by simpa [ChanSys.tracked, ChanSys.inFlight, SendPc.owned] using hperm.nodup_iff.mpr hnd,
    fun b hb => by simp [SendPc.owned] at hb, fun b hb => ?_, trivial, fun k b => ?_, fun b => ?_,
    fun b hb => ?_⟩
  · rcases (hmem b).mp hb with hb | rfl
    exacts [his b hb, hok]
  · simp only [ChanSys.inFlight, hmem, SendPc.Maps, or_false, hidr]
    constructor
    · rintro (⟨h, rfl⟩ | ⟨rfl, rfl⟩)
      exacts [⟨.inl h, rfl⟩, ⟨.inr rfl, rfl⟩]
    · rintro ⟨h | rfl, rfl⟩
      exacts [.inl ⟨h, rfl⟩, .inr ⟨rfl, rfl⟩]
  · rw [hlv, List.mem_append, List.mem_singleton]
    simp only [ChanSys.tracked, SendPc.owned, Option.toList_none, List.append_nil]
    exact (hmem b).symm
  · rcases (hmem b).mp hb with hb | rfl
    · exact (hret b hb).imp_right fun e => by cases e
    · exact .inr rfl

/-! ### The end of a send -/

theorem Inv.trace (hI : Inv N M s) (hd : s.destroyed = false) {a : Nat} (hs : s.sender = .published a) :
    Inv N M { s with host := (s.host.touch a true).logReturn (some a) 0, sender := .idle } := by
  have hL := hI.log
  have hM := hI.map hd
  have hsa : s.sender.addr = some a := by simp [hs, SendPc.addr]
  obtain ⟨stl, hstl, htouch⟩ : ∃ stl : List Event, (∀ e ∈ stl, e = .stale a true) ∧
      s.host.touch a true = { s.host with log := s.host.log ++ stl } :=
    ⟨_, by split <;> simp, Host.touch_eq _ _ _⟩
  have hcount : ∀ (q : Event → Bool), q (.stale a true) = false → stl.countP q = 0 :=
    fun q hq => List.countP_eq_zero.mpr fun e he => by rw [hstl e he, hq]; decide
  have hfree : ∀ b, stl.count (.free b) = 0 := fun b => List.count_eq_zero.mpr fun h => by cases hstl _ h
  have hany : ∀ b, stl.any (Event.failedSend b) = false :=
    fun b => List.any_eq_false.mpr fun e he => by simp [hstl e he, Event.failedSend]
  rw [htouch]
  have ht : ({ s with sender := .idle } : ChanSys).tracked = s.tracked := by
    simp [ChanSys.tracked, ChanSys.inFlight, hs, SendPc.owned]
  refine ⟨⟨hL.live_lt, fun b hb => by simp [SendPc.addr] at hb, fun b => ?_, fun b => ?_, fun b => ?_,
    fun b => ?_, fun b hb => by simp [SendPc.addr] at hb, fun b hb => ?_, hL.destroyed⟩,
    fun _ => (hI.wire hd).records rfl rfl ⟨rfl, rfl, rfl, rfl⟩ ⟨rfl, rfl, rfl⟩ fun _ _ => rfl,
    fun _ => ⟨ht ▸ hM.nodup, by simp [SendPc.owned], hM.issued, trivial, fun k b => ?_,
      fun b => (hM.live b).trans (by rw [← ht]; exact Iff.rfl), fun b hb => ?_⟩⟩
  · simpa [List.count_append, hfree] using hL.free_count b
  · simpa [hL.no_stale b] using fun h => by cases hstl _ h
  · simpa [List.countP_append, hcount _ (rfl : Event.notifies b _ = _), hany, Event.notifies,
      Event.failedSend] using hL.notify_count b
  · by_cases e : b = a
    · subst e; simp [List.countP_append, hcount _ (rfl : Event.returnOf b _ = _), hL.return_sender b hsa,
        Event.returnOf]
    · simpa [List.countP_append, hcount _ (rfl : Event.returnOf b _ = _), Event.returnOf, Ne.symm e]
        using hL.return_count b
  · by_cases e : b = a
    · subst e; exact hL.addr_lt b hsa
    · exact hL.return_lt b (by simpa [List.countP_append, hcount _ (rfl : Event.returnOf b _ = _),
        Event.returnOf, Ne.symm e] using hb)
  · exact (hM.idr k b).trans (by rw [hs]; simp [SendPc.Maps, ChanSys.inFlight])
  · rcases hM.returned b hb with h | h
    · exact .inl (by simp [h])
    · rw [hs] at h; cases h; exact .inl (by simp)

theorem Inv.releaseMsgid (hI : Inv N M s) (hd : s.destroyed = false) {a : Nat} {ret : Int}
    (hs : s.sender = .releasing a ret) :
    Inv N M { s with
      host := { (s.host.touch a false) with chan := { (s.host.touch a false).chan with
        chanIdr := mailboxReleaseMsgid (s.host.touch a false).chan.chanIdr
          ((s.host.touch a false).records a).header.id.val } },
      sender := .freeing a ret } := by
  have hM := hI.map hd
  have hown : s.sender.owned = some a := by simp [hs, SendPc.owned]
  rw [Host.touch_of_live (hM.live_of_owned hown)]
  have hout := hM.owned_not_mem hown
  obtain ⟨hiss, hret⟩ : (s.host.records a).Issued ∧ ret ≠ 0 := by simpa [hs, SendPc.Ok] using hM.sender_ok
  have hslot : s.host.chan.chanIdr.slots (s.host.records a).key = some a :=
    (hM.idr _ _).mpr (.inr (by rw [hs]; exact ⟨rfl, rfl⟩))
  refine ⟨hI.log.congr rfl rfl rfl (fun _ => rfl) (by simp [hs, SendPc.addr]) rfl,
    fun _ => (hI.wire hd).records rfl rfl ⟨rfl, rfl, rfl, rfl⟩ ⟨rfl, rfl, rfl⟩ fun _ _ => rfl, fun _ => ?_⟩
  have ht : ({ s with sender := .freeing a ret } : ChanSys).tracked = s.tracked := by
    simp [ChanSys.tracked, ChanSys.inFlight, hs, SendPc.owned]
  refine ⟨ht ▸ hM.nodup, fun b hb => ?_, hM.issued, hret, fun k b => ?_,
    fun b => (hM.live b).trans (by rw [← ht]; exact Iff.rfl),
    fun b hb => (hM.returned b hb).imp_right fun e => by rw [hs] at e; cases e⟩
  · obtain rfl : a = b := by simpa [SendPc.owned] using hb
    exact hM.record_ok a hown
  show Function.update s.host.chan.chanIdr.slots (s.host.records a).key none k = some b ↔
    (b ∈ s.inFlight ∧ k = (s.host.records b).key) ∨ (SendPc.freeing a ret).Maps s.host.records k b
  by_cases e : k = (s.host.records a).key
  · subst e
    simp only [Function.update_same, SendPc.Maps, or_false]
    refine ⟨fun h => (by cases h), ?_⟩
    rintro ⟨hb, hkey⟩
    have := (hM.idr _ b).mpr (.inl ⟨hb, hkey⟩)
    rw [hslot, Option.some.injEq] at this
    exact absurd (this ▸ hb) hout
  · rw [Function.update_noteq e, hM.idr, hs]
    simp [SendPc.Maps, e]

theorem Inv.free (hI : Inv N M s) (hd : s.destroyed = false) {a : Nat} {ret : Int}
    (hs : s.sender = .freeing a ret) :
    Inv N M { s with host := (s.host.kfree a).logReturn (some a) ret, sender := .idle } := by
  have hL := hI.log
  have hM := hI.map hd
  have hown : s.sender.owned = some a := by simp [hs, SendPc.owned]
  have hsa : s.sender.addr = some a := by simp [hs, SendPc.addr]
  have hla := hM.live_of_owned hown
  have hout := hM.owned_not_mem hown
  have hlt := hL.addr_lt a hsa
  have hret : ret ≠ 0 := by simpa [hs, SendPc.Ok] using hM.sender_ok
  have hfree0 := hL.free_count a
  have hnot0 := hL.notify_count a
  rw [hla] at hfree0 hnot0
  simp only [Bool.true_eq_false, and_false, false_and, if_false] at hfree0 hnot0
  refine ⟨⟨fun b hb => ?_, fun b hb => by simp [SendPc.addr] at hb, fun b => ?_, fun b => ?_, fun b => ?_,
    fun b => ?_, fun b hb => by simp [SendPc.addr] at hb, fun b hb => ?_, fun h => absurd h (by simp [hd])⟩,
    fun _ => (hI.wire hd).records rfl rfl ⟨rfl, rfl, rfl, rfl⟩ ⟨rfl, rfl, rfl⟩ fun _ _ => rfl, fun _ => ?_⟩
  · by_cases e : b = a
    · subst e; simp at hb
    · simp only [Host.logReturn_live, Host.kfree_live, Function.update_noteq e] at hb
      exact hL.live_lt b hb
  · by_cases e : b = a
    · subst e; simp [List.count_cons, hfree0, hlt]
    · simpa [List.count_cons, Function.update_noteq e, Ne.symm e] using hL.free_count b
  · simpa using hL.no_stale b
  · by_cases e : b = a
    · subst e; simp [hnot0, Event.notifies, Event.failedSend, hret]
    · simpa [Function.update_noteq e, Event.notifies, Event.failedSend, Ne.symm e] using hL.notify_count b
  · by_cases e : b = a
    · subst e; simp [hL.return_sender b hsa, Event.returnOf]
    · simpa [Event.returnOf, Ne.symm e] using hL.return_count b
  · by_cases e : b = a
    · subst e; exact hlt
    · exact hL.return_lt b (by simpa [Event.returnOf, Ne.symm e] using hb)
  have ht : s.tracked = s.inFlight ++ [a] := by simp [ChanSys.tracked, hown]
  refine ⟨?_, by simp [SendPc.owned], hM.issued, trivial, fun k b => ?_, fun b => ?_,
    fun b hb => (hM.returned b hb).imp (fun h => by simp [h]) fun e => by rw [hs] at e; cases e⟩
  · simp only [ChanSys.tracked, SendPc.owned, Option.toList_none, List.append_nil]
    exact (ht ▸ hM.nodup).sublist (List.sublist_append_left _ _)
  · exact (hM.idr k b).trans (by rw [hs]; simp [SendPc.Maps, ChanSys.inFlight])
  · simp only [ChanSys.tracked, SendPc.owned, Option.toList_none, List.append_nil]
    show _ ↔ b ∈ s.inFlight
    by_cases e : b = a
    · subst e; simp [hout]
    · simp only [Host.logReturn_live, Host.kfree_live, Function.update_noteq e, hM.live, ht]
      simp [e]

end

end XdnaMailbox
