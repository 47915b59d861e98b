import XdnaMailbox.ChanSys

/-!
# What the channel's functions do

One lemma per function of the channel saying what it can do, so that the invariant is proved
from these and never by unfolding the functions.
-/

namespace XdnaMailbox

/-! ### Ids -/

set_option maxRecDepth 2000 in
theorem issued_bits : ∀ k < maxMsgIdEntries,
    (k ||| magicVal) &&& 0xFFFFFF = k ∧ (k ||| magicVal) &&& magicValMask = magicVal ∧
      k ||| magicVal < asyncMsgStartId ∧ (k ||| magicVal) / 0x1000000 = 0x1D := by
  decide

theorem Idr.lowestFree_some {idr : Idr} {lo hi k : Nat} (h : idr.lowestFree lo hi = some k) :
    k < hi ∧ idr.slots k = none := by
  unfold Idr.lowestFree at h
  have hmem := List.mem_range'_1.mp (List.mem_of_find?_eq_some h)
  have hfree := List.find?_some h
  simp only [Option.isNone_iff_eq_none] at hfree
  exact ⟨by omega, hfree⟩

theorem Idr.allocCyclic_some {idr idr' : Idr} {p start stop k : Nat}
    (h : idr.allocCyclic p start stop = some (k, idr')) :
    k < stop ∧ idr.slots k = none ∧ idr'.slots = Function.update idr.slots k (some p) := by
  unfold Idr.allocCyclic at h
  simp only [Option.map_eq_some', Prod.mk.injEq] at h
  obtain ⟨k', hk', rfl, rfl⟩ := h
  have hfree : ∃ lo, idr.lowestFree lo stop = some k' := by
    split at hk'
    · rename_i heq
      exact ⟨_, heq.trans hk'⟩
    · split_ifs at hk' <;> exact ⟨_, hk'⟩
  obtain ⟨hlt, hslot⟩ := Idr.lowestFree_some hfree.choose_spec
  exact ⟨hlt, hslot, rfl⟩

theorem mailboxAcquireMsgid_ok {idr idr' : Idr} {a id : Nat} {memOk : Bool}
    (h : mailboxAcquireMsgid idr a memOk = .ok (id, idr')) :
    ∃ k < maxMsgIdEntries, id = k ||| magicVal ∧ idr.slots k = none ∧
      idr'.slots = Function.update idr.slots k (some a) := by
  unfold mailboxAcquireMsgid at h
  split_ifs at h
  split at h
  · cases h
  · rename_i k idr₀ halloc
    cases h
    obtain ⟨hk, hfree, hslots⟩ := Idr.allocCyclic_some halloc
    exact ⟨k, hk, rfl, hfree, hslots⟩

theorem mailboxAcquireMsgid_error {idr : Idr} {a : Nat} {memOk : Bool} {e : Int}
    (h : mailboxAcquireMsgid idr a memOk = .error e) : e ≠ 0 := by
  unfold mailboxAcquireMsgid at h
  split_ifs at h
  · cases h; decide
  · split at h <;> cases h; decide

/-! ### The host's functions -/

theorem Host.touch_of_live {h : Host} {a : Nat} (hl : h.live a = true) (t : Bool) : h.touch a t = h := by
  simp [Host.touch, hl]

theorem Host.touch_eq (h : Host) (a : Nat) (t : Bool) :
    h.touch a t = { h with log := h.log ++ if h.live a then [] else [.stale a t] } := by
  unfold Host.touch; split <;> simp_all

/-- The events of a callback and a `kfree` of the record at `a`. -/
def Host.doneEvents (h : Host) (a : Nat) (d : Option (List UInt8)) : List Event :=
  (if (h.records a).notifyCb then [.notify a d] else []) ++ [.free a]

theorem Host.notify_kfree {h : Host} {a : Nat} (hl : h.live a = true) (d : Option (List UInt8)) :
    ((h.touch a false).notify a d).kfree a =
      { h with live := Function.update h.live a false, log := h.log ++ h.doneEvents a d } := by
  rw [h.touch_of_live hl]
  unfold Host.notify Host.kfree Host.doneEvents
  split_ifs <;> simp

theorem Host.mailboxGetResp_issued {h : Host} {mem : Mem} {header : MsgHeader} {data k a : Nat}
    (hk : k < maxMsgIdEntries) (hid : header.id.val = k ||| magicVal) (hs : h.chan.chanIdr.slots k = some a)
    (hl : h.live a = true) :
    h.mailboxGetResp mem header data =
      { h with chan := { h.chan with chanIdr := h.chan.chanIdr.remove k },
               live := Function.update h.live a false,
               log := h.log ++ h.doneEvents a (some (readBytes mem data header.size.val)) } := by
  obtain ⟨hkey, hval, -⟩ := issued_bits k hk
  have hv : mailboxValidateMsgid (k ||| magicVal) = true := by simp [mailboxValidateMsgid, hval]
  simp only [Host.mailboxGetResp, hid, hv, Bool.not_true, Bool.false_eq_true, if_false, hkey, hs]
  rw [Host.notify_kfree (h := { h with chan := { h.chan with chanIdr := h.chan.chanIdr.remove k } }) hl]
  rfl

theorem Host.foldl_releaseKey (idr : Idr) :
    ∀ (L : List Nat) (h : Host), (L.filterMap idr.slots).Nodup →
      (∀ a ∈ L.filterMap idr.slots, h.live a = true) →
      L.foldl (Host.releaseKey idr) h =
        { h with live := fun b => h.live b && !(L.filterMap idr.slots).contains b,
                 log := h.log ++ (L.filterMap idr.slots).flatMap fun a => h.doneEvents a none }
  | [], h, _, _ => by simp
  | k :: L, h, hnd, hlive => by
    rw [List.foldl_cons]
    cases hk : idr.slots k with
    | none =>
      simp only [List.filterMap_cons, hk] at hnd hlive ⊢
      simpa [Host.releaseKey, hk] using Host.foldl_releaseKey idr L h hnd hlive
    | some a =>
      simp only [List.filterMap_cons, hk, List.nodup_cons, List.mem_cons] at hnd hlive ⊢
      have hrel : Host.releaseKey idr h k =
          { h with live := Function.update h.live a false, log := h.log ++ h.doneEvents a none } := by
        simp only [Host.releaseKey, hk]
        exact Host.notify_kfree (hlive a (.inl rfl)) none
      rw [hrel, Host.foldl_releaseKey idr L _ hnd.2 fun b hb => by
        show Function.update h.live a false b = true
        rw [Function.update_noteq (fun e => hnd.1 (by rw [← e]; exact hb))]
        exact hlive b (.inr hb)]
      congr 1
      · funext b
        by_cases hb : b = a
        · subst hb; simp [hnd.1]
        · simp [Function.update_noteq hb, hb]
      · simp [Host.doneEvents]

end XdnaMailbox
