import XdnaMailbox.Layout

/-!
# What bounds one `mailbox_send_msg`

`mailbox_send_msg` never compares the head it reads with the ring's size. With a head inside the
ring every write stays inside it (`sendMsg_in_ring_of_head_le`); a head register reading all ones
lets a package be copied past the ring's end. And `xdna_mailbox_send_msg` admits packages as long
as the ring, which the writer refuses whatever head it reads (`mailboxSendMsg_of_length_eq`).
-/

namespace XdnaMailbox

section
variable {N H T : Nat} {mem : Mem} {pkg : List UInt8}

theorem mailboxSendMsg_below_head (hT : T < H) (hH : (T + pkg.length) % 2 ^ 32 < H) :
    mailboxSendMsg N H T mem pkg = some (writeBytes mem T pkg, (T + pkg.length) % 2 ^ 32) := by
  dsimp only [mailboxSendMsg]
  rw [if_neg (by omega), if_neg (by omega), if_neg (by omega)]

/-- With a head read inside the ring, a send writes nothing past it and keeps the tail within `N - 4`. -/
theorem sendMsg_in_ring_of_head_le {mem' : Mem} {T' : Nat} (hN : RingSize N) (hH : H ≤ N)
    (hT : T ≤ N - 4) (hTa : T % 4 = 0) (hSa : pkg.length % 4 = 0) (hS : pkg.length ≤ N)
    (hs : mailboxSendMsg N H T mem pkg = some (mem', T')) :
    (∀ a, N ≤ a → mem' a = mem a) ∧ T' ≤ N - 4 := by
  have hhalf := hN.le_half
  have hNa := hN.aligned
  have hmod : (T + pkg.length) % 2 ^ 32 = T + pkg.length := Nat.mod_eq_of_lt (by omega)
  rcases mailboxSendMsg_eq_some hs with ⟨-, hlt, rfl, rfl⟩ | ⟨-, hle, rfl, rfl⟩ |
    ⟨-, -, hSH, rfl, rfl⟩
  · -- below the head, which is inside the ring
    rw [hmod] at hlt ⊢
    exact ⟨fun a ha => writeBytes_of_ge mem pkg (by omega), by omega⟩
  · -- up to the limit
    rw [hmod, ringbufLimit_eq hN] at *
    exact ⟨fun a ha => writeBytes_of_ge mem pkg (by omega), hle⟩
  · -- the tombstone in the ring's last words, the package from 0 below the head
    refine ⟨fun a ha => ?_, by omega⟩
    rw [writeBytes_of_ge _ pkg (by omega), writeU32, writeBytes_of_ge _ _ (by simp; omega)]

/-- A head read as `0xFFFFFFFF` lets a package that does not fit be copied past the ring's end. -/
theorem sendMsg_past_ring_of_head_all_ones (hN : RingSize N) (hT : T ≤ N - 4) (hS : pkg.length ≤ N)
    (hpast : N < T + pkg.length) :
    ∃ mem', mailboxSendMsg N 0xFFFFFFFF T mem pkg = some (mem', T + pkg.length) ∧
      mem' N = pkg.getD (N - T) 0 ∧ N - 4 < T + pkg.length := by
  have hhalf := hN.le_half
  have hmod : (T + pkg.length) % 2 ^ 32 = T + pkg.length := Nat.mod_eq_of_lt (by omega)
  refine ⟨_, hmod ▸ mailboxSendMsg_below_head (by omega) (by omega), ?_, by omega⟩
  simp only [writeBytes]
  rw [if_pos ⟨by omega, hpast⟩]

/-- On a 64-byte ring with the head read as `0xFFFFFFFF`, a package is copied to offsets 48 to 79. -/
theorem sendMsg_writes_past_ring :
    (mailboxSendMsg 64 0xFFFFFFFF 48 (fun _ => 0)
        ((newMailboxMsg ⟨1, 0, true, List.replicate 16 0xAB, 16⟩).setId 0x1D000000).pkg).map
      (fun r => (readBytes r.1 64 16, r.2)) = some (List.replicate 16 0xAB, 80) := by
  decide

/-! ### A package as long as the ring -/

/-- A package as long as the ring is refused with any head read inside the ring. -/
theorem mailboxSendMsg_of_length_eq (hN : RingSize N) (hH : H ≤ N) (hT : T ≤ N - 4) (hlen : pkg.length = N) :
    mailboxSendMsg N H T mem pkg = none := by
  have hhalf := hN.le_half
  have h16 : 16 ≤ N := hN.header_le
  have hmod : (T + pkg.length) % 2 ^ 32 = T + N := by rw [hlen]; exact Nat.mod_eq_of_lt (by omega)
  dsimp only [mailboxSendMsg]
  rw [hmod, ringbufLimit_eq hN, hlen]
  by_cases hTH : T < H
  · rw [if_pos ⟨hTH, by omega⟩]
  · rw [if_neg (by omega), if_pos ⟨by omega, by omega, by omega⟩]

end

end XdnaMailbox
