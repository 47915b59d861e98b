import XdnaMailbox.SendBounds
import XdnaMailbox.Channel

/-!
# What the ring sizes allow

The masked empty test of `mailbox_get_msg` compares the pointers modulo the size exactly when the
size passes `is_power_of_2`, the check `xdna_mailbox_create_channel` makes. A package is copied in
one piece, so an empty ring takes every package of at most half the ring less a word and no longer
one wherever its pointers stand.
-/

namespace XdnaMailbox

/-! ### The power-of-two check -/

/-- `is_power_of_2` holds exactly of the powers of two. -/
theorem isPowerOf2_iff (n : Nat) : isPowerOf2 n = true ↔ ∃ k, n = 2 ^ k := by
  simp only [isPowerOf2, Bool.and_eq_true, bne_iff_ne, ne_eq, beq_iff_eq]
  constructor
  · rintro ⟨hn, hand⟩
    refine ⟨n.log2, Nat.le_antisymm ?_ (Nat.log2_self_le hn)⟩
    -- otherwise `n` and `n - 1` share their top bit
    have hbit : ∀ x, 2 ^ n.log2 ≤ x → x < 2 ^ (n.log2 + 1) → x.testBit n.log2 = true := by
      intro x hl hu
      rw [Nat.testBit_to_div_mod, Nat.div_eq_of_lt_le (k := 1) (by rw [Nat.one_mul]; exact hl)
        (by rw [Nat.pow_succ] at hu; omega)]
      rfl
    have hlt := Nat.lt_log2_self (n := n)
    have hle := Nat.log2_self_le hn
    by_contra hne
    have := congrArg (Nat.testBit · n.log2) hand
    simp [Nat.testBit_and, hbit n hle hlt, hbit (n - 1) (by omega) (by omega)] at this
  · rintro ⟨k, rfl⟩
    exact ⟨(Nat.two_pow_pos k).ne', by rw [Nat.and_pow_two_sub_one_eq_mod, Nat.mod_self]⟩

/-! ### The empty test -/

theorem mailboxGetMsg_ret_eq_enoent {N : Nat} {mem : Mem} {tail head : Nat} :
    (mailboxGetMsg N mem tail head).ret = -ENOENT ↔ head &&& u32Sub N 1 = tail &&& u32Sub N 1 := by
  unfold mailboxGetMsg
  by_cases h : head &&& u32Sub N 1 = tail &&& u32Sub N 1
  · simp [h]
  · simp only [h, if_false, iff_false]
    split_ifs <;> simp [ENOENT, EINVAL]

/-- The empty test of `mailbox_get_msg` compares `u32` pointers modulo the size iff the size passes
`is_power_of_2`. -/
theorem empty_test_is_mod_iff_pow2 {N : Nat} (hN : 0 < N) (hN' : N < 2 ^ 32) :
    isPowerOf2 N = true ↔ ∀ (mem : Mem) (tail head : Nat), tail < 2 ^ 32 → head < 2 ^ 32 →
      ((mailboxGetMsg N mem tail head).ret = -ENOENT ↔ head % N = tail % N) := by
  have hsub : u32Sub N 1 = N - 1 := by unfold u32Sub; omega
  constructor
  · intro hp mem tail head _ _
    obtain ⟨k, rfl⟩ := (isPowerOf2_iff N).mp hp
    rw [mailboxGetMsg_ret_eq_enoent, hsub, Nat.and_pow_two_sub_one_eq_mod, Nat.and_pow_two_sub_one_eq_mod]
  · -- a head one ring ahead of a tail at 0
    intro h
    have := (h (fun _ => 0) 0 N (by omega) hN').mpr (by simp)
    rw [mailboxGetMsg_ret_eq_enoent, hsub, Nat.zero_and] at this
    simp [isPowerOf2, hN.ne', this]

theorem empty_test_is_mod_iff_pow2_64 :
    0 < 64 ∧ 64 < 2 ^ 32 ∧ (isPowerOf2 64 = true ↔ ∀ (mem : Mem) (tail head : Nat), tail < 2 ^ 32 →
      head < 2 ^ 32 → ((mailboxGetMsg 64 mem tail head).ret = -ENOENT ↔ head % 64 = tail % 64)) :=
  ⟨by decide, by decide, empty_test_is_mod_iff_pow2 (by decide) (by decide)⟩

/-! ### What an empty ring takes -/

theorem RingSize.half_aligned {N : Nat} (hN : RingSize N) : N / 2 % 4 = 0 := by
  obtain ⟨k, rfl⟩ := hN.pow2
  have h16 : 2 ^ 4 ≤ 2 ^ k := hN.header_le
  have hk : 4 ≤ k := (Nat.pow_le_pow_iff_right (by decide)).mp h16
  obtain ⟨j, rfl⟩ : ∃ j, k = j + 3 := ⟨k - 3, by omega⟩
  rw [Nat.pow_add]
  omega

/-- An admitted package is taken by an empty ring wherever its pointers stand iff it is at most half
the ring less a word long. -/
theorem empty_ring_accepts_iff {N : Nat} (hN : RingSize N) {pkg : List UInt8} (ha : pkg.length % 4 = 0)
    (hS : pkg.length ≤ N) :
    (∀ (mem : Mem) (t : Nat), t % 4 = 0 → t ≤ N - 4 → (mailboxSendMsg N t t mem pkg).isSome) ↔
      pkg.length ≤ N / 2 - 4 := by
  have hhalf := hN.le_half
  have hNa := hN.aligned
  have h2 := hN.half_aligned
  have h16 : 16 ≤ N := hN.header_le
  constructor
  · intro h
    by_contra hlt
    by_cases hL : pkg.length ≤ N - 4
    · -- an empty ring whose pointers stand `pkg_size` before the end
      have hmod : (N - pkg.length + pkg.length) % 2 ^ 32 = N := by
        rw [Nat.sub_add_cancel hS]
        exact Nat.mod_eq_of_lt (by omega)
      have := h (fun _ => 0) (N - pkg.length) (by omega) (by omega)
      simp only [mailboxSendMsg, hmod, ringbufLimit_eq hN] at this
      rw [if_neg (by omega), if_pos ⟨le_rfl, by omega, by omega⟩] at this
      cases this
    · -- a package as long as the ring, on an empty ring at 0
      have := h (fun _ => 0) 0 (by omega) (by omega)
      simp only [mailboxSendMsg, Nat.zero_add, Nat.mod_eq_of_lt (show pkg.length < 2 ^ 32 by omega),
        ringbufLimit_eq hN] at this
      rw [if_neg (by omega), if_pos ⟨le_rfl, by omega, by omega⟩] at this
      cases this
  · intro hle mem t _ ht
    have hmod : (t + pkg.length) % 2 ^ 32 = t + pkg.length := Nat.mod_eq_of_lt (by omega)
    simp only [mailboxSendMsg, hmod, ringbufLimit_eq hN]
    rw [if_neg (by omega), if_neg (by omega)]
    split_ifs <;> rfl

theorem empty_ring_accepts_iff_64 :
    RingSize 64 ∧ (List.replicate 28 (0 : UInt8)).length % 4 = 0 ∧ (List.replicate 28 (0 : UInt8)).length ≤ 64 ∧
      ((∀ (mem : Mem) (t : Nat), t % 4 = 0 → t ≤ 64 - 4 →
          (mailboxSendMsg 64 t t mem (List.replicate 28 0)).isSome) ↔
        (List.replicate 28 (0 : UInt8)).length ≤ 64 / 2 - 4) :=
  ⟨ringSize_64, by decide, by decide, empty_ring_accepts_iff ringSize_64 (by decide) (by decide)⟩

end XdnaMailbox
