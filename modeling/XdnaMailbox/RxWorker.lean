import XdnaMailbox.Protocol

/-!
# The receive loop

`mailbox_rx_worker` calls `mailbox_get_msg` until a call returns nonzero. With the ring held fixed
the loop iterates a function of the head. A tombstone resets the head to 0 and hands nothing on,
so on a ring laid out by the write algorithm the loop ends (`rxDrain_layout`), while a tombstone at
offset 0 with the tail elsewhere makes it call forever (`rxDrain_tombstone_at_zero`).
-/

namespace XdnaMailbox

/-- `mailbox_rx_worker`'s loop on a fixed ring, or `none` if no call within `fuel` returns nonzero. -/
def rxDrain (N : Nat) (mem : Mem) (tail : Nat) : Nat → Nat → Option (Nat × List Dispatch)
  | 0, _ => none
  | fuel + 1, head =>
    let r := mailboxGetMsg N mem tail head
    if r.ret ≠ 0 then some (head, [])
    else (rxDrain N mem tail fuel (r.head.getD head)).map fun (h, ds) => (h, r.dispatch.toList ++ ds)

theorem rxDrain_tombstone_at_zero_fuel (fuel : Nat) :
    rxDrain 64 (writeU32 (fun _ => 0) 0 tombstone) 4 fuel 0 = none := by
  have hget : mailboxGetMsg 64 (writeU32 (fun _ => 0) 0 tombstone) 4 0 = ⟨0, some 0, none⟩ := by
    decide
  induction fuel with
  | zero => rfl
  | succ fuel ih => simp [rxDrain, hget, ih]

/-- With a tombstone at offset 0, tail 4 and head 0, no number of calls ends the loop. -/
theorem rxDrain_tombstone_at_zero :
    ¬∃ fuel, rxDrain 64 (writeU32 (fun _ => 0) 0 tombstone) 4 fuel 0 ≠ none :=
  fun ⟨fuel, h⟩ => h (rxDrain_tombstone_at_zero_fuel fuel)

/-- The calls the loop needs on a region: one per package and tombstone, one for the empty test. -/
def Region.calls : Region → Nat
  | .flat ps => ps.length + 1
  | .wrapped ps qs => ps.length + qs.length + 2

theorem Region.calls_pop_front {R : Region} {p : Package} (hf : R.front = some p) :
    R.pop.calls + 1 = R.calls := by
  obtain ⟨ps, rfl⟩ | ⟨ps, qs, rfl⟩ := Region.front_eq_some.mp hf <;>
    simp [Region.pop, Region.calls]
  omega

/-- On a laid-out ring the loop ends within `R.calls` calls, having handed on every package. -/
theorem rxDrain_layout {N : Nat} (hN : RingSize N) {mem : Mem} {t : Nat} (fuel : Nat) :
    ∀ {h : Nat} {R : Region}, Layout N mem h t R → R.calls ≤ fuel →
      ∃ ds, rxDrain N mem t fuel h = some (t, ds) ∧ ds.map (·.frame mem) = R.pkgs.map (·.bytes) := by
  induction fuel with
  | zero => intro h R _ hc; cases R <;> simp [Region.calls] at hc
  | succ fuel ih =>
    intro h R hL hc
    rcases getMsg_cases hN hL hL.boundary with ⟨rfl, hr⟩ | ⟨p, hf, -, hr⟩ | ⟨qs, rfl, -, hr⟩
    · refine ⟨[], by simp [rxDrain, hr, ENOENT], ?_⟩
      have hR : R = .flat [] := by
        by_contra hR
        exact hL.ne_of_pkgs hR rfl
      simp [hR, Region.pkgs]
    · obtain ⟨ds, hd, hds⟩ := ih (hL.pop_front hf) (by have := Region.calls_pop_front hf; omega)
      have hold : Holds mem h p.bytes := by
        obtain ⟨ps, rfl⟩ | ⟨ps, qs, rfl⟩ := Region.front_eq_some.mp hf
        exacts [hL.1.1, hL.1.1]
      refine ⟨routeMsg (readHeader mem h) (h + headerSize) :: ds, by simp [rxDrain, hr, hd], ?_⟩
      simp [hds, Region.pkgs_of_front hf, frame_front hold]
    · obtain ⟨ds, hd, hds⟩ := ih hL.pop_tombstone (by simp [Region.calls] at hc ⊢; omega)
      exact ⟨ds, by simp [rxDrain, hr, hd], by simpa [Region.pkgs] using hds⟩

theorem rxDrain_layout_one :
    RingSize 64 ∧ Layout 64 (writeBytes (fun _ => 0) 8 bareHeaderPkg.bytes) 8 24 (.flat [bareHeaderPkg]) ∧
      (Region.flat [bareHeaderPkg]).calls ≤ 2 ∧
      ∃ ds, rxDrain 64 (writeBytes (fun _ => 0) 8 bareHeaderPkg.bytes) 24 2 8 = some (24, ds) ∧
        ds.map (·.frame (writeBytes (fun _ => 0) 8 bareHeaderPkg.bytes)) =
          (Region.flat [bareHeaderPkg]).pkgs.map (·.bytes) :=
  have hL : Layout 64 (writeBytes (fun _ => 0) 8 bareHeaderPkg.bytes) 8 24 (.flat [bareHeaderPkg]) :=
    ⟨laid_singleton.mpr (holds_writeBytes _ _ _), rfl, by decide⟩
  ⟨ringSize_64, hL, le_rfl, rxDrain_layout ringSize_64 2 hL le_rfl⟩

end XdnaMailbox
