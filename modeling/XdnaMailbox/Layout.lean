import XdnaMailbox.Ring

/-!
# How the write algorithm lays out a ring

Between the consumer's head and the producer's tail a ring holds packages back to back, and once
the producer has wrapped, a tombstone and a second run from offset 0. `Region` is that content and
`Layout` says where its bytes are. `layout_sendMsg` and `getMsg_front` are the two step lemmas:
a write appends to the region and touches no unconsumed byte, a read removes its front. Both hold
for a pointer read earlier in the run (`Behind`, `Boundary`).
-/

namespace XdnaMailbox

/-- A package as `mailbox_send_msg` copies one: whole words, led by its `total_size`. -/
structure Package where
  bytes : List UInt8
  aligned : bytes.length % 4 = 0
  header_le : headerSize ≤ bytes.length
  totalSize_eq : readU32 (listMem bytes) 0 = bytes.length - headerSize

/-- A package of a bare header: a response with no payload. -/
def bareHeaderPkg : Package :=
  ⟨MsgHeader.bytes ⟨0, 0, 0, 1, 0, 0x1D000000, 7⟩, by decide, by decide, by decide⟩

/-- A ring size `xdna_mailbox_create_channel` accepts that fits a `u32` and holds a header. -/
structure RingSize (N : Nat) : Prop where
  pow2 : ∃ k, N = 2 ^ k
  lt_u32 : N < 2 ^ 32
  header_le : headerSize ≤ N

theorem ringSize_64 : RingSize 64 := ⟨⟨6, rfl⟩, by decide, by decide⟩

theorem RingSize.le_half {N : Nat} (hN : RingSize N) : N ≤ 2 ^ 31 := by
  obtain ⟨k, rfl⟩ := hN.pow2
  have hk : k < 32 := (Nat.pow_lt_pow_iff_right (by decide)).mp hN.lt_u32
  exact Nat.pow_le_pow_right (by decide) (by omega)

theorem RingSize.aligned {N : Nat} (hN : RingSize N) : N % 4 = 0 := by
  obtain ⟨k, rfl⟩ := hN.pow2
  have hk : 2 ^ 2 ≤ 2 ^ k := le_trans (by decide) hN.header_le
  exact Nat.mod_eq_zero_of_dvd (Nat.pow_dvd_pow 2 ((Nat.pow_le_pow_iff_right (by decide)).mp hk))

theorem RingSize.mask_eq_iff {N : Nat} (hN : RingSize N) {a b : Nat} (ha : a < N) (hb : b < N) :
    a &&& u32Sub N 1 = b &&& u32Sub N 1 ↔ a = b := by
  obtain ⟨k, rfl⟩ := hN.pow2
  have hsub : u32Sub (2 ^ k) 1 = 2 ^ k - 1 := by
    have := hN.lt_u32
    have : 1 ≤ 2 ^ k := Nat.one_le_two_pow
    unfold u32Sub
    omega
  rw [hsub, Nat.and_pow_two_sub_one_eq_mod, Nat.and_pow_two_sub_one_eq_mod, Nat.mod_eq_of_lt ha,
    Nat.mod_eq_of_lt hb]

theorem ringbufLimit_eq {N : Nat} (hN : RingSize N) : ringbufLimit N = N - 4 := by
  have := hN.lt_u32
  have : headerSize = 16 := rfl
  have := hN.header_le
  unfold ringbufLimit
  omega

def span : List Package → Nat
  | [] => 0
  | p :: ps => p.bytes.length + span ps

@[simp] theorem span_nil : span [] = 0 := rfl

@[simp] theorem span_cons (p : Package) (ps : List Package) :
    span (p :: ps) = p.bytes.length + span ps := rfl

@[simp] theorem span_append (ps qs : List Package) : span (ps ++ qs) = span ps + span qs := by
  induction ps with
  | nil => simp
  | cons p ps ih => simp [ih, Nat.add_assoc]

theorem span_aligned (ps : List Package) : span ps % 4 = 0 := by
  induction ps with
  | nil => rfl
  | cons p ps ih =>
    have := p.aligned
    simp only [span_cons]
    omega

theorem span_take_le (ps : List Package) (k : Nat) : span (ps.take k) ≤ span ps := by
  have := span_append (ps.take k) (ps.drop k)
  rw [List.take_append_drop] at this
  omega

/-- `mem` holds the packages `ps` back to back from offset `a` on. -/
def Laid (mem : Mem) : Nat → List Package → Prop
  | _, [] => True
  | a, p :: ps => Holds mem a p.bytes ∧ Laid mem (a + p.bytes.length) ps

@[simp] theorem laid_nil (mem : Mem) (a : Nat) : Laid mem a [] := trivial

@[simp] theorem laid_cons (mem : Mem) (a : Nat) (p : Package) (ps : List Package) :
    Laid mem a (p :: ps) ↔ Holds mem a p.bytes ∧ Laid mem (a + p.bytes.length) ps := Iff.rfl

theorem laid_append {mem : Mem} {a : Nat} {ps qs : List Package} :
    Laid mem a (ps ++ qs) ↔ Laid mem a ps ∧ Laid mem (a + span ps) qs := by
  induction ps generalizing a with
  | nil => simp
  | cons p ps ih => simp [ih, and_assoc, Nat.add_assoc]

theorem laid_singleton {mem : Mem} {a : Nat} {p : Package} : Laid mem a [p] ↔ Holds mem a p.bytes := by
  simp

theorem Holds.frame {mem mem' : Mem} {a : Nat} {bs : List UInt8} (hold : Holds mem a bs)
    (hsame : ∀ b, a ≤ b → b < a + bs.length → mem' b = mem b) : Holds mem' a bs := by
  unfold Holds
  rw [readBytes_congr fun i hi => hsame (a + i) (by omega) (by omega)]
  exact hold

theorem Laid.frame {mem mem' : Mem} {a : Nat} {ps : List Package} (hlaid : Laid mem a ps)
    (hsame : ∀ b, a ≤ b → b < a + span ps → mem' b = mem b) : Laid mem' a ps := by
  induction ps generalizing a with
  | nil => trivial
  | cons p ps ih =>
    obtain ⟨hp, hps⟩ := hlaid
    simp only [span_cons] at hsame
    exact ⟨hp.frame fun b h₁ h₂ => hsame b h₁ (by omega),
      ih hps fun b h₁ h₂ => hsame b (by omega) (by omega)⟩

theorem readU32_frame {mem mem' : Mem} {a : Nat} (hsame : ∀ b, a ≤ b → b < a + 4 → mem' b = mem b) :
    readU32 mem' a = readU32 mem a := by
  simp only [readU32]
  rw [hsame a le_rfl (by omega), hsame (a + 1) (by omega) (by omega),
    hsame (a + 2) (by omega) (by omega), hsame (a + 3) (by omega) (by omega)]

/-- The unconsumed content of a ring, in the order the consumer meets it. -/
inductive Region
  | flat (ps : List Package)
  | wrapped (ps qs : List Package)

def Region.pkgs : Region → List Package
  | .flat ps => ps
  | .wrapped ps qs => ps ++ qs

/-- The region after one more package, written after a wrap when `wrap` holds. -/
def Region.push : Region → Package → Bool → Region
  | .flat ps, p, false => .flat (ps ++ [p])
  | .flat ps, p, true => .wrapped ps [p]
  | .wrapped ps qs, p, _ => .wrapped ps (qs ++ [p])

def Region.front : Region → Option Package
  | .flat (p :: _) | .wrapped (p :: _) _ => some p
  | _ => none

def Region.pop : Region → Region
  | .flat ps => .flat ps.tail
  | .wrapped (_ :: ps) qs => .wrapped ps qs
  | .wrapped [] qs => .flat qs

@[simp] theorem Region.pkgs_push (R : Region) (p : Package) (w : Bool) :
    (R.push p w).pkgs = R.pkgs ++ [p] := by
  cases R <;> cases w <;> simp [Region.push, Region.pkgs]

theorem Region.pkgs_of_front {R : Region} {p : Package} (h : R.front = some p) :
    R.pkgs = p :: R.pop.pkgs := by
  rcases R with ⟨_ | ⟨_, _⟩⟩ | ⟨_ | ⟨_, _⟩, _⟩ <;> simp_all [Region.front, Region.pop, Region.pkgs]

theorem Region.pop_push (R : Region) (p : Package) (w : Bool) (hR : R ≠ .flat []) :
    ∃ w', (R.push p w).pop = R.pop.push p w' := by
  rcases R with ⟨_ | ⟨_, _⟩⟩ | ⟨_ | ⟨_, _⟩, _⟩
  · exact absurd rfl hR
  · exact ⟨w, by cases w <;> rfl⟩
  · exact ⟨false, rfl⟩
  · exact ⟨w, rfl⟩

theorem Region.front_eq_some {R : Region} {p : Package} :
    R.front = some p ↔ (∃ ps, R = .flat (p :: ps)) ∨ ∃ ps qs, R = .wrapped (p :: ps) qs := by
  rcases R with ⟨_ | ⟨q, ps⟩⟩ | ⟨_ | ⟨q, ps⟩, qs⟩ <;> simp [Region.front, eq_comm]

theorem Region.front_eq_none {R : Region} :
    R.front = none ↔ R = .flat [] ∨ ∃ qs, R = .wrapped [] qs := by
  rcases R with ⟨_ | ⟨q, ps⟩⟩ | ⟨_ | ⟨q, ps⟩, qs⟩ <;> simp [Region.front]

theorem Region.front_push {R : Region} {q : Package} (h : R.front = some q) (p : Package) (w : Bool) :
    (R.push p w).front = some q := by
  rcases R with ⟨_ | ⟨_, _⟩⟩ | ⟨_ | ⟨_, _⟩, _⟩ <;> cases w <;> simp_all [Region.front, Region.push]

/-! ### Layout -/

/-- Where a region's bytes are between the consumer's head `h` and the producer's tail `t`. -/
def Layout (N : Nat) (mem : Mem) (h t : Nat) : Region → Prop
  | .flat ps => Laid mem h ps ∧ t = h + span ps ∧ t ≤ N - 4
  | .wrapped ps qs =>
      Laid mem h ps ∧ h + span ps ≤ N - 4 ∧ readU32 mem (h + span ps) = tombstone ∧
        Laid mem 0 qs ∧ t = span qs ∧ t < h

/-- The offsets from the head to the tail in ring order, which the producer must not write. -/
def Unconsumed (N h t a : Nat) : Prop := if h ≤ t then h ≤ a ∧ a < t else h ≤ a ∧ a < N ∨ a < t

theorem Layout.head_le {N : Nat} {mem : Mem} {h t : Nat} {R : Region} (hL : Layout N mem h t R) :
    h ≤ N - 4 := by
  cases R with
  | flat ps => obtain ⟨-, rfl, ht⟩ := hL; omega
  | wrapped ps qs => obtain ⟨-, hx, -⟩ := hL; omega

theorem Layout.tail_le {N : Nat} {mem : Mem} {h t : Nat} {R : Region} (hL : Layout N mem h t R) :
    t ≤ N - 4 := by
  cases R with
  | flat ps => exact hL.2.2
  | wrapped ps qs => obtain ⟨-, hx, -, -, -, ht⟩ := hL; omega

theorem Layout.tail_aligned {N : Nat} {mem : Mem} {h t : Nat} {R : Region} (hL : Layout N mem h t R)
    (hh : h % 4 = 0) : t % 4 = 0 := by
  cases R with
  | flat ps => have := span_aligned ps; obtain ⟨-, rfl, -⟩ := hL; omega
  | wrapped ps qs => have := span_aligned qs; obtain ⟨-, -, -, -, rfl, -⟩ := hL; exact this

theorem Layout.ne_of_pkgs {N : Nat} {mem : Mem} {h t : Nat} {R : Region} (hL : Layout N mem h t R)
    (hR : R ≠ .flat []) : h ≠ t := by
  rcases R with ⟨_ | ⟨p, ps⟩⟩ | ⟨ps, qs⟩
  · exact absurd rfl hR
  · obtain ⟨-, rfl, -⟩ := hL
    have := p.header_le
    simp only [span_cons, headerSize] at *
    omega
  · obtain ⟨-, -, -, -, -, ht⟩ := hL
    omega

theorem Layout.frame {N : Nat} {mem mem' : Mem} {h t : Nat} {R : Region} (hL : Layout N mem h t R)
    (hsame : ∀ a, Unconsumed N h t a → mem' a = mem a) : Layout N mem' h t R := by
  cases R with
  | flat ps =>
    obtain ⟨hps, rfl, ht⟩ := hL
    refine ⟨hps.frame fun b h₁ h₂ => hsame b ?_, rfl, ht⟩
    simp only [Unconsumed, if_pos (Nat.le_add_right h (span ps))]
    omega
  | wrapped ps qs =>
    obtain ⟨hps, hx, htomb, hqs, rfl, ht⟩ := hL
    have hout : ∀ b, h ≤ b → b < h + span ps + 4 → mem' b = mem b := fun b h₁ h₂ =>
      hsame b (by simp only [Unconsumed, if_neg (show ¬h ≤ span qs by omega)]; omega)
    refine ⟨hps.frame fun b h₁ h₂ => hout b h₁ (by omega), hx, ?_,
      hqs.frame fun b _ h₂ => hsame b ?_, rfl, ht⟩
    · rw [readU32_frame fun b h₁ h₂ => hout b (by omega) h₂]
      exact htomb
    · simp only [Unconsumed, if_neg (show ¬h ≤ span qs by omega)]
      omega

/-! ### The producer's step -/

/-- Where a head the producer read earlier in the run can be relative to the region now. -/
def Behind (N H h t : Nat) : Region → Prop
  | .flat _ => H ≤ h ∨ t < H ∧ H ≤ N - 4
  | .wrapped _ _ => t < H ∧ H ≤ h

theorem Layout.behind_self {N : Nat} {mem : Mem} {h t : Nat} {R : Region} (hL : Layout N mem h t R) :
    Behind N h h t R := by
  cases R with
  | flat ps => exact .inl le_rfl
  | wrapped ps qs => exact ⟨hL.2.2.2.2.2, le_rfl⟩

theorem Layout.push_flat {N h t : Nat} {mem : Mem} {ps : List Package} (p : Package)
    (hL : Layout N mem h t (.flat ps)) (hle : t + p.bytes.length ≤ N - 4) :
    Layout N (writeBytes mem t p.bytes) h (t + p.bytes.length) (.flat (ps ++ [p])) := by
  obtain ⟨hps, rfl, -⟩ := hL
  refine ⟨laid_append.mpr ⟨hps.frame fun b _ hb => writeBytes_of_lt mem _ hb,
    laid_singleton.mpr (holds_writeBytes mem _ _)⟩, by simp [Nat.add_assoc], hle⟩

theorem Layout.push_wrapped {N h t : Nat} {mem : Mem} {ps qs : List Package} (p : Package)
    (hL : Layout N mem h t (.wrapped ps qs)) (hlt : t + p.bytes.length < h) :
    Layout N (writeBytes mem t p.bytes) h (t + p.bytes.length) (.wrapped ps (qs ++ [p])) := by
  obtain ⟨hps, hx, htomb, hqs, rfl, -⟩ := hL
  refine ⟨hps.frame fun b hb _ => writeBytes_of_ge mem _ (by omega), hx, ?_,
    laid_append.mpr ⟨hqs.frame fun b _ hb => writeBytes_of_lt mem _ (by omega),
      laid_singleton.mpr (by simpa using holds_writeBytes mem (span qs) p.bytes)⟩, by simp, hlt⟩
  rw [readU32_writeBytes_of_disjoint mem _ (.inr (by omega))]
  exact htomb

theorem Layout.push_tombstone {N h t : Nat} {mem : Mem} {ps : List Package} (p : Package)
    (hL : Layout N mem h t (.flat ps)) (hlt : p.bytes.length < h) :
    Layout N (writeBytes (writeU32 mem t tombstone) 0 p.bytes) h p.bytes.length (.wrapped ps [p]) := by
  obtain ⟨hps, rfl, ht⟩ := hL
  refine ⟨hps.frame fun b hb hb' => ?_, ht, ?_, laid_singleton.mpr (holds_writeBytes _ 0 _), by simp,
    hlt⟩
  · rw [writeBytes_of_ge _ _ (by omega), writeU32, writeBytes_of_lt _ _ hb']
  · rw [readU32_writeBytes_of_disjoint _ _ (.inr (by omega)), readU32_writeU32_self]
    rfl

theorem Behind.bounds {N H h t : Nat} {mem : Mem} {R : Region} (hL : Layout N mem h t R)
    (hB : Behind N H h t R) : (t < h → t < H ∧ H ≤ h) ∧ (H ≤ h ∨ t < H ∧ H ≤ N - 4) := by
  cases R with
  | flat ps => exact ⟨fun h' => by have := hL.2.1; omega, hB⟩
  | wrapped ps qs => exact ⟨fun _ => hB, .inl hB.2⟩

/-- A successful `mailbox_send_msg` appends its package and writes no unconsumed byte. -/
theorem layout_sendMsg {N H h t t' : Nat} {mem mem' : Mem} {R : Region} {p : Package}
    (hN : RingSize N) (hL : Layout N mem h t R) (hB : Behind N H h t R) (hp : p.bytes.length ≤ N)
    (hs : mailboxSendMsg N H t mem p.bytes = some (mem', t')) :
    (∃ w, Layout N mem' h t' (R.push p w)) ∧
      (∀ a, N ≤ a ∨ Unconsumed N h t a → mem' a = mem a) ∧ t + p.bytes.length < 2 ^ 32 := by
  have hhalf := hN.le_half
  have ht := hL.tail_le
  have hh := hL.head_le
  have hS := p.header_le
  have ⟨hwrap, hstale⟩ := hB.bounds hL
  have hmod : (t + p.bytes.length) % 2 ^ 32 = t + p.bytes.length := Nat.mod_eq_of_lt (by omega)
  have hunc : ∀ a, N ≤ a ∨ Unconsumed N h t a → N ≤ a ∨ (h ≤ t → h ≤ a ∧ a < t) ∧
      (t < h → h ≤ a ∨ a < t) := by
    intro a ha
    unfold Unconsumed at ha
    split_ifs at ha <;> omega
  rcases mailboxSendMsg_eq_some hs with ⟨hTH, hlt, rfl, rfl⟩ | ⟨hHT, hle, rfl, rfl⟩ |
    ⟨hHT, hgt, hSH, rfl, rfl⟩
  · -- a copy at the tail, below a head read before the consumer skipped the tombstone
    rw [hmod] at hlt ⊢
    refine ⟨?_, fun a ha => writeBytes_of_outside mem _ (by have := hunc a ha; omega), by omega⟩
    cases R with
    | flat ps => exact ⟨false, hL.push_flat p (by have := hL.2.1; omega)⟩
    | wrapped ps qs => exact ⟨false, hL.push_wrapped p (by have := hwrap hL.2.2.2.2.2; omega)⟩
  · -- a copy at the tail that ends before the ring's last word
    rw [hmod, ringbufLimit_eq hN] at *
    refine ⟨?_, fun a ha => writeBytes_of_outside mem _ (by have := hunc a ha; omega), by omega⟩
    cases R with
    | flat ps => exact ⟨false, hL.push_flat p hle⟩
    | wrapped ps qs => exact absurd (hwrap hL.2.2.2.2.2) (by omega)
  · -- a tombstone at the tail and a copy from offset 0, below the head
    have hSmod : p.bytes.length % 2 ^ 32 = p.bytes.length := Nat.mod_eq_of_lt (by omega)
    rw [hSmod]
    refine ⟨?_, fun a ha => ?_, by omega⟩
    · cases R with
      | flat ps => exact ⟨true, hL.push_tombstone p (by omega)⟩
      | wrapped ps qs => exact absurd (hwrap hL.2.2.2.2.2) (by omega)
    · have := hunc a ha
      rw [writeBytes_of_outside _ _ (by omega), writeU32, writeBytes_of_outside _ _ (by simp; omega)]

/-! ### The consumer's step -/

/-- The tails the consumer may still hold: where the region starts or a package ends. -/
def Boundary (h : Nat) : Region → Nat → Prop
  | .flat ps, t0 => ∃ k ≤ ps.length, t0 = h + span (ps.take k)
  | .wrapped ps qs, t0 =>
      (∃ k ≤ ps.length, t0 = h + span (ps.take k)) ∨ ∃ k ≤ qs.length, t0 = span (qs.take k)

theorem Layout.boundary {N h t : Nat} {mem : Mem} {R : Region} (hL : Layout N mem h t R) :
    Boundary h R t := by
  cases R with
  | flat ps => exact ⟨ps.length, le_rfl, by rw [List.take_length]; exact hL.2.1⟩
  | wrapped ps qs => exact .inr ⟨qs.length, le_rfl, by rw [List.take_length]; exact hL.2.2.2.2.1⟩

theorem Boundary.push {h t0 : Nat} {R : Region} (hb : Boundary h R t0) (p : Package) (w : Bool) :
    Boundary h (R.push p w) t0 := by
  rcases R with ps | ⟨ps, qs⟩ <;> [cases w; skip] <;> simp only [Region.push, Boundary] at hb ⊢
  · obtain ⟨k, hk, rfl⟩ := hb
    exact ⟨k, by simp; omega, by rw [List.take_append_of_le_length hk]⟩
  · exact .inl hb
  · rcases hb with hb | ⟨k, hk, rfl⟩
    · exact .inl hb
    · exact .inr ⟨k, by simp; omega, by rw [List.take_append_of_le_length hk]⟩

theorem Boundary.front {N h t t0 : Nat} {mem : Mem} {R : Region} {p : Package} (hN : RingSize N)
    (hL : Layout N mem h t R) (hb : Boundary h R t0) (hf : R.front = some p) (hne : t0 ≠ h) :
    Holds mem h p.bytes ∧ h + p.bytes.length ≤ N - 4 ∧ t0 ≤ N - 4 ∧
      p.bytes.length ≤ u32Sub t0 h := by
  have hhalf := hN.le_half
  have hpos : ∀ (q : Package) (qs : List Package) (k : Nat), k ≠ 0 →
      q.bytes.length ≤ span ((q :: qs).take k) := by
    intro q qs k hk
    obtain ⟨k, rfl⟩ := Nat.exists_eq_succ_of_ne_zero hk
    simp
  obtain ⟨ps, rfl⟩ | ⟨ps, qs, rfl⟩ := Region.front_eq_some.mp hf
  · obtain ⟨⟨hq, hps⟩, rfl, ht⟩ := hL
    obtain ⟨k, hk, rfl⟩ := hb
    have hk0 : k ≠ 0 := by rintro rfl; simp at hne
    have := hpos p ps k hk0
    have := span_take_le (p :: ps) k
    simp only [span_cons] at *
    exact ⟨hq, by omega, by omega, by unfold u32Sub; omega⟩
  · obtain ⟨⟨hq, hps⟩, hx, -, -, rfl, ht⟩ := hL
    simp only [span_cons] at hx
    refine ⟨hq, by omega, ?_⟩
    rcases hb with ⟨k, hk, rfl⟩ | ⟨k, hk, rfl⟩
    · have hk0 : k ≠ 0 := by rintro rfl; simp at hne
      have := hpos p ps k hk0
      have := span_take_le (p :: ps) k
      simp only [span_cons] at *
      exact ⟨by omega, by unfold u32Sub; omega⟩
    · have := span_take_le qs k
      exact ⟨by omega, by unfold u32Sub; omega⟩

theorem readU32_front {mem : Mem} {h : Nat} {p : Package} (hold : Holds mem h p.bytes) :
    readU32 mem h = p.bytes.length - headerSize := by
  have := readU32_of_holds hold (k := 0) (by have := p.header_le; simp [headerSize] at this; omega)
  rw [Nat.add_zero] at this
  rw [this, p.totalSize_eq]

theorem getMsg_self (N : Nat) (mem : Mem) (h : Nat) : mailboxGetMsg N mem h h = ⟨-ENOENT, none, none⟩ := by
  simp [mailboxGetMsg]

theorem getMsg_front {N h t t0 : Nat} {mem : Mem} {R : Region} {p : Package} (hN : RingSize N)
    (hL : Layout N mem h t R) (hb : Boundary h R t0) (hf : R.front = some p) (hne : t0 ≠ h) :
    mailboxGetMsg N mem t0 h =
      ⟨0, some (h + p.bytes.length), some (routeMsg (readHeader mem h) (h + headerSize))⟩ := by
  obtain ⟨hold, hend, ht0, hsize⟩ := hb.front hN hL hf hne
  have hhalf := hN.le_half
  have hS := p.header_le
  have hword := readU32_front hold
  have hne' : ¬(h &&& u32Sub N 1 = t0 &&& u32Sub N 1) := by
    rw [hN.mask_eq_iff (by omega) (by omega)]
    exact Ne.symm hne
  have htomb : p.bytes.length - headerSize ≠ tombstone := by unfold tombstone; omega
  simp only [mailboxGetMsg, hne', if_false, show h ≠ N by omega, hword, htomb]
  rw [if_neg (by omega), show h + headerSize + (p.bytes.length - headerSize) = h + p.bytes.length by
    omega, Nat.mod_eq_of_lt (by omega)]

theorem getMsg_tombstone {N h t t0 : Nat} {mem : Mem} {qs : List Package} (hN : RingSize N)
    (hL : Layout N mem h t (.wrapped [] qs)) (ht0 : t0 < N) (hne : t0 ≠ h) :
    mailboxGetMsg N mem t0 h = ⟨0, some 0, none⟩ := by
  obtain ⟨-, hx, htomb, -⟩ := hL
  simp only [span_nil, Nat.add_zero] at hx htomb
  have hne' : ¬(h &&& u32Sub N 1 = t0 &&& u32Sub N 1) := by
    rw [hN.mask_eq_iff (by omega) ht0]
    exact Ne.symm hne
  simp [mailboxGetMsg, hne', show h ≠ N by omega, htomb]

theorem Layout.pop_front {N h t : Nat} {mem : Mem} {R : Region} {p : Package}
    (hL : Layout N mem h t R) (hf : R.front = some p) :
    Layout N mem (h + p.bytes.length) t R.pop := by
  obtain ⟨ps, rfl⟩ | ⟨ps, qs, rfl⟩ := Region.front_eq_some.mp hf
  · obtain ⟨⟨-, hps⟩, rfl, ht⟩ := hL
    exact ⟨hps, by simp [Nat.add_assoc], ht⟩
  · obtain ⟨⟨-, hps⟩, hx, htomb, hqs, rfl, ht⟩ := hL
    simp only [span_cons, ← Nat.add_assoc] at hx htomb
    exact ⟨hps, hx, htomb, hqs, rfl, by omega⟩

theorem Layout.pop_tombstone {N h t : Nat} {mem : Mem} {qs : List Package}
    (hL : Layout N mem h t (.wrapped [] qs)) : Layout N mem 0 t (.flat qs) := by
  obtain ⟨-, hx, -, hqs, rfl, ht⟩ := hL
  exact ⟨hqs, by simp, by simp at hx; omega⟩

theorem Boundary.le {N h t t0 : Nat} {mem : Mem} {R : Region} (hL : Layout N mem h t R)
    (hb : Boundary h R t0) : t0 ≤ N - 4 := by
  cases R with
  | flat ps =>
    obtain ⟨k, -, rfl⟩ := hb
    have := span_take_le ps k
    obtain ⟨-, rfl, ht⟩ := hL
    omega
  | wrapped ps qs =>
    obtain ⟨-, hx, -, -, rfl, ht⟩ := hL
    rcases hb with ⟨k, -, rfl⟩ | ⟨k, -, rfl⟩
    · have := span_take_le ps k; omega
    · have := span_take_le qs k; omega

theorem Boundary.eq_of_empty {h t0 : Nat} (hb : Boundary h (.flat []) t0) : t0 = h := by
  obtain ⟨k, -, rfl⟩ := hb
  simp

theorem Behind.pop_front {N H h t : Nat} {R : Region} {p : Package}
    (hB : Behind N H h t R) (hf : R.front = some p) : Behind N H (h + p.bytes.length) t R.pop := by
  obtain ⟨ps, rfl⟩ | ⟨ps, qs, rfl⟩ := Region.front_eq_some.mp hf
  · simp only [Region.pop, Behind] at hB ⊢
    omega
  · exact ⟨hB.1, by have := hB.2; omega⟩

theorem Behind.pop_tombstone {N H h t : Nat} {mem : Mem} {qs : List Package}
    (hL : Layout N mem h t (.wrapped [] qs)) (hB : Behind N H h t (.wrapped [] qs)) :
    Behind N H 0 t (.flat qs) :=
  .inr ⟨hB.1, by have := hL.head_le; have := hB.2; omega⟩

/-- The bytes of the message a dispatch consumed: its header and `total_size` payload bytes. -/
def Dispatch.frame (mem : Mem) (d : Dispatch) : List UInt8 :=
  readBytes mem (d.data - headerSize) (headerSize + d.header.totalSize.val)

theorem frame_front {mem : Mem} {h : Nat} {p : Package} (hold : Holds mem h p.bytes) :
    (routeMsg (readHeader mem h) (h + headerSize)).frame mem = p.bytes := by
  have hword := readU32_front hold
  have hlt := readU32_lt mem h
  have hS := p.header_le
  simp only [Dispatch.frame, routeMsg_header, routeMsg_data, Nat.add_sub_cancel, readHeader,
    truncBits_val, hword]
  rw [Nat.mod_eq_of_lt (by omega), show headerSize + (p.bytes.length - headerSize) = p.bytes.length by
    omega]
  exact hold

end XdnaMailbox
