import XdnaMailbox.Layout

/-!
# One ring between a producer and a consumer

The producer of `mailbox_send_msg` reads the head, copies its package and publishes the tail; the
consumer of `mailbox_get_msg` reads the tail, then takes a message and publishes the head. Any
interleaving of these steps is a run. `RingInv` places every unconsumed package (`Layout`) and
makes what was received a prefix of what was sent; `ring_protocol_agreement` is what it gives the
code.
-/

namespace XdnaMailbox

inductive ProducerPc
  | idle
  /-- `mailbox_get_headptr` has returned `head`. -/
  | readHead (head : Nat)
  /-- The package is copied; `mailbox_set_tailptr(tail)` is next. -/
  | wrote (pkg : Package) (tail : Nat)

inductive ConsumerPc
  | idle
  /-- `mailbox_get_tailptr` has returned `tail`. -/
  | readTail (tail : Nat)

/-- One ring, its registers, each side's cached pointer and program counter, and the traffic. -/
structure RingSys where
  mem : Mem
  headReg : Nat
  tailReg : Nat
  cachedTail : Nat
  cachedHead : Nat
  producer : ProducerPc
  consumer : ConsumerPc
  sent : List (List UInt8)
  received : List (List UInt8)

/-- The steps of the two sides, cut where each reads or publishes a register. -/
inductive RingStep
  | readHead
  | write (pkg : Package)
  | publish
  | readTail
  | consume

def RingSys.step (N : Nat) (s : RingSys) : RingStep → Option RingSys
  | .readHead => match s.producer with
    | .idle => some { s with producer := .readHead s.headReg }
    | _ => none
  | .write pkg => match s.producer with
    | .readHead H =>
      if pkg.bytes.length ≤ N then
        match mailboxSendMsg N H s.cachedTail s.mem pkg.bytes with
        | none => some { s with producer := .idle }
        | some (mem, tail) => some { s with mem := mem, producer := .wrote pkg tail }
      else none
    | _ => none
  | .publish => match s.producer with
    | .wrote pkg tail =>
      some { s with tailReg := tail, cachedTail := tail, producer := .idle, sent := s.sent ++ [pkg.bytes] }
    | _ => none
  | .readTail => match s.consumer with
    | .idle => some { s with consumer := .readTail s.tailReg }
    | _ => none
  | .consume => match s.consumer with
    | .readTail t0 =>
      let r := mailboxGetMsg N s.mem t0 s.cachedHead
      some { s with headReg := r.head.getD s.headReg, cachedHead := r.head.getD s.cachedHead,
                    consumer := .idle, received := s.received ++ (r.dispatch.map (·.frame s.mem)).toList }
    | _ => none

/-- An empty ring of any content, both pointers at `p` and both sides idle. -/
def RingSys.init (mem : Mem) (p : Nat) : RingSys := ⟨mem, p, p, p, p, .idle, .idle, [], []⟩

/-- The states some interleaving reaches from an empty ring with aligned pointers inside it. -/
inductive RingSys.Reachable (N : Nat) : RingSys → Prop
  | init (mem : Mem) (p : Nat) : p % 4 = 0 → p ≤ N - 4 → Reachable N (.init mem p)
  | step {s s' : RingSys} (a : RingStep) : Reachable N s → s.step N a = some s' → Reachable N s'

def RingSys.run (N : Nat) : RingSys → List RingStep → Option RingSys
  | s, [] => some s
  | s, a :: as => (s.step N a).bind fun s' => s'.run N as

theorem RingSys.Reachable.run {N : Nat} {s s' : RingSys} {as : List RingStep} (hr : s.Reachable N)
    (h : s.run N as = some s') : s'.Reachable N := by
  induction as generalizing s with
  | nil => cases h; exact hr
  | cons a as ih =>
    obtain ⟨t, ht, h⟩ := Option.bind_eq_some.mp h
    exact ih (hr.step a ht) h

/-- What the consumer's second step does with a tail read at a boundary. -/
theorem getMsg_cases {N h t t0 : Nat} {mem : Mem} {R : Region} (hN : RingSize N)
    (hL : Layout N mem h t R) (hb : Boundary h R t0) :
    (t0 = h ∧ mailboxGetMsg N mem t0 h = ⟨-ENOENT, none, none⟩) ∨
      (∃ p, R.front = some p ∧ t0 ≠ h ∧ mailboxGetMsg N mem t0 h =
        ⟨0, some (h + p.bytes.length), some (routeMsg (readHeader mem h) (h + headerSize))⟩) ∨
      (∃ qs, R = .wrapped [] qs ∧ t0 ≠ h ∧ mailboxGetMsg N mem t0 h = ⟨0, some 0, none⟩) := by
  by_cases hne : t0 = h
  · exact .inl ⟨hne, hne ▸ getMsg_self N mem h⟩
  cases hf : R.front with
  | some p => exact .inr (.inl ⟨p, rfl, hne, getMsg_front hN hL hb hf hne⟩)
  | none =>
    obtain rfl | ⟨qs, rfl⟩ := Region.front_eq_none.mp hf
    · exact absurd hb.eq_of_empty hne
    · have := hb.le hL
      have := hN.header_le
      exact .inr (.inr ⟨qs, rfl, hne, getMsg_tombstone hN hL (by unfold headerSize at *; omega) hne⟩)

/-! ### The invariant -/

/-- What the producer's saved head and copied package still guarantee. -/
def ProducerOk (N : Nat) (mem : Mem) (h t : Nat) (R : Region) : ProducerPc → Prop
  | .idle => True
  | .readHead H => Behind N H h t R
  | .wrote p t' => ∃ w, Layout N mem h t' (R.push p w)

def ConsumerOk (h : Nat) (R : Region) : ConsumerPc → Prop
  | .idle => True
  | .readTail t0 => Boundary h R t0

/-- The invariant of every run: a region laid out from head to tail holds what is sent and unreceived. -/
structure RingInv (N : Nat) (s : RingSys) : Prop where
  head_reg : s.headReg = s.cachedHead
  cached_tail : s.cachedTail = s.tailReg
  aligned : s.cachedHead % 4 = 0
  region : ∃ R, Layout N s.mem s.cachedHead s.tailReg R ∧
    s.sent = s.received ++ R.pkgs.map (·.bytes) ∧
    ProducerOk N s.mem s.cachedHead s.tailReg R s.producer ∧ ConsumerOk s.cachedHead R s.consumer

theorem RingInv.init {N p : Nat} (mem : Mem) (hp : p % 4 = 0) (hpN : p ≤ N - 4) : RingInv N (.init mem p) :=
  ⟨rfl, rfl, hp, .flat [], ⟨trivial, rfl, hpN⟩, rfl, trivial, trivial⟩

theorem RingInv.readHead {N : Nat} {s s' : RingSys} (hI : RingInv N s)
    (hs : s.step N .readHead = some s') : RingInv N s' := by
  simp only [RingSys.step] at hs
  split at hs <;> cases hs
  obtain ⟨R, hL, hsent, -, hc⟩ := hI.region
  exact ⟨hI.head_reg, hI.cached_tail, hI.aligned, R, hL, hsent, by
    simp only [ProducerOk, hI.head_reg]; exact hL.behind_self, hc⟩

theorem RingInv.write {N : Nat} {s s' : RingSys} {p : Package} (hN : RingSize N) (hI : RingInv N s)
    (hs : s.step N (.write p) = some s') : RingInv N s' := by
  simp only [RingSys.step] at hs
  split at hs <;> try cases hs
  rename_i H hH
  split_ifs at hs with hp
  obtain ⟨R, hL, hsent, hP, hc⟩ := hI.region
  simp only [ProducerOk, hH] at hP
  split at hs <;> cases hs
  · exact ⟨hI.head_reg, hI.cached_tail, hI.aligned, R, hL, hsent, trivial, hc⟩
  · rename_i mem' t' hw
    rw [hI.cached_tail] at hw
    obtain ⟨hpush, hframe, -⟩ := layout_sendMsg hN hL hP hp hw
    exact ⟨hI.head_reg, hI.cached_tail, hI.aligned, R,
      hL.frame fun a ha => hframe a (.inr ha), hsent, hpush, hc⟩

theorem RingInv.publish {N : Nat} {s s' : RingSys} (hI : RingInv N s)
    (hs : s.step N .publish = some s') : RingInv N s' := by
  simp only [RingSys.step] at hs
  split at hs <;> cases hs
  rename_i p t' hW
  obtain ⟨R, hL, hsent, hP, hc⟩ := hI.region
  simp only [ProducerOk, hW] at hP
  obtain ⟨w, hL'⟩ := hP
  refine ⟨hI.head_reg, rfl, hI.aligned, R.push p w, hL', by simp [hsent], trivial, ?_⟩
  cases hC : s.consumer <;> simp only [ConsumerOk, hC] at hc ⊢
  exact hc.push p w

theorem RingInv.readTail {N : Nat} {s s' : RingSys} (hI : RingInv N s)
    (hs : s.step N .readTail = some s') : RingInv N s' := by
  simp only [RingSys.step] at hs
  split at hs <;> cases hs
  obtain ⟨R, hL, hsent, hP, -⟩ := hI.region
  exact ⟨hI.head_reg, hI.cached_tail, hI.aligned, R, hL, hsent, hP, hL.boundary⟩

theorem ProducerOk.pop_front {N h t : Nat} {mem : Mem} {R : Region} {p : Package} {pc : ProducerPc}
    (hP : ProducerOk N mem h t R pc) (hf : R.front = some p) :
    ProducerOk N mem (h + p.bytes.length) t R.pop pc := by
  cases pc with
  | idle => trivial
  | readHead H => exact Behind.pop_front hP hf
  | wrote q t' =>
    obtain ⟨w, hL⟩ := hP
    have hR : R ≠ .flat [] := by rintro rfl; simp [Region.front] at hf
    obtain ⟨w', hw'⟩ := R.pop_push q w hR
    exact ⟨w', hw' ▸ hL.pop_front (Region.front_push hf q w)⟩

theorem ProducerOk.pop_tombstone {N h t : Nat} {mem : Mem} {qs : List Package} {pc : ProducerPc}
    (hL : Layout N mem h t (.wrapped [] qs)) (hP : ProducerOk N mem h t (.wrapped [] qs) pc) :
    ProducerOk N mem 0 t (.flat qs) pc := by
  cases pc with
  | idle => trivial
  | readHead H => exact Behind.pop_tombstone hL hP
  | wrote q t' =>
    obtain ⟨w, hL'⟩ := hP
    exact ⟨false, hL'.pop_tombstone⟩

theorem RingInv.consume {N : Nat} {s s' : RingSys} (hN : RingSize N) (hI : RingInv N s)
    (hs : s.step N .consume = some s') : RingInv N s' := by
  simp only [RingSys.step] at hs
  split at hs <;> cases hs
  rename_i t0 hC
  obtain ⟨R, hL, hsent, hP, hc⟩ := hI.region
  simp only [ConsumerOk, hC] at hc
  rcases getMsg_cases hN hL hc with ⟨-, hr⟩ | ⟨p, hf, -, hr⟩ | ⟨qs, rfl, -, hr⟩ <;> simp only [hr]
  · exact ⟨hI.head_reg, hI.cached_tail, hI.aligned, R, hL, by simpa using hsent, hP, trivial⟩
  · have hold : Holds s.mem s.cachedHead p.bytes := by
      obtain ⟨ps, rfl⟩ | ⟨ps, qs, rfl⟩ := Region.front_eq_some.mp hf
      exacts [hL.1.1, hL.1.1]
    refine ⟨rfl, hI.cached_tail, by have := p.aligned; have := hI.aligned; simp; omega, R.pop,
      hL.pop_front hf, ?_, hP.pop_front hf, trivial⟩
    simp [hsent, Region.pkgs_of_front hf, frame_front hold]
  · exact ⟨rfl, hI.cached_tail, rfl, .flat qs, hL.pop_tombstone, by simpa [Region.pkgs] using hsent,
      hP.pop_tombstone hL, trivial⟩

theorem RingInv.step {N : Nat} {s s' : RingSys} {a : RingStep} (hN : RingSize N) (hI : RingInv N s)
    (hs : s.step N a = some s') : RingInv N s' := by
  cases a with
  | readHead => exact hI.readHead hs
  | write p => exact hI.write hN hs
  | publish => exact hI.publish hs
  | readTail => exact hI.readTail hs
  | consume => exact hI.consume hN hs

theorem RingSys.Reachable.inv {N : Nat} {s : RingSys} (hN : RingSize N) (hr : s.Reachable N) :
    RingInv N s := by
  induction hr with
  | init mem p hp hpN => exact RingInv.init mem hp hpN
  | step a _ hs ih => exact ih.step hN hs

/-! ### Agreement -/

/-- What producer and consumer agree on: writes stay inside the ring and off the unconsumed part, a
nonempty ring is seen as nonempty, and what is received is a prefix of what was sent. -/
structure Agreement (N : Nat) (s : RingSys) : Prop where
  tail_aligned : s.cachedTail % 4 = 0
  tail_le : s.cachedTail ≤ N - 4
  write_inside : ∀ p s', s.step N (.write p) = some s' → s.cachedTail + p.bytes.length < 2 ^ 32 ∧
    ∀ a, N ≤ a ∨ Unconsumed N s.cachedHead s.tailReg a → s'.mem a = s.mem a
  publish_nonempty : ∀ s', s.step N .publish = some s' → s'.tailReg % N ≠ s'.cachedHead % N
  nonempty_seen : s.received ≠ s.sent → s.tailReg % N ≠ s.cachedHead % N
  received_prefix : ∃ rest, s.sent = s.received ++ rest
  size_check_passes : ∀ t0, s.consumer = .readTail t0 →
    (mailboxGetMsg N s.mem t0 s.cachedHead).ret ≠ -EINVAL

theorem mod_ne_of_ne {N a b : Nat} (ha : a < N) (hb : b < N) (hne : a ≠ b) : a % N ≠ b % N := by
  rwa [Nat.mod_eq_of_lt ha, Nat.mod_eq_of_lt hb]

/-- In every state of every interleaving the two sides agree on the ring. -/
theorem ring_protocol_agreement {N : Nat} (hN : RingSize N) {s : RingSys} (hs : s.Reachable N) :
    Agreement N s := by
  have hI := hs.inv hN
  have h16 := hN.header_le
  have hhalf := hN.le_half
  unfold headerSize at h16
  obtain ⟨R, hL, hsent, hP, hc⟩ := hI.region
  have ht := hL.tail_le
  have hh := hL.head_le
  refine ⟨hI.cached_tail ▸ hL.tail_aligned hI.aligned, hI.cached_tail ▸ ht, ?_, ?_, ?_,
    ⟨_, hsent⟩, ?_⟩
  · intro p s' hw
    simp only [RingSys.step] at hw
    split at hw <;> try cases hw
    rename_i H hH
    split_ifs at hw with hp
    simp only [ProducerOk, hH] at hP
    have := hI.cached_tail
    split at hw <;> cases hw
    · exact ⟨by omega, fun _ _ => rfl⟩
    · rename_i mem' t' hsm
      rw [hI.cached_tail] at hsm ⊢
      obtain ⟨-, hframe, hover⟩ := layout_sendMsg hN hL hP hp hsm
      exact ⟨hover, hframe⟩
  · intro s' hp
    simp only [RingSys.step] at hp
    split at hp <;> cases hp
    rename_i p t' hW
    simp only [ProducerOk, hW] at hP
    obtain ⟨w, hL'⟩ := hP
    have hne := hL'.ne_of_pkgs (by cases R <;> cases w <;> simp [Region.push])
    show t' % N ≠ s.cachedHead % N
    exact mod_ne_of_ne (by have := hL'.tail_le; omega) (by omega) (Ne.symm hne)
  · intro hne
    have hR : R ≠ .flat [] := by rintro rfl; simp [Region.pkgs] at hsent; exact hne hsent.symm
    exact mod_ne_of_ne (by omega) (by omega) (Ne.symm (hL.ne_of_pkgs hR))
  · intro t0 hC
    simp only [ConsumerOk, hC] at hc
    rcases getMsg_cases hN hL hc with ⟨-, hr⟩ | ⟨p, -, -, hr⟩ | ⟨qs, -, -, hr⟩ <;> rw [hr] <;>
      simp [ENOENT, EINVAL]

theorem ring_protocol_agreement_sent :
    ∃ s, (RingSys.init (fun _ => 0) 8).run 64 [.readHead, .write bareHeaderPkg, .publish, .readTail] = some s ∧
      RingSize 64 ∧ s.Reachable 64 ∧ Agreement 64 s := by
  obtain ⟨s, hs⟩ : ∃ s, (RingSys.init (fun _ => 0) 8).run 64
      [.readHead, .write bareHeaderPkg, .publish, .readTail] = some s := ⟨_, rfl⟩
  have hr := (RingSys.Reachable.init _ 8 rfl (by decide)).run hs
  exact ⟨s, hs, ringSize_64, hr, ring_protocol_agreement ringSize_64 hr⟩

end XdnaMailbox
