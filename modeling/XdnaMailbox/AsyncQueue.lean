import XdnaMailbox.Ring

/-!
# The async queue

`mailbox_get_async_msg` appends to `async_msg_list` and then calls `complete(&async_comp)`;
`xdna_mailbox_wait_async_msg` waits on the completion if it blocks and pops the list's head.
The completion's `done` saturates at `UINT_MAX`. Each access to shared state is one step, with any
number of waiters, and `AsyncInv` matches every queued record with a wakeup.
-/

namespace XdnaMailbox

/-- `UINT_MAX`. -/
def uintMax : Nat := 2 ^ 32 - 1

def ERESTARTSYS : Int := 512

/-- `struct xdna_mailbox_async` (from `amdxdna_mailbox.h`): a device message's opcode and payload. -/
structure XdnaMailboxAsync where
  opcode : Nat
  payload : List UInt8
  deriving DecidableEq, Repr

/-- The record `mailbox_get_async_msg` fills from a header and the payload's offset. -/
def asyncMsgOf (mem : Mem) (header : MsgHeader) (data : Nat) : XdnaMailboxAsync :=
  ⟨header.opcode.val, readBytes mem data header.size.val⟩

/-- Where one caller of `xdna_mailbox_wait_async_msg` is. -/
inductive WaiterPc
  /-- Called, with `blocking` as given. -/
  | start (blocking : Bool)
  /-- In `wait_for_completion_interruptible`. -/
  | waiting
  /-- About to take `async_msg_lock`; `consumed` if it took a wakeup from the completion. -/
  | popping (consumed : Bool)
  | returned (ret : Int) (msg : Option XdnaMailboxAsync)
  deriving DecidableEq, Repr

/-- The list, the count, an arrival between append and complete, the waiters, and the traffic. -/
structure AsyncSys where
  list : List XdnaMailboxAsync
  done : Nat
  completing : Bool
  waiters : List WaiterPc
  arrived : List XdnaMailboxAsync
  returned : List XdnaMailboxAsync

/-- The two halves of `mailbox_get_async_msg`, a new waiter, and the steps of waiter `i`. -/
inductive AsyncStep
  | arrive (mem : Mem) (header : MsgHeader) (data : Nat) (allocOk : Bool)
  | complete
  | call (blocking : Bool)
  | begin (i : Nat)
  | wake (i : Nat)
  | interrupt (i : Nat)
  | pop (i : Nat)

/-- `complete`: one more wakeup, unless the count has reached `UINT_MAX`. -/
def completeDone (done : Nat) : Nat := if done = uintMax then done else done + 1

def consumeDone (done : Nat) : Nat := if done = uintMax then done else done - 1

def AsyncSys.step (s : AsyncSys) : AsyncStep → Option AsyncSys
  | .arrive mem header data allocOk =>
    if s.completing then none
    else if allocOk then
      let msg := asyncMsgOf mem header data
      some { s with list := s.list ++ [msg], completing := true, arrived := s.arrived ++ [msg] }
    else some s
  | .complete => if s.completing then some { s with done := completeDone s.done, completing := false } else none
  | .call blocking => some { s with waiters := s.waiters ++ [.start blocking] }
  | .begin i => match s.waiters[i]? with
    | some (.start true) => some { s with waiters := s.waiters.set i .waiting }
    | some (.start false) => some { s with waiters := s.waiters.set i (.popping false) }
    | _ => none
  | .wake i => match s.waiters[i]? with
    | some .waiting =>
      if s.done = 0 then none
      else some { s with done := consumeDone s.done, waiters := s.waiters.set i (.popping true) }
    | _ => none
  | .interrupt i => match s.waiters[i]? with
    | some .waiting =>
      if s.done = 0 then some { s with waiters := s.waiters.set i (.returned (-ERESTARTSYS) none) }
      else none
    | _ => none
  | .pop i => match s.waiters[i]? with
    | some (.popping _) => match s.list with
      | [] => some { s with waiters := s.waiters.set i (.returned (-EAGAIN) none) }
      | m :: rest =>
        some { s with list := rest, waiters := s.waiters.set i (.returned 0 (some m)),
                      returned := s.returned ++ [m] }
    | _ => none

def AsyncSys.init : AsyncSys := ⟨[], 0, false, [], [], []⟩

inductive AsyncSys.Reachable : AsyncSys → Prop
  | init : Reachable .init
  | step {s s' : AsyncSys} (a : AsyncStep) : Reachable s → s.step a = some s' → Reachable s'

def AsyncSys.run : AsyncSys → List AsyncStep → Option AsyncSys
  | s, [] => some s
  | s, a :: as => (s.step a).bind fun s' => s'.run as

theorem AsyncSys.Reachable.run {s s' : AsyncSys} {as : List AsyncStep} (hr : s.Reachable)
    (h : s.run as = some s') : s'.Reachable := by
  induction as generalizing s with
  | nil => cases h; exact hr
  | cons a as ih =>
    obtain ⟨t, ht, h⟩ := Option.bind_eq_some.mp h
    exact ih (hr.step a ht) h

/-- The steps of the callers of `xdna_mailbox_wait_async_msg`. -/
inductive WaitStep
  | call (blocking : Bool)
  | begin (i : Nat)
  | wake (i : Nat)
  | interrupt (i : Nat)
  | pop (i : Nat)

def WaitStep.toAsync : WaitStep → AsyncStep
  | .call blocking => .call blocking
  | .begin i => .begin i
  | .wake i => .wake i
  | .interrupt i => .interrupt i
  | .pop i => .pop i

def WaiterPc.holdsWakeup : WaiterPc → Bool
  | .popping true => true
  | _ => false

def WaiterPc.midFlight : WaiterPc → Bool
  | .waiting | .popping _ => true
  | _ => false

/-- No arrival has appended without completing, and no wait is mid-flight. -/
def AsyncSys.Quiescent (s : AsyncSys) : Prop :=
  s.completing = false ∧ ∀ w ∈ s.waiters, w.midFlight = false

/-- The queue is the arrivals not yet returned, and each queued record has a wakeup. -/
structure AsyncInv (s : AsyncSys) : Prop where
  fifo : s.returned ++ s.list = s.arrived
  count : s.done = uintMax ∨
    s.list.length ≤ s.done + (if s.completing then 1 else 0) + s.waiters.countP WaiterPc.holdsWakeup

theorem countP_set_add {α : Type} (p : α → Bool) (x : α) :
    ∀ {l : List α} {i : Nat} {y : α}, l[i]? = some y →
      (l.set i x).countP p + (if p y then 1 else 0) = l.countP p + (if p x then 1 else 0)
  | [], _, _, h => by simp at h
  | a :: l, 0, y, h => by
    simp only [List.getElem?_cons_zero, Option.some.injEq] at h
    subst h
    simp only [List.set_cons_zero, List.countP_cons]
    omega
  | a :: l, i + 1, y, h => by
    have := countP_set_add p x (l := l) (i := i) (by simpa using h)
    simp only [List.set_cons_succ, List.countP_cons]
    omega

theorem countP_holdsWakeup_set {ws : List WaiterPc} {i : Nat} {w w' : WaiterPc} (hw : ws[i]? = some w)
    (h : w.holdsWakeup = false) (h' : w'.holdsWakeup = false) :
    (ws.set i w').countP WaiterPc.holdsWakeup = ws.countP WaiterPc.holdsWakeup := by
  simpa [h, h'] using countP_set_add WaiterPc.holdsWakeup w' hw

theorem AsyncInv.setWaiter {s : AsyncSys} (hI : AsyncInv s) {i : Nat} {w w' : WaiterPc}
    (hw : s.waiters[i]? = some w) (h : w.holdsWakeup = false) (h' : w'.holdsWakeup = false) :
    AsyncInv { s with waiters := s.waiters.set i w' } :=
  ⟨hI.fifo, by simpa only [countP_holdsWakeup_set hw h h'] using hI.count⟩

theorem AsyncInv.init : AsyncInv .init := ⟨rfl, .inr (by simp [AsyncSys.init])⟩

theorem AsyncInv.step {s s' : AsyncSys} (hI : AsyncInv s) :
    ∀ a, s.step a = some s' → AsyncInv s'
  | .arrive mem header data allocOk, h => by
    simp only [AsyncSys.step] at h
    split_ifs at h with hc ha <;> cases h
    · refine ⟨by rw [← hI.fifo, List.append_assoc], hI.count.imp_right fun hle => ?_⟩
      simp only [Bool.not_eq_true] at hc
      simp [hc] at hle ⊢
      omega
    · exact hI
  | .complete, h => by
    simp only [AsyncSys.step] at h
    split_ifs at h with hc
    cases h
    refine ⟨hI.fifo, ?_⟩
    rcases hI.count with hmax | hle
    · exact .inl (by simp [completeDone, hmax])
    · simp only [hc, if_true] at hle
      simp only [completeDone, Bool.false_eq_true, if_false]
      split_ifs <;> omega
  | .call blocking, h => by
    cases h
    exact ⟨hI.fifo, hI.count.imp_right fun hle => by simp [WaiterPc.holdsWakeup]; omega⟩
  | .begin i, h => by
    simp only [AsyncSys.step] at h
    split at h <;> cases h <;> rename_i hw
    all_goals exact hI.setWaiter hw rfl rfl
  | .wake i, h => by
    simp only [AsyncSys.step] at h
    split at h <;> try cases h
    rename_i hw
    split_ifs at h with hd
    cases h
    have := countP_set_add WaiterPc.holdsWakeup (.popping true) hw
    refine ⟨hI.fifo, ?_⟩
    rcases hI.count with hmax | hle
    · exact .inl (by simp [consumeDone, hmax])
    · simp only [WaiterPc.holdsWakeup, Bool.false_eq_true, if_false, if_true] at this
      simp only [consumeDone]
      split_ifs at hle ⊢ <;> omega
  | .interrupt i, h => by
    simp only [AsyncSys.step] at h
    split at h <;> try cases h
    rename_i hw
    split_ifs at h
    cases h
    exact hI.setWaiter hw rfl rfl
  | .pop i, h => by
    simp only [AsyncSys.step] at h
    split at h <;> try cases h
    rename_i c hw
    split at h <;> cases h
    · rename_i hl
      exact ⟨hI.fifo, .inr (by simp [hl])⟩
    · rename_i m _ hl
      have := countP_set_add WaiterPc.holdsWakeup (.returned 0 (some m)) hw
      refine ⟨by rw [← hI.fifo, hl, List.append_assoc, List.singleton_append], ?_⟩
      refine hI.count.imp_right fun hle => ?_
      simp only [hl, List.length_cons, WaiterPc.holdsWakeup] at hle this ⊢
      split at this <;> omega

theorem AsyncSys.Reachable.inv {s : AsyncSys} (hs : s.Reachable) : AsyncInv s := by
  induction hs with
  | init => exact .init
  | step a _ h ih => exact ih.step a h

theorem AsyncSys.Quiescent.count_eq_zero {s : AsyncSys} (hq : s.Quiescent) :
    s.waiters.countP WaiterPc.holdsWakeup = 0 :=
  List.countP_eq_zero.mpr fun w hw => by
    have := hq.2 w hw
    cases w <;> simp_all [WaiterPc.holdsWakeup, WaiterPc.midFlight]

/-- Records leave in arrival order, and when nothing is mid-flight the count covers the queue. -/
theorem async_queue_fifo {s : AsyncSys} (hs : s.Reachable) :
    s.returned ++ s.list = s.arrived ∧
      (s.Quiescent → (s.done = uintMax ∨ s.list.length ≤ s.done) ∧ (s.list ≠ [] → s.done ≠ 0)) := by
  have hI := hs.inv
  refine ⟨hI.fifo, fun hq => ?_⟩
  have hc := hI.count
  simp only [hq.1, hq.count_eq_zero, Bool.false_eq_true, if_false, Nat.add_zero] at hc
  refine ⟨hc, fun hl => ?_⟩
  have := List.length_pos.mpr hl
  unfold uintMax at hc
  omega

theorem async_queue_fifo_popped :
    ∃ s, AsyncSys.init.run [.arrive (fun _ => 0) ⟨0, 0, 0, 1, 0, 0x80000000, 0⟩ 0 true, .complete,
        .arrive (fun _ => 0) ⟨0, 0, 0, 1, 0, 0x80000001, 0⟩ 0 true, .complete, .call false, .begin 0, .pop 0] =
        some s ∧ s.Reachable ∧ s.returned ++ s.list = s.arrived ∧
      (s.Quiescent → (s.done = uintMax ∨ s.list.length ≤ s.done) ∧ (s.list ≠ [] → s.done ≠ 0)) := by
  obtain ⟨s, hs⟩ : ∃ s, AsyncSys.init.run [.arrive (fun _ => 0) ⟨0, 0, 0, 1, 0, 0x80000000, 0⟩ 0 true,
      .complete, .arrive (fun _ => 0) ⟨0, 0, 0, 1, 0, 0x80000001, 0⟩ 0 true, .complete, .call false,
      .begin 0, .pop 0] = some s := ⟨_, rfl⟩
  have hr := AsyncSys.Reachable.init.run hs
  exact ⟨s, hs, hr, async_queue_fifo hr⟩

/-! ### The count stops at `UINT_MAX` -/

/-- The state after `n` messages arrived and completed with no waiter. -/
def arrivedState (msg : XdnaMailboxAsync) (n : Nat) : AsyncSys :=
  ⟨List.replicate n msg, min n uintMax, false, [], List.replicate n msg, []⟩

@[simp] theorem arrivedState_list (msg : XdnaMailboxAsync) (n : Nat) :
    (arrivedState msg n).list = List.replicate n msg := rfl

@[simp] theorem arrivedState_done (msg : XdnaMailboxAsync) (n : Nat) :
    (arrivedState msg n).done = min n uintMax := rfl

@[simp] theorem arrivedState_waiters (msg : XdnaMailboxAsync) (n : Nat) :
    (arrivedState msg n).waiters = [] := rfl

theorem completeDone_min (n : Nat) : completeDone (min n uintMax) = min (n + 1) uintMax := by
  unfold completeDone
  split_ifs <;> omega

theorem arrivedState_reachable (mem : Mem) (header : MsgHeader) (data : Nat) :
    ∀ n, (arrivedState (asyncMsgOf mem header data) n).Reachable
  | 0 => .init
  | n + 1 => by
    have h := AsyncSys.Reachable.step (.arrive mem header data true)
      (arrivedState_reachable mem header data n) rfl
    refine .step .complete h ?_
    simp only [AsyncSys.step, if_true, arrivedState, completeDone_min, List.replicate_succ']

/-- After `2^32` arrivals with no waiter the list holds one record more than the count. -/
theorem async_count_below_list :
    let s := arrivedState (asyncMsgOf (fun _ => 0) ⟨0, 0, 0, 1, 0, 0x80000000, 0⟩ 0) (2 ^ 32)
    s.Reachable ∧ s.Quiescent ∧ s.done < s.list.length := by
  refine ⟨arrivedState_reachable _ _ _ _, ⟨rfl, fun w hw => by simp only [arrivedState_waiters] at hw; cases hw⟩, ?_⟩
  rw [arrivedState_done, arrivedState_list, List.length_replicate]
  unfold uintMax
  omega

end XdnaMailbox
