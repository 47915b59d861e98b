import XdnaMailbox.Basic

/-!
# Interrupts and the receive worker

The device advances the I2X tail and then sets the IOHUB register, which raises an interrupt only
from 0. `mailbox_irq_handler` queues `rx_work` and then writes 0 to the register. The ring is
counted in messages. A worker that drains the ring between the queueing and the acknowledge, while
the device publishes again, leaves a message nothing will reach (`irq_ack_after_queue_strands`).
-/

namespace XdnaMailbox

inductive DevicePc
  | idle
  /-- The tail is advanced; the IOHUB register is set next. -/
  | published
  deriving DecidableEq, Repr

inductive HandlerPc
  | idle
  /-- `queue_work` has returned; the IOHUB register is cleared next. -/
  | queued
  deriving DecidableEq, Repr

/-- Messages published and dispatched, IOHUB, a raised interrupt, the handler and `rx_work`. -/
structure IrqSys where
  tail : Nat
  head : Nat
  iohub : Nat
  irqPending : Bool
  device : DevicePc
  handler : HandlerPc
  workPending : Bool
  workRunning : Bool
  deriving DecidableEq, Repr

/-- The steps of the device, the interrupt handler, the workqueue and the worker. -/
inductive IrqStep
  | devicePublish
  | deviceSignal
  | handlerQueue
  | handlerAck
  | workStart
  | workGetMsg
  deriving DecidableEq, Repr

def IrqSys.step (s : IrqSys) : IrqStep → Option IrqSys
  | .devicePublish =>
    if s.device = .idle then some { s with tail := s.tail + 1, device := .published } else none
  | .deviceSignal =>
    if s.device = .published then
      some { s with iohub := 1, irqPending := s.irqPending || s.iohub = 0, device := .idle }
    else none
  | .handlerQueue =>
    if s.irqPending ∧ s.handler = .idle then
      some { s with irqPending := false, workPending := true, handler := .queued }
    else none
  | .handlerAck => if s.handler = .queued then some { s with iohub := 0, handler := .idle } else none
  | .workStart =>
    if s.workPending ∧ !s.workRunning then some { s with workPending := false, workRunning := true }
    else none
  | .workGetMsg =>
    if s.workRunning then
      if s.head = s.tail then some { s with workRunning := false } else some { s with head := s.head + 1 }
    else none

/-- No message, no interrupt, nothing running. -/
def IrqSys.init : IrqSys := ⟨0, 0, 0, false, .idle, .idle, false, false⟩

def IrqSys.run : IrqSys → List IrqStep → Option IrqSys
  | s, [] => some s
  | s, a :: as => (s.step a).bind fun s' => s'.run as

/-- A message is in the ring and nothing is left that would wake the worker. -/
def IrqSys.Stranded (s : IrqSys) : Prop :=
  s.head < s.tail ∧ s.workPending = false ∧ s.workRunning = false ∧ s.iohub = 0 ∧
    s.irqPending = false ∧ s.handler = .idle ∧ s.device = .idle

instance (s : IrqSys) : Decidable s.Stranded := inferInstanceAs (Decidable (_ ∧ _ ∧ _ ∧ _ ∧ _ ∧ _ ∧ _))

/-- The worker stops between `queue_work` and the acknowledge, and a second message is stranded. -/
theorem irq_ack_after_queue_strands :
    ∃ s, IrqSys.init.run [.devicePublish, .deviceSignal, .handlerQueue, .workStart, .workGetMsg,
        .workGetMsg, .devicePublish, .deviceSignal, .handlerAck] = some s ∧ s.Stranded ∧
      s.step .handlerQueue = none ∧ s.step .handlerAck = none ∧ s.step .workStart = none ∧
      s.step .workGetMsg = none :=
  ⟨_, rfl, by decide⟩

end XdnaMailbox
