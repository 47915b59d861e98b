import XdnaMailbox.Basic
import XdnaMailbox.Package
import XdnaMailbox.Ring
import XdnaMailbox.Layout
import XdnaMailbox.Protocol
import XdnaMailbox.SendBounds
import XdnaMailbox.Senders
import XdnaMailbox.RxWorker
import XdnaMailbox.Interrupt
import XdnaMailbox.AsyncQueue
import XdnaMailbox.Channel
import XdnaMailbox.Lifetime
import XdnaMailbox.ChanSys
import XdnaMailbox.ChanFacts
import XdnaMailbox.Ownership
import XdnaMailbox.SendSteps
import XdnaMailbox.WireSteps
import XdnaMailbox.PendingMap
import XdnaMailbox.SendCall
import XdnaMailbox.RingSizes
import XdnaMailbox.Completion
import XdnaMailbox.IdPool
import XdnaMailbox.RingRefinement
import XdnaMailbox.Delivery
import XdnaMailbox.SendOrder
