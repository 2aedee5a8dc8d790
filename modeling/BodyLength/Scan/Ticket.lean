import BodyLength.Scan.Interrupt
/-!
# Scan tickets

A host that scans again on every edit issues a ticket per scan. Each ticket remembers the
counter it was issued from and the number it got; issuing a newer one from the same
counter makes it stale, and a stale ticket interrupts its scan. Counters are independent
of each other and are named by their place in a `TicketOffice`.
-/

namespace BodyLength

/-- The number last issued by each counter. -/
structure TicketOffice where
  issued : List UInt64 := []
deriving DecidableEq, Repr

structure Ticket where
  counter : Nat
  id : UInt64
deriving DecidableEq, Repr

namespace TicketOffice

/-- The office with one more counter, and that counter. -/
def newCounter (o : TicketOffice) : TicketOffice × Nat :=
  (⟨o.issued ++ [0]⟩, o.issued.length)

/-- The number of the newest ticket of a counter, 0 before the first. -/
def latest (o : TicketOffice) (counter : Nat) : UInt64 :=
  o.issued.getD counter 0

def issue (o : TicketOffice) (counter : Nat) : TicketOffice × Ticket :=
  let id := o.latest counter + 1
  (⟨o.issued.set counter id⟩, ⟨counter, id⟩)

def isStale (o : TicketOffice) (t : Ticket) : Bool :=
  o.latest t.counter != t.id

/-- The interrupt of a scan that holds the ticket while no other is issued. -/
def interrupt (o : TicketOffice) (t : Ticket) : Interrupt :=
  .constant (o.isStale t)

end TicketOffice

end BodyLength
