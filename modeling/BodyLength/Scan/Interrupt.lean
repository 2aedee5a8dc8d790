/-!
# Interrupting a scan

A scan asks from time to time whether it should stop. An `Interrupt` is the sequence of
answers it gets, one per question; a scan reports how many questions it asked.
-/

namespace BodyLength

structure Interrupt where
  /-- The answer to the question asked after `n` earlier ones. -/
  stop : Nat → Bool

namespace Interrupt

def never : Interrupt := ⟨fun _ => false⟩

/-- Lets `n` questions pass and stops the scan at every later one. -/
def after (n : Nat) : Interrupt := ⟨fun k => decide (n ≤ k)⟩

/-- Gives the same answer to every question. -/
def constant (answer : Bool) : Interrupt := ⟨fun _ => answer⟩

end Interrupt

end BodyLength
