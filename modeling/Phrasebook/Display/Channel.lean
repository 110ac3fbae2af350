/-! Notices without content to any number of listeners. Each listener has the last sixteen notices
since it came, and learns how many older ones it has missed. -/
namespace Phrasebook

structure Channel where
  sent : Nat
  /-- For each listener, how many notices it has taken or missed. -/
  seen : List Nat
  deriving DecidableEq, Repr

namespace Channel

def capacity : Nat := 16

def new : Channel := ⟨0, []⟩

def send (c : Channel) : Channel := { c with sent := c.sent + 1 }

/-- A new listener, and its number. -/
def subscribe (c : Channel) : Nat × Channel :=
  (c.seen.length, { c with seen := c.seen ++ [c.sent] })

/-- Takes all that waits for a listener: how many notices are lost and how many arrive. -/
def drain (c : Channel) (listener : Nat) : (Nat × Nat) × Channel :=
  let waiting := c.sent - (c.seen[listener]?).getD c.sent
  ((waiting - capacity, min waiting capacity),
    { c with seen := c.seen.set listener c.sent })

end Channel
end Phrasebook
