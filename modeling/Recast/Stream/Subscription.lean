/-!
# Subscription — events waiting for a slow reader

A subscription keeps the events that have been published but not received.  When there is no room
for a further one the oldest is lost, and the reader is told how many it has missed before it gets
the next.  The room is a power of two.

Main statement: `length_pending_publish`, there are never more events than there is room.
-/

namespace Recast

/-- The events that wait for a reader. -/
structure Subscription (α : Type u) where
  capacity : Nat
  /-- The events not received, older ones first. -/
  pending : List α
  /-- The number of events lost since the last one was received. -/
  missed : Nat
  deriving DecidableEq, Repr

/-- What a reader gets. -/
inductive Reception (α : Type u) where
  | event (value : α)
  | lagged (count : Nat)
  | empty
  deriving DecidableEq, Repr

namespace Subscription

variable {α : Type u}

/-- A subscription with room for at least one event and at least as many as asked for. -/
def new (room : Nat) : Subscription α := ⟨(max room 1).nextPowerOfTwo, [], 0⟩

def publish (s : Subscription α) (a : α) : Subscription α :=
  if s.pending.length < s.capacity then { s with pending := s.pending ++ [a] }
  -- the oldest event makes room
  else { s with pending := s.pending.tail ++ [a], missed := s.missed + 1 }

def receive (s : Subscription α) : Reception α × Subscription α :=
  if 0 < s.missed then (.lagged s.missed, { s with missed := 0 })
  else match s.pending with
    | [] => (.empty, s)
    | a :: rest => (.event a, { s with pending := rest })

/-- All that a reader gets, up to the word that there is nothing more. -/
def drain (s : Subscription α) : List (Reception α) :=
  (if 0 < s.missed then [.lagged s.missed] else []) ++ s.pending.map .event ++ [.empty]

/-- A reader gets what it receives first, and then what is left. -/
theorem drain_receive (s : Subscription α) :
    s.drain = if s.receive.1 matches .empty then [.empty] else s.receive.1 :: s.receive.2.drain := by
  unfold receive drain
  by_cases h : 0 < s.missed
  · simp [h]
  · cases s.pending <;> simp [h]

/-- Publishing never leaves more events than there is room for. -/
theorem length_pending_publish {s : Subscription α} (a : α) (h : s.pending.length ≤ s.capacity)
    (h0 : 0 < s.capacity) : (s.publish a).pending.length ≤ (s.publish a).capacity := by
  unfold publish
  split
  · simp
    omega
  · simp
    omega

end Subscription
end Recast
