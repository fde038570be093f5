import Recast.Json.Printer
import Recast.Text.Count
import Recast.Time.Duration

/-!
# Stats — how long events take

`TimingStats` sums up durations: their number, their total, the least and the greatest.  No more can
be recorded than the total can hold.  The mean is rounded down to nanoseconds; there is none without
durations, nor for more of them than a count of 32 bits can hold.
-/

namespace Recast

/-- Durations summed up. -/
structure TimingStats where
  count : Nat
  total : Duration
  least : Option Duration
  greatest : Option Duration
  deriving DecidableEq, Repr

namespace TimingStats

def empty : TimingStats := ⟨0, ⟨0⟩, none, none⟩

def record (t : TimingStats) (d : Duration) : TimingStats where
  count := t.count + 1
  total := ⟨t.total.nanos + d.nanos⟩
  least := some ⟨(t.least.map Duration.nanos).elim d.nanos (min d.nanos)⟩
  greatest := some ⟨(t.greatest.map Duration.nanos).elim d.nanos (max d.nanos)⟩

/-- One more duration, unless the total gets longer than any duration. -/
def record? (t : TimingStats) (d : Duration) : Option TimingStats :=
  if t.total.nanos + d.nanos ≤ Duration.longest.nanos then some (t.record d) else none

def ofList (ds : List Duration) : TimingStats :=
  ds.foldl record empty

/-- Durations one after the other, as long as the total can be held. -/
def ofList? (ds : List Duration) : Option TimingStats :=
  ds.foldlM record? empty

def mean? (t : TimingStats) : Option Duration :=
  if t.count = 0 ∨ Count.max32 < t.count then none else some (t.total.part t.count)

def durationJson (d : Duration) : Json :=
  .object [("secs", .number (.integer d.secs)), ("nanos", .number (.integer d.subsec))]

def toJson (t : TimingStats) : Json :=
  let optional := fun (d : Option Duration) => (d.map durationJson).getD .null
  .object [("count", .number (.integer t.count)), ("total", durationJson t.total),
    ("min", optional t.least), ("max", optional t.greatest)]

end TimingStats
end Recast
