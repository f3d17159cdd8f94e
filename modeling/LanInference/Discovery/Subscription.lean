/-
# Subscriptions to snapshots

Published snapshots go to all subscribers through a buffer of 16. A subscriber sees the snapshot at
its subscription first and then every published one in order; one that falls behind by more than the
buffer sees the newest 16.

Key definitions: `Subscription`, `Subscription.push`, `Subscription.poll`.
-/
import LanInference.Discovery.Endpoint

namespace LanInference

abbrev Snapshot := List Endpoint

/-- The snapshots that the buffer holds for one subscriber. -/
def subscriptionBuffer : Nat := 16

/-- A subscription: the snapshot it starts with, until that is yielded, and the published snapshots
that wait, the oldest first. -/
structure Subscription where
  first : Option Snapshot
  waiting : List Snapshot := []
  deriving DecidableEq, Repr

namespace Subscription

/-- A subscription made while this is the current snapshot. -/
def start (current : Snapshot) : Subscription := { first := some current }

/-- A snapshot is published. Of more than the buffer holds only the newest wait. -/
def push (s : Subscription) (snapshot : Snapshot) : Subscription :=
  let all := s.waiting ++ [snapshot]
  { s with waiting := all.drop (all.length - subscriptionBuffer) }

/-- Everything that the subscription yields now. -/
def poll (s : Subscription) : Subscription × List Snapshot :=
  ({ first := none }, s.first.toList ++ s.waiting)

end Subscription
end LanInference
