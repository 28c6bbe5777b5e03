import LogPager.View

/-!
# Views sent to subscribers

Every change of the published view is sent to all subscribers.  A subscriber
that arrives later first gets the view published last.
-/

namespace LogPager

/-- The sending and the receiving end of one subscription. -/
structure Channel where
  /-- Views sent and not yet taken, oldest first. -/
  inbox : List View := []
  /-- The subscriber still holds the receiving end. -/
  receiving : Bool := true
  /-- The sender still counts the subscription. -/
  counted : Bool := true
deriving DecidableEq, Repr

/-- All subscriptions, in the order they were made, and the view published
last. -/
structure Broadcast where
  channels : List Channel := []
  lastPublished : Option View := none
deriving DecidableEq, Repr

namespace Channel

/-- Send a view.  A subscription whose receiving end is gone is no longer
counted. -/
def send (channel : Channel) (view : View) : Channel :=
  if channel.counted then
    if channel.receiving then
      { channel with inbox := channel.inbox ++ [view] }
    else { channel with counted := false }
  else channel

end Channel

namespace Broadcast

/-- Add a subscription; its number is the count of those before. -/
def subscribe (broadcast : Broadcast) : Nat × Broadcast :=
  (broadcast.channels.length,
    { broadcast with
      channels := broadcast.channels ++
        [{ inbox := broadcast.lastPublished.toList }] })

def unsubscribe (broadcast : Broadcast) (subscriber : Nat) : Broadcast :=
  { broadcast with
    channels := broadcast.channels.modify subscriber fun channel =>
      { channel with receiving := false } }

/-- The views sent since the last taking, none once the receiving end is
gone. -/
def take (broadcast : Broadcast) (subscriber : Nat) :
    Option (List View) × Broadcast :=
  match broadcast.channels[subscriber]? with
  | none => (none, broadcast)
  | some channel =>
      if channel.receiving then
        (some channel.inbox,
          { broadcast with
            channels := broadcast.channels.set subscriber
              { channel with inbox := [] } })
      else (none, broadcast)

/-- Send a view to every subscriber, unless it is the one published last. -/
def publish (broadcast : Broadcast) (view : View) : Broadcast :=
  if broadcast.lastPublished = some view then broadcast
  else {
    channels := broadcast.channels.map (·.send view)
    lastPublished := some view }

def subscriberCount (broadcast : Broadcast) : Nat :=
  broadcast.channels.countP (·.counted)

end Broadcast
end LogPager
