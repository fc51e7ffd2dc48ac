import Mathlib.Data.List.Basic
import Mathlib.Tactic.TypeStar

/-!
# Bounded channels

A queue of limited length between one sender and one receiver.  A full channel
makes the sender wait and an empty one the receiver.  Each side learns when the
other one has been dropped: the receiver only after it has taken everything,
the sender at its next item.
-/

namespace TelemetryEdge

/-- A queue of at most `capacity` items, oldest first. -/
structure Channel (α : Type*) (capacity : Nat) where
  items : List α
  bounded : items.length ≤ capacity
  senderDropped : Bool
  receiverDropped : Bool

namespace Channel

variable {capacity : Nat}

/-- A channel with nothing in it and both ends in use. -/
def empty : Channel α capacity where
  items := []
  bounded := Nat.zero_le capacity
  senderDropped := false
  receiverDropped := false

/-- Send an item: it is refused when there is no receiver, and the sender waits
while the channel is full. -/
def send? (channel : Channel α capacity) (item : α) :
    Option (Except α (Channel α capacity)) :=
  if channel.receiverDropped then some (.error item)
  else if room : channel.items.length < capacity then
    some (.ok
      { channel with
        items := channel.items ++ [item]
        bounded := by
          rw [List.length_append, List.length_singleton]
          exact room })
  else none

/-- Receive the oldest item.  The receiver waits while the channel is empty,
unless the sender has been dropped. -/
def receive? (channel : Channel α capacity) :
    Option (Option (α × Channel α capacity)) :=
  match held : channel.items with
  | item :: rest =>
      some (some (item,
        { channel with
          items := rest
          bounded := by
            have bounded := channel.bounded
            rw [held, List.length_cons] at bounded
            exact Nat.le_of_succ_le bounded }))
  | [] => if channel.senderDropped then some none else none

/-- The sender is gone: nothing more comes. -/
def dropSender (channel : Channel α capacity) : Channel α capacity :=
  { channel with senderDropped := true }

/-- The receiver is gone: nothing more is taken. -/
def dropReceiver (channel : Channel α capacity) : Channel α capacity :=
  { channel with receiverDropped := true }

/-- An item that has been sent is the newest one. -/
theorem send?_eq_ok
    {channel next : Channel α capacity}
    {item : α}
    (sent : channel.send? item = some (.ok next)) :
    channel.receiverDropped = false ∧
      next.items = channel.items ++ [item] ∧
      next.senderDropped = channel.senderDropped ∧
      next.receiverDropped = channel.receiverDropped := by
  unfold send? at sent
  split at sent
  · cases sent
  · next present =>
      split at sent
      · cases sent
        exact ⟨eq_false_of_ne_true present, rfl, rfl, rfl⟩
      · cases sent

/-- An item is handed back only when there is no receiver. -/
theorem send?_eq_error
    {channel : Channel α capacity}
    {item returned : α}
    (refused : channel.send? item = some (.error returned)) :
    channel.receiverDropped = true ∧ returned = item := by
  unfold send? at refused
  split at refused
  · next dropped =>
      cases refused
      exact ⟨dropped, rfl⟩
  · split at refused <;> cases refused

/-- Whoever waits to send waits for room. -/
theorem send?_eq_none
    {channel : Channel α capacity}
    {item : α}
    (waits : channel.send? item = none) :
    capacity ≤ channel.items.length := by
  unfold send? at waits
  split at waits
  · cases waits
  · split at waits
    · cases waits
    · next full => exact Nat.le_of_not_lt full

/-- What has been received was the oldest item. -/
theorem receive?_eq_some
    {channel next : Channel α capacity}
    {item : α}
    (received : channel.receive? = some (some (item, next))) :
    channel.items = item :: next.items ∧
      next.senderDropped = channel.senderDropped ∧
      next.receiverDropped = channel.receiverDropped := by
  unfold receive? at received
  split at received
  · next rest held =>
      cases received
      exact ⟨held, rfl, rfl⟩
  · split at received <;> cases received

/-- The receiver sees the close only on an empty channel. -/
theorem receive?_eq_closed
    {channel : Channel α capacity}
    (closed : channel.receive? = some none) :
    channel.items = [] ∧ channel.senderDropped = true := by
  unfold receive? at closed
  split at closed
  · cases closed
  · next held =>
      split at closed
      · next dropped => exact ⟨held, dropped⟩
      · cases closed

/-- Whoever waits to receive waits for the sender. -/
theorem receive?_eq_none
    {channel : Channel α capacity}
    (waits : channel.receive? = none) :
    channel.items = [] ∧ channel.senderDropped = false := by
  unfold receive? at waits
  split at waits
  · cases waits
  · next held =>
      split at waits
      · cases waits
      · next present => exact ⟨held, eq_false_of_ne_true present⟩

/-- What has been produced is, in order, what has been consumed, what is in the
channel and what is still to be sent. -/
def Conserves
    (produced consumed : List α)
    (channel : Channel α capacity)
    (pending : List α) : Prop :=
  produced = consumed ++ channel.items ++ pending

namespace Conserves

variable {produced consumed pending : List α}
variable {channel next : Channel α capacity}

theorem empty :
    Conserves [] [] (Channel.empty : Channel α capacity) [] := rfl

/-- New items wait behind nothing. -/
theorem produce
    (conserves : Conserves produced consumed channel [])
    (items : List α) :
    Conserves (produced ++ items) consumed channel items := by
  unfold Conserves at conserves ⊢
  rw [conserves, List.append_nil]

/-- Sending moves the first waiting item into the channel. -/
theorem send
    {item : α}
    (conserves : Conserves produced consumed channel (item :: pending))
    (sent : channel.send? item = some (.ok next)) :
    Conserves produced consumed next pending := by
  obtain ⟨-, items, -⟩ := send?_eq_ok sent
  unfold Conserves at conserves ⊢
  rw [conserves, items, List.append_assoc, List.append_assoc, List.append_assoc,
    List.singleton_append]

/-- Receiving moves the oldest item out of the channel. -/
theorem receive
    {item : α}
    (conserves : Conserves produced consumed channel pending)
    (received : channel.receive? = some (some (item, next))) :
    Conserves produced (consumed ++ [item]) next pending := by
  obtain ⟨items, -⟩ := receive?_eq_some received
  unfold Conserves at conserves ⊢
  rw [conserves, items, List.append_cons]

/-- Conservation speaks of the items in the channel only. -/
theorem of_items_eq
    (conserves : Conserves produced consumed channel pending)
    (same : next.items = channel.items) :
    Conserves produced consumed next pending := by
  unfold Conserves
  rw [same]
  exact conserves

/-- Once nothing is left on the way, everything has been consumed. -/
theorem drained
    (conserves : Conserves produced consumed channel [])
    (nothing : channel.items = []) :
    consumed = produced := by
  unfold Conserves at conserves
  rw [conserves, nothing, List.append_nil, List.append_nil]

end Conserves

end Channel
end TelemetryEdge
