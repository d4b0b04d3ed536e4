import SystemProgramming.Library.Buffer

namespace PeerAddress

variable {β : Type*} {size : Nat}

abbrev Address (β : Type*) (size : Nat) := { bytes : List β // bytes.length = size }

/-- A variable for an address with the length that goes with it: a receive fills the variable up to
    that length, and then sets the length to that of the address. -/
structure Holder (β : Type*) where
  bytes : List β
  length : Nat

namespace Holder

def store (holder : Holder β) (address : Address β size) : Holder β where
  bytes := Buffer.overwrite (address.val.take holder.length) holder.bytes
  length := address.val.length

def peer (size : Nat) (holder : Holder β) : Option (Address β size) :=
  if whole : (holder.bytes.take holder.length).length = size then
    some ⟨holder.bytes.take holder.length, whole⟩
  else none

@[simp] theorem length_store (holder : Holder β) (address : Address β size) :
    (holder.store address).length = size := address.property

theorem peer_store {holder : Holder β} (address : Address β size) (room : size ≤ holder.length) :
    (holder.store address).peer size = some address := by
  have fits : address.val.take holder.length = address.val :=
    List.take_of_length_le (address.property.trans_le room)
  have stored : (holder.store address).bytes.take (holder.store address).length = address.val := by
    simp only [store, fits, Buffer.take_overwrite]
  simp only [peer, stored, address.property, dif_pos]

end Holder

end PeerAddress
