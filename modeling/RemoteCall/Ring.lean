import RemoteCall.Hashing

/-!
# The ring of connections

Requests are spread over connections by consistent hashing. A ring assigns owners to positions; a
request goes to the owner of the first position at or after its own, or of the least position when
there is none. A connection takes ten positions, which follow from its name, so a new connection
under the same name takes over exactly the requests of the old one.

`Ring.owner?` is the view of a ring as a function from positions to owners.
-/

namespace RemoteCall

/-- Owners at positions, in the order of the positions. -/
structure Ring (α : Type) where
  slots : List (UInt64 × α)

namespace Ring

variable {α : Type}

/-- A ring without positions. -/
def empty : Ring α := ⟨[]⟩

instance : Inhabited (Ring α) := ⟨empty⟩

/-- The number of positions that a connection takes. -/
def positionsPerConnection : Nat := 10

/-- The positions of the connection of this name. -/
def positionsFor (name : String) : List UInt64 :=
  (List.range positionsPerConnection).map (slotPosition name)

/-- The owner of a position. -/
def owner? (r : Ring α) (position : UInt64) : Option α :=
  (r.slots.find? fun s => s.1 == position).map Prod.snd

/-- Puts an owner into an ordered list of positions, in place of an earlier one. -/
def setSlot (position : UInt64) (owner : α) : List (UInt64 × α) → List (UInt64 × α)
  | [] => [(position, owner)]
  | s :: rest =>
    if position < s.1 then (position, owner) :: s :: rest
    else if position = s.1 then (position, owner) :: rest
    else s :: setSlot position owner rest

/-- Gives all the positions to an owner. -/
def replace (r : Ring α) (positions : List UInt64) (owner : α) : Ring α :=
  ⟨positions.foldl (fun slots p => setSlot p owner slots) r.slots⟩

/-- Gives an owner the positions of the connection of this name. -/
def insert (r : Ring α) (name : String) (owner : α) : Ring α :=
  r.replace (positionsFor name) owner

/-- Takes the positions from an owner; those that are not its own stay as they are. -/
def remove [DecidableEq α] (r : Ring α) (positions : List UInt64) (owner : α) : Ring α :=
  ⟨r.slots.filter fun s => ¬ (s.1 ∈ positions ∧ s.2 = owner)⟩

/-- The owner of the first position at or after the given one, or of the least position. -/
def pickAt (r : Ring α) (position : UInt64) : Option α :=
  ((r.slots.find? fun s => position ≤ s.1) <|> r.slots.head?).map Prod.snd

/-- The owner that a request goes to. -/
def pick (r : Ring α) (request : RequestId) : Option α :=
  r.pickAt (requestPosition request)

/-- The owners in the order of their first positions, each once. -/
def owners [DecidableEq α] (r : Ring α) : List α :=
  r.slots.foldl (fun seen s => if s.2 ∈ seen then seen else seen ++ [s.2]) []

/-- The number of positions. -/
def size (r : Ring α) : Nat :=
  r.slots.length

/-- There are no positions. -/
def isEmpty (r : Ring α) : Bool :=
  r.slots.isEmpty

end Ring

end RemoteCall
