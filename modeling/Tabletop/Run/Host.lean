import Tabletop.Sheet.Item
import Tabletop.Sheet.SpellSlots
/-!
# Hosts

What a run needs from the place where it happens: an answer to the question for a spell slot, a
consumer of linked resources, and a placer of area templates.
-/

namespace Tabletop

/-- The slot that a spell is cast with. -/
structure SlotChoice where
  level : SlotLevel
  /-- Whether a slot is spent. -/
  consumeSlot : Bool
  /-- Whether the template of the spell is placed. -/
  placeTemplate : Bool
deriving DecidableEq

namespace SlotChoice

/-- Spends a slot of a level, without a template. -/
def ofLevel (level : Nat) : SlotChoice := ⟨.level level, true, false⟩

/-- Spends a pact slot, without a template. -/
def pact : SlotChoice := ⟨.pact, true, false⟩

end SlotChoice

/-- States that spend the linked resource of an item. -/
class ResourceConsumer (η : Type) where
  /-- Whether the resource could be spent, and the state after it. -/
  consume : Item → η → Bool × η

/-- States that can be asked for all that a run needs. -/
class RollHost (η : Type) extends ResourceConsumer η where
  /-- The slot to cast a spell with, unless the choice is cancelled. -/
  choose : Item → η → Option SlotChoice × η
  /-- Places the template of an item. -/
  place : Item → η → η

/-- A host with fixed answers, which keeps a record of what it was asked. -/
structure StaticHost where
  /-- The answer to every question for a slot. -/
  slotChoice : Option SlotChoice := none
  allowConsumption : Bool := true
  /-- The number of questions for a slot. -/
  dialogs : Nat := 0
  /-- The ids of items whose linked resource was spent. -/
  consumed : List String := []
  /-- The ids of items whose template was placed. -/
  placed : List String := []
deriving DecidableEq

namespace StaticHost

def choose (_ : Item) (h : StaticHost) : Option SlotChoice × StaticHost :=
  (h.slotChoice, { h with dialogs := h.dialogs + 1 })

def consume (item : Item) (h : StaticHost) : Bool × StaticHost :=
  (h.allowConsumption,
    if h.allowConsumption then { h with consumed := h.consumed ++ [item.id] } else h)

def place (item : Item) (h : StaticHost) : StaticHost := { h with placed := h.placed ++ [item.id] }

end StaticHost

instance : RollHost StaticHost where
  consume := StaticHost.consume
  choose := StaticHost.choose
  place := StaticHost.place

end Tabletop
