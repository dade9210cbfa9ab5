import Tabletop.Request.Basic
import Tabletop.Run.Error
import Tabletop.Sheet.Item
/-!
# Plans

The requests of a run, turned into steps that each roll one damage line or do something else. Every
damage line that is asked for is checked here, before any die is rolled.
-/

namespace Tabletop

/-- Whose damage line a step rolls. -/
inductive Target where
  | primary
  | ammo
deriving DecidableEq

/-- The roll of one damage line. -/
structure DamageStep where
  index : Nat
  versatile : Bool
  crit : CritOverride
  context : Option String
  target : Target
deriving DecidableEq

inductive Step where
  | request (request : RollRequest)
  | damage (step : DamageStep)
deriving DecidableEq

namespace Plan

/-- Refuses a damage line that the item does not have. -/
def checkIndex (item : Item) (index : Nat) : Except RollError Unit :=
  if index < item.damage.parts.length then .ok ()
  else .error (.damageIndexOutOfRange item.name index item.damage.parts.length)

/-- The selected lines of an item with so many damage lines. -/
def selected (lines : Nat) : DamageSelector → List Nat
  | .index i => [i.toNat]
  | .indices is => is.map UInt64.toNat
  | .all => List.range lines

/-- One step per line. The first line of the request is versatile if the request says so, and line
zero if the run says so. -/
def primarySteps (item : Item) (args : DamageArgs) (versatile first : Bool) :
    List Nat → Except RollError (List Step)
  | [] => .ok []
  | index :: rest => do
    checkIndex item index
    let step : DamageStep :=
      ⟨index, (args.versatile && first) || (versatile && index == 0), args.crit, args.context,
        .primary⟩
    return .damage step :: (← primarySteps item args versatile false rest)

/-- One step per damage line of the ammunition, labelled with its name. -/
def ammoSteps (ammo : Item) (args : DamageArgs) : List Step :=
  (List.range ammo.damage.parts.length).map fun index =>
    .damage ⟨index, false, args.crit, some ("[" ++ ammo.name ++ "]"), .ammo⟩

/-- The steps of the requests in order. The steps of the ammunition come right behind those of the
first damage request, and nowhere else. -/
def requestSteps (item : Item) (versatile : Bool) : (ammo : Option Item) → List RollRequest →
    Except RollError (List Step)
  | _, [] => .ok []
  | ammo, .damage args :: requests => do
    let primary ← primarySteps item args versatile true
      (selected item.damage.parts.length args.index)
    let fired := ammo.elim [] (ammoSteps · args)
    return primary ++ fired ++ (← requestSteps item versatile none requests)
  | ammo, .critExtra (some index) :: requests => do
    checkIndex item index.toNat
    return .request (.critExtra (some index)) :: (← requestSteps item versatile ammo requests)
  | ammo, request :: requests => do
    return .request request :: (← requestSteps item versatile ammo requests)

/-- The whole plan; the extra damage line of the item is checked too. -/
def expand (requests : List RollRequest) (item : Item) (ammo : Option Item) (versatile : Bool) :
    Except RollError (List Step) := do
  if let some index := item.crit.extraDamage then checkIndex item index
  requestSteps item versatile ammo requests

end Plan

end Tabletop
