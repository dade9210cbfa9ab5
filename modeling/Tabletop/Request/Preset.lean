import Tabletop.Request.Basic
import Tabletop.Sheet.Item
/-!
# Requests of quick rolls
-/

namespace Tabletop

/-- One request per damage line whose flag is set; the first line may be versatile. The flags are
those of the lines from `index` on. -/
def damageRequests (versatile : Bool) (index : Nat) : List Bool → List RollRequest
  | [] => []
  | flag :: flags =>
    let rest := damageRequests versatile (index + 1) flags
    if flag then
      .damage { index := .index (UInt64.ofNat index), versatile := index == 0 && versatile } :: rest
    else rest

/-- A request if a condition holds. -/
def requestIf (condition : Bool) (request : RollRequest) : List RollRequest :=
  if condition then [request] else []

/-- What a quick roll asks for. What the item cannot do is left out, except for damage lines. -/
def QuickRollFlags.requests (flags : QuickRollFlags) (item : Item) : List RollRequest :=
  requestIf (flags.flavor && item.chatFlavor.isSome) (.flavor none) ++
  requestIf flags.description .description ++
  requestIf (flags.attack && item.isAttack) (.attack {}) ++
  requestIf (flags.check && item.isCheck) (.check {}) ++
  requestIf (flags.save && item.hasSave) (.saveDc {}) ++
  damageRequests flags.versatile 0 flags.damage ++
  requestIf flags.other .other

/-- The parameters and requests of a quick roll. An item without quick rolls shows its description
and its properties. -/
def Item.quickRoll (item : Item) (preset : Preset) : RollParams × List RollRequest :=
  match item.presets with
  | none => ({ properties := true }, [.description])
  | some presets =>
    let flags := presets.flags preset
    ({ properties := flags.properties, consume := flags.consume, useTemplate := flags.template },
      flags.requests item)

end Tabletop
