import Tabletop.Codec.Request
import Tabletop.Codec.Rolls
import Tabletop.Run.ActorRoll
import Tabletop.Run.Host
import Tabletop.Run.Result
/-!
# Runs as documents

Configurations, slot choices, and the results of runs. An entry of a result is a record whose field
`type` says which one it is.
-/

namespace Tabletop

/-! ## Configuration -/

def Placement.toDocument : Placement → Document
  | hidden => .string "hidden"
  | top => .string "top"
  | middle => .string "middle"
  | bottom => .string "bottom"

def HideDc.toDocument : HideDc → Document
  | never => .string "never"
  | npcOnly => .string "npc_only"
  | always => .string "always"

def PipelineConfig.toDocument (c : PipelineConfig) : Document :=
  .object [("multi_roll_count", .ofNat c.multiRollCount),
    ("crit_behavior", c.critBehavior.toDocument),
    ("roll_title_placement", c.rollTitlePlacement.toDocument),
    ("damage_title_placement", c.damageTitlePlacement.toDocument),
    ("damage_roll_placement", c.damageRollPlacement.toDocument),
    ("damage_context_placement", c.damageContextPlacement.toDocument),
    ("context_replaces_title", .bool c.contextReplacesTitle),
    ("context_replaces_damage", .bool c.contextReplacesDamage),
    ("crit_string", .string c.critString), ("hide_dc", c.hideDc.toDocument)]

def SlotChoice.toDocument (c : SlotChoice) : Document :=
  .object [("level", c.level.toDocument), ("consume_slot", .bool c.consumeSlot),
    ("place_template", .bool c.placeTemplate)]

def ActorRollArgs.toDocument (a : ActorRollArgs) : Document :=
  .object [("adv", .ofNat a.adv), ("disadv", .ofNat a.disadv),
    ("crit_threshold", .ofOption .ofNat a.critThreshold)]

namespace Decode

def placement : Decoder Placement :=
  choice fun
    | "hidden" => some .hidden
    | "top" => some .top
    | "middle" => some .middle
    | "bottom" => some .bottom
    | _ => none

def hideDc : Decoder HideDc :=
  choice fun
    | "never" => some .never
    | "npc_only" => some .npcOnly
    | "always" => some .always
    | _ => none

def pipelineConfig : Decoder PipelineConfig :=
  record do
    let multiRollCount ← withDefault "multi_roll_count" nat32 1
    let critBehavior ← withDefault "crit_behavior" critBehavior .bonusDiceOnly
    let rollTitlePlacement ← withDefault "roll_title_placement" placement .top
    let damageTitlePlacement ← withDefault "damage_title_placement" placement .top
    let damageRollPlacement ← withDefault "damage_roll_placement" placement .top
    let damageContextPlacement ← withDefault "damage_context_placement" placement .top
    let contextReplacesTitle ← withDefault "context_replaces_title" bool true
    let contextReplacesDamage ← withDefault "context_replaces_damage" bool false
    let critString ← withDefault "crit_string" string "Crit"
    let hideDc ← withDefault "hide_dc" hideDc .never
    return { multiRollCount, critBehavior, rollTitlePlacement, damageTitlePlacement,
             damageRollPlacement, damageContextPlacement, contextReplacesTitle,
             contextReplacesDamage, critString, hideDc }

def slotChoice : Decoder SlotChoice :=
  record do
    let level ← required "level" slotLevel
    let consumeSlot ← required "consume_slot" bool
    let placeTemplate ← required "place_template" bool
    return { level, consumeSlot, placeTemplate }

def actorRollArgs : Decoder ActorRollArgs :=
  record do
    let adv ← withDefault "adv" nat32 0
    let disadv ← withDefault "disadv" nat32 0
    let critThreshold ← optional "crit_threshold" nat32
    return { adv, disadv, critThreshold }

end Decode

/-! ## Results -/

def DamageLabels.toDocument (l : DamageLabels) : Document :=
  .object [("top", .ofOption .string l.top), ("middle", .ofOption .string l.middle),
    ("bottom", .ofOption .string l.bottom)]

def RollEntry.fields (e : RollEntry) : List (String × Document) :=
  [("title", .ofOption .string e.title), ("outcome", e.outcome.toDocument)]

def RollEntry.toDocument (e : RollEntry) : Document := .object e.fields

def DamageEntry.fields (e : DamageEntry) : List (String × Document) :=
  [("labels", e.labels.toDocument),
    ("damage_type", .ofOption DamageType.toDocument e.damageType), ("versatile", .bool e.versatile),
    ("base", e.base.toDocument), ("crit", .ofOption EvaluatedRoll.toDocument e.crit),
    ("crit_label", .ofOption .string e.critLabel), ("max_base", .integer e.maxBase),
    ("max_crit", .ofOption .integer e.maxCrit)]

def SaveDcEntry.fields (e : SaveDcEntry) : List (String × Document) :=
  [("ability", e.ability.toDocument), ("dc", .ofNat e.dc), ("hidden", .bool e.hidden)]

def ResultEntry.toDocument (e : ResultEntry) : Document :=
  let tagged (type : String) (fields : List (String × Document)) : Document :=
    .object (("type", .string type) :: fields)
  match e with
  | attack r => tagged "attack" r.fields
  | check r => tagged "check" r.fields
  | custom r => tagged "custom" r.fields
  | damage d => tagged "damage" d.fields
  | other d => tagged "other" d.fields
  | saveDc s => tagged "save_dc" s.fields
  | text t => tagged "text" [("text", .string t)]
  | flavor t => tagged "flavor" [("text", .string t)]

def ConsumeOutcome.toDocument : ConsumeOutcome → Document
  | success => .string "success"
  | destroy => .string "destroy"

def CompositeResult.toDocument (r : CompositeResult) : Document :=
  .object [("item_id", .string r.itemId), ("item_name", .string r.itemName),
    ("title", .string r.title), ("slot_level", .ofOption .ofNat r.slotLevel),
    ("is_crit", .bool r.isCrit), ("entries", .ofList ResultEntry.toDocument r.entries),
    ("properties", .ofList .string r.properties),
    ("dice_pool", .ofList EvaluatedRoll.toDocument r.dicePool),
    ("consumption", r.consumption.toDocument)]

namespace Decode

def damageLabels : Decoder DamageLabels :=
  record do
    let top ← nullable "top" string
    let middle ← nullable "middle" string
    let bottom ← nullable "bottom" string
    return { top, middle, bottom }

def rollEntry : Reading RollEntry := do
  let title ← nullable "title" string
  let outcome ← required "outcome" multiRollOutcome
  return { title, outcome }

def damageEntry : Reading DamageEntry := do
  let labels ← required "labels" damageLabels
  let damageType ← nullable "damage_type" damageType
  let versatile ← required "versatile" bool
  let base ← required "base" evaluatedRoll
  let crit ← nullable "crit" evaluatedRoll
  let critLabel ← nullable "crit_label" string
  let maxBase ← required "max_base" int64
  let maxCrit ← nullable "max_crit" int64
  return { labels, damageType, versatile, base, crit, critLabel, maxBase, maxCrit }

def saveDcEntry : Reading SaveDcEntry := do
  let ability ← required "ability" ability
  let dc ← required "dc" nat32
  let hidden ← required "hidden" bool
  return { ability, dc, hidden }

/-- The reader of the fields of an entry of a kind. -/
def entryFields? : String → Option (Reading ResultEntry)
  | "attack" => some do return .attack (← rollEntry)
  | "check" => some do return .check (← rollEntry)
  | "custom" => some do return .custom (← rollEntry)
  | "damage" => some do return .damage (← damageEntry)
  | "other" => some do return .other (← damageEntry)
  | "save_dc" => some do return .saveDc (← saveDcEntry)
  | "text" => some do return .text (← required "text" string)
  | "flavor" => some do return .flavor (← required "text" string)
  | _ => none

def resultEntry : Decoder ResultEntry := taggedRecord "type" entryFields?

def consumeOutcome : Decoder ConsumeOutcome :=
  choice fun
    | "success" => some .success
    | "destroy" => some .destroy
    | _ => none

def compositeResult : Decoder CompositeResult :=
  record do
    let itemId ← required "item_id" string
    let itemName ← required "item_name" string
    let title ← required "title" string
    let slotLevel ← nullable "slot_level" nat8
    let isCrit ← required "is_crit" bool
    let entries ← required "entries" (list resultEntry)
    let properties ← required "properties" (list string)
    let dicePool ← required "dice_pool" (list evaluatedRoll)
    let consumption ← required "consumption" consumeOutcome
    return { itemId, itemName, title, slotLevel, isCrit, entries, properties, dicePool,
             consumption }

end Decode

end Tabletop
