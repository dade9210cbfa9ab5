import Tabletop.Codec.Sheet
import Tabletop.Request.Basic
/-!
# Requests as documents

A request is a record whose field `kind` says which one it is. A selector of damage lines is an
integer, a list of integers, or the word `all`.
-/

namespace Tabletop

def CritBehavior.toDocument : CritBehavior → Document
  | none => .string "none"
  | bonusDiceOnly => .string "bonus_dice_only"
  | maximizeBase => .string "maximize_base"
  | maximizeBoth => .string "maximize_both"

def CritOverride.toDocument : CritOverride → Document
  | auto => .string "auto"
  | always => .string "always"
  | never => .string "never"

def RollState.toDocument : RollState → Document
  | adv => .string "adv"
  | disadv => .string "disadv"

def Document.ofWord32 (w : UInt32) : Document := .ofNat w.toNat

def Document.ofWord64 (w : UInt64) : Document := .ofNat w.toNat

def DamageSelector.toDocument : DamageSelector → Document
  | index i => .ofWord64 i
  | indices list => .ofList .ofWord64 list
  | all => .string "all"

namespace RollRequest

/-- The entries of a request besides its kind. -/
def fields : RollRequest → List (String × Document)
  | attack a =>
    [("adv", .ofOption .ofWord32 a.adv), ("disadv", .ofOption .ofWord32 a.disadv),
      ("bonus", .ofOption .string a.bonus), ("triggers_crit", .bool a.triggersCrit),
      ("crit_threshold", .ofOption .ofWord32 a.critThreshold)]
  | check a =>
    [("adv", .ofOption .ofWord32 a.adv), ("disadv", .ofOption .ofWord32 a.disadv),
      ("bonus", .ofOption .string a.bonus), ("triggers_crit", .bool a.triggersCrit),
      ("crit_threshold", .ofOption .ofWord32 a.critThreshold),
      ("title", .ofOption .string a.title)]
  | damage a =>
    [("index", a.index.toDocument), ("versatile", .bool a.versatile), ("crit", a.crit.toDocument),
      ("context", .ofOption .string a.context)]
  | saveDc a =>
    [("ability", .ofOption Ability.toDocument a.ability), ("dc", .ofOption .ofWord32 a.dc)]
  | other => []
  | custom a =>
    [("title", .ofOption .string a.title), ("formula", .string a.formula),
      ("rolls", .ofWord32 a.rolls), ("roll_state", .ofOption RollState.toDocument a.rollState)]
  | text t => [("text", .string t)]
  | flavor t => [("text", .ofOption .string t)]
  | description => []
  | critExtra i => [("index", .ofOption .ofWord64 i)]

def toDocument (r : RollRequest) : Document := .object (("kind", .string r.name) :: r.fields)

end RollRequest

def RollParams.toDocument (p : RollParams) : Document :=
  .object [("adv", .ofNat p.adv), ("disadv", .ofNat p.disadv),
    ("slot_level", .ofOption .ofNat p.slotLevel), ("versatile", .bool p.versatile),
    ("consume", p.consume.toDocument), ("use_template", .bool p.useTemplate),
    ("crit_behavior", .ofOption CritBehavior.toDocument p.critBehavior),
    ("title", .ofOption .string p.title), ("properties", .bool p.properties)]

namespace Decode

def critBehavior : Decoder CritBehavior :=
  choice fun
    | "none" => some .none
    | "bonus_dice_only" => some .bonusDiceOnly
    | "maximize_base" => some .maximizeBase
    | "maximize_both" => some .maximizeBoth
    | _ => none

def critOverride : Decoder CritOverride :=
  choice fun
    | "auto" => some .auto
    | "always" => some .always
    | "never" => some .never
    | _ => none

def rollState : Decoder RollState :=
  choice fun
    | "adv" => some .adv
    | "disadv" => some .disadv
    | _ => none

/-- The form of a selector tells what it is. -/
def damageSelector : Decoder DamageSelector
  | dialect, .integer n => (word64 dialect (.integer n)).map .index
  | dialect, .array items => (list word64 dialect (.array items)).map .indices
  | _, .string name => if name = "all" then some .all else none
  | _, .object [("all", .null)] => some .all
  | _, _ => none

def attackArgs : Reading AttackArgs := do
  let adv ← optional "adv" word32
  let disadv ← optional "disadv" word32
  let bonus ← optional "bonus" string
  let triggersCrit ← withDefault "triggers_crit" bool true
  let critThreshold ← optional "crit_threshold" word32
  return { adv, disadv, bonus, triggersCrit, critThreshold }

def checkArgs : Reading CheckArgs := do
  let adv ← optional "adv" word32
  let disadv ← optional "disadv" word32
  let bonus ← optional "bonus" string
  let triggersCrit ← withDefault "triggers_crit" bool true
  let critThreshold ← optional "crit_threshold" word32
  let title ← optional "title" string
  return { adv, disadv, bonus, triggersCrit, critThreshold, title }

def damageArgs : Reading DamageArgs := do
  let index ← withDefault "index" damageSelector .all
  let versatile ← withDefault "versatile" bool false
  let crit ← withDefault "crit" critOverride .auto
  let context ← optional "context" string
  return { index, versatile, crit, context }

def saveDcArgs : Reading SaveDcArgs := do
  let ability ← optional "ability" ability
  let dc ← optional "dc" word32
  return { ability, dc }

def customArgs : Reading CustomArgs := do
  let title ← optional "title" string
  let formula ← withDefault "formula" string "1d20"
  let rolls ← withDefault "rolls" word32 1
  let rollState ← optional "roll_state" rollState
  return { title, formula, rolls, rollState }

/-- The reader of the fields of a request of a kind. -/
def requestFields? : String → Option (Reading RollRequest)
  | "attack" => some do return .attack (← attackArgs)
  | "check" => some do return .check (← checkArgs)
  | "damage" => some do return .damage (← damageArgs)
  | "save_dc" => some do return .saveDc (← saveDcArgs)
  | "other" => some (return .other)
  | "custom" => some do return .custom (← customArgs)
  | "text" => some do return .text (← required "text" string)
  | "flavor" => some do return .flavor (← optional "text" string)
  | "description" => some (return .description)
  | "crit_extra" => some do return .critExtra (← optional "index" word64)
  | _ => none

def rollRequest : Decoder RollRequest := taggedRecord "kind" requestFields?

def rollParams : Decoder RollParams :=
  record do
    let adv ← withDefault "adv" nat32 0
    let disadv ← withDefault "disadv" nat32 0
    let slotLevel ← optional "slot_level" nat8
    let versatile ← withDefault "versatile" bool false
    let consume ← withDefault "consume" consumptionRequest {}
    let useTemplate ← withDefault "use_template" bool false
    let critBehavior ← optional "crit_behavior" critBehavior
    let title ← optional "title" string
    let properties ← withDefault "properties" bool false
    return { adv, disadv, slotLevel, versatile, consume, useTemplate, critBehavior, title,
             properties }

end Decode

end Tabletop
