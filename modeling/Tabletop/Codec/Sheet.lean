import Tabletop.Document.Decode
import Tabletop.Sheet.Actor
/-!
# Sheets as documents

Actors, items and all that stands on their sheets.
-/

namespace Tabletop

/-! ## Vocabularies -/

def Ability.toDocument (a : Ability) : Document := .string a.key

def ActionType.toDocument (a : ActionType) : Document := .string a.key

def DamageType.toDocument (t : DamageType) : Document := .string t.key

def ActorKind.toDocument : ActorKind → Document
  | character => .string "character"
  | npc => .string "npc"

def ItemKind.toDocument : ItemKind → Document
  | weapon => .string "weapon"
  | spell => .string "spell"
  | feat => .string "feat"
  | consumable => .string "consumable"
  | equipment => .string "equipment"
  | tool => .string "tool"
  | loot => .string "loot"

def ScalingMode.toDocument : ScalingMode → Document
  | none => .string "none"
  | cantrip => .string "cantrip"
  | level => .string "level"

def ConsumeKind.toDocument : ConsumeKind → Document
  | ammo => .string "ammo"
  | property => .string "attribute"
  | material => .string "material"
  | charges => .string "charges"

def SlotLevel.toDocument : SlotLevel → Document
  | level n => .object [("level", .ofNat n)]
  | pact => .string "pact"

namespace Decode

def ability : Decoder Ability := choice Ability.ofKey?

def actionType : Decoder ActionType := choice ActionType.ofKey?

def damageType : Decoder DamageType := choice DamageType.ofKey?

def actorKind : Decoder ActorKind :=
  choice fun
    | "character" => some .character
    | "npc" => some .npc
    | _ => none

def itemKind : Decoder ItemKind :=
  choice fun
    | "weapon" => some .weapon
    | "spell" => some .spell
    | "feat" => some .feat
    | "consumable" => some .consumable
    | "equipment" => some .equipment
    | "tool" => some .tool
    | "loot" => some .loot
    | _ => none

def scalingMode : Decoder ScalingMode :=
  choice fun
    | "none" => some .none
    | "cantrip" => some .cantrip
    | "level" => some .level
    | _ => none

def consumeKind : Decoder ConsumeKind :=
  choice fun
    | "ammo" => some .ammo
    | "attribute" => some .property
    | "material" => some .material
    | "charges" => some .charges
    | _ => none

def preset : Decoder Preset :=
  choice fun
    | "primary" => some .primary
    | "alternate" => some .alternate
    | _ => none

def slotLevel : Decoder SlotLevel :=
  variant fun
    | "level" => some (.inr fun dialect d => (nat8 dialect d).map .level)
    | "pact" => some (.inl .pact)
    | _ => none

end Decode

/-! ## Quick rolls -/

def ConsumptionRequest.toDocument (r : ConsumptionRequest) : Document :=
  .object [("use_charges", .bool r.useCharges), ("use_quantity", .bool r.useQuantity),
    ("use_recharge", .bool r.useRecharge), ("use_linked_resource", .bool r.useLinkedResource)]

def QuickRollFlags.toDocument (f : QuickRollFlags) : Document :=
  .object [("flavor", .bool f.flavor), ("description", .bool f.description),
    ("attack", .bool f.attack), ("check", .bool f.check), ("save", .bool f.save),
    ("damage", .ofList .bool f.damage), ("versatile", .bool f.versatile), ("other", .bool f.other),
    ("properties", .bool f.properties), ("consume", f.consume.toDocument),
    ("template", .bool f.template)]

def QuickRollPresets.toDocument (p : QuickRollPresets) : Document :=
  .object [("primary", p.primary.toDocument), ("alternate", p.alternate.toDocument),
    ("damage_context", .ofList (.ofOption .string) p.damageContext),
    ("other_context", .ofOption .string p.otherContext)]

namespace Decode

def consumptionRequest : Decoder ConsumptionRequest :=
  record do
    let useCharges ← withDefault "use_charges" bool false
    let useQuantity ← withDefault "use_quantity" bool false
    let useRecharge ← withDefault "use_recharge" bool false
    let useLinkedResource ← withDefault "use_linked_resource" bool false
    return { useCharges, useQuantity, useRecharge, useLinkedResource }

def quickRollFlags : Decoder QuickRollFlags :=
  record do
    let flavor ← withDefault "flavor" bool false
    let description ← withDefault "description" bool false
    let attack ← withDefault "attack" bool false
    let check ← withDefault "check" bool false
    let save ← withDefault "save" bool false
    let damage ← withDefault "damage" (list bool) []
    let versatile ← withDefault "versatile" bool false
    let other ← withDefault "other" bool false
    let properties ← withDefault "properties" bool false
    let consume ← withDefault "consume" consumptionRequest {}
    let template ← withDefault "template" bool false
    return { flavor, description, attack, check, save, damage, versatile, other, properties,
             consume, template }

def quickRollPresets : Decoder QuickRollPresets :=
  record do
    let primary ← withDefault "primary" quickRollFlags {}
    let alternate ← withDefault "alternate" quickRollFlags {}
    let damageContext ← withDefault "damage_context" (list (option string)) []
    let otherContext ← optional "other_context" string
    return { primary, alternate, damageContext, otherContext }

end Decode

/-! ## Items -/

def DamagePart.toDocument (p : DamagePart) : Document :=
  .object [("formula", .string p.formula),
    ("damage_type", .ofOption DamageType.toDocument p.damageType)]

def Damage.toDocument (d : Damage) : Document :=
  .object [("parts", .ofList DamagePart.toDocument d.parts),
    ("versatile", .ofOption .string d.versatile)]

def SaveSpec.toDocument (s : SaveSpec) : Document :=
  .object [("ability", s.ability.toDocument), ("dc", .ofOption .ofNat s.dc)]

def ScalingRule.toDocument (s : ScalingRule) : Document :=
  .object [("mode", s.mode.toDocument), ("formula", .string s.formula)]

def Uses.toDocument (u : Uses) : Document :=
  .object [("value", .ofNat u.value), ("max", .ofNat u.max), ("per", .ofOption .string u.per),
    ("auto_destroy", .bool u.autoDestroy)]

def Recharge.toDocument (r : Recharge) : Document :=
  .object [("value", .ofNat r.value), ("charged", .bool r.charged)]

def ConsumeTarget.toDocument (c : ConsumeTarget) : Document :=
  .object [("type", c.kind.toDocument), ("target", .string c.target), ("amount", .ofNat c.amount)]

def CritSettings.toDocument (c : CritSettings) : Document :=
  .object [("threshold", .ofOption .ofNat c.threshold),
    ("extra_damage", .ofOption .ofNat c.extraDamage), ("bonus_dice", .ofOption .string c.bonusDice)]

def Item.toDocument (i : Item) : Document :=
  .object [("id", .string i.id), ("name", .string i.name), ("kind", i.kind.toDocument),
    ("action_type", .ofOption ActionType.toDocument i.actionType),
    ("ability", .ofOption Ability.toDocument i.ability), ("proficient", .float i.proficient),
    ("finesse", .bool i.finesse), ("attack_bonus", .ofOption .string i.attackBonus),
    ("check_bonus", .ofOption .string i.checkBonus), ("damage", i.damage.toDocument),
    ("formula", .ofOption .string i.formula), ("chat_flavor", .ofOption .string i.chatFlavor),
    ("description", .string i.description), ("save", .ofOption SaveSpec.toDocument i.save),
    ("level", .ofNat i.level), ("scaling", i.scaling.toDocument), ("uses", i.uses.toDocument),
    ("quantity", .ofNat i.quantity), ("recharge", .ofOption Recharge.toDocument i.recharge),
    ("consume", .ofOption ConsumeTarget.toDocument i.consume), ("crit", i.crit.toDocument),
    ("area_target", .bool i.areaTarget), ("properties", .ofList .string i.properties),
    ("presets", .ofOption QuickRollPresets.toDocument i.presets)]

namespace Decode

def damagePart : Decoder DamagePart :=
  record do
    let formula ← required "formula" string
    let damageType ← optional "damage_type" damageType
    return { formula, damageType }

def damage : Decoder Damage :=
  record do
    let parts ← withDefault "parts" (list damagePart) []
    let versatile ← optional "versatile" string
    return { parts, versatile }

def saveSpec : Decoder SaveSpec :=
  record do
    let ability ← required "ability" ability
    let dc ← optional "dc" nat32
    return { ability, dc }

def scalingRule : Decoder ScalingRule :=
  record do
    let mode ← withDefault "mode" scalingMode .none
    let formula ← withDefault "formula" string ""
    return { mode, formula }

def uses : Decoder Uses :=
  record do
    let value ← withDefault "value" nat32 0
    let max ← withDefault "max" nat32 0
    let per ← optional "per" string
    let autoDestroy ← withDefault "auto_destroy" bool false
    return { value, max, per, autoDestroy }

def recharge : Decoder Recharge :=
  record do
    let value ← withDefault "value" nat8 0
    let charged ← withDefault "charged" bool false
    return { value, charged }

def consumeTarget : Decoder ConsumeTarget :=
  record do
    let kind ← required "type" consumeKind
    let target ← required "target" string
    let amount ← withDefault "amount" nat32 1
    return { kind, target, amount }

def critSettings : Decoder CritSettings :=
  record do
    let threshold ← optional "threshold" nat32
    let extraDamage ← optional "extra_damage" nat64
    let bonusDice ← optional "bonus_dice" string
    return { threshold, extraDamage, bonusDice }

/-- The fields of an item, which also stand beside others. -/
def itemFields : Reading Item := do
  let id ← required "id" string
  let name ← required "name" string
  let kind ← required "kind" itemKind
  let actionType ← optional "action_type" actionType
  let ability ← optional "ability" ability
  let proficient ← withDefault "proficient" float (.finite 0)
  let finesse ← withDefault "finesse" bool false
  let attackBonus ← optional "attack_bonus" string
  let checkBonus ← optional "check_bonus" string
  let damage ← withDefault "damage" damage {}
  let formula ← optional "formula" string
  let chatFlavor ← optional "chat_flavor" string
  let description ← withDefault "description" string ""
  let save ← optional "save" saveSpec
  let level ← withDefault "level" nat8 0
  let scaling ← withDefault "scaling" scalingRule {}
  let uses ← withDefault "uses" uses {}
  let quantity ← withDefault "quantity" nat32 1
  let recharge ← optional "recharge" recharge
  let consume ← optional "consume" consumeTarget
  let crit ← withDefault "crit" critSettings {}
  let areaTarget ← withDefault "area_target" bool false
  let properties ← withDefault "properties" (list string) []
  let presets ← optional "presets" quickRollPresets
  return { id, name, kind, actionType, ability, proficient, finesse, attackBonus, checkBonus,
           damage, formula, chatFlavor, description, save, level, scaling, uses, quantity,
           recharge, consume, crit, areaTarget, properties, presets }

def item : Decoder Item := record itemFields

end Decode

/-! ## Actors -/

def AbilityScore.toDocument (s : AbilityScore) : Document :=
  .object [("value", .integer s.value), ("save_proficiency", .float s.saveProficiency)]

def AbilityScores.toDocument (s : AbilityScores) : Document :=
  .object (Ability.all.map fun a => (a.key, (s.get a).toDocument))

def SlotPool.toDocument (p : SlotPool) : Document :=
  .object [("value", .ofNat p.value), ("max", .ofNat p.max)]

def PactSlots.toDocument (p : PactSlots) : Document :=
  .object [("value", .ofNat p.value), ("max", .ofNat p.max), ("level", .ofNat p.level)]

/-- The names of the pools of the levels one to nine. -/
def SpellSlots.poolNames : Vector String 9 :=
  #v["spell1", "spell2", "spell3", "spell4", "spell5", "spell6", "spell7", "spell8", "spell9"]

def SpellSlots.toDocument (s : SpellSlots) : Document :=
  .object (((poolNames.zipWith (fun name p => (name, SlotPool.toDocument p)) s.levels).toList) ++
    [("pact", s.pact.toDocument)])

def ActionBonus.toDocument (b : ActionBonus) : Document :=
  .object [("attack", .ofOption .string b.attack), ("damage", .ofOption .string b.damage)]

def ActorBonuses.toDocument (b : ActorBonuses) : Document :=
  .object [("mwak", b.meleeWeapon.toDocument), ("rwak", b.rangedWeapon.toDocument),
    ("msak", b.meleeSpell.toDocument), ("rsak", b.rangedSpell.toDocument),
    ("ability_check", .ofOption .string b.abilityCheck),
    ("ability_save", .ofOption .string b.abilitySave), ("skill", .ofOption .string b.skill)]

def ActorTraits.toDocument (t : ActorTraits) : Document :=
  .object [("halfling_lucky", .bool t.halflingLucky), ("elven_accuracy", .bool t.elvenAccuracy),
    ("savage_attacks", .bool t.savageAttacks), ("reliable_talent", .bool t.reliableTalent),
    ("jack_of_all_trades", .bool t.jackOfAllTrades)]

def Skill.toDocument (s : Skill) : Document :=
  .object [("ability", s.ability.toDocument), ("proficiency", .float s.proficiency),
    ("bonus", .integer s.bonus)]

def Actor.toDocument (a : Actor) : Document :=
  .object [("id", .string a.id), ("name", .string a.name), ("kind", a.kind.toDocument),
    ("level", .ofNat a.level), ("classes", .object (a.classes.entries.map fun c => (c.1, .ofNat c.2))),
    ("abilities", a.abilities.toDocument), ("proficiency", .integer a.proficiency),
    ("spellcasting", .ofOption Ability.toDocument a.spellcasting),
    ("spell_dc", .ofOption .ofNat a.spellDc), ("spells", a.spells.toDocument),
    ("bonuses", a.bonuses.toDocument), ("traits", a.traits.toDocument),
    ("weapon_crit_threshold", .ofOption .ofNat a.weaponCritThreshold),
    ("skills", .object (a.skills.entries.map fun s => (s.1, s.2.toDocument))),
    ("items", .ofList Item.toDocument a.items)]

namespace Decode

def abilityScore : Decoder AbilityScore :=
  record do
    let value ← required "value" int64
    let saveProficiency ← withDefault "save_proficiency" float (.finite 0)
    return { value, saveProficiency }

def abilityScores : Decoder AbilityScores :=
  let score (a : Ability) : Reading AbilityScore := withDefault a.key abilityScore {}
  record do
    let strength ← score .strength
    let dexterity ← score .dexterity
    let constitution ← score .constitution
    let intelligence ← score .intelligence
    let wisdom ← score .wisdom
    let charisma ← score .charisma
    return { strength, dexterity, constitution, intelligence, wisdom, charisma }

def slotPool : Decoder SlotPool :=
  record do
    let value ← withDefault "value" nat32 0
    let max ← withDefault "max" nat32 0
    return { value, max }

def pactSlots : Decoder PactSlots :=
  record do
    let value ← withDefault "value" nat32 0
    let max ← withDefault "max" nat32 0
    let level ← withDefault "level" nat8 0
    return { value, max, level }

def spellSlots : Decoder SpellSlots :=
  record do
    let levels ← SpellSlots.poolNames.mapM fun name => withDefault name slotPool {}
    let pact ← withDefault "pact" pactSlots {}
    return { levels, pact }

def actionBonus : Decoder ActionBonus :=
  record do
    let attack ← optional "attack" string
    let damage ← optional "damage" string
    return { attack, damage }

def actorBonuses : Decoder ActorBonuses :=
  record do
    let meleeWeapon ← withDefault "mwak" actionBonus {}
    let rangedWeapon ← withDefault "rwak" actionBonus {}
    let meleeSpell ← withDefault "msak" actionBonus {}
    let rangedSpell ← withDefault "rsak" actionBonus {}
    let abilityCheck ← optional "ability_check" string
    let abilitySave ← optional "ability_save" string
    let skill ← optional "skill" string
    return { meleeWeapon, rangedWeapon, meleeSpell, rangedSpell, abilityCheck, abilitySave, skill }

def actorTraits : Decoder ActorTraits :=
  record do
    let halflingLucky ← withDefault "halfling_lucky" bool false
    let elvenAccuracy ← withDefault "elven_accuracy" bool false
    let savageAttacks ← withDefault "savage_attacks" bool false
    let reliableTalent ← withDefault "reliable_talent" bool false
    let jackOfAllTrades ← withDefault "jack_of_all_trades" bool false
    return { halflingLucky, elvenAccuracy, savageAttacks, reliableTalent, jackOfAllTrades }

def skill : Decoder Skill :=
  record do
    let ability ← required "ability" ability
    let proficiency ← withDefault "proficiency" float (.finite 0)
    let bonus ← withDefault "bonus" int64 0
    return { ability, proficiency, bonus }

def actor : Decoder Actor :=
  record do
    let id ← required "id" string
    let name ← required "name" string
    let kind ← withDefault "kind" actorKind .character
    let level ← withDefault "level" nat32 1
    let classes ← withDefault "classes" (nameMap nat32) ∅
    let abilities ← withDefault "abilities" abilityScores {}
    let proficiency ← withDefault "proficiency" int64 2
    let spellcasting ← optional "spellcasting" ability
    let spellDc ← optional "spell_dc" nat32
    let spells ← withDefault "spells" spellSlots {}
    let bonuses ← withDefault "bonuses" actorBonuses {}
    let traits ← withDefault "traits" actorTraits {}
    let weaponCritThreshold ← optional "weapon_crit_threshold" nat32
    let skills ← withDefault "skills" (nameMap skill) ∅
    let items ← withDefault "items" (list item) []
    return { id, name, kind, level, classes, abilities, proficiency, spellcasting, spellDc, spells,
             bonuses, traits, weaponCritThreshold, skills, items }

end Decode

end Tabletop
