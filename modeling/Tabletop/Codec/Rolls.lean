import Tabletop.Document.Decode
import Tabletop.Dice.MultiRoll
/-!
# Rolls as documents

Bindings, evaluated rolls, and what multiple rolls and their classification look like.
-/

namespace Tabletop

def Bindings.toDocument (b : Bindings) : Document :=
  .object (b.entries.map fun e => (e.1, .string e.2))

def DieResult.toDocument (r : DieResult) : Document :=
  .object [("value", .ofNat r.value), ("active", .bool r.active)]

def DieOutcome.toDocument (d : DieOutcome) : Document :=
  .object [("faces", .ofNat d.faces), ("results", .ofList DieResult.toDocument d.results)]

def EvaluatedRoll.toDocument (r : EvaluatedRoll) : Document :=
  .object [("formula", .string r.formula), ("total", .integer r.total),
    ("dice", .ofList DieOutcome.toDocument r.dice)]

def CritType.name : CritType → String
  | none => "none"
  | success => "success"
  | failure => "failure"
  | mixed => "mixed"

def CritType.ofName? : String → Option CritType
  | "none" => some none
  | "success" => some success
  | "failure" => some failure
  | "mixed" => some mixed
  | _ => Option.none

def DiceFilter.toDocument : DiceFilter → Document
  | all => .string "all"
  | faces list => .object [("faces", .ofList .ofNat list)]

def CritClassification.toDocument (c : CritClassification) : Document :=
  .object [("crit_type", .string c.critType.name), ("is_crit", .bool c.isCrit),
    ("high", .ofNat c.high), ("low", .ofNat c.low)]

def SelectionMode.name : SelectionMode → String
  | none => "none"
  | highest => "highest"
  | lowest => "lowest"

def SelectionMode.ofName? : String → Option SelectionMode
  | "none" => some none
  | "highest" => some highest
  | "lowest" => some lowest
  | _ => Option.none

def MultiRollEntry.toDocument (e : MultiRollEntry) : Document :=
  .object [("roll", e.roll.toDocument), ("ignored", .bool e.ignored),
    ("classification", e.classification.toDocument)]

def MultiRollOutcome.toDocument (o : MultiRollOutcome) : Document :=
  .object [("formula", .string o.formula), ("entries", .ofList MultiRollEntry.toDocument o.entries),
    ("selection", .string o.selection.name), ("crit_type", .string o.critType.name),
    ("is_crit", .bool o.isCrit), ("triggers_crit", .bool o.triggersCrit)]

namespace Decode

def bindings : Decoder Bindings := nameMap string

def dieResult : Decoder DieResult :=
  record do
    let value ← required "value" nat32
    let active ← required "active" bool
    return ⟨value, active⟩

def dieOutcome : Decoder DieOutcome :=
  record do
    let faces ← required "faces" nat32
    let results ← required "results" (list dieResult)
    return ⟨faces, results⟩

def evaluatedRoll : Decoder EvaluatedRoll :=
  record do
    let formula ← required "formula" string
    let total ← required "total" int64
    let dice ← required "dice" (list dieOutcome)
    return ⟨formula, total, dice⟩

def critType : Decoder CritType := choice CritType.ofName?

def diceFilter : Decoder DiceFilter :=
  variant fun
    | "all" => some (.inl .all)
    | "faces" => some (.inr fun dialect d => (list nat32 dialect d).map .faces)
    | _ => none

def critClassification : Decoder CritClassification :=
  record do
    let critType ← required "crit_type" critType
    let isCrit ← required "is_crit" bool
    let high ← required "high" nat32
    let low ← required "low" nat32
    return ⟨critType, isCrit, high, low⟩

def selectionMode : Decoder SelectionMode := choice SelectionMode.ofName?

def multiRollEntry : Decoder MultiRollEntry :=
  record do
    let roll ← required "roll" evaluatedRoll
    let ignored ← required "ignored" bool
    let classification ← required "classification" critClassification
    return ⟨roll, ignored, classification⟩

def multiRollOutcome : Decoder MultiRollOutcome :=
  record do
    let formula ← required "formula" string
    let entries ← required "entries" (list multiRollEntry)
    let selection ← required "selection" selectionMode
    let critType ← required "crit_type" critType
    let isCrit ← required "is_crit" bool
    let triggersCrit ← required "triggers_crit" bool
    return ⟨formula, entries, selection, critType, isCrit, triggersCrit⟩

end Decode

end Tabletop
