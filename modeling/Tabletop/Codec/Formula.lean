import Tabletop.Document.Decode
import Tabletop.Formula.Basic
/-!
# Formulas as documents

A formula is a record of its terms; each term is an object with its kind as the only name.
-/

namespace Tabletop

namespace Document

mutual

/-- The number of values inside each other, at most. -/
def depth : Document → Nat
  | array items => itemsDepth items + 1
  | object fields => fieldsDepth fields + 1
  | _ => 1

def itemsDepth : List Document → Nat
  | [] => 0
  | d :: ds => max d.depth (itemsDepth ds)

def fieldsDepth : List (String × Document) → Nat
  | [] => 0
  | (_, d) :: fields => max d.depth (fieldsDepth fields)

end

end Document

def Operator.name : Operator → String
  | add => "add"
  | subtract => "subtract"
  | multiply => "multiply"
  | divide => "divide"

def Operator.ofName? : String → Option Operator
  | "add" => some add
  | "subtract" => some subtract
  | "multiply" => some multiply
  | "divide" => some divide
  | _ => none

def DieModifier.toDocument : DieModifier → Document
  | rerollBelow n => .object [("reroll_below", .ofNat n)]
  | keepHighest n => .object [("keep_highest", .ofNat n)]
  | keepLowest n => .object [("keep_lowest", .ofNat n)]
  | minimum n => .object [("minimum", .ofNat n)]

def DiceTerm.toDocument (d : DiceTerm) : Document :=
  .object [("number", .ofNat d.number), ("faces", .ofNat d.faces),
    ("modifiers", .ofList DieModifier.toDocument d.modifiers)]

mutual

def Term.toDocument : Term → Document
  | .dice d => .object [("dice", d.toDocument)]
  | .number n => .object [("number", .integer n)]
  | .variable path => .object [("variable", .string path)]
  | .group inner => .object [("group", .object [("terms", .array (Formula.termDocuments inner))])]
  | .call function argument =>
    .object [("function", .object [("function", .string function.name),
      ("argument", .object [("terms", .array (Formula.termDocuments argument))])])]
  | .operator op => .object [("operator", .string op.name)]

def Formula.termDocuments : List Term → List Document
  | [] => []
  | t :: ts => t.toDocument :: Formula.termDocuments ts

end

def Formula.toDocument (f : Formula) : Document :=
  .object [("terms", .array (Formula.termDocuments f))]

namespace Decode

def dieModifier : Decoder DieModifier :=
  let counted (f : Nat → DieModifier) : DieModifier ⊕ Decoder DieModifier :=
    .inr fun dialect d => (nat32 dialect d).map f
  variant fun
    | "reroll_below" => some (counted .rerollBelow)
    | "keep_highest" => some (counted .keepHighest)
    | "keep_lowest" => some (counted .keepLowest)
    | "minimum" => some (counted .minimum)
    | _ => none

def diceTerm : Decoder DiceTerm :=
  record do
    let number ← required "number" nat32
    let faces ← required "faces" nat32
    let modifiers ← withDefault "modifiers" (list dieModifier) []
    return ⟨number, faces, modifiers⟩

/-- A term whose formulas are read by the given reader. -/
def termWith (formula : Decoder Formula) : Decoder Term :=
  let mapped {α : Type} (f : Decoder α) (g : α → Term) : Term ⊕ Decoder Term :=
    .inr fun dialect d => (f dialect d).map g
  variant fun
    | "dice" => some (mapped diceTerm .dice)
    | "number" => some (mapped int64 .number)
    | "variable" => some (mapped string .variable)
    | "group" => some (mapped formula .group)
    | "function" =>
      some (.inr (innerRecord ["function", "argument"] do
        let function ← required "function" (choice MathFunction.ofName?)
        let argument ← required "argument" formula
        return .call function argument))
    | "operator" => some (mapped (choice Operator.ofName?) .operator)
    | _ => none

/-- A formula in a document of bounded depth. -/
def formulaWithin : (depth : Nat) → Decoder Formula
  | 0 => fun _ _ => none
  | depth + 1 => record (required "terms" (list (termWith (formulaWithin depth))))

def formula : Decoder Formula := fun dialect d => formulaWithin d.depth dialect d

end Decode

end Tabletop
