import Tabletop.Run.Config
/-!
# Labels of damage

The title, the context and the damage type of an entry, arranged in three rows.
-/

namespace Tabletop

structure DamageLabels where
  top : Option String := none
  middle : Option String := none
  bottom : Option String := none
deriving DecidableEq

namespace DamageLabels

/-- A label and its row. -/
abbrev Placed := Placement × String

/-- The labels of a row, joined. -/
def row (labels : List Placed) (place : Placement) : Option String :=
  match (labels.filter (·.1 = place)).map (·.2) with
  | [] => none
  | texts => some (" - ".intercalate texts)

/-- Arranges labels that are given in order of their kinds. -/
def ofPlaced (labels : List Placed) : DamageLabels :=
  ⟨row labels .top, row labels .middle, row labels .bottom⟩

/-- A text that is not empty. -/
def given (text : Option String) : Option String := text.filter (· ≠ "")

/-- The title and the context. In one visible row they become one label, or the context alone if it
replaces the title. -/
def headings (config : PipelineConfig) (title context : Option String) : List Placed :=
  let titleAt := config.damageTitlePlacement
  let contextAt := config.damageContextPlacement
  match title, context with
  | none, none => []
  | some title, none => [(titleAt, title)]
  | none, some context => [(contextAt, context)]
  | some title, some context =>
    if titleAt = contextAt then
      if config.contextReplacesTitle then [(contextAt, context)]
      else [(titleAt, title ++ " (" ++ context ++ ")")]
    else [(titleAt, title), (contextAt, context)]

/-- The damage type, unless a context in its row replaces it. -/
def damageLabel (config : PipelineConfig) (context damage : Option String) : List Placed :=
  let damageAt := config.damageRollPlacement
  let replaced := config.contextReplacesDamage && context.isSome &&
    damageAt = config.damageContextPlacement
  match damage with
  | some damage => if replaced then [] else [(damageAt, damage)]
  | none => []

/-- Arranges the labels of a damage entry; empty texts count as none. -/
def arrange (config : PipelineConfig) (title context damage : Option String) : DamageLabels :=
  ofPlaced (headings config (given title) (given context) ++
    damageLabel config (given context) (given damage))

end DamageLabels

end Tabletop
