/-!
# Configuration of runs

Options that all runs share, whatever the item.
-/

namespace Tabletop

/-- How critical hits change damage. -/
inductive CritBehavior where
  | none
  /-- The dice are rolled once more. -/
  | bonusDiceOnly
  /-- The critical dice show their maximum. -/
  | maximizeBase
  /-- The critical dice show their maximum, and what the base roll falls short of its own maximum
  is added. -/
  | maximizeBoth
deriving DecidableEq

/-- Where a label of a damage entry goes. -/
inductive Placement where
  | hidden
  | top
  | middle
  | bottom
deriving DecidableEq

/-- Whose save difficulties are hidden. -/
inductive HideDc where
  | never
  | npcOnly
  | always
deriving DecidableEq

structure PipelineConfig where
  /-- The number of rolls where neither advantage nor disadvantage asks for two. -/
  multiRollCount : Nat := 1
  critBehavior : CritBehavior := .bonusDiceOnly
  rollTitlePlacement : Placement := .top
  damageTitlePlacement : Placement := .top
  damageRollPlacement : Placement := .top
  damageContextPlacement : Placement := .top
  /-- Whether a context in the place of the title replaces it. -/
  contextReplacesTitle : Bool := true
  /-- Whether a context in the place of the damage type replaces it. -/
  contextReplacesDamage : Bool := false
  /-- The label of critical dice. -/
  critString : String := "Crit"
  hideDc : HideDc := .never
deriving DecidableEq

/-- Why a configuration cannot be loaded. -/
inductive ConfigError where
  | missingFile
  | malformed
  /-- A number of rolls outside one to three. -/
  | multiRollCount (count : Nat)
deriving DecidableEq

/-- What is shown of the error; for a file that is missing or malformed the reason is left to the
caller. -/
def ConfigError.message : ConfigError → String
  | missingFile => "IO error"
  | malformed => "Parse error"
  | multiRollCount count =>
    "Invalid config: multi_roll_count must be between 1 and 3, got " ++ toString count

/-- Refuses a configuration that no run should have. -/
def PipelineConfig.validate (c : PipelineConfig) : Except ConfigError Unit :=
  if 1 ≤ c.multiRollCount ∧ c.multiRollCount ≤ 3 then .ok ()
  else .error (.multiRollCount c.multiRollCount)

end Tabletop
