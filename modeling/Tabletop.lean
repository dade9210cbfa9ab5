import Tabletop.Bindings
import Tabletop.Catalog.Basic
import Tabletop.Catalog.Load
import Tabletop.Codec.ConfigFile
import Tabletop.Codec.Formula
import Tabletop.Codec.Request
import Tabletop.Codec.Rolls
import Tabletop.Codec.Run
import Tabletop.Codec.Sheet
import Tabletop.Dice.Crit
import Tabletop.Dice.Evaluate
import Tabletop.Dice.KeyStream
import Tabletop.Dice.MultiRoll
import Tabletop.Dice.Outcome
import Tabletop.Dice.Roller
import Tabletop.Dice.Source
import Tabletop.Document.Basic
import Tabletop.Document.Decode
import Tabletop.Document.JsonReader
import Tabletop.Document.JsonWriter
import Tabletop.Formula.Basic
import Tabletop.Formula.Dice
import Tabletop.Formula.Parser
import Tabletop.Formula.Printer
import Tabletop.Formula.Scaling
import Tabletop.Formula.Substitution
import Tabletop.NameMap
import Tabletop.Number.Double
import Tabletop.Number.Range
import Tabletop.Number.Shortest
import Tabletop.Proofs.Catalog.Assembly
import Tabletop.Proofs.Catalog.Gifts
import Tabletop.Proofs.Catalog.Loading
import Tabletop.Proofs.Catalog.Ownership
import Tabletop.Proofs.Codec.Requests
import Tabletop.Proofs.Computation
import Tabletop.Proofs.Dice.AddedRolls
import Tabletop.Proofs.Dice.Classification
import Tabletop.Proofs.Dice.Divisors
import Tabletop.Proofs.Dice.Draws
import Tabletop.Proofs.Dice.Evaluation
import Tabletop.Proofs.Dice.ExactValue
import Tabletop.Proofs.Dice.Exactness
import Tabletop.Proofs.Dice.Highest
import Tabletop.Proofs.Dice.Likeness
import Tabletop.Proofs.Dice.Merging
import Tabletop.Proofs.Dice.Modifiers
import Tabletop.Proofs.Dice.Parentheses
import Tabletop.Proofs.Dice.Precedence
import Tabletop.Proofs.Dice.Replay
import Tabletop.Proofs.Dice.Rolls
import Tabletop.Proofs.Dice.Selection
import Tabletop.Proofs.Dice.Settled
import Tabletop.Proofs.Dice.Sources
import Tabletop.Proofs.Dice.Splicing
import Tabletop.Proofs.Dice.Trend
import Tabletop.Proofs.Formula.Composition
import Tabletop.Proofs.Formula.CritDice
import Tabletop.Proofs.Formula.Grammar
import Tabletop.Proofs.Formula.MoreDice
import Tabletop.Proofs.Formula.Numerals
import Tabletop.Proofs.Formula.Parsing
import Tabletop.Proofs.Formula.Products
import Tabletop.Proofs.Formula.Reading
import Tabletop.Proofs.Formula.Recognition
import Tabletop.Proofs.Formula.Rereading
import Tabletop.Proofs.Formula.RoundTrip
import Tabletop.Proofs.Formula.Scaling
import Tabletop.Proofs.Formula.Variables
import Tabletop.Proofs.NameMap
import Tabletop.Proofs.Number.Order
import Tabletop.Proofs.Number.Representation
import Tabletop.Proofs.Number.Rounding
import Tabletop.Proofs.Number.SignedZero
import Tabletop.Proofs.Run.Accounting
import Tabletop.Proofs.Run.Aftermath
import Tabletop.Proofs.Run.Atomicity
import Tabletop.Proofs.Run.AttackBonus
import Tabletop.Proofs.Run.Consumption
import Tabletop.Proofs.Run.CritExtra
import Tabletop.Proofs.Run.CritFlow
import Tabletop.Proofs.Run.Depletion
import Tabletop.Proofs.Run.Effect
import Tabletop.Proofs.Run.Expansion
import Tabletop.Proofs.Run.Fragments
import Tabletop.Proofs.Run.Independence
import Tabletop.Proofs.Run.Maxima
import Tabletop.Proofs.Run.MaximizedCrits
import Tabletop.Proofs.Run.Phases
import Tabletop.Proofs.Run.QuickRolls
import Tabletop.Proofs.Run.Resolution
import Tabletop.Proofs.Run.Shortfall
import Tabletop.Proofs.Run.Silence
import Tabletop.Proofs.Run.Trace
import Tabletop.Proofs.Run.Upcasting
import Tabletop.Proofs.Run.Validation
import Tabletop.Proofs.Sheet.Actor
import Tabletop.Proofs.Sheet.Bindings
import Tabletop.Request.Basic
import Tabletop.Request.Preset
import Tabletop.Run.ActorRoll
import Tabletop.Run.Attack
import Tabletop.Run.Basic
import Tabletop.Run.Check
import Tabletop.Run.Config
import Tabletop.Run.Context
import Tabletop.Run.DamageRoll
import Tabletop.Run.Error
import Tabletop.Run.Host
import Tabletop.Run.Labels
import Tabletop.Run.Ledger
import Tabletop.Run.Plan
import Tabletop.Run.Result
import Tabletop.Run.Step
import Tabletop.Sheet.Ability
import Tabletop.Sheet.Actor
import Tabletop.Sheet.Item
import Tabletop.Sheet.QuickRoll
import Tabletop.Sheet.SpellSlots
import Tabletop.Text.Blank
import Tabletop.Text.Hex
import Tabletop.Text.Scan
import Tabletop.Toml.Reader
import Tabletop.Toml.Scalar
import Tabletop.Toml.Table
