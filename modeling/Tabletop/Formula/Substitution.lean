import Tabletop.Bindings
import Tabletop.Formula.Parser
/-!
# Substitution

A formula with its variables replaced by what is bound to them. A bound text is read only once: the
variables of a bound formula stay.
-/

namespace Tabletop

namespace Formula

/-- The integer that a text spells, if it is one of 64 bits: an optional sign and digits. -/
def readInteger? (text : List Char) : Option Int :=
  let (negative, digits) :=
    match text with
    | '-' :: digits => (true, digits)
    | '+' :: digits => (false, digits)
    | digits => (false, digits)
  if digits.all Char.isDigit then
    if negative then (countUpTo? (maxConstant + 1) digits).map fun n => -(n : Int)
    else (countUpTo? maxConstant digits).map fun n => (n : Int)
  else none

/-- What a bound text stands for: nothing counts as zero, a number as itself, and other texts are
read as formulas, which become groups unless they have a single term. -/
def boundTerm (text : String) : Except FormulaError Term :=
  match Text.trimChars text.toList with
  | [] => .ok (.number 0)
  | c :: body =>
    match readInteger? (c :: body) with
    | some n => .ok (.number n)
    | none =>
      match readAll (c :: body) with
      | .error e => .error e
      | .ok [t] => .ok t
      | .ok ts => .ok (.group ts)

end Formula

mutual

/-- Puts the bound values in the place of variables; an unbound variable counts as zero. -/
def Term.substitute (bindings : Bindings) : Term → Except FormulaError Term
  | .variable path =>
    match bindings.get? path with
    | some text => Formula.boundTerm text
    | none => .ok (.number 0)
  | .group inner => do return .group (← Formula.substitute bindings inner)
  | .call function argument => do return .call function (← Formula.substitute bindings argument)
  | t => .ok t

def Formula.substitute (bindings : Bindings) : List Term → Except FormulaError (List Term)
  | [] => .ok []
  | t :: ts => do
    let t ← t.substitute bindings
    return t :: (← Formula.substitute bindings ts)

end

end Tabletop
