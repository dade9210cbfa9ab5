import Tabletop.NameMap
/-!
# Bindings

What the `@path` variables of a formula stand for. A value is text: it may be a number, or a whole
formula.
-/

namespace Tabletop

/-- Texts bound to dotted paths, the paths without the leading `@`. -/
abbrev Bindings := NameMap String

namespace Bindings

/-- Binds a path to the decimal text of an integer. -/
def insertInteger (b : Bindings) (path : String) (n : Int) : Bindings :=
  b.insert path (toString n)

/-- Copies every binding of `other` in under `root.`. -/
def nest (b : Bindings) (root : String) (other : Bindings) : Bindings :=
  other.entries.foldl (fun b e => b.insert (root ++ "." ++ e.1) e.2) b

end Bindings

end Tabletop
