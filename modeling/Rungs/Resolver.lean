import Rungs.Snapshot

/-! Resolution of symbolic names to devices. A resolver answers for one name, or for all names that
are a pattern and a number; its answers may depend on and change a memory of type `σ`. -/

namespace Rungs

/-- A symbol to be resolved on behalf of a record. -/
structure Request where
  name : String
  isOutput : Bool
  scope : String
  recordId : Int32
deriving DecidableEq, Repr, Inhabited

structure Resolver (σ : Type) where
  resolve : Request → σ → Option String × σ
  /-- The points whose names are the pattern and a number, for a scope and a record. -/
  range : String → String → Int32 → σ → List IoPoint × σ

/-- Knows whole families of points but no single one. -/
def Resolver.rangeOnly (points : List IoPoint) : Resolver Unit where
  resolve _ m := (none, m)
  range pattern _ _ m := (points.filter fun p => p.name.startsWith pattern, m)

end Rungs
