import Rungs.Resolver
import Rungs.Snapshot.Lookup

/-! A table of input and output points as a resolver. Points of the scope itself come before the
shared ones. Where several points fit a name, a selector is asked to pick one of them, and its
answer is remembered: the same request is never asked twice. Looking up a range asks nothing. -/

namespace Rungs

/-- A question that was put to the selector, with the address it led to. -/
structure Choice where
  request : Request
  candidates : List IoPoint
  address : Option String
deriving DecidableEq, Repr, Inhabited

/-- Picks one of the candidates or declines. The pick may depend on all choices made before. -/
def Selector : Type := List Choice → Request → (candidates : List IoPoint) →
  Option { p : IoPoint // p ∈ candidates }

namespace Selector

def first : Selector := fun _ _ candidates => candidates.attach.head?

def last : Selector := fun _ _ candidates => candidates.attach.getLast?

def decline : Selector := fun _ _ _ => none

/-- The first candidate whose id is a given number. A number beyond the range of ids picks none. -/
def withId (id : Int) : Selector := fun _ _ candidates =>
  candidates.attach.find? (·.val.id.toInt == id)

end Selector

structure IoTable where
  points : List IoPoint
  selector : Selector := Selector.first

namespace IoTable

variable (t : IoTable)

/-- The matching points of a scope, or, if it has none, the matching shared points. -/
def within (scope : String) (suits : IoPoint → Bool) : List IoPoint :=
  let own := t.points.filter fun p => p.scope == scope && suits p
  if own.isEmpty then t.points.filter fun p => Text.isBlankText p.scope && suits p else own

def candidates (r : Request) : List IoPoint :=
  t.within r.scope fun p => p.name == r.name && p.isOutput == r.isOutput

/-- The choice made earlier for a request. -/
def remembered? (memory : List Choice) (r : Request) : Option Choice :=
  memory.find? (·.request == r)

def resolve (r : Request) (memory : List Choice) : Option String × List Choice :=
  match t.candidates r with
  | [] => (none, memory)
  | [only] => (some only.effectiveAddress, memory)
  | several =>
    match remembered? memory r with
    | some choice => (choice.address, memory)
    | none =>
      let address := (t.selector memory r several).map fun p => p.val.effectiveAddress
      (address, memory ++ [⟨r, several, address⟩])

/-- The number after a pattern, where a name consists of just these two. -/
def numericSuffix? (pattern name : String) : Option UInt32 :=
  if pattern.toList.isPrefixOf name.toList then
    Text.word? (name.toList.drop pattern.toList.length)
  else none

/-- Ascending by number, then by id. -/
def suffixPrecedes (a b : UInt32 × IoPoint) : Bool :=
  a.1 < b.1 || (a.1 == b.1 && a.2.id ≤ b.2.id)

def range (pattern scope : String) : List IoPoint :=
  let family := t.within scope fun p => (numericSuffix? pattern p.name).isSome
  let numbered := family.filterMap fun p => (numericSuffix? pattern p.name).map (·, p)
  (numbered.mergeSort suffixPrecedes).map Prod.snd

def resolver : Resolver (List Choice) where
  resolve := t.resolve
  range pattern scope _ memory := (t.range pattern scope, memory)

end IoTable

end Rungs
