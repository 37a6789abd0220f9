import Rungs.Emission
import Rungs.Settings
import Rungs.Resolver
import Rungs.Snapshot.Lookup

/-! What all parts of a generation share, and the lookups they make through it: the block of an
entity, the contacts of a sensor, the points of a numbered family. -/

namespace Rungs

structure Context (σ : Type) where
  settings : Settings
  resolver : Resolver σ
  /-- The details that an owner waits for. -/
  conditionIds : ConditionKind → EntityKind → Int32 → List Int32
  snapshot : Snapshot

namespace Context

variable {σ : Type} (c : Context σ)

/-- The block of an entity. Generation stops if it was given none, or one that cannot hold the
roles, or one that runs out of the address range. -/
def block {ρ : Type} [Role ρ] (owner : Owner) (roles : List ρ) : Emission σ Block :=
  match c.snapshot.allocation? owner.kind owner.recordId with
  | none => .halt .noAllocation
  | some a =>
    let needed := requiredBits roles
    if a.count.toNat < needed then .halt (.allocationTooShort a needed)
    else if a.addressable needed then pure ⟨a⟩
    else .halt (.allocationOverflows a needed)

def timer (owner : Owner) (category : TimerCategory) : TimerLookup :=
  c.snapshot.timer owner.kind owner.recordId category

def alwaysOff : Contact := .plain c.settings.alwaysOff

def resolve (r : Request) : Emission σ (Option String) := .consult (c.resolver.resolve r)

/-- How many points a name stands for. -/
def pointCount (count : Option UInt32) : Nat := max 1 (count.getD 1).toNat

/-- A point of a numbered family: the one member of that name and direction, if the family has
exactly one, and else what the name alone resolves to. -/
def resolveMember (family : List IoPoint) (r : Request) : Emission σ (Option String) :=
  match family.filter fun p => p.isOutput == r.isOutput && p.name == r.name with
  | [only] => pure (some only.effectiveAddress)
  | _ => c.resolve r

/-- The points that a name stands for, each with its address if it has one: the name itself, or with
a count of at least two the name numbered from 1 to that count. -/
def resolvePoints (base : Request) (count : Option UInt32) :
    Emission σ (List (String × Option String)) :=
  if pointCount count = 1 then do
    let address ← c.resolve base
    return [(base.name, address)]
  else do
    let family ← Emission.consult (c.resolver.range base.name base.scope base.recordId)
    (List.range' 1 (pointCount count)).mapM fun i => do
      let name := Device.numbered base.name i
      let address ← c.resolveMember family { base with name }
      return (name, address)

/-- An underscore in front of a sensor's name inverts its contacts. -/
def isInvertedSensor (name : String) : Bool := (Text.trim name).toList.head? == some '_'

/-- A sensor's name without blanks around it and underscores in front. -/
def sensorBase (name : String) : String :=
  String.ofList ((Text.trim name).toList.dropWhile (· == '_'))

/-- The contact of a sensor point. A point without an address reads as off, inverted or not, so that
nothing is released by mistake. -/
def pointContact (negated : Bool) (point : String × Option String) : Emission σ Contact :=
  match point.2 with
  | some device => pure ⟨device, negated⟩
  | none => do
    Emission.warn (.unknownSensor point.1 c.settings.alwaysOff)
    return c.alwaysOff

/-- The contacts that a sensor's name stands for. A timer reference is a contact as it is. -/
def sensors (owner : Owner) (name : String) (count : Option UInt32) (scope : String) :
    Emission σ (List Contact) :=
  let base := sensorBase name
  let negated := isInvertedSensor name
  if Device.isTimerReference base then pure [⟨base, negated⟩]
  else do
    let points ← c.resolvePoints ⟨base, false, scope, owner.recordId⟩ count
    points.mapM (c.pointContact negated)

end Context

end Rungs
