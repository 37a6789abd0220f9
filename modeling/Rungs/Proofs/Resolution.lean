import Rungs.Proofs.Lookup

/-! What looking a name up leaves, all of it: the points that the name stands for, in order, each
with the resolver's answer (`Context.yields_resolvePoints`), and for a sensor one contact for each
point and one warning for each point without an address (`Context.sensors_exact`). A sensor thus
never comes out as no contact at all, and a point that is not found is never read inverted. -/

namespace Rungs

open Emission

variable {σ : Type}

/-- How a request is settled: by a lookup of its own, with an address or without one, or by the only
point of its name and direction in a family. -/
inductive Resolver.Settles (v : Resolver σ) (initial : σ) (r : Request) : Option String → Prop
  | single {m : σ} (hm : v.Reachable initial m) : v.Settles initial r (v.resolve r m).1
  | member {pattern : String} {m : σ} {p : IoPoint} (hm : v.Reachable initial m)
      (only : (v.range pattern r.scope r.recordId m).1.filter
        (fun p => p.isOutput == r.isOutput && p.name == r.name) = [p]) :
      v.Settles initial r (some p.effectiveAddress)

/-- The warnings about the points that have no address. -/
def missingPoints (warning : String → Finding) (points : List (String × Option String)) :
    List Finding :=
  (points.filter (·.2.isNone)).map fun point => warning point.1

/-- Where every point is answered by itself, with a warning if it has no address, all points are. -/
theorem yields_mapM_points {β : Type} {m : σ} {f : String × Option String → Emission σ β}
    {g : String × Option String → β} {warning : String → Finding}
    (each : ∀ point, Yields (f point) m (g point) [] (missingPoints warning [point]) m)
    (points : List (String × Option String)) :
    Yields (points.mapM f) m (points.map g) [] (missingPoints warning points) m := by
  have warnings : missingPoints warning points =
      points.flatMap fun point => missingPoints warning [point] := by
    unfold missingPoints
    rw [← List.map_flatMap, ← List.filter_flatMap, List.flatMap_singleton']
  rw [warnings]
  exact Yields.mapM each points

namespace Context

variable (c : Context σ) {initial m : σ}

/-! ## Points -/

/-- The points of a name in order: the name itself, or with a count of at least two the name with
each number from 1 to the count. -/
def pointNames (base : String) (count : Option UInt32) : List String :=
  if pointCount count = 1 then [base]
  else (List.range' 1 (pointCount count)).map (Device.numbered base)

theorem length_pointNames (base : String) (count : Option UInt32) :
    (pointNames base count).length = max 1 (count.getD 1).toNat := by
  unfold pointNames
  split
  next one => exact one.symm
  next => rw [List.length_map, List.length_range', pointCount]

theorem yields_resolve (r : Request) (hm : c.Reached initial m) :
    ∃ answer m', Yields (c.resolve r) m answer [] [] m' ∧ c.Reached initial m' ∧
      c.resolver.Settles initial r answer :=
  ⟨_, _, .consult, hm.resolve r, .single hm⟩

theorem yields_resolveMember (pattern : String) {r : Request} {family : List IoPoint} {m₀ : σ}
    (hm₀ : c.Reached initial m₀)
    (read : family = (c.resolver.range pattern r.scope r.recordId m₀).1)
    (hm : c.Reached initial m) :
    ∃ answer m', Yields (c.resolveMember family r) m answer [] [] m' ∧ c.Reached initial m' ∧
      c.resolver.Settles initial r answer := by
  unfold resolveMember
  split
  next only single => exact ⟨_, m, .pure, hm, .member hm₀ (read ▸ single)⟩
  next => exact c.yields_resolve r hm

/-- Looking a name up finds its points in order, settles each of them, and does nothing else. -/
theorem yields_resolvePoints (base : Request) (count : Option UInt32) (hm : c.Reached initial m) :
    ∃ points m', Yields (c.resolvePoints base count) m points [] [] m' ∧ c.Reached initial m' ∧
      points.map Prod.fst = pointNames base.name count ∧
      ∀ point ∈ points, c.resolver.Settles initial { base with name := point.1 } point.2 := by
  unfold resolvePoints pointNames
  by_cases one : pointCount count = 1
  · obtain ⟨answer, m', asked, hm', settled⟩ := c.yields_resolve base hm
    rw [if_pos one, if_pos one]
    refine ⟨[(base.name, answer)], m', asked.bind .pure, hm', rfl, fun point mem => ?_⟩
    rw [List.mem_singleton.mp mem]
    exact settled
  · rw [if_neg one, if_neg one]
    have family : Yields (Emission.consult (c.resolver.range base.name base.scope base.recordId)) m
        _ [] [] _ := .consult
    have each : ∀ i ∈ List.range' 1 (pointCount count), ∀ m₁, c.Reached initial m₁ →
        ∃ point m', Yields (do
            let name := Device.numbered base.name i
            let address ← c.resolveMember
              (c.resolver.range base.name base.scope base.recordId m).1 { base with name }
            return (name, address)) m₁ point [] [] m' ∧ c.Reached initial m' ∧
          c.resolver.Settles initial { base with name := point.1 } point.2 ∧
            point.1 = Device.numbered base.name i := by
      intro i _ m₁ hm₁
      obtain ⟨answer, m', asked, hm', settled⟩ := c.yields_resolveMember base.name
        (r := { base with name := Device.numbered base.name i }) hm rfl hm₁
      exact ⟨_, m', asked.bind .pure, hm', settled, rfl⟩
    obtain ⟨points, m', asked, hm', all⟩ := Yields.exists_mapM each (hm.range _ _ _)
    obtain ⟨settled, named⟩ := (List.forall₂_and_left _ _).mp all.flip
    have names := List.forall₂_map_left_iff.mpr (List.forall₂_map_right_iff.mpr named)
    rw [List.forall₂_eq_eq_eq] at names
    exact ⟨points, m', family.bind asked, hm', names, settled⟩

/-! ## Sensors -/

/-- A sensor's name without blanks around it is so many underscores and what they stand before. -/
def SensorName (name : String) (underscores : Nat) (base : String) : Prop :=
  (Text.trim name).toList = List.replicate underscores '_' ++ base.toList ∧
    base.toList.head? ≠ some '_'

theorem exists_sensorName (name : String) : ∃ underscores,
    SensorName name underscores (sensorBase name) ∧
      isInvertedSensor name = decide (0 < underscores) := by
  generalize text : (Text.trim name).toList = cs
  have front : cs.takeWhile (· == '_') = List.replicate (cs.takeWhile (· == '_')).length '_' :=
    List.eq_replicate_of_mem fun c mem => by
      simpa using List.all_eq_true.mp List.all_takeWhile c mem
  refine ⟨(cs.takeWhile (· == '_')).length, ⟨?_, ?_⟩, ?_⟩
  · rw [← front, sensorBase, String.toList_ofList, text, List.takeWhile_append_dropWhile]
  · rw [sensorBase, String.toList_ofList, text]
    intro starts
    have other := List.head?_dropWhile_not (· == '_') cs
    rw [starts] at other
    cases other
  · rw [isInvertedSensor, text]
    cases cs with
    | nil => rfl
    | cons c rest => by_cases underscore : c = '_' <;> simp [underscore]

theorem yields_pointContacts (negated : Bool) (points : List (String × Option String)) (m : σ) :
    Yields (points.mapM (c.pointContact negated)) m (points.map (c.contactOf negated)) []
      (missingPoints (.unknownSensor · c.settings.alwaysOff) points) m := by
  refine yields_mapM_points (fun point => ?_) points
  rcases point with ⟨name, _ | device⟩
  · exact Yields.warn.bind .pure
  · exact .pure

/-- What a look-up of a sensor comes to, if the sensor's name is so many underscores and the base. A
timer is one contact, and nothing is looked up for it. Any other base stands for its points, and
each of these for one contact: its address, inverted if there is an underscore, or the signal that
is always off and a warning about the point. Nothing else is left, and no rung at all. -/
structure LookedUp (initial m : σ) (owner : Owner) (underscores : Nat) (base : String)
    (count : Option UInt32) (scope : String) (lookup : Emission σ (List Contact)) : Prop where
  timer : (∃ number, Device.Names base "T" number) →
    lookup = pure [⟨base, decide (0 < underscores)⟩]
  symbol : (¬∃ number, Device.Names base "T" number) → ∃ points m',
    Yields lookup m (points.map (c.contactOf (decide (0 < underscores)))) []
      (missingPoints (.unknownSensor · c.settings.alwaysOff) points) m' ∧
    c.Reached initial m' ∧ points.map Prod.fst = pointNames base count ∧
    points.length = max 1 (count.getD 1).toNat ∧
    ∀ point ∈ points, c.resolver.Settles initial ⟨point.1, false, scope, owner.recordId⟩ point.2

theorem sensors_exact (owner : Owner) (name : String) (count : Option UInt32) (scope : String)
    (hm : c.Reached initial m) : ∃ underscores base, SensorName name underscores base ∧
      c.LookedUp initial m owner underscores base count scope
        (c.sensors owner name count scope) := by
  obtain ⟨underscores, named, inverted⟩ := exists_sensorName name
  refine ⟨underscores, sensorBase name, named, fun timer => ?_, fun symbol => ?_⟩
  · rw [sensors_eq, if_pos (Device.isTimerReference_iff.mpr timer), inverted]
  · obtain ⟨points, m', looked, hm', names, settled⟩ := c.yields_resolvePoints
      ⟨sensorBase name, false, scope, owner.recordId⟩ count hm
    rw [sensors_eq, if_neg fun reference => symbol (Device.isTimerReference_iff.mp reference),
      ← inverted]
    have length : points.length = max 1 (count.getD 1).toNat := by
      rw [← length_pointNames (sensorBase name), ← names, List.length_map]
    exact ⟨points, m', looked.bind (c.yields_pointContacts _ points m'), hm', names, length,
      settled⟩

end Context

end Rungs
