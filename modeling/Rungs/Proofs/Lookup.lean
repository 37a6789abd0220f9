import Rungs.Context
import Rungs.Proofs.Emission

/-! What the lookups through a context yield: a block that fits, addresses that the resolver has
answered, contacts that a sensor's name stands for. None of them writes a rung. -/

namespace Rungs

variable {σ : Type}

namespace Resolver

/-- The memories that questions to the resolver lead to. -/
inductive Reachable (v : Resolver σ) (initial : σ) : σ → Prop
  | start : v.Reachable initial initial
  | resolve {m : σ} (r : Request) (h : v.Reachable initial m) :
      v.Reachable initial (v.resolve r m).2
  | range {m : σ} (pattern scope : String) (id : Int32) (h : v.Reachable initial m) :
      v.Reachable initial (v.range pattern scope id m).2

/-- An address that a request may be answered with: by a lookup of its own, or as the member of a
numbered family that bears its name and direction. -/
inductive Answers (v : Resolver σ) (initial : σ) (r : Request) : String → Prop
  | single {m : σ} {address : String} (hm : v.Reachable initial m)
      (h : (v.resolve r m).1 = some address) : v.Answers initial r address
  | member {pattern : String} {m : σ} {p : IoPoint} (hm : v.Reachable initial m)
      (mem : p ∈ (v.range pattern r.scope r.recordId m).1) (direction : p.isOutput = r.isOutput)
      (name : p.name = r.name) : v.Answers initial r p.effectiveAddress

end Resolver

def TimerLookup.isFound : TimerLookup → Bool
  | .found _ => true
  | _ => false

theorem TimerLookup.isFound_iff {l : TimerLookup} : l.isFound = true ↔ ∃ t, l = .found t := by
  cases l <;> simp [isFound]

/-- The first item of a list that has the property. -/
def FirstOf {α : Type} (p : α → Prop) (xs : List α) (x : α) : Prop :=
  ∃ before after, xs = before ++ x :: after ∧ p x ∧ ∀ y ∈ before, ¬p y

theorem find?_eq_some_iff_firstOf {α : Type} {p : α → Bool} {q : α → Prop} {xs : List α} {x : α}
    (same : ∀ y, p y = true ↔ q y) : xs.find? p = some x ↔ FirstOf q xs x := by
  rw [List.find?_eq_some_iff_append, FirstOf]
  constructor
  · rintro ⟨suits, before, after, eq, others⟩
    refine ⟨before, after, eq, (same x).mp suits, fun y mem has => ?_⟩
    have fails := others y mem
    rw [(same y).mpr has] at fails
    cases fails
  · rintro ⟨before, after, eq, has, others⟩
    refine ⟨(same x).mpr has, before, after, eq, fun y mem => ?_⟩
    rw [Bool.not_eq_true', ← Bool.not_eq_true, same]
    exact others y mem

/-- The allocation of an entity is the first that is listed for it. -/
theorem Snapshot.allocation?_eq_some_iff {s : Snapshot} {kind : EntityKind} {id : Int32}
    {a : Allocation} : s.allocation? kind id = some a ↔
      FirstOf (fun a => a.kind = kind ∧ a.recordId = id) s.allocations a :=
  find?_eq_some_iff_firstOf fun a => by rw [Bool.and_eq_true, beq_iff_eq, beq_iff_eq]

theorem Snapshot.mem_of_allocation? {s : Snapshot} {kind : EntityKind} {id : Int32}
    {a : Allocation} (h : s.allocation? kind id = some a) :
    a ∈ s.allocations ∧ a.kind = kind ∧ a.recordId = id := by
  refine ⟨List.mem_of_find?_eq_some h, ?_⟩
  simpa using List.find?_some h

theorem Snapshot.block?_eq_some_iff {s : Snapshot} {kind : EntityKind} {id : Int32} {b : Block} :
    s.block? kind id = some b ↔ s.allocation? kind id = some b.allocation := by
  rw [block?, Option.map_eq_some_iff]
  constructor
  · rintro ⟨a, found, rfl⟩
    exact found
  · exact fun found => ⟨b.allocation, found, rfl⟩

/-- A timer that is found is one of the category that the entity owns. -/
theorem Snapshot.owned_of_timer {s : Snapshot} {kind : EntityKind} {id : Int32}
    {category : TimerCategory} {t : Timer} (h : s.timer kind id category = .found t) :
    t ∈ s.timers ∧ t.categoryId = category.id ∧ t.ownedBy kind id = true := by
  unfold timer at h
  split at h
  next => cases h
  next only eq =>
    cases h
    have mem : t ∈ [t] := List.mem_singleton_self t
    rw [← eq] at mem
    simpa using List.mem_filter.mp mem
  next => cases h

theorem Snapshot.mem_of_timer {s : Snapshot} {kind : EntityKind} {id : Int32}
    {category : TimerCategory} {t : Timer} (h : s.timer kind id category = .found t) :
    t ∈ s.timers := (Snapshot.owned_of_timer h).1

namespace Context

variable (c : Context σ)

/-- The block is the one set aside for the owner, and all the roles lie in it and in 32 bits. -/
structure Fits {ρ : Type} [Role ρ] (owner : Owner) (roles : List ρ) (b : Block) : Prop where
  found : c.snapshot.block? owner.kind owner.recordId = some b
  long : requiredBits roles ≤ b.allocation.count.toNat
  addressable : b.allocation.addressable (requiredBits roles) = true

/-- The memories that questions to the context's resolver lead to. -/
abbrev Reached (initial : σ) : σ → Prop := c.resolver.Reachable initial

/-- A contact that a sensor's name may stand for. -/
inductive Senses (initial : σ) (owner : Owner) (scope name : String) : Contact → Prop
  | timer (h : Device.isTimerReference (sensorBase name) = true) :
      Senses initial owner scope name ⟨sensorBase name, isInvertedSensor name⟩
  | point {point address : String}
      (h : c.resolver.Answers initial ⟨point, false, scope, owner.recordId⟩ address) :
      Senses initial owner scope name ⟨address, isInvertedSensor name⟩
  | missing : Senses initial owner scope name c.alwaysOff

variable {initial : σ} {I : σ → Prop} {P : Rung → Prop}

open Emission

/-- A block is there from the start, or nothing follows. -/
theorem block_cases {ρ : Type} [Role ρ] (owner : Owner) (roles : List ρ) :
    (∃ f, c.block owner roles = .halt f) ∨
      ∃ b, c.block owner roles = pure b ∧ c.Fits owner roles b := by
  unfold block
  split
  next => exact .inl ⟨_, rfl⟩
  next a found =>
    by_cases short : a.count.toNat < requiredBits roles
    · exact .inl ⟨.allocationTooShort a (requiredBits roles), if_pos short⟩
    · by_cases addressable : a.addressable (requiredBits roles) = true
      · refine .inr ⟨⟨a⟩, ?_, ?_, Nat.le_of_not_lt short, addressable⟩
        · rw [if_neg short, if_pos addressable]
        · exact Snapshot.block?_eq_some_iff.mpr found
      · refine .inl ⟨.allocationOverflows a (requiredBits roles), ?_⟩
        rw [if_neg short, if_neg addressable]

theorem emits_block {ρ : Type} [Role ρ] (owner : Owner) (roles : List ρ) :
    Emits I P (c.block owner roles) (c.Fits owner roles) := by
  rcases c.block_cases owner roles with ⟨f, halts⟩ | ⟨b, returns, fits⟩
  · rw [halts]
    exact Emits.halt
  · rw [returns]
    exact Emits.pure fits

theorem rungs_block {ρ : Type} [Role ρ] (owner : Owner) (roles : List ρ) (m : σ) :
    ((c.block owner roles).run m).rungs = [] :=
  List.eq_nil_iff_forall_not_mem.mpr fun _ mem =>
    (c.emits_block (I := fun _ => True) (P := fun _ => False) owner roles).rung trivial mem

theorem emits_resolve (r : Request) :
    Emits (c.Reached initial) P (c.resolve r) fun answer =>
      ∀ address, answer = some address → c.resolver.Answers initial r address :=
  Emits.consult fun _ hm => ⟨hm.resolve r, fun _ h => .single hm h⟩

theorem emits_resolveMember {family : List IoPoint} {r : Request} {pattern : String} {m : σ}
    (hm : c.resolver.Reachable initial m)
    (h : family = (c.resolver.range pattern r.scope r.recordId m).1) :
    Emits (c.Reached initial) P (c.resolveMember family r) fun answer =>
      ∀ address, answer = some address → c.resolver.Answers initial r address := by
  unfold resolveMember
  split
  next only single =>
    refine Emits.pure fun address eq => ?_
    have mem : only ∈ family.filter fun p => p.isOutput == r.isOutput && p.name == r.name := by
      rw [single]
      exact List.mem_singleton_self only
    obtain ⟨inside, suits⟩ := List.mem_filter.mp mem
    rw [Bool.and_eq_true, beq_iff_eq, beq_iff_eq] at suits
    rw [← Option.some.inj eq]
    exact .member hm (h ▸ inside) suits.1 suits.2
  next => exact c.emits_resolve r

theorem emits_resolvePoints (base : Request) (count : Option UInt32) :
    Emits (c.Reached initial) P (c.resolvePoints base count) fun points =>
      ∀ point ∈ points, ∀ address, point.2 = some address →
        c.resolver.Answers initial { base with name := point.1 } address := by
  unfold resolvePoints
  refine Emits.ite (fun _ => ?_) fun _ => ?_
  · refine (c.emits_resolve base).bind fun answer found => Emits.pure fun point mem => ?_
    rw [List.mem_singleton.mp mem]
    exact found
  · refine (Emits.consult (Q := fun family => ∃ m, c.resolver.Reachable initial m ∧
      family = (c.resolver.range base.name base.scope base.recordId m).1) fun m hm =>
        ⟨hm.range _ _ _, m, hm, rfl⟩).bind fun family known => ?_
    obtain ⟨m, hm, known⟩ := known
    refine (Emits.mapM (R := fun _ point => ∀ address, point.2 = some address →
      c.resolver.Answers initial { base with name := point.1 } address) fun i _ => ?_).imp
      fun points all point mem => (all point mem).elim fun _ found => found.2
    exact (c.emits_resolveMember (r := { base with name := Device.numbered base.name i })
      hm known).bind fun answer found => Emits.pure found

/-- The points bear the name itself, or the name and a number. -/
theorem emits_pointNames (base : Request) (count : Option UInt32) :
    Emits (fun _ => True) (fun _ => True) (c.resolvePoints base count) fun points =>
      ∀ point ∈ points, point.1 = base.name ∨ ∃ i, point.1 = Device.numbered base.name i := by
  unfold resolvePoints
  refine Emits.ite (fun _ => ?_) fun _ => ?_
  · refine (Emits.any _).bind fun answer _ => Emits.pure fun point mem => ?_
    rw [List.mem_singleton.mp mem]
    exact .inl rfl
  · refine (Emits.any _).bind fun family _ => ?_
    refine (Emits.mapM (R := fun i point => point.1 = Device.numbered base.name i)
      fun i _ => ?_).imp fun points all point mem => ?_
    · exact (Emits.any _).bind fun answer _ => Emits.pure rfl
    · obtain ⟨i, _, named⟩ := all point mem
      exact .inr ⟨i, named⟩

/-- Every point is looked up, whether it has an address or not. -/
theorem ends_resolvePoints (base : Request) (count : Option UInt32) :
    Ends (c.resolvePoints base count) := by
  unfold resolvePoints
  split
  · exact .bind (.consult _) fun _ => .pure _
  · refine .bind (.consult _) fun family => .mapM (fun i => .bind ?_ fun _ => .pure _) _
    unfold resolveMember
    split
    · exact .pure _
    · exact .consult _

theorem rungs_resolvePoints (base : Request) (count : Option UInt32) (m : σ) :
    ((c.resolvePoints base count).run m).rungs = [] := by
  have here : c.Reached m m := .start
  refine List.eq_nil_iff_forall_not_mem.mpr fun r mem => ?_
  exact (c.emits_resolvePoints (P := fun _ => False) base count).rung here mem

theorem emits_sensors (owner : Owner) (name : String) (count : Option UInt32) (scope : String) :
    Emits (c.Reached initial) P (c.sensors owner name count scope) fun contacts =>
      ∀ contact ∈ contacts, c.Senses initial owner scope name contact := by
  unfold sensors
  refine Emits.ite (fun reference => Emits.pure fun contact mem => ?_) fun _ => ?_
  · rw [List.mem_singleton.mp mem]
    exact .timer reference
  · refine (c.emits_resolvePoints _ count).bind fun points known => ?_
    refine (Emits.mapM (R := fun _ contact => c.Senses initial owner scope name contact)
      fun point mem => ?_).imp fun contacts all contact mem =>
        (all contact mem).elim fun _ found => found.2
    unfold pointContact
    split
    next address eq => exact Emits.pure (.point (known point mem address eq))
    next => exact (Emits.warn (Q := fun _ => True) trivial).bind fun _ _ => Emits.pure .missing

/-- Looking a sensor up writes no rung. -/
theorem rungs_sensors (owner : Owner) (name : String) (count : Option UInt32) (scope : String)
    (m : σ) : ((c.sensors owner name count scope).run m).rungs = [] := by
  have here : c.Reached m m := .start
  refine List.eq_nil_iff_forall_not_mem.mpr fun r mem => ?_
  exact (c.emits_sensors (P := fun _ => False) owner name count scope).rung here mem

/-- The points that are looked up for a sensor's name. A timer reference is not looked up. -/
def sensorPoints (owner : Owner) (name : String) (count : Option UInt32) (scope : String) :
    Emission σ (List (String × Option String)) :=
  if Device.isTimerReference (sensorBase name) then pure []
  else c.resolvePoints ⟨sensorBase name, false, scope, owner.recordId⟩ count

/-- The contact that stands for a point. -/
def contactOf (negated : Bool) (point : String × Option String) : Contact :=
  match point.2 with
  | some device => ⟨device, negated⟩
  | none => c.alwaysOff

theorem returns_pointContact (negated : Bool) (point : String × Option String) (m : σ) :
    Returns (c.pointContact negated point) m (c.contactOf negated point) [] m := by
  rcases point with ⟨name, device | _⟩
  · exact .bind .warn .pure
  · exact .pure

theorem sensors_eq (owner : Owner) (name : String) (count : Option UInt32) (scope : String) :
    c.sensors owner name count scope =
      if Device.isTimerReference (sensorBase name) then
        pure [⟨sensorBase name, isInvertedSensor name⟩]
      else c.resolvePoints ⟨sensorBase name, false, scope, owner.recordId⟩ count >>= fun points =>
        points.mapM (c.pointContact (isInvertedSensor name)) := rfl

/-- The contacts of a sensor are found by looking up its points and nothing else. A point without an
address brings the signal that is always off among them. -/
theorem sensors_of_points (owner : Owner) (name : String) (count : Option UInt32) (scope : String)
    (m : σ) : ∃ points contacts m',
      Returns (c.sensorPoints owner name count scope) m points [] m' ∧
        Returns (c.sensors owner name count scope) m contacts [] m' ∧
          ∀ point ∈ points, point.2 = none → c.alwaysOff ∈ contacts := by
  rw [sensors_eq, sensorPoints]
  split
  next => exact ⟨[], _, m, .pure, .pure, nofun⟩
  next =>
    obtain ⟨points, ok⟩ := c.ends_resolvePoints
      ⟨sensorBase name, false, scope, owner.recordId⟩ count m
    have looked := (Returns.of_ok ok).silent (c.rungs_resolvePoints _ count m)
    have named := Returns.mapM (fun point => c.returns_pointContact (isInvertedSensor name) point
      ((c.resolvePoints ⟨sensorBase name, false, scope, owner.recordId⟩ count).run m).memory) points
    refine ⟨points, _, _, looked, looked.bind named, fun point mem missing => ?_⟩
    refine List.mem_map.mpr ⟨point, mem, ?_⟩
    rw [contactOf, missing]

end Context

end Rungs
