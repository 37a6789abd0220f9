import Mathlib.Data.List.Perm.Basic
import Rungs.Proofs.Drivers
import Rungs.Proofs.Generation

/-! A generation as one sequence of turns. Each entity of the snapshot has one turn; what it writes
there and has on record is its contribution. The rows and the diagnostics of a program are those of
the contributions in order (`Service.rows_generate`, `Service.diagnostics_generate`). Each detail has
its turn once, with its process or after all processes. -/

namespace Rungs

inductive Entity where
  | operation (o : Operation)
  | cylinder (cy : Cylinder)
  | process (p : Process)
  | detail (d : Detail)
deriving DecidableEq, Repr, Inhabited

def Entity.owner : Entity → Owner
  | operation o => o.owner
  | cylinder cy => cy.owner
  | process p => p.owner
  | detail d => d.owner

def Entity.key (e : Entity) : EntityKind × Int32 := (e.owner.kind, e.owner.recordId)

def Context.entity {σ : Type} (c : Context σ) : Entity → Emission σ Unit
  | .operation o => c.operation o
  | .cylinder cy => c.cylinder cy
  | .process p => c.process p
  | .detail d => c.detail d

/-- All entities of a snapshot in the order in which they are generated. -/
def Snapshot.entities (s : Snapshot) : List Entity :=
  s.sortedOperations.map .operation ++ (s.sortedCylinders.map .cylinder ++
    (s.sortedProcesses.map .process ++ s.sortedDetails.map .detail))

section Each

variable {σ α β : Type} {owner : α → Owner} {build : α → Emission σ Unit}

theorem synthesizeEach_map (f : β → α) (xs : List β) (m : σ) :
    synthesizeEach owner build (xs.map f) m =
      synthesizeEach (owner ∘ f) (fun x => build (f x)) xs m := by
  induction xs generalizing m with
  | nil => rfl
  | cons x xs ih =>
    simp only [List.map_cons, synthesizeEach, ih]
    rfl

theorem synthesizeEach_append (xs ys : List α) (m : σ) :
    synthesizeEach owner build (xs ++ ys) m =
      ((synthesizeEach owner build xs m).1 ++
          (synthesizeEach owner build ys (synthesizeEach owner build xs m).2).1,
        (synthesizeEach owner build ys (synthesizeEach owner build xs m).2).2) := by
  induction xs generalizing m with
  | nil => rfl
  | cons x xs ih =>
    have assoc (a b c : Synthesis) : a ++ b ++ c = a ++ (b ++ c) := by
      show Synthesis.mk _ _ = Synthesis.mk _ _
      congr 1 <;> exact List.append_assoc ..
    simp only [List.cons_append, synthesizeEach, ih, assoc]

end Each

namespace Service

variable {σ : Type} (v : Service σ) (s : Snapshot) (m : σ)

def turns : List (Entity × σ) := Rungs.turns (v.context s).entity s.entities m

/-- What an entity yields in its turn. -/
def contribution (t : Entity × σ) : Synthesis :=
  (((v.context s).entity t.1).run t.2).synthesis t.1.owner

/-- What each entity yields, in the order of their turns. -/
def contributions : List (Entity × Synthesis) :=
  (v.turns s m).map fun t => (t.1, v.contribution s t)

/-- The sections of a program are one synthesis of all entities in a row. -/
theorem synthesis_entities :
    (synthesizeEach Entity.owner (v.context s).entity s.entities m).1.rungs =
        ((v.parts s m).flatMap fun part => part.2.rungs) ∧
      (synthesizeEach Entity.owner (v.context s).entity s.entities m).1.diagnostics =
        (v.parts s m).flatMap fun part => part.2.diagnostics := by
  simp only [Snapshot.entities, synthesizeEach_append, synthesizeEach_map]
  constructor
  · simp only [parts, List.flatMap_cons, List.flatMap_nil, List.append_nil]
    rfl
  · simp only [parts, List.flatMap_cons, List.flatMap_nil, List.append_nil]
    rfl

/-- The rows of a program are those of all contributions, numbered as they stand. -/
theorem rows_generate : (v.generate s m).1.program.rows =
    numberedFrom 0 ((v.contributions s m).flatMap fun e => e.2.rows) := by
  have stream : ((v.parts s m).flatMap fun part => part.2.rows) =
      streamRows ((v.parts s m).flatMap fun part => part.2.rungs) := (List.flatMap_assoc ..).symm
  have each : ((v.contributions s m).flatMap fun e => e.2.rows) =
      streamRows ((v.turns s m).flatMap fun t =>
        (((v.context s).entity t.1).run t.2).rungs) := by
    rw [contributions, List.flatMap_map, streamRows, List.flatMap_assoc]
    rfl
  rw [generate_eq, Output.rows_ofSections, stream, each, ← (v.synthesis_entities s m).1,
    (synthesizeEach_turns _ _).1]
  rfl

/-- The diagnostics of a program are those of all contributions. -/
theorem diagnostics_generate : (v.generate s m).1.diagnostics =
    (v.contributions s m).flatMap fun e => e.2.diagnostics := by
  have split : (v.generate s m).1.diagnostics =
      (v.parts s m).flatMap fun part => part.2.diagnostics := rfl
  rw [split, ← (v.synthesis_entities s m).2, (synthesizeEach_turns _ _).2, contributions,
    List.flatMap_map]
  rfl

variable {v s m}

/-- What stops a turn is on record for its entity. -/
theorem critical_of_turn {t : Entity × σ} {f : Finding} (mem : t ∈ v.turns s m)
    (stopped : (((v.context s).entity t.1).run t.2).result = .error f) :
    t.1.owner.critical f ∈ (v.generate s m).1.diagnostics := by
  rw [diagnostics_generate, contributions, List.flatMap_map]
  refine List.mem_flatMap.mpr ⟨t, mem, ?_⟩
  show t.1.owner.critical f ∈ Outcome.diagnostics _ _
  rw [Outcome.diagnostics, stopped]
  exact List.mem_append_right _ List.mem_cons_self

/-- Without a critical diagnostic every turn comes to its end. -/
theorem ok_of_turn (h : hasCritical (v.generate s m).1.diagnostics = false) :
    ∀ t ∈ v.turns s m, (((v.context s).entity t.1).run t.2).result = .ok () := by
  intro t mem
  rw [diagnostics_generate, contributions, List.flatMap_map] at h
  exact Outcome.ok_of_not_critical (not_critical_of_flatMap h mem)

/-- The rows of a turn are rows of the program in all but their numbers. -/
theorem drivers_of_turn {x : String} : drivers x (v.generate s m).1.program.rows =
    (v.turns s m).flatMap fun t =>
      drivers x (streamRows (((v.context s).entity t.1).run t.2).rungs) := by
  rw [rows_generate, drivers_numberedFrom, drivers_flatMap, contributions, List.flatMap_map]
  rfl

/-- The timers of a turn are timers of the program. -/
theorem mem_timersOf_generate {t : Entity × σ} (mem : t ∈ v.turns s m) {x : String}
    (h : x ∈ timersOf (streamRows (((v.context s).entity t.1).run t.2).rungs)) :
    x ∈ timersOf (v.generate s m).1.program.rows := by
  rw [rows_generate, timersOf_numberedFrom, contributions, List.flatMap_map]
  obtain ⟨row, inside, timer⟩ := List.mem_filterMap.mp h
  exact List.mem_filterMap.mpr ⟨row, List.mem_flatMap.mpr ⟨t, mem, inside⟩, timer⟩

/-- What no entity breaks holds of the memory at the start of every turn. -/
theorem invariant_of_turn {I : σ → Prop} (keeps : Preserves (v.context s) I) (hm : I m) :
    ∀ t ∈ v.turns s m, I t.2 := by
  refine memory_of_turn (fun e m' holds => ?_) hm
  cases e with
  | operation o => exact keeps.operation o m' holds
  | cylinder cy => exact keeps.cylinder cy m' holds
  | process p => exact keeps.process p m' holds
  | detail d => exact keeps.detail d m' holds

theorem map_fst_turns (v : Service σ) (s : Snapshot) (m : σ) :
    (v.turns s m).map Prod.fst = s.entities := Rungs.map_fst_turns _ _ _

end Service

/-! ## Turns of details -/

namespace Snapshot

variable {s : Snapshot}

/-- Records put into groups by distinct keys are those whose key is one of them. -/
theorem flatMap_filter_perm {α : Type} (key : α → Int32) {keys : List Int32}
    (distinct : keys.Nodup) (xs : List α) :
    (keys.flatMap fun k => xs.filter (key · == k)).Perm (xs.filter (keys.contains <| key ·)) := by
  induction keys with
  | nil => simp
  | cons k keys ih =>
    -- the group of `k` and the groups of the other keys share out the records of all keys
    obtain ⟨fresh, distinct⟩ := List.nodup_cons.mp distinct
    have group : xs.filter (key · == k) =
        (xs.filter ((k :: keys).contains <| key ·)).filter (key · == k) := by
      rw [List.filter_filter]
      refine List.filter_congr fun x _ => ?_
      by_cases same : key x = k
      · simp [same]
      · simp [same]
    have others : xs.filter (keys.contains <| key ·) =
        (xs.filter ((k :: keys).contains <| key ·)).filter fun x => !(key x == k) := by
      rw [List.filter_filter]
      refine List.filter_congr fun x _ => ?_
      by_cases same : key x = k
      · simp [same, fresh]
      · simp [same]
    have split := List.filter_append_perm (key · == k) (xs.filter ((k :: keys).contains <| key ·))
    rw [← group, ← others] at split
    exact ((ih distinct).append_left _).trans split

/-- Every detail is generated once, also one that is listed several times for as often. -/
theorem sortedDetails_perm (processes : (s.processes.map (·.id)).Nodup) :
    s.sortedDetails.Perm s.details := by
  have ids : (s.sortedProcesses.map (·.id)).Perm (s.processes.map (·.id)) :=
    (inOrder_perm _ _).map _
  have owned : (s.sortedProcesses.flatMap fun p => s.detailsOfProcess p.id).Perm
      (s.details.filter fun d => s.hasProcess d.processId) := by
    have groups : (s.sortedProcesses.flatMap fun p => s.detailsOfProcess p.id).Perm
        ((s.sortedProcesses.map (·.id)).flatMap fun id =>
          s.details.filter (·.processId == id)) := by
      rw [List.flatMap_map]
      exact List.Perm.flatMap_left _ fun p _ => inOrder_perm _ _
    have known : (s.details.filter fun d => s.hasProcess d.processId) =
        s.details.filter fun d => (s.sortedProcesses.map (·.id)).contains d.processId := by
      refine List.filter_congr fun d _ => ?_
      rw [Bool.eq_iff_iff, hasProcess_iff, List.contains_iff_mem, ids.mem_iff, List.mem_map]
    rw [known]
    exact groups.trans (flatMap_filter_perm Detail.processId (ids.nodup_iff.mpr processes) _)
  exact (owned.append (inOrder_perm _ _)).trans (List.filter_append_perm _ _)

end Snapshot

end Rungs
