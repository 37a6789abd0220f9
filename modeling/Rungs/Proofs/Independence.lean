import Rungs.Proofs.Conformance
import Rungs.Proofs.Questions

/-! Generations that share one memory. A table of points remembers what was chosen, and nothing but
these choices passes from one entity to the next and from one generation to the next. If its selector
looks at the request and the candidates only, the memory makes no difference
(`Service.parts_eq_partsApart`). Whatever the selector does, a generation that is run again finds all
its choices on record (`Service.retraces_generate`). -/

namespace Rungs

open Emission

/-! ## The memory of a table -/

/-- The pick depends on the request and the candidates only. -/
def Selector.Stateless (selector : Selector) : Prop :=
  ∀ memory memory' r candidates, selector memory r candidates = selector memory' r candidates

namespace IoTable

variable (t : IoTable) {memory later : List Choice}

/-- What the selector would lead to for a request with several candidates. -/
def pick (memory : List Choice) (r : Request) : Option String :=
  (t.selector memory r (t.candidates r)).map fun p => p.val.effectiveAddress

/-- A request is answered without a choice, by an earlier choice, or by a choice that goes on
record. -/
theorem resolve_cases (r : Request) :
    (∃ answer, ∀ memory, t.resolve r memory = (answer, memory)) ∨
      ∀ memory, t.resolve r memory =
        match remembered? memory r with
        | some choice => (choice.address, memory)
        | none => (t.pick memory r, memory ++ [⟨r, t.candidates r, t.pick memory r⟩]) := by
  unfold resolve pick
  split
  · exact .inl ⟨_, fun _ => rfl⟩
  · exact .inl ⟨_, fun _ => rfl⟩
  · exact .inr fun _ => rfl

/-- What is on record stays on record. -/
theorem remembered?_mono {r : Request} {choice : Choice} (h : memory <+: later)
    (found : remembered? memory r = some choice) : remembered? later r = some choice := by
  obtain ⟨rest, rfl⟩ := h
  rw [remembered?] at found ⊢
  rw [List.find?_append, found]
  rfl

theorem remembered?_concat (choice : Choice) (h : remembered? memory choice.request = none) :
    remembered? (memory ++ [choice]) choice.request = some choice := by
  rw [remembered?] at h ⊢
  rw [List.find?_append, h]
  simp

/-- Every choice on record is what a table without memory would choose. -/
def Settled (memory : List Choice) : Prop :=
  ∀ choice ∈ memory, choice.address = (t.resolve choice.request []).1

theorem settled_nil : t.Settled [] := nofun

variable {t}

/-- A table of settled choices answers as one without memory. -/
theorem Settled.resolve (stateless : t.selector.Stateless) (h : t.Settled memory) (r : Request) :
    (t.resolve r memory).1 = (t.resolve r []).1 ∧ t.Settled (t.resolve r memory).2 := by
  rcases t.resolve_cases r with ⟨answer, always⟩ | chosen
  · rw [always, always]
    exact ⟨rfl, h⟩
  · have fresh : (t.resolve r []).1 = t.pick [] r := by rw [chosen]; rfl
    have picked : t.pick memory r = (t.resolve r []).1 := by
      rw [fresh, pick, stateless memory [] r]
      rfl
    rw [chosen memory]
    cases found : remembered? memory r with
    | some choice =>
      refine ⟨?_, h⟩
      rw [← request_of_remembered found]
      exact h choice (List.mem_of_find?_eq_some found)
    | none =>
      refine ⟨picked, fun choice mem => ?_⟩
      rcases List.mem_append.mp mem with old | new
      · exact h choice old
      · rw [List.mem_singleton.mp new]
        exact picked

/-- Settled choices are not told apart by the table's answers. -/
theorem indifferent (stateless : t.selector.Stateless) : t.resolver.Indifferent t.Settled where
  resolve r hm := (hm.resolve stateless r).2
  range _ _ _ hm := hm
  answer r hm hm' := by
    rw [resolver, (hm'.resolve stateless r).1, (hm.resolve stateless r).1]
  family _ _ _ _ _ := rfl

theorem settled_of_reachable (stateless : t.selector.Stateless)
    (h : t.resolver.Reachable [] memory) : t.Settled memory := by
  induction h with
  | start => exact t.settled_nil
  | resolve r _ ih => exact (ih.resolve stateless r).2
  | range _ _ _ _ ih => exact ih

variable (t)

/-- The memory is only added to. -/
theorem prefix_resolve (r : Request) (memory : List Choice) :
    memory <+: (t.resolve r memory).2 := by
  rcases t.resolve_cases r with ⟨answer, always⟩ | chosen
  · exact ⟨[], by rw [always, List.append_nil]⟩
  · rw [chosen]
    split
    · exact List.prefix_rfl
    · exact List.prefix_append _ _

/-- Once a request was answered, it is answered the same and nothing goes on record. -/
theorem resolve_again {r : Request} (h : (t.resolve r memory).2 <+: later) :
    t.resolve r later = ((t.resolve r memory).1, later) := by
  rcases t.resolve_cases r with ⟨answer, always⟩ | chosen
  · rw [always, always]
  · rw [chosen] at h ⊢
    rw [chosen memory]
    cases found : remembered? memory r with
    | some choice =>
      rw [found] at h
      rw [remembered?_mono h found]
    | none =>
      rw [found] at h
      rw [remembered?_mono h (remembered?_concat ⟨r, _, _⟩ found)]

end IoTable

/-! ## Running again -/

/-- The memory is only added to, and a run from a memory that holds all that was added yields the
same and adds nothing. -/
def Retraces {β : Type} (run : List Choice → β × List Choice) : Prop :=
  ∀ memory, memory <+: (run memory).2 ∧
    ∀ later, (run memory).2 <+: later → run later = ((run memory).1, later)

/-- One run after the other, where what the first yields may decide on the second. -/
theorem Retraces.andThen {β γ : Type} {run : List Choice → β × List Choice}
    {next : β → List Choice → γ × List Choice} (first : Retraces run)
    (second : ∀ b, Retraces (next b)) :
    Retraces fun memory => next (run memory).1 (run memory).2 := by
  intro memory
  obtain ⟨grows, again⟩ := first memory
  obtain ⟨grows', again'⟩ := second (run memory).1 (run memory).2
  refine ⟨grows.trans grows', fun later whole => ?_⟩
  have half := again later (grows'.trans whole)
  simp only [half]
  exact again' later whole

/-- A run retraces if only what it yields is changed, by a function of that. -/
theorem Retraces.map {β γ : Type} {run : List Choice → β × List Choice} (h : Retraces run)
    (f : β → γ) : Retraces fun memory => (f (run memory).1, (run memory).2) := by
  have unchanged (b : β) : Retraces fun memory => (f b, memory) :=
    fun _ => ⟨List.prefix_rfl, fun _ _ => rfl⟩
  exact h.andThen unchanged

section Emissions

variable {t : IoTable} {α : Type}

/-- An emission asks again what it has asked before, and finds every answer on record. -/
theorem Emission.Asks.again {x : Emission (List Choice) α} (h : Asks t.resolver x)
    (memory : List Choice) : memory <+: (x.run memory).memory ∧
      ∀ later, (x.run memory).memory <+: later →
        x.run later = { x.run memory with memory := later } := by
  induction h generalizing memory with
  | pure a => exact ⟨List.prefix_rfl, fun _ _ => rfl⟩
  | @bind _ _ x f _ _ ihx ihf =>
    -- the memory after the whole run holds that after its first part as well
    obtain ⟨grows, again⟩ := ihx memory
    cases result : (x.run memory).result with
    | ok a =>
      obtain ⟨grows', again'⟩ := ihf a (x.run memory).memory
      rw [run_bind_ok result]
      refine ⟨grows.trans grows', fun later whole => ?_⟩
      have here := again later (grows'.trans whole)
      have result' : (x.run later).result = .ok a := by rw [here]; exact result
      rw [run_bind_ok result', here, again' later whole]
    | error e =>
      rw [run_bind_error result]
      refine ⟨grows, fun later whole => ?_⟩
      have here := again later whole
      have result' : (x.run later).result = .error e := by rw [here]; exact result
      rw [run_bind_error result', here]
  | emitAll rungs => exact ⟨List.prefix_rfl, fun _ _ => rfl⟩
  | warn f => exact ⟨List.prefix_rfl, fun _ _ => rfl⟩
  | halt f => exact ⟨List.prefix_rfl, fun _ _ => rfl⟩
  | resolve r =>
    refine ⟨t.prefix_resolve r memory, fun later whole => ?_⟩
    have answered : t.resolver.resolve r later = _ := t.resolve_again whole
    rw [run_consult, answered]
    rfl
  | range pattern scope id => exact ⟨List.prefix_rfl, fun _ _ => rfl⟩

theorem retraces_synthesizeEach {owner : α → Owner} {build : α → Emission (List Choice) Unit}
    (asks : ∀ x, Asks t.resolver (build x)) (xs : List α) :
    Retraces (synthesizeEach owner build xs) := by
  induction xs with
  | nil => exact fun _ => ⟨List.prefix_rfl, fun _ _ => rfl⟩
  | cons x xs ih =>
    have first : Retraces fun memory =>
        (((build x).run memory).synthesis (owner x), ((build x).run memory).memory) := by
      intro memory
      obtain ⟨grows, again⟩ := (asks x).again memory
      refine ⟨grows, fun later whole => ?_⟩
      simp only [again later whole]
      rfl
    exact first.andThen fun synthesis => ih.map (synthesis ++ ·)

end Emissions

namespace Service

/-- The service of a table, with any lookup of conditions. -/
def ofTable (t : IoTable) (settings : Settings)
    (conditionIds : ConditionKind → EntityKind → Int32 → List Int32) : Service (List Choice) :=
  ⟨settings, t.resolver, conditionIds⟩

/-- A generation that finds all its choices on record yields what it yielded when it made them. -/
theorem retraces_generate (t : IoTable) (settings : Settings)
    (conditionIds : ConditionKind → EntityKind → Int32 → List Int32) (s : Snapshot) :
    Retraces ((ofTable t settings conditionIds).generate s) := by
  let c := (ofTable t settings conditionIds).context s
  have operations : Retraces c.operations := retraces_synthesizeEach c.asks_operation _
  have cylinders : Retraces c.cylinders := retraces_synthesizeEach c.asks_cylinder _
  have processes : Retraces c.processes := retraces_synthesizeEach c.asks_process _
  have details : Retraces c.details := retraces_synthesizeEach c.asks_detail _
  exact operations.andThen fun o => cylinders.andThen fun cy => processes.andThen fun p =>
    details.map fun d =>
      Output.ofSections [(.operation, o), (.cylinder, cy), (.process, p), (.detail, d)]

end Service

/-! ## Entities apart from one another -/

namespace Service

variable {σ : Type} (v : Service σ) (s : Snapshot)

/-- What entities yield together, if each is generated by itself from the same memory. -/
def apart (fresh : σ) (es : List Entity) : Synthesis where
  rungs := es.flatMap fun e => (v.contribution s (e, fresh)).rungs
  diagnostics := es.flatMap fun e => (v.contribution s (e, fresh)).diagnostics

/-- The parts of a program whose entities were generated apart from one another. -/
def partsApart (fresh : σ) : List (EntityKind × Synthesis) :=
  [(.operation, v.apart s fresh (s.sortedOperations.map .operation)),
   (.cylinder, v.apart s fresh (s.sortedCylinders.map .cylinder)),
   (.process, v.apart s fresh (s.sortedProcesses.map .process)),
   (.detail, v.apart s fresh (s.sortedDetails.map .detail))]

variable {v s} {I : σ → Prop} {m fresh : σ}

/-- If the answers do not tell memories apart, an entity yields the same from each of them. -/
theorem contribution_apart (alike : v.resolver.Indifferent I) (hf : I fresh) (hm : I m)
    (e : Entity) : v.contribution s (e, m) = v.contribution s (e, fresh) := by
  obtain ⟨_, same⟩ := ((v.context s).asks_entity e).agrees alike hf hm
  rw [contribution, same]
  rfl

theorem synthesizeEach_apart (alike : v.resolver.Indifferent I) (hf : I fresh) (hm : I m)
    (es : List Entity) :
    (synthesizeEach Entity.owner (v.context s).entity es m).1 = v.apart s fresh es ∧
      I (synthesizeEach Entity.owner (v.context s).entity es m).2 := by
  induction es generalizing m with
  | nil => exact ⟨rfl, hm⟩
  | cons e es ih =>
    obtain ⟨kept, _⟩ := ((v.context s).asks_entity e).agrees alike hm hf
    obtain ⟨rest, after⟩ := ih kept
    have here : (((v.context s).entity e).run m).synthesis e.owner = _ :=
      contribution_apart alike hf hm e
    refine ⟨?_, after⟩
    rw [synthesizeEach, rest, here]
    rfl

/-- The entities of a generation do not influence each other, nor what is generated later. -/
theorem parts_eq_partsApart (alike : v.resolver.Indifferent I) (hf : I fresh) (hm : I m) :
    v.parts s m = v.partsApart s fresh ∧ I (v.generate s m).2 := by
  let c := v.context s
  obtain ⟨operations, h⟩ := synthesizeEach_apart (s := s) alike hf hm
    (s.sortedOperations.map .operation)
  obtain ⟨cylinders, h⟩ := synthesizeEach_apart (s := s) alike hf h
    (s.sortedCylinders.map .cylinder)
  obtain ⟨processes, h⟩ := synthesizeEach_apart (s := s) alike hf h
    (s.sortedProcesses.map .process)
  obtain ⟨details, h⟩ := synthesizeEach_apart (s := s) alike hf h (s.sortedDetails.map .detail)
  rw [partsApart, ← operations, ← cylinders, ← processes, ← details]
  simp only [synthesizeEach_map] at h ⊢
  exact ⟨rfl, h⟩

/-- What is generated does not depend on the memory it starts from. -/
theorem generate_fresh (alike : v.resolver.Indifferent I) (hf : I fresh) (hm : I m) :
    (v.generate s m).1 = (v.generate s fresh).1 := by
  rw [generate_eq, generate_eq, (parts_eq_partsApart alike hf hm).1,
    (parts_eq_partsApart alike hf hf).1]

/-! ## One generation after another -/

variable (v)

/-- The memory that the generation at an index starts from. -/
def memoryBefore (snapshots : List Snapshot) (m : σ) (i : Nat) : σ :=
  (v.runs (snapshots.take i) m).2

variable {v} {snapshots : List Snapshot} {i : Nat}

theorem memory_runs_append (a b : List Snapshot) :
    (v.runs (a ++ b) m).2 = (v.runs b (v.runs a m).2).2 := by
  induction a generalizing m with
  | nil => rfl
  | cons s a ih => exact ih

theorem memoryBefore_succ (h : snapshots[i]? = some s) :
    v.memoryBefore snapshots m (i + 1) = (v.generate s (v.memoryBefore snapshots m i)).2 := by
  rw [memoryBefore, List.take_add_one, h, memory_runs_append]
  rfl

theorem getElem?_runs (h : snapshots[i]? = some s) :
    (v.runs snapshots m).1[i]? = some (v.generate s (v.memoryBefore snapshots m i)).1 := by
  induction snapshots generalizing m i with
  | nil => cases h
  | cons first rest ih =>
    cases i with
    | zero =>
      cases h
      rfl
    | succ i => exact ih h

/-- Where the answers do not tell memories apart, each generation is like the first. -/
theorem runs_apart (alike : v.resolver.Indifferent I) (hf : I fresh) (hm : I m)
    (snapshots : List Snapshot) :
    (v.runs snapshots m).1 = snapshots.map fun s => (v.generate s fresh).1 := by
  induction snapshots generalizing m with
  | nil => rfl
  | cons s rest ih =>
    have here := generate_fresh (s := s) alike hf hm
    have later := ih (parts_eq_partsApart (s := s) alike hf hm).2
    rw [runs, List.map_cons, here, later]

end Service

section Table

variable {t : IoTable} {settings : Settings}
  {conditionIds : ConditionKind → EntityKind → Int32 → List Int32}

theorem Service.prefix_runs (snapshots : List Snapshot) (m : List Choice) :
    m <+: ((ofTable t settings conditionIds).runs snapshots m).2 := by
  induction snapshots generalizing m with
  | nil => exact List.prefix_rfl
  | cons s rest ih =>
    exact ((retraces_generate t settings conditionIds s) m).1.trans (ih _)

theorem Service.prefix_memoryBefore {snapshots : List Snapshot} {m : List Choice} {i j : Nat}
    (h : i ≤ j) : (ofTable t settings conditionIds).memoryBefore snapshots m i <+:
      (ofTable t settings conditionIds).memoryBefore snapshots m j := by
  obtain ⟨k, rfl⟩ := Nat.exists_eq_add_of_le h
  rw [memoryBefore, memoryBefore, List.take_add, memory_runs_append]
  exact prefix_runs _ _

end Table

namespace Service

/-- Generations of one service do not influence each other. With a selector that looks at the request
and the candidates only, each yields what a fresh service would. With any selector a snapshot that
was generated before yields the same again, and as every question to the selector goes on record, it
is asked nothing. -/
theorem runs_independent (points : List IoPoint) (selector : Selector) (conditions : List Condition)
    (settings : Settings) (snapshots : List Snapshot) :
    let v := ofTables { points, selector } conditions settings
    (selector.Stateless →
        (v.runs snapshots []).1 = snapshots.map fun s => (v.generate s []).1) ∧
      ∀ i j s, i < j → snapshots[i]? = some s → snapshots[j]? = some s →
        ∃ output, (v.runs snapshots []).1[i]? = some output ∧
          (v.runs snapshots []).1[j]? = some output ∧
          v.memoryBefore snapshots [] (j + 1) = v.memoryBefore snapshots [] j := by
  intro v
  let t : IoTable := { points, selector }
  constructor
  · intro stateless
    exact runs_apart (IoTable.indifferent (t := t) stateless) t.settled_nil t.settled_nil snapshots
  · intro i j s before first second
    -- all that the first of the two has chosen is on record when the second begins
    have recorded : (v.generate s (v.memoryBefore snapshots [] i)).2 <+:
        v.memoryBefore snapshots [] j := by
      rw [← memoryBefore_succ first]
      exact prefix_memoryBefore (t := t) before
    obtain ⟨_, again⟩ := retraces_generate t settings (Rungs.conditionIds conditions) s
      (v.memoryBefore snapshots [] i)
    have same : v.generate s (v.memoryBefore snapshots [] j) = _ := again _ recorded
    refine ⟨_, getElem?_runs first, ?_, ?_⟩
    · rw [getElem?_runs second, same]
      rfl
    · rw [memoryBefore_succ second, same]

end Service

/-- The points of `oneStroke`, and a second one for each of its sensors. -/
def IoTable.twinPoints : List IoPoint :=
  Snapshot.oneStroke.points ++
    [{ id := 5, name := "XS", address := "X8" }, { id := 6, name := "XE", address := "X9" }]

/-- Picks the first candidate when it is asked for the first time, and the last ever after. -/
def Selector.fickle : Selector := fun memory _ candidates =>
  if memory.isEmpty then candidates.attach.head? else candidates.attach.getLast?

/-- Two questions are asked for `oneStroke`, and none when it comes again. -/
theorem runs_independent_twinPoints :
    let steady := Service.ofTables { points := IoTable.twinPoints, selector := .first } [] {}
    let fickle := Service.ofTables { points := IoTable.twinPoints, selector := .fickle } [] {}
    let snapshots := [Snapshot.oneStroke, {}, Snapshot.oneStroke]
    (steady.runs snapshots []).1 = snapshots.map (fun s => (steady.generate s []).1) ∧
      (fickle.memoryBefore snapshots [] 1).map (·.address) = [some "X0", some "X9"] ∧
      ∃ output, (fickle.runs snapshots []).1[0]? = some output ∧
        (fickle.runs snapshots []).1[2]? = some output ∧
        fickle.memoryBefore snapshots [] 3 = fickle.memoryBefore snapshots [] 2 := by
  intro steady fickle snapshots
  have stateless : Selector.first.Stateless := fun _ _ _ _ => rfl
  refine ⟨?_, by decide +kernel, ?_⟩
  · exact (Service.runs_independent _ _ [] {} snapshots).1 stateless
  · exact (Service.runs_independent IoTable.twinPoints .fickle [] {} snapshots).2 0 2
      Snapshot.oneStroke (by omega) rfl rfl

end Rungs
