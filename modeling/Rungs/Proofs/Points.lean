import Rungs.Proofs.Questions
import Rungs.Proofs.Ranges

/-! Numbered points, looked up as a family or one by one. A family is read once, for its scope and in
both directions; still each of its points gets the address that a lookup for its name alone would
give it, and the same questions are asked on the way (`Context.resolvePoints_eq_each`). -/

namespace Rungs

/-! ## One by one -/

/-- One lookup after the other: the answers, and the memory that is left. -/
def Resolver.resolveEach {σ : Type} (v : Resolver σ) : List Request → σ → List (Option String) × σ
  | [], m => ([], m)
  | r :: rs, m =>
    let (answer, m') := v.resolve r m
    let (answers, m'') := v.resolveEach rs m'
    (answer :: answers, m'')

/-- The request for one point of a name. -/
def Request.point (base : Request) (i : Nat) : Request :=
  { base with name := Device.numbered base.name i }

/-- The requests for the points of a name, numbered from 1 to `n`. -/
def Request.numbered (base : Request) (n : Nat) : List Request := (List.range' 1 n).map base.point

namespace IoTable

variable (t : IoTable)

theorem numericSuffix?_numbered (pattern : String) {i : Nat} (h : i < UInt32.size) :
    numericSuffix? pattern (Device.numbered pattern i) = some (UInt32.ofNat i) := by
  simp [numericSuffix?, Device.toList_numbered, Text.word?_toDigits, h]

/-! ## As a family -/

/-- If a family has one point of a name and direction, this point is the only candidate: where the
family is the scope's own, the candidates are too, and where it is shared, the scope has no point of
any number, and so none of this name. -/
theorem candidates_of_family {pattern : String} {r : Request} {only : IoPoint}
    (numbered : (numericSuffix? pattern r.name).isSome = true)
    (h : (t.range pattern r.scope).filter
      (fun p => p.isOutput == r.isOutput && p.name == r.name) = [only]) :
    t.candidates r = [only] := by
  have single : (t.within r.scope fun p => (numericSuffix? pattern p.name).isSome).filter
      (fun p => p.isOutput == r.isOutput && p.name == r.name) = [only] :=
    List.perm_singleton.mp (h ▸ t.within_eq_family pattern r.scope ▸
      ((t.range_perm_family pattern r.scope).filter _).symm)
  -- a point of the right name has a number
  have drop (p : IoPoint) (inside : Bool) :
      (p.isOutput == r.isOutput && p.name == r.name &&
        (inside && (numericSuffix? pattern p.name).isSome)) =
      (inside && (p.name == r.name && p.isOutput == r.isOutput)) := by
    by_cases name : p.name = r.name
    · simp [name, numbered, Bool.and_comm]
    · have other : (p.name == r.name) = false := beq_eq_false_iff_ne.mpr name
      simp [other]
  unfold within at single
  dsimp only at single
  unfold candidates within
  dsimp only
  split at single
  next none =>
    have absent : t.points.filter (fun p => p.scope == r.scope &&
        (p.name == r.name && p.isOutput == r.isOutput)) = [] := by
      rw [List.isEmpty_iff, List.filter_eq_nil_iff] at none
      refine List.filter_eq_nil_iff.mpr fun p listed fits => none p listed ?_
      simp only [Bool.and_eq_true, beq_iff_eq] at fits ⊢
      exact ⟨fits.1, fits.2.1 ▸ numbered⟩
    rw [List.filter_filter] at single
    simp only [drop] at single
    rw [absent, single]
    rfl
  next some =>
    rw [List.filter_filter] at single
    simp only [drop] at single
    rw [single]
    rfl

theorem resolve_of_family {pattern : String} {r : Request} {only : IoPoint}
    (numbered : (numericSuffix? pattern r.name).isSome = true)
    (h : (t.range pattern r.scope).filter
      (fun p => p.isOutput == r.isOutput && p.name == r.name) = [only]) (memory : List Choice) :
    t.resolve r memory = (some only.effectiveAddress, memory) := by
  rw [resolve, t.candidates_of_family numbered h]

end IoTable

/-- An emission that leaves only an answer and a memory hands both on. -/
theorem Emission.run_bind_quiet {σ α β : Type} {x : Emission σ α} {f : α → Emission σ β} {m m' : σ}
    {a : α} (h : x.run m = { result := .ok a, memory := m' }) :
    (x >>= f).run m = (f a).run m' := by
  have ok : (x.run m).result = .ok a := by rw [h]
  rw [run_bind_ok ok, h]
  simp

namespace Context

section Each

variable {σ : Type} (c : Context σ)

/-- A loop of lookups leaves their answers under the names that were looked up, and no rungs or
warnings. -/
theorem run_mapM_resolve {ι : Type} {request : ι → Request}
    {look : ι → Emission σ (String × Option String)} {xs : List ι}
    (each : ∀ i ∈ xs, look i = do
      let address ← c.resolve (request i)
      return ((request i).name, address)) (m : σ) :
    let answers := c.resolver.resolveEach (xs.map request) m
    (xs.mapM look).run m =
      { result := .ok ((xs.map fun i => (request i).name).zip answers.1), memory := answers.2 } := by
  induction xs generalizing m with
  | nil => rfl
  | cons i rest ih =>
    have first : (look i).run m =
        { result := .ok ((request i).name, (c.resolver.resolve (request i) m).1)
          memory := (c.resolver.resolve (request i) m).2 } := by
      rw [each i List.mem_cons_self]
      rfl
    have others := ih (fun j mem => each j (List.mem_cons_of_mem i mem))
    rw [List.mapM_cons, Emission.run_bind_quiet first, Emission.run_bind_quiet (others _)]
    rfl

theorem length_resolveEach (v : Resolver σ) (requests : List Request) (m : σ) :
    (v.resolveEach requests m).1.length = requests.length := by
  induction requests generalizing m with
  | nil => rfl
  | cons r rest ih => simp [Resolver.resolveEach, ih]

end Each

variable (c : Context (List Choice)) {t : IoTable}

/-- Asking the family first and then, if need be, for the name makes no difference. -/
theorem resolveMember_eq (h : c.resolver = t.resolver) {pattern : String} {r : Request}
    (numbered : (IoTable.numericSuffix? pattern r.name).isSome = true) :
    c.resolveMember (t.range pattern r.scope) r = c.resolve r := by
  unfold resolveMember
  split
  next only single =>
    funext memory
    have answer : t.resolver.resolve r memory = _ := t.resolve_of_family numbered single memory
    show (pure (some only.effectiveAddress) : Emission (List Choice) (Option String)) memory =
      Emission.consult (c.resolver.resolve r) memory
    rw [h, Emission.consult, answer]
    rfl
  next => rfl

/-- A name with several points is looked up as its points one after the other would be: the same
addresses in the same order, the same questions, and the same choices on record. -/
theorem resolvePoints_eq_each (h : c.resolver = t.resolver) (base : Request) {n : UInt32}
    (several : 1 < n) (memory : List Choice) :
    let each := t.resolver.resolveEach (base.numbered n.toNat) memory
    ∃ points, (c.resolvePoints base (some n)).run memory =
        { result := .ok points, memory := each.2 } ∧
      points.map Prod.fst = (List.range' 1 n.toNat).map (Device.numbered base.name) ∧
      points.map Prod.snd = each.1 := by
  intro each
  have count : pointCount (some n) = n.toNat := by
    have : 1 < n.toNat := UInt32.lt_iff_toNat_lt.mp several
    simp only [pointCount, Option.getD_some]
    omega
  have multiple : n.toNat ≠ 1 := fun one => by
    simp [UInt32.lt_iff_toNat_lt, one] at several
  have family : (Emission.consult (c.resolver.range base.name base.scope base.recordId)).run memory =
      { result := .ok (t.range base.name base.scope), memory } := by
    rw [h]
    rfl
  have members : ∀ i ∈ List.range' 1 n.toNat,
      (do
        let address ← c.resolveMember (t.range base.name base.scope) (base.point i)
        return ((base.point i).name, address)) =
      (do
        let address ← c.resolve (base.point i)
        return ((base.point i).name, address)) := by
    intro i mem
    have small : i < UInt32.size :=
      Nat.lt_of_le_of_lt (by have := List.mem_range'_1.mp mem; omega) n.toNat_lt
    have numbered : (IoTable.numericSuffix? base.name (base.point i).name).isSome = true := by
      rw [Request.point, IoTable.numericSuffix?_numbered base.name small]
      rfl
    have same : c.resolveMember (t.range base.name base.scope) (base.point i) =
        c.resolve (base.point i) := c.resolveMember_eq h numbered
    rw [same]
  refine ⟨(List.range' 1 n.toNat).map (Device.numbered base.name) |>.zip each.1, ?_, ?_, ?_⟩
  · rw [resolvePoints, count, if_neg multiple, Emission.run_bind_quiet family]
    have looked := c.run_mapM_resolve members memory
    rw [h] at looked
    exact looked
  · rw [List.map_fst_zip]
    simp [each, length_resolveEach, Request.numbered]
  · rw [List.map_snd_zip]
    simp [each, length_resolveEach, Request.numbered]

/-- Four points of a name: one beside an input of the same name, one that only the shared points have,
two that share a number, and none. -/
private def scattered : IoTable where
  points := [⟨1, "G3", "Y3", none, true, "CY1"⟩, ⟨2, "G1", "X1", none, false, "CY1"⟩,
    ⟨3, "G1", "Y1", none, true, "CY1"⟩, ⟨4, "G2", "Y2", none, true, ""⟩,
    ⟨5, "G3", "Y5", some "L5", true, "CY1"⟩, ⟨6, "G1", "Y6", none, true, ""⟩]
  selector := .last

theorem resolvePoints_eq_each_scattered :
    let c : Context (List Choice) := ⟨{}, scattered.resolver, fun _ _ _ => [], {}⟩
    let earlier : Choice := ⟨⟨"G2", true, "CY2", 2⟩, [], none⟩
    c.resolver = scattered.resolver ∧ (1 : UInt32) < 4 ∧
      ∃ points memory, (c.resolvePoints ⟨"G", true, "CY1", 1⟩ (some 4)).run [earlier] =
          { result := .ok points, memory } ∧
        points.map Prod.fst = ["G1", "G2", "G3", "G4"] ∧
        points.map Prod.snd = [some "Y1", some "Y2", some "L5", none] ∧
        memory.map (·.candidates.map (·.id)) = [[], [1, 5]] := by
  intro c earlier
  have same : c.resolver = scattered.resolver := rfl
  have several : (1 : UInt32) < 4 := by decide
  obtain ⟨points, run, names, addresses⟩ :=
    c.resolvePoints_eq_each same ⟨"G", true, "CY1", 1⟩ several [earlier]
  exact ⟨same, several, points, _, run, names.trans (by decide), addresses.trans (by decide),
    by decide⟩

end Context

end Rungs
