import Rungs.Rung
import Rungs.Diagnostic

/-! Emissions: computations that write rungs and warnings in order, may stop early with one critical
finding, and carry a memory of type `σ` through. What was written before a stop is kept, so the
rungs of `x >>= f` are those of `x`, followed by those of `f` if `x` came to its end. -/

namespace Rungs

structure Outcome (σ α : Type) where
  rungs : List Rung := []
  warnings : List Finding := []
  result : Except Finding α
  memory : σ

def Emission (σ α : Type) : Type := σ → Outcome σ α

namespace Emission

variable {σ α β : Type}

def run (x : Emission σ α) (memory : σ) : Outcome σ α := x memory

instance : Monad (Emission σ) where
  pure a := fun m => { result := .ok a, memory := m }
  bind x f := fun m =>
    let first := x m
    match first.result with
    | .error e => { first with result := .error e }
    | .ok a =>
      let second := f a first.memory
      { second with
        rungs := first.rungs ++ second.rungs
        warnings := first.warnings ++ second.warnings }

theorem run_pure (a : α) (m : σ) :
    (pure a : Emission σ α).run m = { result := .ok a, memory := m } := rfl

theorem run_bind_ok {x : Emission σ α} {f : α → Emission σ β} {m : σ} {a : α}
    (h : (x.run m).result = .ok a) :
    (x >>= f).run m =
      { (f a).run (x.run m).memory with
        rungs := (x.run m).rungs ++ ((f a).run (x.run m).memory).rungs
        warnings := (x.run m).warnings ++ ((f a).run (x.run m).memory).warnings } := by
  simp only [run] at h
  simp [run, bind, h]

theorem run_bind_error {x : Emission σ α} {f : α → Emission σ β} {m : σ} {e : Finding}
    (h : (x.run m).result = .error e) :
    (x >>= f).run m = { x.run m with result := .error e } := by
  simp only [run] at h
  simp [run, bind, h]

theorem map_id (x : Emission σ α) : id <$> x = x := by
  funext m
  show (match (x m).result with
    | .error e => { x m with result := .error e }
    | .ok a =>
      { rungs := (x m).rungs ++ [], warnings := (x m).warnings ++ [],
        result := .ok a, memory := (x m).memory }) = x m
  rcases h : x m with ⟨rungs, warnings, e | a, memory⟩ <;> simp

theorem pure_bind (a : α) (f : α → Emission σ β) : pure a >>= f = f a := by
  funext m
  simp [bind, pure]

theorem bind_assoc {γ : Type} (x : Emission σ α) (f : α → Emission σ β) (g : β → Emission σ γ) :
    x >>= f >>= g = x >>= fun a => f a >>= g := by
  funext m
  simp only [bind]
  rcases x m with ⟨rungs, warnings, e | a, memory⟩
  · rfl
  · dsimp only
    rcases f a memory with ⟨rungs', warnings', e | b, memory'⟩
    · rfl
    · simp

instance : LawfulMonad (Emission σ) :=
  LawfulMonad.mk' (Emission σ) map_id pure_bind bind_assoc

def emit (r : Rung) : Emission σ Unit :=
  fun m => { rungs := [r], result := .ok (), memory := m }

def emitAll (rs : List Rung) : Emission σ Unit :=
  fun m => { rungs := rs, result := .ok (), memory := m }

def warn (f : Finding) : Emission σ Unit :=
  fun m => { warnings := [f], result := .ok (), memory := m }

/-- Stops the emission; the finding becomes its critical diagnostic. -/
def halt (f : Finding) : Emission σ α :=
  fun m => { result := .error f, memory := m }

/-- Reads and possibly changes the memory. -/
def consult (look : σ → α × σ) : Emission σ α :=
  fun m => { result := .ok (look m).1, memory := (look m).2 }

end Emission

/-- What generation yields for one entity, or for several in a row. -/
structure Synthesis where
  rungs : List Rung := []
  diagnostics : List Diagnostic := []
deriving DecidableEq, Repr, Inhabited

namespace Synthesis

def rows (s : Synthesis) : List Row := streamRows s.rungs

def append (a b : Synthesis) : Synthesis := ⟨a.rungs ++ b.rungs, a.diagnostics ++ b.diagnostics⟩

instance : Append Synthesis := ⟨append⟩

end Synthesis

namespace Outcome

variable {σ α : Type}

/-- The warnings on record for an owner and, last, what stopped the emission. -/
def diagnostics (o : Outcome σ α) (owner : Owner) : List Diagnostic :=
  o.warnings.map owner.warning ++
    match o.result with
    | .error f => [owner.critical f]
    | .ok _ => []

def synthesis (o : Outcome σ α) (owner : Owner) : Synthesis := ⟨o.rungs, o.diagnostics owner⟩

end Outcome

end Rungs
