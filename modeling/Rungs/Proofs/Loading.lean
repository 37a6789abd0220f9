import Rungs.Loading
import Rungs.Proofs.Replacement

/-! Loading looks at the disk of a machine and at nothing else of it, and changes nothing. What is
loaded therefore depends on the disk alone (`Machine.Looks.run_eq`). -/

namespace Rungs

namespace Machine

variable {ε δ α β : Type}

/-- A computation that only looks at the disk. -/
def Looks (x : ExceptT ε (StateM Machine) α) : Prop :=
  ∀ m n : Machine, m.disk = n.disk → (x.run.run m).1 = (x.run.run n).1 ∧ (x.run.run m).2 = m

end Machine

/-- What a computation comes to on a disk. -/
def Disk.outcome {ε α : Type} (d : Disk) (x : ExceptT ε (StateM Machine) α) : Except ε α :=
  (x.run.run { disk := d }).1

namespace Machine.Looks

variable {ε δ α β : Type}

theorem run_eq {x : ExceptT ε (StateM Machine) α} (looks : Looks x) (m : Machine) :
    x.run.run m = (m.disk.outcome x, m) :=
  Prod.ext (looks m { disk := m.disk } rfl).1 (looks m m rfl).2

theorem pure (a : α) : Looks (pure a : ExceptT ε (StateM Machine) α) := fun _ _ _ => ⟨rfl, rfl⟩

theorem throw (e : ε) : Looks (throw e : ExceptT ε (StateM Machine) α) := fun _ _ _ => ⟨rfl, rfl⟩

theorem fromDisk (look : Disk → Except ε α) : Looks (.mk (fromDisk look)) := by
  intro m n same
  exact ⟨congrArg look same, rfl⟩

theorem lift (look : Disk → α) :
    Looks (liftM (Machine.fromDisk look) : ExceptT ε (StateM Machine) α) := by
  intro m n same
  exact ⟨congrArg (Except.ok ∘ look) same, rfl⟩

theorem adapt {x : ExceptT ε (StateM Machine) α} (looks : Looks x) (f : ε → δ) :
    Looks (x.adapt f) := by
  intro m n same
  exact ⟨congrArg (Except.mapError f) (looks m n same).1, (looks m n same).2⟩

theorem bind {x : ExceptT ε (StateM Machine) α} {f : α → ExceptT ε (StateM Machine) β}
    (first : Looks x) (second : ∀ a, Looks (f a)) : Looks (x >>= f) := by
  intro m n same
  have outcome : n.disk.outcome x = m.disk.outcome x := by rw [same]
  rw [ExceptT.run_bind, StateT.run_bind, StateT.run_bind, first.run_eq m, first.run_eq n, outcome]
  cases m.disk.outcome x with
  | error e => exact ⟨rfl, rfl⟩
  | ok a => exact second a m n same

theorem readText (path : Path) : Looks (host.readText path) := by
  have bytes : Looks (host.read path) := fromDisk fun d => d.read path
  refine bytes.bind fun bytes => ?_
  split
  · exact pure _
  · exact throw _

theorem load (ofText : String → Json.Decoded α) (path : Path) : Looks (host.load ofText path) := by
  refine ((readText path).adapt _).bind fun text => ?_
  split
  · exact pure _
  · exact throw _

theorem settings (path : Path) : Looks (Settings.load host path) := by
  have present : Looks
      (liftM (host.isPresent path) : ExceptT LoadFailure (StateM Machine) Bool) :=
    lift fun d => (d.find? path).isSome
  refine present.bind fun present => ?_
  split
  · exact load _ _
  · exact pure _

end Machine.Looks

end Rungs
