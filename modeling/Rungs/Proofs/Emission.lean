import Mathlib.Data.List.Forall2
import Rungs.Emission

/-! What emissions leave behind, by rules that follow how an emission is put together. `Leads` is
about the whole list of rungs that stands after an emission, also where it stopped, and holds from
every memory; `Emits` is about each of the rungs by itself, and about what stays true of the
memory. -/

namespace Rungs.Emission

variable {σ α β : Type}

theorem rungs_bind (x : Emission σ α) (f : α → Emission σ β) (m : σ) :
    ((x >>= f).run m).rungs = (x.run m).rungs ++
      match (x.run m).result with
      | .ok a => ((f a).run (x.run m).memory).rungs
      | .error _ => [] := by
  cases h : (x.run m).result with
  | ok a => rw [run_bind_ok h]
  | error e => rw [run_bind_error h]; simp

theorem result_bind (x : Emission σ α) (f : α → Emission σ β) (m : σ) :
    ((x >>= f).run m).result =
      match (x.run m).result with
      | .ok a => ((f a).run (x.run m).memory).result
      | .error e => .error e := by
  cases h : (x.run m).result with
  | ok a => rw [run_bind_ok h]
  | error e => rw [run_bind_error h]

/-- After an emission without rungs either nothing follows, or the rungs of the continuation do. -/
theorem rungs_bind_silent {x : Emission σ α} {f : α → Emission σ β} {m : σ}
    (silent : (x.run m).rungs = []) : ((x >>= f).run m).rungs = [] ∨
      ∃ a, (x.run m).result = .ok a ∧
        ((x >>= f).run m).rungs = ((f a).run (x.run m).memory).rungs := by
  rw [rungs_bind, silent, List.nil_append]
  cases h : (x.run m).result with
  | ok a => exact .inr ⟨a, rfl, rfl⟩
  | error e => exact .inl rfl

/-- A guarded part in front of a continuation. -/
theorem ite_bind {p : Prop} [Decidable p] (x : Emission σ Unit) (f : Unit → Emission σ β) :
    (if p then x >>= f else f ()) = (if p then x else pure ()) >>= f := by
  split
  · rfl
  · exact (pure_bind () f).symm

/-! ## The list of rungs after an emission -/

/-- Where an emission finds rungs of which `before` holds, it ends with `after` of its answer and of
all rungs then written, or it stops with `stopped` of them. -/
structure Leads (before : List Rung → Prop) (x : Emission σ α) (after : α → List Rung → Prop)
    (stopped : List Rung → Prop) : Prop where
  ends : ∀ rungs m a, before rungs → (x.run m).result = .ok a → after a (rungs ++ (x.run m).rungs)
  stops : ∀ rungs m e, before rungs → (x.run m).result = .error e →
    stopped (rungs ++ (x.run m).rungs)

namespace Leads

variable {before : List Rung → Prop} {after : α → List Rung → Prop}
  {stopped : List Rung → Prop} {x : Emission σ α}

theorem pure {a : α} (h : ∀ rungs, before rungs → after a rungs) :
    Leads before (Pure.pure a : Emission σ α) after stopped where
  ends rungs m b start ok := by
    rw [run_pure] at ok ⊢
    rw [List.append_nil, ← Except.ok.inj ok]
    exact h rungs start
  stops _ _ _ _ error := by cases error

theorem bind {f : α → Emission σ β} {final : β → List Rung → Prop}
    (hx : Leads before x after stopped) (hf : ∀ a, Leads (after a) (f a) final stopped) :
    Leads before (x >>= f) final stopped where
  ends rungs m b start ok := by
    rw [result_bind] at ok
    cases h : (x.run m).result with
    | ok a =>
      rw [h] at ok
      have first := hx.ends rungs m a start h
      rw [run_bind_ok h, ← List.append_assoc]
      exact (hf a).ends _ (x.run m).memory b first ok
    | error e =>
      rw [h] at ok
      cases ok
  stops rungs m e start error := by
    rw [result_bind] at error
    cases h : (x.run m).result with
    | ok a =>
      rw [h] at error
      have first := hx.ends rungs m a start h
      rw [run_bind_ok h, ← List.append_assoc]
      exact (hf a).stops _ (x.run m).memory e first error
    | error e' =>
      rw [run_bind_error h]
      exact hx.stops rungs m e' start h

theorem emitAll {after : Unit → List Rung → Prop} {rs : List Rung}
    (h : ∀ rungs, before rungs → after () (rungs ++ rs)) :
    Leads (σ := σ) before (Emission.emitAll rs) after stopped where
  ends rungs _ _ start _ := h rungs start
  stops _ _ _ _ error := by cases error

theorem emit {after : Unit → List Rung → Prop} {r : Rung}
    (h : ∀ rungs, before rungs → after () (rungs ++ [r])) :
    Leads (σ := σ) before (Emission.emit r) after stopped := emitAll h

theorem warn {f : Finding} :
    Leads (σ := σ) before (Emission.warn f) (fun _ => before) stopped where
  ends rungs m a start _ := by
    simpa [Emission.warn, run] using start
  stops _ _ _ _ error := by cases error

theorem halt {f : Finding} (h : ∀ rungs, before rungs → stopped rungs) :
    Leads before (Emission.halt f : Emission σ α) after stopped where
  ends _ _ _ _ ok := by cases ok
  stops rungs m e start _ := by
    simpa [Emission.halt, run] using h rungs start

theorem imp {before' : List Rung → Prop} (hx : Leads before x after stopped)
    (hb : ∀ rungs, before' rungs → before rungs) : Leads before' x after stopped where
  ends rungs m a start ok := hx.ends rungs m a (hb rungs start) ok
  stops rungs m e start error := hx.stops rungs m e (hb rungs start) error

/-- An emission of which only its rungs matter, and these wherever it starts. -/
theorem append {P : List Rung → Prop} {keep : List Rung → Prop} (hp : ∀ m, P (x.run m).rungs)
    (hk : ∀ rungs new, before rungs → P new → keep (rungs ++ new))
    (hs : ∀ rungs, keep rungs → stopped rungs) : Leads before x (fun _ => keep) stopped where
  ends rungs m _ start _ := hk rungs _ start (hp m)
  stops rungs m _ start _ := hs _ (hk rungs _ start (hp m))

/-- An emission without rungs. -/
theorem silent (hx : ∀ m, (x.run m).rungs = []) (hs : ∀ rungs, before rungs → stopped rungs) :
    Leads before x (fun _ => before) stopped := by
  refine append (P := fun new => new = []) hx (fun rungs new start none => ?_) hs
  rw [none, List.append_nil]
  exact start

theorem choose {ι : Type} {before : ι → List Rung → Prop}
    (h : ∀ i, Leads (before i) x after stopped) :
    Leads (fun rungs => ∃ i, before i rungs) x after stopped where
  ends rungs m a start ok := start.elim fun i hi => (h i).ends rungs m a hi ok
  stops rungs m e start error := start.elim fun i hi => (h i).stops rungs m e hi error

/-- A loop keeps what each of its rounds keeps, for the part of the list that is still to come. -/
theorem foldlM {f : β → α → Emission σ β} {J : List α → β → List Rung → Prop}
    (round : ∀ a rest b, Leads (J (a :: rest) b) (f b a) (J rest) stopped)
    (xs : List α) (b : β) : Leads (J xs b) (xs.foldlM f b) (J []) stopped := by
  induction xs generalizing b with
  | nil => exact Leads.pure fun _ h => h
  | cons a rest ih =>
    rw [List.foldlM_cons]
    exact (round a rest b).bind ih

end Leads

/-! ## Each rung of an emission -/

/-- From a memory of which `I` holds, the emission leaves one of which `I` holds. Every rung of it
satisfies `P` and its answer, if it comes to its end, `Q`. -/
def Emits (I : σ → Prop) (P : Rung → Prop) (x : Emission σ α) (Q : α → Prop) : Prop :=
  ∀ m, I m → I (x.run m).memory ∧ (∀ r ∈ (x.run m).rungs, P r) ∧
    ∀ a, (x.run m).result = .ok a → Q a

namespace Emits

variable {I : σ → Prop} {P : Rung → Prop} {Q : α → Prop} {x : Emission σ α}

theorem memory (hx : Emits I P x Q) {m : σ} (hm : I m) : I (x.run m).memory := (hx m hm).1

theorem rung (hx : Emits I P x Q) {m : σ} (hm : I m) {r : Rung} (mem : r ∈ (x.run m).rungs) :
    P r := (hx m hm).2.1 r mem

theorem answer (hx : Emits I P x Q) {m : σ} (hm : I m) {a : α}
    (ok : (x.run m).result = .ok a) : Q a := (hx m hm).2.2 a ok

theorem pure {a : α} (h : Q a) : Emits I P (Pure.pure a : Emission σ α) Q := by
  intro m hm
  refine ⟨hm, by simp [run_pure], fun b e => ?_⟩
  rw [run_pure] at e
  exact Except.ok.inj e ▸ h

theorem bind {f : α → Emission σ β} {R : β → Prop} (hx : Emits I P x Q)
    (hf : ∀ a, Q a → Emits I P (f a) R) : Emits I P (x >>= f) R := by
  intro m hm
  obtain ⟨memory, rungs, answer⟩ := hx m hm
  cases h : (x.run m).result with
  | ok a =>
    obtain ⟨memory', rungs', answer'⟩ := hf a (answer a h) (x.run m).memory memory
    rw [run_bind_ok h]
    refine ⟨memory', fun r mem => ?_, answer'⟩
    rcases List.mem_append.mp mem with mem | mem
    · exact rungs r mem
    · exact rungs' r mem
  | error e =>
    rw [run_bind_error h]
    exact ⟨memory, rungs, fun b eq => by simp at eq⟩

theorem emitAll {Q : Unit → Prop} {rs : List Rung} (h : ∀ r ∈ rs, P r) (done : Q ()) :
    Emits I P (Emission.emitAll rs) Q := fun _ hm => ⟨hm, h, fun _ _ => done⟩

theorem emit {Q : Unit → Prop} {r : Rung} (h : P r) (done : Q ()) :
    Emits I P (Emission.emit r) Q :=
  fun _ hm => ⟨hm, fun _ mem => List.mem_singleton.mp mem ▸ h, fun _ _ => done⟩

theorem warn {Q : Unit → Prop} {f : Finding} (done : Q ()) :
    Emits I P (Emission.warn f) Q := by
  intro m hm
  exact ⟨hm, by simp [Emission.warn, run], fun _ _ => done⟩

theorem halt {f : Finding} : Emits I P (Emission.halt f : Emission σ α) Q := by
  intro m hm
  exact ⟨hm, by simp [Emission.halt, run], fun _ e => by simp [Emission.halt, run] at e⟩

theorem consult {look : σ → α × σ} (h : ∀ m, I m → I (look m).2 ∧ Q (look m).1) :
    Emits I P (Emission.consult look) Q := by
  intro m hm
  refine ⟨(h m hm).1, by simp [Emission.consult, run], fun a e => ?_⟩
  rw [← Except.ok.inj e]
  exact (h m hm).2

theorem weaken {P' : Rung → Prop} {Q' : α → Prop} (hx : Emits I P x Q) (hp : ∀ r, P r → P' r)
    (hq : ∀ a, Q a → Q' a) : Emits I P' x Q' :=
  fun _ hm => ⟨hx.memory hm, fun r mem => hp r (hx.rung hm mem), fun a ok => hq a (hx.answer hm ok)⟩

theorem imp {Q' : α → Prop} (hx : Emits I P x Q) (hq : ∀ a, Q a → Q' a) : Emits I P x Q' :=
  hx.weaken (fun _ h => h) hq

theorem any (x : Emission σ α) : Emits (fun _ => True) (fun _ => True) x fun _ => True :=
  fun _ _ => ⟨trivial, fun _ _ => trivial, fun _ _ => trivial⟩

/-- What is known of the answer whatever the memory may be added. -/
theorem and {Q' : α → Prop} (hx : Emits I P x Q)
    (hy : Emits (fun _ => True) (fun _ => True) x Q') : Emits I P x fun a => Q a ∧ Q' a :=
  fun _ hm => ⟨hx.memory hm, fun _ mem => hx.rung hm mem,
    fun _ ok => ⟨hx.answer hm ok, hy.answer trivial ok⟩⟩

theorem ite {p : Prop} [Decidable p] {y : Emission σ α} (hx : p → Emits I P x Q)
    (hy : ¬p → Emits I P y Q) : Emits I P (if p then x else y) Q := by
  split
  · next h => exact hx h
  · next h => exact hy h

theorem mapM {R : α → β → Prop} {f : α → Emission σ β} {xs : List α}
    (h : ∀ a ∈ xs, Emits I P (f a) (R a)) :
    Emits I P (xs.mapM f) fun bs => ∀ b ∈ bs, ∃ a ∈ xs, R a b := by
  induction xs with
  | nil => exact Emits.pure (by simp)
  | cons a rest ih =>
    rw [List.mapM_cons]
    refine (h a List.mem_cons_self).bind fun b hb => ?_
    refine (ih fun c mem => h c (List.mem_cons_of_mem a mem)).bind fun bs hbs => ?_
    refine Emits.pure fun c mem => ?_
    rcases List.mem_cons.mp mem with rfl | mem
    · exact ⟨a, List.mem_cons_self, hb⟩
    · obtain ⟨a', inside, hc⟩ := hbs c mem
      exact ⟨a', List.mem_cons_of_mem a inside, hc⟩

theorem forM {f : α → Emission σ Unit} {xs : List α}
    (h : ∀ a ∈ xs, Emits I P (f a) fun _ => True) : Emits I P (xs.forM f) fun _ => True := by
  induction xs with
  | nil => exact Emits.pure trivial
  | cons a rest ih =>
    exact (h a List.mem_cons_self).bind fun _ _ =>
      ih fun b mem => h b (List.mem_cons_of_mem a mem)

theorem foldlM {f : β → α → Emission σ β} {Q : β → Prop} {xs : List α} {b : β} (start : Q b)
    (round : ∀ b, ∀ a ∈ xs, Q b → Emits I P (f b a) Q) : Emits I P (xs.foldlM f b) Q := by
  induction xs generalizing b with
  | nil => exact Emits.pure start
  | cons a rest ih =>
    rw [List.foldlM_cons]
    exact (round b a List.mem_cons_self start).bind fun c hc =>
      ih hc fun d e mem => round d e (List.mem_cons_of_mem a mem)

/-- A loop that comes to its end has gone through every item. -/
theorem foldlM_each {R : α → Prop} {f : β → α → Emission σ β} {xs : List α} {b : β}
    (round : ∀ b, ∀ a ∈ xs, Emits I P (f b a) fun _ => R a) :
    Emits I P (xs.foldlM f b) fun _ => ∀ a ∈ xs, R a := by
  induction xs generalizing b with
  | nil => exact Emits.pure (by simp)
  | cons a rest ih =>
    rw [List.foldlM_cons]
    refine (round b a List.mem_cons_self).bind fun c first => ?_
    refine (ih fun d e mem => round d e (List.mem_cons_of_mem a mem)).imp fun _ others => ?_
    exact List.forall_mem_cons.mpr ⟨first, others⟩

end Emits

/-! ## Emissions that come to their end -/

/-- From the memory `m` the emission comes to its end, with this answer, these rungs and this memory
after it. -/
structure Returns (x : Emission σ α) (m : σ) (a : α) (rungs : List Rung) (m' : σ) : Prop where
  result : (x.run m).result = .ok a
  rungs : (x.run m).rungs = rungs
  memory : (x.run m).memory = m'

namespace Returns

variable {x : Emission σ α} {f : α → Emission σ β} {a : α} {b : β} {rs rs' : List Rung}
  {m m' m'' : σ}

theorem of_ok (h : (x.run m).result = .ok a) :
    Returns x m a (x.run m).rungs (x.run m).memory := ⟨h, rfl, rfl⟩

theorem silent (h : Returns x m a rs m') (none : (x.run m).rungs = []) : Returns x m a [] m' :=
  ⟨h.result, none, h.memory⟩

theorem pure : Returns (Pure.pure a : Emission σ α) m a [] m := ⟨rfl, rfl, rfl⟩

theorem emitAll : Returns (Emission.emitAll rs) m () rs m := ⟨rfl, rfl, rfl⟩

theorem emit {r : Rung} : Returns (Emission.emit r) m () [r] m := ⟨rfl, rfl, rfl⟩

theorem warn {w : Finding} : Returns (Emission.warn w) m () [] m := ⟨rfl, rfl, rfl⟩

theorem bind (hx : Returns x m a rs m') (hf : Returns (f a) m' b rs' m'') :
    Returns (x >>= f) m b (rs ++ rs') m'' := by
  have run := run_bind_ok (f := f) hx.result
  rw [hx.memory, hx.rungs] at run
  refine ⟨?_, ?_, ?_⟩
  · rw [run]
    exact hf.result
  · rw [run, ← hf.rungs]
  · rw [run]
    exact hf.memory

theorem rungs_bind (hx : Returns x m a rs m') (f : α → Emission σ β) :
    ((x >>= f).run m).rungs = rs ++ ((f a).run m').rungs := by
  rw [run_bind_ok hx.result, hx.rungs, hx.memory]

theorem result_then (hx : Returns x m a rs m') (f : α → Emission σ β) :
    ((x >>= f).run m).result = ((f a).run m').result := by
  rw [run_bind_ok hx.result, hx.memory]

/-- Writing nothing, every item is answered by itself. -/
theorem mapM {f : α → Emission σ β} {g : α → β} (each : ∀ a, Returns (f a) m (g a) [] m)
    (xs : List α) : Returns (xs.mapM f) m (xs.map g) [] m := by
  induction xs with
  | nil => exact pure
  | cons a rest ih =>
    rw [List.mapM_cons]
    exact (each a).bind (ih.bind pure)

/-- Leaving the memory alone, every item has its own rungs. -/
theorem forM {f : α → Emission σ Unit} {g : α → List Rung}
    (each : ∀ a, Returns (f a) m () (g a) m) {xs : List α} :
    Returns (xs.forM f) m () (xs.flatMap g) m := by
  induction xs with
  | nil => exact pure
  | cons a rest ih => exact (each a).bind ih

theorem exists_of_bind (h : Returns (x >>= f) m b rs m'') :
    ∃ a m' before after, Returns x m a before m' ∧ Returns (f a) m' b after m'' ∧
      rs = before ++ after := by
  have result := h.result
  rw [result_bind] at result
  cases e : (x.run m).result with
  | ok a =>
    rw [e] at result
    refine ⟨a, _, _, _, of_ok e, ⟨result, rfl, ?_⟩, ?_⟩
    · rw [← h.memory, run_bind_ok e]
    · rw [← h.rungs, run_bind_ok e]
  | error finding =>
    rw [e] at result
    cases result

end Returns

/-- The emission comes to its end from every memory. -/
def Ends (x : Emission σ α) : Prop := ∀ m, ∃ a, (x.run m).result = .ok a

namespace Ends

theorem pure (a : α) : Ends (Pure.pure a : Emission σ α) := fun _ => ⟨a, rfl⟩

theorem warn (w : Finding) : Ends (Emission.warn w : Emission σ Unit) := fun _ => ⟨(), rfl⟩

theorem consult (look : σ → α × σ) : Ends (Emission.consult look) := fun m => ⟨(look m).1, rfl⟩

theorem bind {x : Emission σ α} {f : α → Emission σ β} (hx : Ends x) (hf : ∀ a, Ends (f a)) :
    Ends (x >>= f) := by
  intro m
  obtain ⟨a, first⟩ := hx m
  obtain ⟨b, second⟩ := hf a (x.run m).memory
  exact ⟨b, ((Returns.of_ok first).bind (Returns.of_ok second)).result⟩

theorem mapM {f : α → Emission σ β} (hf : ∀ a, Ends (f a)) (xs : List α) : Ends (xs.mapM f) := by
  induction xs with
  | nil => exact pure []
  | cons a rest ih =>
    rw [List.mapM_cons]
    exact (hf a).bind fun b => ih.bind fun bs => pure (b :: bs)

end Ends

/-- The emission always comes to its end and leaves the memory as it is. -/
def Steady (x : Emission σ α) : Prop := ∀ m, ∃ a rungs, Returns x m a rungs m

namespace Steady

theorem pure (a : α) : Steady (Pure.pure a : Emission σ α) := fun _ => ⟨a, [], .pure⟩

theorem emit (r : Rung) : Steady (Emission.emit r : Emission σ Unit) := fun _ => ⟨(), [r], .emit⟩

theorem emitAll (rs : List Rung) : Steady (Emission.emitAll rs : Emission σ Unit) :=
  fun _ => ⟨(), rs, .emitAll⟩

theorem warn (w : Finding) : Steady (Emission.warn w : Emission σ Unit) := fun _ => ⟨(), [], .warn⟩

theorem bind {x : Emission σ α} {f : α → Emission σ β} (hx : Steady x) (hf : ∀ a, Steady (f a)) :
    Steady (x >>= f) := by
  intro m
  obtain ⟨a, before, first⟩ := hx m
  obtain ⟨b, after, second⟩ := hf a m
  exact ⟨b, before ++ after, first.bind second⟩

theorem forM {f : α → Emission σ Unit} (hf : ∀ a, Steady (f a)) (xs : List α) :
    Steady (xs.forM f) := by
  induction xs with
  | nil => exact pure ()
  | cons a rest ih => exact (hf a).bind fun _ => ih

end Steady

/-! ## One run of an emission -/

/-- From the memory `m` the emission writes rungs of which `P` holds. If it comes to its end, `Q`
holds of its answer and of the memory then. -/
structure Tracks (P : List Rung → Prop) (m : σ) (x : Emission σ α) (Q : α → σ → Prop) : Prop where
  writes : P (x.run m).rungs
  answers : ∀ a, (x.run m).result = .ok a → Q a (x.run m).memory

namespace Tracks

variable {P : List Rung → Prop} {m : σ} {x : Emission σ α} {Q : α → σ → Prop}

theorem bind {f : α → Emission σ β} {R : β → σ → Prop}
    (join : ∀ before after, P before → P after → P (before ++ after)) (hx : Tracks P m x Q)
    (hf : ∀ a m', Q a m' → Tracks P m' (f a) R) : Tracks P m (x >>= f) R := by
  cases h : (x.run m).result with
  | ok a =>
    have next := hf a _ (hx.answers a h)
    refine ⟨?_, fun b ok => ?_⟩
    · rw [run_bind_ok h]
      exact join _ _ hx.writes next.writes
    · rw [run_bind_ok h] at ok ⊢
      exact next.answers b ok
  | error e =>
    refine ⟨?_, fun b ok => ?_⟩
    · rw [run_bind_error h]
      exact hx.writes
    · rw [run_bind_error h] at ok
      cases ok

theorem of_returns {a : α} {rs : List Rung} {m' : σ} (h : Returns x m a rs m') (hp : P rs)
    (hq : Q a m') : Tracks P m x Q := by
  refine ⟨h.rungs ▸ hp, fun b ok => ?_⟩
  rw [h.result] at ok
  rw [← Except.ok.inj ok, h.memory]
  exact hq

/-- What holds of the memory goes on to hold where an emission leaves the memory as it is. -/
theorem of_steady {R : σ → Prop} (hx : Steady x) (hp : ∀ m, P (x.run m).rungs) (h : R m) :
    Tracks P m x fun _ => R := by
  obtain ⟨a, rungs, returns⟩ := hx m
  exact of_returns returns (returns.rungs ▸ hp m) h

theorem halt {f : Finding} (h : P []) : Tracks P m (Emission.halt f : Emission σ α) Q :=
  ⟨h, fun _ ok => by cases ok⟩

/-- A loop goes on from round to round with what holds for the items that are still to come. -/
theorem foldlM {f : β → α → Emission σ β} {J : List α → β → σ → Prop}
    (join : ∀ before after, P before → P after → P (before ++ after)) (none : P [])
    (round : ∀ a rest b m, J (a :: rest) b m → Tracks P m (f b a) (J rest))
    {xs : List α} {b : β} (h : J xs b m) : Tracks P m (xs.foldlM f b) (J []) := by
  induction xs generalizing b m with
  | nil => exact of_returns .pure none h
  | cons a rest ih =>
    rw [List.foldlM_cons]
    exact (round a rest b m h).bind join fun _ _ next => ih next

end Tracks

/-! ## All that an emission leaves -/

/-- From the memory `m` the emission comes to its end, with this answer, these rungs, these warnings
and this memory after it. -/
def Yields (x : Emission σ α) (m : σ) (a : α) (rungs : List Rung) (warnings : List Finding)
    (m' : σ) : Prop :=
  x.run m = { rungs, warnings, result := .ok a, memory := m' }

namespace Yields

variable {x : Emission σ α} {f : α → Emission σ β} {a : α} {b : β} {rs rs' : List Rung}
  {ws ws' : List Finding} {m m' m'' : σ}

theorem returns (h : Yields x m a rs ws m') : Returns x m a rs m' := by
  rw [Yields] at h
  exact ⟨by rw [h], by rw [h], by rw [h]⟩

theorem of_returns (h : Returns x m a rs m') : Yields x m a rs (x.run m).warnings m' := by
  rw [Yields, ← h.rungs, ← h.result, ← h.memory]

theorem pure : Yields (Pure.pure a : Emission σ α) m a [] [] m := rfl

theorem emitAll : Yields (Emission.emitAll rs) m () rs [] m := rfl

theorem emit {r : Rung} : Yields (Emission.emit r) m () [r] [] m := rfl

theorem warn {w : Finding} : Yields (Emission.warn w) m () [] [w] m := rfl

theorem consult {look : σ → α × σ} : Yields (Emission.consult look) m (look m).1 [] [] (look m).2 :=
  rfl

theorem bind (hx : Yields x m a rs ws m') (hf : Yields (f a) m' b rs' ws' m'') :
    Yields (x >>= f) m b (rs ++ rs') (ws ++ ws') m'' := by
  have run := run_bind_ok (f := f) hx.returns.result
  rw [Yields] at hx hf ⊢
  rw [run, hx, hf]

/-- Leaving the memory alone and writing nothing, every item has its own answer and its own
warnings. -/
theorem mapM {f : α → Emission σ β} {g : α → β} {w : α → List Finding}
    (each : ∀ a, Yields (f a) m (g a) [] (w a) m) (xs : List α) :
    Yields (xs.mapM f) m (xs.map g) [] (xs.flatMap w) m := by
  induction xs with
  | nil => exact pure
  | cons a rest ih =>
    rw [List.mapM_cons, List.flatMap_cons, ← List.append_nil (rest.flatMap w)]
    exact (each a).bind (ih.bind pure)

/-- Asking one question after the other, each from a memory of which `I` holds. -/
theorem exists_mapM {I : σ → Prop} {R : α → β → Prop} {f : α → Emission σ β} {xs : List α}
    (each : ∀ a ∈ xs, ∀ m, I m → ∃ b m', Yields (f a) m b [] [] m' ∧ I m' ∧ R a b) (hm : I m) :
    ∃ bs m', Yields (xs.mapM f) m bs [] [] m' ∧ I m' ∧ List.Forall₂ R xs bs := by
  induction xs generalizing m with
  | nil => exact ⟨[], m, pure, hm, .nil⟩
  | cons a rest ih =>
    obtain ⟨b, m', first, hm', related⟩ := each a List.mem_cons_self m hm
    obtain ⟨bs, m'', others, hm'', all⟩ :=
      ih (fun c mem => each c (List.mem_cons_of_mem a mem)) hm'
    refine ⟨b :: bs, m'', ?_, hm'', .cons related all⟩
    rw [List.mapM_cons]
    exact first.bind (others.bind pure)

end Yields

/-- Every warning of the emission satisfies `W`. -/
def Warns (W : Finding → Prop) (x : Emission σ α) : Prop := ∀ m, ∀ w ∈ (x.run m).warnings, W w

namespace Warns

variable {W : Finding → Prop} {x : Emission σ α}

theorem pure (a : α) : Warns W (Pure.pure a : Emission σ α) := fun _ _ mem => by cases mem

theorem emit (r : Rung) : Warns W (Emission.emit r : Emission σ Unit) := fun _ _ mem => by cases mem

theorem warn {f : Finding} (h : W f) : Warns W (Emission.warn f : Emission σ Unit) := by
  intro m w mem
  rw [List.mem_singleton.mp mem]
  exact h

theorem bind {f : α → Emission σ β} (hx : Warns W x) (hf : ∀ a, Warns W (f a)) :
    Warns W (x >>= f) := by
  intro m w mem
  cases h : (x.run m).result with
  | ok a =>
    rw [run_bind_ok h] at mem
    exact (List.mem_append.mp mem).elim (hx m w) (hf a _ w)
  | error e =>
    rw [run_bind_error h] at mem
    exact hx m w mem

theorem forM {f : α → Emission σ Unit} (hf : ∀ a, Warns W (f a)) (xs : List α) :
    Warns W (xs.forM f) := by
  induction xs with
  | nil => exact pure ()
  | cons a rest ih => exact (hf a).bind fun _ => ih

end Warns

end Rungs.Emission
