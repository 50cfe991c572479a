import EventStaging.Engine.Run
import EventStaging.Proofs.Act.Journal

/-!
# Runs step by step

A run of an engine as the list of its steps: for each operation the engine before and after it, its
answer, what was observed meanwhile, and the host as the operation leaves it. `Engine.journal_run`
says that a run shows what its steps show.
-/

namespace EventStaging

/-- One operation in a run of an engine, with the engine before and after it, its answer, what was
observed meanwhile, and the host that it leaves. -/
structure Step (σ : Type) where
  before : Engine σ
  op : Op
  reply : Reply
  journal : Journal
  after : Engine σ
  host : σ

namespace Engine

variable {σ : Type}

/-- Carries one operation out on a host. -/
def step (engine : Engine σ) (op : Op) (host : σ) : Step σ :=
  let done := (engine.apply op).run host
  { before := engine, op, reply := done.value.1, journal := done.journal, after := done.value.2,
    host := done.host }

/-- A step may be read off any action that carries its operation out. -/
theorem step_of_apply_eq {α : Type} {engine : Engine σ} {op : Op} {action : Act σ α}
    {f : α → Reply × Engine σ} (h : engine.apply op = f <$> action) (host : σ) :
    engine.step op host =
      { before := engine, op, reply := (f (action.run host).value).1,
        journal := (action.run host).journal, after := (f (action.run host).value).2,
        host := (action.run host).host } := by
  rw [step, h]
  rfl

/-- Carries operations out one after the other on a host. -/
def steps (engine : Engine σ) : List Op → σ → List (Step σ)
  | [], _ => []
  | op :: ops, host =>
    engine.step op host :: (engine.step op host).after.steps ops (engine.step op host).host

/-- The engine after a run. -/
def after (engine : Engine σ) (ops : List Op) (host : σ) : Engine σ :=
  ((engine.run ops).run host).value.2

/-- The first operation is one step, and the others go on from where it leads. -/
@[simp] theorem steps_cons (engine : Engine σ) (op : Op) (ops : List Op) (host : σ) :
    engine.steps (op :: ops) host =
      engine.step op host :: (engine.step op host).after.steps ops (engine.step op host).host := rfl

/-- Every step of a run carries its operation out on the engine that it finds. -/
theorem exists_eq_step_of_mem {engine : Engine σ} {ops : List Op} {host : σ} {step : Step σ}
    (hmem : step ∈ engine.steps ops host) : ∃ host', step = step.before.step step.op host' := by
  induction ops generalizing engine host with
  | nil => cases hmem
  | cons op ops ih =>
      rcases List.mem_cons.mp hmem with rfl | hmem
      · exact ⟨host, rfl⟩
      · exact ih hmem

/-- A run ends where the operations after the first one lead. -/
@[simp] theorem after_cons (engine : Engine σ) (op : Op) (ops : List Op) (host : σ) :
    engine.after (op :: ops) host =
      (engine.step op host).after.after ops (engine.step op host).host := rfl

/-- A run shows what its steps show. -/
theorem journal_run (engine : Engine σ) (ops : List Op) (host : σ) :
    ((engine.run ops).run host).journal = (engine.steps ops host).flatMap Step.journal := by
  induction ops generalizing engine host with
  | nil => rfl
  | cons op ops ih =>
      rw [steps_cons, List.flatMap_cons, ← ih]
      rfl

end Engine

end EventStaging
