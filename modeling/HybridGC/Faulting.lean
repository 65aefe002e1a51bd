import HybridGC.Fault

/-!
# Computations that may stop

A computation on a state either answers or stops, and the state it has reached then stays either
way: nothing is undone.
-/

namespace HybridGC

/-- Computations on a state that may stop at a fault. -/
abbrev Faulting (σ : Type) := EStateM Fault σ

variable {ε σ α β : Type}

@[simp] theorem run_map (f : α → β) (act : EStateM ε σ α) (s : σ) :
    (f <$> act).run s =
      match act.run s with
      | .ok x s => .ok (f x) s
      | .error e s => .error e s := rfl

@[simp] theorem run_throw_any (e : ε) (s : σ) :
    (throw e : EStateM ε σ α).run s = .error e s := rfl

theorem run_forM_cons (f : α → EStateM ε σ PUnit) (a : α) (as : List α) (s : σ) :
    ((a :: as).forM f).run s =
      match (f a).run s with
      | .ok _ s => (as.forM f).run s
      | .error e s => .error e s := by
  rw [List.forM_eq_forM, List.forM_cons, EStateM.run_bind]
  cases (f a).run s <;> rfl

/-- The state a computation reaches, whether it answers or stops. -/
def after (act : EStateM ε σ α) (s : σ) : σ :=
  match act.run s with
  | .ok _ s => s
  | .error _ s => s

end HybridGC
