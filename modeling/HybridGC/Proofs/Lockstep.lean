import HybridGC.Faulting
import Mathlib.Tactic.Lemma

/-!
# Computations in lockstep

Two computations go in lockstep if from related states they answer related values or stop at the
same fault, and reach related states either way. What is put together from computations in lockstep
goes in lockstep, so it is enough to know this of the elementary ones.
-/

namespace HybridGC

variable {ε σ σ' α α' β β' : Type}

/-- Two results are alike: related values or the same fault, in related states. -/
inductive Alike (R : σ → σ' → Prop) (V : α → α' → Prop) :
    EStateM.Result ε σ α → EStateM.Result ε σ' α' → Prop
  | ok {x : α} {x' : α'} {s : σ} {s' : σ'} (hv : V x x') (hs : R s s') :
      Alike R V (.ok x s) (.ok x' s')
  | error (e : ε) {s : σ} {s' : σ'} (hs : R s s') : Alike R V (.error e s) (.error e s')

/-- From related states the computations end alike. -/
def Lockstep (R : σ → σ' → Prop) (V : α → α' → Prop) (act : EStateM ε σ α)
    (act' : EStateM ε σ' α') : Prop :=
  ∀ ⦃s s'⦄, R s s' → Alike R V (act.run s) (act'.run s')

variable {R : σ → σ' → Prop} {V : α → α' → Prop} {W : β → β' → Prop}

namespace Alike

variable {act : EStateM ε σ α} {act' : EStateM ε σ' α'} {s : σ} {s' : σ'}

/-- Ends that are alike stay alike under weaker relations. -/
lemma imp {R' : σ → σ' → Prop} {V' : α → α' → Prop} {r : EStateM.Result ε σ α}
    {r' : EStateM.Result ε σ' α'} (h : Alike R V r r') (hR : ∀ s s', R s s' → R' s s')
    (hV : ∀ x x', V x x' → V' x x') : Alike R' V' r r' := by
  cases h with
  | ok hv hs => exact .ok (hV _ _ hv) (hR _ _ hs)
  | error e hs => exact .error e (hR _ _ hs)

/-- What is known of the first value. -/
lemma and_left {P : α → Prop} {r : EStateM.Result ε σ α} {r' : EStateM.Result ε σ' α'}
    (h : Alike R V r r') (hP : ∀ x s, r = .ok x s → P x) :
    Alike R (fun x x' => V x x' ∧ P x) r r' := by
  cases h with
  | ok hv hs => exact .ok ⟨hv, hP _ _ rfl⟩ hs
  | error e hs => exact .error e hs

/-- Computations that end alike go on alike, if what follows is in lockstep; after a fault nothing
follows. -/
lemma bind {f : α → EStateM ε σ β} {f' : α' → EStateM ε σ' β'}
    (h : Alike R V (act.run s) (act'.run s'))
    (hf : ∀ x x', V x x' → Lockstep R W (f x) (f' x')) :
    Alike R W ((act >>= f).run s) ((act' >>= f').run s') := by
  rw [EStateM.run_bind, EStateM.run_bind]
  generalize act.run s = r at h ⊢
  generalize act'.run s' = r' at h ⊢
  cases h with
  | ok hv hs => exact hf _ _ hv hs
  | error e hs => exact .error e hs

end Alike

namespace Lockstep

variable {act : EStateM ε σ α} {act' : EStateM ε σ' α'}

lemma pure {x : α} {x' : α'} (h : V x x') :
    Lockstep R V (Pure.pure x : EStateM ε σ α) (Pure.pure x' : EStateM ε σ' α') :=
  fun _ _ hs => .ok h hs

lemma throw (e : ε) :
    Lockstep R V (MonadExcept.throw e : EStateM ε σ α) (MonadExcept.throw e : EStateM ε σ' α') :=
  fun _ _ hs => .error e hs

/-- Nothing is done after a fault. -/
lemma throw_bind (e : ε) {f : α → EStateM ε σ β} {f' : α' → EStateM ε σ' β'} :
    Lockstep R W (MonadExcept.throw e >>= f) (MonadExcept.throw e >>= f') :=
  fun _ _ hs => .error e hs

lemma get : Lockstep R R (MonadState.get : EStateM ε σ σ) (MonadState.get : EStateM ε σ' σ') :=
  fun _ _ hs => .ok hs hs

lemma modifyGet {f : σ → α × σ} {f' : σ' → α' × σ'}
    (h : ∀ s s', R s s' → V (f s).1 (f' s').1 ∧ R (f s).2 (f' s').2) :
    Lockstep R V (MonadState.modifyGet f : EStateM ε σ α)
      (MonadState.modifyGet f' : EStateM ε σ' α') :=
  fun s s' hs => .ok (h s s' hs).1 (h s s' hs).2

lemma update {f : σ → σ} {f' : σ' → σ'} (h : ∀ s s', R s s' → R (f s) (f' s')) :
    Lockstep R (fun _ _ => True) (modify f : EStateM ε σ PUnit)
      (modify f' : EStateM ε σ' PUnit) :=
  fun s s' hs => .ok trivial (h s s' hs)

/-- One computation after another: the second starts from related values as well as related states.
-/
lemma bind {f : α → EStateM ε σ β} {f' : α' → EStateM ε σ' β'} (h : Lockstep R V act act')
    (hf : ∀ x x', V x x' → Lockstep R W (f x) (f' x')) :
    Lockstep R W (act >>= f) (act' >>= f') :=
  fun _ _ hs => (h hs).bind hf

lemma ite {c c' : Prop} [Decidable c] [Decidable c'] {other : EStateM ε σ α}
    {other' : EStateM ε σ' α'} (hc : c ↔ c') (h : Lockstep R V act act')
    (hother : Lockstep R V other other') :
    Lockstep R V (if c then act else other) (if c' then act' else other') := by
  by_cases hcc : c
  · rw [if_pos hcc, if_pos (hc.1 hcc)]
    exact h
  · rw [if_neg hcc, if_neg fun h => hcc (hc.2 h)]
    exact hother

end Lockstep

end HybridGC
