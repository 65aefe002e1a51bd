import HybridGC.Client.Perform

/-!
# Calls of a busy collector

A collector is busy while a pass is open and after it has been shut down. A busy collector opens no
pass and tears nothing down, so a call to it never runs a destructor: whatever destructors would do,
the call answers the same and leaves the same world (`perform_of_isBusy`).
-/

namespace HybridGC

/-! ### The collector -/

theorem Collector.collecting_track {δ : Type} (a : UInt64) (c : Collector δ) :
    ∃ c', c'.collecting = c.collecting ∧
      ((track a).run c = .ok () c' ∨ (track a).run c = .error (.trackedTwice a) c') := by
  refine ⟨(c.put .zeroCount (.ofAddress a)).2, by simp, ?_⟩
  cases h : (c.put .zeroCount (.ofAddress a)).1 <;> simp [track, h]

namespace Gc

variable {δ : Type}

/-- A busy collector opens no pass. -/
theorem openPass_of_isBusy {g : Gc δ} (h : g.isBusy) (fresh : Option UInt64)
    (scan : Option (List UInt64)) :
    ∃ g', g'.isBusy ∧ (openPass fresh scan).run g = .ok none g' := by
  cases hs : g.isShutdown
  · simp only [isBusy, hs, Bool.or_false] at h
    cases scan
    · exact ⟨{ g with collector := g.collector.note .passSkipped }, by simp [isBusy, h],
        by simp [openPass, hs, note]⟩
    · exact ⟨g, by simp [isBusy, h], by simp [openPass, hs, h]⟩
  · exact ⟨g, h, by simp [openPass, hs]⟩

/-- Allocation leaves a busy collector busy, and after one that succeeds a pass is open. -/
theorem isBusy_of_create {g g' : Gc δ} {alloc : Allocator δ} {size : Nat} {d : Option δ}
    {r : Except GcError UInt64} (h : g.isBusy) (hr : (create alloc size d).run g = .ok r g') :
    g'.isBusy ∧ (r.isOk → g'.collector.collecting) := by
  cases hs : g.isShutdown
  · simp only [isBusy, hs, Bool.or_false] at h
    cases ha : alloc g.collector.heap size d with
    | error e =>
      simp [create, hs, ha] at hr
      simp [← hr.2, isBusy, h]
    | ok p =>
      obtain ⟨a, heap⟩ := p
      obtain ⟨c', hc, ht | ht⟩ := Collector.collecting_track a { g.collector with heap }
      · simp [create, hs, ha, ht] at hr
        simp [← hr.2, isBusy, hc, h]
      · simp [create, hs, ha, ht] at hr
  · simp [create, hs, note] at hr
    simp [← hr.1, ← hr.2, isBusy, Except.isOk, Except.toBool]

/-- A busy collector condemns nothing. -/
theorem beginTeardown_of_isBusy {g : Gc δ} (h : g.isBusy) :
    (beginTeardown.run g = .ok none g) ∨ ∃ f g', beginTeardown.run g = .error f g' := by
  cases hs : g.isShutdown
  · simp only [isBusy, hs, Bool.or_false] at h
    exact .inr ⟨.deinitDuringPass, { g with isShutdown := true }, by simp [beginTeardown, hs, h]⟩
  · exact .inl (by simp [beginTeardown, hs])

end Gc

namespace Host

variable {μ δ : Type}

/-- A pass of a busy collector does not take place. -/
theorem runPass_of_isBusy {s : Host μ δ} (h : s.gc.isBusy) (scan : Option (List UInt64))
    (fresh : Option UInt64) :
    ∃ g : Gc δ, g.isBusy ∧ ∀ env : Environment μ δ, env.scan s.client s.gc.scanner = scan →
      (runPass env fresh).run s = .ok 0 { s with gc := g } := by
  obtain ⟨g, hb, hg⟩ := Gc.openPass_of_isBusy h fresh scan
  exact ⟨g, hb, fun env he => by simp [runPass, he, hg]⟩

/-- Allocation from a busy collector runs no pass. -/
theorem allocate_of_isBusy {s : Host μ δ} (h : s.gc.isBusy) (env : Environment μ δ)
    (size : Nat) (d : Option δ) :
    (allocate env size d).run s = (onGc (Gc.create env.alloc size d)).run s := by
  simp only [allocate, EStateM.run_bind, run_onGc]
  cases hr : (Gc.create env.alloc size d).run s.gc with
  | error e g => rfl
  | ok r g =>
    obtain ⟨_, hc⟩ := Gc.isBusy_of_create h hr
    cases r with
    | error e => rfl
    | ok a => simp [Gc.isDue, hc (by simp [Except.isOk, Except.toBool])]

/-- A teardown of a busy collector runs no destructor. -/
theorem deinit_of_isBusy {s : Host μ δ} (h : s.gc.isBusy) (env env' : Environment μ δ) :
    (deinit env).run s = (deinit env').run s := by
  obtain hg | ⟨f, g', hg⟩ := Gc.beginTeardown_of_isBusy h <;> simp [deinit, hg]

end Host

/-! ### Calls -/

namespace World

open Host

/-- Creating an object leaves a busy collector busy, and does not depend on how destructors run. -/
theorem create_of_isBusy {w : World} (h : w.gc.isBusy) (destroy : Destroy) (here : Thread)
    (api : Api) (size : Nat) (d : Option (DestructorKind × List Call)) :
    (∀ destroy',
        (create destroy here api size d).run w = (create destroy' here api size d).run w) ∧
      ∀ x w', (create destroy here api size d).run w = .ok x w' → w'.gc.isBusy := by
  have hw (c : Client) (f : Option Finalizer) (destroy' : Destroy) :
      (allocate (environment destroy' here) size f).run { w with client := c } =
        (onGc (Gc.create Heap.allocate size f)).run { w with client := c } :=
    allocate_of_isBusy (s := { w with client := c }) h (environment destroy' here) size f
  constructor
  · intro destroy'
    simp [create, reserve, modifyClient, hw]
  · intro x w' hr
    simp only [create, reserve, release, enter, modifyClient, EStateM.run_bind, EStateM.run_get,
      run_onClient, EStateM.run_pure, hw, run_onGc] at hr
    generalize Option.map _ _ = f at hr
    cases hc : (Gc.create Heap.allocate size f).run w.gc with
    | error e g => simp [hc] at hr
    | ok r g =>
      have hb := (Gc.isBusy_of_create h hc).1
      cases r with
      | ok a =>
        simp [hc] at hr
        simpa [← hr.2] using hb
      | error e =>
        by_cases ha : api = .c <;> simp [hc, ha, Gc.note] at hr <;>
          simpa [← hr.2, Gc.isBusy] using hb

/-- Repeating a computation that keeps the collector busy does not depend on how destructors run. -/
theorem times_of_isBusy {act act' : Act Answer}
    (hact : ∀ w : World, w.gc.isBusy →
      act.run w = act'.run w ∧ ∀ x w', act.run w = .ok x w' → w'.gc.isBusy)
    (n : Nat) {w : World} (h : w.gc.isBusy) : (times act n).run w = (times act' n).run w := by
  induction n using times.induct generalizing w with
  | case1 => rfl
  | case2 => exact (hact w h).1
  | case3 n hn ih =>
    obtain ⟨he, hb⟩ := hact w h
    simp only [times, EStateM.run_bind, ← he]
    cases hr : act.run w with
    | error e w' => rfl
    | ok x w' => exact ih (hb x w' hr)

/-- What a busy collector answers does not depend on how destructors run. -/
theorem answer_of_isBusy {w : World} (h : w.gc.isBusy) (destroy destroy' : Destroy)
    (here : Thread) (self : Option UInt64) (api : Api) (op : Op) :
    (answer destroy here self api op).run w = (answer destroy' here self api op).run w := by
  cases op with
  | alloc size d n =>
    exact times_of_isBusy
      (fun w h => ⟨(create_of_isBusy h destroy here api size d).1 destroy',
        (create_of_isBusy h destroy here api size d).2⟩) n h
  | collect =>
    obtain ⟨g, _, hg⟩ :=
      runPass_of_isBusy h ((environment destroy here).scan w.client w.gc.scanner) none
    simp [answer, hg (environment destroy here) rfl, hg (environment destroy' here) rfl]
  | deinit =>
    simp [answer, deinit_of_isBusy h (environment destroy here) (environment destroy' here)]
  | swapref slot value => cases slot <;> rfl
  | _ => rfl

/-- A call to a busy collector does not depend on how destructors run. -/
theorem perform_of_isBusy {w : World} (h : w.gc.isBusy) (destroy destroy' : Destroy)
    (here : Thread) (self : Option UInt64) (call : Call) :
    (perform destroy here self call).run w = (perform destroy' here self call).run w := by
  obtain ⟨manner, op⟩ := call
  have he := answer_of_isBusy h destroy destroy' (here.call manner.spawn) self manner.api op
  simp only [perform]
  split
  · simp only [abortOnFault, EStateM.run] at he ⊢
    rw [he]
  · exact he

end World

end HybridGC
