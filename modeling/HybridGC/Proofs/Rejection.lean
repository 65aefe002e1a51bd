import HybridGC.Proofs.Growth
import HybridGC.Proofs.Teardown
import HybridGC.Proofs.World

/-!
# Rejected teardowns

A teardown that is asked for during a pass stops, but only after it has shut the collector down, and
nothing takes that back. So the pass that is open is the last thing that frees anything: whatever
else is tracked stays as it is, also when another teardown is asked for after the pass.
-/

namespace HybridGC

namespace Gc

variable {δ : Type} {g g₁ g₂ g₃ : Gc δ}

/-- The collector has been shut down, and nothing has changed in its lasting partitions or in a
header, or has been freed but what was being collected. -/
structure Sealed (g g' : Gc δ) : Prop where
  isShutdown : g'.isShutdown = true
  zeroCount_eq : g'.collector.zeroCount = g.collector.zeroCount
  multiRef_eq : g'.collector.multiRef = g.collector.multiRef
  mem_of_mem_working : ∀ a, a ∈ g'.collector.working → a ∈ g.collector.working
  refs_eq : ∀ a, g'.collector.heap.refs a = g.collector.heap.refs a
  state?_eq : ∀ a, g'.collector.heap.state? a = g.collector.heap.state? a
  destructor?_eq : ∀ a, g'.collector.heap.destructor? a = g.collector.heap.destructor? a
  live_iff : ∀ a, a ∉ g.collector.working →
    (g'.collector.heap.Live a ↔ g.collector.heap.Live a)

namespace Sealed

lemma trans (h : g₁.Sealed g₂) (h' : g₂.Sealed g₃) : g₁.Sealed g₃ where
  isShutdown := h'.isShutdown
  zeroCount_eq := h'.zeroCount_eq.trans h.zeroCount_eq
  multiRef_eq := h'.multiRef_eq.trans h.multiRef_eq
  mem_of_mem_working a ha := h.mem_of_mem_working a (h'.mem_of_mem_working a ha)
  refs_eq a := (h'.refs_eq a).trans (h.refs_eq a)
  state?_eq a := (h'.state?_eq a).trans (h.state?_eq a)
  destructor?_eq a := (h'.destructor?_eq a).trans (h.destructor?_eq a)
  live_iff a ha := by
    have ha' : a ∉ g₂.collector.working := fun hw => ha (h.mem_of_mem_working a hw)
    rw [h'.live_iff a ha', h.live_iff a ha]

/-- What is frozen is sealed: nothing has been freed at all. -/
lemma of_frozen (h : g₁.Frozen g₂) : g₁.Sealed g₂ where
  isShutdown := h.isShutdown
  zeroCount_eq := by rw [h.toPartitions_eq]
  multiRef_eq := by rw [h.toPartitions_eq]
  mem_of_mem_working a ha := by rwa [h.toPartitions_eq] at ha
  refs_eq a := by simp [Heap.refs, h.header?_eq]
  state?_eq a := by simp [Heap.state?, h.header?_eq]
  destructor?_eq a := by simp [Heap.destructor?, h.header?_eq]
  live_iff a _ := h.live_iff a

/-- After shutdown a sweep frees what was being collected, and so seals the rest. -/
lemma of_swept {c : Collector δ} (hs : g.isShutdown = true) (h : g.collector.Swept c) :
    g.Sealed { g with collector := c } where
  isShutdown := hs
  zeroCount_eq := h.zeroCount_eq
  multiRef_eq := h.multiRef_eq
  mem_of_mem_working a ha := absurd ha (h.not_mem_working a)
  refs_eq := h.refs_eq
  state?_eq := h.state?_eq
  destructor?_eq := h.destructor?_eq
  live_iff a ha := by simp [h.live_iff, ha]

/-- What is not being collected stays tracked and is not freed. -/
lemma isTracked {a : UInt64} (h : g₁.Sealed g₂) (hg : g₁.Partitioned)
    (ha : g₁.collector.isTracked a = true) (hw : a ∉ g₁.collector.working) :
    g₂.collector.isTracked a = true ∧ g₂.collector.heap.Live a := by
  obtain ⟨p, hp⟩ := Partitions.isTracked_iff.1 ha
  refine ⟨Partitions.isTracked_iff.2 ⟨p, ?_⟩, (h.live_iff a hw).2 (hg.collector.live hp)⟩
  cases p with
  | zeroCount =>
    simp only [Partitions.table, h.zeroCount_eq]
    exact hp
  | multiRef =>
    simp only [Partitions.table, h.multiRef_eq]
    exact hp
  | working => exact absurd hp hw

end Sealed

end Gc

namespace Machine

variable {δ : Type} {m m' : Machine δ}

/-- After shutdown no step adds to a table or takes anything but what is being collected. -/
lemma Step.sealed (h : Step m m') (hs : m.gc.isShutdown = true) : m.gc.Sealed m'.gc := by
  rcases h.frozen_or_closes hs with ⟨hfrozen, -⟩ | ⟨fs, -, rfl⟩ | ⟨fs, -, rfl⟩
  · exact .of_frozen hfrozen
  · obtain ⟨c, hr, hc⟩ := Gc.closePass_finished m.gc
    simp only [after, hr]
    exact .of_swept hs hc.swept
  · obtain ⟨c, hr, hc, -⟩ := Gc.endTeardown_swept m.gc
    simp only [after, hr]
    exact .of_swept hs hc

/-- The run: however it goes on after shutdown, nothing is added and nothing else is freed. -/
lemma Steps.sealed (h : Steps m m') (hs : m.gc.isShutdown = true) : m.gc.Sealed m'.gc := by
  induction h with
  | refl => exact .of_frozen (.refl hs)
  | tail _ hstep ih => exact ih.trans (hstep.sealed ih.isShutdown)

end Machine

namespace Host

open Machine

variable {μ δ : Type} {s : Host μ δ}

/-- A teardown that is asked for during a pass stops, and the one thing it has changed is that the
collector is shut down. From then on no call changes anything, whether the pass is still open, has
ended or has been abandoned: what the pass does not collect stays tracked, and no teardown destroys
it. -/
theorem deinit_rejected {fs : List (Frame δ)} (hs : Reachable ⟨s.gc, fs⟩)
    (hc : s.gc.collector.collecting = true) (hsd : s.gc.isShutdown = false) :
    (∀ env : Environment μ δ, (deinit env).run s =
      .error (.unwinding .deinitDuringPass) { s with gc := { s.gc with isShutdown := true } }) ∧
    ∀ m, Steps ⟨{ s.gc with isShutdown := true }, fs⟩ m →
      s.gc.Sealed m.gc ∧
      (∀ a, s.gc.collector.isTracked a = true → a ∉ s.gc.collector.working →
        m.gc.collector.isTracked a = true ∧ m.gc.collector.heap.Live a) ∧
      ∀ s' : Host μ δ, s'.gc = m.gc → s'.Inert := by
  refine ⟨fun env => ?_, fun m hm => ?_⟩
  · simp [deinit, Gc.beginTeardown_of_collecting hc hsd]
  · have hsealed : s.gc.Sealed m.gc := { hm.sealed rfl with }
    refine ⟨hsealed, fun a ha hw => hsealed.isTracked hs.partitioned ha hw, fun s' hs' => ?_⟩
    apply inert_of_isShutdown
    rw [hs']
    exact hsealed.isShutdown

/-- The pass ends after a teardown was rejected in it, and the child its owner has left is tracked
for good. -/
theorem deinit_rejected_ownerDoomed :
    Reachable ⟨ownerDoomed, [⟨.pass, [(0x10000030, ())]⟩]⟩ ∧
      ∃ s : Host Unit Unit,
        Steps ⟨{ ownerDoomed with isShutdown := true }, [⟨.pass, [(0x10000030, ())]⟩]⟩
          ⟨s.gc, []⟩ ∧
        s.gc.collector.collecting = false ∧
        (deinit idle).run s = .ok () s ∧ s.gc.collector.isTracked 0x10000070 = true := by
  have h := hasTracing_ownerDoomed.reachable
  obtain ⟨-, hrest⟩ :=
    deinit_rejected (s := ⟨(), ownerDoomed⟩) h (by decide +kernel) (by decide +kernel)
  -- the destructor of the owner returns without having dropped the child, and the pass is swept
  have hsteps : Steps ⟨{ ownerDoomed with isShutdown := true }, [⟨.pass, [(0x10000030, ())]⟩]⟩
      ⟨after Gc.closePass (after (Gc.note (.destroying 0x10000030))
        { ownerDoomed with isShutdown := true }), []⟩ :=
    .tail (.single (.destroy _ [] .pass (0x10000030, ()) [])) (.closePass _ [])
  obtain ⟨-, htracked, hinert⟩ := hrest _ hsteps
  refine ⟨h, ⟨(), _⟩, hsteps, by decide +kernel, (hinert ⟨(), _⟩ rfl).deinit idle, ?_⟩
  exact (htracked _ (by decide +kernel) (by decide +kernel)).1

/-- The destructor of one object asks for a teardown, and catches the fault. -/
def deinitInPass : List Call :=
  [({}, .alloc 8 (some (.foreign, [({}, .deinit)])) 1), ({}, .alloc 8 (some (.native, [])) 1),
    ({}, .addref (.ref (.object 1 0)) 1), ({}, .collect)]

/-- A rejected teardown is not without effect. The pass has ended, no teardown has taken place and
an object is tracked, but the collector is shut down, and a teardown that is asked for now leaves
the object as it is. -/
theorem deinit_rejected_shuts_down :
    ∃ w w' : World, w = (World.run deinitInPass (World.start {} .noRoots)).2 ∧
      (w.client.rounds.any fun r => r.destructions.any fun d =>
        d.answers matches [.fault .deinitDuringPass]) = true ∧
      w.gc.collector.collecting = false ∧ w.gc.isShutdown = true ∧
      w.gc.collector.isTracked 0x10000070 = true ∧
      (deinit (World.environment World.runDestructor .main)).run w = .ok () w' ∧
      w'.gc.collector.isTracked 0x10000070 = true ∧
      World.destroyed w'.client = [0x10000030] := by
  have hdown : (World.run deinitInPass (World.start {} .noRoots)).2.gc.isShutdown = true := by
    decide +kernel
  refine ⟨_, _, rfl, by decide +kernel, by decide +kernel, hdown, by decide +kernel,
    (inert_of_isShutdown hdown).deinit _, by decide +kernel, by decide +kernel⟩

end Host

end HybridGC
