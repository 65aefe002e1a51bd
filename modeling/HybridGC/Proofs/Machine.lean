import HybridGC.Proofs.Gc
import Mathlib.Logic.Relation

/-!
# Runs of a collector

A machine is a collector with the passes and teardowns that are under way, each with the
destructors it still owes. A destructor is client code, which may do between its start and its end
whatever a client may do: call any operation, write into payloads, or unwind and leave its pass as
it is. So a run is a sequence of single operations, and the states between them are those that
destructors see.
-/

namespace HybridGC

/-- What runs destructors. -/
inductive Undertaking where
  | pass
  | teardown

/-- A pass or a teardown that is under way, with the destructors it still owes. -/
structure Frame (δ : Type) where
  undertaking : Undertaking
  owed : List (UInt64 × δ)

/-- A collector with what is under way, the innermost first. -/
structure Machine (δ : Type) where
  gc : Gc δ
  frames : List (Frame δ) := []

namespace Machine

variable {δ α : Type}

/-- Run an operation. Its answer may say that a pass or a teardown is under way from now on. -/
def perform (act : Faulting (Gc δ) α) (opened : α → Option (Frame δ)) (m : Machine δ) :
    Machine δ :=
  match act.run m.gc with
  | .ok x g => ⟨g, (opened x).toList ++ m.frames⟩
  | .error _ g => ⟨g, m.frames⟩

/-- One operation of a client or of the collector it works for. Operations that fault keep the state
they have reached. -/
inductive Step : Machine δ → Machine δ → Prop
  | addref (g : Gc δ) (fs : List (Frame δ)) (a : UInt64) :
      Step ⟨g, fs⟩ ⟨after (Gc.addref a) g, fs⟩
  | delref (g : Gc δ) (fs : List (Frame δ)) (a : UInt64) :
      Step ⟨g, fs⟩ ⟨after (Gc.delref a) g, fs⟩
  | create (g : Gc δ) (fs : List (Frame δ)) {alloc : Allocator δ}
      (hsound : alloc.SoundAt g.collector.heap) (size : Nat) (d : Option δ) :
      Step ⟨g, fs⟩ ⟨after (Gc.create alloc size d) g, fs⟩
  | note (g : Gc δ) (fs : List (Frame δ)) (msg : Message) :
      Step ⟨g, fs⟩ ⟨after (Gc.note msg) g, fs⟩
  | setThreshold (g : Gc δ) (fs : List (Frame δ)) (n : Nat) :
      Step ⟨g, fs⟩ ⟨after (Gc.setThreshold n) g, fs⟩
  | store (g : Gc δ) (fs : List (Frame δ)) {a w : UInt64} {offset : Nat} {heap : Heap δ}
      (hs : g.collector.heap.store? a offset w = some heap) :
      Step ⟨g, fs⟩ ⟨{ g with collector := { g.collector with heap } }, fs⟩
  | openPass (m : Machine δ) (fresh : Option UInt64) (scan : Option (List UInt64)) :
      Step m (m.perform (Gc.openPass fresh scan) fun pass? => pass?.map (⟨.pass, ·.pending⟩))
  | beginTeardown (m : Machine δ) :
      Step m (m.perform Gc.beginTeardown fun owed? => owed?.map (⟨.teardown, ·⟩))
  | destroy (g : Gc δ) (fs : List (Frame δ)) (u : Undertaking) (x : UInt64 × δ)
      (owed : List (UInt64 × δ)) :
      Step ⟨g, ⟨u, x :: owed⟩ :: fs⟩ ⟨after (Gc.note (.destroying x.1)) g, ⟨u, owed⟩ :: fs⟩
  | closePass (g : Gc δ) (fs : List (Frame δ)) :
      Step ⟨g, ⟨.pass, []⟩ :: fs⟩ ⟨after Gc.closePass g, fs⟩
  | endTeardown (g : Gc δ) (fs : List (Frame δ)) :
      Step ⟨g, ⟨.teardown, []⟩ :: fs⟩ ⟨after Gc.endTeardown g, fs⟩
  | unwind (g : Gc δ) (f : Frame δ) (fs : List (Frame δ)) : Step ⟨g, f :: fs⟩ ⟨g, fs⟩

/-- What any number of operations can lead to. -/
def Steps : Machine δ → Machine δ → Prop :=
  Relation.ReflTransGen Step

/-- What can come about from a new collector. -/
def Reachable (m : Machine δ) : Prop :=
  ∃ config scanner, Steps ⟨Gc.start config scanner, []⟩ m

/-! ### Frames -/

/-- An operation sees the collector alone, so frames below it make no difference to what it does. -/
lemma perform_append (act : Faulting (Gc δ) α) (opened : α → Option (Frame δ)) (m : Machine δ)
    (fs : List (Frame δ)) :
    perform act opened ⟨m.gc, m.frames ++ fs⟩ =
      ⟨(m.perform act opened).gc, (m.perform act opened).frames ++ fs⟩ := by
  rw [perform, perform]
  cases act.run m.gc <;> simp

/-- What is under way does not affect the operations of a destructor. -/
lemma Step.append {m m' : Machine δ} (h : Step m m') (fs : List (Frame δ)) :
    Step ⟨m.gc, m.frames ++ fs⟩ ⟨m'.gc, m'.frames ++ fs⟩ := by
  cases h with
  | addref g gs a => exact .addref g _ a
  | delref g gs a => exact .delref g _ a
  | create g gs hsound size d => exact .create g _ hsound size d
  | note g gs msg => exact .note g _ msg
  | setThreshold g gs n => exact .setThreshold g _ n
  | store g gs hs => exact .store g _ hs
  | openPass m fresh scan =>
    rw [← perform_append]
    exact .openPass _ fresh scan
  | beginTeardown m =>
    rw [← perform_append]
    exact .beginTeardown _
  | destroy g gs u x owed => exact .destroy g _ u x owed
  | closePass g gs => exact .closePass g _
  | endTeardown g gs => exact .endTeardown g _
  | unwind g f gs => exact .unwind g f _

/-- Nor does what is under way affect a whole run. -/
lemma Steps.append {m m' : Machine δ} (h : Steps m m') (fs : List (Frame δ)) :
    Steps ⟨m.gc, m.frames ++ fs⟩ ⟨m'.gc, m'.frames ++ fs⟩ := by
  induction h with
  | refl => exact .refl
  | tail _ hstep ih => exact ih.tail (hstep.append fs)

/-! ### The partition invariant -/

lemma gc_perform (act : Faulting (Gc δ) α) (opened : α → Option (Frame δ)) (m : Machine δ) :
    (m.perform act opened).gc = after act m.gc := by
  rw [perform, after]
  cases act.run m.gc <;> rfl

/-- A pass that opens is under way from then on, and owes the destructors of what it collects. -/
lemma perform_openPass {g : Gc δ} (hg : g.Partitioned) (hc : g.collector.collecting = false)
    (hs : g.isShutdown = false) (fresh : Option UInt64) (roots : List UInt64)
    (fs : List (Frame δ)) :
    perform (Gc.openPass fresh (some roots)) (·.map (⟨.pass, ·.pending⟩)) ⟨g, fs⟩ =
      ⟨after (Gc.openPass fresh (some roots)) g,
        ⟨.pass, (after (Gc.openPass fresh (some roots)) g).collector.pendingDestructors⟩ :: fs⟩ := by
  obtain ⟨c, condemned, hr, -⟩ :=
    Gc.openPass_opened hg.collector.labelled (hg.idle hc hs) hc hs fresh roots
  rw [perform, after, hr]
  rfl

/-- Every operation keeps the partition invariant. -/
lemma Step.partitioned {m m' : Machine δ} (h : Step m m') (hm : m.gc.Partitioned) :
    m'.gc.Partitioned := by
  cases h with
  | addref g fs a => exact hm.after_addref a
  | delref g fs a => exact hm.after_delref a
  | create g fs hsound size d => exact hm.after_create hsound size d
  | note g fs msg => exact hm.note msg
  | setThreshold g fs n => exact ⟨hm.collector, hm.idle⟩
  | store g fs hs => exact hm.store hs
  | openPass m fresh scan =>
    rw [gc_perform]
    exact hm.after_openPass fresh scan
  | beginTeardown m =>
    rw [gc_perform]
    exact hm.after_beginTeardown
  | destroy g fs u x owed => exact hm.note _
  | closePass g fs => exact hm.after_closePass
  | endTeardown g fs => exact hm.after_endTeardown
  | unwind g f fs => exact hm

/-- So does every run. -/
lemma Steps.partitioned {m m' : Machine δ} (h : Steps m m') (hm : m.gc.Partitioned) :
    m'.gc.Partitioned := by
  induction h with
  | refl => exact hm
  | tail _ hstep ih => exact hstep.partitioned ih

/-- The step from the single operation to all runs: whatever comes about keeps the partition
invariant. -/
lemma Reachable.partitioned {m : Machine δ} (h : m.Reachable) : m.gc.Partitioned := by
  obtain ⟨config, scanner, hsteps⟩ := h
  exact hsteps.partitioned (Gc.partitioned_start config scanner)

end Machine

end HybridGC
