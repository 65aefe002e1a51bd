import HybridGC.Host
import HybridGC.Proofs.History

/-!
# What the operations stop at

Counting stops where the client has named an object that is not tracked or a count that cannot
change any more, and a teardown stops during a pass. These are the only ways in which an operation
of a collector that keeps the partition invariant stops: no other operation stops at all, and no
fault of the collector itself is met, however its client, its destructors and its scanner have used
it.
-/

namespace HybridGC

variable {ε σ α : Type}

/-- What a computation stops at, if it does. -/
def halt (act : EStateM ε σ α) (s : σ) : Option ε :=
  match act.run s with
  | .ok .. => none
  | .error e _ => some e

lemma halt_of_ok {act : EStateM ε σ α} {s s' : σ} {x : α} (h : act.run s = .ok x s') :
    halt act s = none := by
  rw [halt, h]

lemma halt_of_error {act : EStateM ε σ α} {s s' : σ} {e : ε} (h : act.run s = .error e s') :
    halt act s = some e := by
  rw [halt, h]

lemma halt_eq_none_iff {act : EStateM ε σ α} {s : σ} :
    halt act s = none ↔ ∃ x s', act.run s = .ok x s' := by
  rw [halt]
  cases act.run s <;> simp

lemma halt_eq_some_iff {act : EStateM ε σ α} {s : σ} {e : ε} :
    halt act s = some e ↔ ∃ s', act.run s = .error e s' := by
  rw [halt]
  cases act.run s <;> simp

/-- The faults that are the client's: it has misused a reference count, asked for a teardown during
a pass, or raised the fault itself. All others are violated assertions of the collector. -/
def Fault.IsMisuse : Fault → Prop
  | .addrefUntracked _ | .delrefUntracked _ | .countOverflow | .countUnderflow
  | .deinitDuringPass | .raised _ => True
  | .badLadder | .trackedTwice _ | .missingFromPartition _ | .inTwoPartitions _ | .condemnedTwice
  | .passInProgress | .workingNotEmpty => False

/-- What stops a client is the client's own fault. -/
def Stop.IsMisuse : Stop → Prop
  | .unwinding f | .aborting f => f.IsMisuse

namespace Gc

variable {δ : Type} {g g' : Gc δ} {a : UInt64} {f : Fault}

/-! ### Counting -/

/-- Taking a reference stops at an object that is not tracked and at the largest count. -/
lemma addref_eq_error_iff (hg : g.collector.Partitioned) :
    (addref a).run g = .error f g' ↔ g' = g ∧ a ≠ 0 ∧ g.isShutdown = false ∧
      (g.collector.isTracked a = false ∧ f = .addrefUntracked a ∨
        g.collector.isTracked a = true ∧
          (g.collector.heap.refs a).toNat + 1 = UInt64.size ∧ f = .countOverflow) := by
  by_cases hi : a = 0 ∨ g.isShutdown = true
  · rw [addref_of_ignored hi]
    rcases hi with hi | hi <;> simp [hi]
  rw [not_or, Bool.not_eq_true] at hi
  obtain ⟨h0, hs⟩ := hi
  by_cases ht : g.collector.isTracked a = true
  · obtain ⟨p, hp⟩ := Partitions.isTracked_iff.1 ht
    by_cases hn : (g.collector.heap.refs a).toNat + 1 = UInt64.size
    · rw [addref_of_overflow h0 hs ht hn]
      simp [h0, hs, ht, hn, eq_comm, and_comm]
    · obtain ⟨c, q, hr, -⟩ := addref_recounted hg hs hp hn
      rw [hr]
      simp [ht, hn]
  · rw [Bool.not_eq_true] at ht
    rw [addref_of_not_isTracked h0 hs ht]
    simp [h0, hs, ht, eq_comm, and_comm]

/-- Dropping a reference stops at an object that is not tracked and at a count of zero. -/
lemma delref_eq_error_iff (hg : g.collector.Partitioned) :
    (delref a).run g = .error f g' ↔ g' = g ∧ a ≠ 0 ∧ g.isShutdown = false ∧
      (g.collector.isTracked a = false ∧ f = .delrefUntracked a ∨
        g.collector.isTracked a = true ∧ g.collector.heap.refs a = 0 ∧
          f = .countUnderflow) := by
  by_cases hi : a = 0 ∨ g.isShutdown = true
  · rw [delref_of_ignored hi]
    rcases hi with hi | hi <;> simp [hi]
  rw [not_or, Bool.not_eq_true] at hi
  obtain ⟨h0, hs⟩ := hi
  by_cases ht : g.collector.isTracked a = true
  · obtain ⟨p, hp⟩ := Partitions.isTracked_iff.1 ht
    by_cases hn : g.collector.heap.refs a = 0
    · rw [delref_of_underflow h0 hs ht hn]
      simp [h0, hs, ht, hn, eq_comm, and_comm]
    · obtain ⟨c, q, hr, -⟩ := delref_recounted hg hs hp hn
      rw [hr]
      simp [ht, hn]
  · rw [Bool.not_eq_true] at ht
    rw [delref_of_not_isTracked h0 hs ht]
    simp [h0, hs, ht, eq_comm, and_comm]

/-! ### Teardown -/

/-- A teardown stops where a pass is open. -/
lemma beginTeardown_eq_error_iff (hg : g.collector.Partitioned) :
    beginTeardown.run g = .error f g' ↔ g.collector.collecting = true ∧ g.isShutdown = false ∧
      f = .deinitDuringPass ∧ g' = { g with isShutdown := true } := by
  by_cases hs : g.isShutdown = true
  · rw [beginTeardown_of_isShutdown hs]
    simp [hs]
  rw [Bool.not_eq_true] at hs
  by_cases hc : g.collector.collecting = true
  · rw [beginTeardown_of_collecting hc hs]
    simp [hs, hc, eq_comm]
  · rw [Bool.not_eq_true] at hc
    obtain ⟨c, hr, -⟩ := beginTeardown_allCondemned hg hc hs
    rw [hr]
    simp [hc]

/-! ### Scanners that stop -/

/-- Open a pass whose scanner stops after it has reported some root words. What these name has been
rescued, no cycles have been looked for, and the pass stays open. -/
def scanStopped (fresh : Option UInt64) (reported : List UInt64) : Faulting (Gc δ) Unit := do
  let g ← get
  if g.isShutdown || g.collector.collecting then return
  onCollector do
    Collector.beginPass
    let _ ← modifyGet (Collector.rescueAll fresh.toList)
    let _ ← modifyGet (Collector.rescueAll reported)

/-- Where the scanner is reached at all, what it leaves is an open pass without cycles. -/
lemma scanStopped_cases (hg : g.Partitioned) (fresh : Option UInt64) (reported : List UInt64) :
    (scanStopped fresh reported).run g = .ok () g ∨
      ∃ c, (scanStopped fresh reported).run g = .ok () { g with collector := c } ∧
        (∀ b, b ∉ g.collector.working) ∧ g.collector.Opened c (fresh.toList ++ reported) ∅ := by
  by_cases hbusy : g.isShutdown = true ∨ g.collector.collecting = true
  · exact .inl (by simp [scanStopped, hbusy])
  · rw [not_or, Bool.not_eq_true, Bool.not_eq_true] at hbusy
    obtain ⟨hs, hc⟩ := hbusy
    have hw := hg.idle hc hs
    obtain ⟨c, hr, hbegun⟩ := Collector.beginPass_begun hc hw
    have hopen := Collector.opened_rescueAll hg.collector.labelled hbegun
      (Collector.rescued_rescueAll fresh.toList c) (Collector.rescued_rescueAll reported _)
    exact .inr ⟨_, by simp [scanStopped, hs, hc, hr], hw, hopen⟩

/-- A pass that its scanner has left open keeps the invariant. Opening has no unsafe middle. -/
lemma Partitioned.after_scanStopped (hg : g.Partitioned) (fresh : Option UInt64)
    (reported : List UInt64) : (after (scanStopped fresh reported) g).Partitioned := by
  rcases scanStopped_cases hg fresh reported with hr | ⟨c, hr, hw, hopen⟩
  · rwa [after, hr]
  · rw [after, hr]
    refine ⟨hopen.partitioned hg.collector hw, fun hc => ?_⟩
    exact absurd (hopen.collecting_eq.symm.trans hc) (by decide)

/-! ### Every operation -/

/-- Counting and tearing down stop exactly where the client has misused them, and no other operation
stops. -/
structure StopsAtMisuse (g : Gc δ) : Prop where
  addref_eq_error_iff : ∀ a f g', (addref a).run g = .error f g' ↔
    g' = g ∧ a ≠ 0 ∧ g.isShutdown = false ∧
      (g.collector.isTracked a = false ∧ f = .addrefUntracked a ∨
        g.collector.isTracked a = true ∧
          (g.collector.heap.refs a).toNat + 1 = UInt64.size ∧ f = .countOverflow)
  delref_eq_error_iff : ∀ a f g', (delref a).run g = .error f g' ↔
    g' = g ∧ a ≠ 0 ∧ g.isShutdown = false ∧
      (g.collector.isTracked a = false ∧ f = .delrefUntracked a ∨
        g.collector.isTracked a = true ∧ g.collector.heap.refs a = 0 ∧ f = .countUnderflow)
  beginTeardown_eq_error_iff : ∀ f g', beginTeardown.run g = .error f g' ↔
    g.collector.collecting = true ∧ g.isShutdown = false ∧ f = .deinitDuringPass ∧
      g' = { g with isShutdown := true }
  create_eq_ok : ∀ alloc : Allocator δ, alloc.SoundAt g.collector.heap → ∀ size d,
    ∃ r g', (create alloc size d).run g = .ok r g'
  openPass_eq_ok : ∀ fresh scan, ∃ pass? g', (openPass fresh scan).run g = .ok pass? g'
  scanStopped_eq_ok : ∀ fresh reported, ∃ g', (scanStopped fresh reported).run g = .ok () g'
  closePass_eq_ok : ∃ n g', closePass.run g = .ok n g'
  endTeardown_eq_ok : ∃ g', endTeardown.run g = .ok () g'
  setThreshold_eq_ok : ∀ n, ∃ g', (setThreshold n).run g = .ok () g'

/-- The invariant alone decides what an operation stops at, so no history is needed for it. -/
lemma Partitioned.stopsAtMisuse (hg : g.Partitioned) : g.StopsAtMisuse where
  addref_eq_error_iff _ _ _ := Gc.addref_eq_error_iff hg.collector
  delref_eq_error_iff _ _ _ := Gc.delref_eq_error_iff hg.collector
  beginTeardown_eq_error_iff _ _ := Gc.beginTeardown_eq_error_iff hg.collector
  create_eq_ok alloc hsound size d := by
    rcases create_cases hg hsound size d with ⟨e, g', hr, -⟩ | ⟨a, c, hr, -⟩
    · exact ⟨_, _, hr⟩
    · exact ⟨_, _, hr⟩
  openPass_eq_ok fresh scan := by
    rcases openPass_cases hg fresh scan with ⟨g', hr, -⟩ | ⟨pass, g', hr, -⟩
    · exact ⟨_, _, hr⟩
    · exact ⟨_, _, hr⟩
  scanStopped_eq_ok fresh reported := by
    rcases scanStopped_cases hg fresh reported with hr | ⟨c, hr, -⟩
    · exact ⟨_, hr⟩
    · exact ⟨_, hr⟩
  closePass_eq_ok := by
    obtain ⟨c, hr, -⟩ := closePass_finished g
    exact ⟨_, _, hr⟩
  endTeardown_eq_ok := by
    obtain ⟨c, hr, -⟩ := endTeardown_swept g
    exact ⟨_, hr⟩
  setThreshold_eq_ok _ := ⟨_, rfl⟩

namespace StopsAtMisuse

variable (h : g.StopsAtMisuse)

include h

lemma addref (a : UInt64) : ∀ f ∈ halt (Gc.addref a) g, f.IsMisuse := by
  intro f hf
  obtain ⟨g', hr⟩ := halt_eq_some_iff.1 hf
  obtain ⟨-, -, -, ⟨-, rfl⟩ | ⟨-, -, rfl⟩⟩ := (h.addref_eq_error_iff a f g').1 hr
  · trivial
  · trivial

lemma delref (a : UInt64) : ∀ f ∈ halt (Gc.delref a) g, f.IsMisuse := by
  intro f hf
  obtain ⟨g', hr⟩ := halt_eq_some_iff.1 hf
  obtain ⟨-, -, -, ⟨-, rfl⟩ | ⟨-, -, rfl⟩⟩ := (h.delref_eq_error_iff a f g').1 hr
  · trivial
  · trivial

lemma beginTeardown : ∀ f ∈ halt Gc.beginTeardown g, f.IsMisuse := by
  intro f hf
  obtain ⟨g', hr⟩ := halt_eq_some_iff.1 hf
  obtain ⟨-, -, rfl, -⟩ := (h.beginTeardown_eq_error_iff f g').1 hr
  trivial

end StopsAtMisuse

end Gc

/-! ### Whatever has happened before -/

namespace Machine

variable {δ : Type} {m : Machine δ}

/-- What can come about from a new collector if its scanner may stop as well. -/
inductive Arises : Machine δ → Prop
  | start (config : Config) (scanner : Scanner) : Arises ⟨Gc.start config scanner, []⟩
  | step {m m' : Machine δ} : Arises m → Step m m' → Arises m'
  | scanStopped {g : Gc δ} {fs : List (Frame δ)} (fresh : Option UInt64) (reported : List UInt64) :
      Arises ⟨g, fs⟩ → Arises ⟨after (Gc.scanStopped fresh reported) g, fs⟩

/-- Scanners that never stop are a special case. -/
lemma Reachable.arises (h : m.Reachable) : m.Arises := by
  obtain ⟨config, scanner, hsteps⟩ := h
  induction hsteps with
  | refl => exact .start config scanner
  | tail _ hstep ih => exact ih.step hstep

/-- Nothing that a client, a destructor or a stopping scanner can do breaks the partition invariant.
-/
lemma Arises.partitioned (h : m.Arises) : m.gc.Partitioned := by
  induction h with
  | start config scanner => exact Gc.partitioned_start config scanner
  | step _ hstep ih => exact hstep.partitioned ih
  | scanStopped fresh reported _ ih => exact ih.after_scanStopped fresh reported

end Machine

end HybridGC
