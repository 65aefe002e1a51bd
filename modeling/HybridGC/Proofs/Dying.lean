import HybridGC.Proofs.Roots
import HybridGC.Proofs.World

/-!
# Dying payloads have no say

A pass puts aside the zero-count objects that no root word names before it looks for cycles, and the
search reads the payloads of what is left. So the words of the objects put aside, which die in this
pass, are neither counted nor followed: whatever they hold, the same objects die and the same are
rescued.
-/

namespace HybridGC

/-! ### Heaps with other payloads -/

namespace Heap

variable {δ : Type} {h h' : Heap δ} {X Y : UInt64 → Prop} {a b : UInt64}

/-- The two heaps differ in nothing but the payloads at some addresses. -/
structure DifferAt (X : UInt64 → Prop) (h h' : Heap δ) : Prop where
  block?_eq : ∀ a, ¬ X a → h'.block? a = h.block? a
  header?_eq : ∀ a, h'.header? a = h.header? a
  freed_eq : ∀ a, (h'.block? a).map (·.freed) = (h.block? a).map (·.freed)
  cursor_eq : h'.cursor = h.cursor

namespace DifferAt

lemma mono (h₁ : h.DifferAt X h') (hXY : ∀ a, X a → Y a) : h.DifferAt Y h' where
  block?_eq a ha := h₁.block?_eq a fun hX => ha (hXY a hX)
  header?_eq := h₁.header?_eq
  freed_eq := h₁.freed_eq
  cursor_eq := h₁.cursor_eq

lemma refs_eq (h₁ : h.DifferAt X h') (a : UInt64) : h'.refs a = h.refs a := by
  rw [refs, refs, h₁.header?_eq]

lemma state?_eq (h₁ : h.DifferAt X h') (a : UInt64) : h'.state? a = h.state? a := by
  rw [state?, state?, h₁.header?_eq]

lemma live_iff (h₁ : h.DifferAt X h') (a : UInt64) : h'.Live a ↔ h.Live a := by
  rw [Heap.live_iff, Heap.live_iff, h₁.freed_eq]

lemma words_eq (h₁ : h.DifferAt X h') (ha : ¬ X a) : h'.words a = h.words a := by
  rw [words, words, h₁.block?_eq a ha]

/-- A word is written into one payload. -/
lemma store? {offset : Nat} {w : UInt64} (hs : h.store? a offset w = some h') (ha : X a) :
    h.DifferAt X h' := by
  obtain ⟨block, payload, hb, hp, rfl⟩ := store?_eq_some hs
  constructor
  case block?_eq =>
    intro b hb'
    rw [block?_modifyBlock, if_neg]
    rintro rfl
    exact hb' ha
  case header?_eq => exact fun b => h.map_block?_modifyBlock a b fun _ => rfl
  case freed_eq => exact fun b => h.map_block?_modifyBlock a b fun _ => rfl
  case cursor_eq => rfl

end DifferAt

/-- The same block is laid out at the same address. -/
lemma DifferAt.allocate (h₁ : h.DifferAt X h') {size : Nat} {d : Option δ} {k : Heap δ}
    (ha : h.allocate size d = .ok (a, k)) :
    ∃ k', h'.allocate size d = .ok (a, k') ∧ k.DifferAt (fun b => X b ∧ b ≠ a) k' := by
  obtain ⟨k', ha', hcursor⟩ := allocate_of_cursor_eq h₁.cursor_eq ha
  have hblock := block?_allocate ha
  have hblock' := block?_allocate ha'
  refine ⟨k', ha', ?_⟩
  -- the new block is the same in both; at other addresses the heaps are the ones before
  constructor
  case block?_eq =>
    intro b hb
    rw [hblock, hblock']
    split
    case isTrue => rfl
    case isFalse hne => exact h₁.block?_eq b fun hX => hb ⟨hX, hne⟩
  case header?_eq =>
    intro b
    rw [header?, header?, hblock, hblock']
    split
    · rfl
    · exact h₁.header?_eq b
  case freed_eq =>
    intro b
    rw [hblock, hblock']
    split
    · rfl
    · exact h₁.freed_eq b
  case cursor_eq => exact hcursor

end Heap

/-! ### Collectors with other payloads -/

namespace Gc

variable {δ : Type} {g g' : Gc δ} {X Y : UInt64 → Prop} {fresh : Option UInt64}
variable {roots kept : List UInt64} {a : UInt64}

/-- The two collectors differ in nothing but the payloads at some addresses. -/
def DifferAt (X : UInt64 → Prop) (g g' : Gc δ) : Prop :=
  ∃ heap, g.collector.heap.DifferAt X heap ∧
    g' = { g with collector := { g.collector with heap } }

/-- The zero-count objects that none of the words a pass keeps names. -/
def Dying (g : Gc δ) (kept : List UInt64) (a : UInt64) : Prop :=
  a ∈ g.collector.zeroCount ∧ a ∉ kept

namespace DifferAt

lemma mono (h : g.DifferAt X g') (hXY : ∀ a, X a → Y a) : g.DifferAt Y g' := by
  obtain ⟨heap, hheap, rfl⟩ := h
  exact ⟨heap, hheap.mono hXY, rfl⟩

/-- The invariant reads no payload, so it does not see the difference. -/
lemma partitioned (h : g.DifferAt X g') (hg : g.Partitioned) : g'.Partitioned := by
  obtain ⟨heap, hheap, rfl⟩ := h
  exact ⟨hg.collector.congr rfl hheap.refs_eq hheap.state?_eq hheap.live_iff, hg.idle⟩

/-- The search does not read the payloads of what dies. -/
lemma cyclic_eq (h : g.DifferAt (g.Dying (fresh.toList ++ roots)) g') (hg : g.collector.Disjoint) :
    g'.cyclic fresh roots = g.cyclic fresh roots := by
  obtain ⟨heap, hheap, rfl⟩ := h
  have hnodup := g.collector.multiRef.nodup_addresses
  have hunreachable : (heap.unreachable
        (g.collector.zeroCount.addresses.filter (· ∈ fresh.toList ++ roots))
        g.collector.multiRef.addresses roots).toFinset =
      (g.collector.heap.unreachable
        (g.collector.zeroCount.addresses.filter (· ∈ fresh.toList ++ roots))
        g.collector.multiRef.addresses roots).toFinset := by
    refine Heap.toFinset_unreachable_congr hnodup hnodup (fun _ => Iff.rfl)
      (fun a _ => hheap.refs_eq a) (fun a ha => hheap.words_eq fun hdying => ?_)
      (fun _ => Iff.rfl) (fun _ _ => Iff.rfl)
    rcases ha with ha | ha
    · exact hdying.2 (by simpa using (List.mem_filter.1 ha).2)
    · exact absurd (hg (p := .zeroCount) (q := .multiRef) hdying.1 ha) (by decide)
  exact congrArg (fun found => if g.tracesCycles fresh.isSome then found else ∅) hunreachable

/-- What a pass dooms is the same, since it reads tables, roots and the payloads of what it keeps.
-/
lemma doomed_eq (h : g.DifferAt (g.Dying (fresh.toList ++ roots)) g')
    (hg : g.collector.Disjoint) : g'.doomed fresh roots = g.doomed fresh roots := by
  rw [doomed, doomed, h.cyclic_eq hg]
  obtain ⟨heap, -, rfl⟩ := h
  rfl

/-- What a pass rescues is decided by tables and roots, whatever the payloads. -/
lemma rescued_eq (h : g.DifferAt X g') : g'.rescued fresh roots = g.rescued fresh roots := by
  obtain ⟨heap, -, rfl⟩ := h
  rfl

end DifferAt

/-! ### Opening a pass -/

lemma isBusy_eq_false_iff :
    g.isBusy = false ↔ g.collector.collecting = false ∧ g.isShutdown = false := by
  simp [isBusy]

/-- A busy collector opens nothing, so there is nothing to compare. -/
lemma opened_of_isBusy (hb : g.isBusy = true) : g.opened fresh roots = g := by
  by_cases hs : g.isShutdown = true
  · exact opened_of_isShutdown hs
  · have hc : g.collector.collecting = true := by simpa [isBusy, hs] using hb
    rw [Bool.not_eq_true] at hs
    rw [opened, after, openPass_of_collecting hc hs]

namespace DifferAt

lemma isBusy_eq (h : g.DifferAt X g') : g'.isBusy = g.isBusy := by
  obtain ⟨heap, -, rfl⟩ := h
  rfl

/-- A pass that opens on both condemns and rescues the same objects. -/
lemma opened (h : g.DifferAt (g.Dying (fresh.toList ++ roots)) g') (hg : g.Partitioned) :
    (∀ a, a ∈ (g'.opened fresh roots).collector.working ↔
      a ∈ (g.opened fresh roots).collector.working) ∧
    (g'.opened fresh roots).collector.lastRescued =
      (g.opened fresh roots).collector.lastRescued := by
  cases hb : g.isBusy with
  | true =>
    rw [opened_of_isBusy hb, opened_of_isBusy (h.isBusy_eq.trans hb)]
    obtain ⟨heap, -, rfl⟩ := h
    exact ⟨fun _ => Iff.rfl, rfl⟩
  | false =>
    have hg' := h.partitioned hg
    obtain ⟨hc, hs⟩ := isBusy_eq_false_iff.1 hb
    obtain ⟨hc', hs'⟩ := isBusy_eq_false_iff.1 (h.isBusy_eq.trans hb)
    refine ⟨fun a => ?_, ?_⟩
    · rw [mem_working_opened hg' hc' hs', mem_working_opened hg hc hs,
        h.doomed_eq hg.collector.labelled.disjoint]
    · rw [lastRescued_opened hg' hc' hs', lastRescued_opened hg hc hs, h.rescued_eq]

end DifferAt

/-- A multi-ref object dies if the pass looks for cycles and the object is in a set that owns
itself. The words of zero-count objects hold a set back only if the pass keeps these. -/
lemma mem_working_opened_of_multiRef (hg : g.Partitioned) (hb : g.isBusy = false)
    (ha : a ∈ g.collector.multiRef) :
    a ∈ (g.opened fresh roots).collector.working ↔
      g.tracesCycles fresh.isSome = true ∧ ∃ X, a ∈ X ∧ g.collector.heap.SelfOwned
        (g.collector.zeroCount.addresses.filter (· ∈ fresh.toList ++ roots))
        g.collector.multiRef.addresses roots X := by
  obtain ⟨hc, hs⟩ := isBusy_eq_false_iff.1 hb
  have hz : a ∉ g.collector.zeroCount :=
    hg.collector.disjoint.not_mem_table (p := .multiRef) (q := .zeroCount) ha (by decide)
  have hnodup := g.collector.multiRef.nodup_addresses
  rw [mem_working_opened hg hc hs, doomed, Finset.mem_union, Finset.mem_sdiff, Table.mem_toFinset,
    or_iff_right fun h => hz h.1, cyclic]
  split
  case isTrue htraces =>
    simp only [htraces, true_and]
    constructor
    · exact fun hmem => ⟨_, hmem, Heap.selfOwned_unreachable hnodup⟩
    · rintro ⟨X, hmem, hX⟩
      exact Heap.subset_unreachable hnodup hX hmem
  case isFalse htraces => simp [htraces]

/-! ### Allocating before a pass -/

/-- Registering an object does not look at the heap. -/
lemma run_track_withHeap (c : Collector δ) (heap : Heap δ) (a : UInt64) :
    (Collector.track a).run { c with heap } =
      match (Collector.track a).run c with
      | .ok x c' => .ok x { c' with heap }
      | .error f c' => .error f { c' with heap } := by
  have hput : Collector.put .zeroCount (.ofAddress a) { c with heap } =
      ((c.put .zeroCount (.ofAddress a)).1,
        { (c.put .zeroCount (.ofAddress a)).2 with heap }) := by
    have htable : ({ c with heap } : Collector δ).table .zeroCount = c.table .zeroCount := rfl
    rw [Collector.put, Collector.put, htable]
    cases (c.table .zeroCount).growth? <;> rfl
  by_cases hdisplaced : (c.put .zeroCount (.ofAddress a)).1.isSome = true
  · simp [Collector.track, hput, hdisplaced]
  · simp [Collector.track, hput, hdisplaced]

variable {alloc : Allocator δ} {size : Nat} {d : Option δ}

/-- An allocation is a grant and a registration. -/
lemma create_of_track {heap : Heap δ} {c : Collector δ} (hs : g.isShutdown = false)
    (ha : alloc g.collector.heap size d = .ok (a, heap))
    (ht : (Collector.track a).run { g.collector with heap } = .ok () c) :
    (create alloc size d).run g = .ok (.ok a) { g with collector := c } := by
  simp [create, hs, ha, ht]

/-- And one that has succeeded was both. -/
lemma track_of_create (hr : (create alloc size d).run g = .ok (.ok a) g') :
    g.isShutdown = false ∧ ∃ heap c, alloc g.collector.heap size d = .ok (a, heap) ∧
      (Collector.track a).run { g.collector with heap } = .ok () c ∧
      g' = { g with collector := c } := by
  by_cases hs : g.isShutdown = true
  · simp [create_of_isShutdown hs] at hr
  rw [Bool.not_eq_true] at hs
  cases ha : alloc g.collector.heap size d with
  | error e => simp [create_of_error hs ha] at hr
  | ok r =>
    obtain ⟨b, heap⟩ := r
    cases ht : (Collector.track b).run { g.collector with heap } with
    | error f c => simp [create, hs, ha, ht] at hr
    | ok _ c =>
      cases (create_of_track hs ha ht).symm.trans hr
      exact ⟨hs, heap, c, rfl, ht, rfl⟩

/-- The same object is allocated on both, and its payload is the same in both. -/
lemma DifferAt.create {g₁ : Gc δ} (h : g.DifferAt X g')
    (hr : (create Heap.allocate size d).run g = .ok (.ok a) g₁) :
    ∃ g₁', (Gc.create Heap.allocate size d).run g' = .ok (.ok a) g₁' ∧
      g₁.DifferAt (fun b => X b ∧ b ≠ a) g₁' := by
  obtain ⟨hs, heap, c, ha, ht, rfl⟩ := track_of_create hr
  obtain ⟨k, hk, rfl⟩ := h
  obtain ⟨heap', ha', hheap⟩ := hk.allocate ha
  have hrun := run_track_withHeap { g.collector with heap } heap a
  have hrun' := run_track_withHeap { g.collector with heap } heap' a
  rw [ht] at hrun hrun'
  have hkept : c.heap = heap := congrArg Collector.heap (EStateM.Result.ok.inj hrun).2
  refine ⟨_, create_of_track hs ha' hrun', heap', ?_, rfl⟩
  rw [← hkept] at hheap
  exact hheap

/-- What dies in an automatic pass was there before the allocation. -/
lemma Dying.created {g₁ : Gc δ} (hg : g.Partitioned) (hb : g.collector.heap.Bounded)
    (hr : (create Heap.allocate size d).run g = .ok (.ok a) g₁) {b : UInt64}
    (hdying : g.Dying roots b) (hne : b ≠ a) :
    g₁.Dying ((some a).toList ++ roots) b := by
  obtain ⟨-, c, rfl, hc⟩ := created_of_create hg.collector hb.soundAt_allocate hr
  refine ⟨?_, by simpa [hne] using hdying.2⟩
  refine (hc.mem_table .zeroCount b).2 ?_
  rw [if_neg hne]
  exact hdying.1

end Gc

namespace Machine

variable {δ : Type} {m : Machine δ}

/-- Whatever is in the payloads of the zero-count objects that no root word of a pass names, the
same objects are in the working table when the first destructor runs, and as many have been rescued.
In an automatic pass the fresh object is kept as well, and the allocation before it gives the same
object. What a multi-ref object dies of is that it is in a set that owns itself, which only kept
zero-count objects can hold back. -/
theorem dying_payloads_have_no_say (hm : m.Reachable) (roots : List UInt64) :
    (∀ fresh g', m.gc.DifferAt (m.gc.Dying (fresh.toList ++ roots)) g' →
      (∀ a, a ∈ (g'.opened fresh roots).collector.working ↔
        a ∈ (m.gc.opened fresh roots).collector.working) ∧
      (g'.opened fresh roots).collector.lastRescued =
        (m.gc.opened fresh roots).collector.lastRescued) ∧
    (∀ size d a g₁ g', m.gc.collector.heap.Bounded → m.gc.DifferAt (m.gc.Dying roots) g' →
      (Gc.create Heap.allocate size d).run m.gc = .ok (.ok a) g₁ →
      ∃ g₁', (Gc.create Heap.allocate size d).run g' = .ok (.ok a) g₁' ∧
        g₁'.isDue = g₁.isDue ∧
        (∀ b, b ∈ (g₁'.opened (some a) roots).collector.working ↔
          b ∈ (g₁.opened (some a) roots).collector.working) ∧
        (g₁'.opened (some a) roots).collector.lastRescued =
          (g₁.opened (some a) roots).collector.lastRescued) ∧
    ∀ fresh a, m.gc.isBusy = false → a ∈ m.gc.collector.multiRef →
      (a ∈ (m.gc.opened fresh roots).collector.working ↔
        m.gc.tracesCycles fresh.isSome = true ∧ ∃ X, a ∈ X ∧ m.gc.collector.heap.SelfOwned
          (m.gc.collector.zeroCount.addresses.filter (· ∈ fresh.toList ++ roots))
          m.gc.collector.multiRef.addresses roots X) := by
  have hg := hm.partitioned
  refine ⟨fun fresh g' h => h.opened hg, fun size d a g₁ g' hb h hr => ?_,
    fun fresh a hidle ha => ?_⟩
  · obtain ⟨g₁', hr', h₁⟩ := h.create hr
    -- what is dying before the allocation is dying after it: a candidate that is neither a root nor
    -- fresh
    have hdying := h₁.mono fun b hb' => hb'.1.created hg hb hr hb'.2
    have hg₁ : g₁.Partitioned := by
      have := hg.after_create hb.soundAt_allocate size d
      rwa [after, hr] at this
    refine ⟨g₁', hr', ?_, hdying.opened hg₁⟩
    obtain ⟨heap, -, rfl⟩ := h₁
    rfl
  · exact Gc.mem_working_opened_of_multiRef hg hidle ha

/-- An object that only its own payload refers to, and one without references. -/
def loopAndStranger : List Call :=
  [({}, .alloc 8 none 1), ({}, .swapref (some (.cell (.ref (.object 0 0)) 0)) (.ref (.object 0 0))),
    ({}, .alloc 8 none 1)]

/-- The stranger holds a copy of the other's address, and both die nevertheless, whether the pass is
asked for or comes with an allocation. -/
theorem dying_payloads_have_no_say_loopAndStranger :
    ∃ g g' g₁' : Gc Finalizer, Reachable ⟨g, []⟩ ∧ g.DifferAt (g.Dying []) g' ∧
      g.collector.heap.words 0x10000070 = [0] ∧
      g'.collector.heap.load? 0x10000070 0 = some 0x10000030 ∧
      0x10000030 ∈ (g'.opened none []).collector.working ∧
      0x10000070 ∈ (g'.opened none []).collector.working ∧
      (Gc.create Heap.allocate 8 none).run g' = .ok (.ok 0x100000b0) g₁' ∧
      g₁'.isDue = true ∧ 0x10000030 ∈ (g₁'.opened (some 0x100000b0) []).collector.working ∧
      ∃ X, 0x10000030 ∈ X ∧ g.collector.heap.SelfOwned [] [0x10000030] [] X := by
  obtain ⟨es, h, hb, -⟩ := World.hasHistory_run loopAndStranger
    { collectThreshold := 2, cycleThreshold := 1 } .noRoots
  obtain ⟨hexplicit, hautomatic, hself⟩ := dying_payloads_have_no_say h.reachable []
  -- the session gets a name, and is evaluated only for the facts that are read off it
  generalize hg : (World.run loopAndStranger
    (World.start { collectThreshold := 2, cycleThreshold := 1 } .noRoots)).2.gc = g at *
  have hmulti : g.collector.multiRef.addresses = [0x10000030] := by subst hg; decide +kernel
  have hmem : 0x10000030 ∈ g.collector.multiRef := by simp [Table.mem_iff_mem_addresses, hmulti]
  have hdying : g.Dying [] 0x10000070 := by subst hg; exact ⟨by decide +kernel, by simp⟩
  have hwords : g.collector.heap.words 0x10000070 = [0] := by subst hg; decide +kernel
  have hidle : g.isBusy = false := by subst hg; decide +kernel
  have hboth : 0x10000030 ∈ (g.opened none []).collector.working ∧
      0x10000070 ∈ (g.opened none []).collector.working := by subst hg; decide +kernel
  obtain ⟨g₁, hcreate, hdue, hloop⟩ : ∃ g₁,
      (Gc.create Heap.allocate 8 none).run g = .ok (.ok 0x100000b0) g₁ ∧ g₁.isDue = true ∧
        0x10000030 ∈ (g₁.opened (some 0x100000b0) []).collector.working := by
    subst hg
    exact ⟨_, by rfl, by decide +kernel, by decide +kernel⟩
  obtain ⟨heap, hstored, hloaded⟩ : ∃ heap,
      g.collector.heap.store? 0x10000070 0 0x10000030 = some heap ∧
        heap.load? 0x10000070 0 = some 0x10000030 := by
    subst hg
    exact ⟨_, by rfl, by decide +kernel⟩
  have hdiffer : g.DifferAt (g.Dying []) { g with collector := { g.collector with heap } } :=
    ⟨heap, .store? hstored hdying, rfl⟩
  have hopened := (hexplicit none _ hdiffer).1
  obtain ⟨g₁', hcreate', hdue', hopened', -⟩ := hautomatic _ _ _ _ _ hb hdiffer hcreate
  have howned := ((hself none 0x10000030 hidle hmem).1 hboth.1).2
  refine ⟨g, _, g₁', h.reachable, hdiffer, hwords, hloaded, (hopened _).2 hboth.1,
    (hopened _).2 hboth.2, hcreate', hdue'.trans hdue, (hopened' _).2 hloop, ?_⟩
  simpa [hmulti] using howned

end Machine

end HybridGC
