import HybridGC.Proofs.Gc
import HybridGC.Proofs.Lockstep

/-!
# Collectors that agree

Two collectors agree if they hold the same blocks and have the same objects in the same partitions,
whatever their tables look like: how many buckets there are, what is in which, and in which order.
Every operation goes in lockstep on collectors that agree. Where an operation goes through a table,
it meets the same objects in another order, and what it does to them does not depend on the order.
-/

namespace HybridGC

/-! ### Heaps with the same blocks -/

namespace Heap

variable {δ : Type} {h h' : Heap δ} {a b : UInt64}

/-- The two heaps hold the same blocks. -/
def Same (h h' : Heap δ) : Prop :=
  ∀ a, h'.block? a = h.block? a

/-- Changing several blocks in a way that doing it twice is doing it once. -/
lemma block?_foldl_modifyBlock {f : Block δ → Block δ} (hf : ∀ x, f (f x) = f x)
    (as : List UInt64) (h : Heap δ) (b : UInt64) :
    (as.foldl (fun h a => h.modifyBlock a f) h).block? b =
      if b ∈ as then (h.block? b).map f else h.block? b := by
  induction as generalizing h with
  | nil => simp
  | cons a as ih =>
    rw [List.foldl_cons, ih, block?_modifyBlock]
    by_cases ha : b = a
    · simp [ha, Function.comp_def, hf]
    · simp [ha]

namespace Same

lemma header?_eq (h₁ : h.Same h') (a : UInt64) : h'.header? a = h.header? a := by
  rw [header?, header?, h₁]

lemma refs_eq (h₁ : h.Same h') (a : UInt64) : h'.refs a = h.refs a := by
  rw [refs, refs, h₁.header?_eq]

lemma state?_eq (h₁ : h.Same h') (a : UInt64) : h'.state? a = h.state? a := by
  rw [state?, state?, h₁.header?_eq]

lemma destructor?_eq (h₁ : h.Same h') (a : UInt64) : h'.destructor? a = h.destructor? a := by
  rw [destructor?, destructor?, h₁.header?_eq]

lemma words_eq (h₁ : h.Same h') (a : UInt64) : h'.words a = h.words a := by
  rw [words, words, h₁]

lemma load?_eq (h₁ : h.Same h') (a : UInt64) (offset : Nat) :
    h'.load? a offset = h.load? a offset := by
  rw [load?, load?, h₁]

/-- Blocks are freed in both heaps or in none. -/
lemma live_iff (h₁ : h.Same h') (a : UInt64) : h'.Live a ↔ h.Live a := by
  rw [Live, Live, h₁]

lemma modifyBlock (h₁ : h.Same h') (a : UInt64) (f : Block δ → Block δ) :
    (h.modifyBlock a f).Same (h'.modifyBlock a f) := by
  intro b
  rw [block?_modifyBlock, block?_modifyBlock, h₁]

lemma setRefs (h₁ : h.Same h') (a n : UInt64) : (h.setRefs a n).Same (h'.setRefs a n) :=
  h₁.modifyBlock a _

lemma setState (h₁ : h.Same h') (a : UInt64) (p : Partition) :
    (h.setState a p).Same (h'.setState a p) :=
  h₁.modifyBlock a _

/-- A store succeeds in both heaps or in none. -/
lemma store? (h₁ : h.Same h') (a : UInt64) (offset : Nat) (w : UInt64) :
    h.store? a offset w = none ∧ h'.store? a offset w = none ∨
      ∃ k k', h.store? a offset w = some k ∧ h'.store? a offset w = some k' ∧ k.Same k' := by
  cases hb : h.block? a with
  | none => exact .inl ⟨by simp [Heap.store?, hb], by simp [Heap.store?, h₁ a, hb]⟩
  | some x =>
    cases hp : x.payload.store? offset w with
    | none => exact .inl ⟨by simp [Heap.store?, hb, hp], by simp [Heap.store?, h₁ a, hb, hp]⟩
    | some payload =>
      refine .inr ⟨h.modifyBlock a fun x => { x with payload }, _, ?_, ?_, h₁.modifyBlock a _⟩
      · simp [Heap.store?, hb, hp]
      · simp [Heap.store?, h₁ a, hb, hp]

/-- Whatever the order in which blocks are changed. -/
lemma foldl_modifyBlock {f : Block δ → Block δ} {as as' : List UInt64} (h₁ : h.Same h')
    (hf : ∀ x, f (f x) = f x) (hmem : ∀ a, a ∈ as' ↔ a ∈ as) :
    (as.foldl (fun h a => h.modifyBlock a f) h).Same
      (as'.foldl (fun h a => h.modifyBlock a f) h') := by
  intro b
  rw [block?_foldl_modifyBlock hf, block?_foldl_modifyBlock hf, h₁]
  simp only [hmem]

lemma foldl_setState {as as' : List UInt64} (h₁ : h.Same h') (p : Partition)
    (hmem : ∀ a, a ∈ as' ↔ a ∈ as) :
    (as.foldl (fun h a => h.setState a p) h).Same (as'.foldl (fun h a => h.setState a p) h') :=
  h₁.foldl_modifyBlock (fun _ => rfl) hmem

lemma foldl_free {as as' : List UInt64} (h₁ : h.Same h') (hmem : ∀ a, a ∈ as' ↔ a ∈ as) :
    (as.foldl (fun h a => h.free a) h).Same (as'.foldl (fun h a => h.free a) h') :=
  h₁.foldl_modifyBlock (fun _ => rfl) hmem

end Same

end Heap

/-! ### Collectors -/

namespace Collector

variable {δ : Type} {c c' c₁ c₁' : Collector δ} {p source : Partition} {a : UInt64}

/-- The two collectors hold the same blocks, and have the same objects in the same partitions. -/
structure Agree (c c' : Collector δ) : Prop where
  mem_table : ∀ p a, a ∈ c'.table p ↔ a ∈ c.table p
  heap : c.heap.Same c'.heap
  collecting_eq : c'.collecting = c.collecting
  cycleBaseline_eq : c'.cycleBaseline = c.cycleBaseline
  lastRescued_eq : c'.lastRescued = c.lastRescued
  sameTotals : c.SameTotals c'

namespace Agree

/-! #### What collectors that agree have in common -/

/-- Tables of the same addresses have the same size, however many buckets they have. -/
lemma size_eq (h : c.Agree c') (p : Partition) : (c'.table p).size = (c.table p).size := by
  rw [← Table.card_toFinset, ← Table.card_toFinset]
  congr 1
  ext a
  rw [Table.mem_toFinset, Table.mem_toFinset, h.mem_table]

/-- Which objects are tracked does not depend on the tables' layout. -/
lemma isTracked_eq (h : c.Agree c') (a : UInt64) : c'.isTracked a = c.isTracked a := by
  rw [Bool.eq_iff_iff, Partitions.isTracked_iff, Partitions.isTracked_iff]
  simp only [h.mem_table]

lemma isMultiRef_eq (h : c.Agree c') : c'.isMultiRef = c.isMultiRef := by
  funext a
  rw [Bool.eq_iff_iff, Partitions.isMultiRef, Partitions.isMultiRef, Table.contains_iff,
    Table.contains_iff]
  exact h.mem_table .multiRef a

lemma multiRefGrowth_eq (h : c.Agree c') : c'.multiRefGrowth = c.multiRefGrowth := by
  have hm := h.size_eq .multiRef
  simp only [Partitions.table] at hm
  rw [multiRefGrowth, multiRefGrowth, hm, h.cycleBaseline_eq]

/-- What a client can ask about the passes so far does not depend on the layout either. -/
lemma stats_eq (h : c.Agree c') : c'.stats = c.stats := by
  have hz := h.size_eq .zeroCount
  have hm := h.size_eq .multiRef
  simp only [Partitions.table] at hz hm
  obtain ⟨hcollections, hcollected, hlast⟩ := h.sameTotals
  have hcounters : c'.toPassCounters = c.toPassCounters := by
    show PassCounters.mk c'.collections c'.collected c'.lastRescued c'.lastCollected =
      PassCounters.mk c.collections c.collected c.lastRescued c.lastCollected
    rw [hcollections, hcollected, hlast, h.lastRescued_eq]
  simp only [stats, hz, hm, hcounters]

lemma labelled (h : c.Agree c') (hc : c.Labelled) : c'.Labelled := by
  intro p a ha
  rw [h.heap.state?_eq]
  exact hc ((h.mem_table p a).1 ha)

lemma partitioned (h : c.Agree c') (hc : c.Partitioned) : c'.Partitioned where
  labelled := h.labelled hc.labelled
  live p a ha := (h.heap.live_iff a).2 (hc.live ((h.mem_table p a).1 ha))
  ne_zero p a ha := hc.ne_zero ((h.mem_table p a).1 ha)
  suits p a ha := by
    rw [h.heap.refs_eq]
    exact hc.suits ((h.mem_table p a).1 ha)

/-! #### Elementary changes -/

/-- What is left to show where an operation leaves the books alone. -/
lemma of_sameBooks (h : c.Agree c') (hb : c.SameBooks c₁) (hb' : c'.SameBooks c₁')
    (htable : ∀ p a, a ∈ c₁'.table p ↔ a ∈ c₁.table p) (hheap : c₁.heap.Same c₁'.heap)
    (hresc : c₁'.lastRescued = c₁.lastRescued) : c₁.Agree c₁' where
  mem_table := htable
  heap := hheap
  collecting_eq := by rw [hb'.collecting_eq, hb.collecting_eq, h.collecting_eq]
  cycleBaseline_eq := by rw [hb'.cycleBaseline_eq, hb.cycleBaseline_eq, h.cycleBaseline_eq]
  lastRescued_eq := hresc
  sameTotals := by
    constructor
    · rw [hb'.collections_eq, hb.collections_eq, h.sameTotals.collections_eq]
    · rw [hb'.collected_eq, hb.collected_eq, h.sameTotals.collected_eq]
    · rw [hb'.lastCollected_eq, hb.lastCollected_eq, h.sameTotals.lastCollected_eq]

/-- Journals are left out of the agreement, since growing tables write to them. -/
lemma note (h : c.Agree c') (msg msg' : Message) : (c.note msg).Agree (c'.note msg') :=
  { h with sameTotals := ⟨h.sameTotals.1, h.sameTotals.2, h.sameTotals.3⟩ }

lemma withHeap {k k' : Heap δ} (h : c.Agree c') (hk : k.Same k') :
    Agree { c with heap := k } { c' with heap := k' } :=
  { h with heap := hk, sameTotals := ⟨h.sameTotals.1, h.sameTotals.2, h.sameTotals.3⟩ }

lemma setState (h : c.Agree c') (a : UInt64) (p : Partition) :
    (c.setState a p).Agree (c'.setState a p) :=
  h.withHeap (h.heap.setState a p)

lemma put (h : c.Agree c') (p : Partition) (e : Entry) :
    (c.put p e).1 = (c'.put p e).1 ∧ (c.put p e).2.Agree (c'.put p e).2 := by
  refine ⟨by rw [put_fst, put_fst]; simp only [h.mem_table], ?_⟩
  refine h.of_sameBooks (sameBooks_put c p e) (sameBooks_put c' p e) (fun q b => ?_) ?_ ?_
  · rw [mem_table_put, mem_table_put, h.mem_table]
  · rw [heap_put, heap_put]
    exact h.heap
  · rw [lastRescued_put, lastRescued_put, h.lastRescued_eq]

lemma take (h : c.Agree c') (p : Partition) (a : UInt64) :
    (c.take p a).1 = (c'.take p a).1 ∧ (c.take p a).2.Agree (c'.take p a).2 := by
  refine ⟨by rw [take_fst, take_fst]; simp only [h.mem_table], ?_⟩
  refine h.of_sameBooks (sameBooks_take c p a) (sameBooks_take c' p a) (fun q b => ?_) ?_ ?_
  · rw [mem_table_take, mem_table_take, h.mem_table]
  · rw [heap_take, heap_take]
    exact h.heap
  · rw [lastRescued_take, lastRescued_take, h.lastRescued_eq]

/-! #### Rescuing -/

/-- A word rescues in both collectors or in none. -/
lemma rescue (h : c.Agree c') (w : UInt64) :
    (c.rescue w).1 = (c'.rescue w).1 ∧ (c.rescue w).2.Agree (c'.rescue w).2 := by
  obtain ⟨hfst, htake⟩ := h.take .working w
  rw [Collector.rescue, Collector.rescue]
  generalize c.take .working w = r at hfst htake ⊢
  generalize c'.take .working w = r' at hfst htake ⊢
  obtain ⟨x, c₁⟩ := r
  obtain ⟨x', c₁'⟩ := r'
  obtain rfl : x = x' := hfst
  cases x with
  | none => exact ⟨rfl, h⟩
  | some e =>
    obtain ⟨-, hput⟩ := (htake.setState w .zeroCount).put .zeroCount e
    refine ⟨rfl, { hput with lastRescued_eq := ?_, sameTotals := ?_ }⟩
    · exact congrArg (· + 1) hput.lastRescued_eq
    · exact ⟨hput.sameTotals.1, hput.sameTotals.2, hput.sameTotals.3⟩

/-- The same words are left over after all have been tried, in the same order. -/
lemma rescueAll (h : c.Agree c') (ws : List UInt64) :
    (c.rescueAll ws).1 = (c'.rescueAll ws).1 ∧ (c.rescueAll ws).2.Agree (c'.rescueAll ws).2 := by
  induction ws generalizing c c' with
  | nil => exact ⟨rfl, h⟩
  | cons w ws ih =>
    obtain ⟨hfst, hresc⟩ := h.rescue w
    obtain ⟨hrest, hall⟩ := ih hresc
    refine ⟨?_, hall⟩
    simp only [Collector.rescueAll, hfst, hrest]

end Agree

/-! ### Lockstep -/

/-- Both transfers meet the same check or none: what is in a table does not depend on its buckets.
-/
lemma lockstep_transfer (source target : Partition) (a : UInt64) :
    Lockstep Agree Eq (transfer source target a : Faulting (Collector δ) Unit)
      (transfer source target a) := by
  unfold transfer
  refine .bind (.modifyGet fun c c' h => h.take source a) ?_
  rintro x _ rfl
  cases x with
  | none => exact .throw _
  | some e =>
    refine .bind (.update fun c c' h => h.setState a target) fun _ _ _ => ?_
    refine .bind (.modifyGet fun c c' h => h.put target e) ?_
    rintro x _ rfl
    exact .ite Iff.rfl (.throw _) (.pure rfl)

lemma lockstep_track (a : UInt64) :
    Lockstep Agree Eq (track a : Faulting (Collector δ) Unit) (track a) := by
  unfold track
  refine .bind (.modifyGet fun c c' h => h.put .zeroCount (.ofAddress a)) ?_
  rintro x _ rfl
  exact .ite Iff.rfl (.throw _) (.pure rfl)

/-- Counts are in the blocks, so counting up is one and the same operation. -/
lemma lockstep_increment (a : UInt64) :
    Lockstep Agree Eq (increment a : Faulting (Collector δ) UInt64) (increment a) := by
  intro c c' h
  have hrefs := h.heap.refs_eq a
  by_cases hn : (c.heap.refs a).toNat + 1 = UInt64.size
  · rw [increment_of_eq hn, increment_of_eq (hrefs ▸ hn)]
    exact .error _ h
  · rw [increment_of_ne hn, increment_of_ne (hrefs ▸ hn), hrefs]
    exact .ok rfl (h.withHeap (h.heap.setRefs a _))

lemma lockstep_decrement (a : UInt64) :
    Lockstep Agree Eq (decrement a : Faulting (Collector δ) UInt64) (decrement a) := by
  intro c c' h
  have hrefs := h.heap.refs_eq a
  by_cases hn : c.heap.refs a = 0
  · rw [decrement_of_eq hn, decrement_of_eq (hrefs ▸ hn)]
    exact .error _ h
  · rw [decrement_of_ne hn, decrement_of_ne (hrefs ▸ hn), hrefs]
    exact .ok rfl (h.withHeap (h.heap.setRefs a _))

/-! ### Going through tables -/

namespace Agree

/-- Beginning a pass names the candidates in some order. -/
lemma begun (h : c.Agree c') (hb : c.Begun c₁) (hb' : c'.Begun c₁') : c₁.Agree c₁' where
  mem_table p a := by
    cases p with
    | zeroCount => exact iff_of_false (hb'.not_mem_zeroCount a) (hb.not_mem_zeroCount a)
    | multiRef =>
      show a ∈ c₁'.multiRef ↔ a ∈ c₁.multiRef
      rw [hb.multiRef_eq, hb'.multiRef_eq]
      exact h.mem_table .multiRef a
    | working =>
      show a ∈ c₁'.working ↔ a ∈ c₁.working
      rw [hb.working_eq, hb'.working_eq]
      exact h.mem_table .zeroCount a
  -- candidates are relabelled in table order, which differs, but relabelling does not depend on it
  heap := by
    rw [hb.heap_eq, hb'.heap_eq]
    exact h.heap.foldl_setState .working (h.mem_table .zeroCount)
  collecting_eq := by rw [hb.sameBooks.collecting_eq, hb'.sameBooks.collecting_eq]
  cycleBaseline_eq := by
    rw [hb.sameBooks.cycleBaseline_eq, hb'.sameBooks.cycleBaseline_eq]
    exact h.cycleBaseline_eq
  lastRescued_eq := by rw [hb.lastRescued_eq, hb'.lastRescued_eq]
  sameTotals := by
    obtain ⟨h₁, h₂, h₃⟩ := hb.sameBooks.sameTotals
    obtain ⟨h₁', h₂', h₃'⟩ := hb'.sameBooks.sameTotals
    constructor
    · rw [h₁, h₁']
      exact h.sameTotals.collections_eq
    · rw [h₂, h₂']
      exact h.sameTotals.collected_eq
    · rw [h₃, h₃']
      exact h.sameTotals.lastCollected_eq

/-- So does condemning. -/
lemma condemned {as as' : List UInt64} (h : c.Agree c') (hmem : ∀ a, a ∈ as' ↔ a ∈ as)
    (hc : c.Condemned c₁ source as) (hc' : c'.Condemned c₁' source as') : c₁.Agree c₁' := by
  refine h.of_sameBooks hc.sameBooks hc'.sameBooks (fun p a => ?_) ?_ ?_
  · by_cases hw : p = .working
    · subst hw
      show a ∈ c₁'.working ↔ a ∈ c₁.working
      rw [hc.mem_working, hc'.mem_working, hmem]
      exact or_congr_left (h.mem_table .working a)
    by_cases hs : p = source
    · rw [hs, hc.mem_source, hc'.mem_source, hmem, h.mem_table]
    · rw [hc.table_of_ne p hs hw, hc'.table_of_ne p hs hw, h.mem_table]
  · rw [hc.heap_eq, hc'.heap_eq]
    exact h.heap.foldl_setState .working hmem
  · rw [hc.lastRescued_eq, hc'.lastRescued_eq, h.lastRescued_eq]

/-- So does condemning everything. -/
lemma allCondemned (h : c.Agree c') (hc : c.AllCondemned c₁) (hc' : c'.AllCondemned c₁') :
    c₁.Agree c₁' := by
  refine h.of_sameBooks hc.sameBooks hc'.sameBooks (fun p a => ?_) ?_ ?_
  · cases p with
    | zeroCount => exact iff_of_false (hc'.not_mem_zeroCount a) (hc.not_mem_zeroCount a)
    | multiRef => exact iff_of_false (hc'.not_mem_multiRef a) (hc.not_mem_multiRef a)
    | working =>
      show a ∈ c₁'.working ↔ a ∈ c₁.working
      rw [hc.mem_working, hc'.mem_working, h.isTracked_eq]
  · rw [hc.heap_eq, hc'.heap_eq]
    refine h.heap.foldl_setState .working fun a => ?_
    rw [List.mem_append, List.mem_append]
    exact or_congr (h.mem_table .zeroCount a) (h.mem_table .multiRef a)
  · rw [hc.lastRescued_eq, hc'.lastRescued_eq, h.lastRescued_eq]

/-- The same objects are cyclic, found in some order. -/
lemma mem_cyclic (h : c.Agree c') (roots : List UInt64) (a : UInt64) :
    a ∈ c'.cyclic roots ↔ a ∈ c.cyclic roots := by
  have hsame : (c'.cyclic roots).toFinset = (c.cyclic roots).toFinset :=
    Heap.toFinset_unreachable_congr c.multiRef.nodup_addresses c'.multiRef.nodup_addresses
      (h.mem_table .multiRef) (fun a _ => h.heap.refs_eq a) (fun a _ => h.heap.words_eq a)
      (h.mem_table .zeroCount) fun _ _ => Iff.rfl
  rw [← List.mem_toFinset, hsame, List.mem_toFinset]

/-- The same destructors are owed. Their order may differ, which is what a layout can be seen by. -/
lemma mem_pendingDestructors_iff (h : c.Agree c') (x : UInt64 × δ) :
    x ∈ c'.pendingDestructors ↔ x ∈ c.pendingDestructors := by
  obtain ⟨a, d⟩ := x
  rw [mem_pendingDestructors, mem_pendingDestructors, h.heap.destructor?_eq]
  exact and_congr_left fun _ => h.mem_table .working a

lemma sweep (h : c.Agree c') : c.sweep.1 = c'.sweep.1 ∧ c.sweep.2.Agree c'.sweep.2 := by
  refine ⟨by rw [sweep_fst, sweep_fst]; exact (h.size_eq .working).symm, ?_⟩
  have hs := c.swept_sweep
  have hs' := c'.swept_sweep
  refine h.of_sameBooks c.sameBooks_sweep c'.sameBooks_sweep (fun p a => ?_) ?_ ?_
  · rw [hs.mem_table, hs'.mem_table, h.mem_table]
  · obtain ⟨j, hj⟩ := foldl_free c.working.addresses c
    obtain ⟨j', hj'⟩ := foldl_free c'.working.addresses c'
    rw [Collector.sweep, Collector.sweep, hj, hj']
    exact h.heap.foldl_free (h.mem_table .working)
  · rw [hs.lastRescued_eq, hs'.lastRescued_eq, h.lastRescued_eq]

lemma finishPass (h : c.Agree c') :
    c.finishPass.1 = c'.finishPass.1 ∧ c.finishPass.2.Agree c'.finishPass.2 := by
  obtain ⟨hfst, hsweep⟩ := h.sweep
  refine ⟨hfst, { hsweep with collecting_eq := rfl, sameTotals := ⟨?_, ?_, hfst.symm⟩ }⟩
  · exact congrArg (· + 1) hsweep.sameTotals.collections_eq
  · show c'.sweep.2.collected + c'.sweep.1 = c.sweep.2.collected + c.sweep.1
    rw [hsweep.sameTotals.collected_eq, hfst]

end Agree

/-- Rescues keep the agreement; that the first collector is labelled is kept with it, for the search
that follows. -/
lemma lockstep_rescueAll (ws : List UInt64) :
    Lockstep (fun c c' : Collector δ => c.Agree c' ∧ c.Labelled) Eq
      (modifyGet (rescueAll ws) : Faulting (Collector δ) (List UInt64))
      (modifyGet (rescueAll ws)) := by
  refine .modifyGet fun c c' h => ?_
  obtain ⟨hunused, hagree⟩ := h.1.rescueAll ws
  exact ⟨hunused, hagree, (rescued_rescueAll ws c).labelled h.2⟩

/-- The same objects are condemned, and each collector lists them in its own order. -/
lemma lockstep_condemnCycles (roots : List UInt64) :
    Lockstep (fun c c' : Collector δ => c.Agree c' ∧ c.Labelled)
      (fun as as' => ∀ a, a ∈ as' ↔ a ∈ as)
      (condemnCycles roots : Faulting (Collector δ) (List UInt64)) (condemnCycles roots) := by
  rintro c c' ⟨h, hl⟩
  obtain ⟨c₁, j, hr, hcond⟩ := condemnCycles_condemned hl.disjoint roots
  obtain ⟨c₁', j', hr', hcond'⟩ := condemnCycles_condemned (h.labelled hl).disjoint roots
  have hmem := h.mem_cyclic roots
  have hagree := h.condemned hmem hcond hcond'
  rw [hr, hr']
  refine .ok hmem ⟨{ hagree with cycleBaseline_eq := ?_, sameTotals := ?_ }, hcond.labelled hl⟩
  · exact hagree.size_eq .multiRef
  · exact ⟨hagree.sameTotals.1, hagree.sameTotals.2, hagree.sameTotals.3⟩

end Collector

/-! ### Garbage collectors -/

/-- The two passes condemn the same objects and owe the same destructors, in some order. -/
structure Pass.Agree {δ : Type} (pass pass' : Pass δ) : Prop where
  mem_condemned : ∀ a, a ∈ pass'.condemned ↔ a ∈ pass.condemned
  mem_pending : ∀ x, x ∈ pass'.pending ↔ x ∈ pass.pending

namespace Gc

variable {δ : Type} {g g' : Gc δ} {a : UInt64}

/-- The collectors inside agree, and nothing but the ladders tells the configurations apart. -/
structure Agree (g g' : Gc δ) : Prop where
  collector : g.collector.Agree g'.collector
  collectThreshold_eq : g'.config.collectThreshold = g.config.collectThreshold
  cycleCollection_eq : g'.config.cycleCollection = g.config.cycleCollection
  cycleThreshold_eq : g'.config.cycleThreshold = g.config.cycleThreshold
  scanner_eq : g'.scanner = g.scanner
  isShutdown_eq : g'.isShutdown = g.isShutdown

namespace Agree

lemma withCollector {c c' : Collector δ} (h : g.Agree g') (hc : c.Agree c') :
    Agree { g with collector := c } { g' with collector := c' } :=
  { h with collector := hc }

lemma tracesCycles_eq (h : g.Agree g') (automatic : Bool) :
    g'.tracesCycles automatic = g.tracesCycles automatic := by
  rw [tracesCycles, tracesCycles, h.cycleCollection_eq, h.cycleThreshold_eq,
    h.collector.multiRefGrowth_eq]

lemma partitioned (h : g.Agree g') (hg : g.Partitioned) : g'.Partitioned where
  collector := h.collector.partitioned hg.collector
  idle hc hs a ha := by
    rw [h.collector.collecting_eq] at hc
    rw [h.isShutdown_eq] at hs
    exact hg.idle hc hs a ((h.collector.mem_table .working a).1 ha)

lemma isDue_eq (h : g.Agree g') : g'.isDue = g.isDue := by
  have hz := h.collector.size_eq .zeroCount
  simp only [Partitions.table] at hz
  rw [isDue, isDue, h.collectThreshold_eq, h.collector.collecting_eq, hz]

lemma header?_eq (h : g.Agree g') (a : UInt64) : g'.header? a = g.header? a := by
  rw [header?, header?, h.collector.isTracked_eq, h.collector.heap.header?_eq]

end Agree

lemma Agree.onCollector {α α' : Type} {V : α → α' → Prop} {act : Faulting (Collector δ) α}
    {act' : Faulting (Collector δ) α'} (h : g.Agree g')
    (hr : Alike Collector.Agree V (act.run g.collector) (act'.run g'.collector)) :
    Alike Agree V ((onCollector act).run g) ((onCollector act').run g') := by
  rw [run_onCollector, run_onCollector]
  generalize act.run g.collector = r at hr
  generalize act'.run g'.collector = r' at hr
  cases hr with
  | ok hv hs => exact .ok hv (h.withCollector hs)
  | error e hs => exact .error e (h.withCollector hs)

lemma lockstep_onCollector {α α' : Type} {V : α → α' → Prop} {act : Faulting (Collector δ) α}
    {act' : Faulting (Collector δ) α'} (h : Lockstep Collector.Agree V act act') :
    Lockstep Agree V (onCollector act) (onCollector act') :=
  fun _ _ hg => hg.onCollector (h hg.collector)

lemma lockstep_note (msg : Message) :
    Lockstep Agree Eq (note msg : Faulting (Gc δ) Unit) (note msg) :=
  lockstep_onCollector fun _ _ h => .ok rfl (h.note msg msg)

lemma lockstep_setThreshold (n : Nat) :
    Lockstep Agree Eq (setThreshold n : Faulting (Gc δ) Unit) (setThreshold n) :=
  fun _ _ h => .ok rfl { h with collectThreshold_eq := rfl }

/-! #### Reference counts -/

/-- Taking a reference checks and counts alike, and then moves the object alike. -/
lemma lockstep_addref (a : UInt64) :
    Lockstep Agree Eq (addref a : Faulting (Gc δ) UInt64) (addref a) := by
  unfold addref
  refine .bind .get fun g g' h => ?_
  refine .ite (by rw [h.isShutdown_eq]) (.pure rfl) ?_
  refine .ite (by rw [h.collector.isTracked_eq]) (.throw_bind _) ?_
  refine .bind (V := Eq) (lockstep_onCollector ?_) fun _ _ _ => .pure rfl
  refine .bind (Collector.lockstep_increment a) ?_
  rintro n _ rfl
  refine .bind .get fun c c' hc => ?_
  exact .ite (by rw [hc.heap.state?_eq]) (Collector.lockstep_transfer _ _ a) (.pure rfl)

lemma lockstep_delref (a : UInt64) :
    Lockstep Agree Eq (delref a : Faulting (Gc δ) Unit) (delref a) := by
  unfold delref
  refine .bind .get fun g g' h => ?_
  refine .ite (by rw [h.isShutdown_eq]) (.pure rfl) ?_
  refine .ite (by rw [h.collector.isTracked_eq]) (.throw_bind _) ?_
  refine lockstep_onCollector ?_
  refine .bind (Collector.lockstep_decrement a) ?_
  rintro n _ rfl
  refine .bind .get fun c c' hc => ?_
  exact .ite (by rw [hc.heap.state?_eq]) (Collector.lockstep_transfer _ _ a) (.pure rfl)

/-! #### Allocation -/

/-- On heaps with the same blocks the allocator answers the same address or the same error. -/
def Uniform (alloc : Allocator δ) : Prop :=
  ∀ ⦃h h' : Heap δ⦄, h.Same h' → ∀ size d,
    (∃ e, alloc h size d = .error e ∧ alloc h' size d = .error e) ∨
      ∃ a k k', alloc h size d = .ok (a, k) ∧ alloc h' size d = .ok (a, k') ∧ k.Same k'

/-- The same address is answered, by an allocator that goes by the blocks alone. -/
lemma lockstep_create {alloc : Allocator δ} (halloc : Uniform alloc) (size : Nat)
    (d : Option δ) : Lockstep Agree Eq (create alloc size d) (create alloc size d) := by
  unfold create
  refine .bind .get fun g g' h => ?_
  refine .ite (by rw [h.isShutdown_eq]) ?_ ?_
  · exact .bind (lockstep_note _) fun _ _ _ => .pure rfl
  refine .bind .get fun g g' h => ?_
  rcases halloc h.collector.heap size d with ⟨e, he, he'⟩ | ⟨a, k, k', hk, hk', hsame⟩
  · rw [he, he']
    exact .pure rfl
  · rw [hk, hk']
    refine .bind (V := Eq) (lockstep_onCollector ?_) fun _ _ _ => .pure rfl
    refine .bind (.update fun c c' hc => hc.withHeap hsame) fun _ _ _ => ?_
    exact Collector.lockstep_track a

/-! #### Passes -/

/-- Between passes, a pass opens on both collectors. -/
lemma Agree.openPass_of_idle (h : g.Agree g') (hg : g.Partitioned)
    (hc : g.collector.collecting = false) (hs : g.isShutdown = false) (fresh : Option UInt64)
    (roots : List UInt64) :
    Alike Agree (Option.Rel Pass.Agree) ((openPass fresh (some roots)).run g)
      ((openPass fresh (some roots)).run g') := by
  have hs' := h.isShutdown_eq.trans hs
  have hc' := h.collector.collecting_eq.trans hc
  obtain ⟨c₁, hr, hbegun⟩ := Collector.beginPass_begun hc (hg.idle hc hs)
  obtain ⟨c₁', hr', hbegun'⟩ := Collector.beginPass_begun hc' ((h.partitioned hg).idle hc' hs')
  unfold Gc.openPass
  simp only [EStateM.run_bind, EStateM.run_get, hs, hs', hc, hc', Bool.false_eq_true, if_false,
    h.tracesCycles_eq fresh.isSome]
  refine h.onCollector ?_
  -- the headers still name the partitions, so condemning cycles meets no fault in either order
  refine .imp (R := fun c c' => c.Agree c' ∧ c.Labelled) (V := Option.Rel Pass.Agree) ?_
    (fun _ _ => And.left) fun _ _ => id
  refine .bind (V := Eq) ?_ fun _ _ _ => ?_
  · rw [hr, hr']
    exact .ok rfl ⟨h.collector.begun hbegun hbegun', hbegun.labelled hg.collector.labelled⟩
  refine .bind (V := Eq) (Collector.lockstep_rescueAll fresh.toList) fun _ _ _ => ?_
  refine .bind (Collector.lockstep_rescueAll roots) ?_
  rintro unused _ rfl
  refine .bind .get fun c c' hcc => ?_
  rw [hcc.1.isMultiRef_eq]
  refine .ite Iff.rfl ?_ ?_
  · refine .bind (Collector.lockstep_condemnCycles _) fun as as' has => ?_
    refine .bind .get fun c₂ c₂' h₂ => ?_
    exact .pure (.some ⟨has, h₂.1.mem_pendingDestructors_iff⟩)
  · refine .bind (V := Eq) (.pure rfl) ?_
    rintro as _ rfl
    refine .bind .get fun c₂ c₂' h₂ => ?_
    exact .pure (.some ⟨fun _ => Iff.rfl, h₂.1.mem_pendingDestructors_iff⟩)

/-- A pass opens on both collectors or on none. -/
lemma Agree.openPass (h : g.Agree g') (hg : g.Partitioned) (fresh : Option UInt64)
    (scan : Option (List UInt64)) :
    Alike Agree (Option.Rel Pass.Agree) ((openPass fresh scan).run g)
      ((openPass fresh scan).run g') := by
  by_cases hs : g.isShutdown = true
  · rw [openPass_of_isShutdown hs, openPass_of_isShutdown (h.isShutdown_eq.trans hs)]
    exact .ok .none h
  rw [Bool.not_eq_true] at hs
  have hs' := h.isShutdown_eq.trans hs
  cases scan with
  | none =>
    rw [openPass_of_no_scan hs, openPass_of_no_scan hs']
    exact .ok .none (h.withCollector (h.collector.note _ _))
  | some roots =>
    by_cases hc : g.collector.collecting = true
    · have hc' := h.collector.collecting_eq.trans hc
      rw [openPass_of_collecting hc hs, openPass_of_collecting hc' hs']
      exact .ok .none h
    · exact h.openPass_of_idle hg (Bool.eq_false_iff.2 hc) hs fresh roots

lemma lockstep_closePass : Lockstep Agree Eq (closePass : Faulting (Gc δ) Nat) closePass :=
  lockstep_onCollector (.modifyGet fun _ _ h => h.finishPass)

/-! #### Teardown -/

/-- A teardown begins on both collectors or on none. -/
lemma Agree.beginTeardown (h : g.Agree g') (hg : g.Partitioned) :
    Alike Agree (Option.Rel fun owed owed' => ∀ x, x ∈ owed' ↔ x ∈ owed)
      (Gc.beginTeardown.run g) (Gc.beginTeardown.run g') := by
  by_cases hs : g.isShutdown = true
  · rw [beginTeardown_of_isShutdown hs, beginTeardown_of_isShutdown (h.isShutdown_eq.trans hs)]
    exact .ok .none h
  rw [Bool.not_eq_true] at hs
  have hs' := h.isShutdown_eq.trans hs
  by_cases hc : g.collector.collecting = true
  · rw [beginTeardown_of_collecting hc hs,
      beginTeardown_of_collecting (h.collector.collecting_eq.trans hc) hs']
    exact .error _ { h with isShutdown_eq := rfl }
  rw [Bool.not_eq_true] at hc
  have hc' := h.collector.collecting_eq.trans hc
  obtain ⟨c, hr, hall⟩ := beginTeardown_allCondemned hg.collector hc hs
  obtain ⟨c', hr', hall'⟩ := beginTeardown_allCondemned (h.partitioned hg).collector hc' hs'
  have hagree := h.collector.allCondemned hall hall'
  rw [hr, hr']
  exact .ok (.some hagree.mem_pendingDestructors_iff)
    { h with collector := hagree, isShutdown_eq := rfl }

/-- Both teardowns sweep the same blocks. What they log agrees too, but the journals are not
compared. -/
lemma lockstep_endTeardown :
    Lockstep Agree Eq (endTeardown : Faulting (Gc δ) Unit) endTeardown := by
  refine lockstep_onCollector (.bind (.modifyGet fun _ _ h => h.sweep) ?_)
  rintro n _ rfl
  exact fun _ _ h => .ok rfl (h.note _ _)

/-! #### Starting -/

/-- New collectors agree, whatever their ladders. -/
lemma agree_start (config : Config) (l l' : Ladder) (scanner : Scanner) :
    (start { config with ladder := l } scanner : Gc δ).Agree
      (start { config with ladder := l' } scanner) := by
  have hempty (l : Ladder) (p : Partition) (a : UInt64) :
      a ∉ (Partitions.empty l).table p := by
    cases p <;> exact Table.not_mem_empty l a
  constructor
  case collector =>
    constructor
    case mem_table => exact fun p a => iff_of_false (hempty l' p a) (hempty l p a)
    case heap => exact fun _ => rfl
    case sameTotals => exact ⟨rfl, rfl, rfl⟩
    all_goals rfl
  all_goals rfl

end Gc

end HybridGC
