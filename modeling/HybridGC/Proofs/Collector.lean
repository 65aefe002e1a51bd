import HybridGC.Collector.Basic
import HybridGC.Proofs.Heap
import HybridGC.Proofs.Table

/-!
# What the operations of a collector do

Each operation is described by the addresses it moves between the partitions, by what it does to
headers, and by what it leaves alone. Operations that may stop at a fault are shown not to, as long
as the partitions are disjoint.
-/

namespace HybridGC

/-! ### Where an address is -/

/-- The three lookups of `isTracked`, in the order they are made, amount to one membership. -/
lemma Partitions.isTracked_iff {ps : Partitions} {a : UInt64} :
    ps.isTracked a = true ↔ ∃ p, a ∈ ps.table p := by
  simp only [isTracked, locate, Table.contains_iff]
  constructor
  · intro h
    split_ifs at h with hz hm hw
    · exact ⟨.zeroCount, hz⟩
    · exact ⟨.multiRef, hm⟩
    · exact ⟨.working, hw⟩
    · simp at h
  · rintro ⟨p, hp⟩
    cases p <;> simp only [table] at hp <;> split_ifs <;> simp

/-- No address is in two partitions. -/
def Partitions.Disjoint (ps : Partitions) : Prop :=
  ∀ ⦃p q a⦄, a ∈ ps.table p → a ∈ ps.table q → p = q

namespace Partitions.Disjoint

variable {ps : Partitions} {p q : Partition} {a : UInt64}

lemma mem_table_iff (h : ps.Disjoint) (ha : a ∈ ps.table p) : a ∈ ps.table q ↔ q = p :=
  ⟨fun hq => h hq ha, fun hq => hq ▸ ha⟩

lemma not_mem_table (h : ps.Disjoint) (ha : a ∈ ps.table p) (hne : p ≠ q) : a ∉ ps.table q :=
  fun hq => hne (h ha hq)

/-- An object of one partition has one entry there, and none in the others. -/
lemma count_addresses (h : ps.Disjoint) (ha : a ∈ ps.table p) (q : Partition) :
    (ps.table q).addresses.count a = if q = p then 1 else 0 := by
  simp only [Table.count_addresses, h.mem_table_iff ha]

end Partitions.Disjoint

/-- The two heaps differ in nothing but the partitions their headers name. -/
structure Heap.SameObjects {δ : Type} (h h' : Heap δ) : Prop where
  refs_eq : ∀ a, h'.refs a = h.refs a
  words_eq : ∀ a, h'.words a = h.words a
  destructor?_eq : ∀ a, h'.destructor? a = h.destructor? a
  live_iff : ∀ a, h'.Live a ↔ h.Live a
  cursor_eq : h'.cursor = h.cursor

namespace Heap.SameObjects

variable {δ : Type} {h₁ h₂ h₃ : Heap δ}

lemma refl (h : Heap δ) : h.SameObjects h := by
  constructor <;> simp

lemma trans (h : h₁.SameObjects h₂) (h' : h₂.SameObjects h₃) : h₁.SameObjects h₃ where
  refs_eq a := (h'.refs_eq a).trans (h.refs_eq a)
  words_eq a := (h'.words_eq a).trans (h.words_eq a)
  destructor?_eq a := (h'.destructor?_eq a).trans (h.destructor?_eq a)
  live_iff a := (h'.live_iff a).trans (h.live_iff a)
  cursor_eq := h'.cursor_eq.trans h.cursor_eq

lemma symm (h : h₁.SameObjects h₂) : h₂.SameObjects h₁ where
  refs_eq a := (h.refs_eq a).symm
  words_eq a := (h.words_eq a).symm
  destructor?_eq a := (h.destructor?_eq a).symm
  live_iff a := (h.live_iff a).symm
  cursor_eq := h.cursor_eq.symm

lemma setState (h : Heap δ) (a : UInt64) (s : Partition) : h.SameObjects (h.setState a s) := by
  constructor <;> simp

/-- Relabelling any number of objects, one of them twice included, changes nothing but the labels.
-/
lemma foldl_setState (as : List UInt64) (s : Partition) (h : Heap δ) :
    h.SameObjects (as.foldl (fun h a => h.setState a s) h) := by
  induction as generalizing h with
  | nil => exact .refl h
  | cons a as ih => exact (setState h a s).trans (ih (h.setState a s))

end Heap.SameObjects

/-- After a list of objects is relabelled, an address has the new label if it is in the list; an
address without a header still has no label. -/
lemma Heap.state?_foldl_setState {δ : Type} (as : List UInt64) (s : Partition) (h : Heap δ)
    (b : UInt64) :
    (as.foldl (fun h a => h.setState a s) h).state? b =
      if b ∈ as then (h.state? b).map fun _ => s else h.state? b := by
  induction as generalizing h with
  | nil => simp
  | cons a as ih =>
    rw [List.foldl_cons, ih, state?_setState]
    by_cases ha : b = a
    · simp [ha, Function.comp_def]
    · simp [ha]

namespace Collector

variable {δ : Type} {c c' : Collector δ} {p q source target : Partition} {a b : UInt64}

/-- The parts of a collector that moving entries leaves alone. -/
structure SameBooks (c c' : Collector δ) : Prop where
  ladder_eq : c'.ladder = c.ladder
  collecting_eq : c'.collecting = c.collecting
  cycleBaseline_eq : c'.cycleBaseline = c.cycleBaseline
  collections_eq : c'.collections = c.collections
  collected_eq : c'.collected = c.collected
  lastCollected_eq : c'.lastCollected = c.lastCollected

lemma SameBooks.refl (c : Collector δ) : c.SameBooks c := by
  constructor <;> rfl

lemma SameBooks.symm (h : c.SameBooks c') : c'.SameBooks c where
  ladder_eq := h.ladder_eq.symm
  collecting_eq := h.collecting_eq.symm
  cycleBaseline_eq := h.cycleBaseline_eq.symm
  collections_eq := h.collections_eq.symm
  collected_eq := h.collected_eq.symm
  lastCollected_eq := h.lastCollected_eq.symm

lemma SameBooks.trans {c₁ c₂ c₃ : Collector δ} (h : c₁.SameBooks c₂) (h' : c₂.SameBooks c₃) :
    c₁.SameBooks c₃ where
  ladder_eq := h'.ladder_eq.trans h.ladder_eq
  collecting_eq := h'.collecting_eq.trans h.collecting_eq
  cycleBaseline_eq := h'.cycleBaseline_eq.trans h.cycleBaseline_eq
  collections_eq := h'.collections_eq.trans h.collections_eq
  collected_eq := h'.collected_eq.trans h.collected_eq
  lastCollected_eq := h'.lastCollected_eq.trans h.lastCollected_eq

/-- The counters of the passes that have ended. -/
structure SameTotals (c c' : Collector δ) : Prop where
  collections_eq : c'.collections = c.collections
  collected_eq : c'.collected = c.collected
  lastCollected_eq : c'.lastCollected = c.lastCollected

namespace SameTotals

variable {c₁ c₂ c₃ : Collector δ}

lemma refl (c : Collector δ) : c.SameTotals c := by
  constructor <;> rfl

lemma trans (h : c₁.SameTotals c₂) (h' : c₂.SameTotals c₃) : c₁.SameTotals c₃ where
  collections_eq := h'.collections_eq.trans h.collections_eq
  collected_eq := h'.collected_eq.trans h.collected_eq
  lastCollected_eq := h'.lastCollected_eq.trans h.lastCollected_eq

end SameTotals

/-- An operation on entries is never the end of a pass. -/
lemma SameBooks.sameTotals (h : c.SameBooks c') : c.SameTotals c' :=
  ⟨h.collections_eq, h.collected_eq, h.lastCollected_eq⟩

/-! ### Putting in and taking out -/

/-- The equation of `put` that the facts below are read off: the tables get the entry, and the
journal may get a line about growth, which nothing below depends on. -/
lemma put_eq (c : Collector δ) (p : Partition) (e : Entry) :
    ∃ journal, c.put p e = (((c.table p).insert e).1,
      { c with toPartitions := c.setTable ((c.table p).insert e).2 p, journal }) := by
  simp only [put]
  split
  · exact ⟨c.journal, onTable_eq ..⟩
  · exact ⟨_, onTable_eq ..⟩

lemma put_fst (c : Collector δ) (p : Partition) (e : Entry) :
    (c.put p e).1 = if e.address ∈ c.table p then some e else none := by
  obtain ⟨j, hj⟩ := c.put_eq p e
  rw [hj, Table.insert_fst]

lemma mem_table_put {e : Entry} :
    b ∈ (c.put p e).2.table q ↔ q = p ∧ b = e.address ∨ b ∈ c.table q := by
  obtain ⟨j, hj⟩ := c.put_eq p e
  rw [hj]
  by_cases hq : q = p
  · subst hq
    simp
  · simp [Partitions.table_setTable_of_ne _ _ (Ne.symm hq), hq]

lemma table_put_of_ne {e : Entry} (hq : q ≠ p) : (c.put p e).2.table q = c.table q := by
  obtain ⟨j, hj⟩ := c.put_eq p e
  rw [hj]
  exact Partitions.table_setTable_of_ne _ _ (Ne.symm hq)

@[simp] lemma heap_put (c : Collector δ) (p : Partition) (e : Entry) :
    (c.put p e).2.heap = c.heap := by
  obtain ⟨j, hj⟩ := c.put_eq p e
  rw [hj]

@[simp] lemma lastRescued_put (c : Collector δ) (p : Partition) (e : Entry) :
    (c.put p e).2.lastRescued = c.lastRescued := by
  obtain ⟨j, hj⟩ := c.put_eq p e
  rw [hj]

lemma sameBooks_put (c : Collector δ) (p : Partition) (e : Entry) :
    c.SameBooks (c.put p e).2 := by
  obtain ⟨j, hj⟩ := c.put_eq p e
  rw [hj]
  constructor <;> rfl

lemma take_fst (c : Collector δ) (p : Partition) (a : UInt64) :
    (c.take p a).1 = if a ∈ c.table p then some (.ofAddress a) else none := by
  rw [take, onTable_eq, Table.erase_fst]

lemma mem_table_take :
    b ∈ (c.take p a).2.table q ↔ b ∈ c.table q ∧ (q = p → b ≠ a) := by
  rw [take, onTable_eq]
  by_cases hq : q = p
  · subst hq
    simp [and_comm]
  · simp [Partitions.table_setTable_of_ne _ _ (Ne.symm hq), hq]

lemma table_take_of_ne (hq : q ≠ p) : (c.take p a).2.table q = c.table q := by
  rw [take, onTable_eq]
  exact Partitions.table_setTable_of_ne _ _ (Ne.symm hq)

@[simp] lemma heap_take (c : Collector δ) (p : Partition) (a : UInt64) :
    (c.take p a).2.heap = c.heap := by
  rw [take, onTable_eq]

@[simp] lemma lastRescued_take (c : Collector δ) (p : Partition) (a : UInt64) :
    (c.take p a).2.lastRescued = c.lastRescued := by
  rw [take, onTable_eq]

lemma sameBooks_take (c : Collector δ) (p : Partition) (a : UInt64) :
    c.SameBooks (c.take p a).2 := by
  rw [take, onTable_eq]
  constructor <;> rfl

lemma sameBooks_setState (c : Collector δ) (a : UInt64) (p : Partition) :
    c.SameBooks (c.setState a p) := by
  constructor <;> rfl

/-- The header of every tracked object names the partition the object is in. -/
def Labelled (c : Collector δ) : Prop :=
  ∀ ⦃p a⦄, a ∈ c.table p → c.heap.state? a = some p

/-- A header names one partition, so tables that agree with the headers are disjoint. -/
lemma Labelled.disjoint (h : c.Labelled) : c.Disjoint := by
  intro p q a hp hq
  exact Option.some.inj ((h hp).symm.trans (h hq))

/-! ### Moving one entry -/

/-- An address has moved from one partition to another, in the tables and in its header. -/
structure Moved (c c' : Collector δ) (source target : Partition) (a : UInt64) : Prop where
  mem_target : ∀ b, b ∈ c'.table target ↔ b = a ∨ b ∈ c.table target
  mem_source : ∀ b, b ∈ c'.table source ↔ b ≠ a ∧ b ∈ c.table source
  table_of_ne : ∀ p, p ≠ source → p ≠ target → c'.table p = c.table p
  heap_eq : c'.heap = c.heap.setState a target
  lastRescued_eq : c'.lastRescued = c.lastRescued
  sameBooks : c.SameBooks c'

/-- Taking an entry out of one table and putting it into another. -/
lemma moved_put_take (hne : source ≠ target) (a : UInt64) :
    Moved c ((((c.take source a).2.setState a target).put target (.ofAddress a)).2)
      source target a where
  mem_target b := by
    rw [mem_table_put]
    show target = target ∧ b = a ∨ b ∈ (c.take source a).2.table target ↔ _
    rw [table_take_of_ne (Ne.symm hne)]
    simp
  mem_source b := by
    rw [table_put_of_ne hne]
    show b ∈ (c.take source a).2.table source ↔ _
    rw [mem_table_take]
    simp [and_comm]
  table_of_ne p hs ht := by
    rw [table_put_of_ne ht]
    exact table_take_of_ne hs
  heap_eq := by
    rw [heap_put]
    show ((c.take source a).2.heap).setState a target = _
    rw [heap_take]
  lastRescued_eq := by
    rw [lastRescued_put]
    exact lastRescued_take c source a
  sameBooks :=
    ((c.sameBooks_take source a).trans (sameBooks_setState _ a target)).trans
      (sameBooks_put _ target _)

namespace Moved

/-- Where every address is after a move between disjoint tables: the moved one is in the target and
nowhere else. -/
lemma mem_iff (h : c.Moved c' source target a) (hc : c.Disjoint) (ha : a ∈ c.table source)
    (hne : source ≠ target) (p : Partition) (b : UInt64) :
    b ∈ c'.table p ↔ if b = a then p = target else b ∈ c.table p := by
  by_cases ht : p = target
  · subst ht
    rw [h.mem_target]
    split <;> simp_all
  by_cases hs : p = source
  · subst hs
    rw [h.mem_source]
    split <;> simp_all
  · rw [h.table_of_ne p hs ht]
    split
    case isTrue hb =>
      subst hb
      constructor
      · exact fun hp => absurd (hc hp ha) hs
      · exact fun hp => absurd hp ht
    case isFalse => rfl

/-- A move relabels the one object it moves, so the headers stay in agreement with the tables. -/
lemma labelled (h : c.Moved c' source target a) (hc : c.Labelled) (ha : a ∈ c.table source)
    (hne : source ≠ target) : c'.Labelled := by
  intro p b hb
  rw [h.mem_iff hc.disjoint ha hne] at hb
  rw [h.heap_eq, Heap.state?_setState]
  split_ifs at hb ⊢ with hba
  · rw [hba, hc ha, hb]
    rfl
  · exact hc hb

end Moved

/-- A transfer stops at neither of its checks if the entry is where it is looked for and not yet
where it goes. -/
lemma transfer_moved (hne : source ≠ target) (hs : a ∈ c.table source)
    (ht : a ∉ c.table target) :
    ∃ c', (transfer source target a).run c = .ok () c' ∧ c.Moved c' source target a := by
  refine ⟨_, ?_, moved_put_take hne a⟩
  have hp : (((c.take source a).2.setState a target).put target (.ofAddress a)).1 = none := by
    rw [put_fst, if_neg]
    show a ∉ (c.take source a).2.table target
    rwa [table_take_of_ne (Ne.symm hne)]
  simp [transfer, take_fst, hs, hp]

/-! ### Registering -/

/-- Registering looks at the zero-count table alone. What the other two hold makes no difference,
which is why no hypothesis is about them. -/
lemma track_of_not_mem (ha : a ∉ c.zeroCount) :
    (track a).run c = .ok () (c.put .zeroCount (.ofAddress a)).2 := by
  have hp : (c.put .zeroCount (.ofAddress a)).1 = none := by
    rw [put_fst]
    exact if_neg ha
  simp [track, hp]

/-! ### Rescuing -/

/-- What several words have rescued from the working table. -/
structure Rescued (c c' : Collector δ) (ws : List UInt64) : Prop where
  mem_working : ∀ b, b ∈ c'.working ↔ b ∈ c.working ∧ b ∉ ws
  mem_zeroCount : ∀ b, b ∈ c'.zeroCount ↔ b ∈ c.zeroCount ∨ b ∈ c.working ∧ b ∈ ws
  multiRef_eq : c'.multiRef = c.multiRef
  labelled : c.Labelled → c'.Labelled
  sameObjects : c.heap.SameObjects c'.heap
  lastRescued_eq : c'.lastRescued + c'.working.size = c.lastRescued + c.working.size
  sameBooks : c.SameBooks c'

/-- A word that names a candidate moves it back to the zero-count table and counts as a rescue. -/
lemma rescue_of_mem {w : UInt64} (hw : w ∈ c.working) :
    ∃ c₁, c.Moved c₁ .working .zeroCount w ∧
      c.rescue w = (true, { c₁ with lastRescued := c₁.lastRescued + 1 }) := by
  refine ⟨_, moved_put_take (by decide) w, ?_⟩
  have hf : (c.take .working w).1 = some (.ofAddress w) := by
    rw [take_fst]
    exact if_pos hw
  rw [rescue]
  split
  case h_1 h => simp [h] at hf
  case h_2 e c₁ h =>
    rw [h] at hf ⊢
    obtain rfl : e = .ofAddress w := by simpa using hf
    rfl

/-- Any other word, an address of no object included, leaves the collector as it is. -/
lemma rescue_of_not_mem {w : UInt64} (hw : w ∉ c.working) : c.rescue w = (false, c) := by
  have hf : (c.take .working w).1 = none := by
    rw [take_fst]
    exact if_neg hw
  rw [rescue]
  split
  case h_1 => rfl
  case h_2 h => simp [h] at hf

/-- One word as a case of `Rescued`, whether or not it names a candidate. The count of rescues and
the size of the working table keep their sum. -/
lemma rescued_rescue (c : Collector δ) (w : UInt64) : c.Rescued (c.rescue w).2 [w] := by
  -- a candidate changes tables, and any other word is one that rescues nothing
  by_cases hw : w ∈ c.working
  · obtain ⟨c₁, hm, he⟩ := c.rescue_of_mem hw
    rw [he]
    constructor
    case mem_working =>
      intro b
      rw [List.mem_singleton, and_comm]
      exact hm.mem_source b
    case mem_zeroCount =>
      intro b
      have := hm.mem_target b
      simp only [Partitions.table] at this
      simp only [this, List.mem_singleton]
      constructor
      · rintro (rfl | hb)
        · exact .inr ⟨hw, rfl⟩
        · exact .inl hb
      · rintro (hb | ⟨-, rfl⟩)
        · exact .inr hb
        · exact .inl rfl
    case multiRef_eq => exact hm.table_of_ne .multiRef (by decide) (by decide)
    case labelled => exact fun hc => hm.labelled hc hw (by decide)
    case sameObjects =>
      show c.heap.SameObjects c₁.heap
      rw [hm.heap_eq]
      exact .setState ..
    case lastRescued_eq =>
      have := Table.size_of_mem_iff_ne hm.mem_source hw
      have := hm.lastRescued_eq
      simp only [Partitions.table] at *
      omega
    case sameBooks => exact hm.sameBooks.trans (by constructor <;> rfl)
  · rw [c.rescue_of_not_mem hw]
    have hb (b : UInt64) (hb : b ∈ c.working) : b ≠ w := fun h => hw (h ▸ hb)
    constructor
    case sameObjects => exact .refl _
    case sameBooks => exact .refl _
    all_goals grind

lemma Rescued.trans {c₁ c₂ c₃ : Collector δ} {w : UInt64} {ws : List UInt64}
    (h : c₁.Rescued c₂ [w]) (h' : c₂.Rescued c₃ ws) : c₁.Rescued c₃ (w :: ws) where
  mem_working b := by
    simp only [h'.mem_working, h.mem_working, List.mem_cons, List.not_mem_nil]
    tauto
  mem_zeroCount b := by
    simp only [h'.mem_zeroCount, h.mem_zeroCount, h.mem_working, List.mem_cons, List.not_mem_nil]
    tauto
  multiRef_eq := h'.multiRef_eq.trans h.multiRef_eq
  labelled hc := h'.labelled (h.labelled hc)
  sameObjects := h.sameObjects.trans h'.sameObjects
  lastRescued_eq := h'.lastRescued_eq.trans h.lastRescued_eq
  sameBooks := h.sameBooks.trans h'.sameBooks

/-- What a list of root words does to a collector, in one description that does not depend on their
order. -/
lemma rescued_rescueAll (ws : List UInt64) (c : Collector δ) :
    c.Rescued (c.rescueAll ws).2 ws := by
  induction ws generalizing c with
  | nil =>
    constructor
    case sameObjects => exact .refl _
    case sameBooks => exact .refl _
    all_goals simp [rescueAll]
  | cons w ws ih => exact (c.rescued_rescue w).trans (ih (c.rescue w).2)

lemma mem_of_mem_rescueAll {w : UInt64} {ws : List UInt64} (h : w ∈ (c.rescueAll ws).1) :
    w ∈ ws := by
  induction ws generalizing c with
  | nil => exact h
  | cons x ws ih =>
    simp only [rescueAll] at h
    split at h
    · exact List.mem_cons_of_mem x (ih h)
    · rcases List.mem_cons.1 h with rfl | h
      · exact List.mem_cons_self
      · exact List.mem_cons_of_mem x (ih h)

/-- A word that names no candidate rescues nothing, wherever it comes in the list. -/
lemma mem_rescueAll {w : UInt64} {ws : List UInt64} (hw : w ∈ ws) (hc : w ∉ c.working) :
    w ∈ (c.rescueAll ws).1 := by
  induction ws generalizing c with
  | nil => exact hw
  | cons x ws ih =>
    have hc' : w ∉ (c.rescue x).2.working := fun h =>
      hc ((c.rescued_rescue x).mem_working w |>.1 h).1
    simp only [rescueAll]
    rcases List.mem_cons.1 hw with rfl | hw
    · simp [c.rescue_of_not_mem hc]
    · split
      · exact ih hw hc'
      · exact List.mem_cons_of_mem x (ih hw hc')

/-! ### Condemning -/

/-- What has been moved to the working table from another one. -/
structure Condemned (c c' : Collector δ) (source : Partition) (as : List UInt64) : Prop where
  mem_working : ∀ b, b ∈ c'.working ↔ b ∈ c.working ∨ b ∈ as
  mem_source : ∀ b, b ∈ c'.table source ↔ b ∈ c.table source ∧ b ∉ as
  table_of_ne : ∀ p, p ≠ source → p ≠ .working → c'.table p = c.table p
  labelled : c.Labelled → c'.Labelled
  heap_eq : c'.heap = as.foldl (fun h a => h.setState a .working) c.heap
  lastRescued_eq : c'.lastRescued = c.lastRescued
  sameBooks : c.SameBooks c'

lemma Condemned.sameObjects {as : List UInt64} (h : c.Condemned c' source as) :
    c.heap.SameObjects c'.heap := by
  rw [h.heap_eq]
  exact .foldl_setState ..

lemma Condemned.refl (c : Collector δ) (source : Partition) : c.Condemned c source [] := by
  constructor
  case sameBooks => exact .refl _
  all_goals simp

/-- One more object condemned before the others. It has to come from the source table, or the
headers would stop agreeing with the tables. -/
lemma Condemned.cons {c₁ c₂ c₃ : Collector δ} {as : List UInt64} (hs : source ≠ .working)
    (ha : a ∈ c₁.table source) (h : c₁.Moved c₂ source .working a)
    (h' : c₂.Condemned c₃ source as) : c₁.Condemned c₃ source (a :: as) where
  mem_working b := by
    have := h.mem_target b
    simp only [Partitions.table] at this
    rw [h'.mem_working, this, List.mem_cons]
    tauto
  mem_source b := by
    rw [h'.mem_source, h.mem_source, List.mem_cons]
    tauto
  table_of_ne p hp hw := (h'.table_of_ne p hp hw).trans (h.table_of_ne p hp hw)
  labelled hc := h'.labelled (h.labelled hc ha hs)
  heap_eq := by
    rw [h'.heap_eq, h.heap_eq]
    rfl
  lastRescued_eq := h'.lastRescued_eq.trans h.lastRescued_eq
  sameBooks := h.sameBooks.trans h'.sameBooks

/-- Distinct objects of one table can be condemned one after the other without a fault, in whatever
order the list has. -/
lemma forM_transfer_condemned (hs : source ≠ .working) {as : List UInt64} (hnodup : as.Nodup)
    (hmem : ∀ a ∈ as, a ∈ c.table source) (hw : ∀ a ∈ as, a ∉ c.working) :
    ∃ c', (as.forM (transfer source .working)).run c = .ok () c' ∧ c.Condemned c' source as := by
  induction as generalizing c with
  | nil => exact ⟨c, rfl, .refl c source⟩
  | cons a as ih =>
    obtain ⟨ha, hnodup⟩ := List.nodup_cons.1 hnodup
    obtain ⟨c₁, hr₁, hm⟩ :=
      transfer_moved hs (hmem a List.mem_cons_self) (hw a List.mem_cons_self)
    obtain ⟨c₂, hr₂, hc⟩ := ih (c := c₁) hnodup
      (by
        intro b hb
        refine (hm.mem_source b).2 ⟨?_, hmem b (List.mem_cons_of_mem a hb)⟩
        rintro rfl
        exact ha hb)
      (by
        intro b hb hbw
        rcases (hm.mem_target b).1 hbw with rfl | hbw
        · exact ha hb
        · exact hw b (List.mem_cons_of_mem a hb) hbw)
    refine ⟨c₂, ?_, hc.cons hs (hmem a List.mem_cons_self) hm⟩
    rw [run_forM_cons, hr₁]
    exact hr₂

/-- Entries have been put into the working table. -/
structure Entered (c c' : Collector δ) (es : List Entry) : Prop where
  mem_working : ∀ b, b ∈ c'.working ↔ b ∈ c.working ∨ b ∈ es.map (·.address)
  table_of_ne : ∀ p, p ≠ .working → c'.table p = c.table p
  heap_eq : c'.heap = (es.map (·.address)).foldl (fun h a => h.setState a .working) c.heap
  lastRescued_eq : c'.lastRescued = c.lastRescued
  sameBooks : c.SameBooks c'

/-- The entry is labelled first and put in afterwards; neither stops at a fault if the working table
is without its address. -/
lemma condemn_entered {e : Entry} (he : e.address ∉ c.working) :
    ∃ c', (condemn e).run c = .ok () c' ∧ c.Entered c' [e] := by
  have hput : ((c.setState e.address .working).put .working e).1 = none := by
    rw [put_fst]
    exact if_neg he
  refine ⟨((c.setState e.address .working).put .working e).2, by simp [condemn, hput], ?_⟩
  constructor
  case mem_working =>
    intro b
    show b ∈ ((c.setState e.address .working).put .working e).2.table .working ↔ _
    rw [mem_table_put, List.map_singleton, List.mem_singleton, or_comm]
    simp only [true_and]
    rfl
  case table_of_ne =>
    intro p hp
    rw [table_put_of_ne hp]
    rfl
  case heap_eq =>
    rw [heap_put]
    rfl
  case lastRescued_eq =>
    rw [lastRescued_put]
    rfl
  case sameBooks => exact (c.sameBooks_setState _ _).trans (sameBooks_put _ _ _)

lemma Entered.cons {c₁ c₂ c₃ : Collector δ} {e : Entry} {es : List Entry}
    (h : c₁.Entered c₂ [e]) (h' : c₂.Entered c₃ es) : c₁.Entered c₃ (e :: es) where
  mem_working b := by
    rw [h'.mem_working, h.mem_working, List.map_singleton, List.mem_singleton, List.map_cons,
      List.mem_cons, or_assoc]
  table_of_ne p hp := (h'.table_of_ne p hp).trans (h.table_of_ne p hp)
  heap_eq := by
    rw [h'.heap_eq, h.heap_eq]
    rfl
  lastRescued_eq := h'.lastRescued_eq.trans h.lastRescued_eq
  sameBooks := h.sameBooks.trans h'.sameBooks

/-- Distinct entries that the working table is without can all be condemned, in the order of the
list. -/
lemma forM_condemn_entered {es : List Entry} (hnodup : es.Nodup)
    (hw : ∀ e ∈ es, e.address ∉ c.working) :
    ∃ c', (es.forM condemn).run c = .ok () c' ∧ c.Entered c' es := by
  induction es generalizing c with
  | nil =>
    refine ⟨c, rfl, ?_⟩
    constructor
    case heap_eq => rfl
    case sameBooks => exact .refl c
    all_goals simp
  | cons e es ih =>
    obtain ⟨he, hnodup⟩ := List.nodup_cons.1 hnodup
    obtain ⟨c₁, hr₁, h₁⟩ := condemn_entered (hw e List.mem_cons_self)
    obtain ⟨c₂, hr₂, h₂⟩ := ih (c := c₁) hnodup (by
      intro x hx hxw
      rcases (h₁.mem_working x.address).1 hxw with hxw | hxe
      · exact hw x (List.mem_cons_of_mem e hx) hxw
      · rw [List.map_singleton, List.mem_singleton] at hxe
        exact he (Entry.ext_address hxe ▸ hx))
    refine ⟨c₂, ?_, h₁.cons h₂⟩
    rw [run_forM_cons, hr₁]
    exact hr₂

/-- Draining a table and condemning what came out moves the whole table to the working one.
Disjointness is what keeps the second step from a fault. -/
lemma drain_condemned (hc : c.Disjoint) (hs : source ≠ .working) :
    ∃ c', (((c.drain source).1).forM condemn).run (c.drain source).2 = .ok () c' ∧
      c.Condemned c' source (c.table source).addresses := by
  have hdrain : c.drain source = ((c.table source).toList,
      { c with toPartitions := c.setTable (c.table source).drain.2 source }) := onTable_eq ..
  rw [hdrain]
  have hkeep {p} (hp : p ≠ source) :
      (c.setTable (c.table source).drain.2 source).table p = c.table p :=
    Partitions.table_setTable_of_ne _ _ (Ne.symm hp)
  have hwork : (c.setTable (c.table source).drain.2 source).working = c.working :=
    hkeep (Ne.symm hs)
  obtain ⟨c', hr, hentered⟩ :=
    -- no address of the source is in the working table as well, so no entry meets itself there
    forM_condemn_entered
      (c := { c with toPartitions := c.setTable (c.table source).drain.2 source })
      (c.table source).nodup_toList
      (by
        intro e he hew
        rw [hwork] at hew
        exact hs (hc (p := source) (List.mem_map_of_mem he) hew))
  have hmem := hentered.mem_working
  have hdrained (b : UInt64) : b ∉ c'.table source := by
    rw [hentered.table_of_ne source hs, Partitions.table_setTable_self]
    exact (c.table source).not_mem_drain b
  have hrest {p : Partition} (hp : p ≠ source) (hw : p ≠ .working) : c'.table p = c.table p := by
    rw [hentered.table_of_ne p hw, hkeep hp]
  rw [hwork] at hmem
  refine ⟨c', hr, ?_⟩
  constructor
  case mem_working => exact hmem
  case mem_source => exact fun b => ⟨fun hb => absurd hb (hdrained b), fun hb => absurd hb.1 hb.2⟩
  case table_of_ne => exact fun p => hrest
  -- headers: drained addresses are relabelled, those of the other tables are not among them
  case labelled =>
    intro hl p b hb
    rw [hentered.heap_eq, Heap.state?_foldl_setState]
    by_cases hw : p = .working
    · subst hw
      rcases (hmem b).1 hb with hb | hb
      · have : c.heap.state? b = some .working := hl (p := .working) hb
        split <;> simp [this]
      · have : c.heap.state? b = some source := hl hb
        rw [if_pos hb, this]
        rfl
    · have hp : p ≠ source := fun hp => hdrained b (hp ▸ hb)
      rw [hrest hp hw] at hb
      have hbs : b ∉ (c.table source).toList.map (·.address) := fun h => hp (hc hb h)
      rw [if_neg hbs]
      exact hl hb
  case heap_eq => exact hentered.heap_eq
  case lastRescued_eq => exact hentered.lastRescued_eq
  case sameBooks => exact .trans (by constructor <;> rfl) hentered.sameBooks

/-! ### The destructors that are owed -/

lemma mem_pendingDestructors {d : δ} :
    (a, d) ∈ c.pendingDestructors ↔ a ∈ c.working ∧ c.heap.destructor? a = some d := by
  simp only [pendingDestructors, List.mem_filterMap, Option.map_eq_some_iff, Prod.mk.injEq]
  constructor
  · rintro ⟨b, hb, d', hd, rfl, rfl⟩
    exact ⟨hb, hd⟩
  · exact fun ⟨ha, hd⟩ => ⟨a, ha, d, hd, rfl, rfl⟩

lemma nodup_pendingDestructors (c : Collector δ) : (c.pendingDestructors.map Prod.fst).Nodup := by
  rw [pendingDestructors, List.map_filterMap]
  refine c.working.nodup_addresses.filterMap fun a b x ha hb => ?_
  simp only [Option.map_map, Option.mem_def, Option.map_eq_some_iff, Function.comp_apply] at ha hb
  obtain ⟨-, -, rfl⟩ := ha
  obtain ⟨-, -, rfl⟩ := hb
  rfl

/-! ### Beginning and ending a pass -/

/-- A pass has begun: what was in the zero-count table is in the working table. -/
structure Begun (c c' : Collector δ) : Prop where
  working_eq : c'.working = c.zeroCount
  not_mem_zeroCount : ∀ b, b ∉ c'.zeroCount
  multiRef_eq : c'.multiRef = c.multiRef
  labelled : c.Labelled → c'.Labelled
  heap_eq : c'.heap = c.zeroCount.addresses.foldl (fun h a => h.setState a .working) c.heap
  lastRescued_eq : c'.lastRescued = 0
  sameBooks : ({ c with collecting := true } : Collector δ).SameBooks c'

lemma Begun.sameObjects (h : c.Begun c') : c.heap.SameObjects c'.heap := by
  rw [h.heap_eq]
  exact .foldl_setState ..

/-- A pass can begin when none is open and the working table is empty, and then it takes the whole
zero-count table. -/
lemma beginPass_begun (hc : c.collecting = false) (hw : ∀ b, b ∉ c.working) :
    ∃ c', beginPass.run c = .ok () c' ∧ c.Begun c' := by
  have hempty : c.working.isEmpty = true := Table.isEmpty_iff.2 hw
  refine ⟨_, by simp [beginPass, hc, note, hempty]; rfl, ?_⟩
  constructor
  case working_eq => rfl
  case not_mem_zeroCount => exact Table.not_mem_empty _
  case multiRef_eq => rfl
  -- only the headers need an argument: the objects relabelled are the old zero-count table
  case labelled =>
    intro hl p b hb
    show ((c.zeroCount.addresses).foldl (fun h a => h.setState a .working) c.heap).state? b = _
    rw [Heap.state?_foldl_setState]
    cases p with
    | zeroCount => exact absurd hb (Table.not_mem_empty _ b)
    | multiRef =>
      have hz : b ∉ c.zeroCount.addresses :=
        hl.disjoint.not_mem_table (p := .multiRef) (q := .zeroCount) hb (by decide)
      rw [if_neg hz]
      exact hl hb
    | working =>
      have hz : c.heap.state? b = some .zeroCount := hl (p := .zeroCount) hb
      have hmem : b ∈ c.zeroCount.addresses := hb
      rw [if_pos hmem, hz]
      rfl
  case heap_eq => rfl
  case lastRescued_eq => rfl
  case sameBooks => constructor <;> rfl

/-- The working table has been swept. -/
structure Swept (c c' : Collector δ) : Prop where
  not_mem_working : ∀ b, b ∉ c'.working
  zeroCount_eq : c'.zeroCount = c.zeroCount
  multiRef_eq : c'.multiRef = c.multiRef
  live_iff : ∀ b, c'.heap.Live b ↔ b ∉ c.working ∧ c.heap.Live b
  refs_eq : ∀ b, c'.heap.refs b = c.heap.refs b
  state?_eq : ∀ b, c'.heap.state? b = c.heap.state? b
  words_eq : ∀ b, c'.heap.words b = c.heap.words b
  destructor?_eq : ∀ b, c'.heap.destructor? b = c.heap.destructor? b
  cursor_eq : c'.heap.cursor = c.heap.cursor
  lastRescued_eq : c'.lastRescued = c.lastRescued

lemma foldl_free (as : List UInt64) (c : Collector δ) :
    ∃ journal, as.foldl (fun c a => c.free a) c =
      { c with heap := as.foldl (fun h a => h.free a) c.heap, journal } := by
  induction as generalizing c with
  | nil => exact ⟨c.journal, rfl⟩
  | cons a as ih =>
    obtain ⟨j, hj⟩ := ih (c.free a)
    exact ⟨j, hj⟩

/-- A sweep frees exactly the blocks of the working table and empties it. The freed blocks keep the
contents they had. -/
lemma swept_sweep (c : Collector δ) : c.Swept c.sweep.2 := by
  have hlive (as : List UInt64) (h : Heap δ) (b : UInt64) :
      (as.foldl (fun h a => h.free a) h).Live b ↔ b ∉ as ∧ h.Live b := by
    induction as generalizing h with
    | nil => simp
    | cons a as ih =>
      rw [List.foldl_cons, ih, Heap.live_free, List.mem_cons]
      tauto
  have hkeep {α : Type} (f : Heap δ → α) (hf : ∀ h a, f (h.free a) = f h) (as : List UInt64)
      (h : Heap δ) : f (as.foldl (fun h a => h.free a) h) = f h := by
    induction as generalizing h with
    | nil => rfl
    | cons a as ih => exact (ih (h.free a)).trans (hf h a)
  -- of the heap's components only liveness changes; the others go through each block freed
  obtain ⟨j, hj⟩ := foldl_free c.working.addresses c
  rw [sweep, hj]
  constructor
  case not_mem_working => exact Table.not_mem_empty _
  case zeroCount_eq => rfl
  case multiRef_eq => rfl
  case live_iff => exact hlive _ _
  case refs_eq => exact fun b => hkeep (·.refs b) (by simp) _ _
  case state?_eq => exact fun b => hkeep (·.state? b) (by simp) _ _
  case words_eq => exact fun b => hkeep (·.words b) (by simp) _ _
  case destructor?_eq => exact fun b => hkeep (·.destructor? b) (by simp) _ _
  case cursor_eq => exact hkeep (·.cursor) (by simp) _ _
  case lastRescued_eq => rfl

lemma sweep_fst (c : Collector δ) : c.sweep.1 = c.working.size :=
  c.working.size_eq_length.symm

lemma sameBooks_sweep (c : Collector δ) : c.SameBooks c.sweep.2 := by
  obtain ⟨j, hj⟩ := foldl_free c.working.addresses c
  rw [sweep, hj]
  constructor <;> rfl

/-- Only the tables, the heap and the count of rescues matter, so a sweep can be followed by any
change to the totals. -/
lemma Swept.congr {c₁ : Collector δ} (h : c.Swept c') (htables : c₁.toPartitions = c'.toPartitions)
    (hheap : c₁.heap = c'.heap) (hresc : c₁.lastRescued = c'.lastRescued) : c.Swept c₁ := by
  constructor
  case not_mem_working => simpa only [htables] using h.not_mem_working
  case zeroCount_eq => simpa only [htables] using h.zeroCount_eq
  case multiRef_eq => simpa only [htables] using h.multiRef_eq
  case live_iff => simpa only [hheap] using h.live_iff
  case refs_eq => simpa only [hheap] using h.refs_eq
  case state?_eq => simpa only [hheap] using h.state?_eq
  case words_eq => simpa only [hheap] using h.words_eq
  case destructor?_eq => simpa only [hheap] using h.destructor?_eq
  case cursor_eq => simpa only [hheap] using h.cursor_eq
  case lastRescued_eq => exact hresc.trans h.lastRescued_eq

lemma swept_finishPass (c : Collector δ) : c.Swept c.finishPass.2 :=
  c.swept_sweep.congr rfl rfl rfl

lemma finishPass_fst (c : Collector δ) : c.finishPass.1 = c.working.size :=
  c.sweep_fst

/-- A pass has been ended and counted, with what it has freed. -/
structure Finished (c c' : Collector δ) : Prop where
  swept : c.Swept c'
  collecting_eq : c'.collecting = false
  collections_eq : c'.collections = c.collections + 1
  collected_eq : c'.collected = c.collected + c.working.size
  lastCollected_eq : c'.lastCollected = c.working.size

lemma finished_finishPass (c : Collector δ) : c.Finished c.finishPass.2 where
  swept := c.swept_finishPass
  collecting_eq := rfl
  collections_eq := congrArg (· + 1) c.sameBooks_sweep.collections_eq
  collected_eq := by
    rw [← c.sweep_fst, ← c.sameBooks_sweep.collected_eq]
    rfl
  lastCollected_eq := c.sweep_fst

end Collector

end HybridGC
