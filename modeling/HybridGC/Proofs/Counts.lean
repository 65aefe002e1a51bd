import HybridGC.Proofs.Pass
import Mathlib.Algebra.Order.BigOperators.Group.Finset

/-!
# Counts and words

The count of an object against the number of payload words that hold it, and what dropping counted
references does to counts.
-/

namespace HybridGC

/-- The tracked addresses. -/
def Partitions.tracked (ps : Partitions) : Finset UInt64 :=
  ps.zeroCount.toFinset ∪ ps.multiRef.toFinset ∪ ps.working.toFinset

/-- The set of tracked addresses is what the three lookups of `isTracked` are about. -/
lemma Partitions.mem_tracked {ps : Partitions} {a : UInt64} :
    a ∈ ps.tracked ↔ ps.isTracked a = true := by
  rw [isTracked_iff, tracked, Finset.mem_union, Finset.mem_union]
  simp only [Table.mem_toFinset]
  constructor
  · rintro ((h | h) | h)
    · exact ⟨.zeroCount, h⟩
    · exact ⟨.multiRef, h⟩
    · exact ⟨.working, h⟩
  · rintro ⟨p, h⟩
    cases p with
    | zeroCount => exact .inl (.inl h)
    | multiRef => exact .inl (.inr h)
    | working => exact .inr h

/-- In disjoint partitions no object is counted twice, so the number of tracked objects is the
number of entries. -/
lemma card_tracked {ps : Partitions} (h : ps.Disjoint) :
    ps.tracked.card = ps.trackedCount := by
  have hzm : Disjoint ps.zeroCount.toFinset ps.multiRef.toFinset := by
    refine Finset.disjoint_left.2 fun a hz => ?_
    rw [Table.mem_toFinset] at hz ⊢
    exact h.not_mem_table (p := .zeroCount) (q := .multiRef) hz (by decide)
  have hw : Disjoint (ps.zeroCount.toFinset ∪ ps.multiRef.toFinset) ps.working.toFinset := by
    refine Finset.disjoint_left.2 fun a ha => ?_
    rw [Finset.mem_union, Table.mem_toFinset, Table.mem_toFinset] at ha
    rw [Table.mem_toFinset]
    rcases ha with hz | hm
    · exact h.not_mem_table (p := .zeroCount) (q := .working) hz (by decide)
    · exact h.not_mem_table (p := .multiRef) (q := .working) hm (by decide)
  rw [Partitions.tracked, Finset.card_union_of_disjoint hw, Finset.card_union_of_disjoint hzm,
    Table.card_toFinset, Table.card_toFinset, Table.card_toFinset, Partitions.trackedCount]

lemma trackedCount_eq_zero_iff {ps : Partitions} (h : ps.Disjoint) :
    ps.trackedCount = 0 ↔ ∀ a, ps.isTracked a = false := by
  rw [← card_tracked h, Finset.card_eq_zero, Finset.eq_empty_iff_forall_notMem]
  simp only [Partitions.mem_tracked, Bool.not_eq_true]

lemma Partitions.tracked_eq {ps ps' : Partitions}
    (h : ∀ a, ps'.isTracked a = true ↔ ps.isTracked a = true) : ps'.tracked = ps.tracked := by
  ext a
  rw [mem_tracked, mem_tracked, h]

lemma Partitions.tracked_eq_insert {ps ps' : Partitions} {a : UInt64}
    (h : ∀ b, ps'.isTracked b = true ↔ b = a ∨ ps.isTracked b = true) :
    ps'.tracked = insert a ps.tracked := by
  ext b
  rw [Finset.mem_insert, mem_tracked, mem_tracked, h]

lemma Partitions.tracked_eq_sdiff {ps ps' : Partitions} {dead : Finset UInt64}
    (h : ∀ a, ps'.isTracked a = true ↔ ps.isTracked a = true ∧ a ∉ dead) :
    ps'.tracked = ps.tracked \ dead := by
  ext a
  rw [Finset.mem_sdiff, mem_tracked, mem_tracked, h]

/-- Overwriting one word of a list moves one occurrence from the old word to the new one. They may
be the same. -/
lemma count_set_add {l : List UInt64} {i : Nat} (hi : i < l.length) (v w : UInt64) :
    (l.set i v).count w + [l.getD i 0].count w = l.count w + [v].count w := by
  induction l generalizing i with
  | nil => simp at hi
  | cons x l ih =>
    cases i with
    | zero => simp [List.count_cons, List.count_nil]; omega
    | succ i =>
      have := ih (i := i) (by simpa using hi)
      simp only [List.set_cons_succ, List.count_cons, List.getD_cons_succ] at this ⊢
      omega

namespace Gc

variable {δ : Type} {g g₁ g₂ g₃ : Gc δ} {a v w n : UInt64} {p q : Partition}

/-- The count of a tracked object, and zero for any other address. -/
def count (g : Gc δ) (a : UInt64) : Nat :=
  if g.collector.isTracked a then (g.collector.heap.refs a).toNat else 0

/-- How many words of the payloads of some objects hold an address. -/
def wordsHolding (g : Gc δ) (objects : Finset UInt64) (a : UInt64) : Nat :=
  ∑ x ∈ objects, (g.collector.heap.words x).count a

lemma tracked_start (config : Config) (scanner : Scanner) :
    (start config scanner : Gc δ).collector.tracked = ∅ := by
  ext a
  simp [Partitions.mem_tracked, not_isTracked_start]

lemma isTracked_of_count_pos (h : 0 < g.count a) : g.collector.isTracked a = true := by
  by_contra ht
  simp [count, ht] at h

lemma count_recounted {c : Collector δ} (ha : a ∈ g.collector.table p)
    (h : g.collector.Recounted c a n q) (v : UInt64) :
    count { g with collector := c } v = if v = a then n.toNat else g.count v := by
  have htracked : g.collector.isTracked a = true := Partitions.isTracked_iff.2 ⟨p, ha⟩
  simp only [count, h.isTracked_iff ha, h.refs_eq]
  split_ifs with hv <;> simp_all

lemma toNat_sub_one_add_one (hn : n ≠ 0) : (n - 1).toNat + 1 = n.toNat := by
  have hpos : 0 < n.toNat := UInt64.lt_iff_toNat_lt.1 (UInt64.pos_iff_ne_zero.2 hn)
  rw [UInt64.toNat_sub_of_le n 1 (UInt64.le_iff_toNat_le.2 hpos)]
  exact Nat.sub_add_cancel hpos

lemma wordsHolding_congr {objects : Finset UInt64}
    (h : ∀ x ∈ objects, g.collector.heap.words x = g₁.collector.heap.words x) (v : UInt64) :
    g.wordsHolding objects v = g₁.wordsHolding objects v :=
  Finset.sum_congr rfl fun x hx => by rw [h x hx]

lemma wordsHolding_sdiff_add (g : Gc δ) {objects dead : Finset UInt64} (h : dead ⊆ objects)
    (v : UInt64) :
    g.wordsHolding (objects \ dead) v + g.wordsHolding dead v = g.wordsHolding objects v :=
  Finset.sum_sdiff h

/-- Only the payload that is written to counts otherwise than before. -/
lemma wordsHolding_set (g g₁ : Gc δ) {objects : Finset UInt64} {i : Nat} (ha : a ∈ objects)
    (hi : i < (g.collector.heap.words a).length)
    (hwords : ∀ x, g₁.collector.heap.words x =
      if x = a then (g.collector.heap.words a).set i v else g.collector.heap.words x)
    (w : UInt64) :
    g₁.wordsHolding objects w + [(g.collector.heap.words a).getD i 0].count w =
      g.wordsHolding objects w + [v].count w := by
  have hset := count_set_add hi v w
  have hrest : ∑ x ∈ objects.erase a, (g₁.collector.heap.words x).count w =
      ∑ x ∈ objects.erase a, (g.collector.heap.words x).count w :=
    Finset.sum_congr rfl fun x hx => by rw [hwords, if_neg (Finset.ne_of_mem_erase hx)]
  rw [wordsHolding, wordsHolding, ← Finset.add_sum_erase objects _ ha,
    ← Finset.add_sum_erase objects _ ha, hrest, hwords a, if_pos rfl]
  omega

/-- A pass dooms tracked objects only. -/
lemma doomed_subset_tracked (g : Gc δ) (fresh : Option UInt64) (roots : List UInt64) :
    g.doomed fresh roots ⊆ g.collector.tracked := by
  intro a ha
  rw [Partitions.mem_tracked, Partitions.isTracked_iff]
  rcases Finset.mem_union.1 ha with hz | hx
  · exact ⟨.zeroCount, Table.mem_toFinset.1 (Finset.mem_sdiff.1 hz).1⟩
  · exact ⟨.multiRef, mem_multiRef_of_mem_cyclic hx⟩

/-- The count of a doomed object is at most the number of words of doomed payloads that hold it. -/
lemma count_le_of_mem_doomed {fresh : Option UInt64} {roots : List UInt64} (hg : g.Partitioned)
    (ha : a ∈ g.doomed fresh roots) : g.count a ≤ g.wordsHolding (g.doomed fresh roots) a := by
  have ht := Partitions.mem_tracked.1 (g.doomed_subset_tracked fresh roots ha)
  rw [count, if_pos ht]
  rcases Finset.mem_union.1 ha with hz | hx
  · have hzero : g.collector.heap.refs a = 0 :=
      hg.collector.suits (p := .zeroCount) (Table.mem_toFinset.1 (Finset.mem_sdiff.1 hz).1)
    simp [hzero]
  · rw [refs_of_mem_cyclic hx]
    exact Finset.sum_le_sum_of_subset Finset.subset_union_right

lemma toNat_add_one (hn : n.toNat + 1 ≠ UInt64.size) : (n + 1).toNat = n.toNat + 1 := by
  have hlt := n.toNat_lt_size
  rw [UInt64.toNat_add]
  simp only [UInt64.size, UInt64.reduceToNat] at *
  omega

/-! ### Dropping references -/

/-- References to what some words name have been dropped. -/
structure Dropped (g g' : Gc δ) (ws : List UInt64) : Prop where
  partitioned : g'.Partitioned
  add_count : ∀ v, v ≠ 0 → g'.count v + ws.count v = g.count v
  isTracked_iff : ∀ v, g'.collector.isTracked v = true ↔ g.collector.isTracked v = true
  mem_working : ∀ v, v ∈ g'.collector.working ↔ v ∈ g.collector.working
  words_eq : ∀ v, g'.collector.heap.words v = g.collector.heap.words v
  destructor?_eq : ∀ v, g'.collector.heap.destructor? v = g.collector.heap.destructor? v
  collecting_eq : g'.collector.collecting = g.collector.collecting
  isShutdown_eq : g'.isShutdown = g.isShutdown
  config_eq : g'.config = g.config
  scanner_eq : g'.scanner = g.scanner

namespace Dropped

variable {ws ws' : List UInt64}

lemma refl (hg : g.Partitioned) : g.Dropped g [] := by
  constructor <;> simp [hg]

lemma trans (h : g₁.Dropped g₂ ws) (h' : g₂.Dropped g₃ ws') : g₁.Dropped g₃ (ws ++ ws') where
  partitioned := h'.partitioned
  add_count v hv := by
    have := h.add_count v hv
    have := h'.add_count v hv
    rw [List.count_append]
    omega
  isTracked_iff v := (h'.isTracked_iff v).trans (h.isTracked_iff v)
  mem_working v := (h'.mem_working v).trans (h.mem_working v)
  words_eq v := (h'.words_eq v).trans (h.words_eq v)
  destructor?_eq v := (h'.destructor?_eq v).trans (h.destructor?_eq v)
  collecting_eq := h'.collecting_eq.trans h.collecting_eq
  isShutdown_eq := h'.isShutdown_eq.trans h.isShutdown_eq
  config_eq := h'.config_eq.trans h.config_eq
  scanner_eq := h'.scanner_eq.trans h.scanner_eq

/-- Which references to null have been dropped does not matter, nor in which order. -/
lemma of_count (h : g.Dropped g₁ ws) (hcount : ∀ v, v ≠ 0 → ws.count v = ws'.count v) :
    g.Dropped g₁ ws' :=
  { h with
    add_count := fun v hv => by
      rw [← hcount v hv]
      exact h.add_count v hv }

end Dropped

/-- A pass is ready to be closed: what it dooms is in the working table, and references to what the
words of the doomed payloads name have been dropped. -/
structure Released (g g' : Gc δ) (dead : Finset UInt64) : Prop where
  partitioned : g'.Partitioned
  toFinset_working : g'.collector.working.toFinset = dead
  add_count : ∀ v, v ≠ 0 → g'.count v + g.wordsHolding dead v = g.count v
  isTracked_iff : ∀ v, g'.collector.isTracked v = true ↔ g.collector.isTracked v = true
  words_eq : ∀ v, g'.collector.heap.words v = g.collector.heap.words v
  destructor?_eq : ∀ v, g'.collector.heap.destructor? v = g.collector.heap.destructor? v
  isShutdown_eq : g'.isShutdown = g.isShutdown
  config_eq : g'.config = g.config
  scanner_eq : g'.scanner = g.scanner

namespace Released

variable {dead : Finset UInt64} {c : Collector δ}

/-- Closing the pass frees what is doomed, and keeps the words and the destructors of the rest. -/
lemma isTracked_iff_of_swept (h : g.Released g₁ dead) (hc : g₁.collector.Swept c) (a : UInt64) :
    c.isTracked a = true ↔ g.collector.isTracked a = true ∧ a ∉ dead := by
  rw [hc.isTracked_iff h.partitioned.collector.disjoint, h.isTracked_iff, ← h.toFinset_working,
    Table.mem_toFinset]

lemma words_of_swept (h : g.Released g₁ dead) (hc : g₁.collector.Swept c) (a : UInt64) :
    c.heap.words a = g.collector.heap.words a :=
  (hc.words_eq a).trans (h.words_eq a)

lemma destructor?_of_swept (h : g.Released g₁ dead) (hc : g₁.collector.Swept c) (a : UInt64) :
    c.heap.destructor? a = g.collector.heap.destructor? a :=
  (hc.destructor?_eq a).trans (h.destructor?_eq a)

end Released

/-- Logging drops nothing, so it can stand between two drops. -/
lemma note_dropped (hg : g.Partitioned) (m : Message) :
    g.Dropped { g with collector := g.collector.note m } [] where
  partitioned := hg.note m
  add_count _ _ := rfl
  isTracked_iff _ := Iff.rfl
  mem_working _ := Iff.rfl
  words_eq _ := rfl
  destructor?_eq _ := rfl
  collecting_eq := rfl
  isShutdown_eq := rfl
  config_eq := rfl
  scanner_eq := rfl

/-- Dropping a reference that is counted. -/
lemma delref_dropped (hg : g.Partitioned) (hs : g.isShutdown = false)
    (hw : w ≠ 0 → 0 < g.count w) :
    ∃ g', (delref w).run g = .ok () g' ∧ g.Dropped g' [w] := by
  by_cases h0 : w = 0
  · refine ⟨g, delref_of_ignored (.inl h0), ?_⟩
    constructor
    -- the one object that is recounted loses one, and null is not counted
    case add_count =>
      intro v hv
      simp [h0, Ne.symm hv]
    all_goals simp [hg]
  · have hpos := hw h0
    have ht := isTracked_of_count_pos hpos
    obtain ⟨p, hp⟩ := Partitions.isTracked_iff.1 ht
    have hn : g.collector.heap.refs w ≠ 0 := by
      intro hn
      simp [count, hn] at hpos
    obtain ⟨c, q, hr, hc⟩ := delref_recounted hg.collector hs hp hn
    refine ⟨_, hr, ?_⟩
    constructor
    case partitioned => exact hg.recounted hp hc
    case add_count =>
      intro v hv
      rw [count_recounted hp hc, List.count_singleton]
      by_cases hvw : v = w
      · simp [hvw, count, ht, toNat_sub_one_add_one hn]
      · simp [hvw, Ne.symm hvw]
    case isTracked_iff => exact hc.isTracked_iff hp
    case mem_working => exact hc.mem_working
    case words_eq => exact hc.words_eq
    case destructor?_eq => exact hc.destructor?_eq
    case collecting_eq => exact hc.sameBooks.collecting_eq
    case isShutdown_eq => rfl
    case config_eq => rfl
    case scanner_eq => rfl

/-- Dropping references that are all counted. -/
lemma delrefs_dropped (ws : List UInt64) (hg : g.Partitioned) (hs : g.isShutdown = false)
    (hws : ∀ v, v ≠ 0 → ws.count v ≤ g.count v) :
    ∃ g', (ws.forM delref).run g = .ok () g' ∧ g.Dropped g' ws ∧
      Machine.Steps ⟨g, []⟩ ⟨g', []⟩ := by
  induction ws generalizing g with
  | nil => exact ⟨g, rfl, .refl hg, .refl⟩
  | cons w ws ih =>
    obtain ⟨g₁, hr, hdropped⟩ := delref_dropped hg hs (w := w) (fun hw => by
      have := hws w hw
      rw [List.count_cons_self] at this
      omega)
    obtain ⟨g₂, hr', hdropped', hsteps⟩ := ih hdropped.partitioned
      (hdropped.isShutdown_eq.trans hs) (fun v hv => by
        have := hws v hv
        have hadd := hdropped.add_count v hv
        rw [← List.singleton_append, List.count_append] at this
        omega)
    have hstep := Machine.Step.delref g [] w
    rw [after, hr] at hstep
    refine ⟨g₂, ?_, hdropped.trans hdropped', .head hstep hsteps⟩
    rw [run_forM_cons, hr]
    exact hr'

/-- Taking a reference is dropping one backwards. -/
lemma addref_dropped (hg : g.Partitioned) (hs : g.isShutdown = false)
    (hw : w = 0 ∨ g.collector.isTracked w = true) (hn : w ≠ 0 → g.count w + 1 ≠ UInt64.size) :
    ∃ g', (addref w).run g = .ok w g' ∧ g'.Partitioned ∧ g'.Dropped g [w] := by
  by_cases h0 : w = 0
  · refine ⟨g, addref_of_ignored (.inl h0), hg, ?_⟩
    constructor
    -- read backwards: the object that is recounted has gained one
    case add_count =>
      intro v hv
      simp [h0, Ne.symm hv]
    all_goals simp [hg]
  · have ht := hw.resolve_left h0
    obtain ⟨p, hp⟩ := Partitions.isTracked_iff.1 ht
    have hcount : g.count w = (g.collector.heap.refs w).toNat := if_pos ht
    have hn' := hcount ▸ hn h0
    obtain ⟨c, q, hr, hc⟩ := addref_recounted hg.collector hs hp hn'
    refine ⟨_, hr, hg.recounted hp hc, ?_⟩
    constructor
    case partitioned => exact hg
    case add_count =>
      intro v hv
      rw [count_recounted hp hc, List.count_singleton]
      by_cases hvw : v = w
      · simp [hvw, hcount, toNat_add_one hn']
      · simp [hvw, Ne.symm hvw]
    case isTracked_iff => exact fun v => (hc.isTracked_iff hp v).symm
    case mem_working => exact fun v => (hc.mem_working v).symm
    case words_eq => exact fun v => (hc.words_eq v).symm
    case destructor?_eq => exact fun v => (hc.destructor?_eq v).symm
    case collecting_eq => exact hc.sameBooks.collecting_eq.symm
    case isShutdown_eq => rfl
    case config_eq => rfl
    case scanner_eq => rfl

end Gc

end HybridGC
