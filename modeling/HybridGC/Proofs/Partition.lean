import HybridGC.Proofs.Collector

/-!
# The partition invariant

Every tracked object is a live block in one partition, the one its header names, and that partition
suits its count. Counting, creating, opening a pass, sweeping and condemning everything are each
described by all that they do to a collector, and keep this invariant.
-/

namespace HybridGC

/-- Whether objects with some count may be in a partition. Objects that are being collected may have
any. -/
def Partition.Suits (n : UInt64) : Partition → Prop
  | .zeroCount => n = 0
  | .multiRef => n ≠ 0
  | .working => True

namespace Collector

variable {δ : Type} {c c' : Collector δ} {p q source target : Partition} {a b o n : UInt64}

/-- Every tracked object is a live block, in the partition its header names, which suits its count.
-/
structure Partitioned (c : Collector δ) : Prop where
  labelled : c.Labelled
  live : ∀ ⦃p a⦄, a ∈ c.table p → c.heap.Live a
  ne_zero : ∀ ⦃p a⦄, a ∈ c.table p → a ≠ 0
  suits : ∀ ⦃p a⦄, a ∈ c.table p → p.Suits (c.heap.refs a)

lemma Partitioned.disjoint (hc : c.Partitioned) : c.Disjoint :=
  hc.labelled.disjoint

/-- Nothing is tracked at first, so there is nothing that could be in the wrong place. -/
lemma partitioned_empty (l : Ladder) : (empty l : Collector δ).Partitioned := by
  have h {p : Partition} {a : UInt64} : a ∉ (empty l : Collector δ).table p := by
    cases p <;> exact Table.not_mem_empty _ a
  exact ⟨fun p a ha => absurd ha h, fun p a ha => absurd ha h, fun p a ha => absurd ha h,
    fun p a ha => absurd ha h⟩

/-- A collector whose tables and blocks are those of another in all that the invariant speaks of. -/
lemma Partitioned.congr (hc : c.Partitioned) (htable : c'.toPartitions = c.toPartitions)
    (hrefs : ∀ a, c'.heap.refs a = c.heap.refs a)
    (hstate : ∀ a, c'.heap.state? a = c.heap.state? a)
    (hlive : ∀ a, c'.heap.Live a ↔ c.heap.Live a) : c'.Partitioned where
  labelled p a ha := by
    rw [hstate]
    exact hc.labelled (htable ▸ ha)
  live p a ha := (hlive a).2 (hc.live (htable ▸ ha))
  ne_zero p a ha := hc.ne_zero (htable ▸ ha)
  suits p a ha := by
    rw [hrefs]
    exact hc.suits (htable ▸ ha)

/-! ### Counting -/

/-- An object's count has been set, and the object is in the partition that this calls for. -/
structure Recounted (c c' : Collector δ) (o n : UInt64) (q : Partition) : Prop where
  suits : q.Suits n
  working_iff : q = .working ↔ o ∈ c.working
  mem_table : ∀ p b, b ∈ c'.table p ↔ if b = o then p = q else b ∈ c.table p
  labelled : c'.Labelled
  refs_eq : ∀ b, c'.heap.refs b = if b = o then n else c.heap.refs b
  words_eq : ∀ b, c'.heap.words b = c.heap.words b
  destructor?_eq : ∀ b, c'.heap.destructor? b = c.heap.destructor? b
  live_iff : ∀ b, c'.heap.Live b ↔ c.heap.Live b
  cursor_eq : c'.heap.cursor = c.heap.cursor
  lastRescued_eq : c'.lastRescued = c.lastRescued
  sameBooks : c.SameBooks c'

namespace Recounted

/-- A count that is set keeps the invariant, because the object has been put where the new count
belongs. -/
lemma partitioned (h : c.Recounted c' o n q) (hc : c.Partitioned) (ho : o ∈ c.table p) :
    c'.Partitioned where
  labelled := h.labelled
  live r b hb := by
    rw [h.live_iff]
    rw [h.mem_table] at hb
    split_ifs at hb with hbo
    · exact hbo ▸ hc.live ho
    · exact hc.live hb
  ne_zero r b hb := by
    rw [h.mem_table] at hb
    split_ifs at hb with hbo
    · exact hbo ▸ hc.ne_zero ho
    · exact hc.ne_zero hb
  suits r b hb := by
    rw [h.mem_table] at hb
    rw [h.refs_eq]
    split_ifs at hb ⊢ with hbo
    · exact hb ▸ h.suits
    · exact hc.suits hb

lemma isTracked_iff (h : c.Recounted c' o n q) (ho : o ∈ c.table p) (b : UInt64) :
    c'.isTracked b = true ↔ c.isTracked b = true := by
  simp only [Partitions.isTracked_iff, h.mem_table]
  by_cases hbo : b = o
  · subst hbo
    simp only [if_true, exists_eq, true_iff]
    exact ⟨p, ho⟩
  · simp [hbo]

/-- Counting during a pass leaves the candidates of the pass what they are. -/
lemma mem_working (h : c.Recounted c' o n q) (b : UInt64) : b ∈ c'.working ↔ b ∈ c.working := by
  have := h.mem_table .working b
  simp only [Partitions.table] at this
  rw [this]
  split_ifs with hbo
  · rw [eq_comm, h.working_iff, hbo]
  · rfl

end Recounted

lemma increment_of_ne (hn : (c.heap.refs o).toNat + 1 ≠ UInt64.size) :
    (increment o).run c =
      .ok (c.heap.refs o + 1) { c with heap := c.heap.setRefs o (c.heap.refs o + 1) } := by
  simp [increment, hn]

lemma increment_of_eq (hn : (c.heap.refs o).toNat + 1 = UInt64.size) :
    (increment o).run c = .error .countOverflow c := by
  simp [increment, hn]

lemma decrement_of_ne (hn : c.heap.refs o ≠ 0) :
    (decrement o).run c =
      .ok (c.heap.refs o - 1) { c with heap := c.heap.setRefs o (c.heap.refs o - 1) } := by
  simp [decrement, hn]

lemma decrement_of_eq (hn : c.heap.refs o = 0) :
    (decrement o).run c = .error .countUnderflow c := by
  simp [decrement, hn]

/-- A count that can grow does not grow to zero. -/
lemma add_one_ne_zero (hn : n.toNat + 1 ≠ UInt64.size) : n + 1 ≠ 0 := by
  intro h
  have := congrArg UInt64.toNat h
  have := n.toNat_lt_size
  rw [UInt64.toNat_add] at *
  simp only [UInt64.reduceToNat, UInt64.size] at *
  omega

/-- Setting a count that suits the partition the object is in. -/
lemma recounted_setRefs (hc : c.Partitioned) (ho : o ∈ c.table q) (hn : q.Suits n) :
    c.Recounted { c with heap := c.heap.setRefs o n } o n q where
  suits := hn
  working_iff := eq_comm.trans (hc.disjoint.mem_table_iff (q := .working) ho).symm
  mem_table p b := by
    split_ifs with hbo
    · subst hbo
      exact hc.disjoint.mem_table_iff ho
    · rfl
  labelled p b hb := (c.heap.state?_setRefs o b n).trans (hc.labelled hb)
  refs_eq b := Heap.refs_setRefs (hc.live ho) b n
  words_eq b := Heap.words_setRefs ..
  destructor?_eq b := Heap.destructor?_setRefs ..
  live_iff b := Heap.live_setRefs ..
  cursor_eq := rfl
  lastRescued_eq := rfl
  sameBooks := by constructor <;> rfl

/-- Setting a count and then moving the object to the partition that this calls for. -/
lemma transfer_recounted (hc : c.Partitioned) (ho : o ∈ c.table source) (hne : source ≠ target)
    (hs : source ≠ .working) (ht : target ≠ .working) (hn : target.Suits n) :
    ∃ c', (transfer source target o).run { c with heap := c.heap.setRefs o n } = .ok () c' ∧
      c.Recounted c' o n target := by
  have htarget : o ∉ c.table target := hc.disjoint.not_mem_table ho hne
  -- moving an object does not look at its count, so it goes through with the new one
  obtain ⟨c', hr, hm⟩ :=
    transfer_moved (c := { c with heap := c.heap.setRefs o n }) hne ho htarget
  refine ⟨c', hr, ?_⟩
  constructor
  case suits => exact hn
  case working_iff =>
    constructor
    · exact fun h => absurd h ht
    · exact fun hw => absurd hw (hc.disjoint.not_mem_table (q := .working) ho hs)
  case mem_table => exact hm.mem_iff hc.disjoint ho hne
  case labelled =>
    refine hm.labelled ?_ ho hne
    exact fun p b hb => (c.heap.state?_setRefs o b n).trans (hc.labelled hb)
  case refs_eq =>
    intro b
    rw [hm.heap_eq, Heap.refs_setState, Heap.refs_setRefs (hc.live ho)]
  case words_eq =>
    intro b
    rw [hm.heap_eq, Heap.words_setState, Heap.words_setRefs]
  case destructor?_eq =>
    intro b
    rw [hm.heap_eq, Heap.destructor?_setState, Heap.destructor?_setRefs]
  case live_iff =>
    intro b
    rw [hm.heap_eq, Heap.live_setState, Heap.live_setRefs]
  case cursor_eq => rw [hm.heap_eq, Heap.cursor_setState, Heap.cursor_setRefs]
  case lastRescued_eq => exact hm.lastRescued_eq
  case sameBooks => exact .trans (by constructor <;> rfl) hm.sameBooks

/-! ### Creating -/

/-- An object that was not there has been granted a block and is tracked without references. -/
structure Created (c c' : Collector δ) (size : Nat) (d : Option δ) (a : UInt64) : Prop where
  not_mem : ∀ p, a ∉ c.table p
  ne_zero : a ≠ 0
  mem_table : ∀ p b, b ∈ c'.table p ↔ if b = a then p = .zeroCount else b ∈ c.table p
  state?_eq : ∀ b, c'.heap.state? b = if b = a then some .zeroCount else c.heap.state? b
  refs_eq : ∀ b, c'.heap.refs b = if b = a then 0 else c.heap.refs b
  words_eq : ∀ b, c'.heap.words b = if b = a then List.replicate (size / 8) 0 else c.heap.words b
  destructor?_eq : ∀ b, c'.heap.destructor? b = if b = a then d else c.heap.destructor? b
  live_iff : ∀ b, c'.heap.Live b ↔ b = a ∨ c.heap.Live b
  lastRescued_eq : c'.lastRescued = c.lastRescued
  sameBooks : c.SameBooks c'

/-- A granted block can be registered: no table has its address, since every tracked object is live
and the block was not. -/
lemma track_created {size : Nat} {d : Option δ} {h : Heap δ} (hc : c.Partitioned)
    (hg : c.heap.Grants size d a h) :
    ∃ c', (track a).run { c with heap := h } = .ok () c' ∧ c'.heap = h ∧
      c.Created c' size d a := by
  have hnot (p : Partition) : a ∉ c.table p := fun ha => hg.not_live (hc.live ha)
  refine ⟨_, track_of_not_mem (hnot .zeroCount), heap_put .., ?_⟩
  constructor
  case not_mem => exact hnot
  case ne_zero => exact hg.ne_zero
  -- the entry goes into the zero-count table; the address was in no table before
  case mem_table =>
    intro p b
    rw [mem_table_put]
    show p = .zeroCount ∧ b = a ∨ b ∈ c.table p ↔ _
    split_ifs with hba
    · have := hnot p
      simp [hba, this]
    · simp [hba]
  case state?_eq =>
    intro b
    rw [heap_put, hg.state?_eq]
  case refs_eq =>
    intro b
    rw [heap_put, hg.refs_eq]
  case words_eq =>
    intro b
    rw [heap_put, hg.words_eq]
  case destructor?_eq =>
    intro b
    rw [heap_put, hg.destructor?_eq]
  case live_iff =>
    intro b
    rw [heap_put, hg.live_iff]
  case lastRescued_eq => exact lastRescued_put ..
  case sameBooks => exact .trans (by constructor <;> rfl) (sameBooks_put ..)

/-- A new object has no references and is in the zero-count table, as the invariant asks. -/
lemma Created.partitioned {size : Nat} {d : Option δ} (h : c.Created c' size d a)
    (hc : c.Partitioned) : c'.Partitioned where
  labelled p b hb := by
    rw [h.mem_table] at hb
    rw [h.state?_eq]
    split_ifs at hb ⊢
    · rw [hb]
    · exact hc.labelled hb
  live p b hb := by
    rw [h.mem_table] at hb
    rw [h.live_iff]
    split_ifs at hb with hba
    · exact .inl hba
    · exact .inr (hc.live hb)
  ne_zero p b hb := by
    rw [h.mem_table] at hb
    split_ifs at hb with hba
    · exact hba ▸ h.ne_zero
    · exact hc.ne_zero hb
  suits p b hb := by
    rw [h.mem_table] at hb
    rw [h.refs_eq]
    split_ifs at hb ⊢
    · rw [hb]
      rfl
    · exact hc.suits hb

namespace Created

variable {size : Nat} {d : Option δ}

lemma not_isTracked (h : c.Created c' size d a) : c.isTracked a = false := by
  rw [← Bool.not_eq_true, Partitions.isTracked_iff]
  rintro ⟨p, hp⟩
  exact h.not_mem p hp

lemma isTracked_iff (h : c.Created c' size d a) (b : UInt64) :
    c'.isTracked b = true ↔ b = a ∨ c.isTracked b = true := by
  simp only [Partitions.isTracked_iff, h.mem_table]
  by_cases hba : b = a <;> simp [hba]

/-- An object created during a pass is not a candidate of that pass. -/
lemma mem_working (h : c.Created c' size d a) (b : UInt64) : b ∈ c'.working ↔ b ∈ c.working := by
  have := h.mem_table .working b
  simp only [Partitions.table] at this
  rw [this]
  split_ifs with hba
  · have hnot := h.not_mem .working
    simp only [false_iff]
    exact hba ▸ hnot
  · rfl

end Created

/-! ### Opening a pass -/

/-- A pass has been opened that keeps some words and condemns some objects as cyclic. -/
structure Opened (c c' : Collector δ) (kept : List UInt64) (cyclic : Finset UInt64) : Prop where
  mem_zeroCount : ∀ b, b ∈ c'.zeroCount ↔ b ∈ c.zeroCount ∧ b ∈ kept
  mem_multiRef : ∀ b, b ∈ c'.multiRef ↔ b ∈ c.multiRef ∧ b ∉ cyclic
  mem_working : ∀ b, b ∈ c'.working ↔ b ∈ c.zeroCount ∧ b ∉ kept ∨ b ∈ cyclic
  cyclic_multiRef : ∀ b ∈ cyclic, b ∈ c.multiRef
  labelled : c'.Labelled
  sameObjects : c.heap.SameObjects c'.heap
  lastRescued_eq : c'.lastRescued = (c.zeroCount.toFinset ∩ kept.toFinset).card
  collecting_eq : c'.collecting = true
  sameTotals : c.SameTotals c'

namespace Opened

variable {kept : List UInt64} {cyclic : Finset UInt64}

/-- Opening a pass frees nothing: candidates and condemned objects are still tracked. -/
lemma isTracked_iff (h : c.Opened c' kept cyclic) (hw : ∀ b, b ∉ c.working) (b : UInt64) :
    c'.isTracked b = true ↔ c.isTracked b = true := by
  have hcyclic := h.cyclic_multiRef b
  simp only [Partitions.isTracked_iff]
  constructor
  · rintro ⟨p, hp⟩
    -- what is in the working table now was in one of the other two, for it was empty
    cases p with
    | zeroCount => exact ⟨.zeroCount, ((h.mem_zeroCount b).1 hp).1⟩
    | multiRef => exact ⟨.multiRef, ((h.mem_multiRef b).1 hp).1⟩
    | working =>
      rcases (h.mem_working b).1 hp with hz | hx
      · exact ⟨.zeroCount, hz.1⟩
      · exact ⟨.multiRef, hcyclic hx⟩
  · rintro ⟨p, hp⟩
    cases p with
    | zeroCount =>
      by_cases hk : b ∈ kept
      · exact ⟨.zeroCount, (h.mem_zeroCount b).2 ⟨hp, hk⟩⟩
      · exact ⟨.working, (h.mem_working b).2 (.inl ⟨hp, hk⟩)⟩
    | multiRef =>
      by_cases hx : b ∈ cyclic
      · exact ⟨.working, (h.mem_working b).2 (.inr hx)⟩
      · exact ⟨.multiRef, (h.mem_multiRef b).2 ⟨hp, hx⟩⟩
    | working => exact absurd hp (hw b)

/-- The working table takes objects with any count, so what opening a pass moves there keeps the
invariant. -/
lemma partitioned (h : c.Opened c' kept cyclic) (hc : c.Partitioned) (hw : ∀ b, b ∉ c.working) :
    c'.Partitioned := by
  have htracked {p : Partition} {b : UInt64} (hb : b ∈ c'.table p) : ∃ q, b ∈ c.table q := by
    rw [← Partitions.isTracked_iff, ← h.isTracked_iff hw, Partitions.isTracked_iff]
    exact ⟨p, hb⟩
  constructor
  case labelled => exact h.labelled
  case live =>
    intro p b hb
    obtain ⟨q, hq⟩ := htracked hb
    exact (h.sameObjects.live_iff b).2 (hc.live hq)
  case ne_zero =>
    intro p b hb
    obtain ⟨q, hq⟩ := htracked hb
    exact hc.ne_zero hq
  case suits =>
    intro p b hb
    rw [h.sameObjects.refs_eq]
    cases p with
    | zeroCount => exact hc.suits (p := .zeroCount) ((h.mem_zeroCount b).1 hb).1
    | multiRef => exact hc.suits (p := .multiRef) ((h.mem_multiRef b).1 hb).1
    | working => trivial

end Opened

/-- Beginning a pass and rescuing what some words name opens a pass without cycles. -/
lemma opened_rescueAll {c₁ c₂ c₃ : Collector δ} {ws ws' : List UInt64} (hc : c.Labelled)
    (h₁ : c.Begun c₁) (h₂ : c₁.Rescued c₂ ws) (h₃ : c₂.Rescued c₃ ws') :
    c.Opened c₃ (ws ++ ws') ∅ := by
  have hwork (b : UInt64) : b ∈ c₃.working ↔ b ∈ c.zeroCount ∧ b ∉ ws ++ ws' := by
    rw [h₃.mem_working, h₂.mem_working, h₁.working_eq, List.mem_append]
    tauto
  constructor
  case mem_zeroCount =>
    intro b
    rw [h₃.mem_zeroCount, h₂.mem_zeroCount, h₂.mem_working, h₁.working_eq, List.mem_append]
    have := h₁.not_mem_zeroCount b
    tauto
  case mem_multiRef => simp [h₃.multiRef_eq, h₂.multiRef_eq, h₁.multiRef_eq]
  case mem_working => simpa using hwork
  case cyclic_multiRef => simp
  case labelled => exact h₃.labelled (h₂.labelled (h₁.labelled hc))
  case sameObjects => exact (h₁.sameObjects.trans h₂.sameObjects).trans h₃.sameObjects
  case lastRescued_eq =>
    -- what was rescued is what has left the working table
    have hleft : c₃.working.toFinset = c.zeroCount.toFinset \ (ws ++ ws').toFinset := by
      ext b
      rw [Table.mem_toFinset, hwork, Finset.mem_sdiff, Table.mem_toFinset, List.mem_toFinset]
    have hcard :=
      Finset.card_sdiff_add_card_inter c.zeroCount.toFinset (ws ++ ws').toFinset
    rw [← hleft, Table.card_toFinset, Table.card_toFinset] at hcard
    have h₂' := h₂.lastRescued_eq
    rw [h₁.lastRescued_eq, h₁.working_eq] at h₂'
    have h₃' := h₃.lastRescued_eq
    omega
  case collecting_eq =>
    rw [h₃.sameBooks.collecting_eq, h₂.sameBooks.collecting_eq, h₁.sameBooks.collecting_eq]
  case sameTotals =>
    have h₁' : c.SameTotals c₁ := ⟨h₁.sameBooks.collections_eq, h₁.sameBooks.collected_eq,
      h₁.sameBooks.lastCollected_eq⟩
    exact (h₁'.trans h₂.sameBooks.sameTotals).trans h₃.sameBooks.sameTotals

/-- Condemning cycles in an open pass. -/
lemma Opened.condemned {c₁ c₂ : Collector δ} {kept condemned : List UInt64}
    (h₁ : c.Opened c₁ kept ∅) (h₂ : c₁.Condemned c₂ .multiRef condemned)
    (hmem : ∀ b ∈ condemned, b ∈ c.multiRef) :
    c.Opened c₂ kept condemned.toFinset where
  mem_zeroCount b := by
    have := h₂.table_of_ne .zeroCount (by decide) (by decide)
    simp only [Partitions.table] at this
    rw [this, h₁.mem_zeroCount]
  mem_multiRef b := by
    have := h₂.mem_source b
    simp only [Partitions.table] at this
    rw [this, h₁.mem_multiRef, List.mem_toFinset]
    simp
  mem_working b := by
    rw [h₂.mem_working, h₁.mem_working, List.mem_toFinset]
    simp
  cyclic_multiRef b hb := hmem b (List.mem_toFinset.1 hb)
  labelled := h₂.labelled h₁.labelled
  sameObjects := h₁.sameObjects.trans h₂.sameObjects
  lastRescued_eq := h₂.lastRescued_eq.trans h₁.lastRescued_eq
  collecting_eq := h₂.sameBooks.collecting_eq.trans h₁.collecting_eq
  sameTotals := h₁.sameTotals.trans h₂.sameBooks.sameTotals

/-! ### Sweeping -/

/-- A sweep is a matter of the working table alone. -/
lemma Swept.table_of_ne (h : c.Swept c') (hp : p ≠ .working) : c'.table p = c.table p := by
  cases p with
  | zeroCount => exact h.zeroCount_eq
  | multiRef => exact h.multiRef_eq
  | working => exact absurd rfl hp

lemma Swept.mem_table (h : c.Swept c') (p : Partition) (b : UInt64) :
    b ∈ c'.table p ↔ p ≠ .working ∧ b ∈ c.table p := by
  by_cases hp : p = .working
  · subst hp
    simp only [ne_eq, not_true_eq_false, false_and, iff_false]
    exact h.not_mem_working b
  · simp [h.table_of_ne hp, hp]

lemma Swept.isTracked_iff (h : c.Swept c') (hc : c.Disjoint) (b : UInt64) :
    c'.isTracked b = true ↔ c.isTracked b = true ∧ b ∉ c.working := by
  simp only [Partitions.isTracked_iff, h.mem_table]
  constructor
  · rintro ⟨p, hp, hb⟩
    exact ⟨⟨p, hb⟩, fun hw => hp (hc (q := .working) hb hw)⟩
  · rintro ⟨⟨p, hb⟩, hw⟩
    refine ⟨p, ?_, hb⟩
    rintro rfl
    exact hw hb

/-- A sweep frees no object that stays tracked, since none of those is in the working table too. -/
lemma Swept.partitioned (h : c.Swept c') (hc : c.Partitioned) : c'.Partitioned where
  labelled p b hb := by
    rw [h.state?_eq]
    exact hc.labelled ((h.mem_table p b).1 hb).2
  live p b hb := by
    obtain ⟨hp, hb⟩ := (h.mem_table p b).1 hb
    rw [h.live_iff]
    exact ⟨fun hw => hp (hc.disjoint (q := .working) hb hw), hc.live hb⟩
  ne_zero p b hb := hc.ne_zero ((h.mem_table p b).1 hb).2
  suits p b hb := by
    rw [h.refs_eq]
    exact hc.suits ((h.mem_table p b).1 hb).2

/-! ### Condemning everything -/

/-- Condemning objects of one table keeps the invariant, whatever their counts. -/
lemma Condemned.partitioned {as : List UInt64} (h : c.Condemned c' source as)
    (hc : c.Partitioned) (hs : source ≠ .working) (has : ∀ a ∈ as, a ∈ c.table source) :
    c'.Partitioned := by
  have htable {p b} (hb : b ∈ c'.table p) : b ∈ c.table p ∨ p = .working ∧ b ∈ as := by
    by_cases hp : p = .working
    · subst hp
      rcases (h.mem_working b).1 hb with hb | hb
      · exact .inl hb
      · exact .inr ⟨rfl, hb⟩
    by_cases hps : p = source
    · subst hps
      exact .inl ((h.mem_source b).1 hb).1
    · rw [h.table_of_ne p hps hp] at hb
      exact .inl hb
  -- an object is where it was, or in the working table and from the source
  constructor
  case labelled => exact h.labelled hc.labelled
  case live =>
    intro p b hb
    rw [h.sameObjects.live_iff]
    rcases htable hb with hb | ⟨-, hb⟩
    · exact hc.live hb
    · exact hc.live (has b hb)
  case ne_zero =>
    intro p b hb
    rcases htable hb with hb | ⟨-, hb⟩
    · exact hc.ne_zero hb
    · exact hc.ne_zero (has b hb)
  case suits =>
    intro p b hb
    rw [h.sameObjects.refs_eq]
    rcases htable hb with hb | ⟨rfl, -⟩
    · exact hc.suits hb
    · trivial

/-- All that was tracked is in the working table. -/
structure AllCondemned (c c' : Collector δ) : Prop where
  partitioned : c'.Partitioned
  mem_working : ∀ b, b ∈ c'.working ↔ c.isTracked b = true
  not_mem_zeroCount : ∀ b, b ∉ c'.zeroCount
  not_mem_multiRef : ∀ b, b ∉ c'.multiRef
  heap_eq : c'.heap = (c.zeroCount.addresses ++ c.multiRef.addresses).foldl
    (fun h a => h.setState a .working) c.heap
  lastRescued_eq : c'.lastRescued = c.lastRescued
  sameBooks : c.SameBooks c'

lemma AllCondemned.sameObjects (h : c.AllCondemned c') : c.heap.SameObjects c'.heap := by
  rw [h.heap_eq]
  exact .foldl_setState ..

lemma AllCondemned.isTracked_iff (h : c.AllCondemned c') (b : UInt64) :
    c'.isTracked b = true ↔ c.isTracked b = true := by
  rw [← h.mem_working, Partitions.isTracked_iff]
  constructor
  · rintro ⟨p, hp⟩
    cases p with
    | zeroCount => exact absurd hp (h.not_mem_zeroCount b)
    | multiRef => exact absurd hp (h.not_mem_multiRef b)
    | working => exact hp
  · exact fun hb => ⟨.working, hb⟩

/-- Both tables can be drained into the working one, whatever it holds already. A teardown needs no
empty working table to begin. -/
lemma condemnAll_allCondemned (hc : c.Partitioned) :
    ∃ c', condemnAll.run c = .ok () c' ∧ c.AllCondemned c' := by
  obtain ⟨c₁, hr₁, h₁⟩ :=
    drain_condemned hc.disjoint (show Partition.zeroCount ≠ .working by decide)
  have hc₁ := h₁.partitioned hc (by decide) (fun _ => id)
  obtain ⟨c₂, hr₂, h₂⟩ :=
    drain_condemned hc₁.disjoint (show Partition.multiRef ≠ .working by decide)
  have hmulti : c₁.multiRef = c.multiRef := h₁.table_of_ne .multiRef (by decide) (by decide)
  have hzero : c₂.zeroCount = c₁.zeroCount := h₂.table_of_ne .zeroCount (by decide) (by decide)
  refine ⟨c₂, ?_, ?_⟩
  · rw [List.forM_eq_forM] at hr₁ hr₂
    simp [condemnAll, hr₁, hr₂]
  constructor
  case partitioned => exact h₂.partitioned hc₁ (by decide) (fun _ => id)
  -- the first drain leaves the multi-ref table to the second
  case mem_working =>
    intro b
    rw [h₂.mem_working, h₁.mem_working, Partitions.isTracked_iff]
    show (b ∈ c.working ∨ b ∈ c.zeroCount) ∨ b ∈ c₁.multiRef ↔ _
    rw [hmulti]
    constructor
    · rintro ((hb | hb) | hb)
      · exact ⟨.working, hb⟩
      · exact ⟨.zeroCount, hb⟩
      · exact ⟨.multiRef, hb⟩
    · rintro ⟨p, hb⟩
      cases p with
      | zeroCount => exact .inl (.inr hb)
      | multiRef => exact .inr hb
      | working => exact .inl (.inl hb)
  case not_mem_zeroCount =>
    intro b hb
    rw [hzero] at hb
    have := (h₁.mem_source b).1 hb
    exact this.2 this.1
  case not_mem_multiRef =>
    intro b hb
    have := (h₂.mem_source b).1 hb
    exact this.2 this.1
  case heap_eq =>
    rw [h₂.heap_eq, h₁.heap_eq, List.foldl_append]
    exact congrArg (fun t : Table => t.addresses.foldl _ _) hmulti
  case lastRescued_eq => exact h₂.lastRescued_eq.trans h₁.lastRescued_eq
  case sameBooks => exact h₁.sameBooks.trans h₂.sameBooks

end Collector

end HybridGC
