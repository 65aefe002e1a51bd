import HybridGC.Proofs.Counts

/-!
# What the operations rearrange

What an operation of a collector does where nothing is known but that headers name the tables of
their objects: in particular out of order, and where it stops at a fault. All but registering and
sweeping only rearrange what is tracked, and none but sweeping frees anything.
-/

namespace HybridGC

variable {δ : Type}

/-! ### Computations that leave something alone -/

section Leaves

variable {ε σ τ α β : Type} {f : σ → τ} {act : EStateM ε σ α}

/-- What is read off the state is the same after the computation, whether it answers or stops. -/
def Leaves (f : σ → τ) (act : EStateM ε σ α) : Prop :=
  ∀ s, f (after act s) = f s

namespace Leaves

lemma pure (x : α) : Leaves f (Pure.pure x : EStateM ε σ α) :=
  fun _ => rfl

lemma throw (e : ε) : Leaves f (MonadExcept.throw e : EStateM ε σ α) :=
  fun _ => rfl

lemma get : Leaves f (MonadState.get : EStateM ε σ σ) :=
  fun _ => rfl

lemma modifyGet {op : σ → α × σ} (h : ∀ s, f (op s).2 = f s) :
    Leaves f (MonadState.modifyGet op : EStateM ε σ α) :=
  h

lemma update {op : σ → σ} (h : ∀ s, f (op s) = f s) :
    Leaves f (modify op : EStateM ε σ PUnit) :=
  h

/-- One computation after another: if the first stops, it has left alone what it has changed by
then. -/
lemma bind {k : α → EStateM ε σ β} (h : Leaves f act) (hk : ∀ x, Leaves f (k x)) :
    Leaves f (act >>= k) := by
  intro s
  have hs := h s
  rw [after] at hs ⊢
  rw [EStateM.run_bind]
  cases hr : act.run s with
  | ok x s' =>
    rw [hr] at hs
    exact (hk x s').trans hs
  | error e s' =>
    rw [hr] at hs
    exact hs

/-- Nothing is done after a fault. -/
lemma throw_bind (e : ε) {k : α → EStateM ε σ β} :
    Leaves f (MonadExcept.throw e >>= k) :=
  fun _ => rfl

lemma ite {c : Prop} [Decidable c] {other : EStateM ε σ α} (h : Leaves f act)
    (hother : Leaves f other) : Leaves f (if c then act else other) := by
  split
  · exact h
  · exact hother

/-- A computation made for each of some things leaves alone what it leaves alone each time. -/
lemma forM {op : β → EStateM ε σ PUnit} (h : ∀ x, Leaves f (op x)) (xs : List β) :
    Leaves f (xs.forM op) := by
  induction xs with
  | nil => exact .pure _
  | cons x xs ih =>
    rw [List.forM_eq_forM, List.forM_cons]
    exact .bind (h x) fun _ => ih

end Leaves

end Leaves

/-! ### What is freed -/

/-- The address a message reports as freed. -/
def Message.freed? : Message → Option UInt64
  | .freeing a => some a
  | _ => none

namespace Collector

variable {c c' c₁ c₂ c₃ : Collector δ} {p source target : Partition} {a b : UInt64}

/-- The addresses that have been freed, the latest first. -/
def freed (c : Collector δ) : List UInt64 :=
  c.journal.filterMap Message.freed?

lemma freed_put (c : Collector δ) (p : Partition) (e : Entry) : (c.put p e).2.freed = c.freed := by
  rw [put]
  split <;> rw [onTable_eq] <;> rfl

lemma freed_take (c : Collector δ) (p : Partition) (a : UInt64) :
    (c.take p a).2.freed = c.freed := by
  rw [take, onTable_eq]
  rfl

lemma freed_drain (c : Collector δ) (p : Partition) : (c.drain p).2.freed = c.freed := by
  rw [drain, onTable_eq]
  rfl

/-- Registering frees nothing, also where it stops because the object is there. -/
lemma leaves_freed_track (a : UInt64) : Leaves freed (track a : Faulting (Collector δ) Unit) := by
  refine .bind (.modifyGet fun c => c.freed_put _ _) fun r => ?_
  exact .ite (.throw _) (.pure _)

/-- Moving an object frees nothing, also where it stops between the two tables. -/
lemma leaves_freed_transfer (source target : Partition) (a : UInt64) :
    Leaves freed (transfer source target a : Faulting (Collector δ) Unit) := by
  refine .bind (.modifyGet fun c => c.freed_take _ _) fun r => ?_
  cases r with
  | none => exact .throw _
  | some e =>
    refine .bind (.update fun c => rfl) fun _ => ?_
    refine .bind (.modifyGet fun c => c.freed_put _ _) fun r => ?_
    exact .ite (.throw _) (.pure _)

lemma leaves_freed_increment (a : UInt64) :
    Leaves freed (increment a : Faulting (Collector δ) UInt64) := by
  refine .bind .get fun c => .ite (.throw_bind _) ?_
  exact .bind (.update fun c => rfl) fun _ => .pure _

lemma leaves_freed_decrement (a : UInt64) :
    Leaves freed (decrement a : Faulting (Collector δ) UInt64) := by
  refine .bind .get fun c => .ite (.throw_bind _) ?_
  exact .bind (.update fun c => rfl) fun _ => .pure _

lemma leaves_freed_beginPass : Leaves freed (beginPass : Faulting (Collector δ) Unit) := by
  refine .bind .get fun c => .ite (.throw_bind _) ?_
  refine .bind (.update fun c => rfl) fun _ => .bind (.update fun c => rfl) fun _ => ?_
  refine .bind .get fun c => .ite (.throw_bind _) ?_
  exact .bind (.update fun c => rfl) fun _ => .update fun c => rfl

lemma leaves_freed_condemnCycles (roots : List UInt64) :
    Leaves freed (condemnCycles roots : Faulting (Collector δ) (List UInt64)) := by
  refine .bind .get fun c => ?_
  refine .bind (.forM (leaves_freed_transfer _ _) _) fun _ => ?_
  refine .bind (.update fun c => rfl) fun _ => ?_
  exact .ite (.bind (.update fun c => rfl) fun _ => .pure _) (.pure _)

lemma leaves_freed_condemn (e : Entry) :
    Leaves freed (condemn e : Faulting (Collector δ) Unit) := by
  refine .bind (.update fun c => rfl) fun _ => ?_
  refine .bind (.modifyGet fun c => c.freed_put _ _) fun r => ?_
  exact .ite (.throw _) (.pure _)

lemma leaves_freed_condemnAll : Leaves freed (condemnAll : Faulting (Collector δ) Unit) := by
  refine .bind (.modifyGet fun c => c.freed_drain _) fun es => ?_
  refine .bind (.forM leaves_freed_condemn es) fun _ => ?_
  exact .bind (.modifyGet fun c => c.freed_drain _) fun es => .forM leaves_freed_condemn es

lemma freed_rescue (c : Collector δ) (w : UInt64) : (c.rescue w).2.freed = c.freed := by
  rw [rescue]
  split
  case h_1 => rfl
  case h_2 e c₁ h =>
    have htake := c.freed_take .working w
    rw [h] at htake
    exact (freed_put _ _ _).trans htake

/-- Freeing some addresses reports them in their order. -/
lemma freed_foldl_free (as : List UInt64) (c : Collector δ) :
    (as.foldl (fun c a => c.free a) c).freed = as.reverse ++ c.freed := by
  induction as generalizing c with
  | nil => rfl
  | cons a as ih =>
    rw [List.foldl_cons, ih, List.reverse_cons, List.append_assoc]
    rfl

/-- A sweep frees what is in the working table, each once. -/
lemma freed_sweep (c : Collector δ) : c.sweep.2.freed = c.working.addresses.reverse ++ c.freed :=
  freed_foldl_free _ c

lemma freed_finishPass (c : Collector δ) :
    c.finishPass.2.freed = c.working.addresses.reverse ++ c.freed :=
  freed_foldl_free _ c

/-! ### What moves between the tables -/

/-- Entries have at most moved between the tables, and headers have followed them. -/
structure Rearranged (c c' : Collector δ) : Prop where
  labelled : c'.Labelled
  isTracked_iff : ∀ a, c'.isTracked a = true ↔ c.isTracked a = true
  live_iff : ∀ a, c'.heap.Live a ↔ c.heap.Live a
  state?_eq : ∀ a, c.isTracked a = false → c'.heap.state? a = c.heap.state? a
  cursor_eq : c'.heap.cursor = c.heap.cursor

lemma isTracked_eq_false {c : Collector δ} {a : UInt64} (h : c.isTracked a = false)
    (p : Partition) : a ∉ c.table p := by
  intro ha
  rw [Partitions.isTracked_iff.2 ⟨p, ha⟩] at h
  contradiction

namespace Rearranged

lemma trans (h : c₁.Rearranged c₂) (h' : c₂.Rearranged c₃) : c₁.Rearranged c₃ where
  labelled := h'.labelled
  isTracked_iff a := (h'.isTracked_iff a).trans (h.isTracked_iff a)
  live_iff a := (h'.live_iff a).trans (h.live_iff a)
  state?_eq a ha := by
    have ha' : c₂.isTracked a = false := by rwa [← Bool.not_eq_true, h.isTracked_iff,
      Bool.not_eq_true]
    rw [h'.state?_eq a ha', h.state?_eq a ha]
  cursor_eq := h'.cursor_eq.trans h.cursor_eq

/-- What leaves the tables alone, and of the blocks what is asked for here. -/
lemma of_table_eq (hc : c.Labelled) (hmem : ∀ p b, b ∈ c'.table p ↔ b ∈ c.table p)
    (hstate : ∀ a, c'.heap.state? a = c.heap.state? a)
    (hlive : ∀ a, c'.heap.Live a ↔ c.heap.Live a) (hcursor : c'.heap.cursor = c.heap.cursor) :
    c.Rearranged c' where
  labelled p a ha := by
    rw [hstate]
    exact hc ((hmem p a).1 ha)
  isTracked_iff a := by simp [Partitions.isTracked_iff, hmem]
  live_iff := hlive
  state?_eq a _ := hstate a
  cursor_eq := hcursor

lemma refl (hc : c.Labelled) : c.Rearranged c :=
  .of_table_eq hc (fun _ _ => Iff.rfl) (fun _ => rfl) (fun _ => Iff.rfl) rfl

end Rearranged

/-- Moving an entry from one table to another rearranges, if it is in the first. -/
lemma Moved.rearranged (h : c.Moved c' source target a) (hc : c.Labelled) (ha : a ∈ c.table source)
    (hne : source ≠ target) : c.Rearranged c' where
  labelled := h.labelled hc ha hne
  isTracked_iff b := by
    simp only [Partitions.isTracked_iff, h.mem_iff hc.disjoint ha hne]
    by_cases hb : b = a
    · subst hb
      simp only [if_true, exists_eq, true_iff]
      exact ⟨source, ha⟩
    · simp [hb]
  live_iff b := by simp [h.heap_eq]
  state?_eq b hb := by
    have hne : b ≠ a := by
      rintro rfl
      exact isTracked_eq_false hb source ha
    simp [h.heap_eq, Heap.state?_setState, hne]
  cursor_eq := by simp [h.heap_eq]

/-- Condemning objects of a table rearranges, whichever they are. -/
lemma Condemned.rearranged {as : List UInt64} (h : c.Condemned c' source as) (hc : c.Labelled)
    (hs : source ≠ .working) (has : ∀ a ∈ as, a ∈ c.table source) : c.Rearranged c' where
  labelled := h.labelled hc
  isTracked_iff b := by
    simp only [Partitions.isTracked_iff]
    constructor
    · rintro ⟨p, hp⟩
      -- what is in the working table was there before or has been condemned; the source has lost
      -- what was condemned, and the third table is the same
      by_cases hw : p = .working
      · subst hw
        rcases (h.mem_working b).1 hp with hb | hb
        · exact ⟨.working, hb⟩
        · exact ⟨source, has b hb⟩
      by_cases hps : p = source
      · subst hps
        exact ⟨p, ((h.mem_source b).1 hp).1⟩
      · rw [h.table_of_ne p hps hw] at hp
        exact ⟨p, hp⟩
    · rintro ⟨p, hp⟩
      by_cases hb : b ∈ as
      · exact ⟨.working, (h.mem_working b).2 (.inr hb)⟩
      by_cases hw : p = .working
      · subst hw
        exact ⟨.working, (h.mem_working b).2 (.inl hp)⟩
      by_cases hps : p = source
      · subst hps
        exact ⟨p, (h.mem_source b).2 ⟨hp, hb⟩⟩
      · rw [← h.table_of_ne p hps hw] at hp
        exact ⟨p, hp⟩
  live_iff b := h.sameObjects.live_iff b
  state?_eq b hb := by
    have hnot : b ∉ as := fun hmem => isTracked_eq_false hb source (has b hmem)
    rw [h.heap_eq, Heap.state?_foldl_setState, if_neg hnot]
  cursor_eq := h.sameObjects.cursor_eq

/-- A transfer rearranges whether or not the object is where it is sought: if it is not, the
transfer stops before it has changed a table. -/
lemma rearranged_transfer (hc : c.Labelled) (hne : source ≠ target) (a : UInt64) :
    c.Rearranged (after (transfer source target a) c) := by
  by_cases ha : a ∈ c.table source
  · obtain ⟨c', hr, hm⟩ := transfer_moved hne ha (hc.disjoint.not_mem_table ha hne)
    rw [after, hr]
    exact hm.rearranged hc ha hne
  · have hafter : after (transfer source target a) c = (c.take source a).2 := by
      simp [after, transfer, take_fst, ha]
    have hheap := c.heap_take source a
    rw [hafter]
    refine .of_table_eq hc (fun p b => ?_) (by simp) (by simp) (by simp)
    rw [mem_table_take]
    constructor
    · exact And.left
    · refine fun hb => ⟨hb, ?_⟩
      rintro rfl rfl
      exact ha hb

/-- Taking a reference moves nothing by itself, and stops before it changes a count that would
overflow. -/
lemma rearranged_increment (hc : c.Labelled) (a : UInt64) :
    c.Rearranged (after (increment a) c) := by
  by_cases hn : (c.heap.refs a).toNat + 1 = UInt64.size
  · rw [after, increment_of_eq hn]
    exact .refl hc
  · rw [after, increment_of_ne hn]
    exact .of_table_eq hc (fun _ _ => Iff.rfl) (by simp) (by simp) (by simp)

/-- Dropping a reference moves nothing by itself, and stops before it changes a count of zero. -/
lemma rearranged_decrement (hc : c.Labelled) (a : UInt64) :
    c.Rearranged (after (decrement a) c) := by
  by_cases hn : c.heap.refs a = 0
  · rw [after, decrement_of_eq hn]
    exact .refl hc
  · rw [after, decrement_of_ne hn]
    exact .of_table_eq hc (fun _ _ => Iff.rfl) (by simp) (by simp) (by simp)

/-- The candidates change tables and labels together, and the working table has to be empty for
that: what was in it would be lost. -/
lemma Begun.rearranged (h : c.Begun c') (hc : c.Labelled) (hw : ∀ b, b ∉ c.working) :
    c.Rearranged c' where
  labelled := h.labelled hc
  isTracked_iff b := by
    simp only [Partitions.isTracked_iff]
    constructor
    · rintro ⟨p, hp⟩
      -- the old zero-count table is the working table now, and the new one is empty
      cases p with
      | zeroCount => exact absurd hp (h.not_mem_zeroCount b)
      | multiRef =>
        simp only [Partitions.table, h.multiRef_eq] at hp
        exact ⟨.multiRef, hp⟩
      | working =>
        simp only [Partitions.table, h.working_eq] at hp
        exact ⟨.zeroCount, hp⟩
    · rintro ⟨p, hp⟩
      cases p with
      | zeroCount =>
        refine ⟨.working, ?_⟩
        simp only [Partitions.table, h.working_eq]
        exact hp
      | multiRef =>
        refine ⟨.multiRef, ?_⟩
        simp only [Partitions.table, h.multiRef_eq]
        exact hp
      | working => exact absurd hp (hw b)
  live_iff b := h.sameObjects.live_iff b
  state?_eq b hb := by
    have hnot : b ∉ c.zeroCount.addresses := isTracked_eq_false hb .zeroCount
    rw [h.heap_eq, Heap.state?_foldl_setState, if_neg hnot]
  cursor_eq := h.sameObjects.cursor_eq

/-- Beginning a pass begins one, or stops before the tables are exchanged. -/
lemma rearranged_beginPass (hc : c.Labelled) : c.Rearranged (after beginPass c) := by
  by_cases hcoll : c.collecting = true
  · have hafter : after beginPass c = c := by simp [after, beginPass, hcoll]
    rw [hafter]
    exact .refl hc
  rw [Bool.not_eq_true] at hcoll
  by_cases hempty : c.working.isEmpty = true
  · have hw := Table.isEmpty_iff.1 hempty
    obtain ⟨c', hr, hbegun⟩ := beginPass_begun hcoll hw
    rw [after, hr]
    exact hbegun.rearranged hc hw
  · rw [Bool.not_eq_true] at hempty
    have hafter : after beginPass c = ({ c with collecting := true, lastRescued := 0 } :
        Collector δ).note (.passBegun c.zeroCount.size c.multiRef.size) := by
      simp [after, beginPass, hcoll, note, hempty]
    rw [hafter]
    exact .of_table_eq hc (fun _ _ => Iff.rfl) (fun _ => rfl) (fun _ => Iff.rfl) rfl

lemma rearranged_rescue (hc : c.Labelled) (w : UInt64) : c.Rearranged (c.rescue w).2 := by
  by_cases hw : w ∈ c.working
  · obtain ⟨c₁, hm, hr⟩ := c.rescue_of_mem hw
    rw [hr]
    have hmoved := hm.rearranged hc hw (by decide)
    exact { hmoved with }
  · rw [c.rescue_of_not_mem hw]
    exact .refl hc

lemma rearranged_condemnCycles (hc : c.Labelled) (roots : List UInt64) :
    c.Rearranged (after (condemnCycles roots) c) := by
  obtain ⟨c₁, journal, hr, hcond⟩ := condemnCycles_condemned hc.disjoint roots
  have hmoved := hcond.rearranged hc (by decide) fun a => mem_multiRef_of_mem_cyclic
  rw [after, hr]
  exact { hmoved with }

/-- Condemning all objects rearranges, also while a pass is open: what is being collected already
stays there. -/
lemma rearranged_condemnAll (hc : c.Labelled) : c.Rearranged (after condemnAll c) := by
  obtain ⟨c₁, hr₁, hcond₁⟩ :=
    drain_condemned hc.disjoint (show Partition.zeroCount ≠ .working by decide)
  have h₁ := hcond₁.rearranged hc (by decide) fun _ => id
  obtain ⟨c₂, hr₂, hcond₂⟩ :=
    drain_condemned h₁.labelled.disjoint (show Partition.multiRef ≠ .working by decide)
  have hafter : after condemnAll c = c₂ := by
    rw [List.forM_eq_forM] at hr₁ hr₂
    simp [after, condemnAll, hr₁, hr₂]
  rw [hafter]
  exact h₁.trans (hcond₂.rearranged h₁.labelled (by decide) fun _ => id)

end Collector

end HybridGC
