import HybridGC.Proofs.Collector
import HybridGC.Table.Exchange

/-!
# Moving entries loses nothing

Two tables that entries are moved between hold the same addresses together before and after, however
often and in whatever order single entries are moved and whole tables are emptied into one another.
An entry is lost only where it displaces another one of its address, so as many are lost as there
were addresses in both tables and are not any more. A collector moves entries between tables that
share no address, and there nothing is ever displaced.
-/

namespace HybridGC

namespace Exchange

variable {x y z : Exchange} {side t : Side} {a b : UInt64} {e : Entry} {m n : Nat}

/-! ### Single operations -/

lemma partition_injective : Function.Injective Side.partition := by
  intro s t h
  cases s <;> cases t <;> first | rfl | cases h

lemma other_ne (side : Side) : side.other ≠ side := by
  cases side <;> decide

lemma eq_or_eq_other (side t : Side) : t = side ∨ t = side.other := by
  cases side <;> cases t <;> simp [Side.other]

/-- There are only the two sides. -/
lemma exists_side_iff {p : Side → Prop} (side : Side) :
    (∃ t, p t) ↔ p side ∨ p side.other := by
  constructor
  · rintro ⟨t, ht⟩
    rcases eq_or_eq_other side t with rfl | rfl
    · exact .inl ht
    · exact .inr ht
  · rintro (h | h) <;> exact ⟨_, h⟩

lemma insert_fst : (insert side e x).1 = if e.address ∈ x.table side then some e else none :=
  Collector.put_fst ..

lemma mem_table_insert :
    b ∈ (insert side e x).2.table t ↔ t = side ∧ b = e.address ∨ b ∈ x.table t := by
  rw [insert, table, Collector.mem_table_put, partition_injective.eq_iff, table]

/-- Putting an entry into one table leaves the other as it is. -/
lemma table_insert_of_ne (h : t ≠ side) : (insert side e x).2.table t = x.table t :=
  Collector.table_put_of_ne (partition_injective.ne h)

lemma erase_fst : (erase side a x).1 = if a ∈ x.table side then some (.ofAddress a) else none :=
  Collector.take_fst ..

lemma mem_table_erase :
    b ∈ (erase side a x).2.table t ↔ b ∈ x.table t ∧ (t = side → b ≠ a) := by
  rw [erase, table, Collector.mem_table_take, partition_injective.eq_iff, table]

lemma drain_fst : (drain side x).1 = (x.table side).toList := by
  rw [drain, Collector.drain, Collector.onTable_eq]
  rfl

/-- Draining empties one side and leaves the other. -/
lemma mem_table_drain : b ∈ (drain side x).2.table t ↔ t ≠ side ∧ b ∈ x.table t := by
  rw [drain, Collector.drain, Collector.onTable_eq, table, table]
  by_cases h : t = side
  · subst h
    simp
  · simp [Partitions.table_setTable_of_ne _ _ (partition_injective.ne (Ne.symm h)), h]

/-- An insertion displaces an entry or makes the table larger by one. -/
lemma displaced_add_size_insert (x : Exchange) (side : Side) (e : Entry) :
    (insert side e x).1.toList.length + ((insert side e x).2.table side).size =
      (x.table side).size + 1 := by
  rw [insert_fst, ← Table.card_toFinset, ← Table.card_toFinset]
  by_cases he : e.address ∈ x.table side
  · have hset : ((insert side e x).2.table side).toFinset = (x.table side).toFinset := by
      ext b
      rw [Table.mem_toFinset, Table.mem_toFinset, mem_table_insert]
      constructor
      · rintro (⟨-, rfl⟩ | hb)
        · exact he
        · exact hb
      · exact .inr
    rw [hset, if_pos he, Option.toList_some, List.length_singleton]
    omega
  · have hset : ((insert side e x).2.table side).toFinset =
        Insert.insert e.address (x.table side).toFinset := by
      ext b
      rw [Finset.mem_insert, Table.mem_toFinset, Table.mem_toFinset, mem_table_insert]
      simp
    rw [hset, if_neg he, Finset.card_insert_of_notMem (Table.mem_toFinset.not.2 he)]
    simp

/-! ### Several entries -/

lemma mem_table_insertAll (es : List Entry) :
    b ∈ (insertAll side es x).2.table t ↔
      t = side ∧ b ∈ es.map (·.address) ∨ b ∈ x.table t := by
  induction es generalizing x with
  | nil => simp [insertAll]
  | cons e es ih =>
    simp only [insertAll]
    rw [ih, mem_table_insert, List.map_cons, List.mem_cons]
    tauto

lemma table_insertAll_of_ne (h : t ≠ side) (es : List Entry) :
    (insertAll side es x).2.table t = x.table t := by
  induction es generalizing x with
  | nil => rfl
  | cons e es ih =>
    simp only [insertAll]
    rw [ih, table_insert_of_ne h]

/-- What is put into a table makes it larger, but for the entries that are displaced. -/
lemma displaced_add_size_insertAll (x : Exchange) (side : Side) (es : List Entry) :
    (insertAll side es x).1 + ((insertAll side es x).2.table side).size =
      (x.table side).size + es.length := by
  induction es generalizing x with
  | nil => simp [insertAll]
  | cons e es ih =>
    have hone := displaced_add_size_insert x side e
    have hrest := ih (insert side e x).2
    simp only [insertAll, List.length_cons]
    omega

/-! ### Moving -/

/-- How many entries the two tables hold. -/
def size (x : Exchange) : Nat :=
  x.left.size + x.right.size

lemma size_eq (x : Exchange) (side : Side) :
    x.size = (x.table side).size + (x.table side.other).size := by
  cases side
  · rfl
  · exact Nat.add_comm ..

/-- The addresses that both tables hold. -/
def shared (x : Exchange) : Finset UInt64 :=
  x.left.toFinset ∩ x.right.toFinset

/-- Moving has led from the one exchange to the other: the same addresses are held, and entries are
missing as far as they have been displaced. -/
structure Moves (x : Exchange) (displaced : Nat) (y : Exchange) : Prop where
  mem_iff : ∀ a, (∃ t, a ∈ y.table t) ↔ ∃ t, a ∈ x.table t
  displaced_add_size : displaced + y.size = x.size

namespace Moves

lemma refl (x : Exchange) : Moves x 0 x :=
  ⟨fun _ => Iff.rfl, Nat.zero_add _⟩

lemma trans (h : Moves x m y) (h' : Moves y n z) : Moves x (m + n) z where
  mem_iff a := (h'.mem_iff a).trans (h.mem_iff a)
  displaced_add_size := by
    rw [← h.displaced_add_size, ← h'.displaced_add_size]
    omega

/-- As many entries have been displaced as addresses have ceased to be held twice. -/
lemma displaced_add_shared (h : Moves x n y) : n + y.shared.card = x.shared.card := by
  have hcard (u : Exchange) :
      (u.left.toFinset ∪ u.right.toFinset).card + u.shared.card = u.size := by
    rw [shared, Finset.card_union_add_card_inter, Table.card_toFinset, Table.card_toFinset, size]
  have hunion : y.left.toFinset ∪ y.right.toFinset = x.left.toFinset ∪ x.right.toFinset := by
    ext a
    simp only [Finset.mem_union, Table.mem_toFinset]
    exact ((exists_side_iff .left).symm.trans (h.mem_iff a)).trans (exists_side_iff .left)
  have hx := hcard x
  have hy := hcard y
  have hsize := h.displaced_add_size
  rw [hunion] at hy
  omega

end Moves

lemma table_erase_of_ne (h : t ≠ side) : (erase side a x).2.table t = x.table t :=
  Collector.table_take_of_ne (partition_injective.ne h)

lemma table_drain_of_ne (h : t ≠ side) : (drain side x).2.table t = x.table t := by
  rw [drain, Collector.drain, Collector.onTable_eq]
  exact Partitions.table_setTable_of_ne _ _ (partition_injective.ne (Ne.symm h))

/-- An entry that is there is taken out of one table and put into the other. -/
lemma move_of_mem (h : a ∈ x.table side) :
    x.move side a =
      (some (insert side.other (.ofAddress a) (erase side a x).2).1,
        (insert side.other (.ofAddress a) (erase side a x).2).2) := by
  have hfst : (erase side a x).1 = some (.ofAddress a) := by rw [erase_fst, if_pos h]
  rw [move]
  split
  case h_1 he => simp [he] at hfst
  case h_2 e y he =>
    rw [he] at hfst ⊢
    cases hfst
    rfl

lemma move_of_not_mem (h : a ∉ x.table side) : x.move side a = (none, (erase side a x).2) := by
  have hfst : (erase side a x).1 = none := by rw [erase_fst, if_neg h]
  rw [move]
  split
  case h_1 he => rw [he]
  case h_2 e y he => simp [he] at hfst

/-- Moving the entry of an address takes it out of the one table and adds it to the other. -/
lemma mem_table_move (h : a ∈ x.table side) :
    (∀ b, b ∈ (x.move side a).2.table side ↔ b ≠ a ∧ b ∈ x.table side) ∧
      ∀ b, b ∈ (x.move side a).2.table side.other ↔ b = a ∨ b ∈ x.table side.other := by
  rw [move_of_mem h]
  constructor
  · intro b
    rw [table_insert_of_ne (other_ne side).symm, mem_table_erase]
    simp [and_comm]
  · intro b
    rw [mem_table_insert, mem_table_erase]
    simp [other_ne]

/-- Moving one entry loses no address. If the other table has the address already, one of the two
entries is lost. -/
lemma moves_move (x : Exchange) (side : Side) (a : UInt64) :
    Moves x (x.move side a).1.join.toList.length (x.move side a).2 := by
  by_cases h : a ∈ x.table side
  · obtain ⟨hsource, htarget⟩ := mem_table_move h
    refine ⟨fun b => ?_, ?_⟩
    · rw [exists_side_iff side, exists_side_iff side, hsource, htarget]
      by_cases hb : b = a <;> simp [hb, h]
    -- one table is smaller by one, and the other larger by one unless an entry is displaced
    · have hout := Table.size_of_mem_iff_ne hsource h
      have hin := displaced_add_size_insert (erase side a x).2 side.other (.ofAddress a)
      rw [table_erase_of_ne (other_ne side)] at hin
      rw [size_eq _ side, size_eq x side]
      rw [move_of_mem h] at hout ⊢
      simp only [Option.join_some] at hout ⊢
      omega
  · have hsame (b : UInt64) : b ∈ (erase side a x).2.table side ↔ b ∈ x.table side := by
      rw [mem_table_erase]
      exact ⟨And.left, fun hb => ⟨hb, fun _ hba => h (hba ▸ hb)⟩⟩
    have hother := table_erase_of_ne (a := a) (x := x) (other_ne side)
    rw [move_of_not_mem h]
    refine ⟨fun b => ?_, ?_⟩
    · rw [exists_side_iff side, exists_side_iff side, hsame, hother]
    · have hset : ((erase side a x).2.table side).toFinset = (x.table side).toFinset := by
        ext b
        rw [Table.mem_toFinset, Table.mem_toFinset, hsame]
      rw [size_eq _ side, size_eq x side, hother, ← Table.card_toFinset, hset,
        Table.card_toFinset]
      simp

lemma length_drain_fst : (drain side x).1.length = (x.table side).size := by
  rw [drain_fst, Table.size_eq_length, Table.addresses, List.length_map]

lemma not_mem_table_drainInto (b : UInt64) : b ∉ (x.drainInto side).2.2.table side := by
  rw [drainInto, table_insertAll_of_ne (other_ne side).symm, mem_table_drain]
  simp

/-- The other table has what both had. -/
lemma mem_table_drainInto_other (b : UInt64) :
    b ∈ (x.drainInto side).2.2.table side.other ↔
      b ∈ x.table side ∨ b ∈ x.table side.other := by
  rw [drainInto, mem_table_insertAll, table_drain_of_ne (other_ne side), drain_fst]
  simp [Table.mem_iff_mem_addresses, Table.addresses]

/-- Emptying a table into the other one loses no address. -/
lemma moves_drainInto (x : Exchange) (side : Side) :
    Moves x (x.drainInto side).2.1 (x.drainInto side).2.2 := by
  refine ⟨fun b => ?_, ?_⟩
  · rw [exists_side_iff side, exists_side_iff side, mem_table_drainInto_other]
    exact or_iff_right (not_mem_table_drainInto b)
  · have hin := displaced_add_size_insertAll (drain side x).2 side.other (drain side x).1
    have hnone : ((x.drainInto side).2.2.table side).size = 0 := by
      rw [← Table.card_toFinset, Finset.card_eq_zero, Finset.eq_empty_iff_forall_notMem]
      exact fun b hb => not_mem_table_drainInto b (Table.mem_toFinset.1 hb)
    rw [table_drain_of_ne (other_ne side), length_drain_fst] at hin
    rw [size_eq _ side, size_eq x side, hnone]
    simp only [drainInto] at hin ⊢
    omega

/-- Emptying a table into the other one moves all it held, and displaces what both held. -/
theorem drainInto_spec (x : Exchange) (side : Side) :
    (x.drainInto side).1 = (x.table side).size ∧ (x.drainInto side).2.1 = x.shared.card ∧
      (∀ b, b ∉ (x.drainInto side).2.2.table side) ∧
      ∀ b, b ∈ (x.drainInto side).2.2.table side.other ↔
        b ∈ x.table side ∨ b ∈ x.table side.other := by
  refine ⟨length_drain_fst, ?_, not_mem_table_drainInto, mem_table_drainInto_other⟩
  -- nothing is held twice when one of the tables is empty
  have hshared : (x.drainInto side).2.2.shared = ∅ := by
    rw [Finset.eq_empty_iff_forall_notMem]
    intro b hb
    simp only [shared, Finset.mem_inter, Table.mem_toFinset] at hb
    cases side
    · exact not_mem_table_drainInto b hb.1
    · exact not_mem_table_drainInto b hb.2
  have hdisplaced := (moves_drainInto x side).displaced_add_shared
  rwa [hshared, Finset.card_empty, Nat.add_zero] at hdisplaced

/-! ### Any number of moves -/

/-- A way to move entries. -/
inductive Movement where
  | entry (side : Side) (a : UInt64)
  | everything (side : Side)

/-- Move entries. Answers how many displaced another. -/
def perform (x : Exchange) : Movement → Nat × Exchange
  | .entry side a => ((x.move side a).1.join.toList.length, (x.move side a).2)
  | .everything side => (x.drainInto side).2

/-- Move entries several times. Answers how many displaced another altogether. -/
def run (x : Exchange) : List Movement → Nat × Exchange
  | [] => (0, x)
  | m :: ms => ((x.perform m).1 + (run (x.perform m).2 ms).1, (run (x.perform m).2 ms).2)

/-- The step: either way of moving loses no address. -/
lemma moves_perform (x : Exchange) (m : Movement) : Moves x (x.perform m).1 (x.perform m).2 := by
  cases m with
  | entry side a => exact moves_move x side a
  | everything side => exact moves_drainInto x side

/-- The run: any sequence of moves loses none, and the displaced entries are counted throughout. -/
lemma moves_run (x : Exchange) (ms : List Movement) : Moves x (x.run ms).1 (x.run ms).2 := by
  induction ms generalizing x with
  | nil => exact .refl x
  | cons m ms ih => exact (moves_perform x m).trans (ih _)

/-- However entries are moved, no address is lost and none comes up, and as many entries are
displaced as addresses cease to be held twice: none, if the tables share no address to begin with,
and then they never do. -/
theorem run_loses_nothing (x : Exchange) (ms : List Movement) :
    (∀ a, (∃ t, a ∈ (x.run ms).2.table t) ↔ ∃ t, a ∈ x.table t) ∧
      (x.run ms).1 + (x.run ms).2.size = x.size ∧
      (x.run ms).1 + (x.run ms).2.shared.card = x.shared.card ∧
      (x.shared = ∅ → (x.run ms).1 = 0 ∧ (x.run ms).2.shared = ∅) := by
  have h := moves_run x ms
  have hshared := h.displaced_add_shared
  refine ⟨h.mem_iff, h.displaced_add_size, hshared, fun hnone => ?_⟩
  rw [hnone, Finset.card_empty, Nat.add_eq_zero_iff, Finset.card_eq_zero] at hshared
  exact hshared

end Exchange

end HybridGC
