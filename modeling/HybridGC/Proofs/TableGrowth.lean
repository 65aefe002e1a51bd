import HybridGC.Proofs.IterationOrder
import HybridGC.Proofs.TableMap

/-!
# The growth of tables

A table climbs its ladder when an insertion finds as many entries as buckets, one rung at a time,
and never comes down. On an ascending ladder every rung has room for what made the table climb to
it, so the entries outnumber the buckets only on the last rung.
-/

namespace HybridGC

namespace Table

variable {t : Table} {e : Entry} {a : UInt64} {counts : List Nat} {n : Nat}

/-! ### Sizes -/

lemma size_congr {t' : Table} (h : ∀ b, b ∈ t' ↔ b ∈ t) : t'.size = t.size := by
  rw [← card_toFinset, ← card_toFinset]
  congr 1
  ext b
  rw [mem_toFinset, mem_toFinset, h]

lemma size_link (t : Table) (e : Entry) :
    (t.link e).2.size = if e.address ∈ t then t.size else t.size + 1 := by
  have hsize : (t.link e).2.size = if (t.link e).1.isSome then t.size else t.size + 1 := rfl
  rw [hsize, link_fst]
  split <;> rfl

/-- Growth changes the order of the entries and nothing else. -/
lemma perm_toList_rehash (t : Table) : t.rehash.toList.Perm t.toList := by
  rw [toList_rehash]
  exact List.mergeSort_perm _ _

lemma size_rehash (t : Table) : t.rehash.size = t.size :=
  size_congr fun _ => mem_rehash

lemma size_insert (t : Table) (e : Entry) :
    (t.insert e).2.size = if e.address ∈ t then t.size else t.size + 1 := by
  have hgrown : t.grown.size = t.size := size_congr fun _ => mem_grown
  simp only [insert_eq, size_link, mem_grown, hgrown]

lemma size_insert_le (t : Table) (e : Entry) : (t.insert e).2.size ≤ t.size + 1 := by
  rw [size_insert]
  split <;> omega

lemma size_erase_le (t : Table) (a : UInt64) : (t.erase a).2.size ≤ t.size := by
  rw [size_eq_length, size_eq_length, addresses_erase]
  exact List.length_erase_le

/-! ### Climbing -/

lemma growth?_eq_some_iff :
    t.growth? = some n ↔ t.bucketCount ≤ t.size ∧ t.ladder.counts[t.rung + 1]? = some n := by
  rw [growth?]
  split
  case isTrue h => simp [h]
  case isFalse h => simp [h]

lemma growth?_eq_none_iff :
    t.growth? = none ↔ t.size < t.bucketCount ∨ t.ladder.counts.length ≤ t.rung + 1 := by
  rw [growth?]
  split
  case isTrue h => simp [Nat.not_lt.2 h]
  case isFalse h => simp [Nat.lt_of_not_le h]

lemma rung_insert (t : Table) (e : Entry) :
    (t.insert e).2.rung = if t.growth?.isSome then t.rung + 1 else t.rung := by
  rw [insert]
  split
  · exact t.rung_rehash
  · rfl

namespace OnLadder

lemma bucketCount_eq (h : t.OnLadder counts) : counts[t.rung]? = some t.bucketCount :=
  h.laidOut.bucketCount_mem

/-- Only an insertion into a full table climbs, and it climbs one rung. -/
lemma rung_perform (h : t.OnLadder counts) (call : Call) :
    (t.perform call).2.rung = t.rung ∨
      (t.perform call).2.rung = t.rung + 1 ∧ t.bucketCount ≤ t.size ∧
        t.rung + 1 < counts.length ∧ ∃ e, call = .insert e := by
  cases call with
  | insert e =>
    rw [Table.perform, rung_insert]
    cases hgrowth : t.growth? with
    | none => exact .inl rfl
    | some n =>
      obtain ⟨hfull, hnext⟩ := growth?_eq_some_iff.1 hgrowth
      rw [h.counts_eq] at hnext
      exact .inr ⟨rfl, hfull, (List.getElem?_eq_some_iff.1 hnext).1, e, rfl⟩
  | erase a => exact .inl rfl
  | get a => exact .inl rfl
  | contains a => exact .inl rfl
  | size => exact .inl rfl
  | toList => exact .inl rfl
  | drain => exact .inl rfl

/-- The step: no call climbs down. -/
lemma rung_le_perform (h : t.OnLadder counts) (call : Call) :
    t.rung ≤ (t.perform call).2.rung := by
  rcases h.rung_perform call with heq | ⟨heq, -⟩ <;> omega

/-- The run: a table is never on a lower rung than before. -/
lemma rung_le_run (h : t.OnLadder counts) (calls : List Call) :
    t.rung ≤ (t.run calls).2.rung := by
  induction calls generalizing t with
  | nil => exact le_rfl
  | cons call calls ih => exact (h.rung_le_perform call).trans (ih (h.perform call))

/-- On an ascending ladder, higher rungs have more buckets. -/
lemma bucketCount_lt {t' : Table} (hasc : counts.Pairwise (· < ·)) (h : t.OnLadder counts)
    (h' : t'.OnLadder counts) (hlt : t.rung < t'.rung) : t.bucketCount < t'.bucketCount := by
  obtain ⟨hi, hcount⟩ := List.getElem?_eq_some_iff.1 h.bucketCount_eq
  obtain ⟨hi', hcount'⟩ := List.getElem?_eq_some_iff.1 h'.bucketCount_eq
  rw [← hcount, ← hcount']
  exact List.pairwise_iff_getElem.1 hasc _ _ hi hi' hlt

lemma bucketCount_congr {t' : Table} (h : t.OnLadder counts) (h' : t'.OnLadder counts)
    (heq : t.rung = t'.rung) : t.bucketCount = t'.bucketCount := by
  have hcount := h.bucketCount_eq
  rw [heq, h'.bucketCount_eq] at hcount
  exact (Option.some.inj hcount).symm

/-- On an ascending ladder, no higher rung has fewer buckets. If the counts do not ascend this
fails: a table can climb to fewer buckets. -/
lemma bucketCount_le {t' : Table} (hasc : counts.Pairwise (· < ·)) (h : t.OnLadder counts)
    (h' : t'.OnLadder counts) (hle : t.rung ≤ t'.rung) : t.bucketCount ≤ t'.bucketCount := by
  rcases hle.eq_or_lt with heq | hlt
  · exact (bucketCount_congr h h' heq).le
  · exact (bucketCount_lt hasc h h' hlt).le

/-- On an ascending ladder, buckets never become fewer. -/
lemma bucketCount_le_run (hasc : counts.Pairwise (· < ·)) (h : t.OnLadder counts)
    (calls : List Call) : t.bucketCount ≤ (t.run calls).2.bucketCount :=
  bucketCount_le hasc h (h.run calls) (h.rung_le_run calls)

/-- From the last rung there is no way on. -/
lemma bucketCount_run_of_last (h : t.OnLadder counts) (hlast : t.rung + 1 = counts.length)
    (calls : List Call) : (t.run calls).2.bucketCount = t.bucketCount := by
  have hlt := (h.run calls).rung_lt
  have hle := h.rung_le_run calls
  exact bucketCount_congr (h.run calls) h (by omega)

end OnLadder

/-! ### The load -/

/-- Below the last rung of its ladder, the entries of a table do not outnumber its buckets. -/
structure Loaded (counts : List Nat) (t : Table) : Prop where
  onLadder : t.OnLadder counts
  size_le : t.rung + 1 < counts.length → t.size ≤ t.bucketCount

namespace Loaded

/-- What made a table climb is that it was just full. -/
lemma size_eq (h : t.Loaded counts) (hfull : t.bucketCount ≤ t.size)
    (hnext : t.rung + 1 < counts.length) : t.size = t.bucketCount :=
  le_antisymm (h.size_le hnext) hfull

/-- An insertion keeps a table loaded: it has grown before it was overfull. -/
lemma insert (hasc : counts.Pairwise (· < ·)) (h : t.Loaded counts) (e : Entry) :
    (t.insert e).2.Loaded counts where
  onLadder := h.onLadder.insert e
  size_le hnext := by
    have hsize := t.size_insert_le e
    have hon := h.onLadder.insert e
    rw [rung_insert] at hnext
    cases hgrowth : t.growth? with
    | none =>
      -- the table has stayed below the last rung, so it was not full
      have hrung : (t.insert e).2.rung = t.rung := by rw [rung_insert, hgrowth]; rfl
      rw [hgrowth] at hnext
      rcases growth?_eq_none_iff.1 hgrowth with hroom | hlast
      · rw [OnLadder.bucketCount_congr hon h.onLadder hrung]
        omega
      · rw [h.onLadder.counts_eq] at hlast
        exact absurd hnext (Nat.not_lt.2 hlast)
    | some n =>
      have hrung : (t.insert e).2.rung = t.rung + 1 := by rw [rung_insert, hgrowth]; rfl
      obtain ⟨hfull, -⟩ := growth?_eq_some_iff.1 hgrowth
      -- the table was just full, and the next rung has more buckets
      have hlt := OnLadder.bucketCount_lt hasc h.onLadder hon (by omega)
      have hrung_lt := hon.rung_lt
      have := h.size_le (by omega)
      omega

/-- The step: any call keeps a table loaded. -/
lemma perform (hasc : counts.Pairwise (· < ·)) (h : t.Loaded counts) (call : Call) :
    (t.perform call).2.Loaded counts := by
  cases call with
  | insert e => exact h.insert hasc e
  | erase a => exact ⟨h.onLadder.perform (.erase a), fun hnext =>
      (t.size_erase_le a).trans (h.size_le hnext)⟩
  | get a => exact h
  | contains a => exact h
  | size => exact h
  | toList => exact h
  | drain => exact ⟨h.onLadder.perform .drain, fun _ => Nat.zero_le _⟩

/-- The run: calls keep a table loaded. -/
lemma run (hasc : counts.Pairwise (· < ·)) (h : t.Loaded counts) (calls : List Call) :
    (t.run calls).2.Loaded counts := by
  induction calls generalizing t with
  | nil => exact h
  | cons call calls ih => exact ih (h.perform hasc call)

/-- A table has climbed past a rung because it once had as many entries as there are buckets on it.
-/
lemma exists_full (hasc : counts.Pairwise (· < ·)) (h : t.Loaded counts) (calls : List Call)
    {i : Nat} (hle : t.rung ≤ i) (hlt : i < (t.run calls).2.rung) :
    ∃ before after, calls = before ++ after ∧ after ≠ [] ∧
      counts[i]? = some (t.run before).2.size := by
  induction calls generalizing t with
  | nil => exact absurd hlt (Nat.not_lt.2 hle)
  | cons call calls ih =>
    -- either the first call passes the rung, and then the table is full now, or a later one does
    by_cases hi : (t.perform call).2.rung ≤ i
    · obtain ⟨before, after, rfl, hafter, hcount⟩ := ih (h.perform hasc call) hi hlt
      exact ⟨call :: before, after, rfl, hafter, hcount⟩
    · rcases h.onLadder.rung_perform call with heq | ⟨heq, hfull, hnext, -⟩
      · omega
      · obtain rfl : i = t.rung := by omega
        refine ⟨[], call :: calls, rfl, by simp, ?_⟩
        rw [h.onLadder.bucketCount_eq, ← h.size_eq hfull hnext]
        rfl

end Loaded

/-! ### The discipline -/

/-- An entry can be put in: it is in the table afterwards, with all that was there, and what it
displaces is handed back. -/
structure Accepts (t : Table) (e : Entry) : Prop where
  mem_iff : ∀ b, b ∈ (t.insert e).2 ↔ b = e.address ∨ b ∈ t
  fst_eq : (t.insert e).1 = if e.address ∈ t then some e else none
  size_eq : (t.insert e).2.size = if e.address ∈ t then t.size else t.size + 1

/-- Every table accepts every entry, also a full one on the last rung. -/
lemma accepts (t : Table) (e : Entry) : t.Accepts e :=
  ⟨fun _ => mem_insert, t.insert_fst e, t.size_insert e⟩

/-- A table has the buckets of its rung, and below the last rung room for its entries. Whatever is
called, the buckets do not become fewer, and only an insertion climbs, by one rung. Growth keeps the
entries. On the last rung the buckets stay as many, and entries can still be put in. -/
structure GrowsOn (counts : List Nat) (t : Table) : Prop where
  bucketCount_eq : counts[t.rung]? = some t.bucketCount
  size_le : t.rung + 1 < counts.length → t.size ≤ t.bucketCount
  bucketCount_le : ∀ calls, t.bucketCount ≤ (t.run calls).2.bucketCount
  rung_perform : ∀ call, (t.perform call).2.rung = t.rung ∨
    (t.perform call).2.rung = t.rung + 1 ∧ ∃ e, call = .insert e
  rehash : t.rehash.toList.Perm t.toList ∧ t.rehash.size = t.size
  last : t.rung + 1 = counts.length → ∀ calls,
    (t.run calls).2.bucketCount = t.bucketCount ∧ ∀ e, (t.run calls).2.Accepts e

/-- A loaded table grows as it should from here on. -/
lemma Loaded.growsOn (hasc : counts.Pairwise (· < ·)) (h : t.Loaded counts) :
    t.GrowsOn counts where
  bucketCount_eq := h.onLadder.bucketCount_eq
  size_le := h.size_le
  bucketCount_le := h.onLadder.bucketCount_le_run hasc
  rung_perform call := by
    rcases h.onLadder.rung_perform call with heq | ⟨heq, -, -, hinsert⟩
    · exact .inl heq
    · exact .inr ⟨heq, hinsert⟩
  rehash := ⟨t.perm_toList_rehash, t.size_rehash⟩
  last hlast calls := ⟨h.onLadder.bucketCount_run_of_last hlast calls, accepts _⟩

/-- On an ascending ladder, calls on a table climb only as far as the entries make it necessary: the
table is past a rung only if it once had as many entries as there are buckets on that rung. -/
theorem run_growsOn (counts : List Nat) (hne : counts ≠ []) (hpos : ∀ n ∈ counts, 0 < n)
    (hasc : counts.Pairwise (· < ·)) (calls : List Call) :
    ∃ l, Ladder.ofList? counts = some l ∧
      ((empty l).run calls).2.GrowsOn counts ∧
      ∀ i < ((empty l).run calls).2.rung, ∃ before after, calls = before ++ after ∧ after ≠ [] ∧
        counts[i]? = some ((empty l).run before).2.size := by
  let l : Ladder := ⟨counts, hne, hpos⟩
  have hempty : (empty l).Loaded counts :=
    ⟨onLadder_onRung l (List.length_pos_of_ne_nil hne), fun _ => Nat.zero_le _⟩
  exact ⟨l, dif_pos ⟨hne, hpos⟩, (hempty.run hasc calls).growsOn hasc,
    fun i => hempty.exists_full hasc calls (Nat.zero_le i)⟩

/-- On two rungs of two and three buckets: an insertion that only replaces makes the table climb to
the last rung, and the entries outnumber its buckets in the end. -/
def overfilling : List Call :=
  [.insert (.ofAddress 8), .insert (.ofAddress 16), .insert (.ofAddress 16), .erase 8,
    .insert (.ofAddress 24), .insert (.ofAddress 32), .insert (.ofAddress 40),
    .insert (.ofAddress 48)]

/-- The table comes to the last rung, and is overfull there. -/
theorem run_growsOn_overfilling :
    ([2, 3] : List Nat) ≠ [] ∧ (∀ n ∈ ([2, 3] : List Nat), 0 < n) ∧
    ([2, 3] : List Nat).Pairwise (· < ·) ∧
    ∃ l, Ladder.ofList? [2, 3] = some l ∧ ((empty l).run overfilling).2.GrowsOn [2, 3] ∧
      ((empty l).run overfilling).2.rung = 1 ∧ ((empty l).run overfilling).2.size = 5 := by
  obtain ⟨l, hl, hgrows, -⟩ := run_growsOn [2, 3] (by decide) (by decide) (by decide) overfilling
  obtain rfl : l = ⟨[2, 3], by decide, by decide⟩ := by simpa [Ladder.ofList?] using hl.symm
  exact ⟨by decide, by decide, by decide, _, hl, hgrows, by decide +kernel, by decide +kernel⟩

end Table

end HybridGC
