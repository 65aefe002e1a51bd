import HybridGC.Proofs.Table
import Mathlib.Data.Finmap

/-!
# Tables as finite maps

Calls on a table answer what the same calls on a finite map from addresses to entries answer,
however often the table grows on the way. The one thing a finite map leaves open is the order in
which a listing names the entries. Between any two calls the buckets are those of the rung the table
is on, and each entry is in the bucket of its hash.
-/

namespace HybridGC

namespace Table

/-! ### Calls -/

/-- A call on a table. -/
inductive Call where
  | insert (e : Entry)
  | erase (a : UInt64)
  | get (a : UInt64)
  | contains (a : UInt64)
  | size
  | toList
  | drain
deriving DecidableEq

/-- What a call on a table answers. -/
inductive Reply where
  | entry (found : Option Entry)
  | flag (b : Bool)
  | count (n : Nat)
  | entries (es : List Entry)
deriving DecidableEq

/-- Make a call. -/
def perform (t : Table) : Call → Reply × Table
  | .insert e => (.entry (t.insert e).1, (t.insert e).2)
  | .erase a => (.entry (t.erase a).1, (t.erase a).2)
  | .get a => (.entry (t.get? a), t)
  | .contains a => (.flag (t.contains a), t)
  | .size => (.count t.size, t)
  | .toList => (.entries t.toList, t)
  | .drain => (.entries t.drain.1, t.drain.2)

/-- Make calls one after the other. -/
def run (t : Table) : List Call → List Reply × Table
  | [] => ([], t)
  | call :: calls =>
    let (reply, t) := t.perform call
    let (replies, t) := t.run calls
    (reply :: replies, t)

/-! ### Finite maps -/

/-- A finite map from addresses to entries. -/
abbrev EntryMap := Finmap fun _ : UInt64 => Entry

/-- What a finite map may answer to a call, and the map afterwards. -/
inductive MapStep (m : EntryMap) : Call → Reply → EntryMap → Prop
  | insert (e : Entry) :
    MapStep m (.insert e) (.entry (m.lookup e.address)) (m.insert e.address e)
  | erase (a : UInt64) : MapStep m (.erase a) (.entry (m.lookup a)) (m.erase a)
  | get (a : UInt64) : MapStep m (.get a) (.entry (m.lookup a)) m
  | contains (a : UInt64) : MapStep m (.contains a) (.flag (m.lookup a).isSome) m
  | size : MapStep m .size (.count m.keys.card) m
  | toList (es : List Entry) (hnodup : es.Nodup)
    (hmem : ∀ e, e ∈ es ↔ m.lookup e.address = some e) : MapStep m .toList (.entries es) m
  | drain (es : List Entry) (hnodup : es.Nodup)
    (hmem : ∀ e, e ∈ es ↔ m.lookup e.address = some e) : MapStep m .drain (.entries es) ∅

/-- What a finite map may answer to calls made one after the other, and the map afterwards. -/
inductive MapRun : EntryMap → List Call → List Reply → EntryMap → Prop
  | nil (m : EntryMap) : MapRun m [] [] m
  | cons {m m₁ m₂ : EntryMap} {call : Call} {calls : List Call} {reply : Reply}
    {replies : List Reply} (h : MapStep m call reply m₁) (hs : MapRun m₁ calls replies m₂) :
    MapRun m (call :: calls) (reply :: replies) m₂

/-- The table and the map have the same entry at every address. -/
def Represents (t : Table) (m : EntryMap) : Prop :=
  ∀ a, t.get? a = m.lookup a

variable {t : Table} {m : EntryMap} {a : UInt64} {e : Entry}

lemma represents_empty (l : Ladder) : (empty l).Represents ∅ := by
  intro a
  rw [get?_eq, if_neg (not_mem_empty l a), Finmap.lookup_empty]

namespace Represents

lemma mem_iff (h : t.Represents m) (a : UInt64) : a ∈ m ↔ a ∈ t := by
  rw [← Finmap.lookup_isSome, ← h a, ← contains_iff]
  rfl

lemma size_eq (h : t.Represents m) : t.size = m.keys.card := by
  rw [← card_toFinset]
  congr 1
  ext a
  rw [mem_toFinset, Finmap.mem_keys, h.mem_iff]

/-- The iteration names each entry of the map once. -/
lemma mem_toList_iff (h : t.Represents m) (e : Entry) :
    e ∈ t.toList ↔ m.lookup e.address = some e := by
  rw [← h, get?_eq, ← e.eq_ofAddress]
  have hmem : e.address ∈ t ↔ e ∈ t.toList := by rw [mem_iff_mem_toList, ← e.eq_ofAddress]
  by_cases he : e.address ∈ t
  · simp [← hmem, he]
  · simp [← hmem, he]

/-- Putting an entry in, whether or not the table grows, is inserting it into the map. -/
lemma insert (h : t.Represents m) (e : Entry) :
    (t.insert e).2.Represents (m.insert e.address e) := by
  intro a
  by_cases ha : a = e.address
  · rw [ha, Finmap.lookup_insert, get?_eq, if_pos (mem_insert.2 (.inl rfl)), ← e.eq_ofAddress]
  · rw [Finmap.lookup_insert_of_ne _ ha, ← h a, get?_eq, get?_eq]
    simp only [mem_insert, ha, false_or]

lemma erase (h : t.Represents m) (a : UInt64) : (t.erase a).2.Represents (m.erase a) := by
  intro b
  by_cases hb : b = a
  · rw [hb, Finmap.lookup_erase, get?_eq, if_neg fun hm => (mem_erase.1 hm).1 rfl]
  · rw [Finmap.lookup_erase_ne hb, ← h b, get?_eq, get?_eq]
    simp only [mem_erase, ne_eq, hb, not_false_eq_true, true_and]

lemma drain (t : Table) : t.drain.2.Represents ∅ := by
  intro a
  rw [get?_eq, if_neg (not_mem_drain t a), Finmap.lookup_empty]

lemma insert_fst (h : t.Represents m) (e : Entry) : (t.insert e).1 = m.lookup e.address := by
  rw [Table.insert_fst, ← h, get?_eq, ← e.eq_ofAddress]

lemma erase_fst (h : t.Represents m) (a : UInt64) : (t.erase a).1 = m.lookup a := by
  rw [Table.erase_fst, ← h, get?_eq]

/-- A call on a table is one on the map it represents. -/
lemma mapStep (h : t.Represents m) (call : Call) :
    ∃ m', MapStep m call (t.perform call).1 m' ∧ (t.perform call).2.Represents m' := by
  cases call with
  | insert e =>
    rw [perform, h.insert_fst]
    exact ⟨_, .insert e, h.insert e⟩
  | erase a =>
    rw [perform, h.erase_fst]
    exact ⟨_, .erase a, h.erase a⟩
  | get a =>
    rw [perform, h a]
    exact ⟨m, .get a, h⟩
  | contains a =>
    rw [perform, contains, h a]
    exact ⟨m, .contains a, h⟩
  | size =>
    rw [perform, h.size_eq]
    exact ⟨m, .size, h⟩
  | toList => exact ⟨m, .toList _ t.nodup_toList h.mem_toList_iff, h⟩
  | drain => exact ⟨∅, .drain _ t.nodup_toList h.mem_toList_iff, .drain t⟩

/-- The run: calls on a table are calls on the map it represents. -/
lemma mapRun (h : t.Represents m) (calls : List Call) :
    ∃ m', MapRun m calls (t.run calls).1 m' ∧ (t.run calls).2.Represents m' := by
  induction calls generalizing t m with
  | nil => exact ⟨m, .nil m, h⟩
  | cons call calls ih =>
    obtain ⟨m₁, hstep, h₁⟩ := h.mapStep call
    obtain ⟨m₂, hrun, h₂⟩ := ih h₁
    exact ⟨m₂, .cons hstep hrun, h₂⟩

end Represents

/-! ### The rung of a table -/

/-- The table is on the ladder with these counts, on one of its rungs. -/
structure OnLadder (counts : List Nat) (t : Table) : Prop where
  counts_eq : t.ladder.counts = counts
  rung_lt : t.rung < counts.length

lemma onLadder_onRung (l : Ladder) {rung : Nat} (h : rung < l.counts.length) :
    (onRung l rung).OnLadder l.counts :=
  ⟨rfl, h⟩

namespace OnLadder

variable {counts : List Nat}

lemma link (h : t.OnLadder counts) (e : Entry) : (t.link e).2.OnLadder counts :=
  ⟨h.counts_eq, h.rung_lt⟩

lemma foldl_link (h : t.OnLadder counts) (es : List Entry) :
    (es.foldl (fun t e => (t.link e).2) t).OnLadder counts := by
  induction es generalizing t with
  | nil => exact h
  | cons e es ih => exact ih (h.link e)

lemma insert (h : t.OnLadder counts) (e : Entry) : (t.insert e).2.OnLadder counts := by
  rw [Table.insert]
  split
  case isTrue hgrows =>
    -- a table grows only if there is a rung to climb to
    have hlt : t.rung + 1 < t.ladder.counts.length := by
      rw [growth?] at hgrows
      split at hgrows
      · simpa using hgrows
      · cases hgrows
    have hnext : (onRung t.ladder (t.rung + 1)).OnLadder counts :=
      h.counts_eq ▸ onLadder_onRung t.ladder hlt
    exact (hnext.foldl_link t.toList).link e
  case isFalse => exact h.link e

/-- The step: no call leaves the ladder. -/
lemma perform (h : t.OnLadder counts) (call : Call) : (t.perform call).2.OnLadder counts := by
  cases call with
  | insert e => exact h.insert e
  | erase a => exact ⟨h.counts_eq, h.rung_lt⟩
  | get a => exact h
  | contains a => exact h
  | size => exact h
  | toList => exact h
  | drain => exact ⟨h.counts_eq, h.rung_lt⟩

/-- The run: calls do not leave the ladder. -/
lemma run (h : t.OnLadder counts) (calls : List Call) : (t.run calls).2.OnLadder counts := by
  induction calls generalizing t with
  | nil => exact h
  | cons call calls ih => exact ih (h.perform call)

end OnLadder

/-! ### The layout of a table -/

/-- The buckets are as many as the sequence of counts says, and the entries are where their hashes
say. -/
structure LaidOut (counts : List Nat) (t : Table) : Prop where
  bucketCount_mem : counts[t.rung]? = some t.bucketCount
  bucketCount_pos : 0 < t.bucketCount
  buckets_size : t.buckets.size = t.bucketCount
  /-- No hash leads out of the buckets. -/
  bucketOf_lt : ∀ hash, t.bucketOf hash < t.buckets.size
  hash_eq : ∀ e ∈ t.toList, e.hash = avalanche e.address
  bucket_eq : ∀ i (hi : i < t.buckets.size), ∀ e ∈ t.buckets[i],
    e.hash.toNat % t.bucketCount = i
  nodup_addresses : t.addresses.Nodup

/-- That a table is on its ladder is all that its layout depends on: the rest holds of every table.
-/
lemma OnLadder.laidOut {counts : List Nat} (h : t.OnLadder counts) : t.LaidOut counts where
  bucketCount_mem := by
    have hlt : t.rung < t.ladder.counts.length := by rw [h.counts_eq]; exact h.rung_lt
    rw [← h.counts_eq, bucketCount, Ladder.count, List.getElem?_eq_getElem hlt]
    rfl
  bucketCount_pos := t.bucketCount_pos
  buckets_size := t.buckets_size
  bucketOf_lt := t.bucketOf_lt
  hash_eq := fun e _ => e.hash_eq
  bucket_eq := t.bucket_of_mem
  nodup_addresses := t.nodup_addresses

/-- A table over any positive bucket counts is a finite map: calls on it answer what a finite map
answers, and after any calls its layout is right for the rung it is on. -/
theorem run_refines_finmap (counts : List Nat) (hne : counts ≠ []) (hpos : ∀ n ∈ counts, 0 < n)
    (calls : List Call) :
    ∃ l, Ladder.ofList? counts = some l ∧
      ((empty l).run calls).2.LaidOut counts ∧
      ∃ m, MapRun ∅ calls ((empty l).run calls).1 m ∧ ((empty l).run calls).2.Represents m := by
  let l : Ladder := ⟨counts, hne, hpos⟩
  have honLadder : (empty l).OnLadder counts :=
    onLadder_onRung l (List.length_pos_of_ne_nil hne)
  refine ⟨l, dif_pos ⟨hne, hpos⟩, (honLadder.run calls).laidOut, ?_⟩
  exact (represents_empty l).mapRun calls

/-- The third insertion finds the table full: it moves the entries into fewer buckets, and then
replaces one of them. -/
def refilling : List Call :=
  [.insert (.ofAddress 8), .insert (.ofAddress 16), .insert (.ofAddress 8), .size, .erase 16,
    .toList]

/-- The table is a finite map also where the counts do not ascend. -/
theorem run_refines_finmap_refilling :
    ([2, 1, 3] : List Nat) ≠ [] ∧ (∀ n ∈ ([2, 1, 3] : List Nat), 0 < n) ∧
    ∃ l, Ladder.ofList? [2, 1, 3] = some l ∧
      ((empty l).run refilling).2.LaidOut [2, 1, 3] ∧
      ∃ m, MapRun ∅ refilling ((empty l).run refilling).1 m ∧
        ((empty l).run refilling).2.Represents m :=
  ⟨by decide, by decide, run_refines_finmap [2, 1, 3] (by decide) (by decide) refilling⟩

example : ((empty ⟨[2, 1, 3], by decide, by decide⟩).run refilling).1 =
    [.entry none, .entry none, .entry (some (.ofAddress 8)), .count 2,
      .entry (some (.ofAddress 16)), .entries [.ofAddress 8]] := by
  decide +kernel

end Table

end HybridGC
