import HybridGC.Table.Basic
import Mathlib.Data.Finset.Card

/-!
# Tables as sets of addresses

Every entry is in the chain of its hash, so a table is the set of the addresses it has an entry for:
looking up, putting in, taking out and growing are the operations of that set.
-/

namespace HybridGC

namespace Table

variable {t : Table} {a b : UInt64} {e : Entry}

/-! ### Members -/

/-- An entry of the table is in the chain its own hash selects, so one chain has to be looked
through. -/
lemma mem_toList_iff : e ∈ t.toList ↔ e ∈ t.chainOf e.hash := by
  have hi := t.bucketOf_lt e.hash
  simp only [toList, List.mem_flatten, Array.mem_toList_iff, t.chainOf_eq_getElem _ hi]
  constructor
  · rintro ⟨c, hc, he⟩
    obtain ⟨i, hi, rfl⟩ := Array.mem_iff_getElem.1 hc
    have hb : t.bucketOf e.hash = i := t.bucket_of_mem i hi e he
    simpa [hb] using he
  · intro he
    exact ⟨_, Array.getElem_mem hi, he⟩

lemma mem_iff_mem_addresses : a ∈ t ↔ a ∈ t.addresses := Iff.rfl

/-- An address is in the table if the entry that is made of it is: there is no other entry of that
address. -/
lemma mem_iff_mem_toList : a ∈ t ↔ Entry.ofAddress a ∈ t.toList := by
  simp only [mem_iff_mem_addresses, addresses, List.mem_map]
  constructor
  · rintro ⟨e, he, rfl⟩
    rwa [← e.eq_ofAddress]
  · exact fun h => ⟨_, h, rfl⟩

/-- An address is looked for in the one chain it can be in. -/
lemma mem_iff_mem_chainOf : a ∈ t ↔ Entry.ofAddress a ∈ t.chainOf (avalanche a) := by
  rw [mem_iff_mem_toList, mem_toList_iff]
  rfl

/-- An entry is its address with the hash of it, so asking for the address is asking for the entry.
-/
lemma address_mem_iff : e.address ∈ t ↔ e ∈ t.chainOf e.hash := by
  rw [mem_iff_mem_toList, ← e.eq_ofAddress, mem_toList_iff]

instance (a : UInt64) (t : Table) : Decidable (a ∈ t) :=
  inferInstanceAs (Decidable (a ∈ t.addresses))

/-- A lookup finds the entry of an address exactly if the table has the address. The chain may hold
other entries of the same hash. -/
lemma get?_eq (t : Table) (a : UInt64) :
    t.get? a = if a ∈ t then some (.ofAddress a) else none := by
  have hm (x : Entry) : x.Matches (avalanche a) a ↔ x = .ofAddress a :=
    Entry.matches_iff x (.ofAddress a)
  simp only [get?, hm, mem_iff_mem_chainOf]
  induction t.chainOf (avalanche a) with
  | nil => rfl
  | cons x rest ih =>
    by_cases hx : x = .ofAddress a
    · simp [hx]
    · simp [hx, Ne.symm hx, ih]

@[simp] lemma contains_iff : t.contains a = true ↔ a ∈ t := by
  by_cases h : a ∈ t <;> simp [contains, get?_eq, h]

/-! ### Each address once -/

/-- No entry occurs twice, within a chain or in two of them. -/
lemma nodup_toList (t : Table) : t.toList.Nodup := by
  rw [toList, List.nodup_flatten]
  constructor
  · intro c hc
    obtain ⟨i, hi, rfl⟩ := Array.mem_iff_getElem.1 (Array.mem_toList_iff.1 hc)
    exact t.nodup_bucket i hi
  · rw [List.pairwise_iff_getElem]
    intro i j hi hj hij e he he'
    rw [Array.length_toList] at hi hj
    rw [Array.getElem_toList] at he he'
    have := t.bucket_of_mem i hi e he
    have := t.bucket_of_mem j hj e he'
    omega

/-- No address occurs twice, because entries with one address have one hash and so are one entry. -/
lemma nodup_addresses (t : Table) : t.addresses.Nodup := by
  rw [addresses, List.Nodup, List.pairwise_map]
  exact t.nodup_toList.imp fun hne h => hne (Entry.ext_address h)

lemma count_addresses (t : Table) (a : UInt64) :
    t.addresses.count a = if a ∈ t then 1 else 0 :=
  t.nodup_addresses.count

/-- The stored size is the number of addresses, not an estimate that a lookup could contradict. -/
lemma size_eq_length (t : Table) : t.size = t.addresses.length := by
  rw [addresses, List.length_map, toList, t.size_eq]

lemma isEmpty_iff : t.isEmpty = true ↔ ∀ a, a ∉ t := by
  simp [isEmpty, size_eq_length, mem_iff_mem_addresses, List.eq_nil_iff_forall_not_mem]

@[simp] lemma not_mem_onRung (l : Ladder) (rung : Nat) (a : UInt64) : a ∉ onRung l rung := by
  simp [mem_iff_mem_addresses, addresses]

@[simp] lemma not_mem_empty (l : Ladder) (a : UInt64) : a ∉ empty l :=
  not_mem_onRung l 0 a

/-- The addresses of a table as a set. -/
def toFinset (t : Table) : Finset UInt64 :=
  t.addresses.toFinset

@[simp] lemma mem_toFinset : a ∈ t.toFinset ↔ a ∈ t :=
  List.mem_toFinset

@[simp] lemma card_toFinset (t : Table) : t.toFinset.card = t.size := by
  rw [toFinset, List.toFinset_card_of_nodup t.nodup_addresses, size_eq_length]

/-- A table that lacks one address of another, and no more, is smaller by one. -/
lemma size_of_mem_iff_ne {t' : Table} (h : ∀ b, b ∈ t' ↔ b ≠ a ∧ b ∈ t) (ha : a ∈ t) :
    t'.size + 1 = t.size := by
  have ht : t'.toFinset = t.toFinset.erase a := by
    ext b
    simp [h]
  rw [← card_toFinset t', ht, ← card_toFinset t]
  exact Finset.card_erase_add_one (mem_toFinset.2 ha)

/-! ### Putting in -/

/-- Putting into a chain displaces the entry of the same address, if there is one. -/
lemma link_fst (t : Table) (e : Entry) :
    (t.link e).1 = if e.address ∈ t then some e else none := by
  simp only [link, address_mem_iff, Chain.link_eq]
  split <;> rfl

/-- Only the chain of the entry's hash changes, and there the entry replaces its equal or is added.
-/
@[simp] lemma mem_link : b ∈ (t.link e).2 ↔ b = e.address ∨ b ∈ t := by
  have hb : b = e.address ↔ Entry.ofAddress b = e := by
    constructor
    · rintro rfl
      exact e.eq_ofAddress.symm
    · rintro rfl
      rfl
  -- an address is looked up in one chain, so the two cases are the chain that changed and any other
  simp only [mem_iff_mem_chainOf, link, chainOf_setChain, Chain.link_eq, hb]
  split
  case isTrue h =>
    have hc : t.chainOf (avalanche b) = t.chainOf e.hash := by simp only [chainOf, h]
    rw [hc]
    split
    · constructor
      · exact .inr
      · rintro (rfl | h)
        · assumption
        · exact h
    · simp [or_comm]
  case isFalse h =>
    constructor
    · exact .inr
    · rintro (rfl | hm)
      · exact absurd rfl h
      · exact hm

/-- Distributing entries over the buckets of another table adds their addresses to it. -/
lemma mem_foldl_link (es : List Entry) (t : Table) :
    b ∈ es.foldl (fun t e => (t.link e).2) t ↔ b ∈ es.map (·.address) ∨ b ∈ t := by
  induction es generalizing t with
  | nil => simp
  | cons e es ih =>
    rw [List.foldl_cons, ih, mem_link, List.map_cons, List.mem_cons]
    tauto

/-- Growing moves entries between buckets and loses none. -/
@[simp] lemma mem_rehash : b ∈ t.rehash ↔ b ∈ t := by
  rw [rehash, mem_foldl_link]
  simp [mem_iff_mem_addresses, addresses]

lemma insert_fst (t : Table) (e : Entry) :
    (t.insert e).1 = if e.address ∈ t then some e else none := by
  simp only [insert]
  split <;> simp [link_fst]

/-- A put adds one address, also when the table grows for it. -/
@[simp] lemma mem_insert : b ∈ (t.insert e).2 ↔ b = e.address ∨ b ∈ t := by
  simp only [insert]
  split <;> simp

/-! ### Taking out -/

lemma erase_fst (t : Table) (a : UInt64) :
    (t.erase a).1 = if a ∈ t then some (.ofAddress a) else none := by
  simp only [erase, mem_iff_mem_chainOf, Chain.unlink_eq]
  split <;> rfl

/-- A removal takes one address out and leaves the others, those of its chain included. -/
@[simp] lemma mem_erase : b ∈ (t.erase a).2 ↔ b ≠ a ∧ b ∈ t := by
  have hb : b = a ↔ Entry.ofAddress b = .ofAddress a := by
    constructor
    · rintro rfl
      rfl
    · exact congrArg Entry.address
  -- the same two cases as for putting in
  simp only [mem_iff_mem_chainOf, erase, chainOf_setChain, Chain.unlink_eq, ne_eq, hb]
  split
  case isTrue h =>
    have hc : t.chainOf (avalanche b) = t.chainOf (avalanche a) := by simp only [chainOf, h]
    rw [hc]
    split
    · rw [(t.nodup_chainOf _).mem_erase_iff]
    · constructor
      · intro hm
        exact ⟨fun heq => by simp_all, hm⟩
      · exact And.right
  case isFalse h =>
    constructor
    · intro hm
      exact ⟨fun heq => h (by rw [hb.2 heq]), hm⟩
    · exact And.right

@[simp] lemma not_mem_drain (t : Table) (a : UInt64) : a ∉ t.drain.2 :=
  not_mem_onRung _ _ a

end Table

end HybridGC
