import HybridGC.Proofs.Table
import Mathlib.Data.List.Nodup

/-!
# The order of an iteration

A table names its entries in ascending order of their buckets, and those of one bucket in the order
in which they came to it. Such a list is known by what it holds under each bucket, so what an
operation does to the iteration is read off what it does to the chains: an insertion puts its entry
after all that are not in later buckets, growth sorts stably, and taking an entry out leaves the
others in order.
-/

namespace HybridGC

/-! ### Lists in ascending order of a key -/

section Ascending

open List (Sublist)

variable {α : Type} {key : α → Nat} {l l₁ l₂ : List α}

lemma mem_iff_of_filter_eq (h : ∀ a, l₁.filter (key · = key a) = l₂.filter (key · = key a))
    (a : α) : a ∈ l₁ ↔ a ∈ l₂ := by
  have := congrArg (a ∈ ·) (h a)
  simpa using this

/-- Lists in ascending order of a key that hold the same under each key are the same. -/
lemma eq_of_ascending (key : α → Nat) (h₁ : l₁.Pairwise fun x y => key x ≤ key y)
    (h₂ : l₂.Pairwise fun x y => key x ≤ key y)
    (h : ∀ a, l₁.filter (key · = key a) = l₂.filter (key · = key a)) : l₁ = l₂ := by
  have hmem := mem_iff_of_filter_eq h
  induction l₁ generalizing l₂ with
  | nil => simpa [eq_comm, List.eq_nil_iff_forall_not_mem] using hmem
  | cons x l₁ ih =>
    cases l₂ with
    | nil => simpa using hmem x
    | cons y l₂ =>
      rw [List.pairwise_cons] at h₁ h₂
      -- the first element of either list is in the other, so neither key is the larger
      have hxy : key x ≤ key y := by
        rcases List.mem_cons.1 ((hmem y).2 List.mem_cons_self) with rfl | hy
        · exact le_rfl
        · exact h₁.1 y hy
      have hyx : key y ≤ key x := by
        rcases List.mem_cons.1 ((hmem x).1 List.mem_cons_self) with rfl | hx
        · exact le_rfl
        · exact h₂.1 x hx
      have hkey : key y = key x := le_antisymm hyx hxy
      -- under one key the two lists begin with the same element
      obtain ⟨rfl, -⟩ : x = y ∧ _ := by simpa [hkey] using h x
      have hrest (a : α) : l₁.filter (key · = key a) = l₂.filter (key · = key a) := by
        have ha := h a
        simp only [List.filter_cons] at ha
        split at ha
        · exact (List.cons.inj ha).2
        · exact ha
      rw [ih h₁.2 h₂.2 hrest (mem_iff_of_filter_eq hrest)]

/-- A list in ascending order is split at a key by filtering. -/
lemma filter_append_filter (h : l.Pairwise fun x y => key x ≤ key y) (k : Nat) :
    l.filter (key · ≤ k) ++ l.filter (k < key ·) = l := by
  induction l with
  | nil => rfl
  | cons x l ih =>
    rw [List.pairwise_cons] at h
    by_cases hx : key x ≤ k
    · simp [hx, Nat.not_lt.2 hx, ih h.2]
    · have hgt (y : α) (hy : y ∈ x :: l) : k < key y := by
        rcases List.mem_cons.1 hy with rfl | hy
        · exact Nat.lt_of_not_le hx
        · exact (Nat.lt_of_not_le hx).trans_le (h.1 y hy)
      rw [List.filter_eq_nil_iff.2 (by simpa using hgt), List.nil_append,
        List.filter_eq_self.2 (by simpa using hgt)]

/-- What a condition on the key leaves of the elements under one key. -/
lemma filter_filter_key (key : α → Nat) (p : Nat → Prop) [DecidablePred p] (l : List α) (k : Nat) :
    (l.filter fun x => p (key x)).filter (key · = k) =
      if p k then l.filter (key · = k) else [] := by
  rw [List.filter_filter]
  split
  case isTrue hk =>
    refine List.filter_congr fun x _ => ?_
    by_cases hx : key x = k <;> simp [hx, hk]
  case isFalse hk =>
    rw [List.filter_eq_nil_iff]
    intro x _
    by_cases hx : key x = k <;> simp [hx, hk]

private lemma decide_key_trans (key : α → Nat) (x y z : α) (hxy : decide (key x ≤ key y) = true)
    (hyz : decide (key y ≤ key z) = true) : decide (key x ≤ key z) = true := by
  simp only [decide_eq_true_eq] at hxy hyz ⊢
  exact hxy.trans hyz

private lemma decide_key_total (key : α → Nat) (x y : α) :
    (decide (key x ≤ key y) || decide (key y ≤ key x)) = true := by
  simp only [Bool.or_eq_true, decide_eq_true_eq]
  exact le_total _ _

lemma pairwise_mergeSort_key (key : α → Nat) (l : List α) :
    (l.mergeSort fun x y => key x ≤ key y).Pairwise fun x y => key x ≤ key y := by
  have h := List.pairwise_mergeSort (decide_key_trans key) (decide_key_total key) l
  simpa only [decide_eq_true_eq] using h

/-- Sorting leaves the elements under one key in their order. -/
lemma filter_mergeSort (key : α → Nat) (l : List α) (k : Nat) :
    (l.mergeSort fun x y => key x ≤ key y).filter (key · = k) = l.filter (key · = k) := by
  have htied : (l.filter (key · = k)).Pairwise fun x y => decide (key x ≤ key y) = true := by
    refine List.pairwise_of_forall_mem_list fun x hx y hy => ?_
    simp only [List.mem_filter, decide_eq_true_eq] at hx hy ⊢
    omega
  have hsub : Sublist (l.filter (key · = k)) (l.mergeSort fun x y => key x ≤ key y) :=
    List.sublist_mergeSort (decide_key_trans key) (decide_key_total key) htied List.filter_sublist
  have hsub' := hsub.filter (key · = k)
  simp only [List.filter_filter, Bool.and_self] at hsub'
  have hperm := (List.mergeSort_perm l fun x y => key x ≤ key y).filter (key · = k)
  exact (hsub'.eq_of_length hperm.length_eq.symm).symm

end Ascending

namespace Table

variable {t : Table} {e : Entry} {a : UInt64} {hash : UInt64}

/-! ### The iteration and the chains -/

/-- Where the lists are numbered by the key of their elements, what is under one key is the list of
that number. -/
private lemma filter_flatten {α : Type} (key : α → Nat) (cs : List (List α)) (n i : Nat)
    (h : ∀ j (hj : j < cs.length), ∀ x ∈ cs[j], key x = n + j) :
    cs.flatten.filter (key · = n + i) = cs.getD i [] := by
  -- the number of the first list goes up with every list that is left off
  induction cs generalizing n i with
  | nil => simp
  | cons c cs ih =>
    have hc (x : α) (hx : x ∈ c) : key x = n := h 0 (Nat.succ_pos _) x hx
    have hrest (j : Nat) (hj : j < cs.length) (x : α) (hx : x ∈ cs[j]) : key x = n + 1 + j := by
      have := h (j + 1) (Nat.succ_lt_succ hj) x hx
      omega
    rw [List.flatten_cons, List.filter_append]
    cases i with
    | zero =>
      have hself : c.filter (key · = n + 0) = c := List.filter_eq_self.2 (by simpa using hc)
      have hnone : cs.flatten.filter (key · = n + 0) = [] := by
        rw [List.filter_eq_nil_iff]
        intro x hx
        obtain ⟨l, hl, hx⟩ := List.mem_flatten.1 hx
        obtain ⟨j, hj, rfl⟩ := List.mem_iff_getElem.1 hl
        have := hrest j hj x hx
        simp only [decide_eq_true_eq]
        omega
      rw [hself, hnone, List.append_nil]
      rfl
    | succ i =>
      have hnone : c.filter (key · = n + (i + 1)) = [] := by
        rw [List.filter_eq_nil_iff]
        intro x hx
        have := hc x hx
        simp only [decide_eq_true_eq]
        omega
      have := ih (n + 1) i hrest
      rw [show n + 1 + i = n + (i + 1) by omega] at this
      rw [hnone, List.nil_append, this]
      rfl

/-- What the iteration names of one bucket is the chain of that bucket. -/
lemma filter_toList (t : Table) (hash : UInt64) :
    t.toList.filter (fun x => t.bucketOf x.hash = t.bucketOf hash) = t.chainOf hash := by
  have h := filter_flatten (fun x : Entry => t.bucketOf x.hash) t.buckets.toList 0
    (t.bucketOf hash) (fun j hj x hx => by
      rw [Array.length_toList] at hj
      rw [Nat.zero_add]
      exact t.bucket_of_mem j hj x (by simpa using hx))
  rw [Nat.zero_add] at h
  rw [toList, h, chainOf]
  simp [List.getD_eq_getElem?_getD, Array.getD_eq_getD_getElem?]

/-- An iteration goes through the buckets in ascending order. -/
lemma pairwise_toList (t : Table) :
    t.toList.Pairwise fun x y => t.bucketOf x.hash ≤ t.bucketOf y.hash := by
  have hbucket (i : Nat) (hi : i < t.buckets.toList.length) (x : Entry)
      (hx : x ∈ t.buckets.toList[i]) : t.bucketOf x.hash = i := by
    rw [Array.length_toList] at hi
    exact t.bucket_of_mem i hi x (by simpa using hx)
  rw [toList, List.pairwise_flatten]
  constructor
  · intro c hc
    obtain ⟨i, hi, rfl⟩ := List.mem_iff_getElem.1 hc
    refine List.pairwise_of_forall_mem_list fun x hx y hy => ?_
    rw [hbucket i hi x hx, hbucket i hi y hy]
  · rw [List.pairwise_iff_getElem]
    intro i j hi hj hij x hx y hy
    rw [hbucket i hi x hx, hbucket j hj y hy]
    exact hij.le

/-- A list that goes through the buckets in ascending order and names the chain of each is the
iteration. -/
lemma toList_eq {l : List Entry} {bucket : UInt64 → Nat} (hbucket : t.bucketOf = bucket)
    (h : l.Pairwise fun x y => bucket x.hash ≤ bucket y.hash)
    (hchain : ∀ e : Entry, l.filter (fun x => bucket x.hash = bucket e.hash) =
      t.chainOf e.hash) : t.toList = l := by
  subst hbucket
  refine eq_of_ascending (fun x : Entry => t.bucketOf x.hash) t.pairwise_toList h ?_
  intro e
  rw [t.filter_toList, hchain]

/-! ### Putting in -/

lemma bucketOf_link (t : Table) (e : Entry) : (t.link e).2.bucketOf = t.bucketOf := rfl

/-- Linking changes one chain, and only if the entry is new: then it is the last of the chain. -/
lemma chainOf_link (t : Table) (e : Entry) (hash : UInt64) :
    (t.link e).2.chainOf hash =
      if t.bucketOf hash = t.bucketOf e.hash ∧ e.address ∉ t then t.chainOf hash ++ [e]
      else t.chainOf hash := by
  simp only [link, chainOf_setChain, Chain.link_eq, address_mem_iff]
  by_cases hb : t.bucketOf hash = t.bucketOf e.hash
  · have hc : t.chainOf hash = t.chainOf e.hash := by simp only [chainOf, hb]
    by_cases he : e ∈ t.chainOf e.hash <;> simp [hb, hc, he]
  · simp [hb]

/-- Linking an entry whose address is in the table does not change the iteration. -/
lemma toList_link_of_mem (h : e.address ∈ t) : (t.link e).2.toList = t.toList := by
  refine toList_eq (t.bucketOf_link e) t.pairwise_toList fun x => ?_
  rw [filter_toList, chainOf_link, if_neg fun hx => hx.2 h]

/-- A new entry comes after all that are in no later bucket and before all others. -/
lemma toList_link_of_not_mem (h : e.address ∉ t) :
    (t.link e).2.toList =
      t.toList.filter (fun x => t.bucketOf x.hash ≤ t.bucketOf e.hash) ++
        e :: t.toList.filter (fun x => t.bucketOf e.hash < t.bucketOf x.hash) := by
  refine toList_eq (t.bucketOf_link e) ?_ fun x => ?_
  · simp only [List.pairwise_append, List.pairwise_cons, List.mem_cons,
      List.mem_filter, decide_eq_true_eq]
    refine ⟨t.pairwise_toList.filter _, ⟨fun y hy => hy.2.le, t.pairwise_toList.filter _⟩, ?_⟩
    rintro y ⟨-, hy⟩ z (rfl | ⟨-, hz⟩)
    · exact hy
    · exact hy.trans hz.le
  · have hle := filter_filter_key (fun y : Entry => t.bucketOf y.hash) (· ≤ t.bucketOf e.hash)
      t.toList (t.bucketOf x.hash)
    have hgt := filter_filter_key (fun y : Entry => t.bucketOf y.hash) (t.bucketOf e.hash < ·)
      t.toList (t.bucketOf x.hash)
    rw [filter_toList] at hle hgt
    rw [List.filter_append, List.filter_cons, hle, hgt, chainOf_link]
    rcases lt_trichotomy (t.bucketOf x.hash) (t.bucketOf e.hash) with hlt | heq | hlt
    · simp [h, hlt.le, hlt.ne, hlt.ne', hlt.not_gt]
    · simp [h, heq]
    · simp [h, hlt, hlt.ne, hlt.ne', hlt.not_ge]

/-! ### Growing -/

lemma foldl_link_eq (es : List Entry) (t : Table) :
    (es.foldl (fun t e => (t.link e).2) t).ladder = t.ladder ∧
      (es.foldl (fun t e => (t.link e).2) t).rung = t.rung := by
  induction es generalizing t with
  | nil => exact ⟨rfl, rfl⟩
  | cons e es ih => exact ih (t.link e).2

lemma rung_rehash (t : Table) : t.rehash.rung = t.rung + 1 :=
  (foldl_link_eq t.toList _).2

lemma bucketCount_rehash (t : Table) : t.rehash.bucketCount = t.ladder.count (t.rung + 1) := by
  rw [bucketCount, rehash, (foldl_link_eq _ _).1, (foldl_link_eq _ _).2]
  rfl

/-- Distributing new entries over the buckets puts them at the ends of their chains, in order. -/
lemma chainOf_foldl_link (es : List Entry) (t : Table) (hnodup : es.Nodup)
    (hnew : ∀ e ∈ es, e.address ∉ t) (hash : UInt64) :
    (es.foldl (fun t e => (t.link e).2) t).chainOf hash =
      t.chainOf hash ++ es.filter (fun e => t.bucketOf e.hash = t.bucketOf hash) := by
  induction es generalizing t with
  | nil => simp
  | cons e es ih =>
    obtain ⟨he, hnodup⟩ := List.nodup_cons.1 hnodup
    have hnew' (x : Entry) (hx : x ∈ es) : x.address ∉ (t.link e).2 := by
      rw [mem_link, not_or]
      refine ⟨fun hxe => he ?_, hnew x (List.mem_cons_of_mem e hx)⟩
      rwa [← Entry.ext_address hxe]
    rw [List.foldl_cons, ih (t.link e).2 hnodup hnew', chainOf_link, bucketOf_link]
    have hne := hnew e List.mem_cons_self
    by_cases hb : t.bucketOf hash = t.bucketOf e.hash
    · simp [hb, hne]
    · simp [hb, Ne.symm hb]

/-- Growth sorts the iteration by the new buckets, and the sort is stable. -/
lemma toList_rehash (t : Table) :
    t.rehash.toList =
      t.toList.mergeSort fun x y => t.rehash.bucketOf x.hash ≤ t.rehash.bucketOf y.hash := by
  refine toList_eq rfl (pairwise_mergeSort_key (fun x : Entry => t.rehash.bucketOf x.hash) _)
    fun e => ?_
  -- the new buckets are empty at first, so a chain consists of what has been distributed to it
  have hempty : (onRung t.ladder (t.rung + 1)).chainOf e.hash = [] := by
    rw [← filter_toList, toList_onRung, List.filter_nil]
  have hbucket (hash : UInt64) :
      (onRung t.ladder (t.rung + 1)).bucketOf hash = t.rehash.bucketOf hash := by
    rw [bucketOf, bucketOf, bucketCount_rehash]
    rfl
  rw [filter_mergeSort (fun x : Entry => t.rehash.bucketOf x.hash)]
  conv_rhs => rw [rehash]
  rw [chainOf_foldl_link _ _ t.nodup_toList (by simp), hempty, List.nil_append]
  simp only [hbucket]

/-! ### Taking out -/

lemma bucketOf_erase (t : Table) (a : UInt64) : (t.erase a).2.bucketOf = t.bucketOf := rfl

/-- Taking out removes the address from every chain, though only one can have held it. -/
lemma chainOf_erase (t : Table) (a : UInt64) (hash : UInt64) :
    (t.erase a).2.chainOf hash = (t.chainOf hash).erase (.ofAddress a) := by
  simp only [erase, chainOf_setChain, Chain.unlink_eq]
  -- the entry is in no chain but that of its own hash
  have hnot (h : t.bucketOf hash ≠ t.bucketOf (avalanche a)) :
      Entry.ofAddress a ∉ t.chainOf hash := fun hmem => h (bucketOf_of_mem_chainOf hmem).symm
  split
  case isTrue hb =>
    have hc : t.chainOf hash = t.chainOf (avalanche a) := by simp only [chainOf, hb]
    rw [hc]
    split
    · rfl
    · rw [List.erase_of_not_mem ‹_›]
  case isFalse hb => rw [List.erase_of_not_mem (hnot hb)]

/-- Taking an entry out leaves the others in order. -/
lemma toList_erase (t : Table) (a : UInt64) :
    (t.erase a).2.toList = t.toList.erase (.ofAddress a) := by
  refine toList_eq (t.bucketOf_erase a) (t.pairwise_toList.sublist List.erase_sublist) fun x => ?_
  rw [chainOf_erase, t.nodup_toList.erase_eq_filter, List.filter_comm, filter_toList,
    (t.nodup_chainOf x.hash).erase_eq_filter]

lemma addresses_erase (t : Table) (a : UInt64) :
    (t.erase a).2.addresses = t.addresses.erase a := by
  rw [addresses, toList_erase, List.map_erase fun _ _ => Entry.ext_address]
  rfl

/-! ### Inserting -/

/-- The table an insertion puts its entry into. -/
def grown (t : Table) : Table :=
  if t.growth?.isSome then t.rehash else t

lemma insert_eq (t : Table) (e : Entry) : t.insert e = t.grown.link e := by
  rw [insert, grown]
  split <;> rfl

/-- Where the table is full, what it grows to is the bucket count of the next rung. -/
lemma count_of_growth? {n : Nat} (h : t.growth? = some n) : t.ladder.count (t.rung + 1) = n := by
  rw [growth?] at h
  split at h
  · rw [Ladder.count, h, Option.getD_some]
  · cases h

@[simp] lemma mem_grown : a ∈ t.grown ↔ a ∈ t := by
  rw [grown]
  split
  · exact mem_rehash
  · rfl

lemma bucketCount_grown (t : Table) : t.grown.bucketCount = t.growth?.getD t.bucketCount := by
  rw [grown]
  cases h : t.growth? with
  | none => rfl
  | some n =>
    rw [Option.isSome_some, if_pos rfl, bucketCount_rehash, count_of_growth? h]
    rfl

/-- The iteration as an insertion rearranges it: where the table is full, it is sorted by the buckets
of the next rung. -/
def arranged (t : Table) : List Entry :=
  match t.growth? with
  | none => t.toList
  | some n => t.toList.mergeSort fun x y => x.hash.toNat % n ≤ y.hash.toNat % n

lemma toList_grown (t : Table) : t.grown.toList = t.arranged := by
  rw [grown, arranged]
  cases h : t.growth? with
  | none => rfl
  | some n =>
    simp only [Option.isSome_some, if_true, toList_rehash, bucketOf, bucketCount_rehash,
      count_of_growth? h]

/-- Entries that come to one bucket stay in their order. -/
lemma filter_arranged (t : Table) (i : Nat) :
    t.arranged.filter (fun x => t.grown.bucketOf x.hash = i) =
      t.toList.filter (fun x => t.grown.bucketOf x.hash = i) := by
  rw [← toList_grown, grown]
  split
  · rw [toList_rehash, filter_mergeSort fun x : Entry => t.rehash.bucketOf x.hash]
  · rfl

/-- An insertion rearranges the iteration if the table grows, and then puts its entry after all that
are in no later bucket, or in the place of the one with its address. -/
structure InsertsInOrder (t : Table) (e : Entry) : Prop where
  bucketCount_eq : (t.insert e).2.bucketCount = t.growth?.getD t.bucketCount
  stable : ∀ i, t.arranged.filter (fun x => (t.insert e).2.bucketOf x.hash = i) =
    t.toList.filter (fun x => (t.insert e).2.bucketOf x.hash = i)
  of_not_mem : e.address ∉ t → ∃ before after, t.arranged = before ++ after ∧
    (t.insert e).2.toList = before ++ e :: after ∧
    (∀ x ∈ before, (t.insert e).2.bucketOf x.hash ≤ (t.insert e).2.bucketOf e.hash) ∧
    ∀ x ∈ after, (t.insert e).2.bucketOf e.hash < (t.insert e).2.bucketOf x.hash
  of_mem : e.address ∈ t → ∃ (i : Nat) (x : Entry), t.arranged[i]? = some x ∧
    x.address = e.address ∧ (t.insert e).2.toList = t.arranged.set i e

/-- Every insertion, whether or not the table is full and the address in it, keeps the order in this
way. -/
lemma insertsInOrder (t : Table) (e : Entry) : t.InsertsInOrder e where
  bucketCount_eq := by
    rw [insert_eq, ← bucketCount_grown]
    rfl
  stable := by
    rw [insert_eq, bucketOf_link]
    exact t.filter_arranged
  of_not_mem h := by
    rw [insert_eq, bucketOf_link, toList_link_of_not_mem (by rwa [mem_grown]), ← toList_grown]
    refine ⟨_, _, ?_, rfl, fun x hx => ?_, fun x hx => ?_⟩
    · exact (filter_append_filter t.grown.pairwise_toList _).symm
    · simpa using (List.mem_filter.1 hx).2
    · simpa using (List.mem_filter.1 hx).2
  of_mem h := by
    have hmem : e ∈ t.grown.toList := by
      rw [e.eq_ofAddress, ← mem_iff_mem_toList, mem_grown]
      exact h
    -- the entry that is there is the same one, since a hash is that of the address
    obtain ⟨i, hi⟩ := List.mem_iff_getElem?.1 hmem
    rw [insert_eq, toList_link_of_mem (by rwa [mem_grown]), ← toList_grown]
    refine ⟨i, e, hi, rfl, ?_⟩
    obtain ⟨hlt, heq⟩ := List.getElem?_eq_some_iff.1 hi
    rw [← heq, List.set_getElem_self]

/-! ### The order as a whole -/

/-- The iteration goes through the buckets in ascending order. Putting in adds to it or replaces in
it, after a sort if the table grows, and taking out removes one entry and leaves the others in order.
-/
structure IteratesInOrder (t : Table) : Prop where
  ascending : t.toList.Pairwise fun x y =>
    x.hash.toNat % t.bucketCount ≤ y.hash.toNat % t.bucketCount
  insertsInOrder : ∀ e, t.InsertsInOrder e
  toList_erase : ∀ a, (t.erase a).2.toList = t.toList.erase (.ofAddress a)

/-- Every table iterates in this order: no condition on how it has come about is needed. -/
lemma iteratesInOrder (t : Table) : t.IteratesInOrder :=
  ⟨t.pairwise_toList, t.insertsInOrder, t.toList_erase⟩

end Table

end HybridGC
