import HybridGC.Avalanche
import HybridGC.Table.Ladder

/-!
# Identity tables

A chained hash table keyed by payload address. Each tracked object owns one entry, and the entry
moves between tables as the object changes partition. New entries go to the end of their chain, so
the iteration order (bucket by bucket, each chain from its front) is a stable sort of the order of
insertion by bucket.
-/

namespace HybridGC

/-! ### Entries -/

/-- An address with its hash. -/
structure Entry where
  address : UInt64
  hash : UInt64
  hash_eq : hash = avalanche address
deriving DecidableEq

namespace Entry

/-- The entry of an address. -/
def ofAddress (a : UInt64) : Entry :=
  ⟨a, avalanche a, rfl⟩

@[simp] theorem address_ofAddress (a : UInt64) : (ofAddress a).address = a := rfl

/-- An entry is known by its address. -/
theorem eq_ofAddress (e : Entry) : e = ofAddress e.address := by
  obtain ⟨a, hash, rfl⟩ := e
  rfl

instance : Inhabited Entry := ⟨ofAddress 0⟩

/-- Entries with one address are one entry. -/
theorem ext_address {x y : Entry} (h : x.address = y.address) : x = y := by
  rw [x.eq_ofAddress, y.eq_ofAddress, h]

/-- Whether this is the entry of an address with the given hash. -/
def Matches (e : Entry) (hash address : UInt64) : Prop :=
  e.hash = hash ∧ e.address = address

instance (e : Entry) (hash address : UInt64) : Decidable (e.Matches hash address) :=
  inferInstanceAs (Decidable (_ ∧ _))

@[simp] theorem matches_iff (x e : Entry) : x.Matches e.hash e.address ↔ x = e := by
  constructor
  · exact fun h => ext_address h.2
  · rintro rfl
    exact ⟨rfl, rfl⟩

end Entry

/-! ### Chains -/

/-- The entries of one bucket. -/
abbrev Chain := List Entry

namespace Chain

/-- Put an entry in the place of the one with its address, which is handed back, or at the end. -/
def link (e : Entry) : Chain → Option Entry × Chain
  | [] => (none, [e])
  | x :: rest =>
    if x.Matches e.hash e.address then (some x, e :: rest)
    else
      let (old, rest') := link e rest
      (old, x :: rest')

/-- Take the entry of an address out. -/
def unlink (hash address : UInt64) : Chain → Option Entry × Chain
  | [] => (none, [])
  | x :: rest =>
    if x.Matches hash address then (some x, rest)
    else
      let (found, rest') := unlink hash address rest
      (found, x :: rest')

/-- An entry that displaces another is equal to it, and the chain stays as it is. -/
theorem link_eq (e : Entry) (c : Chain) :
    link e c = if e ∈ c then (some e, c) else (none, c ++ [e]) := by
  induction c with
  | nil => rfl
  | cons x rest ih =>
    simp only [link, Entry.matches_iff, ih, List.mem_cons]
    by_cases hx : x = e
    · simp [hx]
    · by_cases he : e ∈ rest <;> simp [hx, he, Ne.symm hx]

theorem unlink_eq (a : UInt64) (c : Chain) :
    unlink (avalanche a) a c =
      if Entry.ofAddress a ∈ c then (some (.ofAddress a), c.erase (.ofAddress a))
      else (none, c) := by
  have hm (x : Entry) : x.Matches (avalanche a) a ↔ x = .ofAddress a :=
    Entry.matches_iff x (.ofAddress a)
  induction c with
  | nil => rfl
  | cons x rest ih =>
    simp only [unlink, hm, ih, List.mem_cons]
    by_cases hx : x = .ofAddress a
    · simp [hx]
    · by_cases he : Entry.ofAddress a ∈ rest <;> simp [hx, he, Ne.symm hx]

end Chain

/-! ### Tables -/

/-- A hash table of entries on some rung of its ladder. -/
structure Table where
  ladder : Ladder
  rung : Nat
  buckets : Array Chain
  size : Nat
  buckets_size : buckets.size = ladder.count rung
  /-- Every entry is in the bucket of its hash. -/
  bucket_of_mem : ∀ i (hi : i < buckets.size), ∀ e ∈ buckets[i],
    e.hash.toNat % ladder.count rung = i
  /-- No address has two entries. -/
  nodup_bucket : ∀ i (hi : i < buckets.size), buckets[i].Nodup
  size_eq : size = buckets.toList.flatten.length

namespace Table

/-- The table without entries on a rung. -/
def onRung (l : Ladder) (rung : Nat) : Table where
  ladder := l
  rung := rung
  buckets := Array.replicate (l.count rung) []
  size := 0
  buckets_size := by simp
  bucket_of_mem := by simp
  nodup_bucket := by simp
  size_eq := by simp

@[simp] theorem size_onRung (l : Ladder) (rung : Nat) : (onRung l rung).size = 0 := rfl

/-- The table without entries on the lowest rung. -/
def empty (l : Ladder) : Table :=
  onRung l 0

instance : Inhabited Table := ⟨empty default⟩

/-- The number of buckets. -/
def bucketCount (t : Table) : Nat :=
  t.ladder.count t.rung

theorem bucketCount_pos (t : Table) : 0 < t.bucketCount :=
  t.ladder.count_pos t.rung

/-- The bucket a hash belongs to. -/
def bucketOf (t : Table) (hash : UInt64) : Nat :=
  hash.toNat % t.bucketCount

theorem bucketOf_lt (t : Table) (hash : UInt64) : t.bucketOf hash < t.buckets.size := by
  rw [t.buckets_size]
  exact Nat.mod_lt _ t.bucketCount_pos

/-- The chain a hash belongs to. -/
def chainOf (t : Table) (hash : UInt64) : Chain :=
  t.buckets.getD (t.bucketOf hash) []

theorem chainOf_eq_getElem (t : Table) (hash : UInt64) (h : t.bucketOf hash < t.buckets.size) :
    t.chainOf hash = t.buckets[t.bucketOf hash] := by
  simp [chainOf, h]

theorem bucketOf_of_mem_chainOf {t : Table} {hash : UInt64} {e : Entry}
    (h : e ∈ t.chainOf hash) : t.bucketOf e.hash = t.bucketOf hash := by
  rw [t.chainOf_eq_getElem hash (t.bucketOf_lt hash)] at h
  exact t.bucket_of_mem _ (t.bucketOf_lt hash) e h

theorem nodup_chainOf (t : Table) (hash : UInt64) : (t.chainOf hash).Nodup := by
  rw [t.chainOf_eq_getElem hash (t.bucketOf_lt hash)]
  exact t.nodup_bucket _ (t.bucketOf_lt hash)

/-- The entries in iteration order. -/
def toList (t : Table) : List Entry :=
  t.buckets.toList.flatten

@[simp] theorem toList_onRung (l : Ladder) (rung : Nat) : (onRung l rung).toList = [] := by
  simp [toList, onRung]

/-- The addresses in iteration order. -/
def addresses (t : Table) : List UInt64 :=
  t.toList.map (·.address)

instance : Membership UInt64 Table := ⟨fun t a => a ∈ t.addresses⟩

/-- Whether the table holds nothing. -/
def isEmpty (t : Table) : Bool :=
  t.size == 0

/-- The entry of an address. -/
def get? (t : Table) (a : UInt64) : Option Entry :=
  let hash := avalanche a
  (t.chainOf hash).find? fun e => e.Matches hash a

/-- Whether an address has an entry. -/
def contains (t : Table) (a : UInt64) : Bool :=
  (t.get? a).isSome

/-! ### Changing one chain -/

private theorem length_flatten_set {α : Type} (ls : List (List α)) (i : Nat) (hi : i < ls.length)
    (c : List α) :
    (ls.set i c).flatten.length + ls[i].length = ls.flatten.length + c.length := by
  induction ls generalizing i with
  | nil => simp at hi
  | cons l ls ih =>
    cases i with
    | zero => simp; omega
    | succ i =>
      have := ih i (by simpa using hi)
      simp only [List.set_cons_succ, List.flatten_cons, List.length_append,
        List.getElem_cons_succ]
      omega

theorem length_chainOf_le (t : Table) (hash : UInt64) : (t.chainOf hash).length ≤ t.size := by
  have h := length_flatten_set t.buckets.toList (t.bucketOf hash) (t.bucketOf_lt hash) []
  have h' := t.size_eq
  simp only [Array.getElem_toList, List.length_nil, Nat.add_zero] at h
  rw [t.chainOf_eq_getElem hash (t.bucketOf_lt hash)]
  omega

/-- The table with another chain of entries, none of them twice, in the bucket of a hash. -/
def setChain (t : Table) (hash : UInt64) (c : Chain) (size : Nat)
    (hc : ∀ e ∈ c, t.bucketOf e.hash = t.bucketOf hash) (hnodup : c.Nodup)
    (hsize : size + (t.chainOf hash).length = t.size + c.length) : Table where
  ladder := t.ladder
  rung := t.rung
  buckets := t.buckets.set (t.bucketOf hash) c (t.bucketOf_lt hash)
  size := size
  buckets_size := by rw [Array.size_set, t.buckets_size]
  bucket_of_mem := by
    intro i hi e he
    rw [Array.getElem_set] at he
    split at he
    case isTrue h => exact h ▸ hc e he
    case isFalse => exact t.bucket_of_mem i (by simpa using hi) e he
  nodup_bucket := by
    intro i hi
    rw [Array.getElem_set]
    split
    case isTrue => exact hnodup
    case isFalse => exact t.nodup_bucket i (by simpa using hi)
  size_eq := by
    have h := length_flatten_set t.buckets.toList (t.bucketOf hash) (t.bucketOf_lt hash) c
    have h' := t.size_eq
    rw [t.chainOf_eq_getElem hash (t.bucketOf_lt hash)] at hsize
    simp only [Array.getElem_toList] at h
    rw [Array.toList_set]
    omega

theorem chainOf_setChain (t : Table) (hash : UInt64) (c : Chain) (size : Nat) (hc hnodup hsize)
    (hash' : UInt64) :
    (t.setChain hash c size hc hnodup hsize).chainOf hash' =
      if t.bucketOf hash' = t.bucketOf hash then c else t.chainOf hash' := by
  show (t.buckets.set (t.bucketOf hash) c (t.bucketOf_lt hash)).getD (t.bucketOf hash') [] = _
  by_cases h : t.bucketOf hash' = t.bucketOf hash
  · simp [h, t.bucketOf_lt hash]
  · simp [h, chainOf, Array.getElem?_set_ne, Ne.symm h]

/-! ### Operations -/

/-- Put an entry into its chain, without growing. -/
def link (t : Table) (e : Entry) : Option Entry × Table :=
  match h : Chain.link e (t.chainOf e.hash) with
  | (old, chain) =>
    (old, t.setChain e.hash chain (if old.isSome then t.size else t.size + 1)
      (by
        rw [Chain.link_eq] at h
        grind [bucketOf_of_mem_chainOf])
      (by
        have := t.nodup_chainOf e.hash
        rw [Chain.link_eq] at h
        grind)
      (by
        rw [Chain.link_eq] at h
        grind))

/-- Climb one rung and distribute the entries, in iteration order, over the new buckets. -/
def rehash (t : Table) : Table :=
  t.toList.foldl (fun t' e => (t'.link e).2) (onRung t.ladder (t.rung + 1))

/-- The bucket count an insertion moves to: the next rung, if there is one, when the entries are
as many as the buckets. -/
def growth? (t : Table) : Option Nat :=
  if t.bucketCount ≤ t.size then t.ladder.counts[t.rung + 1]? else none

/-- Put an entry in, growing first if the table is full, and hand back the one it displaces. A full
table grows even when the entry only replaces another. -/
def insert (t : Table) (e : Entry) : Option Entry × Table :=
  if t.growth?.isSome then t.rehash.link e else t.link e

/-- Take the entry of an address out. -/
def erase (t : Table) (a : UInt64) : Option Entry × Table :=
  match h : Chain.unlink (avalanche a) a (t.chainOf (avalanche a)) with
  | (found, chain) =>
    (found, t.setChain (avalanche a) chain (if found.isSome then t.size - 1 else t.size)
      (by
        rw [Chain.unlink_eq] at h
        grind [bucketOf_of_mem_chainOf])
      (by
        have := t.nodup_chainOf (avalanche a)
        rw [Chain.unlink_eq] at h
        grind)
      (by
        have := t.length_chainOf_le (avalanche a)
        rw [Chain.unlink_eq] at h
        grind))

/-- Take every entry out, in iteration order. The buckets stay as many as they were. -/
def drain (t : Table) : List Entry × Table :=
  (t.toList, onRung t.ladder t.rung)

end Table

end HybridGC
