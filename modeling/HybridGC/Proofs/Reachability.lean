import HybridGC.Proofs.Cycle
import HybridGC.Proofs.Table

/-!
# What the search reaches

The search ends with the least set of multi-ref objects that holds what a root word names and what
is owned from outside, and with every payload it reads whatever that payload names. Neither the
order in which the tables name their objects nor the order in which pending payloads are read makes
a difference, and if no object is in both tables none is read twice.
-/

namespace HybridGC

open Std (TreeSet)

/-- Which of some objects have been reached. -/
def Frontier.reached (f : Frontier) (objects : Finset UInt64) : Finset UInt64 :=
  objects.filter (· ∉ f.unreached)

namespace Heap

variable {δ : Type} {h : Heap δ} {zeroCount multiRef roots reads : List UInt64}
variable {Y : Finset UInt64}

/-- A set of multi-ref objects that holds those a root word names and those whose count is not the
number of words of multi-ref payloads that name them, and all that the payloads of zero-count
objects and its own payloads name. -/
structure ClosedFrom (h : Heap δ) (zeroCount multiRef : Finset UInt64) (roots : List UInt64)
    (X : Finset UInt64) : Prop where
  subset : X ⊆ multiRef
  of_root : ∀ o ∈ multiRef, o ∈ roots → o ∈ X
  of_owned : ∀ o ∈ multiRef, (h.refs o).toNat ≠ ∑ m ∈ multiRef, (h.words m).count o → o ∈ X
  of_zeroCount : ∀ o ∈ multiRef, ∀ z ∈ zeroCount, o ∈ h.words z → o ∈ X
  of_mem : ∀ o ∈ multiRef, ∀ x ∈ X, o ∈ h.words x → o ∈ X

/-- The multi-ref objects that are not unreachable. -/
def reachable (h : Heap δ) (zeroCount multiRef roots : List UInt64) : Finset UInt64 :=
  multiRef.toFinset \ (h.unreachable zeroCount multiRef roots).toFinset

/-- What a closed set leaves of the multi-ref objects owns itself. -/
lemma ClosedFrom.selfOwned (hY : h.ClosedFrom zeroCount.toFinset multiRef.toFinset roots Y) :
    h.SelfOwned zeroCount multiRef roots (multiRef.toFinset \ Y) := by
  have hmem {o} (ho : o ∈ multiRef.toFinset \ Y) : o ∈ multiRef.toFinset ∧ o ∉ Y :=
    Finset.mem_sdiff.1 ho
  have hout {o m} (ho : o ∈ multiRef.toFinset \ Y) (hm : m ∈ multiRef.toFinset)
      (hmY : m ∉ multiRef.toFinset \ Y) : o ∉ h.words m := by
    intro hw
    rw [Finset.mem_sdiff, not_and, not_not] at hmY
    exact (hmem ho).2 (hY.of_mem o (hmem ho).1 m (hmY hm) hw)
  constructor
  case mem_multiRef =>
    intro o ho
    exact List.mem_toFinset.1 (hmem ho).1
  case not_mem_roots =>
    intro o ho hr
    exact (hmem ho).2 (hY.of_root o (hmem ho).1 hr)
  case not_mem_zeroCount =>
    intro o ho z hz hw
    exact (hmem ho).2 (hY.of_zeroCount o (hmem ho).1 z (List.mem_toFinset.2 hz) hw)
  case not_mem_survivor =>
    intro o ho m hm
    exact hout ho (List.mem_toFinset.2 hm)
  case refs_eq =>
    intro o ho
    -- if its references were not all in multi-ref payloads, the object would be in the closed set
    have hrefs : (h.refs o).toNat = ∑ m ∈ multiRef.toFinset, (h.words m).count o := by
      by_contra hne
      exact (hmem ho).2 (hY.of_owned o (hmem ho).1 hne)
    rw [hrefs]
    exact sum_count_eq_of_subset Finset.sdiff_subset fun m hm => hout ho hm

/-! ### Searches -/

/-- An object can be read once for each time it is named, as a zero-count object or a multi-ref one.
-/
lemma due_searchStart (a : UInt64) : (h.searchStart zeroCount multiRef roots).due a =
    zeroCount.count a + if a ∈ multiRef then 1 else 0 := by
  rw [searchStart, Frontier.due_reachAll, Frontier.due_reachAll]
  simp [Frontier.due, TreeSet.mem_ofList]

lemma size_searchStart_le :
    (h.searchStart zeroCount multiRef roots).size ≤ zeroCount.length + multiRef.length := by
  rw [searchStart, Frontier.size_reachAll, Frontier.size_reachAll, Frontier.size, Nat.add_comm]
  exact Nat.add_le_add_left TreeSet.size_ofList_le _

section Searched

variable {f : Frontier}
variable (hs : Frontier.Searches h.words reads (h.searchStart zeroCount multiRef roots) f)
include hs

/-- What the search has not reached was not reached when it started: no root names it, and its
references are all in multi-ref payloads. -/
lemma unreached_of_searches {o : UInt64} (ho : o ∈ f.unreached) :
    o ∈ multiRef ∧ o ∉ roots ∧ o ∉ h.externallyOwned multiRef :=
  mem_unreached_searchStart.1 (hs.mem_unreached.1 ho).1

/-- A search that has come to its end has read the zero-count objects and what it has reached. -/
lemma mem_reads_iff (hf : f.pending = []) {a : UInt64} :
    a ∈ reads ↔ a ∈ zeroCount ∨ a ∈ f.reached multiRef.toFinset := by
  have hleft := unreached_of_searches hs (o := a)
  rw [hs.mem_iff hf, mem_pending_searchStart, mem_unreached_searchStart, Frontier.reached,
    Finset.mem_filter, List.mem_toFinset]
  tauto

/-- What a search reaches is closed, once nothing is pending. -/
lemma closedFrom_reached (hnodup : multiRef.Nodup) (hf : f.pending = []) :
    h.ClosedFrom zeroCount.toFinset multiRef.toFinset roots (f.reached multiRef.toFinset) := by
  have hreached {o} (ho : o ∈ multiRef.toFinset) (hu : o ∉ f.unreached) :
      o ∈ f.reached multiRef.toFinset := Finset.mem_filter.2 ⟨ho, hu⟩
  have hread {o a} (ha : a ∈ reads) (hw : o ∈ h.words a) : o ∉ f.unreached := fun hu =>
    (hs.mem_unreached.1 hu).2 a ha hw
  constructor
  case subset => exact Finset.filter_subset _ _
  case of_root =>
    intro o ho hr
    exact hreached ho fun hu => (unreached_of_searches hs hu).2.1 hr
  case of_owned =>
    intro o ho hne
    refine hreached ho fun hu => (unreached_of_searches hs hu).2.2 ?_
    exact (mem_externallyOwned hnodup).2 ⟨List.mem_toFinset.1 ho, hne⟩
  case of_zeroCount =>
    intro o ho z hz hw
    exact hreached ho (hread ((mem_reads_iff hs hf).2 (.inl (List.mem_toFinset.1 hz))) hw)
  case of_mem =>
    intro o ho x hx hw
    exact hreached ho (hread ((mem_reads_iff hs hf).2 (.inr hx)) hw)

/-- A search reaches nothing outside a closed set, whether or not it has come to its end. -/
lemma reached_subset (hnodup : multiRef.Nodup)
    (hY : h.ClosedFrom zeroCount.toFinset multiRef.toFinset roots Y) :
    f.reached multiRef.toFinset ⊆ Y := by
  intro o ho
  obtain ⟨ho, hu⟩ := Finset.mem_filter.1 ho
  by_contra hoY
  -- what is left outside owns itself, so no payload that the search reads names it
  exact hu ((hs.isolates (hY.selfOwned.isolates hnodup)).mem_unreached o
    (Finset.mem_sdiff.2 ⟨ho, hoY⟩))

/-- A search that has come to its end has reached the least closed set, in whatever order it has
read. -/
lemma isLeast_reached (hnodup : multiRef.Nodup) (hf : f.pending = []) :
    IsLeast {X | h.ClosedFrom zeroCount.toFinset multiRef.toFinset roots X}
      (f.reached multiRef.toFinset) :=
  ⟨closedFrom_reached hs hnodup hf, fun _ hY => reached_subset hs hnodup hY⟩

/-- No payload is read twice, if no object is in both tables. -/
lemma nodup_reads (hnodup : zeroCount.Nodup) (hdisj : ∀ a ∈ zeroCount, a ∉ multiRef) :
    reads.Nodup := by
  rw [List.nodup_iff_count_le_one]
  intro a
  have hcount := hs.count_add_due a
  rw [due_searchStart] at hcount
  by_cases ha : a ∈ zeroCount
  · rw [List.count_eq_one_of_mem hnodup ha, if_neg (hdisj a ha)] at hcount
    omega
  · rw [List.count_eq_zero.2 ha] at hcount
    split at hcount
    · omega
    · omega

/-- A search reads at most one payload for each tracked object, so it comes to its end. -/
lemma length_reads_le : reads.length ≤ zeroCount.length + multiRef.length := by
  have hsize := hs.length_add_size
  have hle : (h.searchStart zeroCount multiRef roots).size ≤ _ := size_searchStart_le
  omega

end Searched

lemma reachable_eq_reached : h.reachable zeroCount multiRef roots =
    Frontier.reached ⟨Frontier.exhaust h.words (h.searchStart zeroCount multiRef roots), []⟩
      multiRef.toFinset := by
  ext o
  simp only [reachable, Frontier.reached, Finset.mem_sdiff, List.mem_toFinset, Finset.mem_filter,
    mem_unreachable]
  tauto

/-- The search reaches the least closed set, in whatever order the tables name their objects and the
pending payloads are read, and reads no payload twice. -/
theorem isLeast_reachable (h : Heap δ) (zeroCount multiRef : Table) (roots : List UInt64) :
    IsLeast {X | h.ClosedFrom zeroCount.toFinset multiRef.toFinset roots X}
        (h.reachable zeroCount.addresses multiRef.addresses roots) ∧
      ∀ zeroCount' multiRef' : Table, zeroCount'.toFinset = zeroCount.toFinset →
        multiRef'.toFinset = multiRef.toFinset →
        let start := h.searchStart zeroCount'.addresses multiRef'.addresses roots
        (∃ reads, Frontier.Searches h.words reads start ⟨start.exhaust h.words, []⟩) ∧
        ∀ reads f, Frontier.Searches h.words reads start f →
          reads.length ≤ zeroCount.size + multiRef.size ∧
          (Disjoint zeroCount.toFinset multiRef.toFinset → reads.Nodup) ∧
          (f.pending = [] →
            f.reached multiRef.toFinset =
                h.reachable zeroCount.addresses multiRef.addresses roots ∧
              ∀ a, a ∈ reads ↔ a ∈ zeroCount ∨ a ∈ f.reached multiRef.toFinset) := by
  have hnodup := multiRef.nodup_addresses
  have hleast : IsLeast {X | h.ClosedFrom zeroCount.toFinset multiRef.toFinset roots X}
      (h.reachable zeroCount.addresses multiRef.addresses roots) := by
    obtain ⟨reads, hs⟩ := Frontier.searches_exhaust h.words
      (h.searchStart zeroCount.addresses multiRef.addresses roots)
    rw [reachable_eq_reached]
    exact isLeast_reached hs hnodup rfl
  have hsize {t t' : Table} (ht : t'.toFinset = t.toFinset) : t.size = t'.addresses.length := by
    rw [← t.card_toFinset, ← ht, t'.card_toFinset, t'.size_eq_length]
  -- other tables of the same objects start a search that reads in another order, but to the same
  -- end
  refine ⟨hleast, fun zeroCount' multiRef' hz hm => ⟨Frontier.searches_exhaust h.words _, ?_⟩⟩
  intro reads f hs
  refine ⟨?_, fun hdisj => ?_, fun hf => ⟨?_, fun a => ?_⟩⟩
  · rw [hsize hz, hsize hm]
    exact length_reads_le hs
  · refine nodup_reads hs zeroCount'.nodup_addresses fun a ha ha' => ?_
    rw [← hz, ← hm] at hdisj
    exact Finset.disjoint_left.1 hdisj (Table.mem_toFinset.2 ha) (Table.mem_toFinset.2 ha')
  · have hleast' := isLeast_reached hs multiRef'.nodup_addresses hf
    rw [← hm]
    rw [← hz, ← hm] at hleast
    exact hleast'.unique hleast
  · have hreads := mem_reads_iff hs hf (a := a)
    rw [hreads, ← Table.mem_toFinset (t := zeroCount), ← hz, ← hm]
    exact or_congr_left Table.mem_toFinset.symm

/-- An object with some counted references and some words. -/
def node (refs : UInt64) (words : List UInt64) : Block Unit where
  header := { size := 8 * words.length, destructor := none, refs }
  payload := ⟨words.toArray⟩

/-- An object that holds the first of two that hold each other, the first also itself, and one that
holds only itself. -/
def loops : Heap Unit where
  blocks := .ofList [((16 : UInt64), node 0 [32]), (32, node 2 [48, 32]), (48, node 1 [32]),
    (64, node 1 [64])]

/-- The table of some addresses, put in one after the other. -/
def tableOf (l : Ladder) (as : List UInt64) : Table :=
  as.foldl (fun t a => (t.insert (.ofAddress a)).2) (.empty l)

/-- Of four objects the search reaches the two that hold each other, from the one that holds the
first, over another table of the same objects in the opposite order. -/
theorem isLeast_reachable_loops :
    ∃ zeroCount multiRef multiRef' : Table, multiRef'.addresses ≠ multiRef.addresses ∧
      multiRef'.toFinset = multiRef.toFinset ∧
      Disjoint zeroCount.toFinset multiRef.toFinset ∧
      ∃ reads f, Frontier.Searches loops.words reads
          (loops.searchStart zeroCount.addresses multiRef'.addresses []) f ∧ f.pending = [] ∧
        reads.length ≤ 4 ∧ reads.Nodup ∧ f.reached multiRef.toFinset = {32, 48} ∧
        16 ∈ reads ∧ 64 ∉ reads := by
  let zeroCount := tableOf .standard [16]
  let multiRef := tableOf .standard [32, 48, 64]
  let multiRef' := tableOf ⟨[1], by decide, by decide⟩ [64, 48, 32]
  have hm : multiRef'.toFinset = multiRef.toFinset := by decide +kernel
  have hdisj : Disjoint zeroCount.toFinset multiRef.toFinset := by decide +kernel
  have hfound : loops.reachable zeroCount.addresses multiRef.addresses [] = {32, 48} := by
    decide +kernel
  obtain ⟨-, hany⟩ := isLeast_reachable loops zeroCount multiRef []
  obtain ⟨⟨reads, hs⟩, hall⟩ := hany zeroCount multiRef' rfl hm
  obtain ⟨hlength, honce, hend⟩ := hall reads _ hs
  obtain ⟨hreached, hread⟩ := hend rfl
  refine ⟨zeroCount, multiRef, multiRef', ?_, hm, hdisj, reads, _, hs, rfl, hlength, honce hdisj,
    hreached.trans hfound, ?_, ?_⟩
  · decide +kernel
  · rw [hread]
    exact .inl (by decide +kernel)
  · rw [hread, hreached, hfound]
    decide +kernel

end Heap

end HybridGC
