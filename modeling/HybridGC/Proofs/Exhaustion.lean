import HybridGC.Proofs.Exclusivity

/-!
# A second search finds nothing

Condemning cycles takes payloads out of the search. Fewer words name the survivors then, and an
object whose count exceeded its words may not exceed them any longer. If no count is below the
number of words that name the object, nothing comes of it: what owns itself among the survivors
has owned itself before, together with all that has been condemned, and so would have been condemned
as well.
-/

namespace HybridGC

namespace Heap

variable {δ : Type} {h : Heap δ} {zeroCount multiRef rest roots : List UInt64}
variable {X Y : Finset UInt64}

/-- The count of each of the given objects is at least the number of words of their payloads that
name it. -/
def Covers (h : Heap δ) (multiRef : List UInt64) : Prop :=
  ∀ o ∈ multiRef, ∑ m ∈ multiRef.toFinset, (h.words m).count o ≤ (h.refs o).toNat

-- by the list, not by all the addresses there are
instance (h : Heap δ) (multiRef : List UInt64) : Decidable (h.Covers multiRef) :=
  List.decidableBAll _ multiRef

/-- What owns itself among the objects that another such set has left, owns itself together with
this set. -/
lemma SelfOwned.union (hX : h.SelfOwned zeroCount multiRef roots X)
    (hY : h.SelfOwned zeroCount rest roots Y) (hrest : ∀ a, a ∈ rest ↔ a ∈ multiRef ∧ a ∉ X)
    (hcovers : h.Covers multiRef) : h.SelfOwned zeroCount multiRef roots (X ∪ Y) := by
  have hleft {o : UInt64} (ho : o ∈ Y) : o ∈ multiRef ∧ o ∉ X :=
    (hrest o).1 (hY.mem_multiRef o ho)
  have hmem : ∀ o ∈ X ∪ Y, o ∈ multiRef := by
    intro o ho
    rcases Finset.mem_union.1 ho with ho | ho
    · exact hX.mem_multiRef o ho
    · exact (hleft ho).1
  have hdisj : Disjoint X Y := Finset.disjoint_right.2 fun o ho => (hleft ho).2
  constructor
  case mem_multiRef => exact hmem
  case not_mem_roots =>
    intro o ho
    rcases Finset.mem_union.1 ho with ho | ho
    · exact hX.not_mem_roots o ho
    · exact hY.not_mem_roots o ho
  case not_mem_zeroCount =>
    intro o ho
    rcases Finset.mem_union.1 ho with ho | ho
    · exact hX.not_mem_zeroCount o ho
    · exact hY.not_mem_zeroCount o ho
  case not_mem_survivor =>
    intro o ho m hm hmXY
    rw [Finset.mem_union, not_or] at hmXY
    rcases Finset.mem_union.1 ho with ho | ho
    · exact hX.not_mem_survivor o ho m hm hmXY.1
    · exact hY.not_mem_survivor o ho m ((hrest m).2 ⟨hm, hmXY.1⟩) hmXY.2
  case refs_eq =>
    intro o ho
    rw [Finset.sum_union hdisj]
    rcases Finset.mem_union.1 ho with ho | ho
    · -- what is left does not name what has gone
      have hnone : ∑ y ∈ Y, (h.words y).count o = 0 := Finset.sum_eq_zero fun y hy =>
        List.count_eq_zero.2 (hX.not_mem_survivor o ho y (hleft hy).1 (hleft hy).2)
      rw [hnone, add_zero]
      exact hX.refs_eq o ho
    · -- the words of what is left make up the whole count, so there is no other word
      have hrefs := hY.refs_eq o ho
      have hcount := hcovers o (hleft ho).1
      have hsub : X ∪ Y ⊆ multiRef.toFinset := fun a ha => List.mem_toFinset.2 (hmem a ha)
      have hle := Finset.sum_le_sum_of_subset (f := fun m => (h.words m).count o) hsub
      rw [Finset.sum_union hdisj] at hle
      omega

/-- Nothing is unreachable among the objects that are left. -/
lemma unreachable_rest (hnodup : multiRef.Nodup) (hnodup' : rest.Nodup)
    (hrest : ∀ a, a ∈ rest ↔ a ∈ multiRef ∧ a ∉ h.unreachable zeroCount multiRef roots)
    (hcovers : h.Covers multiRef) : h.unreachable zeroCount rest roots = [] := by
  have hunion := (selfOwned_unreachable hnodup).union (selfOwned_unreachable hnodup')
    (by simpa only [List.mem_toFinset] using hrest) hcovers
  rw [List.eq_nil_iff_forall_not_mem]
  intro a ha
  have hagain : a ∈ h.unreachable zeroCount multiRef roots := by
    rw [← List.mem_toFinset]
    exact subset_unreachable hnodup hunion (Finset.mem_union_right _ (List.mem_toFinset.2 ha))
  exact ((hrest a).1 (mem_unreachable.1 ha).1).2 hagain

end Heap

namespace Collector

variable {δ : Type} {c c' : Collector δ} {source target : Partition} {a : UInt64}
variable {roots : List UInt64}

/-! ### Condemning that does not stop -/

/-- A transfer that has not stopped has found the object where it was sought and moved it. -/
lemma moved_of_transfer (hne : source ≠ target)
    (hr : (transfer source target a).run c = .ok () c') :
    a ∈ c.table source ∧ c.Moved c' source target a := by
  have hmoved := moved_put_take (c := c) hne a
  by_cases ha : a ∈ c.table source
  · refine ⟨ha, ?_⟩
    by_cases hput : (((c.take source a).2.setState a target).put target (.ofAddress a)).1.isSome
    · simp [transfer, take_fst, ha, hput] at hr
    · simp [transfer, take_fst, ha, hput] at hr
      rwa [hr] at hmoved
  · simp [transfer, take_fst, ha] at hr

/-- The run: a sequence of transfers into the working table that has not stopped condemned every
object of the sequence. -/
lemma condemned_of_forM_transfer (hs : source ≠ .working) {as : List UInt64}
    (hr : (as.forM (transfer source .working)).run c = .ok () c') :
    c.Condemned c' source as := by
  induction as generalizing c with
  | nil =>
    obtain rfl : c = c' := by simpa using hr
    exact .refl c source
  | cons a as ih =>
    rw [run_forM_cons] at hr
    -- a sequence that goes on has not stopped at its first transfer
    cases hra : (transfer source .working a).run c with
    | error f c₁ => simp [hra] at hr
    | ok _ c₁ =>
      rw [hra] at hr
      obtain ⟨ha, hmoved⟩ := moved_of_transfer hs hra
      exact .cons hs ha hmoved (ih hr)

/-- Wherever condemning cycles does not stop, it has moved what it found. -/
lemma condemned_of_condemnCycles {condemned : List UInt64}
    (hr : (condemnCycles roots).run c = .ok condemned c') :
    condemned = c.cyclic roots ∧ ∃ c₁ journal,
      c' = { c₁ with cycleBaseline := c₁.multiRef.size, journal } ∧
      c.Condemned c₁ .multiRef (c.cyclic roots) := by
  cases hmove : ((c.cyclic roots).forM (transfer .multiRef .working)).run c with
  | error f c₁ =>
    rw [cyclic, List.forM_eq_forM] at hmove
    simp [condemnCycles, hmove] at hr
  | ok _ c₁ =>
    obtain ⟨journal, hrun⟩ := run_condemnCycles hmove
    rw [hrun] at hr
    cases hr
    exact ⟨rfl, c₁, journal, rfl, condemned_of_forM_transfer (by decide) hmove⟩

/-- What condemning cycles leaves has no cycle left to condemn. -/
lemma cyclic_of_condemned {c₁ : Collector δ} (hcovers : c.heap.Covers c.multiRef.addresses)
    (hcond : c.Condemned c₁ .multiRef (c.cyclic roots)) : c₁.cyclic roots = [] := by
  have hsame := hcond.sameObjects
  have hz : c₁.zeroCount = c.zeroCount := hcond.table_of_ne .zeroCount (by decide) (by decide)
  have hnodup := c₁.multiRef.nodup_addresses
  have hrest := Heap.unreachable_rest c.multiRef.nodup_addresses hnodup hcond.mem_source hcovers
  -- condemning has changed no count and no word
  have hcongr :
      (c₁.heap.unreachable c.zeroCount.addresses c₁.multiRef.addresses roots).toFinset =
        (c.heap.unreachable c.zeroCount.addresses c₁.multiRef.addresses roots).toFinset :=
    Heap.toFinset_unreachable_congr hnodup hnodup (fun _ => Iff.rfl)
      (fun a _ => hsame.refs_eq a) (fun a _ => hsame.words_eq a) (fun _ => Iff.rfl)
      (fun _ _ => Iff.rfl)
  rw [hrest, List.toFinset_nil, List.toFinset_eq_empty_iff] at hcongr
  rw [cyclic, hz]
  exact hcongr

/-- A search that finds nothing does not stop, and leaves every table and the heap as they were: it
only notes the size of the multi-ref table. -/
lemma run_condemnCycles_of_nil (hnone : c.cyclic roots = []) :
    ∃ c', (condemnCycles roots).run c = .ok [] c' ∧ c'.toPartitions = c.toPartitions ∧
      c'.heap = c.heap := by
  have hmove : ((c.cyclic roots).forM (transfer .multiRef .working)).run c = .ok () c := by
    rw [hnone]
    rfl
  obtain ⟨journal, hrun⟩ := run_condemnCycles hmove
  rw [hnone] at hrun
  exact ⟨_, hrun, rfl, rfl⟩

/-! ### The second search -/

/-- Where no count is below the number of words that name the object, condemning cycles leaves none:
the same search, made at once, condemns nothing and changes no table and nothing in the heap. The
first search comes to its end in any collector whose partitions are disjoint, whichever way it has
been driven there. -/
theorem second_search_finds_nothing (roots : List UInt64) :
    (∀ {δ : Type} {c c₁ : Collector δ} {condemned : List UInt64},
      c.heap.Covers c.multiRef.addresses →
      (condemnCycles roots).run c = .ok condemned c₁ →
      ∃ c₂, (condemnCycles roots).run c₁ = .ok [] c₂ ∧
        c₂.toPartitions = c₁.toPartitions ∧ c₂.heap = c₁.heap) ∧
    (∀ {δ : Type} {c : Collector δ}, c.Disjoint →
      ∃ condemned c₁, (condemnCycles roots).run c = .ok condemned c₁) ∧
    ∀ {δ : Type} {c : Collector δ} {ds : List Deed}, c.Driven ds → c.Disjoint := by
  refine ⟨fun {δ c c₁ condemned} hcovers hr => ?_, fun {δ c} hc => ?_, fun {δ c ds} h => ?_⟩
  · obtain ⟨-, c₁, journal, rfl, hcond⟩ := condemned_of_condemnCycles hr
    have hnone := cyclic_of_condemned hcovers hcond
    exact run_condemnCycles_of_nil hnone
  · obtain ⟨c₁, journal, hr, -⟩ := condemnCycles_condemned hc roots
    exact ⟨_, _, hr⟩
  · exact h.exclusive.labelled.disjoint

/-- A parent that holds itself and a child, and the child, which holds itself and has some counted
references. -/
def parentAndChild (n : Nat) : Bench :=
  (Bench.start .standard).run <|
    [.create 16 none, .track (.object 0 0), .promote (.object 0 0), .increment (.object 0 0),
      .create 8 none, .track (.object 1 0), .promote (.object 1 0),
      .store (.object 0 0) 0 (.object 0 0), .store (.object 0 0) 8 (.object 1 0),
      .store (.object 1 0) 0 (.object 1 0)] ++
    List.replicate n (.increment (.object 1 0))

/-- A child with a third reference survives its parent, and still does when it is looked at again.
-/
theorem second_search_finds_nothing_parentAndChild :
    ∃ c c₁ c₂, c = (parentAndChild 3).collector ∧ c.heap.Covers c.multiRef.addresses ∧
      (condemnCycles []).run c = .ok [0x10000030] c₁ ∧
      (condemnCycles []).run c₁ = .ok [] c₂ ∧ c₂.toPartitions = c₁.toPartitions := by
  obtain ⟨hnothing, hends, hdriven⟩ := second_search_finds_nothing []
  obtain ⟨ds, h⟩ := (Bench.done_start .standard).run _
  obtain ⟨condemned, c₁, hr⟩ := hends (hdriven (c := (parentAndChild 3).collector) h.driven)
  have hcovers : (parentAndChild 3).collector.heap.Covers
      (parentAndChild 3).collector.multiRef.addresses := by decide +kernel
  obtain ⟨c₂, hr', htables, -⟩ := hnothing hcovers hr
  have hfound : (parentAndChild 3).collector.cyclic [] = [0x10000030] := by decide +kernel
  obtain ⟨rfl, -⟩ := condemned_of_condemnCycles hr
  rw [hfound] at hr
  exact ⟨_, c₁, c₂, rfl, hcovers, hr, hr', htables⟩

/-- A child with fewer references than words that name it is found in a second search only. -/
example : (parentAndChild 1).collector.cyclic [] = [0x10000030] ∧
    (after (condemnCycles []) (parentAndChild 1).collector).cyclic [] = [0x10000070] := by
  decide +kernel

end Collector

end HybridGC
