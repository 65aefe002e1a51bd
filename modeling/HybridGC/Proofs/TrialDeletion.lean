import HybridGC.Proofs.Collector
import HybridGC.Proofs.Cycle

/-!
# Trial deletion is exact

Condemning cycles moves one set of multi-ref objects to the working table: the greatest set all of
whose counted references are words of its own payloads and that no root and no survivor points into.
-/

namespace HybridGC

namespace Collector

variable {δ : Type} {c : Collector δ}

/-- The multi-ref objects that a pass with some root words condemns as cyclic. -/
def cyclic (c : Collector δ) (roots : List UInt64) : List UInt64 :=
  c.heap.unreachable c.zeroCount.addresses c.multiRef.addresses roots

lemma mem_multiRef_of_mem_cyclic {roots : List UInt64} {a : UInt64} (h : a ∈ c.cyclic roots) :
    a ∈ c.multiRef :=
  (Heap.mem_unreachable.1 h).1

lemma nodup_cyclic (c : Collector δ) (roots : List UInt64) : (c.cyclic roots).Nodup :=
  Heap.nodup_unreachable c.multiRef.nodup_addresses

/-- Condemning cycles does what moving the cyclic objects does, and then notes the size of the table
and that there were some. -/
lemma run_condemnCycles {c₁ : Collector δ} {roots : List UInt64}
    (hr : ((c.cyclic roots).forM (transfer .multiRef .working)).run c = .ok () c₁) :
    ∃ journal, (condemnCycles roots).run c =
      .ok (c.cyclic roots) { c₁ with cycleBaseline := c₁.multiRef.size, journal } := by
  rw [cyclic, List.forM_eq_forM] at hr
  by_cases hempty : c.heap.unreachable c.zeroCount.addresses c.multiRef.addresses roots = []
  · obtain rfl : c = c₁ := by simpa [hempty] using hr
    refine ⟨c.journal, ?_⟩
    simp [condemnCycles, hempty, cyclic]
  · refine ⟨.cyclesCondemned (c.cyclic roots).length :: c₁.journal, ?_⟩
    simp [condemnCycles, hr, hempty, cyclic, note]

/-- Moving the cyclic objects to the working table, in whatever order, stops nowhere. -/
lemma transfer_cyclic (hc : c.Disjoint) {roots as : List UInt64} (h : as.Perm (c.cyclic roots)) :
    ∃ c₁, (as.forM (transfer .multiRef .working)).run c = .ok () c₁ ∧
      c.Condemned c₁ .multiRef as := by
  have hmulti {a : UInt64} (ha : a ∈ as) : a ∈ c.multiRef :=
    mem_multiRef_of_mem_cyclic (h.mem_iff.1 ha)
  exact forM_transfer_condemned (show Partition.multiRef ≠ .working by decide)
    (h.nodup_iff.2 (c.nodup_cyclic roots)) (fun a => hmulti) fun a ha =>
      hc.not_mem_table (p := .multiRef) (q := .working) (hmulti ha) (by decide)

/-- Condemning cycles moves them, and notes how large the multi-ref table is then. -/
lemma condemnCycles_condemned (hc : c.Disjoint) (roots : List UInt64) :
    ∃ c₁ journal, (condemnCycles roots).run c =
        .ok (c.cyclic roots) { c₁ with cycleBaseline := c₁.multiRef.size, journal } ∧
      c.Condemned c₁ .multiRef (c.cyclic roots) := by
  obtain ⟨c₁, hr, hcond⟩ := transfer_cyclic hc (.refl (c.cyclic roots))
  obtain ⟨journal, hrun⟩ := run_condemnCycles hr
  exact ⟨c₁, journal, hrun, hcond⟩

/-- The order in which the cyclic objects are condemned does not matter: in any other order no
transfer stops either, and partitions, headers and payloads end up the same. -/
theorem condemned_of_perm (hc : c.Disjoint) (roots : List UInt64) {as : List UInt64}
    (h : as.Perm (c.cyclic roots)) :
    ∃ c₁ c₂, ((c.cyclic roots).forM (transfer .multiRef .working)).run c = .ok () c₁ ∧
      (as.forM (transfer .multiRef .working)).run c = .ok () c₂ ∧
      (∀ p a, a ∈ c₂.table p ↔ a ∈ c₁.table p) ∧ (∀ a, c₂.heap.state? a = c₁.heap.state? a) ∧
      c₁.heap.SameObjects c₂.heap ∧ c₁.SameBooks c₂ ∧ c₂.lastRescued = c₁.lastRescued := by
  have hmem (a : UInt64) : a ∈ as ↔ a ∈ c.cyclic roots := h.mem_iff
  obtain ⟨c₁, hr₁, h₁⟩ := transfer_cyclic hc (.refl (c.cyclic roots))
  obtain ⟨c₂, hr₂, h₂⟩ := transfer_cyclic hc h
  refine ⟨c₁, c₂, hr₁, hr₂, fun p a => ?_, fun a => ?_, ?_, ?_, ?_⟩
  · cases p with
    | zeroCount =>
      rw [h₁.table_of_ne _ (by decide) (by decide), h₂.table_of_ne _ (by decide) (by decide)]
    | multiRef => rw [h₁.mem_source, h₂.mem_source, hmem]
    | working => exact (h₂.mem_working a).trans ((h₁.mem_working a).trans (by rw [hmem])).symm
  · rw [h₁.heap_eq, h₂.heap_eq, Heap.state?_foldl_setState, Heap.state?_foldl_setState]
    simp only [hmem]
  · exact h₁.sameObjects.symm.trans h₂.sameObjects
  · exact h₁.sameBooks.symm.trans h₂.sameBooks
  · rw [h₁.lastRescued_eq, h₂.lastRescued_eq]

/-- Trial deletion is exact. -/
theorem isGreatest_condemnCycles (c : Collector δ) (roots : List UInt64) :
    IsGreatest
        {X | c.heap.SelfOwned c.zeroCount.addresses c.multiRef.addresses roots X}
        (c.cyclic roots).toFinset ∧
      (c.cyclic roots).Nodup ∧
      (c.Disjoint → ∃ c', (condemnCycles roots).run c = .ok (c.cyclic roots) c' ∧
        (∀ a, a ∈ c'.working ↔ a ∈ c.working ∨ a ∈ c.cyclic roots) ∧
        (∀ a, a ∈ c'.multiRef ↔ a ∈ c.multiRef ∧ a ∉ c.cyclic roots) ∧
        c'.zeroCount = c.zeroCount ∧ c.heap.SameObjects c'.heap) := by
  have hnodup := c.multiRef.nodup_addresses
  refine ⟨⟨Heap.selfOwned_unreachable hnodup, fun X hX => ?_⟩, c.nodup_cyclic roots, fun hc => ?_⟩
  · exact Heap.subset_unreachable hnodup hX
  · obtain ⟨c₁, journal, hr, hcond⟩ := condemnCycles_condemned hc roots
    refine ⟨_, hr, hcond.mem_working, hcond.mem_source, ?_, hcond.sameObjects⟩
    exact hcond.table_of_ne .zeroCount (by decide) (by decide)

/-- A multi-ref object of one word that holds a pointer, referred to once. -/
def holder (next : UInt64) : Block Unit where
  header := { size := 8, destructor := none, refs := 1, state := .multiRef }
  payload := ⟨#[next, 0]⟩

/-- Two multi-ref objects that hold one another. -/
def twoCycle : Collector Unit :=
  { (empty .standard : Collector Unit) with
    multiRef := ((((Table.empty .standard).insert (.ofAddress 16)).2).insert (.ofAddress 32)).2
    heap := { blocks := .ofList [((16 : UInt64), holder 32), (32, holder 16)] } }

/-- Two objects that hold one another are condemned together, without a root. -/
theorem isGreatest_condemnCycles_twoCycle :
    twoCycle.Disjoint ∧ twoCycle.cyclic [] = [32, 16] ∧
      ∃ c', (condemnCycles []).run twoCycle = .ok [32, 16] c' ∧
        ∀ a, a ∈ c'.working ↔ a ∈ [32, 16] := by
  have hz : ∀ a, a ∉ twoCycle.zeroCount := Table.not_mem_empty _
  have hw : ∀ a, a ∉ twoCycle.working := Table.not_mem_empty _
  -- only one of the three tables has objects
  have hdisj : twoCycle.Disjoint := by
    intro p q a hp hq
    cases p with
    | zeroCount => exact absurd hp (hz a)
    | working => exact absurd hp (hw a)
    | multiRef =>
      cases q with
      | zeroCount => exact absurd hq (hz a)
      | working => exact absurd hq (hw a)
      | multiRef => rfl
  have hcyclic : twoCycle.cyclic [] = [32, 16] := by decide +kernel
  obtain ⟨-, -, hrun⟩ := isGreatest_condemnCycles twoCycle []
  obtain ⟨c', hr, hmem, -⟩ := hrun hdisj
  rw [hcyclic] at hr
  refine ⟨hdisj, hcyclic, c', hr, fun a => ?_⟩
  rw [hmem, hcyclic]
  simp [hw]

end Collector

end HybridGC
