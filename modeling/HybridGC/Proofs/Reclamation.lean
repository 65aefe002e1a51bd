import HybridGC.Proofs.Discipline
import HybridGC.Proofs.World

/-!
# Complete reclamation

Where payload words alone refer to objects, and destructors drop the words of their payloads,
collections free everything. Objects without counted references are freed at once. If there are
none, all that is tracked is held by payloads of what is tracked, and trial deletion condemns it as
a whole. So each collection frees something, whatever shape the heap has.
-/

namespace HybridGC

namespace Gc

variable {δ : Type} {g : Gc δ}

/-- If every object is referred to, and by words of payloads alone, then all of them together own
themselves. -/
lemma selfOwned_tracked (hw : ∀ a, a ∉ g.collector.working) (hz : ∀ a, a ∉ g.collector.zeroCount)
    (hrefs : ∀ a, g.collector.isTracked a = true →
      (g.collector.heap.refs a).toNat = g.wordsHolding g.collector.tracked a) :
    g.collector.heap.SelfOwned [] g.collector.multiRef.addresses [] g.collector.tracked where
  mem_multiRef a ha := by
    obtain ⟨p, hp⟩ := Partitions.isTracked_iff.1 (Partitions.mem_tracked.1 ha)
    cases p with
    | zeroCount => exact absurd hp (hz a)
    | multiRef => exact hp
    | working => exact absurd hp (hw a)
  not_mem_roots _ _ := List.not_mem_nil
  not_mem_zeroCount _ _ _ h := absurd h List.not_mem_nil
  not_mem_survivor _ _ m hm hnot := by
    exact absurd (Partitions.mem_tracked.2 (Partitions.isTracked_iff.2 ⟨.multiRef, hm⟩)) hnot
  refs_eq a ha := hrefs a (Partitions.mem_tracked.1 ha)

/-- If anything is tracked, and payload words alone refer to it, a collection dooms something. -/
lemma doomed_nonempty (hw : ∀ a, a ∉ g.collector.working)
    (hcycles : g.config.cycleCollection = true)
    (hrefs : ∀ a, g.collector.isTracked a = true →
      (g.collector.heap.refs a).toNat = g.wordsHolding g.collector.tracked a)
    (hne : g.collector.tracked.Nonempty) : (g.doomed none []).Nonempty := by
  -- an object without references is a candidate, and no root saves it; if there is none, all that
  -- is tracked is cyclic
  by_cases hz : ∃ z, z ∈ g.collector.zeroCount
  · obtain ⟨z, hz⟩ := hz
    refine ⟨z, Finset.mem_union_left _ (Finset.mem_sdiff.2 ⟨Table.mem_toFinset.2 hz, ?_⟩)⟩
    simp
  · have hz : ∀ a, a ∉ g.collector.zeroCount := fun a ha => hz ⟨a, ha⟩
    obtain ⟨a, ha⟩ := hne
    have hcyclic := Heap.subset_unreachable g.collector.multiRef.nodup_addresses
      (selfOwned_tracked hw hz hrefs) ha
    refine ⟨a, Finset.mem_union_right _ ?_⟩
    simpa [cyclic, tracesCycles, hcycles] using hcyclic

end Gc

namespace Host

open Machine

variable {μ δ : Type} {env : Environment μ δ} {calm : μ → Prop} {s : Host μ δ}

/-- Payload words alone refer to objects. Between passes and before shutdown, with cycle collection
on, no root word is reported, the count of each object is the number of payload words that hold it,
payloads hold nothing else but null, and the objects with words are those with destructors, which
drop these words and keep the client one that reports no roots. -/
structure SelfContained (env : Environment μ δ) (calm : μ → Prop) (s : Host μ δ) : Prop where
  reachable : Reachable ⟨s.gc, []⟩
  collecting_eq : s.gc.collector.collecting = false
  isShutdown_eq : s.gc.isShutdown = false
  cycleCollection_eq : s.gc.config.cycleCollection = true
  calm_client : calm s.client
  calm_beginRound : ∀ condemned c, calm c → calm (env.beginRound condemned c)
  scan_eq : ∀ c, calm c → env.scan c s.gc.scanner = some []
  refs_eq : ∀ a, s.gc.collector.isTracked a = true → (s.gc.collector.heap.refs a).toNat =
    ∑ x ∈ s.gc.collector.tracked, (s.gc.collector.heap.words x).count a
  isTracked_of_word : ∀ a w, s.gc.collector.isTracked a = true →
    w ∈ s.gc.collector.heap.words a → w ≠ 0 → s.gc.collector.isTracked w = true
  destructor?_eq_none : ∀ a, s.gc.collector.isTracked a = true →
    (s.gc.collector.heap.destructor? a = none ↔ s.gc.collector.heap.words a = [])
  drops : ∀ a d, s.gc.collector.isTracked a = true →
    s.gc.collector.heap.destructor? a = some d →
    env.Drops calm a d (s.gc.collector.heap.words a)

namespace SelfContained

/-- To payloads that refer to one another it makes no difference if there are no variables. -/
lemma balanced (hs : s.SelfContained env calm) :
    Balanced (⟨[], s.gc⟩ : Host (List UInt64) δ) where
  partitioned := hs.reachable.partitioned
  collecting_eq := hs.collecting_eq
  isShutdown_eq := hs.isShutdown_eq
  holders_eq v hv := by
    rw [holders, List.count_nil, Nat.zero_add, Gc.count, Gc.wordsHolding]
    split_ifs with ht
    · exact (hs.refs_eq v ht).symm
    · refine Finset.sum_eq_zero fun x hx => List.count_eq_zero.2 fun hmem => ht ?_
      exact hs.isTracked_of_word x v (Partitions.mem_tracked.1 hx) hmem hv
  words_of_no_destructor a ha := (hs.destructor?_eq_none a ha).1

/-- Once what a collection dooms is freed, the heap is self-contained again. -/
lemma of_released (hs : s.SelfContained env calm) {g : Gc δ} {c : Collector δ} {client : μ}
    (h : s.gc.Released g (s.gc.doomed none [])) (hc : g.collector.Swept c)
    (hcoll : c.collecting = false) (hreach : Reachable ⟨{ g with collector := c }, []⟩)
    (hcalm : calm client) : SelfContained env calm ⟨client, { g with collector := c }⟩ := by
  have hbalanced := hs.balanced.of_released h hc hcoll
  have htracked := h.isTracked_iff_of_swept hc
  have hwords := h.words_of_swept hc
  have hdestructor := h.destructor?_of_swept hc
  -- what is left was there before, and has the payload and the destructor it had
  constructor
  case reachable => exact hreach
  case collecting_eq => exact hbalanced.collecting_eq
  case isShutdown_eq => exact hbalanced.isShutdown_eq
  case cycleCollection_eq =>
    rw [← hs.cycleCollection_eq]
    exact congrArg Config.cycleCollection h.config_eq
  case calm_client => exact hcalm
  case calm_beginRound => exact hs.calm_beginRound
  case scan_eq =>
    intro c hc
    simpa only [h.scanner_eq] using hs.scan_eq c hc
  case refs_eq =>
    intro a ha
    simpa using hbalanced.refs_eq ha
  case isTracked_of_word =>
    intro a w ha hw h0
    exact hbalanced.isTracked_of_held h0 (.inr ⟨a, ha, hw⟩)
  case destructor?_eq_none =>
    intro a ha
    simp only [hdestructor, hwords]
    exact hs.destructor?_eq_none a ((htracked a).1 ha).1
  case drops =>
    intro a d ha
    simp only [hdestructor, hwords]
    exact hs.drops a d ((htracked a).1 ha).1

/-- A collection of a self-contained heap returns, has freed something if there was anything, and
leaves a self-contained heap. -/
lemma collect (hs : s.SelfContained env calm) :
    ∃ n s', (runPass env none).run s = .ok n s' ∧ s'.SelfContained env calm ∧
      n + s'.gc.collector.trackedCount = s.gc.collector.trackedCount ∧
      (s.gc.collector.trackedCount ≠ 0 → n ≠ 0) := by
  have hbalanced := hs.balanced
  have hpart : s.gc.Partitioned := hbalanced.partitioned
  obtain ⟨pass, g, s₁, hopen, hdestroy, hcalm, hreleased, hsteps⟩ :=
    released hpart hs.collecting_eq hs.isShutdown_eq hbalanced.wordsHolding_le
      hbalanced.words_of_no_destructor hs.drops
      (fun condemned => hs.calm_beginRound condemned _ hs.calm_client) none []
  obtain ⟨c, hrun, hclose, hswept, hcoll⟩ :=
    run_runPass (hs.scan_eq _ hs.calm_client) hopen hdestroy
  -- the pass is a run of steps, so what it leaves has come about too
  have hreach : Reachable ⟨{ s₁.gc with collector := c }, []⟩ := by
    obtain ⟨config, scanner, hstart⟩ := hs.reachable
    rw [← hclose]
    exact ⟨config, scanner, hstart.trans (hsteps.tail (.closePass s₁.gc []))⟩
  have hsize : s₁.gc.collector.working.size = (s.gc.doomed none []).card := by
    rw [← Table.card_toFinset, hreleased.toFinset_working]
  refine ⟨_, _, hrun, hs.of_released hreleased hswept hcoll hreach hcalm, ?_, ?_⟩
  · rw [hsize, ← card_tracked hreach.partitioned.collector.disjoint,
      Partitions.tracked_eq_sdiff (hreleased.isTracked_iff_of_swept hswept), Nat.add_comm,
      Finset.card_sdiff_add_card_eq_card (s.gc.doomed_subset_tracked none []),
      card_tracked hpart.collector.disjoint]
  · rw [hsize, ← card_tracked hpart.collector.disjoint, Finset.card_ne_zero, Finset.card_ne_zero]
    exact Gc.doomed_nonempty (hpart.idle hs.collecting_eq hs.isShutdown_eq) hs.cycleCollection_eq
      hs.refs_eq

end SelfContained

end Host

end HybridGC
