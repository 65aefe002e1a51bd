import HybridGC.Proofs.Exclusivity

/-!
# Registering what is tracked

Registration puts an entry into the zero-count table, and stops if one is displaced there. A payload
that waits in one of the other tables displaces nothing: it is registered a second time, has an
entry in two tables from then on, and its header names the one it had before.
-/

namespace HybridGC

namespace Collector

variable {δ : Type} {c c' : Collector δ} {p : Partition} {a : UInt64}

/-- Registering an object puts its entry in before it looks whether one was displaced. -/
lemma run_track (c : Collector δ) (a : UInt64) :
    (track a).run c =
      if a ∈ c.zeroCount then .error (.trackedTwice a) (c.put .zeroCount (.ofAddress a)).2
      else .ok () (c.put .zeroCount (.ofAddress a)).2 := by
  split
  case isTrue ha =>
    have hput : (c.put .zeroCount (.ofAddress a)).1 = some (.ofAddress a) := by
      rw [put_fst]
      exact if_pos ha
    simp [track, hput]
  case isFalse ha => exact track_of_not_mem ha

/-- Registering a payload from some partition has given it an entry in the zero-count table besides
the one it had. The header still names the partition, and nothing has happened to other payloads. -/
structure TrackedAgain (c c' : Collector δ) (p : Partition) (a : UInt64) : Prop where
  count_self : ∀ q, (c'.table q).addresses.count a = if q = p ∨ q = .zeroCount then 1 else 0
  count_of_ne : ∀ q b, b ≠ a → (c'.table q).addresses.count b = (c.table q).addresses.count b
  state?_eq : c.Labelled → c'.heap.state? a = some p
  heap_eq : c'.heap = c.heap

/-- The zero-count table is the only one that is changed, so an object of another table is in two.
-/
lemma trackedAgain_put (hc : c.Disjoint) (ha : a ∈ c.table p) :
    c.TrackedAgain (c.put .zeroCount (.ofAddress a)).2 p a where
  count_self q := by
    simp [Table.count_addresses, mem_table_put, hc.mem_table_iff ha, or_comm]
  count_of_ne q b hb := by
    simp [Table.count_addresses, mem_table_put, hb]
  state?_eq hl := by
    rw [heap_put]
    exact hl ha
  heap_eq := c.heap_put _ _

/-- A candidate that is registered again is freed by the sweep, and the zero-count table names it
still. -/
lemma TrackedAgain.dangling (h : c.TrackedAgain c' .working a) :
    ¬ c'.sweep.2.heap.Live a ∧ a ∈ c'.sweep.2.zeroCount := by
  have hmem (q : Partition) (hq : q = .working ∨ q = .zeroCount) : a ∈ c'.table q := by
    have hcount := h.count_self q
    rw [if_pos hq] at hcount
    exact List.count_pos_iff.1 (by omega)
  have hswept := c'.swept_sweep
  constructor
  · rw [hswept.live_iff]
    exact fun hl => hl.1 (hmem .working (.inl rfl))
  · rw [hswept.zeroCount_eq]
    exact hmem .zeroCount (.inr rfl)

/-- The one entry of an object is left where it was if it was in the zero-count table. -/
lemma TrackedAgain.placed_iff (h : c.TrackedAgain c' p a) :
    (∀ q, (c'.table q).addresses.count a = if q = p then 1 else 0) ↔ p = .zeroCount := by
  constructor
  · intro hplaced
    by_contra hp
    have hcount := h.count_self .zeroCount
    rw [hplaced, if_neg (Ne.symm hp), if_pos (.inr rfl)] at hcount
    cases hcount
  · rintro rfl q
    simpa using h.count_self q

/-- Where the partitions are disjoint, as they are however a bare collector has been driven,
registering a payload that is tracked is found out if it is in the zero-count partition, and then
leaves it with its one entry. From the other partitions it goes through and leaves two entries, and
a candidate is freed by the next sweep while it is still tracked. -/
theorem track_of_tracked (hc : c.Disjoint) (ha : a ∈ c.table p) :
    ∃ c', (track a).run c =
        (if p = .zeroCount then .error (.trackedTwice a) c' else .ok () c') ∧
      c.TrackedAgain c' p a ∧
      ((∀ q, (c'.table q).addresses.count a = if q = p then 1 else 0) ↔ p = .zeroCount) ∧
      (p = .working → ¬ c'.sweep.2.heap.Live a ∧ a ∈ c'.sweep.2.zeroCount) := by
  have hagain := trackedAgain_put hc ha
  refine ⟨_, ?_, hagain, hagain.placed_iff, fun hp => (hp ▸ hagain).dangling⟩
  have hmem : a ∈ c.zeroCount ↔ p = .zeroCount :=
    (hc.mem_table_iff (q := .zeroCount) ha).trans eq_comm
  simp only [run_track, hmem]

/-- A pass has begun, and the one object there is waits to be rescued. -/
def candidate : Bench :=
  (Bench.start .standard).run [.create 8 none, .track (.object 0 0), .beginPass]

/-- Registered again, the object is freed and still tracked. -/
theorem track_of_tracked_candidate :
    ∃ c c' ds, c = candidate.collector ∧ c.Driven ds ∧ c.Disjoint ∧
      0x10000030 ∈ c.table .working ∧ (track 0x10000030).run c = .ok () c' ∧
      ¬ c'.sweep.2.heap.Live 0x10000030 ∧ 0x10000030 ∈ c'.sweep.2.zeroCount := by
  obtain ⟨ds, h⟩ := (Bench.done_start .standard).run
    [.create 8 none, .track (.object 0 0), .beginPass]
  have hdriven : candidate.collector.Driven ds := h.driven
  have hdisjoint : candidate.collector.Disjoint := hdriven.exclusive.labelled.disjoint
  have hmem : 0x10000030 ∈ candidate.collector.table .working := by decide +kernel
  obtain ⟨c', hr, -, -, hdangling⟩ := track_of_tracked hdisjoint hmem
  exact ⟨_, c', ds, rfl, hdriven, hdisjoint, hmem, hr, hdangling rfl⟩

/-- One object, with one counted reference. -/
def heldOnce : Bench :=
  (Bench.start .standard).run
    [.create 8 none, .track (.object 0 0), .increment (.object 0 0), .promote (.object 0 0)]

/-- A multi-ref object is registered again, and nothing stops. It has two entries then. -/
theorem track_undetected :
    ∃ c c' ds, c = heldOnce.collector ∧ c.Driven ds ∧ c.Disjoint ∧
      c.multiRef.addresses = [0x10000030] ∧ c.zeroCount.addresses = [] ∧
      (track 0x10000030).run c = .ok () c' ∧ c'.heap.state? 0x10000030 = some .multiRef ∧
      c'.multiRef.addresses = [0x10000030] ∧ c'.zeroCount.addresses = [0x10000030] := by
  obtain ⟨ds, h⟩ := (Bench.done_start .standard).run
    [.create 8 none, .track (.object 0 0), .increment (.object 0 0), .promote (.object 0 0)]
  have hdriven : heldOnce.collector.Driven ds := h.driven
  have hz : 0x10000030 ∉ heldOnce.collector.zeroCount := by decide +kernel
  exact ⟨_, _, ds, rfl, hdriven, hdriven.exclusive.labelled.disjoint, by decide +kernel,
    by decide +kernel, track_of_not_mem hz, by decide +kernel, by decide +kernel,
    by decide +kernel⟩

end Collector

end HybridGC
