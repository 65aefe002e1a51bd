import HybridGC.Collector.Bench
import HybridGC.Proofs.Rearrangement

/-!
# Bare collectors in any order

The operations of a collector are meant to be called in the order that passes and teardowns have.
Nothing of the kind is assumed here: whoever drives a bare collector may end a pass that has not
begun, condemn and rescue outside of one, name addresses and roots at will, and carry on after a
fault. As long as only live blocks that are not tracked are registered, every tracked object still
has its entry in the one table that its header names, and a block is freed once at most, by a sweep
that finds it in the working table.
-/

namespace HybridGC

namespace Collector

variable {δ : Type} {c c' : Collector δ} {a b : UInt64}

/-! ### Deeds -/

/-- What is done to payloads by driving a collector. -/
inductive Deed where
  | granted (a : UInt64)
  | tracked (a : UInt64)
  | freed (a : UInt64)
deriving DecidableEq

/-- The payloads that have been tracked and not freed since, given the deeds, the latest first. -/
def trackedBy : List Deed → Finset UInt64
  | [] => ∅
  | .granted _ :: ds => trackedBy ds
  | .tracked a :: ds => insert a (trackedBy ds)
  | .freed a :: ds => (trackedBy ds).erase a

/-- The payloads that have been freed, the latest first. -/
def freedBy : List Deed → List UInt64
  | [] => []
  | .granted _ :: ds | .tracked _ :: ds => freedBy ds
  | .freed a :: ds => a :: freedBy ds

/-- The deeds of a sweep. -/
def sweepDeeds (c : Collector δ) : List Deed :=
  c.working.addresses.reverse.map .freed

/-- One thing done to a bare collector: memory is granted or written, or an operation is called,
whatever comes of it. A payload that is registered is live and not tracked; nothing else is asked.
-/
inductive Drive : Collector δ → List Deed → Collector δ → Prop
  | grant (c : Collector δ) {size : Nat} {d : Option δ} {a : UInt64} {heap : Heap δ}
      (hg : c.heap.Grants size d a heap) : Drive c [.granted a] { c with heap }
  | store (c : Collector δ) {a w : UInt64} {offset : Nat} {heap : Heap δ}
      (hs : c.heap.store? a offset w = some heap) : Drive c [] { c with heap }
  | increment (c : Collector δ) (a : UInt64) : Drive c [] (after (increment a) c)
  | decrement (c : Collector δ) (a : UInt64) : Drive c [] (after (decrement a) c)
  | track (c : Collector δ) {a : UInt64} (hl : c.heap.Live a) (ht : c.isTracked a = false) :
      Drive c [.tracked a] (after (track a) c)
  | promote (c : Collector δ) (a : UInt64) : Drive c [] (after (promote a) c)
  | demote (c : Collector δ) (a : UInt64) : Drive c [] (after (demote a) c)
  | beginPass (c : Collector δ) : Drive c [] (after beginPass c)
  | rescue (c : Collector δ) (w : UInt64) : Drive c [] (c.rescue w).2
  | condemnCycles (c : Collector δ) (roots : List UInt64) :
      Drive c [] (after (condemnCycles roots) c)
  | condemnAll (c : Collector δ) : Drive c [] (after condemnAll c)
  | sweep (c : Collector δ) : Drive c c.sweepDeeds c.sweep.2
  | finishPass (c : Collector δ) : Drive c c.sweepDeeds c.finishPass.2

/-- What a new collector has been driven to, with the deeds on the way. -/
inductive Driven : Collector δ → List Deed → Prop
  | start (l : Ladder) : Driven (empty l) []
  | drive {c c' : Collector δ} {ds ds' : List Deed} (h : Driven c ds) (hd : Drive c ds' c') :
      Driven c' (ds' ++ ds)

variable {ds ds' : List Deed}

@[simp] lemma freedBy_append (ds ds' : List Deed) :
    freedBy (ds ++ ds') = freedBy ds ++ freedBy ds' := by
  induction ds with
  | nil => rfl
  | cons d ds ih => cases d <;> simp [freedBy, ih]

@[simp] lemma freedBy_map_freed (as : List UInt64) : freedBy (as.map .freed) = as := by
  induction as with
  | nil => rfl
  | cons a as ih => simp [freedBy, ih]

@[simp] lemma count_freed (ds : List Deed) (a : UInt64) :
    ds.count (.freed a) = (freedBy ds).count a := by
  induction ds with
  | nil => rfl
  | cons d ds ih => cases d <;> simp [freedBy, List.count_cons, ih]

lemma mem_trackedBy_map_freed (as : List UInt64) (ds : List Deed) :
    a ∈ trackedBy (as.map .freed ++ ds) ↔ a ∈ trackedBy ds ∧ a ∉ as := by
  induction as with
  | nil => simp
  | cons b as ih =>
    simp only [List.map_cons, List.cons_append, trackedBy, Finset.mem_erase, ih, List.mem_cons]
    tauto

/-- After a sweep, tracked is what was tracked and not in the working table. -/
lemma mem_trackedBy_sweepDeeds (c : Collector δ) (ds : List Deed) :
    a ∈ trackedBy (c.sweepDeeds ++ ds) ↔ a ∈ trackedBy ds ∧ a ∉ c.working := by
  rw [sweepDeeds, mem_trackedBy_map_freed, List.mem_reverse]
  rfl

lemma freedBy_sweepDeeds (c : Collector δ) :
    freedBy c.sweepDeeds = c.working.addresses.reverse :=
  freedBy_map_freed _

lemma count_granted_sweepDeeds (c : Collector δ) (a : UInt64) :
    c.sweepDeeds.count (.granted a) = 0 := by
  simp [sweepDeeds, List.count_eq_zero]

/-! ### What any drive keeps -/

/-- Whatever is done frees exactly what its deeds say. -/
lemma Drive.freed_eq (h : Drive c ds c') : c'.freed = freedBy ds ++ c.freed := by
  cases h with
  | grant | store => rfl
  | increment a => exact leaves_freed_increment a c
  | decrement a => exact leaves_freed_decrement a c
  | track => exact leaves_freed_track _ c
  | promote a => exact leaves_freed_transfer .zeroCount .multiRef a c
  | demote a => exact leaves_freed_transfer .multiRef .zeroCount a c
  | beginPass => exact leaves_freed_beginPass c
  | rescue w => exact c.freed_rescue w
  | condemnCycles roots => exact leaves_freed_condemnCycles roots c
  | condemnAll => exact leaves_freed_condemnAll c
  | sweep => rw [freed_sweep, freedBy_sweepDeeds]
  | finishPass => rw [freed_finishPass, freedBy_sweepDeeds]

/-- What is granted, registered, rearranged or swept, whatever call does it. -/
lemma Drive.cases (h : Drive c ds c') (hc : c.Labelled) :
    (∃ size d a heap, c.heap.Grants size d a heap ∧ ds = [.granted a] ∧ c' = { c with heap }) ∨
    (∃ a, c.heap.Live a ∧ c.isTracked a = false ∧ ds = [.tracked a] ∧
      c' = (c.put .zeroCount (.ofAddress a)).2) ∨
    (ds = [] ∧ c.Rearranged c') ∨
    ds = c.sweepDeeds ∧ c.Swept c' ∧ (c' = c.sweep.2 ∨ c' = c.finishPass.2) := by
  cases h with
  | grant hg => exact .inl ⟨_, _, _, _, hg, rfl, rfl⟩
  | store hs =>
    refine .inr (.inr (.inl ⟨rfl, ?_⟩))
    exact .of_table_eq hc (fun _ _ => Iff.rfl) (Heap.state?_store? hs) (Heap.live_store? hs)
      (Heap.cursor_store? hs)
  | increment a => exact .inr (.inr (.inl ⟨rfl, rearranged_increment hc a⟩))
  | decrement a => exact .inr (.inr (.inl ⟨rfl, rearranged_decrement hc a⟩))
  | @track a hl ht =>
    refine .inr (.inl ⟨a, hl, ht, rfl, ?_⟩)
    rw [after, track_of_not_mem (isTracked_eq_false ht .zeroCount)]
  | promote a => exact .inr (.inr (.inl ⟨rfl, rearranged_transfer hc (by decide) a⟩))
  | demote a => exact .inr (.inr (.inl ⟨rfl, rearranged_transfer hc (by decide) a⟩))
  | beginPass => exact .inr (.inr (.inl ⟨rfl, rearranged_beginPass hc⟩))
  | rescue w => exact .inr (.inr (.inl ⟨rfl, rearranged_rescue hc w⟩))
  | condemnCycles roots => exact .inr (.inr (.inl ⟨rfl, rearranged_condemnCycles hc roots⟩))
  | condemnAll => exact .inr (.inr (.inl ⟨rfl, rearranged_condemnAll hc⟩))
  | sweep => exact .inr (.inr (.inr ⟨rfl, c.swept_sweep, .inl rfl⟩))
  | finishPass => exact .inr (.inr (.inr ⟨rfl, c.swept_finishPass, .inr rfl⟩))

/-- Every tracked payload is live and where its header says, what is tracked is what the deeds say,
a live payload that is not tracked is as it was granted, and each grant is live or has been freed
once. -/
structure Exclusive (c : Collector δ) (ds : List Deed) : Prop where
  labelled : c.Labelled
  isTracked_iff : ∀ a, c.isTracked a = true ↔ a ∈ trackedBy ds
  live : ∀ a, c.isTracked a = true → c.heap.Live a
  fresh : ∀ a, c.heap.Live a → c.isTracked a = false → c.heap.state? a = some .zeroCount
  grants_of_live : ∀ a, c.heap.Live a →
    ds.count (.granted a) = (freedBy ds).count a + 1
  grants_of_not_live : ∀ a, ¬ c.heap.Live a → ds.count (.granted a) = (freedBy ds).count a

namespace Exclusive

lemma empty (l : Ladder) : (empty l : Collector δ).Exclusive [] := by
  have hnot (p : Partition) (a : UInt64) : a ∉ (Collector.empty l : Collector δ).table p := by
    cases p <;> exact Table.not_mem_empty l a
  have hlive (a : UInt64) : ¬ (Collector.empty l : Collector δ).heap.Live a := by
    rintro ⟨b, hb, -⟩
    simp [Collector.empty, Heap.block?] at hb
  constructor
  case labelled => exact fun p a ha => absurd ha (hnot p a)
  case isTracked_iff => simp [Partitions.isTracked_iff, hnot, trackedBy]
  case live =>
    intro a ha
    obtain ⟨p, hp⟩ := Partitions.isTracked_iff.1 ha
    exact absurd hp (hnot p a)
  case fresh => exact fun a ha => absurd ha (hlive a)
  case grants_of_live => exact fun a ha => absurd ha (hlive a)
  case grants_of_not_live => simp [freedBy]

/-- Moving entries about, in whatever way, keeps tables, headers and deeds in agreement. -/
lemma rearranged (h : c.Exclusive ds) (hr : c.Rearranged c') : c'.Exclusive ds where
  labelled := hr.labelled
  isTracked_iff a := (hr.isTracked_iff a).trans (h.isTracked_iff a)
  live a ha := (hr.live_iff a).2 (h.live a ((hr.isTracked_iff a).1 ha))
  fresh a hl ht := by
    rw [← Bool.not_eq_true, hr.isTracked_iff, Bool.not_eq_true] at ht
    rw [hr.state?_eq a ht]
    exact h.fresh a ((hr.live_iff a).1 hl) ht
  grants_of_live a hl := h.grants_of_live a ((hr.live_iff a).1 hl)
  grants_of_not_live a hl := h.grants_of_not_live a fun hl' => hl ((hr.live_iff a).2 hl')

/-- A granted block is live and tracked by nobody, and its header is as if it were in the zero-count
table. -/
lemma granted {size : Nat} {d : Option δ} {heap : Heap δ} (h : c.Exclusive ds)
    (hg : c.heap.Grants size d a heap) :
    ({ c with heap } : Collector δ).Exclusive (.granted a :: ds) := by
  have hnot {b : UInt64} (hb : c.isTracked b = true) : b ≠ a := by
    rintro rfl
    exact hg.not_live (h.live b hb)
  constructor
  case labelled =>
    intro p b hb
    have hne := hnot (Partitions.isTracked_iff.2 ⟨p, hb⟩)
    rw [hg.state?_eq, if_neg hne]
    exact h.labelled hb
  case isTracked_iff => exact h.isTracked_iff
  case live => exact fun b hb => (hg.live_iff b).2 (.inr (h.live b hb))
  case fresh =>
    intro b hl ht
    rw [hg.state?_eq]
    split
    · rfl
    · exact h.fresh b (((hg.live_iff b).1 hl).resolve_left ‹_›) ht
  case grants_of_live =>
    intro b hl
    -- the address may have been granted and freed before; this grant is one more
    by_cases hb : b = a
    · subst hb
      simp [freedBy, h.grants_of_not_live b hg.not_live]
    · have := h.grants_of_live b (((hg.live_iff b).1 hl).resolve_left hb)
      simpa [freedBy, List.count_cons, Ne.symm hb] using this
  case grants_of_not_live =>
    intro b hl
    rw [hg.live_iff, not_or] at hl
    simpa [freedBy, List.count_cons, Ne.symm hl.1] using h.grants_of_not_live b hl.2

/-- A live block that is not tracked may be registered, and its header agrees with the table at
once. -/
lemma tracked (h : c.Exclusive ds) (hl : c.heap.Live a) (ht : c.isTracked a = false) :
    (c.put .zeroCount (.ofAddress a)).2.Exclusive (.tracked a :: ds) := by
  have htracked (b : UInt64) : (c.put .zeroCount (.ofAddress a)).2.isTracked b = true ↔
      b = a ∨ c.isTracked b = true := by
    simp only [Partitions.isTracked_iff, mem_table_put]
    constructor
    · rintro ⟨p, ⟨-, hb⟩ | hb⟩
      · exact .inl hb
      · exact .inr ⟨p, hb⟩
    · rintro (hb | ⟨p, hb⟩)
      · exact ⟨.zeroCount, .inl ⟨rfl, hb⟩⟩
      · exact ⟨p, .inr hb⟩
  constructor
  case labelled =>
    intro p b hb
    rw [heap_put]
    rcases mem_table_put.1 hb with ⟨rfl, rfl⟩ | hb
    · exact h.fresh _ hl ht
    · exact h.labelled hb
  case isTracked_iff =>
    intro b
    rw [htracked, trackedBy, Finset.mem_insert, h.isTracked_iff]
  case live =>
    intro b hb
    rw [heap_put]
    rcases (htracked b).1 hb with rfl | hb
    · exact hl
    · exact h.live b hb
  case fresh =>
    intro b hlb htb
    rw [heap_put] at hlb ⊢
    rw [← Bool.not_eq_true, htracked, not_or, Bool.not_eq_true] at htb
    exact h.fresh b hlb htb.2
  -- registering is no grant and frees nothing, so the grants are accounted for as before
  case grants_of_live =>
    intro b hlb
    rw [heap_put] at hlb
    simpa [freedBy] using h.grants_of_live b hlb
  case grants_of_not_live =>
    intro b hlb
    rw [heap_put] at hlb
    simpa [freedBy] using h.grants_of_not_live b hlb

/-- A sweep frees each of its blocks for the grant it was last given by. -/
lemma swept (h : c.Exclusive ds) (hs : c.Swept c') : c'.Exclusive (c.sweepDeeds ++ ds) := by
  have htracked := hs.isTracked_iff h.labelled.disjoint
  -- the working table names each of its addresses once, so each is freed once
  have hfreed (b : UInt64) : (freedBy (c.sweepDeeds ++ ds)).count b =
      (if b ∈ c.working then 1 else 0) + (freedBy ds).count b := by
    rw [freedBy_append, freedBy_sweepDeeds, List.count_append, List.count_reverse,
      c.working.nodup_addresses.count]
    rfl
  constructor
  case labelled =>
    intro p b hb
    rw [hs.state?_eq]
    exact h.labelled ((hs.mem_table p b).1 hb).2
  case isTracked_iff =>
    intro b
    rw [htracked, mem_trackedBy_sweepDeeds, h.isTracked_iff]
  case live =>
    intro b hb
    obtain ⟨ht, hw⟩ := (htracked b).1 hb
    exact (hs.live_iff b).2 ⟨hw, h.live b ht⟩
  case fresh =>
    intro b hl ht
    obtain ⟨hw, hl⟩ := (hs.live_iff b).1 hl
    rw [hs.state?_eq]
    refine h.fresh b hl ?_
    rw [← Bool.not_eq_true] at ht ⊢
    exact fun htb => ht ((htracked b).2 ⟨htb, hw⟩)
  case grants_of_live =>
    intro b hl
    obtain ⟨hw, hl⟩ := (hs.live_iff b).1 hl
    rw [hfreed, if_neg hw, List.count_append, count_granted_sweepDeeds, h.grants_of_live b hl]
    omega
  case grants_of_not_live =>
    intro b hl
    rw [hfreed, List.count_append, count_granted_sweepDeeds]
    split
    case isTrue hw =>
      have hl' := h.live b (Partitions.isTracked_iff.2 ⟨.working, hw⟩)
      rw [h.grants_of_live b hl']
      omega
    case isFalse hw =>
      have hl' : ¬ c.heap.Live b := fun hl' => hl ((hs.live_iff b).2 ⟨hw, hl'⟩)
      rw [h.grants_of_not_live b hl']

/-- The step: of all calls there are these four kinds. -/
lemma drive (h : c.Exclusive ds) (hd : Drive c ds' c') : c'.Exclusive (ds' ++ ds) := by
  rcases hd.cases h.labelled with
    ⟨size, d, a, heap, hg, rfl, rfl⟩ | ⟨a, hl, ht, rfl, rfl⟩ | ⟨rfl, hr⟩ | ⟨rfl, hs, -⟩
  · exact h.granted hg
  · exact h.tracked hl ht
  · exact h.rearranged hr
  · exact h.swept hs

/-- What is tracked has its entry in one table and once there. -/
lemma placed (h : c.Exclusive ds) (ha : a ∈ trackedBy ds) :
    ∃ p, (∀ q, (c.table q).addresses.count a = if q = p then 1 else 0) ∧
      c.heap.state? a = some p ∧ c.heap.Live a := by
  have htracked := (h.isTracked_iff a).2 ha
  obtain ⟨p, hp⟩ := Partitions.isTracked_iff.1 htracked
  exact ⟨p, h.labelled.disjoint.count_addresses hp, h.labelled hp, h.live a htracked⟩

lemma trackedCount_eq (h : c.Exclusive ds) : c.trackedCount = (trackedBy ds).card := by
  rw [← card_tracked h.labelled.disjoint]
  congr 1
  ext a
  rw [Partitions.mem_tracked, h.isTracked_iff]

end Exclusive

/-- The run: whatever order the calls are made in. -/
lemma Driven.exclusive (h : c.Driven ds) : c.Exclusive ds := by
  induction h with
  | start l => exact .empty l
  | drive _ hd ih => exact ih.drive hd

lemma Driven.freed_eq (h : c.Driven ds) : c.freed = freedBy ds := by
  induction h with
  | start => rfl
  | drive _ hd ih => rw [hd.freed_eq, ih, freedBy_append]

/-- Whatever is done grants one block, or grants none and lays none out. -/
lemma Drive.granted_cases (h : Drive c ds' c') (hc : c.Labelled) :
    (∃ a, ds' = [.granted a]) ∨
      (∀ a, .granted a ∉ ds') ∧ c'.heap.cursor = c.heap.cursor := by
  rcases h.cases hc with
    ⟨size, d, a, heap, -, rfl, -⟩ | ⟨a, -, -, rfl, rfl⟩ | ⟨rfl, hr⟩ | ⟨rfl, hs, -⟩
  · exact .inl ⟨a, rfl⟩
  · refine .inr ⟨by simp, ?_⟩
    rw [heap_put]
  · exact .inr ⟨by simp, hr.cursor_eq⟩
  · refine .inr ⟨fun a => ?_, hs.cursor_eq⟩
    exact List.count_eq_zero.1 (count_granted_sweepDeeds c a)

/-- Only a sweep frees, and only what it finds in the working table. -/
lemma Drive.of_freed (h : Drive c ds' c') (hc : c.Labelled) (ha : .freed a ∈ ds') :
    (c' = c.sweep.2 ∨ c' = c.finishPass.2) ∧ a ∈ c.working ∧ ¬ c'.heap.Live a := by
  rcases h.cases hc with
    ⟨size, d, a, heap, -, rfl, -⟩ | ⟨a, -, -, rfl, -⟩ | ⟨rfl, -⟩ | ⟨rfl, hs, hsweep⟩
  · simp at ha
  · simp at ha
  · simp at ha
  · have hw : a ∈ c.working.addresses := by simpa [sweepDeeds] using ha
    exact ⟨hsweep, hw, fun hl => ((hs.live_iff a).1 hl).1 hw⟩

end Collector

/-! ### On the bench -/

namespace Bench

open Collector

variable {b b' : Bench} {ds ds' : List Deed}

/-- Whether a call registers a payload that is tracked. -/
def registersTracked (b : Bench) : Call → Bool
  | .track p => (p.resolve? b.objects).any b.collector.isTracked
  | _ => false

/-- Make calls one after the other, in any order, but register no payload that is tracked. -/
def run (b : Bench) : List Call → Bench
  | [] => b
  | call :: calls => if b.registersTracked call then b.run calls else (b.perform call).2.run calls

/-- Some deeds have led to the collector, and no address has been granted twice. -/
structure Done (b : Bench) (ds : List Deed) : Prop where
  driven : b.collector.Driven ds
  count_granted : ∀ a, ds.count (.granted a) ≤ 1
  le_cursor : ∀ a, .granted a ∈ ds → a.toNat ≤ b.collector.heap.cursor

namespace Done

/-- Blocks were laid out one after the other, since the bench grants by the heap's own allocator. -/
lemma bounded (h : b.Done ds) : b.collector.heap.Bounded := by
  intro a hl
  apply h.le_cursor
  apply List.count_pos_iff.1
  rw [h.driven.exclusive.grants_of_live a hl]
  exact Nat.succ_pos _

/-- A drive that grants nothing keeps it that no address has been granted twice. -/
lemma drive (h : b.Done ds) (hd : Drive b.collector ds' b'.collector)
    (hnot : ∀ a, .granted a ∉ ds') : b'.Done (ds' ++ ds) where
  driven := h.driven.drive hd
  count_granted a := by
    rw [List.count_append, List.count_eq_zero.2 (hnot a), Nat.zero_add]
    exact h.count_granted a
  le_cursor a ha := by
    rcases hd.granted_cases h.driven.exclusive.labelled with ⟨a', rfl⟩ | ⟨-, hcursor⟩
    · exact absurd List.mem_cons_self (hnot a')
    · rw [hcursor]
      exact h.le_cursor a ((List.mem_append.1 ha).resolve_left (hnot a))

/-- The allocator answers an address behind all that it has answered before. -/
lemma granted {size : Nat} {d : Option DestructorKind} {a : UInt64}
    {heap : Heap DestructorKind} (h : b.Done ds)
    (ha : b.collector.heap.allocate size d = .ok (a, heap)) :
    ∃ ds, Done { b with
      collector := { b.collector with heap }, objects := b.objects.push a } ds := by
  obtain ⟨hlt, hle⟩ := Heap.cursor_lt_of_allocate ha
  have hnew : .granted a ∉ ds := fun hmem => Nat.not_le.2 hlt (h.le_cursor a hmem)
  have hdriven := h.driven.drive (.grant _ (Heap.grants_allocate h.bounded ha).1)
  refine ⟨[.granted a] ++ ds, hdriven, ?_, ?_⟩
  · intro a'
    by_cases ha' : a' = a
    · simp [ha', List.count_eq_zero.2 hnew]
    · simpa [Ne.symm ha'] using h.count_granted a'
  · intro a' ha'
    rcases List.mem_cons.1 ha' with ha' | ha'
    · cases ha'
      exact hle
    · exact (h.le_cursor a' ha').trans (hlt.le.trans hle)

end Done

/-- What an attempt leaves, whether or not it stops. -/
lemma collector_attempt {α : Type} (b : Bench) (act : Faulting (Collector DestructorKind) α)
    (answer : α → Answer) : (b.attempt act answer).2.collector = after act b.collector := by
  rw [attempt, after]
  cases act.run b.collector <;> rfl

namespace Done

lemma withWord {p : Reference} {answer : UInt64 → Answer × Bench} (h : b.Done ds)
    (hanswer : ∀ a, p.resolve? b.objects = some a → ∃ ds, (answer a).2.Done ds) :
    ∃ ds, (b.withWord p answer).2.Done ds := by
  rw [Bench.withWord]
  split
  · exact ⟨ds, h⟩
  · exact hanswer _ ‹_›

lemma withBlock {p : Reference} {answer : UInt64 → Block DestructorKind → Answer × Bench}
    (h : b.Done ds)
    (hanswer : ∀ a block, p.resolve? b.objects = some a →
      (b.collector.isTracked a = false → b.collector.heap.Live a) →
      ∃ ds, (answer a block).2.Done ds) :
    ∃ ds, (b.withBlock p answer).2.Done ds := by
  rw [Bench.withBlock]
  refine h.withWord fun a ha => ?_
  split
  case h_1 => exact ⟨ds, h⟩
  case h_2 block hblock =>
    split
    case isTrue => exact ⟨ds, h⟩
    case isFalse hgiven =>
      refine hanswer a block ha fun ht => ⟨block, hblock, ?_⟩
      simpa [ht] using hgiven

/-- The step: a call does one thing to the collector or nothing. -/
lemma perform (h : b.Done ds) {call : Call} (hfresh : b.registersTracked call = false) :
    ∃ ds, (b.perform call).2.Done ds := by
  have hsame : ∃ ds, b.Done ds := ⟨ds, h⟩
  have hdrive {b' : Bench} (hd : Drive b.collector [] b'.collector) : ∃ ds, b'.Done ds :=
    ⟨_, h.drive hd (by simp)⟩
  have hsweep {b' : Bench} (hd : Drive b.collector b.collector.sweepDeeds b'.collector) :
      ∃ ds, b'.Done ds :=
    ⟨_, h.drive hd fun a => List.count_eq_zero.1 (count_granted_sweepDeeds _ a)⟩
  -- calls that only look leave the bench, the others make one drive of the collector
  cases call with
  | create size d =>
    rw [Bench.perform]
    split
    · exact hsame
    · exact h.granted ‹_›
  | store p offset value =>
    refine h.withBlock fun a block _ _ => h.withWord fun w _ => ?_
    split
    · exact hsame
    · exact hdrive (.store _ ‹_›)
  | increment p =>
    refine h.withBlock fun a block _ _ => hdrive ?_
    rw [collector_attempt]
    exact .increment _ a
  | decrement p =>
    refine h.withBlock fun a block _ _ => hdrive ?_
    rw [collector_attempt]
    exact .decrement _ a
  | header p => exact h.withBlock fun a block _ _ => hsame
  | track p =>
    refine h.withBlock fun a block hp hlive => ?_
    have ht : b.collector.isTracked a = false := by simpa [registersTracked, hp] using hfresh
    refine ⟨[.tracked a] ++ ds, h.drive ?_ (by simp)⟩
    rw [collector_attempt]
    exact .track _ (hlive ht) ht
  | promote p =>
    refine h.withWord fun a _ => hdrive ?_
    rw [collector_attempt]
    exact .promote _ a
  | demote p =>
    refine h.withWord fun a _ => hdrive ?_
    rw [collector_attempt]
    exact .demote _ a
  | beginPass =>
    refine hdrive ?_
    rw [Bench.perform, collector_attempt]
    exact .beginPass _
  | rescue p => exact h.withWord fun a _ => hdrive (.rescue _ a)
  | condemnCycles roots =>
    rw [Bench.perform]
    split
    · exact hsame
    · rename_i words _
      have hd := Drive.condemnCycles b.collector words
      rw [after] at hd
      split <;> rename_i hr <;> rw [hr] at hd <;> exact hdrive hd
  | condemnAll =>
    refine hdrive ?_
    rw [Bench.perform, collector_attempt]
    exact .condemnAll _
  | sweep => exact hsweep (.sweep _)
  | finishPass => exact hsweep (.finishPass _)
  | locate p => exact h.withWord fun a _ => hsame
  | isMultiRef p => exact h.withWord fun a _ => hsame
  | growth | stats | pending => exact hsame

/-- The run: any sequence of calls. -/
lemma run (h : b.Done ds) (calls : List Call) : ∃ ds, (b.run calls).Done ds := by
  induction calls generalizing b ds with
  | nil => exact ⟨ds, h⟩
  | cons call calls ih =>
    rw [Bench.run]
    split
    case isTrue => exact ih h
    case isFalse hfresh =>
      rw [Bool.not_eq_true] at hfresh
      obtain ⟨ds', h'⟩ := h.perform hfresh
      exact ih h'

/-- Where no address is granted twice, none is freed twice. -/
lemma nodup_freed (h : b.Done ds) : b.collector.freed.Nodup := by
  rw [List.nodup_iff_count_le_one]
  intro a
  have hgranted := h.count_granted a
  rw [h.driven.freed_eq]
  by_cases hl : b.collector.heap.Live a
  · have := h.driven.exclusive.grants_of_live a hl
    omega
  · have := h.driven.exclusive.grants_of_not_live a hl
    omega

end Done

lemma done_start (l : Ladder) : (start l).Done [] :=
  ⟨.start l, by simp, by simp⟩

end Bench

/-! ### Exclusivity -/

namespace Collector

/-- However a bare collector has been driven, each tracked payload has its entry in one table and
once there, and its header names that table; the collector counts and finds what is tracked and
nothing else; and each block that was granted is live or has been freed once, by a sweep that found
it in the working table. On the bench, where no address is granted twice, no address is freed twice.
-/
theorem exclusive_in_any_order :
    (∀ {δ : Type} {c : Collector δ} {ds : List Deed}, c.Driven ds →
      (∀ a ∈ trackedBy ds, ∃ p,
        (∀ q, (c.table q).addresses.count a = if q = p then 1 else 0) ∧
        c.heap.state? a = some p ∧ c.heap.Live a) ∧
      c.trackedCount = (trackedBy ds).card ∧
      (∀ a, (c.locate a).isSome = true ↔ a ∈ trackedBy ds) ∧
      c.freed = freedBy ds ∧
      (∀ a, c.heap.Live a → ds.count (.granted a) = c.freed.count a + 1) ∧
      (∀ a, ¬ c.heap.Live a → ds.count (.granted a) = c.freed.count a) ∧
      ∀ ds' c' a, Drive c ds' c' → .freed a ∈ ds' →
        (c' = c.sweep.2 ∨ c' = c.finishPass.2) ∧ a ∈ c.working ∧ c.heap.Live a ∧
          ¬ c'.heap.Live a) ∧
    ∀ l calls, (∃ ds, ((Bench.start l).run calls).collector.Driven ds) ∧
      ((Bench.start l).run calls).collector.freed.Nodup := by
  refine ⟨fun {δ c ds} h => ?_, fun l calls => ?_⟩
  · have hc := h.exclusive
    refine ⟨fun a => hc.placed, hc.trackedCount_eq, hc.isTracked_iff, h.freed_eq, ?_, ?_,
      fun ds' c' a hd ha => ?_⟩
    · rw [h.freed_eq]
      exact hc.grants_of_live
    · rw [h.freed_eq]
      exact hc.grants_of_not_live
    · obtain ⟨hsweep, hw, hdead⟩ := hd.of_freed hc.labelled ha
      have hl := hc.live a (Partitions.isTracked_iff.2 ⟨.working, hw⟩)
      exact ⟨hsweep, hw, hl, hdead⟩
  · obtain ⟨ds, hds⟩ := (Bench.done_start l).run calls
    exact ⟨⟨ds, hds.driven⟩, hds.nodup_freed⟩

/-- Two objects are tracked, one of them is promoted without a reference to it, a pass is begun and
ended, everything is condemned, and another pass is begun, which stops at the working table. -/
def outOfOrder : List Bench.Call :=
  [.create 8 none, .track (.object 0 0), .create 8 none, .track (.object 1 0),
    .promote (.object 1 0), .beginPass, .finishPass, .condemnAll, .beginPass]

/-- One object has been freed, and the other is condemned in a pass that never got its candidates.
-/
theorem exclusive_in_any_order_outOfOrder :
    ∃ c ds, c = ((Bench.start .standard).run outOfOrder).collector ∧ c.Driven ds ∧
      c.collecting = true ∧ trackedBy ds = {0x10000070} ∧ freedBy ds = [0x10000030] ∧
      c.heap.state? 0x10000070 = some .working ∧ c.freed.Nodup := by
  obtain ⟨hdriven, hbench⟩ := exclusive_in_any_order
  obtain ⟨⟨ds, h⟩, hnodup⟩ := hbench .standard outOfOrder
  obtain ⟨-, hcount, hlocate, hfreed, -⟩ := hdriven h
  have hcard : ((Bench.start .standard).run outOfOrder).collector.trackedCount = 1 := by
    decide +kernel
  have hnoted : ((Bench.start .standard).run outOfOrder).collector.freed = [0x10000030] := by
    decide +kernel
  have hmem : 0x10000070 ∈ trackedBy ds := (hlocate 0x10000070).1 (by decide +kernel)
  -- the collector counts one object and finds this one, so the deeds say nothing else is tracked
  obtain ⟨a, ha⟩ := Finset.card_eq_one.1 (hcount.symm.trans hcard)
  rw [ha, Finset.mem_singleton] at hmem
  subst hmem
  exact ⟨_, ds, rfl, h, by decide +kernel, ha, hfreed.symm.trans hnoted, by decide +kernel, hnodup⟩

end Collector

end HybridGC
