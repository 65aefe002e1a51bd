import HybridGC.Gc
import HybridGC.Proofs.Partition
import HybridGC.Proofs.TrialDeletion

/-!
# What the operations of a garbage collector do

One lemma for each way an operation can go: ignored, refused with a fault that changes nothing, or
carried out, and then described by its effect on the collector inside.
-/

namespace HybridGC

namespace Gc

variable {δ : Type} {g : Gc δ} {p q : Partition} {a b : UInt64}

/-- The partition invariant, and that nothing is left in the working table between passes. -/
structure Partitioned (g : Gc δ) : Prop where
  collector : g.collector.Partitioned
  idle : g.collector.collecting = false → g.isShutdown = false → ∀ a, a ∉ g.collector.working

lemma partitioned_start (config : Config) (scanner : Scanner) :
    (start config scanner : Gc δ).Partitioned where
  collector := Collector.partitioned_empty config.ladder
  idle _ _ := Table.not_mem_empty _

lemma not_isTracked_start (config : Config) (scanner : Scanner) (a : UInt64) :
    (start config scanner : Gc δ).collector.isTracked a = false := by
  rw [← Bool.not_eq_true, Partitions.isTracked_iff]
  rintro ⟨p, hp⟩
  cases p <;> exact Table.not_mem_empty _ a hp

/-! ### Taking and dropping references -/

/-- The null pointer and a collector that is shut down are looked at before the tables. No
hypothesis says that the address is tracked. -/
lemma addref_of_ignored (h : a = 0 ∨ g.isShutdown = true) : (addref a).run g = .ok a g := by
  simp [addref, h]

/-- A reference to what is not tracked is refused, and the fault names the address. -/
lemma addref_of_not_isTracked (ha : a ≠ 0) (hs : g.isShutdown = false)
    (ht : g.collector.isTracked a = false) :
    (addref a).run g = .error (.addrefUntracked a) g := by
  simp [addref, ha, hs, ht]

/-- A count at the largest word is refused before any entry moves. -/
lemma addref_of_overflow (ha : a ≠ 0) (hs : g.isShutdown = false)
    (ht : g.collector.isTracked a = true)
    (hn : (g.collector.heap.refs a).toNat + 1 = UInt64.size) :
    (addref a).run g = .error .countOverflow g := by
  cases g
  simp_all [addref, Collector.increment_of_eq hn]

/-- Taking a reference to a tracked object whose count is not at the largest word. -/
lemma addref_recounted (hg : g.collector.Partitioned) (hs : g.isShutdown = false)
    (ha : a ∈ g.collector.table p) (hn : (g.collector.heap.refs a).toNat + 1 ≠ UInt64.size) :
    ∃ c q, (addref a).run g = .ok a { g with collector := c } ∧
      g.collector.Recounted c a (g.collector.heap.refs a + 1) q := by
  have h0 : a ≠ 0 := hg.ne_zero ha
  have ht : g.collector.isTracked a = true := Partitions.isTracked_iff.2 ⟨p, ha⟩
  have hlabel := hg.labelled ha
  have hne := Collector.add_one_ne_zero hn
  have hinc := Collector.increment_of_ne hn
  cases p with
  | zeroCount =>
    have hzero : g.collector.heap.refs a = 0 := hg.suits ha
    obtain ⟨c, hr, hc⟩ := Collector.transfer_recounted hg ha
      (show Partition.zeroCount ≠ .multiRef by decide) (by decide) (by decide) hne
    refine ⟨c, .multiRef, ?_, hc⟩
    rw [hzero, UInt64.zero_add] at hr hinc
    simp [addref, h0, hs, ht, hinc, hlabel, Collector.promote, hr]
  | multiRef =>
    refine ⟨_, .multiRef, ?_, Collector.recounted_setRefs hg ha hne⟩
    simp [addref, h0, hs, ht, hinc, hlabel]
  | working =>
    refine ⟨_, .working, ?_, Collector.recounted_setRefs hg ha trivial⟩
    simp [addref, h0, hs, ht, hinc, hlabel]

/-- Taking a reference answers the pointer. -/
lemma eq_of_addref_eq_ok {x : UInt64} {g' : Gc δ} (hr : (addref a).run g = .ok x g') : x = a := by
  simp only [addref, EStateM.run_bind, EStateM.run_get] at hr
  split at hr
  · cases hr
    rfl
  · split at hr
    · cases hr
    · rw [EStateM.run_bind] at hr
      split at hr
      · cases hr
        rfl
      · cases hr

/-- As for `addref_of_ignored`, a dropped reference is ignored before the tables are asked. -/
lemma delref_of_ignored (h : a = 0 ∨ g.isShutdown = true) : (delref a).run g = .ok () g := by
  simp [delref, h]

lemma delref_of_not_isTracked (ha : a ≠ 0) (hs : g.isShutdown = false)
    (ht : g.collector.isTracked a = false) :
    (delref a).run g = .error (.delrefUntracked a) g := by
  simp [delref, ha, hs, ht]

/-- A count of zero is refused before any entry moves, in a pass as well as between passes. -/
lemma delref_of_underflow (ha : a ≠ 0) (hs : g.isShutdown = false)
    (ht : g.collector.isTracked a = true) (hn : g.collector.heap.refs a = 0) :
    (delref a).run g = .error .countUnderflow g := by
  cases g
  simp_all [delref, Collector.decrement_of_eq hn]

/-- Dropping a reference to a tracked object whose count is not zero. -/
lemma delref_recounted (hg : g.collector.Partitioned) (hs : g.isShutdown = false)
    (ha : a ∈ g.collector.table p) (hn : g.collector.heap.refs a ≠ 0) :
    ∃ c q, (delref a).run g = .ok () { g with collector := c } ∧
      g.collector.Recounted c a (g.collector.heap.refs a - 1) q := by
  have h0 : a ≠ 0 := hg.ne_zero ha
  have ht : g.collector.isTracked a = true := Partitions.isTracked_iff.2 ⟨p, ha⟩
  have hlabel := hg.labelled ha
  have hdec := Collector.decrement_of_ne hn
  cases p with
  | zeroCount => exact absurd (hg.suits ha) hn
  | multiRef =>
    by_cases hlast : g.collector.heap.refs a - 1 = 0
    · obtain ⟨c, hr, hc⟩ := Collector.transfer_recounted hg ha
        (show Partition.multiRef ≠ .zeroCount by decide) (by decide) (by decide) hlast
      refine ⟨c, .zeroCount, ?_, hc⟩
      rw [hlast] at hr hdec
      simp [delref, h0, hs, ht, hdec, hlabel, Collector.demote, hr]
    · refine ⟨_, .multiRef, ?_, Collector.recounted_setRefs hg ha hlast⟩
      simp [delref, h0, hs, ht, hdec, hlast]
  | working =>
    refine ⟨_, .working, ?_, Collector.recounted_setRefs hg ha trivial⟩
    simp [delref, h0, hs, ht, hdec, hlabel]

/-- Taking a reference changes nothing, or recounts a tracked object. -/
lemma after_addref (hg : g.collector.Partitioned) (a : UInt64) :
    after (addref a) g = g ∨ ∃ c n p q, a ∈ g.collector.table p ∧
      g.collector.Recounted c a n q ∧ after (addref a) g = { g with collector := c } := by
  -- the ways of `addref` in its own order: ignored, untracked, at the largest count, counted
  by_cases hi : a = 0 ∨ g.isShutdown = true
  · exact .inl (by rw [after, addref_of_ignored hi])
  · rw [not_or, Bool.not_eq_true] at hi
    by_cases ht : g.collector.isTracked a = true
    · obtain ⟨p, hp⟩ := Partitions.isTracked_iff.1 ht
      by_cases hn : (g.collector.heap.refs a).toNat + 1 = UInt64.size
      · exact .inl (by rw [after, addref_of_overflow hi.1 hi.2 ht hn])
      · obtain ⟨c, q, hr, hc⟩ := addref_recounted hg hi.2 hp hn
        exact .inr ⟨c, _, p, q, hp, hc, by rw [after, hr]⟩
    · rw [Bool.not_eq_true] at ht
      exact .inl (by rw [after, addref_of_not_isTracked hi.1 hi.2 ht])

/-- Dropping a reference changes nothing, or recounts a tracked object. -/
lemma after_delref (hg : g.collector.Partitioned) (a : UInt64) :
    after (delref a) g = g ∨ ∃ c n p q, a ∈ g.collector.table p ∧
      g.collector.Recounted c a n q ∧ after (delref a) g = { g with collector := c } := by
  by_cases hi : a = 0 ∨ g.isShutdown = true
  · exact .inl (by rw [after, delref_of_ignored hi])
  · rw [not_or, Bool.not_eq_true] at hi
    by_cases ht : g.collector.isTracked a = true
    · obtain ⟨p, hp⟩ := Partitions.isTracked_iff.1 ht
      by_cases hn : g.collector.heap.refs a = 0
      · exact .inl (by rw [after, delref_of_underflow hi.1 hi.2 ht hn])
      · obtain ⟨c, q, hr, hc⟩ := delref_recounted hg hi.2 hp hn
        exact .inr ⟨c, _, p, q, hp, hc, by rw [after, hr]⟩
    · rw [Bool.not_eq_true] at ht
      exact .inl (by rw [after, delref_of_not_isTracked hi.1 hi.2 ht])

/-- The objects that a pass with some root words condemns as cyclic, if it keeps the objects of some
words. -/
def cyclic (g : Gc δ) (fresh : Option UInt64) (roots : List UInt64) : Finset UInt64 :=
  if g.tracesCycles fresh.isSome then
    (g.collector.heap.unreachable
      (g.collector.zeroCount.addresses.filter (· ∈ fresh.toList ++ roots))
      g.collector.multiRef.addresses roots).toFinset
  else ∅

lemma mem_multiRef_of_mem_cyclic {fresh : Option UInt64} {roots : List UInt64}
    (h : a ∈ g.cyclic fresh roots) : a ∈ g.collector.multiRef := by
  rw [cyclic] at h
  split_ifs at h
  · exact (Heap.mem_unreachable.1 (List.mem_toFinset.1 h)).1
  · simp at h

/-- The counted references to a cyclic object are words of cyclic payloads. -/
lemma refs_of_mem_cyclic {fresh : Option UInt64} {roots : List UInt64}
    (h : a ∈ g.cyclic fresh roots) :
    (g.collector.heap.refs a).toNat =
      ∑ x ∈ g.cyclic fresh roots, (g.collector.heap.words x).count a := by
  rw [cyclic] at h ⊢
  split_ifs at h ⊢
  · exact (Heap.selfOwned_unreachable g.collector.multiRef.nodup_addresses).refs_eq a h
  · simp at h

/-- What condemning finds, once a pass has rescued and with the multi-ref objects among the words
that have rescued nothing for roots, are the cyclic objects. -/
lemma toFinset_cyclic {c₁ c₂ : Collector δ} {fresh : Option UInt64} {roots : List UInt64}
    (hg : g.collector.Disjoint) (hopen : g.collector.Opened c₂ (fresh.toList ++ roots) ∅)
    (hmulti : c₂.multiRef = g.collector.multiRef)
    (hwork : ∀ b ∈ c₁.working, b ∈ g.collector.zeroCount)
    (htrace : g.tracesCycles fresh.isSome = true) :
    (c₂.cyclic ((c₁.rescueAll roots).1.filter c₂.isMultiRef)).toFinset = g.cyclic fresh roots := by
  rw [cyclic, if_pos htrace, Collector.cyclic, hmulti]
  have hnodup := g.collector.multiRef.nodup_addresses
  refine Heap.toFinset_unreachable_congr hnodup hnodup (fun _ => Iff.rfl)
    (fun a _ => hopen.sameObjects.refs_eq a) (fun a _ => hopen.sameObjects.words_eq a) ?_ ?_
  · intro b
    rw [List.mem_filter, decide_eq_true_iff]
    exact hopen.mem_zeroCount b
  · -- a multi-ref object is no candidate, so its address is still there to be a root
    intro b hb
    have hnot : b ∉ c₁.working := fun hw =>
      absurd (hg (p := .zeroCount) (q := .multiRef) (hwork b hw) hb) (by decide)
    have hm : c₂.isMultiRef b = true := by
      rw [Partitions.isMultiRef, hmulti, Table.contains_iff]
      exact hb
    rw [List.mem_filter]
    constructor
    · exact fun h => Collector.mem_of_mem_rescueAll h.1
    · exact fun h => ⟨Collector.mem_rescueAll h hnot, hm⟩

/-- A pass that opens rescues, and then condemns cycles if it looks for them. -/
lemma run_openPass {c₁ c₃ : Collector δ} {unused : List UInt64} {fresh : Option UInt64}
    {roots : List UInt64} (hc : g.collector.collecting = false) (hs : g.isShutdown = false)
    (hbegin : Collector.beginPass.run g.collector = .ok () c₁)
    (hrescue : (c₁.rescueAll fresh.toList).2.rescueAll roots = (unused, c₃)) :
    (openPass fresh (some roots)).run g =
      match (if g.tracesCycles fresh.isSome then
          Collector.condemnCycles (unused.filter c₃.isMultiRef) else pure []).run c₃ with
      | .ok condemned c =>
        .ok (some ⟨condemned, c.pendingDestructors⟩) { g with collector := c }
      | .error f c => .error f { g with collector := c } := by
  by_cases htrace : g.tracesCycles fresh.isSome = true
  · simp only [htrace, if_true]
    cases hcond : (Collector.condemnCycles (unused.filter c₃.isMultiRef)).run c₃ <;>
      simp [openPass, hs, hc, hbegin, hrescue, htrace, hcond]
  · simp [openPass, hs, hc, hbegin, hrescue, htrace]

/-- Between passes, a pass opens wherever there is something to scan. If it looks for cycles, it
notes how many multi-ref objects are left then. -/
lemma openPass_opened_cycleBaseline (hg : g.collector.Labelled) (hw : ∀ b, b ∉ g.collector.working)
    (hc : g.collector.collecting = false) (hs : g.isShutdown = false) (fresh : Option UInt64)
    (roots : List UInt64) :
    ∃ c condemned, (openPass fresh (some roots)).run g =
        .ok (some ⟨condemned, c.pendingDestructors⟩) { g with collector := c } ∧
      condemned.toFinset = g.cyclic fresh roots ∧
      g.collector.Opened c (fresh.toList ++ roots) (g.cyclic fresh roots) ∧
      c.cycleBaseline =
        if g.tracesCycles fresh.isSome then c.multiRef.size else g.collector.cycleBaseline := by
  obtain ⟨c₁, hr, hbegun⟩ := Collector.beginPass_begun hc hw
  have hresc := Collector.rescued_rescueAll fresh.toList c₁
  generalize hc₂ : (c₁.rescueAll fresh.toList).2 = c₂ at hresc
  have hresc' := Collector.rescued_rescueAll roots c₂
  generalize hc₃ : (c₂.rescueAll roots).2 = c₃ at hresc'
  have hopen := Collector.opened_rescueAll hg hbegun hresc hresc'
  have hrescue : (c₁.rescueAll fresh.toList).2.rescueAll roots = ((c₂.rescueAll roots).1, c₃) := by
    rw [hc₂, ← hc₃]
  have hrun := run_openPass hc hs hr hrescue
  -- the rescues are described; what is left is whether cycles are condemned as well
  by_cases htrace : g.tracesCycles fresh.isSome = true
  · have hmulti : c₃.multiRef = g.collector.multiRef := by
      rw [hresc'.multiRef_eq, hresc.multiRef_eq, hbegun.multiRef_eq]
    have hwork (b : UInt64) (hb : b ∈ c₂.working) : b ∈ g.collector.zeroCount := by
      rw [← hbegun.working_eq]
      exact ((hresc.mem_working b).1 hb).1
    have hcyclic := toFinset_cyclic hg.disjoint hopen hmulti hwork htrace
    generalize hroots : (c₂.rescueAll roots).1.filter c₃.isMultiRef = roots' at hcyclic hrun
    obtain ⟨c₄, journal, hr', hcond⟩ :=
      Collector.condemnCycles_condemned hopen.labelled.disjoint roots'
    have hopen' := hopen.condemned hcond (fun b hb => by
      rw [← List.mem_toFinset, hcyclic] at hb
      exact mem_multiRef_of_mem_cyclic hb)
    rw [hcyclic] at hopen'
    refine ⟨{ c₄ with cycleBaseline := c₄.multiRef.size, journal }, c₃.cyclic roots', ?_, hcyclic,
      { hopen' with sameTotals := hopen'.sameTotals.trans ⟨rfl, rfl, rfl⟩ }, (if_pos htrace).symm⟩
    rw [hrun, if_pos htrace, hr']
  · refine ⟨c₃, [], ?_, ?_, ?_, ?_⟩
    · rw [hrun, if_neg htrace]
      rfl
    · simp [cyclic, htrace]
    · simpa [cyclic, htrace] using hopen
    · rw [if_neg htrace, hresc'.sameBooks.cycleBaseline_eq, hresc.sameBooks.cycleBaseline_eq,
        hbegun.sameBooks.cycleBaseline_eq]

/-- `openPass_opened_cycleBaseline` without the baseline, on which most callers do not depend. -/
lemma openPass_opened (hg : g.collector.Labelled) (hw : ∀ b, b ∉ g.collector.working)
    (hc : g.collector.collecting = false) (hs : g.isShutdown = false) (fresh : Option UInt64)
    (roots : List UInt64) :
    ∃ c condemned, (openPass fresh (some roots)).run g =
        .ok (some ⟨condemned, c.pendingDestructors⟩) { g with collector := c } ∧
      condemned.toFinset = g.cyclic fresh roots ∧
      g.collector.Opened c (fresh.toList ++ roots) (g.cyclic fresh roots) := by
  obtain ⟨c, condemned, hr, hcyclic, hopen, -⟩ :=
    openPass_opened_cycleBaseline hg hw hc hs fresh roots
  exact ⟨c, condemned, hr, hcyclic, hopen⟩

lemma openPass_of_isShutdown (hs : g.isShutdown = true) (fresh : Option UInt64)
    (scan : Option (List UInt64)) : (openPass fresh scan).run g = .ok none g := by
  simp [openPass, hs]

lemma openPass_of_no_scan (hs : g.isShutdown = false) (fresh : Option UInt64) :
    (openPass fresh none).run g =
      .ok none { g with collector := g.collector.note .passSkipped } := by
  simp [openPass, hs, note]

lemma openPass_of_collecting (hc : g.collector.collecting = true) (hs : g.isShutdown = false)
    (fresh : Option UInt64) (roots : List UInt64) :
    (openPass fresh (some roots)).run g = .ok none g := by
  simp [openPass, hs, hc]

lemma closePass_finished (g : Gc δ) :
    ∃ c, closePass.run g = .ok g.collector.working.size { g with collector := c } ∧
      g.collector.Finished c := by
  refine ⟨g.collector.finishPass.2, ?_, g.collector.finished_finishPass⟩
  simp [closePass, Collector.finishPass_fst]

/-! ### Teardown -/

lemma beginTeardown_of_isShutdown (hs : g.isShutdown = true) :
    beginTeardown.run g = .ok none g := by
  simp [beginTeardown, hs]

/-- A teardown inside a pass is refused when the collector is shut down already, and nothing takes
that back. -/
lemma beginTeardown_of_collecting (hc : g.collector.collecting = true)
    (hs : g.isShutdown = false) :
    beginTeardown.run g = .error .deinitDuringPass { g with isShutdown := true } := by
  simp [beginTeardown, hs, hc]

/-- Between passes a teardown condemns everything, and owes the destructors of all that is tracked.
-/
lemma beginTeardown_allCondemned (hg : g.collector.Partitioned)
    (hc : g.collector.collecting = false) (hs : g.isShutdown = false) :
    ∃ c, beginTeardown.run g =
        .ok (some c.pendingDestructors) { g with collector := c, isShutdown := true } ∧
      g.collector.AllCondemned c := by
  obtain ⟨c, hr, hc'⟩ := Collector.condemnAll_allCondemned hg
  exact ⟨c, by simp [beginTeardown, hs, hc, hr], hc'⟩

/-- The end of a teardown sweeps and notes how much. -/
lemma endTeardown_swept (g : Gc δ) :
    ∃ c, endTeardown.run g = .ok () { g with collector := c } ∧ g.collector.Swept c ∧
      g.collector.SameBooks c ∧
      c.journal.head? = some (.tornDown g.collector.working.size) := by
  refine ⟨(g.collector.sweep.2).note (.tornDown g.collector.sweep.1), by simp [endTeardown],
    g.collector.swept_sweep.congr rfl rfl rfl, ?_, ?_⟩
  · exact g.collector.sameBooks_sweep.trans (by constructor <;> rfl)
  · rw [g.collector.sweep_fst]
    rfl

/-! ### Allocation -/

lemma create_of_isShutdown (hs : g.isShutdown = true) (alloc : Allocator δ) (size : Nat)
    (d : Option δ) :
    (create alloc size d).run g = .ok (.error .shutDown)
      { g with collector := g.collector.note (.allocationRefused size) } := by
  simp [create, hs, note]

variable {alloc : Allocator δ} {size : Nat} {d : Option δ}

lemma create_of_error {e : GcError} (hs : g.isShutdown = false)
    (ha : alloc g.collector.heap size d = .error e) :
    (create alloc size d).run g = .ok (.error e) g := by
  simp [create, hs, ha]

/-- A block that a sound allocator grants is tracked as a new object. -/
lemma create_created {h : Heap δ} (hg : g.collector.Partitioned) (hs : g.isShutdown = false)
    (hsound : alloc.SoundAt g.collector.heap)
    (ha : alloc g.collector.heap size d = .ok (a, h)) :
    ∃ c, (create alloc size d).run g = .ok (.ok a) { g with collector := c } ∧ c.heap = h ∧
      g.collector.Created c size d a := by
  obtain ⟨c, hr, hc⟩ := Collector.track_created hg (hsound size d a h ha)
  exact ⟨c, by simp [create, hs, ha, hr], hc⟩

/-- An allocation that succeeds was not refused, and creates an object. -/
lemma created_of_create {g' : Gc δ} (hg : g.collector.Partitioned)
    (hsound : alloc.SoundAt g.collector.heap) (hr : (create alloc size d).run g = .ok (.ok a) g') :
    g.isShutdown = false ∧
      ∃ c, g' = { g with collector := c } ∧ g.collector.Created c size d a := by
  by_cases hs : g.isShutdown = true
  · rw [create_of_isShutdown hs] at hr
    simp at hr
  rw [Bool.not_eq_true] at hs
  cases ha : alloc g.collector.heap size d with
  | error e =>
    rw [create_of_error hs ha] at hr
    simp at hr
  | ok r =>
    obtain ⟨b, h⟩ := r
    obtain ⟨c, hr', -, hc⟩ := create_created hg hs hsound ha
    rw [hr'] at hr
    obtain ⟨rfl, rfl⟩ : b = a ∧ { g with collector := c } = g' := by simpa using hr
    exact ⟨hs, c, rfl, hc⟩

/-- Such an object is in the zero-count table. -/
lemma of_create_eq_ok {g' : Gc δ} (hg : g.collector.Partitioned)
    (hsound : alloc.SoundAt g.collector.heap) (hr : (create alloc size d).run g = .ok (.ok a) g') :
    a ∈ g'.collector.zeroCount ∧ g'.isShutdown = false := by
  obtain ⟨hs, c, rfl, hc⟩ := created_of_create hg hsound hr
  exact ⟨(hc.mem_table .zeroCount a).2 (by simp), hs⟩

/-- Allocation changes nothing but the journal, or creates an object. -/
lemma after_create (hg : g.collector.Partitioned) (hsound : alloc.SoundAt g.collector.heap)
    (size : Nat) (d : Option δ) :
    (∃ journal, after (create alloc size d) g =
      { g with collector := { g.collector with journal } }) ∨
    ∃ c a, g.collector.Created c size d a ∧
      after (create alloc size d) g = { g with collector := c } := by
  by_cases hs : g.isShutdown = true
  · refine .inl ⟨.allocationRefused size :: g.collector.journal, ?_⟩
    rw [after, create_of_isShutdown hs]
    rfl
  · rw [Bool.not_eq_true] at hs
    cases ha : alloc g.collector.heap size d with
    | error e => exact .inl ⟨g.collector.journal, by rw [after, create_of_error hs ha]⟩
    | ok r =>
      obtain ⟨a, h⟩ := r
      obtain ⟨c, hr, -, hc⟩ := create_created hg hs hsound ha
      exact .inr ⟨c, a, hc, by rw [after, hr]⟩

/-! ### The partition invariant -/

namespace Partitioned

/-- What changes neither the tables nor what the invariant reads in headers keeps it. -/
lemma congr {c : Collector δ} (hg : g.Partitioned)
    (htables : c.toPartitions = g.collector.toPartitions)
    (hrefs : ∀ a, c.heap.refs a = g.collector.heap.refs a)
    (hstate : ∀ a, c.heap.state? a = g.collector.heap.state? a)
    (hlive : ∀ a, c.heap.Live a ↔ g.collector.heap.Live a)
    (hcoll : c.collecting = g.collector.collecting) :
    Partitioned { g with collector := c } where
  collector := hg.collector.congr htables hrefs hstate hlive
  idle hc hs := by
    simp only [htables]
    exact hg.idle (hcoll ▸ hc) hs

lemma recounted {c : Collector δ} {n : UInt64} (hg : g.Partitioned)
    (ha : a ∈ g.collector.table p) (h : g.collector.Recounted c a n q) :
    Partitioned { g with collector := c } where
  collector := h.partitioned hg.collector ha
  idle hc hs b hb := hg.idle (h.sameBooks.collecting_eq ▸ hc) hs b ((h.mem_working b).1 hb)

/-- A new object keeps the invariant. In a pass it is no candidate, so the working table is what it
was. -/
lemma created {c : Collector δ} (hg : g.Partitioned) (h : g.collector.Created c size d a) :
    Partitioned { g with collector := c } where
  collector := h.partitioned hg.collector
  idle hc hs b hb := by
    have := (h.mem_table .working b).1 hb
    split_ifs at this
    exact hg.idle (h.sameBooks.collecting_eq ▸ hc) hs b this

lemma after_addref (hg : g.Partitioned) (a : UInt64) : (after (addref a) g).Partitioned := by
  rcases Gc.after_addref hg.collector a with h | ⟨c, n, p, q, ha, hc, h⟩
  · rw [h]
    exact hg
  · rw [h]
    exact hg.recounted ha hc

lemma after_delref (hg : g.Partitioned) (a : UInt64) : (after (delref a) g).Partitioned := by
  rcases Gc.after_delref hg.collector a with h | ⟨c, n, p, q, ha, hc, h⟩
  · rw [h]
    exact hg
  · rw [h]
    exact hg.recounted ha hc

lemma after_create (hg : g.Partitioned) (hsound : alloc.SoundAt g.collector.heap) (size : Nat)
    (d : Option δ) : (after (create alloc size d) g).Partitioned := by
  rcases Gc.after_create hg.collector hsound size d with ⟨journal, h⟩ | ⟨c, a, hc, h⟩
  · rw [h]
    exact hg.congr rfl (fun _ => rfl) (fun _ => rfl) (fun _ => Iff.rfl) rfl
  · rw [h]
    exact hg.created hc

lemma note (hg : g.Partitioned) (m : Message) : (after (Gc.note m) g).Partitioned :=
  hg.congr rfl (fun _ => rfl) (fun _ => rfl) (fun _ => Iff.rfl) rfl

/-- A store into a payload reaches nothing that the invariant speaks of. -/
lemma store {h : Heap δ} {a w : UInt64} {offset : Nat} (hg : g.Partitioned)
    (hs : g.collector.heap.store? a offset w = some h) :
    Partitioned { g with collector := { g.collector with heap := h } } :=
  hg.congr rfl (Heap.refs_store? hs) (Heap.state?_store? hs) (Heap.live_store? hs) rfl

/-- Whether a pass opens or not, the invariant holds afterwards; an open pass is excused from the
empty working table. -/
lemma after_openPass (hg : g.Partitioned) (fresh : Option UInt64) (scan : Option (List UInt64)) :
    (after (openPass fresh scan) g).Partitioned := by
  by_cases hs : g.isShutdown = true
  · rw [after, openPass_of_isShutdown hs]
    exact hg
  rw [Bool.not_eq_true] at hs
  cases scan with
  | none =>
    rw [after, openPass_of_no_scan hs]
    exact hg.note .passSkipped
  | some roots =>
    by_cases hc : g.collector.collecting = true
    · rw [after, openPass_of_collecting hc hs]
      exact hg
    rw [Bool.not_eq_true] at hc
    obtain ⟨c, condemned, hr, -, hopen⟩ :=
      openPass_opened hg.collector.labelled (hg.idle hc hs) hc hs fresh roots
    rw [after, hr]
    refine ⟨hopen.partitioned hg.collector (hg.idle hc hs), fun hc' => ?_⟩
    exact absurd (hopen.collecting_eq.symm.trans hc') (by decide)

/-- A sweep keeps the invariant and empties the working table, whatever the state of the pass. -/
lemma swept {c : Collector δ} (hg : g.Partitioned) (h : g.collector.Swept c) :
    Partitioned { g with collector := c } where
  collector := h.partitioned hg.collector
  idle _ _ := h.not_mem_working

lemma after_closePass (hg : g.Partitioned) : (after closePass g).Partitioned := by
  obtain ⟨c, hr, hc⟩ := closePass_finished g
  rw [after, hr]
  exact hg.swept hc.swept

/-- A teardown keeps the invariant also when it is refused, since a collector that is shut down is
excused from the empty working table. -/
lemma after_beginTeardown (hg : g.Partitioned) : (after beginTeardown g).Partitioned := by
  by_cases hs : g.isShutdown = true
  · rw [after, beginTeardown_of_isShutdown hs]
    exact hg
  rw [Bool.not_eq_true] at hs
  by_cases hc : g.collector.collecting = true
  · rw [after, beginTeardown_of_collecting hc hs]
    exact ⟨hg.collector, fun _ h => absurd h (by simp)⟩
  rw [Bool.not_eq_true] at hc
  obtain ⟨c, hr, hall⟩ := beginTeardown_allCondemned hg.collector hc hs
  rw [after, hr]
  exact ⟨hall.partitioned, fun _ h => absurd h (by simp)⟩

lemma after_endTeardown (hg : g.Partitioned) : (after endTeardown g).Partitioned := by
  obtain ⟨c, hr, hc, -⟩ := endTeardown_swept g
  rw [after, hr]
  exact hg.swept hc

end Partitioned

end Gc

end HybridGC
