import HybridGC.Proofs.World

/-!
# Whatever clients do

Clients count as they please, their destructors call the collector that runs them, and their
scanners may stop in the middle of a scan. In every state that comes about the partitions are exact,
and every pass that returns frees what was doomed when it opened. Both are shown at work for a
client that leaves a bit of everything behind.
-/

namespace HybridGC

open Host Machine

/-! ### A client that leaves something behind -/

namespace World

/-- A destructor that drops the reference in its object's payload, allocates an object and asks for a
pass. -/
def callBack : List Call :=
  [({}, .delref (.load .self 0) 1), ({}, .alloc 8 none 1), ({}, .collect)]

/-- An object that only an unused one refers to, two that refer to one another, a root, and one that
is held from outside. The unused one and the two have destructors that call back. From then on three
objects without counted references make an allocation run a pass. -/
def clutter : List Call :=
  [({}, .alloc 8 none 1), ({}, .alloc 8 (some (.native, callBack)) 1),
    ({}, .swapref (some (.cell (.ref (.object 1 0)) 0)) (.ref (.object 0 0))),
    ({}, .alloc 8 (some (.foreign, callBack)) 2),
    ({}, .swapref (some (.cell (.ref (.object 2 0)) 0)) (.ref (.object 3 0))),
    ({}, .swapref (some (.cell (.ref (.object 3 0)) 0)) (.ref (.object 2 0))),
    ({}, .alloc 8 none 2), ({}, .rootAdd (.ref (.object 4 0))), ({}, .addref (.ref (.object 5 0)) 1),
    ({}, .setThreshold (.ref (.word 3)))]

/-- The client that has left this behind, with its collector. The kernel can evaluate it, and nothing
else should try. -/
@[irreducible] def cluttered : World :=
  (run clutter (start {} .explicit)).2

/-- The calls of this client, and then a collection. -/
def tidying : List Call :=
  clutter ++ [(({} : Manner), .collect)]

/-- The client after the collection. -/
@[irreducible] def tidied : World :=
  (run tidying (start {} .explicit)).2

/-- The session is a run of the machine, so the facts below are about a client and not about a state
made by hand. -/
lemma hasHistory_cluttered :
    ∃ es, HasHistory ⟨cluttered.gc, []⟩ es ∧ cluttered.gc.collector.heap.Bounded ∧
      es.called = destroyed cluttered.client := by
  rw [cluttered]
  exact hasHistory_run clutter {} .explicit

/-- What the session leaves is reachable, without any pass or teardown under way. -/
lemma reachable_cluttered : Reachable ⟨cluttered.gc, []⟩ := by
  obtain ⟨es, h, -⟩ := hasHistory_cluttered
  exact h.reachable

lemma bounded_cluttered : cluttered.gc.collector.heap.Bounded := by
  obtain ⟨es, -, hb, -⟩ := hasHistory_cluttered
  exact hb

/-- Scripts as destructors, on the thread of the client. -/
abbrev scripts : Environment Client Finalizer :=
  environment runDestructor .main

/-- The next object of the cluttered client, and the collector that has created it. -/
lemma create_cluttered :
    (Gc.create Heap.allocate 8 none).run cluttered.gc =
      .ok (.ok 0x100001b0) (after (Gc.create Heap.allocate 8 none) cluttered.gc) := by
  have hcursor : cluttered.gc.collector.heap.cursor = 0x10000180 := by decide +kernel
  have hheap : ∃ h, cluttered.gc.collector.heap.allocate 8 none = .ok (0x100001b0, h) := by
    simp [Heap.allocate, Heap.nextAddress, hcursor, Arena.largestBlock, Arena.headerSize,
      Arena.base, Arena.capacity, Arena.alignment]
  obtain ⟨h, ha⟩ := hheap
  obtain ⟨c, hr, -⟩ := Gc.create_created reachable_cluttered.partitioned.collector
    (by decide +kernel) bounded_cluttered.soundAt_allocate ha
  rw [after, hr]

end World

/-! ### The partitions -/

namespace Machine

open World

variable {δ : Type} {m : Machine δ}

/-- In every state that can come about, each tracked object has its entry in one table and once
there, its header names that table, and its count suits it. Between passes and before shutdown,
nothing is being collected. A scanner that stops leaves no other states. -/
theorem partitions_of_arises (h : m.Arises) :
    (∀ a, m.gc.collector.isTracked a = true → ∃ p,
      (∀ q, (m.gc.collector.table q).addresses.count a = if q = p then 1 else 0) ∧
      m.gc.collector.heap.state? a = some p ∧
      (p = .zeroCount → m.gc.collector.heap.refs a = 0) ∧
      (p = .multiRef → 1 ≤ m.gc.collector.heap.refs a)) ∧
    (m.gc.collector.collecting = false → m.gc.isShutdown = false →
      m.gc.collector.working.isEmpty = true) := by
  have hm := h.partitioned
  refine ⟨fun a ha => ?_, fun hc hs => Table.isEmpty_iff.2 (hm.idle hc hs)⟩
  obtain ⟨p, hp⟩ := Partitions.isTracked_iff.1 ha
  have hsuits := hm.collector.suits hp
  refine ⟨p, hm.collector.disjoint.count_addresses hp, hm.collector.labelled hp, ?_, ?_⟩
  · rintro rfl
    exact hsuits
  · rintro rfl
    exact UInt64.pos_iff_ne_zero.2 hsuits

/-- Open a pass, call its first destructor, and drop a reference there. -/
def dropInside (roots : List UInt64) (a : UInt64) (g : Gc δ) : Machine δ :=
  match perform (Gc.openPass none (some roots)) (·.map (⟨.pass, ·.pending⟩)) ⟨g, []⟩ with
  | ⟨g, ⟨u, x :: owed⟩ :: fs⟩ =>
    ⟨after (Gc.delref a) (after (Gc.note (.destroying x.1)) g), ⟨u, owed⟩ :: fs⟩
  | m => m

lemma Arises.dropInside {g : Gc δ} (h : Arises ⟨g, []⟩) (roots : List UInt64) (a : UInt64) :
    (dropInside roots a g).Arises := by
  have hopened := h.step (.openPass ⟨g, []⟩ none (some roots))
  rw [Machine.dropInside]
  split
  case h_1 g' u x owed fs hm =>
    rw [hm] at hopened
    exact (hopened.step (.destroy g' fs u x owed)).step (.delref _ _ a)
  case h_2 => exact hopened

/-- A pass whose first destructor has dropped the last reference to an object. -/
def dropped : Machine Finalizer :=
  dropInside [0x10000130] 0x10000030 cluttered.gc

/-- A pass whose scanner has stopped after it has reported a word. -/
def abandoned : Machine Finalizer :=
  ⟨after (Gc.scanStopped none [0x10000130]) cluttered.gc, []⟩

/-- In the destructor the object is back among those without counted references, and what dies with
the destructor's own object is still there. Where the scanner has stopped the candidates are where
they were. -/
theorem partitions_of_arises_cluttered :
    dropped.Arises ∧ dropped.gc.collector.heap.refs 0x10000030 = 0 ∧
      (∀ q, (dropped.gc.collector.table q).addresses.count 0x100000b0 =
        if q = .working then 1 else 0) ∧
      abandoned.Arises ∧
      (∀ q, (abandoned.gc.collector.table q).addresses.count 0x10000070 =
        if q = .working then 1 else 0) ∧
      Arises ⟨cluttered.gc, []⟩ ∧ cluttered.gc.collector.working.isEmpty = true := by
  have hstart : Arises ⟨cluttered.gc, []⟩ := reachable_cluttered.arises
  have hdropped : dropped.Arises := hstart.dropInside [0x10000130] 0x10000030
  have habandoned : abandoned.Arises := .scanStopped none [0x10000130] hstart
  obtain ⟨hinside, -⟩ := partitions_of_arises hdropped
  obtain ⟨hleft, -⟩ := partitions_of_arises habandoned
  obtain ⟨-, hidle⟩ := partitions_of_arises hstart
  obtain ⟨p, -, hp, hzero, -⟩ := hinside 0x10000030 (by decide +kernel)
  obtain ⟨q, hcount, hq, -⟩ := hinside 0x100000b0 (by decide +kernel)
  obtain ⟨r, hcount', hr, -⟩ := hleft 0x10000070 (by decide +kernel)
  have hp' : dropped.gc.collector.heap.state? 0x10000030 = some .zeroCount := by decide +kernel
  have hq' : dropped.gc.collector.heap.state? 0x100000b0 = some .working := by decide +kernel
  have hr' : abandoned.gc.collector.heap.state? 0x10000070 = some .working := by decide +kernel
  obtain rfl := Option.some.inj (hp.symm.trans hp')
  obtain rfl := Option.some.inj (hq.symm.trans hq')
  obtain rfl := Option.some.inj (hr.symm.trans hr')
  exact ⟨hdropped, hzero rfl, hcount, habandoned, hcount', hstart,
    hidle (by decide +kernel) (by decide +kernel)⟩

end Machine

/-! ### Passes -/

namespace Host

open World

variable {μ δ : Type}

/-- What a pass frees: one that a client asks for, and one that an allocation runs, which keeps the
fresh object. -/
theorem passes_free (env : Environment μ δ) {s : Host μ δ} {fs : List (Frame δ)}
    (hs : Reachable ⟨s.gc, fs⟩) :
    (s.gc.collector.collecting = false → s.gc.isShutdown = false →
      ∀ roots, env.scan s.client s.gc.scanner = some roots → PassFrees env none roots s) ∧
    (∀ size d a g roots, env.alloc.SoundAt s.gc.collector.heap →
      (Gc.create env.alloc size d).run s.gc = .ok (.ok a) g → g.isDue = true →
      env.scan s.client g.scanner = some roots →
      PassFrees env (some a) roots ⟨s.client, g⟩ ∧
        g.collector.isTracked a = true ∧ a ∉ g.doomed (some a) roots ∧
        (allocate env size d).run s =
          ((fun _ => .ok a) <$> runPass env (some a)).run ⟨s.client, g⟩) := by
  have hpart : s.gc.Partitioned := hs.partitioned
  refine ⟨fun hc hsd roots hscan => passFrees hpart hc hsd none hscan, ?_⟩
  intro size d a g roots hsound hcreate hdue hscan
  have hg : g.Partitioned := by
    have := hpart.after_create hsound size d
    rwa [after, hcreate] at this
  -- the second case: the pass runs right after its object has been made
  obtain ⟨hzero, hsd⟩ := Gc.of_create_eq_ok hpart.collector hsound hcreate
  have hc : g.collector.collecting = false := by
    simp only [Gc.isDue, Bool.and_eq_true, Bool.not_eq_true'] at hdue
    exact hdue.1.2
  refine ⟨passFrees hg hc hsd (some a) hscan, ?_, ?_, ?_⟩
  · exact Partitions.isTracked_iff.2 ⟨.zeroCount, hzero⟩
  · rw [Gc.doomed, Finset.mem_union, not_or]
    refine ⟨by simp, fun hcyclic => ?_⟩
    have hmulti := Gc.mem_multiRef_of_mem_cyclic hcyclic
    exact hg.collector.disjoint.not_mem_table (p := .zeroCount) (q := .multiRef) hzero (by decide)
      hmulti
  · simp [allocate, hcreate, hdue]

/-- A collection frees the unused object and the two that refer to one another, and keeps what the
destructor of the unused one has dropped. An allocation that is due frees the unused object alone. -/
theorem passes_free_cluttered :
    Reachable ⟨cluttered.gc, []⟩ ∧
      (∃ w, (runPass scripts none).run cluttered = .ok 3 w ∧ w.gc.collector.lastRescued = 1 ∧
        (∀ a ∈ [0x10000070, 0x100000b0, 0x100000f0], ¬ w.gc.collector.heap.Live a) ∧
        w.gc.collector.isTracked 0x10000030 = true) ∧
      ∃ w, (allocate scripts 8 none).run cluttered = .ok (.ok 0x100001b0) w ∧
        ¬ w.gc.collector.heap.Live 0x10000070 ∧ w.gc.collector.isTracked 0x100001b0 = true := by
  have h := reachable_cluttered
  have hb := bounded_cluttered
  have hscan : scripts.scan cluttered.client cluttered.gc.scanner = some [0x10000130] := by
    decide +kernel
  obtain ⟨hasked, hdue⟩ := passes_free scripts h
  refine ⟨h, ?_, ?_⟩
  · have hdoomed : cluttered.gc.doomed none [0x10000130] =
        {0x10000070, 0x100000b0, 0x100000f0} := by decide +kernel
    -- that the pass returns is computed; what it frees is read off the theorem
    have hreturns : halt (runPass scripts none) cluttered = none := by decide +kernel
    obtain ⟨n, w, hr⟩ := halt_eq_none_iff.1 hreturns
    have hfrees := hasked (by decide +kernel) (by decide +kernel) [0x10000130] hscan
    obtain ⟨hn, hrescued, ⟨g, hfreed⟩, hkept⟩ :=
      hfrees.of_passes (passes_of_returns (records_runDestructor .main) h.partitioned hb hscan hr)
    have hthree : n = 3 := by rw [hn, hdoomed]; rfl
    refine ⟨w, hthree ▸ hr, hrescued.trans (by decide +kernel), fun a ha hl => ?_, ?_⟩
    · exact ((hfreed.live_iff a).1 hl).2 (by rw [hdoomed]; simpa using ha)
    · exact hkept _ (by decide +kernel) (by rw [hdoomed]; decide)
  · let g := after (Gc.create Heap.allocate 8 none) cluttered.gc
    have hscan' : scripts.scan cluttered.client g.scanner = some [0x10000130] := by decide +kernel
    obtain ⟨hfrees, htracked, hkept, hallocate⟩ :=
      hdue 8 none 0x100001b0 g [0x10000130] hb.soundAt_allocate create_cluttered
        (by decide +kernel) hscan'
    have hreturns : halt (runPass scripts (some 0x100001b0)) ⟨cluttered.client, g⟩ = none := by
      decide +kernel
    obtain ⟨n, w, hr⟩ := halt_eq_none_iff.1 hreturns
    have hpart : g.Partitioned := h.partitioned.after_create hb.soundAt_allocate 8 none
    have hbounded : g.collector.heap.Bounded := by
      obtain ⟨-, hbounded, -⟩ := Gc.Leads.create cluttered.gc 8 none h.partitioned hb
      exact hbounded
    obtain ⟨-, -, ⟨g', hfreed⟩, hsurvives⟩ :=
      hfrees.of_passes (passes_of_returns (records_runDestructor .main) hpart hbounded hscan' hr)
    refine ⟨w, by simp [hallocate, hr], fun hl => ?_, hsurvives _ htracked hkept⟩
    exact ((hfreed.live_iff _).1 hl).2 (by decide +kernel)

end Host

end HybridGC
