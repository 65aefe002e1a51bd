import HybridGC.Proofs.Clients

/-!
# Teardown

A teardown condemns all that is tracked, whatever its count and wherever it is, and works off the
destructors of it in an order that is settled before the first one runs. From its beginning on the
collector is shut down: no call changes a table, a header or a counter, so what the teardown sweeps
at its end is what it has condemned.
-/

namespace HybridGC

namespace Gc

variable {δ : Type} {g g₁ g₂ g₃ : Gc δ}

/-! ### After shutdown -/

/-- The collector has been shut down, and nothing has changed since but payload words, the threshold
and what has been noted. -/
structure Frozen (g g' : Gc δ) : Prop where
  isShutdown : g'.isShutdown = true
  toPartitions_eq : g'.collector.toPartitions = g.collector.toPartitions
  toPassCounters_eq : g'.collector.toPassCounters = g.collector.toPassCounters
  ladder_eq : g'.collector.ladder = g.collector.ladder
  collecting_eq : g'.collector.collecting = g.collector.collecting
  cycleBaseline_eq : g'.collector.cycleBaseline = g.collector.cycleBaseline
  header?_eq : ∀ a, g'.collector.heap.header? a = g.collector.heap.header? a
  live_iff : ∀ a, g'.collector.heap.Live a ↔ g.collector.heap.Live a
  scanner_eq : g'.scanner = g.scanner

namespace Frozen

lemma refl (hs : g.isShutdown = true) : g.Frozen g := by
  constructor <;> simp [hs]

lemma trans (h : g₁.Frozen g₂) (h' : g₂.Frozen g₃) : g₁.Frozen g₃ where
  isShutdown := h'.isShutdown
  toPartitions_eq := h'.toPartitions_eq.trans h.toPartitions_eq
  toPassCounters_eq := h'.toPassCounters_eq.trans h.toPassCounters_eq
  ladder_eq := h'.ladder_eq.trans h.ladder_eq
  collecting_eq := h'.collecting_eq.trans h.collecting_eq
  cycleBaseline_eq := h'.cycleBaseline_eq.trans h.cycleBaseline_eq
  header?_eq a := (h'.header?_eq a).trans (h.header?_eq a)
  live_iff a := (h'.live_iff a).trans (h.live_iff a)
  scanner_eq := h'.scanner_eq.trans h.scanner_eq

lemma note (hs : g.isShutdown = true) (m : Message) : g.Frozen (after (Gc.note m) g) := by
  obtain h := refl hs
  exact { h with }

lemma setThreshold (hs : g.isShutdown = true) (n : Nat) :
    g.Frozen (after (Gc.setThreshold n) g) := by
  obtain h := refl hs
  exact { h with }

lemma store {h : Heap δ} {a w : UInt64} {offset : Nat} (hs : g.isShutdown = true)
    (hstore : g.collector.heap.store? a offset w = some h) :
    g.Frozen { g with collector := { g.collector with heap := h } } := by
  obtain h := refl hs
  exact { h with
    header?_eq := Heap.header?_store? hstore
    live_iff := Heap.live_store? hstore }

end Frozen

end Gc

namespace Machine

variable {δ : Type} {m m' : Machine δ}

/-- After shutdown the only steps that change more than payload words, the threshold and the journal
are those that close what is under way. -/
lemma Step.frozen_or_closes (h : Step m m') (hs : m.gc.isShutdown = true) :
    (m.gc.Frozen m'.gc ∧
      m'.frames.map (·.undertaking) <:+ m.frames.map (·.undertaking)) ∨
    (∃ fs, m.frames = ⟨.pass, []⟩ :: fs ∧ m' = ⟨after Gc.closePass m.gc, fs⟩) ∨
    ∃ fs, m.frames = ⟨.teardown, []⟩ :: fs ∧ m' = ⟨after Gc.endTeardown m.gc, fs⟩ := by
  -- after shutdown calls are ignored, so only what is under way already can change anything
  cases h with
  | addref g fs a =>
    rw [after, Gc.addref_of_ignored (.inr hs)]
    exact .inl ⟨.refl hs, List.suffix_rfl⟩
  | delref g fs a =>
    rw [after, Gc.delref_of_ignored (.inr hs)]
    exact .inl ⟨.refl hs, List.suffix_rfl⟩
  | @create g fs alloc hsound size d =>
    rw [after, Gc.create_of_isShutdown hs]
    exact .inl ⟨.note hs (.allocationRefused size), List.suffix_rfl⟩
  | note g fs msg => exact .inl ⟨.note hs msg, List.suffix_rfl⟩
  | setThreshold g fs n => exact .inl ⟨.setThreshold hs n, List.suffix_rfl⟩
  | store g fs hstore => exact .inl ⟨.store hs hstore, List.suffix_rfl⟩
  | openPass m fresh scan =>
    rw [perform, Gc.openPass_of_isShutdown hs]
    exact .inl ⟨.refl hs, List.suffix_rfl⟩
  | beginTeardown m =>
    rw [perform, Gc.beginTeardown_of_isShutdown hs]
    exact .inl ⟨.refl hs, List.suffix_rfl⟩
  | destroy g fs u x owed => exact .inl ⟨.note hs _, List.suffix_rfl⟩
  | closePass g fs => exact .inr (.inl ⟨fs, rfl, rfl⟩)
  | endTeardown g fs => exact .inr (.inr ⟨fs, rfl, rfl⟩)
  | unwind g f fs => exact .inl ⟨.refl hs, List.suffix_cons _ _⟩

/-- With no pass open, the one that does is the sweep of the teardown. -/
lemma Step.frozen (h : Step m m') (hs : m.gc.isShutdown = true)
    (hf : ∀ f ∈ m.frames, f.undertaking = .teardown) :
    (m.gc.Frozen m'.gc ∧ m'.frames.length ≤ m.frames.length ∧
      ∀ f ∈ m'.frames, f.undertaking = .teardown) ∨
    ∃ fs, m.frames = ⟨.teardown, []⟩ :: fs ∧ m' = ⟨after Gc.endTeardown m.gc, fs⟩ := by
  rcases h.frozen_or_closes hs with ⟨hfrozen, hsuffix⟩ | ⟨fs, hfs, -⟩ | hclosed
  · refine .inl ⟨hfrozen, by simpa using hsuffix.length_le, fun f hf' => ?_⟩
    obtain ⟨f', hmem, heq⟩ := List.mem_map.1 (hsuffix.mem (List.mem_map_of_mem hf'))
    exact heq.symm.trans (hf f' hmem)
  · simp [hfs] at hf
  · exact .inr hclosed

/-- What a destructor does after shutdown changes nothing. -/
lemma Steps.frozen_of_nil (h : Steps m m') (hs : m.gc.isShutdown = true) (hf : m.frames = []) :
    m.gc.Frozen m'.gc ∧ m'.frames = [] := by
  induction h with
  | refl => exact ⟨.refl hs, hf⟩
  | tail _ hstep ih =>
    obtain ⟨hfrozen, hnil⟩ := ih
    rcases hstep.frozen hfrozen.isShutdown (by simp [hnil]) with
      ⟨hfrozen', hlen, -⟩ | ⟨fs, hfs, -⟩
    · refine ⟨hfrozen.trans hfrozen', List.eq_nil_of_length_eq_zero ?_⟩
      simpa [hnil] using hlen
    · simp [hnil] at hfs

/-- From the beginning of a teardown on nothing changes but by its sweep. -/
lemma Steps.frozen (h : Steps m m') (hs : m.gc.isShutdown = true)
    (hf : ∀ f ∈ m.frames, f.undertaking = .teardown) (hlen : m.frames.length ≤ 1) :
    m.gc.Frozen m'.gc ∨ ∃ g, m.gc.Frozen g ∧ (after Gc.endTeardown g).Frozen m'.gc := by
  suffices (m.gc.Frozen m'.gc ∧ m'.frames.length ≤ 1 ∧
      ∀ f ∈ m'.frames, f.undertaking = .teardown) ∨
      m'.frames = [] ∧ ∃ g, m.gc.Frozen g ∧ (after Gc.endTeardown g).Frozen m'.gc by
    rcases this with ⟨hfrozen, -⟩ | ⟨-, hswept⟩
    · exact .inl hfrozen
    · exact .inr hswept
  induction h with
  | refl => exact .inl ⟨.refl hs, hlen, hf⟩
  | @tail m₁ m₂ _ hstep ih =>
    rcases ih with ⟨hfrozen, hlen₁, hf₁⟩ | ⟨hnil, g, hfrozen, hfrozen'⟩
    · rcases hstep.frozen hfrozen.isShutdown hf₁ with ⟨hfrozen₂, hlen₂, hf₂⟩ | ⟨fs, hfs, rfl⟩
      · exact .inl ⟨hfrozen.trans hfrozen₂, hlen₂.trans hlen₁, hf₂⟩
      · refine .inr ⟨?_, m₁.gc, hfrozen, .refl ?_⟩
        · rw [hfs] at hlen₁
          simpa using hlen₁
        · obtain ⟨c, hr, -⟩ := Gc.endTeardown_swept m₁.gc
          rw [after, hr]
          exact hfrozen.isShutdown
    · obtain ⟨hfrozen₂, hnil₂⟩ :=
        Steps.frozen_of_nil (.single hstep) hfrozen'.isShutdown hnil
      exact .inr ⟨hnil₂, g, hfrozen, hfrozen'.trans hfrozen₂⟩

end Machine

namespace Host

open Machine World

variable {μ δ : Type} {s : Host μ δ}

/-! ### Calls after shutdown -/

/-- Calls to a collector that has been shut down answer, and change nothing but what they write into
a slot and that a refused allocation is noted. -/
structure Inert (s : Host μ δ) : Prop where
  allocate : ∀ (env : Environment μ δ) size d, (allocate env size d).run s =
    .ok (.error .shutDown) { s with gc := after (Gc.note (.allocationRefused size)) s.gc }
  addref : ∀ p, (onGc (Gc.addref p)).run s = .ok p s
  delref : ∀ p, (onGc (Gc.delref p)).run s = .ok () s
  swapref : ∀ (cell : Cell μ δ) v, (cell.write v s).gc.isShutdown = true →
    (swapref cell v).run s = .ok () (cell.write v s)
  runPass : ∀ (env : Environment μ δ) fresh, (runPass env fresh).run s = .ok 0 s
  deinit : ∀ env : Environment μ δ, (deinit env).run s = .ok () s

/-- Whatever has been done before, shutting down makes the collector inert. -/
lemma inert_of_isShutdown (hs : s.gc.isShutdown = true) : s.Inert where
  allocate env size d := by
    simp [Host.allocate, Gc.create_of_isShutdown hs, Gc.note, after]
  addref p := by simp [Gc.addref_of_ignored (.inr hs)]
  delref p := by simp [Gc.delref_of_ignored (.inr hs)]
  swapref cell v hw := by
    simp [Host.swapref, Gc.addref_of_ignored (.inr hs), Gc.delref_of_ignored (.inr hw)]
  runPass env fresh := by simp [Host.runPass, Gc.openPass_of_isShutdown hs]
  deinit env := by simp [Host.deinit, Gc.beginTeardown_of_isShutdown hs]

/-! ### Teardowns -/

/-- A teardown condemns everything and then owes the destructors of all that was tracked, each once.
If they return, whatever they have done, it frees all that was tracked, and counts no pass. -/
structure TearsDown (s : Host μ δ) (pending : List (UInt64 × δ)) (g : Gc δ) : Prop where
  begins : Gc.beginTeardown.run s.gc = .ok (some pending) g
  condemned : s.gc.collector.AllCondemned g.collector
  mem_pending : ∀ a d, (a, d) ∈ pending ↔
    s.gc.collector.isTracked a = true ∧ s.gc.collector.heap.destructor? a = some d
  nodup_pending : (pending.map Prod.fst).Nodup
  run_deinit : ∀ env : Environment μ δ, (deinit env).run s =
    (do destroyAll env pending; onGc Gc.endTeardown).run ⟨env.beginRound [] s.client, g⟩
  returns : ∀ (env : Environment μ δ) s₁,
    (destroyAll env pending).run ⟨env.beginRound [] s.client, g⟩ = .ok () s₁ →
    Steps ⟨g, []⟩ ⟨s₁.gc, []⟩ →
    ∃ s₂, (deinit env).run s = .ok () s₂ ∧ s₂.client = s₁.client ∧
      Freed s₁.gc s₂.gc s.gc.collector.tracked ∧ (∀ a, s₂.gc.collector.isTracked a = false) ∧
      s₂.gc.collector.journal.head? = some (.tornDown s.gc.collector.trackedCount) ∧
      s.gc.collector.SameTotals s₂.gc.collector

/-- The sweep of a teardown, if nothing has changed since everything was condemned but payload words:
all that was tracked before is freed, and no pass is counted for it. -/
lemma endTeardown_freed {g g₁ : Gc δ} {c : Collector δ} (hg : g.Partitioned)
    (hall : g.collector.AllCondemned c)
    (hfrozen : Gc.Frozen { g with collector := c, isShutdown := true } g₁)
    (hpart : g₁.collector.Partitioned) :
    ∃ c', Gc.endTeardown.run g₁ = .ok () { g₁ with collector := c' } ∧
      Freed g₁ { g₁ with collector := c' } g.collector.tracked ∧
      (∀ a, c'.isTracked a = false) ∧
      c'.journal.head? = some (.tornDown g.collector.trackedCount) ∧
      g.collector.SameTotals c' := by
  obtain ⟨c', hend, hswept, hbooks, hnoted⟩ := Gc.endTeardown_swept g₁
  have hworking (a : UInt64) : a ∈ g₁.collector.working ↔ g.collector.isTracked a = true := by
    rw [hfrozen.toPartitions_eq]
    exact hall.mem_working a
  have htracked (a : UInt64) : g₁.collector.isTracked a = true ↔
      g.collector.isTracked a = true := by
    rw [hfrozen.toPartitions_eq]
    exact hall.isTracked_iff a
  have hsize : g₁.collector.working.size = g.collector.trackedCount := by
    rw [← card_tracked hg.collector.disjoint, ← Table.card_toFinset]
    congr 1
    ext a
    rw [Table.mem_toFinset, hworking, Partitions.mem_tracked]
  have hcounters : g₁.collector.toPassCounters = c.toPassCounters := hfrozen.toPassCounters_eq
  refine ⟨c', hend, ⟨fun a ha => ?_, fun a => ?_, fun a => ?_⟩, fun a => ?_, ?_, ?_⟩
  · rw [Partitions.mem_tracked, ← hworking] at ha
    exact hpart.live (p := .working) ha
  · rw [hswept.live_iff, hworking, Partitions.mem_tracked, and_comm]
  · rw [hswept.isTracked_iff hpart.disjoint, hworking, Partitions.mem_tracked]
  · rw [← Bool.not_eq_true, hswept.isTracked_iff hpart.disjoint, htracked, hworking]
    exact fun h => h.2 h.1
  · rw [hnoted, hsize]
  · refine (hall.sameBooks.sameTotals.trans ⟨?_, ?_, ?_⟩).trans hbooks.sameTotals
    · exact congrArg PassCounters.collections hcounters
    · exact congrArg PassCounters.collected hcounters
    · exact congrArg PassCounters.lastCollected hcounters

/-- A teardown of an idle collector goes through: whether destructors return is the only thing it
depends on. -/
lemma tearsDown (hs : s.gc.Partitioned) (hc : s.gc.collector.collecting = false)
    (hsd : s.gc.isShutdown = false) :
    ∃ pending g, s.TearsDown pending g ∧ g.isShutdown = true := by
  obtain ⟨c, hbegin, hall⟩ := Gc.beginTeardown_allCondemned hs.collector hc hsd
  refine ⟨c.pendingDestructors, { s.gc with collector := c, isShutdown := true }, ?_, rfl⟩
  have hrun (env : Environment μ δ) : (deinit env).run s =
      (do destroyAll env c.pendingDestructors; onGc Gc.endTeardown).run
        ⟨env.beginRound [] s.client, { s.gc with collector := c, isShutdown := true }⟩ := by
    simp [deinit, hbegin, modifyClient]
  constructor
  case begins => exact hbegin
  case condemned => exact hall
  case mem_pending =>
    intro a d
    rw [Collector.mem_pendingDestructors, hall.mem_working, hall.sameObjects.destructor?_eq]
  case nodup_pending => exact c.nodup_pendingDestructors
  case run_deinit => exact hrun
  case returns =>
    intro env s₁ hdestroy hsteps
    -- the destructors have run on a collector that was shut down, so they have freed nothing
    obtain ⟨hfrozen, -⟩ := hsteps.frozen_of_nil rfl rfl
    have hpart : s₁.gc.collector.Partitioned :=
      (hsteps.partitioned ⟨hall.partitioned, fun _ h => absurd h (by simp)⟩).collector
    obtain ⟨c', hend, hfreed⟩ := endTeardown_freed hs hall hfrozen hpart
    refine ⟨{ s₁ with gc := { s₁.gc with collector := c' } }, ?_, rfl, hfreed⟩
    simp [hrun, hdestroy, hend]

/-- A teardown that returns has called the destructors of all that was tracked, each once and in the
order that was settled, as the client has recorded. -/
lemma TearsDown.records {env : Environment μ δ} {log : μ → List UInt64} {begun : μ → Prop}
    {pending : List (UInt64 × δ)} {g : Gc δ} {s' : Host μ δ} (h : s.TearsDown pending g)
    (hs : s.gc.Partitioned) (hb : s.gc.collector.heap.Bounded) (henv : env.Records log begun)
    (hr : (deinit env).run s = .ok () s') :
    log s'.client = (pending.map Prod.fst).reverse ++ log s.client ∧
      ∀ a, s'.gc.collector.isTracked a = false := by
  have hdestroying := destroying_of_beginTeardown henv hs hb h.begins
  obtain ⟨s₁, hdestroy⟩ := destroyAll_of_deinit h.begins hr
  obtain ⟨done, owed, hpending, hdestroyed, howed⟩ :=
    destroyed_destroyAll henv pending hdestroying
  obtain rfl := howed ⟨s₁, hdestroy⟩
  rw [List.append_nil] at hpending
  rw [after_of_ok hdestroy] at hdestroyed
  obtain ⟨s₂, hr₂, hclient, -, hnone, -⟩ := h.returns env s₁ hdestroy hdestroyed.steps
  cases hr.symm.trans hr₂
  refine ⟨?_, hnone⟩
  rw [hclient, hdestroyed.log_eq, henv.log_beginRound, hpending]

/-- Between passes and before shutdown, a teardown is total: it calls the destructors of all that is
tracked, in an order settled before the first one runs, and leaves nothing tracked. From its
beginning on nothing changes but by its sweep, and no call stops. -/
theorem teardown_total {fs : List (Frame δ)} (hs : Reachable ⟨s.gc, fs⟩)
    (hc : s.gc.collector.collecting = false) (hsd : s.gc.isShutdown = false) :
    ∃ pending g, s.TearsDown pending g ∧
      (∀ (env : Environment μ δ) log begun s', env.Records log begun →
        s.gc.collector.heap.Bounded → (deinit env).run s = .ok () s' →
        log s'.client = (pending.map Prod.fst).reverse ++ log s.client ∧
          ∀ a, s'.gc.collector.isTracked a = false) ∧
      ∀ m, Steps ⟨g, [⟨.teardown, pending⟩]⟩ m →
        (g.Frozen m.gc ∨ ∃ g₁, g.Frozen g₁ ∧ (after Gc.endTeardown g₁).Frozen m.gc) ∧
        ∀ s' : Host μ δ, s'.gc = m.gc → s'.Inert := by
  have hpart : s.gc.Partitioned := hs.partitioned
  obtain ⟨pending, g, htears, hdown⟩ := tearsDown hpart hc hsd
  refine ⟨pending, g, htears, fun env log begun s' henv hb hr => ?_, fun m hm => ?_⟩
  · exact htears.records hpart hb henv hr
  · have hfrozen := hm.frozen hdown (by simp) le_rfl
    refine ⟨hfrozen, fun s' hs' => inert_of_isShutdown ?_⟩
    rw [hs']
    rcases hfrozen with hfrozen | ⟨g₁, -, hfrozen⟩
    · exact hfrozen.isShutdown
    · exact hfrozen.isShutdown

/-- The destructors of the unused object and of the two that refer to one another are called once
each. What they ask of the collector is too late. -/
theorem teardown_total_cluttered :
    Reachable ⟨cluttered.gc, []⟩ ∧
      ∃ pending g, Gc.beginTeardown.run cluttered.gc = .ok (some pending) g ∧
        pending.map Prod.fst = [0x10000070, 0x100000f0, 0x100000b0] ∧
        Inert (⟨cluttered.client, g⟩ : World) ∧
        ∃ w, (deinit scripts).run cluttered = .ok () w ∧
          ∀ a, w.gc.collector.isTracked a = false := by
  obtain ⟨pending, g, htears, hreturns, hfrozen⟩ :=
    teardown_total reachable_cluttered (by decide +kernel) (by decide +kernel)
  have hhalt : halt (deinit scripts) cluttered = none := by decide +kernel
  obtain ⟨_, w, hr⟩ := halt_eq_none_iff.1 hhalt
  obtain ⟨hlog, hnone⟩ :=
    hreturns scripts destroyed _ w (records_runDestructor .main) bounded_cluttered hr
  have hdestroyed : destroyed w.client = [0x100000b0, 0x100000f0, 0x10000070] := by
    have hw : destroyed (after (deinit scripts) cluttered).client =
        [0x100000b0, 0x100000f0, 0x10000070] := by decide +kernel
    rwa [after_of_ok hr] at hw
  have hbefore : destroyed cluttered.client = [] := by decide +kernel
  rw [hbefore, List.append_nil, hdestroyed] at hlog
  refine ⟨reachable_cluttered, pending, g, htears.begins, ?_, ?_, w, hr, hnone⟩
  · rw [← List.reverse_reverse (pending.map Prod.fst), ← hlog]
    rfl
  · exact (hfrozen _ .refl).2 ⟨cluttered.client, g⟩ rfl

end Host

end HybridGC
