import HybridGC.Proofs.Host

/-!
# Where growth is measured from

A pass that looks for cycles notes how many multi-ref objects are left once it has condemned what it
found, and growth is counted from there. Its destructors run after that. What they promote and
demote is in the size that the table has when the pass finishes, but not in the size that was noted.
-/

namespace HybridGC

namespace Machine

variable {δ : Type} {m m' : Machine δ} {g g' : Gc δ} {fs : List (Frame δ)}

/-! ### The passes that look for cycles -/

/-- The sizes the multi-ref table had in the passes that looked for cycles. -/
structure Tracing where
  /-- When the latest of them had condemned what it found. -/
  condemned : Nat := 0
  /-- When the latest of them that finished had finished. -/
  finished : Nat := 0
  /-- Whether one of them is open. -/
  isOpen : Bool := false

namespace Tracing

/-- A pass has been opened, and left this many multi-ref objects. -/
def opened (t : Tracing) (tracing : Bool) (size : Nat) : Tracing :=
  if tracing then { t with condemned := size, isOpen := true } else { t with isOpen := false }

/-- The open pass has finished with this many multi-ref objects. -/
def closed (t : Tracing) (size : Nat) : Tracing :=
  if t.isOpen then { t with finished := size, isOpen := false } else t

/-- What a pass has condemned is noted before its destructors run, and its end does not change it.
-/
@[simp] lemma condemned_closed (t : Tracing) (size : Nat) :
    (t.closed size).condemned = t.condemned := by
  rw [closed]
  split <;> rfl

end Tracing

/-- What has come about from a new collector, with the passes that looked for cycles on the way. -/
inductive HasTracing : Machine δ → Tracing → Prop
  | start (config : Config) (scanner : Scanner) : HasTracing ⟨Gc.start config scanner, []⟩ {}
  | opened {g g' : Gc δ} {fs : List (Frame δ)} {t : Tracing} {fresh : Option UInt64}
      {scan : Option (List UInt64)} {pass : Pass δ} (h : HasTracing ⟨g, fs⟩ t)
      (hr : (Gc.openPass fresh scan).run g = .ok (some pass) g') :
      HasTracing ⟨g', ⟨.pass, pass.pending⟩ :: fs⟩
        (t.opened (g.tracesCycles fresh.isSome) g'.collector.multiRef.size)
  | closed {g : Gc δ} {fs : List (Frame δ)} {t : Tracing}
      (h : HasTracing ⟨g, ⟨.pass, []⟩ :: fs⟩ t) :
      HasTracing ⟨after Gc.closePass g, fs⟩
        (t.closed (after Gc.closePass g).collector.multiRef.size)
  | step {m m' : Machine δ} {t : Tracing} (h : HasTracing m t) (hs : Step m m')
      (hc : m'.gc.collector.collecting = m.gc.collector.collecting) : HasTracing m' t

/-! ### What is noted of the multi-ref table -/

/-- What opening a pass does, read off its run. -/
lemma opened_of_openPass {fresh : Option UInt64} {scan : Option (List UInt64)} {pass : Pass δ}
    (hg : g.Partitioned) (hr : (Gc.openPass fresh scan).run g = .ok (some pass) g') :
    g'.collector.collecting = true ∧
      g'.collector.cycleBaseline =
        if g.tracesCycles fresh.isSome then g'.collector.multiRef.size
        else g.collector.cycleBaseline := by
  obtain ⟨hc, hs⟩ := (Gc.dooms_of_openPass hg hr).idle
  cases scan with
  | none =>
    rw [Gc.openPass_of_no_scan hs] at hr
    simp at hr
  | some roots =>
    obtain ⟨c, condemned, hr', -, hopen, hnoted⟩ := Gc.openPass_opened_cycleBaseline
      hg.collector.labelled (hg.idle hc hs) hc hs fresh roots
    cases hr'.symm.trans hr
    exact ⟨hopen.collecting_eq, hnoted⟩

/-- A collection that opens no pass notes nothing, whichever reason it has for opening none. -/
lemma cycleBaseline_of_no_pass {fresh : Option UInt64} {scan : Option (List UInt64)}
    (hg : g.Partitioned) (hr : (Gc.openPass fresh scan).run g = .ok none g') :
    g'.collector.cycleBaseline = g.collector.cycleBaseline := by
  by_cases hs : g.isShutdown = true
  · cases (Gc.openPass_of_isShutdown hs fresh scan).symm.trans hr
    rfl
  rw [Bool.not_eq_true] at hs
  cases scan with
  | none =>
    cases (Gc.openPass_of_no_scan hs fresh).symm.trans hr
    rfl
  | some roots =>
    by_cases hc : g.collector.collecting = true
    · cases (Gc.openPass_of_collecting hc hs fresh roots).symm.trans hr
      rfl
    · rw [Bool.not_eq_true] at hc
      obtain ⟨c, condemned, hr', -⟩ :=
        Gc.openPass_opened hg.collector.labelled (hg.idle hc hs) hc hs fresh roots
      cases hr'.symm.trans hr

/-- The sweep notes nothing: what was noted stays what it was before the destructors ran. -/
lemma cycleBaseline_closePass (g : Gc δ) :
    (after Gc.closePass g).collector.cycleBaseline = g.collector.cycleBaseline :=
  g.collector.sameBooks_sweep.cycleBaseline_eq

/-- A step opens a pass, closes one, or leaves alone whether a pass is open and what was noted. -/
lemma Step.noted_cases (h : Step m m') (hm : m.gc.Partitioned) :
    (∃ g g' fs fresh scan pass, m = ⟨g, fs⟩ ∧ m' = ⟨g', ⟨.pass, pass.pending⟩ :: fs⟩ ∧
      (Gc.openPass fresh scan).run g = .ok (some pass) g') ∨
    (∃ g fs, m = ⟨g, ⟨.pass, []⟩ :: fs⟩ ∧ m' = ⟨after Gc.closePass g, fs⟩) ∨
    m'.gc.collector.collecting = m.gc.collector.collecting ∧
      m'.gc.collector.cycleBaseline = m.gc.collector.cycleBaseline := by
  have hbooks {c c' : Collector δ} (h : c.SameBooks c') :
      c'.collecting = c.collecting ∧ c'.cycleBaseline = c.cycleBaseline :=
    ⟨h.collecting_eq, h.cycleBaseline_eq⟩
  -- only opening a pass and closing one change whether a pass is open; every other operation keeps
  -- the collector's books, or writes the journal and the heap alone
  cases h with
  | addref g fs a =>
    rcases Gc.after_addref hm.collector a with h | ⟨c, n, p, q, -, hc, h⟩
    · simp [h]
    · simp [h, hbooks hc.sameBooks]
  | delref g fs a =>
    rcases Gc.after_delref hm.collector a with h | ⟨c, n, p, q, -, hc, h⟩
    · simp [h]
    · simp [h, hbooks hc.sameBooks]
  | create g fs hsound size d =>
    rcases Gc.after_create hm.collector hsound size d with ⟨journal, h⟩ | ⟨c, a, hc, h⟩
    · simp [h]
    · simp [h, hbooks hc.sameBooks]
  | note | setThreshold | store | destroy | unwind => exact .inr (.inr ⟨rfl, rfl⟩)
  | openPass m fresh scan =>
    obtain ⟨g, fs⟩ := m
    rcases Gc.openPass_cases hm fresh scan with ⟨g', hr, hquiet⟩ | ⟨pass, g', hr, -⟩
    · rw [perform, hr]
      exact .inr (.inr ⟨hquiet.collecting_eq, cycleBaseline_of_no_pass hm hr⟩)
    · rw [perform, hr]
      exact .inl ⟨g, g', fs, fresh, scan, pass, rfl, rfl, hr⟩
  | beginTeardown m =>
    by_cases hs : m.gc.isShutdown = true
    · simp [perform, Gc.beginTeardown_of_isShutdown hs]
    rw [Bool.not_eq_true] at hs
    by_cases hc : m.gc.collector.collecting = true
    · simp [perform, Gc.beginTeardown_of_collecting hc hs]
    rw [Bool.not_eq_true] at hc
    obtain ⟨c, hr, hall⟩ := Gc.beginTeardown_allCondemned hm.collector hc hs
    simp [perform, hr, hbooks hall.sameBooks]
  | closePass g fs => exact .inr (.inl ⟨g, fs, rfl, rfl⟩)
  | endTeardown g fs =>
    obtain ⟨c, hr, -, hc, -⟩ := Gc.endTeardown_swept g
    simp [after, hr, hbooks hc]

/-! ### Growth -/

/-- Whatever can come about has come about with some passes that looked for cycles. -/
lemma Reachable.exists_hasTracing (h : m.Reachable) : ∃ t, m.HasTracing t := by
  obtain ⟨config, scanner, hsteps⟩ := h
  induction hsteps with
  | refl => exact ⟨{}, .start config scanner⟩
  | tail hsteps hstep ih =>
    obtain ⟨t, ht⟩ := ih
    have hpart := Steps.partitioned hsteps (Gc.partitioned_start config scanner)
    rcases hstep.noted_cases hpart with
      ⟨g, g', fs, fresh, scan, pass, rfl, rfl, hr⟩ | ⟨g, fs, rfl, rfl⟩ | ⟨hc, -⟩
    · exact ⟨_, ht.opened hr⟩
    · exact ⟨_, ht.closed⟩
    · exact ⟨t, ht.step hstep hc⟩

lemma HasTracing.reachable {t : Tracing} (h : m.HasTracing t) : m.Reachable := by
  induction h with
  | start config scanner => exact ⟨config, scanner, .refl⟩
  | @opened g g' fs t fresh scan pass _ hr ih =>
    obtain ⟨config, scanner, hsteps⟩ := ih
    have hstep := Step.openPass ⟨g, fs⟩ fresh scan
    rw [perform, hr] at hstep
    exact ⟨config, scanner, hsteps.tail hstep⟩
  | @closed g fs t _ ih =>
    obtain ⟨config, scanner, hsteps⟩ := ih
    exact ⟨config, scanner, hsteps.tail (.closePass g fs)⟩
  | step _ hs _ ih =>
    obtain ⟨config, scanner, hsteps⟩ := ih
    exact ⟨config, scanner, hsteps.tail hs⟩

lemma HasTracing.partitioned {t : Tracing} (h : m.HasTracing t) : m.gc.Partitioned :=
  h.reachable.partitioned

/-- What is noted is the size from which the latest pass that looked for cycles let its destructors
run. -/
lemma HasTracing.cycleBaseline_eq {t : Tracing} (h : m.HasTracing t) :
    m.gc.collector.cycleBaseline = t.condemned := by
  induction h with
  | start => rfl
  | opened h hr ih =>
    rw [(opened_of_openPass h.partitioned hr).2, Tracing.opened]
    split
    · rfl
    · exact ih
  | closed _ ih => rw [cycleBaseline_closePass, Tracing.condemned_closed, ih]
  | step h hs hc ih =>
    rcases hs.noted_cases h.partitioned with
      ⟨g, g', fs, fresh, scan, pass, rfl, rfl, hr⟩ | ⟨g, fs, rfl, rfl⟩ | ⟨-, hnoted⟩
    · -- opening a pass changes whether one is open
      have hclosed := (Gc.dooms_of_openPass h.partitioned hr).idle.1
      have hopen := (opened_of_openPass h.partitioned hr).1
      exact absurd (hclosed.symm.trans (hc.symm.trans hopen)) (by decide)
    · rw [cycleBaseline_closePass, ih]
    · rw [hnoted, ih]

/-- Growth is measured from the size at which the latest pass that looked for cycles let its
destructors run, and so is the growth that lets an automatic pass look for cycles. Measured from the
size at which such a pass has finished it would be the same exactly if the two sizes are the same or
nothing has grown by either. -/
theorem growth_since_condemned (hm : m.Reachable) :
    (∃ t, m.HasTracing t) ∧ ∀ t, m.HasTracing t →
      m.gc.collector.multiRefGrowth = m.gc.collector.multiRef.size - t.condemned ∧
      (m.gc.tracesCycles true = true ↔ m.gc.config.cycleCollection = true ∧
        0 < m.gc.config.cycleThreshold ∧
        t.condemned + m.gc.config.cycleThreshold ≤ m.gc.collector.multiRef.size) ∧
      (m.gc.collector.multiRefGrowth = m.gc.collector.multiRef.size - t.finished ↔
        t.condemned = t.finished ∨
          m.gc.collector.multiRef.size ≤ t.condemned ∧
            m.gc.collector.multiRef.size ≤ t.finished) := by
  refine ⟨hm.exists_hasTracing, fun t ht => ?_⟩
  have hgrowth : m.gc.collector.multiRefGrowth = m.gc.collector.multiRef.size - t.condemned := by
    rw [Collector.multiRefGrowth, ht.cycleBaseline_eq]
  refine ⟨hgrowth, ?_, ?_⟩
  · simp only [Gc.tracesCycles, hgrowth, Bool.and_eq_true, Bool.not_true, Bool.false_or,
      decide_eq_true_eq]
    refine and_congr_right fun _ => and_congr_right fun _ => ?_
    omega
  · omega

/-- Two objects, one with a destructor and no reference to it, and one that is referred to once. -/
def ownerAndChild : Gc Unit :=
  after (Gc.addref 0x10000070) (after (Gc.create Heap.allocate 8 none)
    (after (Gc.create Heap.allocate 8 (some ())) (Gc.start { cycleThreshold := 1 } .noRoots)))

/-- A pass has been opened on them that reports no roots. -/
def ownerDoomed : Gc Unit :=
  after (Gc.openPass none (some [])) ownerAndChild

/-- The destructor of the one has dropped the other, and after the pass this one is referred to
again. -/
def childTakenAgain : Machine Unit :=
  ⟨after (Gc.addref 0x10000070) (after Gc.closePass (after (Gc.delref 0x10000070)
    (after (Gc.note (.destroying 0x10000030)) ownerDoomed))), []⟩

/-- A call that opens and closes no pass is a step on the way, and leaves the heap bounded for the
next call. -/
lemma HasTracing.leads {t : Tracing} {stop : Option Fault} (h : HasTracing ⟨g, fs⟩ t)
    (hb : g.collector.heap.Bounded) (hl : g.Leads stop g')
    (hc : g'.collector.collecting = g.collector.collecting) :
    HasTracing ⟨g', fs⟩ t ∧ g'.collector.heap.Bounded := by
  obtain ⟨hstep, hb', -⟩ := hl h.partitioned hb
  exact ⟨h.step (hstep.append fs) hc, hb'⟩

lemma hasTracing_ownerAndChild : HasTracing ⟨ownerAndChild, []⟩ {} := by
  have h₀ := HasTracing.start (δ := Unit) { cycleThreshold := 1 } .noRoots
  obtain ⟨h₁, hb₁⟩ := h₀.leads Heap.bounded_empty (.create _ 8 (some ())) (by decide +kernel)
  obtain ⟨h₂, hb₂⟩ := h₁.leads hb₁ (.create _ 8 none) (by decide +kernel)
  exact (h₂.leads hb₂ (.addref _ 0x10000070) (by decide +kernel)).1

/-- The pass looks for cycles, and it leaves the one multi-ref object that the other refers to. -/
lemma hasTracing_ownerDoomed :
    HasTracing ⟨ownerDoomed, [⟨.pass, [(0x10000030, ())]⟩]⟩ ⟨1, 0, true⟩ := by
  have h := hasTracing_ownerAndChild
  have hidle : ∀ a, a ∉ ownerAndChild.collector.working :=
    h.partitioned.idle (by decide +kernel) (by decide +kernel)
  obtain ⟨c, condemned, hr, -⟩ := Gc.openPass_opened h.partitioned.collector.labelled hidle
    (by decide +kernel) (by decide +kernel) none []
  have hdoomed : ownerDoomed = { ownerAndChild with collector := c } := by
    rw [ownerDoomed, after, hr]
  have howed : ownerDoomed.collector.pendingDestructors = [(0x10000030, ())] := by decide +kernel
  have hsize : ownerDoomed.collector.multiRef.size = 1 := by decide +kernel
  have htraces : ownerAndChild.tracesCycles false = true := by decide +kernel
  rw [← hdoomed] at hr
  rw [hdoomed] at howed
  have hopened := h.opened hr
  simpa [howed, hsize, htraces, Tracing.opened] using hopened

/-- The pass finishes with no multi-ref object, and the object that is referred to again makes one.
-/
lemma hasTracing_childTakenAgain : HasTracing childTakenAgain ⟨1, 0, false⟩ := by
  have h₁ := hasTracing_ownerDoomed.step (.destroy _ [] .pass (0x10000030, ()) []) rfl
  have h₂ := h₁.step (.delref _ _ 0x10000070) (by decide +kernel)
  have h₃ := h₂.closed
  have hsize : (after Gc.closePass (after (Gc.delref 0x10000070)
      (after (Gc.note (.destroying 0x10000030)) ownerDoomed))).collector.multiRef.size = 0 := by
    decide +kernel
  rw [hsize] at h₃
  exact h₃.step (.addref _ [] 0x10000070) (by decide +kernel)

/-- One reference more has been taken than when the pass finished, and it is not counted. -/
theorem growth_since_condemned_childTakenAgain :
    childTakenAgain.Reachable ∧ childTakenAgain.HasTracing ⟨1, 0, false⟩ ∧
      childTakenAgain.gc.collector.multiRefGrowth = 0 ∧
      childTakenAgain.gc.tracesCycles true = false := by
  have h := hasTracing_childTakenAgain
  have hthreshold : childTakenAgain.gc.config.cycleThreshold = 1 := by decide +kernel
  have hsize : childTakenAgain.gc.collector.multiRef.size = 1 := by decide +kernel
  obtain ⟨hgrowth, htraces, -⟩ := (growth_since_condemned h.reachable).2 _ h
  rw [hsize] at hgrowth htraces
  refine ⟨h.reachable, h, hgrowth, ?_⟩
  simp [← Bool.not_eq_true, htraces, hthreshold]

/-- Measured from the size at which the latest pass that looked for cycles finished, the growth
would be another one. Here no pass is open, that growth has reached the threshold, and still an
automatic pass would not look for cycles. -/
theorem growth_since_finished_fails :
    ∃ m : Machine Unit, ∃ t, m.HasTracing t ∧ m.gc.collector.collecting = false ∧
      m.gc.isShutdown = false ∧
      m.gc.collector.multiRefGrowth ≠ m.gc.collector.multiRef.size - t.finished ∧
      m.gc.tracesCycles true = false ∧ m.gc.config.cycleCollection = true ∧
      0 < m.gc.config.cycleThreshold ∧
      m.gc.config.cycleThreshold ≤ m.gc.collector.multiRef.size - t.finished :=
  ⟨childTakenAgain, _, hasTracing_childTakenAgain, by decide +kernel⟩

end Machine

end HybridGC
