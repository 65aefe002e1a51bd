import HybridGC.Proofs.Teardown
import Mathlib.Algebra.GroupWithZero.Nat

/-!
# Conservation

No object is lost and none is freed twice: whatever has been created is in one table, or it has been
freed once, by a pass or a teardown. The counters of a collector are those of the passes that have
ended, so until a teardown begins they make up the difference between what has been created and what
is tracked.
-/

namespace HybridGC

namespace Machine

variable {δ : Type} {m m' : Machine δ} {e : Event δ} {es : History δ}

/-! ### Objects -/

/-- What has been created is tracked, or has been freed once. -/
structure Conserved (m : Machine δ) (es : History δ) : Prop where
  created_of_isTracked : ∀ a, m.gc.collector.isTracked a = true → ∃ d, .created a d ∈ es
  frees_eq : ∀ a d, .created a d ∈ es →
    es.frees a = if m.gc.collector.isTracked a = true then 0 else 1
  creations_eq : es.creations = m.gc.collector.tracked.card + es.freed

namespace Conserved

lemma start (config : Config) (scanner : Scanner) :
    Conserved (⟨Gc.start config scanner, []⟩ : Machine δ) [] where
  created_of_isTracked := by simp [Gc.not_isTracked_start]
  frees_eq := by simp
  creations_eq := by simp [History.creations, History.freed, Gc.tracked_start]

/-- What shows nothing, and events that neither create nor free. -/
lemma congr {es' : History δ} (h : m.Conserved es)
    (htracked : ∀ a, m'.gc.collector.isTracked a = true ↔ m.gc.collector.isTracked a = true)
    (hcreated : ∀ a d, .created a d ∈ es' ↔ .created a d ∈ es)
    (hfrees : ∀ a, es'.frees a = es.frees a) (hcreations : es'.creations = es.creations)
    (hfreed : es'.freed = es.freed) : m'.Conserved es' where
  created_of_isTracked a ha := by
    obtain ⟨d, hd⟩ := h.created_of_isTracked a ((htracked a).1 ha)
    exact ⟨d, (hcreated a d).2 hd⟩
  frees_eq a d hd := by
    rw [hfrees, h.frees_eq a d ((hcreated a d).1 hd)]
    simp only [htracked]
  creations_eq := by
    rw [hcreations, hfreed, Partitions.tracked_eq htracked]
    exact h.creations_eq

/-- A new object is tracked and has not been freed. Its address may have been in the history before,
but then it was freed. -/
lemma created {g : Gc δ} {fs : List (Frame δ)} {c : Collector δ} {size : Nat} {d : Option δ}
    {a : UInt64} (h : Conserved ⟨g, fs⟩ es) (hc : g.collector.Created c size d a) :
    Conserved ⟨{ g with collector := c }, fs⟩ (.created a d :: es) where
  created_of_isTracked b hb := by
    rcases (hc.isTracked_iff b).1 hb with rfl | hb
    · exact ⟨d, List.mem_cons_self⟩
    · obtain ⟨d', hd⟩ := h.created_of_isTracked b hb
      exact ⟨d', List.mem_cons_of_mem _ hd⟩
  frees_eq b d' hb := by
    rw [History.frees]
    -- the history of the new address is judged afresh, that of the others as before
    by_cases hab : a = b
    · have ht : c.isTracked b = true := (hc.isTracked_iff b).2 (.inl hab.symm)
      rw [if_pos hab, if_pos ht]
    · have hmem : Event.created b d' ∈ es := by
        rcases List.mem_cons.1 hb with heq | hmem
        · exact absurd (by injection heq with heq; exact heq.symm) hab
        · exact hmem
      rw [if_neg hab, h.frees_eq b d' hmem]
      simp only [hc.isTracked_iff, Ne.symm hab, false_or]
  creations_eq := by
    have hinsert := Partitions.tracked_eq_insert hc.isTracked_iff
    have ha : a ∉ g.collector.tracked := by
      rw [Partitions.mem_tracked, hc.not_isTracked]
      decide
    have hcreations := h.creations_eq
    rw [History.creations, History.freed, hinsert, Finset.card_insert_of_notMem ha]
    simp only at hcreations
    omega

/-- Sweeping frees what is being collected, which was tracked and is not any more. -/
lemma swept {g : Gc δ} {fs : List (Frame δ)} {c : Collector δ} {u : Undertaking}
    (h : Conserved ⟨g, ⟨u, []⟩ :: fs⟩ es) (hg : g.Partitioned) (hc : g.collector.Swept c) :
    Conserved ⟨{ g with collector := c }, fs⟩
      (.closed u g.collector.working.toFinset :: es) := by
  generalize hfreed : g.collector.working.toFinset = freed
  have htracked (a : UInt64) : c.isTracked a = true ↔
      g.collector.isTracked a = true ∧ a ∉ freed := by
    rw [hc.isTracked_iff hg.collector.disjoint, ← hfreed, Table.mem_toFinset]
  -- what is swept was tracked, so the sum of both sides is kept
  have hsub : freed ⊆ g.collector.tracked := by
    intro a ha
    rw [← hfreed, Table.mem_toFinset] at ha
    exact Partitions.mem_tracked.2 (Partitions.isTracked_iff.2 ⟨.working, ha⟩)
  constructor
  case created_of_isTracked =>
    intro a ha
    obtain ⟨d, hd⟩ := h.created_of_isTracked a ((htracked a).1 ha).1
    exact ⟨d, List.mem_cons_of_mem _ hd⟩
  case frees_eq =>
    intro a d ha
    have hfrees := h.frees_eq a d (by simpa using ha)
    rw [History.frees, hfrees]
    simp only [htracked]
    by_cases hmem : a ∈ freed
    · have := Partitions.mem_tracked.1 (hsub hmem)
      simp [hmem, this]
    · simp [hmem]
  case creations_eq =>
    have hcreations := h.creations_eq
    have hcard := Finset.card_sdiff_add_card_eq_card hsub
    rw [History.creations, History.freed, Partitions.tracked_eq_sdiff htracked]
    simp only at hcreations
    omega

lemma quietly (h : m.Conserved es) (hq : m.Quietly m') : m'.Conserved es :=
  h.congr hq.quiet.isTracked_iff (fun _ _ => Iff.rfl) (fun _ => rfl) rfl rfl

/-- Only creating and closing change the balance; the other events leave both sides as they are. -/
lemma shows (h : m.Conserved es) (hs : m.Shows e m') (hm : m.gc.Partitioned) :
    m'.Conserved (e :: es) := by
  cases hs.effect hm with
  | created fs _ hc => exact h.created hc
  | opened fs u hdooms => exact h.congr hdooms.isTracked_iff (by simp) (fun _ => rfl) rfl rfl
  | called g fs u x rest => exact h.congr (fun _ => Iff.rfl) (by simp) (fun _ => rfl) rfl rfl
  | closed fs u hc => exact h.swept hm hc
  | abandoned g f fs => exact h.congr (fun _ => Iff.rfl) (by simp) (fun _ => rfl) rfl rfl

end Conserved

/-! ### Passes -/

/-- The counters are those of the passes that have ended. -/
structure Counted (m : Machine δ) (es : History δ) : Prop where
  collections_eq : m.gc.collector.collections = es.passes.length
  collected_eq : m.gc.collector.collected = es.passes.sum
  lastCollected_eq : m.gc.collector.lastCollected = es.passes.headD 0

namespace Counted

lemma start (config : Config) (scanner : Scanner) :
    Counted (⟨Gc.start config scanner, []⟩ : Machine δ) [] where
  collections_eq := rfl
  collected_eq := rfl
  lastCollected_eq := rfl

/-- What ends no pass leaves the counters and the list of passes alone. -/
lemma congr {es' : History δ} (h : m.Counted es)
    (htotals : m.gc.collector.SameTotals m'.gc.collector) (hes : es'.passes = es.passes) :
    m'.Counted es' where
  collections_eq := by rw [htotals.collections_eq, hes, h.collections_eq]
  collected_eq := by rw [htotals.collected_eq, hes, h.collected_eq]
  lastCollected_eq := by rw [htotals.lastCollected_eq, hes, h.lastCollected_eq]

/-- The counters move when a pass is closed, and a teardown that is closed leaves them. -/
lemma shows (h : m.Counted es) (hs : m.Shows e m') (hm : m.gc.Partitioned) :
    m'.Counted (e :: es) := by
  cases hs.effect hm with
  | created fs _ hc => exact h.congr hc.sameBooks.sameTotals rfl
  | opened fs u hdooms => exact h.congr hdooms.sameTotals rfl
  | called g fs u x rest => exact h.congr ⟨rfl, rfl, rfl⟩ rfl
  | @closed g fs u c hc hpass hteardown =>
    cases u with
    | teardown => exact h.congr (hteardown rfl) rfl
    | pass =>
      have hfinished := hpass rfl
      have hcard := g.collector.working.card_toFinset
      constructor
      case collections_eq => rw [hfinished.collections_eq, h.collections_eq]; rfl
      case collected_eq =>
        rw [hfinished.collected_eq, h.collected_eq, History.passes, hcard, List.sum_cons,
          Nat.add_comm]
      case lastCollected_eq => exact hfinished.lastCollected_eq.trans hcard.symm
  | abandoned g f fs => exact h.congr ⟨rfl, rfl, rfl⟩ rfl

end Counted

/-! ### Teardowns -/

/-- Until a teardown begins, passes alone have freed. After it has begun, the collector is shut
down. -/
structure Untorn (m : Machine δ) (es : History δ) : Prop where
  isShutdown : ∀ doomed, .opened .teardown doomed ∈ es → m.gc.isShutdown = true
  of_frame : ∀ f ∈ m.frames, f.undertaking = .teardown → ∃ doomed, .opened .teardown doomed ∈ es
  freed_eq : (∀ doomed, .opened .teardown doomed ∉ es) → es.freed = es.passes.sum

namespace Untorn

lemma start (config : Config) (scanner : Scanner) :
    Untorn (⟨Gc.start config scanner, []⟩ : Machine δ) [] where
  isShutdown _ h := absurd h List.not_mem_nil
  of_frame _ h := absurd h List.not_mem_nil
  freed_eq _ := rfl

/-- What shows nothing frees nothing, and a shutdown without a teardown is allowed for. -/
lemma quietly (h : m.Untorn es) (hq : m.Quietly m') : m'.Untorn es where
  isShutdown doomed hd := hq.quiet.isShutdown (h.isShutdown doomed hd)
  of_frame := hq.frames_eq ▸ h.of_frame
  freed_eq := h.freed_eq

/-- A frame for a teardown stands for one that has begun, so a sweep without one is that of a pass.
-/
lemma shows (h : m.Untorn es) (hs : m.Shows e m') (hm : m.gc.Partitioned) :
    m'.Untorn (e :: es) := by
  have heffect := hs.effect hm
  constructor
  case isShutdown =>
    intro doomed hd
    rcases List.mem_cons.1 hd with rfl | hd
    · cases heffect with
      | opened fs u hdooms hdown => exact hdown rfl
    · exact heffect.isShutdown (h.isShutdown doomed hd)
  -- of a frame that is there after the event, the teardown began before or with it
  case of_frame =>
    intro f hf hu
    have hold (hf : f ∈ m.frames) : ∃ doomed, .opened .teardown doomed ∈ e :: es := by
      obtain ⟨doomed, hd⟩ := h.of_frame f hf hu
      exact ⟨doomed, List.mem_cons_of_mem e hd⟩
    cases heffect with
    | created => exact hold hf
    | opened fs u =>
      rcases List.mem_cons.1 hf with rfl | hf
      · obtain rfl : u = .teardown := hu
        exact ⟨_, List.mem_cons_self⟩
      · exact hold hf
    | called g fs u x rest =>
      obtain ⟨doomed, hd⟩ : ∃ doomed, .opened .teardown doomed ∈ es := by
        rcases List.mem_cons.1 hf with rfl | hf
        · exact h.of_frame ⟨u, x :: rest⟩ List.mem_cons_self hu
        · exact h.of_frame f (List.mem_cons_of_mem _ hf) hu
      exact ⟨doomed, List.mem_cons_of_mem _ hd⟩
    | closed | abandoned => exact hold (List.mem_cons_of_mem _ hf)
  case freed_eq =>
    intro hnone
    have hpasses := h.freed_eq fun doomed hd => hnone doomed (List.mem_cons_of_mem e hd)
    cases heffect with
    | created | opened | called | abandoned => exact hpasses
    | closed fs u =>
      cases u with
      | pass => simp [History.freed, History.passes, hpasses]
      | teardown =>
        obtain ⟨doomed, hd⟩ := h.of_frame ⟨.teardown, []⟩ List.mem_cons_self rfl
        exact absurd (List.mem_cons_of_mem _ hd) (hnone doomed)

end Untorn

/-! ### Books -/

/-- The history of a machine agrees with its tables and its counters. -/
structure Books (m : Machine δ) (es : History δ) : Prop where
  conserved : m.Conserved es
  counted : m.Counted es
  untorn : m.Untorn es

lemma HasHistory.books (h : m.HasHistory es) : m.Books es := by
  refine h.induction ?start ?quietly ?shows
  case start => exact fun config scanner => ⟨.start .., .start .., .start ..⟩
  case quietly =>
    intro m m' es _ h hq
    exact ⟨h.conserved.quietly hq, h.counted.congr hq.quiet.sameTotals rfl, h.untorn.quietly hq⟩
  case shows =>
    intro m m' e es hm h hs
    exact ⟨h.conserved.shows hs hm.partitioned, h.counted.shows hs hm.partitioned,
      h.untorn.shows hs hm.partitioned⟩

/-- Between the objects that have been created and those that are tracked are those that passes have
freed, as long as no teardown has begun. -/
lemma Books.creations_eq (h : m.Books es) (hm : m.gc.Partitioned)
    (hnone : ∀ doomed, .opened .teardown doomed ∉ es) :
    es.creations = m.gc.collector.trackedCount + m.gc.collector.collected := by
  rw [h.conserved.creations_eq, card_tracked hm.collector.disjoint, h.untorn.freed_eq hnone,
    h.counted.collected_eq]

/-- What has been created is in one table, or it has been freed once. -/
lemma Conserved.of_created (h : m.Conserved es) (hm : m.gc.Partitioned) {a : UInt64} {d : Option δ}
    (ha : .created a d ∈ es) :
    (∃! p, a ∈ m.gc.collector.table p) ∧ es.frees a = 0 ∨
      (∀ p, a ∉ m.gc.collector.table p) ∧ es.frees a = 1 := by
  have hfrees := h.frees_eq a d ha
  split_ifs at hfrees with ht
  · obtain ⟨p, hp⟩ := Partitions.isTracked_iff.1 ht
    exact .inl ⟨⟨p, hp, fun q hq => hm.collector.disjoint hq hp⟩, hfrees⟩
  · exact .inr ⟨fun p hp => ht (Partitions.isTracked_iff.2 ⟨p, hp⟩), hfrees⟩

/-- A fresh object is in no table. -/
lemma Effect.not_mem {a : UInt64} {d : Option δ} (h : m.Effect (.created a d) m')
    (p : Partition) : a ∉ m.gc.collector.table p := by
  cases h with
  | created fs _ hc => exact hc.not_mem p

/-- After shutdown nothing is created, and nothing opens. -/
lemma Run.eq_nil (h : Run m es m') (hm : m.gc.Partitioned) (hs : m.gc.isShutdown = true)
    (hf : m.frames = []) : es = [] := by
  induction h with
  | refl => rfl
  | quiet _ _ ih => exact ih
  | event hrun hshows =>
    obtain ⟨hfrozen, hnil⟩ := hrun.steps.frozen_of_nil hs hf
    cases hshows.effect (hrun.steps.partitioned hm) with
    | created fs hdown => exact absurd (hdown.symm.trans hfrozen.isShutdown) (by decide)
    | opened fs u hdooms =>
      exact absurd (hdooms.idle.2.symm.trans hfrozen.isShutdown) (by decide)
    | called | closed | abandoned => simp at hnil

end Machine

namespace Host

open Machine World

variable {μ δ : Type} {s : Host μ δ} {es : History δ}

/-- A teardown whose destructors return leaves nothing, and reports all that no pass has freed. -/
lemma TearsDown.balances {pending : List (UInt64 × δ)} {g : Gc δ} (h : s.TearsDown pending g)
    (hs : s.gc.Partitioned) (hcreations : es.creations =
      s.gc.collector.trackedCount + s.gc.collector.collected)
    (hdown : g.isShutdown = true) {env : Environment μ δ} {s₁ : Host μ δ} {es' : History δ}
    (hdestroy : (destroyAll env pending).run ⟨env.beginRound [] s.client, g⟩ = .ok () s₁)
    (hrun : Run ⟨g, []⟩ es' ⟨s₁.gc, []⟩) :
    ∃ s₂ n, (deinit env).run s = .ok () s₂ ∧ s₂.gc.collector.trackedCount = 0 ∧
      s₂.gc.collector.journal.head? = some (.tornDown n) ∧
      n + s₂.gc.collector.collected = History.creations (es' ++ es) ∧
      s.gc.collector.SameTotals s₂.gc.collector := by
  have hg := hs.after_beginTeardown
  rw [after, h.begins] at hg
  obtain rfl := hrun.eq_nil hg hdown rfl
  obtain ⟨s₂, hr, -, -, hnone, hnoted, htotals⟩ := h.returns env s₁ hdestroy hrun.steps
  refine ⟨s₂, _, hr, ?_, hnoted, ?_, htotals⟩
  · have hdisjoint : s₂.gc.collector.Disjoint := by
      intro p q a ha
      have := Partitions.isTracked_iff.2 ⟨p, ha⟩
      rw [hnone] at this
      cases this
    exact (trackedCount_eq_zero_iff hdisjoint).2 hnone
  · rw [htotals.collected_eq, List.nil_append, hcreations]

/-- No object is lost and none is freed twice, whatever happens in a run, and the counters are those
of the passes that have ended. Before a teardown begins, they make up the difference between what
has been created and what is tracked. After a teardown whose destructors return nothing is tracked,
it has reported all that no pass had freed, and the counters are as they were. -/
theorem objects_conserved {fs : List (Frame δ)} (h : HasHistory ⟨s.gc, fs⟩ es) :
    (fs.length ≤ 1 ∧
      s.gc.collector.collections = es.passes.length ∧
      s.gc.collector.collected = es.passes.sum ∧
      s.gc.collector.lastCollected = es.passes.headD 0) ∧
    ((∀ a d, .created a d ∈ es →
        (∃! p, a ∈ s.gc.collector.table p) ∧ es.frees a = 0 ∨
          (∀ p, a ∉ s.gc.collector.table p) ∧ es.frees a = 1) ∧
      ∀ a d m, Shows ⟨s.gc, fs⟩ (.created a d) m → ∀ p, a ∉ s.gc.collector.table p) ∧
    ((∀ doomed, .opened .teardown doomed ∉ es) →
      es.creations = s.gc.collector.trackedCount + s.gc.collector.collected) ∧
    (s.gc.collector.collecting = false → s.gc.isShutdown = false →
      ∃ pending g, Gc.beginTeardown.run s.gc = .ok (some pending) g ∧
        ∀ (env : Environment μ δ) s₁ es',
          (destroyAll env pending).run ⟨env.beginRound [] s.client, g⟩ = .ok () s₁ →
          Run ⟨g, []⟩ es' ⟨s₁.gc, []⟩ →
          ∃ s₂ n, (deinit env).run s = .ok () s₂ ∧ s₂.gc.collector.trackedCount = 0 ∧
            s₂.gc.collector.journal.head? = some (.tornDown n) ∧
            n + s₂.gc.collector.collected = History.creations (es' ++ es) ∧
            s.gc.collector.SameTotals s₂.gc.collector) := by
  have hm : s.gc.Partitioned := h.solo.partitioned
  obtain ⟨hconserved, hcounted, huntorn⟩ := h.books
  refine ⟨⟨h.solo.length_frames, hcounted.collections_eq, hcounted.collected_eq,
    hcounted.lastCollected_eq⟩, ⟨fun a d => hconserved.of_created hm, fun a d m => ?_⟩,
    h.books.creations_eq hm, fun hc hsd => ?_⟩
  · exact fun hs => (hs.effect hm).not_mem
  · obtain ⟨pending, g, htears, hdown⟩ := tearsDown hm hc hsd
    refine ⟨pending, g, htears.begins, fun env s₁ es' hdestroy hrun => ?_⟩
    -- a teardown that has begun would have shut the collector down
    have hnone (doomed : Finset UInt64) : .opened .teardown doomed ∉ es := by
      intro hd
      exact absurd (hsd.symm.trans (huntorn.isShutdown doomed hd)) (by decide)
    exact htears.balances hm (h.books.creations_eq hm hnone) hdown hdestroy hrun

lemma hasHistory_tidied :
    ∃ es, HasHistory ⟨tidied.gc, []⟩ es ∧ tidied.gc.collector.heap.Bounded := by
  rw [tidied]
  obtain ⟨es, h, hb, -⟩ := hasHistory_run tidying {} .explicit
  exact ⟨es, h, hb⟩

/-- Six objects were made, and the destructors of the collection that freed three of them made three
more. The teardown reports the six that are left. -/
theorem objects_conserved_tidied :
    ∃ es, HasHistory ⟨tidied.gc, []⟩ es ∧ es.passes.length = 1 ∧ es.passes.sum = 3 ∧
      es.creations = 9 ∧ ∃ w, (deinit scripts).run tidied = .ok () w ∧
        w.gc.collector.trackedCount = 0 ∧
        w.gc.collector.journal.head? = some (.tornDown 6) := by
  obtain ⟨es, h, hb⟩ := hasHistory_tidied
  obtain ⟨⟨-, hpasses, hcollected, -⟩, -, hcreations, hteardown⟩ := objects_conserved h
  have hup : tidied.gc.isShutdown = false := by decide +kernel
  have hnone (doomed : Finset UInt64) : .opened .teardown doomed ∉ es := by
    intro hd
    exact absurd (hup.symm.trans (h.books.untorn.isShutdown doomed hd)) (by decide)
  have hnine : es.creations = 9 := (hcreations hnone).trans (by decide +kernel)
  obtain ⟨pending, g, hbegin, hreturns⟩ := hteardown (by decide +kernel) hup
  have hhalt : halt (deinit scripts) tidied = none := by decide +kernel
  obtain ⟨⟨⟩, w, hr⟩ := halt_eq_none_iff.1 hhalt
  obtain ⟨s₁, hdestroy⟩ := destroyAll_of_deinit hbegin hr
  have hdestroying :=
    destroying_of_beginTeardown (records_runDestructor .main) h.solo.partitioned hb hbegin
  obtain ⟨-, hdown⟩ := Gc.dooms_of_beginTeardown h.solo.partitioned hbegin
  obtain ⟨es', hrun⟩ := (hdestroying.steps (records_runDestructor .main) hdestroy).run
    hdestroying.partitioned
  obtain ⟨w', n, hr', hnothing, hnoted, hsum, htotals⟩ := hreturns scripts s₁ es' hdestroy hrun
  cases hr.symm.trans hr'
  refine ⟨es, h, ?_, ?_, hnine, w, hr, hnothing, ?_⟩
  · exact hpasses.symm.trans (by decide +kernel)
  · exact hcollected.symm.trans (by decide +kernel)
  · have hthree : tidied.gc.collector.collected = 3 := by decide +kernel
    -- a teardown's destructors create nothing more
    obtain rfl := hrun.eq_nil hdestroying.partitioned hdown rfl
    rw [htotals.collected_eq, hthree, List.nil_append, hnine] at hsum
    obtain rfl : n = 6 := by omega
    exact hnoted

end Host

end HybridGC
