import HybridGC.Proofs.Machine
import Mathlib.Data.Finset.Card

/-!
# What a run shows

A history records what happens to objects in a run: they are created, passes and teardowns doom
them, their destructors are called, and closing a pass or a teardown frees their blocks. Whatever
else an operation does leaves the objects, and what is being collected, as they are. So a run is one
of `Steps`, with the events in it as data.

An address may be given out again once its block is free. What a history says of an address is
about the object that was created there last.
-/

namespace HybridGC

/-! ### Histories -/

/-- What happens to objects in one step of a run. -/
inductive Event (δ : Type) where
  | created (a : UInt64) (d : Option δ)
  | opened (u : Undertaking) (doomed : Finset UInt64)
  | called (a : UInt64) (d : δ)
  | closed (u : Undertaking) (freed : Finset UInt64)
  | abandoned (u : Undertaking)

/-- The events of a run, the newest first. -/
abbrev History (δ : Type) := List (Event δ)

namespace History

variable {δ : Type} {a b : UInt64}

/-- How often the destructor of an object has been called. -/
def calls (a : UInt64) : History δ → Nat
  | [] => 0
  | .created b _ :: es => if b = a then 0 else calls a es
  | .called b _ :: es => if b = a then calls a es + 1 else calls a es
  | .opened .. :: es | .closed .. :: es | .abandoned _ :: es => calls a es

/-- How often an object has been freed. -/
def frees (a : UInt64) : History δ → Nat
  | [] => 0
  | .created b _ :: es => if b = a then 0 else frees a es
  | .closed _ freed :: es => if a ∈ freed then frees a es + 1 else frees a es
  | .opened .. :: es | .called .. :: es | .abandoned _ :: es => frees a es

/-- How many objects have been created. -/
def creations : History δ → Nat
  | [] => 0
  | .created .. :: es => creations es + 1
  | .opened .. :: es | .called .. :: es | .closed .. :: es | .abandoned _ :: es => creations es

/-- How many objects each pass that has been closed has freed, the latest first. -/
def passes : History δ → List Nat
  | [] => []
  | .closed .pass freed :: es => freed.card :: passes es
  | .closed .teardown _ :: es => passes es
  | .created .. :: es | .opened .. :: es | .called .. :: es | .abandoned _ :: es => passes es

/-- How many objects have been freed, by passes and teardowns. -/
def freed : History δ → Nat
  | [] => 0
  | .closed _ freed :: es => freed.card + History.freed es
  | .created .. :: es | .opened .. :: es | .called .. :: es | .abandoned _ :: es => freed es

/-- The addresses whose destructors have been called, the latest first. -/
def called : History δ → List UInt64
  | [] => []
  | .called a _ :: es => a :: called es
  | .created .. :: es | .opened .. :: es | .closed .. :: es | .abandoned _ :: es => called es

/-- What the pass or teardown that was opened last has doomed. -/
def doomed : History δ → Finset UInt64
  | [] => ∅
  | .opened _ doomed :: _ => doomed
  | .created .. :: es | .called .. :: es | .closed .. :: es | .abandoned _ :: es => doomed es

/-- What passes and teardowns have doomed that were abandoned. -/
def left : History δ → Finset UInt64
  | [] => ∅
  | .abandoned _ :: es => doomed es ∪ left es
  | .created .. :: es | .opened .. :: es | .called .. :: es | .closed .. :: es => left es

@[simp] lemma called_append (es es' : History δ) :
    called (es ++ es') = called es ++ called es' := by
  induction es with
  | nil => rfl
  | cons e es ih => cases e <;> simp [called, ih]

end History

/-! ### What an operation can do to objects -/

namespace Gc

variable {δ : Type} {g g' g₁ g₂ g₃ : Gc δ} {a n : UInt64} {p q : Partition}

/-- No object has been created, doomed or freed. -/
structure Quiet (g g' : Gc δ) : Prop where
  mem_working : ∀ a, a ∈ g'.collector.working ↔ a ∈ g.collector.working
  isTracked_iff : ∀ a, g'.collector.isTracked a = true ↔ g.collector.isTracked a = true
  live_iff : ∀ a, g'.collector.heap.Live a ↔ g.collector.heap.Live a
  destructor?_eq : ∀ a, g'.collector.heap.destructor? a = g.collector.heap.destructor? a
  cursor_eq : g'.collector.heap.cursor = g.collector.heap.cursor
  collecting_eq : g'.collector.collecting = g.collector.collecting
  lastRescued_eq : g'.collector.lastRescued = g.collector.lastRescued
  sameTotals : g.collector.SameTotals g'.collector
  isShutdown : g.isShutdown = true → g'.isShutdown = true

namespace Quiet

lemma refl (g : Gc δ) : g.Quiet g := by
  constructor <;> simp [Collector.SameTotals.refl]

/-- What leaves the tables and the counters as they are, and of the blocks what is asked for here. -/
lemma congr {c : Collector δ} (htables : c.toPartitions = g.collector.toPartitions)
    (hcounters : c.toPassCounters = g.collector.toPassCounters)
    (hlive : ∀ a, c.heap.Live a ↔ g.collector.heap.Live a)
    (hdestructor : ∀ a, c.heap.destructor? a = g.collector.heap.destructor? a)
    (hcursor : c.heap.cursor = g.collector.heap.cursor)
    (hcoll : c.collecting = g.collector.collecting) : g.Quiet { g with collector := c } where
  mem_working := by simp [htables]
  isTracked_iff := by simp [htables]
  live_iff := hlive
  destructor?_eq := hdestructor
  cursor_eq := hcursor
  collecting_eq := hcoll
  lastRescued_eq := congrArg PassCounters.lastRescued hcounters
  sameTotals := ⟨congrArg PassCounters.collections hcounters,
    congrArg PassCounters.collected hcounters, congrArg PassCounters.lastCollected hcounters⟩
  isShutdown := id

lemma journal (g : Gc δ) (j : Journal) :
    g.Quiet { g with collector := { g.collector with journal := j } } :=
  .congr rfl rfl (fun _ => Iff.rfl) (fun _ => rfl) rfl rfl

lemma store {h : Heap δ} {w : UInt64} {offset : Nat}
    (hs : g.collector.heap.store? a offset w = some h) :
    g.Quiet { g with collector := { g.collector with heap := h } } :=
  .congr rfl rfl (Heap.live_store? hs) (Heap.destructor?_store? hs) (Heap.cursor_store? hs) rfl

lemma setThreshold (g : Gc δ) (n : Nat) : g.Quiet (after (Gc.setThreshold n) g) := by
  obtain h := Quiet.refl g
  exact { h with }

/-- Counting moves an object between partitions at most, and neither creates nor frees one. -/
lemma of_recounted {c : Collector δ} (ha : a ∈ g.collector.table p)
    (h : g.collector.Recounted c a n q) : g.Quiet { g with collector := c } where
  mem_working := h.mem_working
  isTracked_iff := h.isTracked_iff ha
  live_iff := h.live_iff
  destructor?_eq := h.destructor?_eq
  cursor_eq := h.cursor_eq
  collecting_eq := h.sameBooks.collecting_eq
  lastRescued_eq := h.lastRescued_eq
  sameTotals := h.sameBooks.sameTotals
  isShutdown := id

/-- What allocates nothing keeps the bound that the allocator relies on. -/
lemma bounded (h : g.Quiet g') (hb : g.collector.heap.Bounded) : g'.collector.heap.Bounded :=
  hb.of_cursor_eq h.cursor_eq fun a => (h.live_iff a).1

lemma addref (hg : g.Partitioned) (a : UInt64) : g.Quiet (after (Gc.addref a) g) := by
  rcases Gc.after_addref hg.collector a with h | ⟨c, n, p, q, ha, hc, h⟩
  · rw [h]
    exact .refl g
  · rw [h]
    exact .of_recounted ha hc

lemma delref (hg : g.Partitioned) (a : UInt64) : g.Quiet (after (Gc.delref a) g) := by
  rcases Gc.after_delref hg.collector a with h | ⟨c, n, p, q, ha, hc, h⟩
  · rw [h]
    exact .refl g
  · rw [h]
    exact .of_recounted ha hc

end Quiet

/-- No quiet change ends a pass or undoes a shutdown. -/
lemma Quiet.isBusy (h : g.Quiet g') (hb : g.isBusy = true) : g'.isBusy = true := by
  rw [Gc.isBusy, Bool.or_eq_true] at hb ⊢
  rcases hb with hc | hs
  · exact .inl (h.collecting_eq.trans hc)
  · exact .inr (h.isShutdown hs)

lemma isBusy_created {c : Collector δ} {size : Nat} {d : Option δ}
    (h : g.collector.Created c size d a) : isBusy { g with collector := c } = g.isBusy := by
  rw [isBusy, isBusy, h.sameBooks.collecting_eq]

/-- A pass or a teardown has been opened, and owes the destructors of what it dooms. -/
structure Dooms (g g' : Gc δ) (owed : List (UInt64 × δ)) : Prop where
  not_isBusy : g.isBusy = false
  isBusy : g'.isBusy = true
  owed_eq : owed = g'.collector.pendingDestructors
  isTracked_iff : ∀ a, g'.collector.isTracked a = true ↔ g.collector.isTracked a = true
  sameObjects : g.collector.heap.SameObjects g'.collector.heap
  sameTotals : g.collector.SameTotals g'.collector

/-- What opens does so between passes and before shutdown. -/
lemma Dooms.idle {owed : List (UInt64 × δ)} (h : g.Dooms g' owed) :
    g.collector.collecting = false ∧ g.isShutdown = false := by
  simpa [Gc.isBusy] using h.not_isBusy

/-- A pass opens or nothing happens. -/
lemma openPass_cases (hg : g.Partitioned) (fresh : Option UInt64) (scan : Option (List UInt64)) :
    (∃ g', (openPass fresh scan).run g = .ok none g' ∧ g.Quiet g') ∨
      ∃ pass g', (openPass fresh scan).run g = .ok (some pass) g' ∧ g.Dooms g' pass.pending := by
  by_cases hs : g.isShutdown = true
  · exact .inl ⟨g, openPass_of_isShutdown hs fresh scan, .refl g⟩
  rw [Bool.not_eq_true] at hs
  cases scan with
  | none => exact .inl ⟨_, openPass_of_no_scan hs fresh, .journal g _⟩
  | some roots =>
    by_cases hc : g.collector.collecting = true
    · exact .inl ⟨g, openPass_of_collecting hc hs fresh roots, .refl g⟩
    rw [Bool.not_eq_true] at hc
    obtain ⟨c, condemned, hr, -, hopen⟩ :=
      openPass_opened hg.collector.labelled (hg.idle hc hs) hc hs fresh roots
    refine .inr ⟨_, _, hr, ?_⟩
    constructor
    case not_isBusy => simp [isBusy, hc, hs]
    case isBusy => simp [isBusy, hopen.collecting_eq]
    case owed_eq => rfl
    case isTracked_iff => exact hopen.isTracked_iff (hg.idle hc hs)
    case sameObjects => exact hopen.sameObjects
    case sameTotals => exact hopen.sameTotals

/-- A teardown begins, or the collector has been shut down before, or a pass is open and the
collector is only shut down. -/
lemma beginTeardown_cases (hg : g.Partitioned) :
    beginTeardown.run g = .ok none g ∨
      (∃ f g', beginTeardown.run g = .error f g' ∧ g.Quiet g') ∨
      ∃ owed g', beginTeardown.run g = .ok (some owed) g' ∧ g.Dooms g' owed ∧
        g'.isShutdown = true := by
  by_cases hs : g.isShutdown = true
  · exact .inl (beginTeardown_of_isShutdown hs)
  rw [Bool.not_eq_true] at hs
  by_cases hc : g.collector.collecting = true
  · refine .inr (.inl ⟨_, _, beginTeardown_of_collecting hc hs, ?_⟩)
    exact { Quiet.refl g with isShutdown := fun _ => rfl }
  rw [Bool.not_eq_true] at hc
  obtain ⟨c, hr, hall⟩ := beginTeardown_allCondemned hg.collector hc hs
  refine .inr (.inr ⟨_, _, hr, ?_, rfl⟩)
  constructor
  case not_isBusy => simp [isBusy, hc, hs]
  case isBusy => simp [isBusy]
  case owed_eq => rfl
  case isTracked_iff => exact hall.isTracked_iff
  case sameObjects => exact hall.sameObjects
  case sameTotals => exact hall.sameBooks.sameTotals

/-- `openPass_cases` for a caller that knows that a pass has opened. -/
lemma dooms_of_openPass {g' : Gc δ} {fresh : Option UInt64} {scan : Option (List UInt64)}
    {pass : Pass δ} (hg : g.Partitioned)
    (hr : (openPass fresh scan).run g = .ok (some pass) g') : g.Dooms g' pass.pending := by
  rcases openPass_cases hg fresh scan with ⟨g₁, hr₁, -⟩ | ⟨pass₁, g₁, hr₁, h⟩
  · cases hr₁.symm.trans hr
  · cases hr₁.symm.trans hr
    exact h

/-- `beginTeardown_cases` for a caller that knows that a teardown has begun. -/
lemma dooms_of_beginTeardown {g' : Gc δ} {owed : List (UInt64 × δ)} (hg : g.Partitioned)
    (hr : beginTeardown.run g = .ok (some owed) g') :
    g.Dooms g' owed ∧ g'.isShutdown = true := by
  rcases beginTeardown_cases hg with hr₁ | ⟨f, g₁, hr₁, -⟩ | ⟨owed₁, g₁, hr₁, h⟩
  · cases hr₁.symm.trans hr
  · cases hr₁.symm.trans hr
  · cases hr₁.symm.trans hr
    exact h

/-- An allocation is refused or fails, or it creates an object. -/
lemma create_cases {alloc : Allocator δ} (hg : g.Partitioned)
    (hsound : alloc.SoundAt g.collector.heap) (size : Nat) (d : Option δ) :
    (∃ e g', (create alloc size d).run g = .ok (.error e) g' ∧ g.Quiet g') ∨
      ∃ a c, (create alloc size d).run g = .ok (.ok a) { g with collector := c } ∧
        g.collector.Created c size d a := by
  by_cases hs : g.isShutdown = true
  · exact .inl ⟨_, _, create_of_isShutdown hs alloc size d, .journal g _⟩
  rw [Bool.not_eq_true] at hs
  cases ha : alloc g.collector.heap size d with
  | error e => exact .inl ⟨e, g, create_of_error hs ha, .refl g⟩
  | ok r =>
    obtain ⟨a, h⟩ := r
    obtain ⟨c, hr, -, hc⟩ := create_created hg.collector hs hsound ha
    exact .inr ⟨a, c, hr, hc⟩

end Gc

/-! ### Steps and what they show -/

namespace Machine

variable {δ : Type} {m m' m₁ m₂ : Machine δ} {e : Event δ} {es es' : History δ}

/-- The destructors that are owed. -/
def owed (m : Machine δ) : List (UInt64 × δ) :=
  m.frames.flatMap (·.owed)

/-- A step that shows nothing. -/
structure Quietly (m m' : Machine δ) : Prop where
  step : Step m m'
  frames_eq : m'.frames = m.frames
  quiet : m.gc.Quiet m'.gc

/-- A step that shows an event. It frees the blocks that are in use before and not after. -/
inductive Shows : Machine δ → Event δ → Machine δ → Prop
  | created {g g' : Gc δ} (fs : List (Frame δ)) {alloc : Allocator δ} {size : Nat}
      {d : Option δ} {a : UInt64} (hsound : alloc.SoundAt g.collector.heap)
      (hr : (Gc.create alloc size d).run g = .ok (.ok a) g') :
      Shows ⟨g, fs⟩ (.created a d) ⟨g', fs⟩
  | passOpened {g g' : Gc δ} (fs : List (Frame δ)) {fresh : Option UInt64}
      {scan : Option (List UInt64)} {pass : Pass δ}
      (hr : (Gc.openPass fresh scan).run g = .ok (some pass) g') :
      Shows ⟨g, fs⟩ (.opened .pass g'.collector.working.toFinset) ⟨g', ⟨.pass, pass.pending⟩ :: fs⟩
  | teardownOpened {g g' : Gc δ} (fs : List (Frame δ)) {owed : List (UInt64 × δ)}
      (hr : Gc.beginTeardown.run g = .ok (some owed) g') :
      Shows ⟨g, fs⟩ (.opened .teardown g'.collector.working.toFinset) ⟨g', ⟨.teardown, owed⟩ :: fs⟩
  | called (g : Gc δ) (fs : List (Frame δ)) (u : Undertaking) (x : UInt64 × δ)
      (owed : List (UInt64 × δ)) :
      Shows ⟨g, ⟨u, x :: owed⟩ :: fs⟩ (.called x.1 x.2)
        ⟨after (Gc.note (.destroying x.1)) g, ⟨u, owed⟩ :: fs⟩
  | passClosed (g : Gc δ) (fs : List (Frame δ)) {freed : Finset UInt64}
      (hfreed : ∀ a, a ∈ freed ↔ g.collector.heap.Live a ∧
        ¬ (after Gc.closePass g).collector.heap.Live a) :
      Shows ⟨g, ⟨.pass, []⟩ :: fs⟩ (.closed .pass freed) ⟨after Gc.closePass g, fs⟩
  | teardownClosed (g : Gc δ) (fs : List (Frame δ)) {freed : Finset UInt64}
      (hfreed : ∀ a, a ∈ freed ↔ g.collector.heap.Live a ∧
        ¬ (after Gc.endTeardown g).collector.heap.Live a) :
      Shows ⟨g, ⟨.teardown, []⟩ :: fs⟩ (.closed .teardown freed) ⟨after Gc.endTeardown g, fs⟩
  | abandoned (g : Gc δ) (f : Frame δ) (fs : List (Frame δ)) :
      Shows ⟨g, f :: fs⟩ (.abandoned f.undertaking) ⟨g, fs⟩

/-- Events are read off steps and are nothing that happens beside them. -/
lemma Shows.step (h : Shows m e m') : Step m m' := by
  cases h with
  | @created g g' fs alloc size d a hsound hr =>
    have := Step.create g fs hsound size d
    rwa [after, hr] at this
  | @passOpened g g' fs fresh scan pass hr =>
    have := Step.openPass ⟨g, fs⟩ fresh scan
    rwa [perform, hr] at this
  | @teardownOpened g g' fs owed hr =>
    have := Step.beginTeardown ⟨g, fs⟩
    rwa [perform, hr] at this
  | called g fs u x owed => exact .destroy g fs u x owed
  | passClosed g fs => exact .closePass g fs
  | teardownClosed g fs => exact .endTeardown g fs
  | abandoned g f fs => exact .unwind g f fs

/-- What sweeping frees is what was being collected. -/
lemma mem_working_iff_freed {c c' : Collector δ} (hc : c.Partitioned) (h : c.Swept c')
    (a : UInt64) : a ∈ c.working.toFinset ↔ c.heap.Live a ∧ ¬ c'.heap.Live a := by
  rw [Table.mem_toFinset, h.live_iff]
  constructor
  · exact fun ha => ⟨hc.live (p := .working) ha, fun hl => hl.1 ha⟩
  · rintro ⟨hl, hnot⟩
    by_contra ha
    exact hnot ⟨ha, hl⟩

lemma eq_working_of_freed {c c' : Collector δ} {freed : Finset UInt64} (hc : c.Partitioned)
    (h : c.Swept c') (hfreed : ∀ a, a ∈ freed ↔ c.heap.Live a ∧ ¬ c'.heap.Live a) :
    freed = c.working.toFinset := by
  ext a
  rw [hfreed, mem_working_iff_freed hc h]

/-- Every step shows an event or nothing. -/
lemma Step.shows (h : Step m m') (hm : m.gc.Partitioned) :
    m.Quietly m' ∨ ∃ e, m.Shows e m' := by
  have hstep := h
  -- each operation goes one of the ways its own lemma lists; the quiet ones show nothing
  cases h with
  | addref g fs a => exact .inl ⟨hstep, rfl, .addref hm a⟩
  | delref g fs a => exact .inl ⟨hstep, rfl, .delref hm a⟩
  | create g fs hsound size d =>
    rcases Gc.create_cases hm hsound size d with ⟨e, g', hr, hquiet⟩ | ⟨a, c, hr, -⟩
    · refine .inl ⟨hstep, rfl, ?_⟩
      simpa only [after, hr] using hquiet
    · simp only [after, hr]
      exact .inr ⟨_, .created fs hsound hr⟩
  | note g fs msg => exact .inl ⟨hstep, rfl, .journal g _⟩
  | setThreshold g fs n => exact .inl ⟨hstep, rfl, .setThreshold g n⟩
  | store g fs hs => exact .inl ⟨hstep, rfl, .store hs⟩
  | openPass m fresh scan =>
    obtain ⟨g, fs⟩ := m
    rcases Gc.openPass_cases hm fresh scan with ⟨g', hr, hquiet⟩ | ⟨pass, g', hr, -⟩
    · rw [perform, hr] at hstep ⊢
      exact .inl ⟨hstep, rfl, hquiet⟩
    · rw [perform, hr]
      exact .inr ⟨_, .passOpened fs hr⟩
  | beginTeardown m =>
    obtain ⟨g, fs⟩ := m
    rcases Gc.beginTeardown_cases hm with hr | ⟨f, g', hr, hquiet⟩ | ⟨owed, g', hr, -, -⟩
    · rw [perform, hr] at hstep ⊢
      exact .inl ⟨hstep, rfl, .refl g⟩
    · rw [perform, hr] at hstep ⊢
      exact .inl ⟨hstep, rfl, hquiet⟩
    · rw [perform, hr]
      exact .inr ⟨_, .teardownOpened fs hr⟩
  | destroy g fs u x owed => exact .inr ⟨_, .called g fs u x owed⟩
  | closePass g fs =>
    refine .inr ⟨_, .passClosed g fs (mem_working_iff_freed hm.collector ?_)⟩
    obtain ⟨c, hr, hc⟩ := Gc.closePass_finished g
    rw [after, hr]
    exact hc.swept
  | endTeardown g fs =>
    refine .inr ⟨_, .teardownClosed g fs (mem_working_iff_freed hm.collector ?_)⟩
    obtain ⟨c, hr, hc, -⟩ := Gc.endTeardown_swept g
    rw [after, hr]
    exact hc
  | unwind g f fs => exact .inr ⟨_, .abandoned g f fs⟩

/-! ### What an event does -/

/-- What is known of a machine before and after an event, whatever operation showed it. -/
inductive Effect : Machine δ → Event δ → Machine δ → Prop
  | created {g : Gc δ} (fs : List (Frame δ)) {c : Collector δ} {size : Nat} {d : Option δ}
      {a : UInt64} (hdown : g.isShutdown = false) (hc : g.collector.Created c size d a) :
      Effect ⟨g, fs⟩ (.created a d) ⟨{ g with collector := c }, fs⟩
  | opened {g g' : Gc δ} (fs : List (Frame δ)) (u : Undertaking) {pending : List (UInt64 × δ)}
      (hdooms : g.Dooms g' pending) (hdown : u = .teardown → g'.isShutdown = true) :
      Effect ⟨g, fs⟩ (.opened u g'.collector.working.toFinset) ⟨g', ⟨u, pending⟩ :: fs⟩
  | called (g : Gc δ) (fs : List (Frame δ)) (u : Undertaking) (x : UInt64 × δ)
      (rest : List (UInt64 × δ)) :
      Effect ⟨g, ⟨u, x :: rest⟩ :: fs⟩ (.called x.1 x.2)
        ⟨after (Gc.note (.destroying x.1)) g, ⟨u, rest⟩ :: fs⟩
  | closed {g : Gc δ} (fs : List (Frame δ)) (u : Undertaking) {c : Collector δ}
      (hc : g.collector.Swept c) (hpass : u = .pass → g.collector.Finished c)
      (hteardown : u = .teardown → g.collector.SameTotals c) :
      Effect ⟨g, ⟨u, []⟩ :: fs⟩ (.closed u g.collector.working.toFinset)
        ⟨{ g with collector := c }, fs⟩
  | abandoned (g : Gc δ) (f : Frame δ) (fs : List (Frame δ)) :
      Effect ⟨g, f :: fs⟩ (.abandoned f.undertaking) ⟨g, fs⟩

/-- Any event on a partitioned machine has the effect it is said to have. Results on events need
only the cases of `Effect`. -/
lemma Shows.effect (h : m.Shows e m') (hm : m.gc.Partitioned) : m.Effect e m' := by
  cases h with
  | created fs hsound hr =>
    obtain ⟨hdown, c, rfl, hc⟩ := Gc.created_of_create hm.collector hsound hr
    exact .created fs hdown hc
  | passOpened fs hr => exact .opened fs .pass (Gc.dooms_of_openPass hm hr) (by simp)
  | teardownOpened fs hr =>
    obtain ⟨hdooms, hdown⟩ := Gc.dooms_of_beginTeardown hm hr
    exact .opened fs .teardown hdooms fun _ => hdown
  | called g fs u x rest => exact .called g fs u x rest
  | passClosed g fs hfreed =>
    obtain ⟨c, hr, hc⟩ := Gc.closePass_finished g
    rw [after, hr] at hfreed ⊢
    rw [eq_working_of_freed hm.collector hc.swept hfreed]
    exact .closed fs .pass hc.swept (fun _ => hc) (by simp)
  | teardownClosed g fs hfreed =>
    obtain ⟨c, hr, hc, hbooks, -⟩ := Gc.endTeardown_swept g
    rw [after, hr] at hfreed ⊢
    rw [eq_working_of_freed hm.collector hc hfreed]
    exact .closed fs .teardown hc (by simp) fun _ => hbooks.sameTotals
  | abandoned g f fs => exact .abandoned g f fs

/-! ### Runs with a history -/

/-- A run from one machine to another shows some events. -/
inductive Run (m : Machine δ) : History δ → Machine δ → Prop
  | refl : Run m [] m
  | quiet {es : History δ} {m₁ m₂ : Machine δ} (h : Run m es m₁) (hq : m₁.Quietly m₂) :
      Run m es m₂
  | event {es : History δ} {m₁ m₂ : Machine δ} {e : Event δ} (h : Run m es m₁)
      (hs : m₁.Shows e m₂) : Run m (e :: es) m₂

lemma Run.steps (h : Run m es m') : Steps m m' := by
  induction h with
  | refl => exact .refl
  | quiet _ hq ih => exact ih.tail hq.step
  | event _ hs ih => exact ih.tail hs.step

/-- Any run shows some history. The invariant is needed at each step, since what a sweep frees is
read off it. -/
lemma Steps.run (h : Steps m m') (hm : m.gc.Partitioned) : ∃ es, Run m es m' := by
  induction h with
  | refl => exact ⟨[], .refl⟩
  | tail hsteps hstep ih =>
    obtain ⟨es, hrun⟩ := ih
    rcases hstep.shows (Steps.partitioned hsteps hm) with hq | ⟨e, hs⟩
    · exact ⟨es, hrun.quiet hq⟩
    · exact ⟨e :: es, hrun.event hs⟩

lemma Run.trans (h : Run m es m₁) (h' : Run m₁ es' m₂) : Run m (es' ++ es) m₂ := by
  induction h' with
  | refl => exact h
  | quiet _ hq ih => exact ih.quiet hq
  | event _ hs ih => exact ih.event hs

/-- A single step shows one event at most, and a call only if a destructor is owed. -/
lemma Step.exists_run (h : Step m m') (hm : m.gc.Partitioned) (howed : m.owed = []) :
    ∃ es, Run m es m' ∧ es.called = [] := by
  rcases h.shows hm with hq | ⟨e, hs⟩
  · exact ⟨[], .quiet .refl hq, rfl⟩
  · refine ⟨[e], .event .refl hs, ?_⟩
    cases hs with
    | called g fs u x owed => simp [Machine.owed] at howed
    | _ => rfl

/-- What shows nothing shows nothing below other frames either. -/
lemma Quietly.append (h : m.Quietly m') (fs : List (Frame δ)) :
    Quietly ⟨m.gc, m.frames ++ fs⟩ ⟨m'.gc, m'.frames ++ fs⟩ where
  step := h.step.append fs
  frames_eq := by rw [h.frames_eq]
  quiet := h.quiet

/-- An event of a destructor is the same event in the run that the destructor is part of. -/
lemma Shows.append (h : m.Shows e m') (fs : List (Frame δ)) :
    Shows ⟨m.gc, m.frames ++ fs⟩ e ⟨m'.gc, m'.frames ++ fs⟩ := by
  cases h with
  | created gs hsound hr => exact .created _ hsound hr
  | passOpened gs hr => exact .passOpened _ hr
  | teardownOpened gs hr => exact .teardownOpened _ hr
  | called g gs u x owed => exact .called g _ u x owed
  | passClosed g gs hfreed => exact .passClosed g _ hfreed
  | teardownClosed g gs hfreed => exact .teardownClosed g _ hfreed
  | abandoned g f gs => exact .abandoned g f _

/-- What is under way does not affect a run. -/
lemma Run.append (h : Run m es m') (fs : List (Frame δ)) :
    Run ⟨m.gc, m.frames ++ fs⟩ es ⟨m'.gc, m'.frames ++ fs⟩ := by
  induction h with
  | refl => exact .refl
  | quiet _ hq ih => exact ih.quiet (hq.append fs)
  | event _ hs ih => exact ih.event (hs.append fs)

/-- What has come about from a new collector, with what happened on the way. -/
def HasHistory (m : Machine δ) (es : History δ) : Prop :=
  ∃ config scanner, Run ⟨Gc.start config scanner, []⟩ es m

/-- What has a history is reachable, so what is proved of reachable machines holds along it. -/
lemma HasHistory.reachable (h : m.HasHistory es) : m.Reachable := by
  obtain ⟨config, scanner, hrun⟩ := h
  exact ⟨config, scanner, hrun.steps⟩

/-- Whatever can come about has a history. -/
lemma Reachable.hasHistory (h : m.Reachable) : ∃ es, m.HasHistory es := by
  obtain ⟨config, scanner, hsteps⟩ := h
  obtain ⟨es, hrun⟩ := hsteps.run (Gc.partitioned_start config scanner)
  exact ⟨es, config, scanner, hrun⟩

lemma HasHistory.trans (h : m.HasHistory es) (h' : Run m es' m') : m'.HasHistory (es' ++ es) := by
  obtain ⟨config, scanner, hrun⟩ := h
  exact ⟨config, scanner, hrun.trans h'⟩

/-! ### What is under way -/

/-- At most one pass or teardown is under way, and as long as one is, the collector is busy. -/
structure Solo (m : Machine δ) : Prop where
  partitioned : m.gc.Partitioned
  length_frames : m.frames.length ≤ 1
  isBusy : m.frames ≠ [] → m.gc.isBusy = true

namespace Solo

lemma start (config : Config) (scanner : Scanner) :
    Solo (⟨Gc.start config scanner, []⟩ : Machine δ) where
  partitioned := Gc.partitioned_start config scanner
  length_frames := Nat.zero_le 1
  isBusy h := absurd rfl h

lemma frames_eq_nil (hm : m.Solo) (h : m.gc.isBusy = false) : m.frames = [] := by
  by_contra hf
  rw [hm.isBusy hf] at h
  exact absurd h (by decide)

lemma eq_nil {g : Gc δ} {f : Frame δ} {fs : List (Frame δ)} (hm : Solo ⟨g, f :: fs⟩) :
    fs = [] :=
  List.eq_nil_of_length_eq_zero (Nat.le_zero.1 (Nat.le_of_succ_le_succ hm.length_frames))

lemma quietly (hm : m.Solo) (h : m.Quietly m') : m'.Solo where
  partitioned := h.step.partitioned hm.partitioned
  length_frames := h.frames_eq ▸ hm.length_frames
  isBusy hf := h.quiet.isBusy (hm.isBusy (h.frames_eq ▸ hf))

/-- No event opens a second frame: a pass or a teardown opens only while the collector is idle. -/
lemma shows (hm : m.Solo) (h : m.Shows e m') : m'.Solo := by
  have hpart := h.step.partitioned hm.partitioned
  cases h.effect hm.partitioned with
  | created fs _ hc =>
    exact ⟨hpart, hm.length_frames, fun hf => (Gc.isBusy_created hc).trans (hm.isBusy hf)⟩
  | opened fs u hdooms =>
    obtain rfl : fs = [] := hm.frames_eq_nil hdooms.not_isBusy
    exact ⟨hpart, le_rfl, fun _ => hdooms.isBusy⟩
  | called g fs u x rest => exact ⟨hpart, hm.length_frames, fun _ => hm.isBusy (by simp)⟩
  | closed | abandoned =>
    obtain rfl := hm.eq_nil
    exact ⟨hpart, Nat.zero_le 1, fun h => absurd rfl h⟩

end Solo

/-- At every point of a run, at most one thing is under way. -/
lemma Run.solo (h : Run m es m') (hm : m.Solo) : m'.Solo := by
  induction h with
  | refl => exact hm
  | quiet _ hq ih => exact ih.quietly hq
  | event _ hs ih => exact ih.shows hs

lemma Step.solo (h : Step m m') (hm : m.Solo) : m'.Solo := by
  rcases h.shows hm.partitioned with hq | ⟨e, hs⟩
  · exact hm.quietly hq
  · exact hm.shows hs

lemma HasHistory.solo (h : m.HasHistory es) : m.Solo := by
  obtain ⟨config, scanner, hrun⟩ := h
  exact hrun.solo (.start config scanner)

/-- What holds of a new collector and is kept by all that happens holds of every machine and its
history. -/
lemma HasHistory.induction {P : Machine δ → History δ → Prop}
    (start : ∀ config scanner, P ⟨Gc.start config scanner, []⟩ [])
    (quietly : ∀ {m m' es}, m.Solo → P m es → m.Quietly m' → P m' es)
    (shows : ∀ {m m' e es}, m.Solo → P m es → m.Shows e m' → P m' (e :: es))
    (h : m.HasHistory es) : P m es := by
  obtain ⟨config, scanner, hrun⟩ := h
  induction hrun with
  | refl => exact start config scanner
  | quiet hrun hq ih => exact quietly (hrun.solo (.start config scanner)) ih hq
  | event hrun hs ih => exact shows (hrun.solo (.start config scanner)) ih hs

/-- Shutdown is for good. -/
lemma Effect.isShutdown (h : m.Effect e m') (hs : m.gc.isShutdown = true) :
    m'.gc.isShutdown = true := by
  cases h with
  | created | called | closed | abandoned => exact hs
  | opened fs u hdooms => exact absurd (hdooms.idle.2.symm.trans hs) (by decide)

/-- A busy collector with nothing under way opens nothing. -/
lemma Run.busy (h : Run m es m') (hm : m.gc.Partitioned) (hb : m.gc.isBusy = true)
    (hf : m.frames = []) :
    m'.gc.isBusy = true ∧ m'.frames = [] ∧ es.called = [] := by
  induction h with
  | refl => exact ⟨hb, hf, rfl⟩
  | quiet _ hq ih => exact ⟨hq.quiet.isBusy ih.1, hq.frames_eq.trans ih.2.1, ih.2.2⟩
  | event h hs ih =>
    obtain ⟨hb, hf, hcalled⟩ := ih
    cases hs.effect (h.steps.partitioned hm) with
    | created fs _ hc => exact ⟨(Gc.isBusy_created hc).trans hb, hf, hcalled⟩
    | opened fs u hdooms =>
      rw [hdooms.not_isBusy] at hb
      exact absurd hb (by decide)
    | called | closed | abandoned => simp at hf

end Machine

end HybridGC
