import HybridGC.Host
import HybridGC.Proofs.History

/-!
# What a pass frees

When a pass opens it is settled what dies: the objects without counted references that no kept word
names, and the cycles it condemns. While it is open, none of the operations that its destructors may
call puts anything into the working table or takes anything out, so that is what closing it frees,
and everything else that is tracked by then survives.
-/

namespace HybridGC

namespace Gc

variable {δ : Type} {g g₁ g₂ g₃ : Gc δ} {a : UInt64}

/-- The objects that a pass with some root words rescues. -/
def rescued (g : Gc δ) (fresh : Option UInt64) (roots : List UInt64) : Finset UInt64 :=
  g.collector.zeroCount.toFinset ∩ (fresh.toList ++ roots).toFinset

/-- The objects that a pass with some root words dooms. -/
def doomed (g : Gc δ) (fresh : Option UInt64) (roots : List UInt64) : Finset UInt64 :=
  g.collector.zeroCount.toFinset \ (fresh.toList ++ roots).toFinset ∪ g.cyclic fresh roots

/-- A pass that opens puts what it dooms into the working table. -/
lemma openPass_doomed (hg : g.Partitioned) (hc : g.collector.collecting = false)
    (hs : g.isShutdown = false) (fresh : Option UInt64) (roots : List UInt64) :
    ∃ c condemned, (openPass fresh (some roots)).run g =
        .ok (some ⟨condemned, c.pendingDestructors⟩) { g with collector := c } ∧
      Partitioned { g with collector := c } ∧
      c.working.toFinset = g.doomed fresh roots ∧
      g.collector.Opened c (fresh.toList ++ roots) (g.cyclic fresh roots) := by
  obtain ⟨c, condemned, hrun, -, hopen⟩ :=
    openPass_opened hg.collector.labelled (hg.idle hc hs) hc hs fresh roots
  refine ⟨c, condemned, hrun, ?_, ?_, hopen⟩
  · have := hg.after_openPass fresh (some roots)
    rwa [after, hrun] at this
  · ext b
    rw [Table.mem_toFinset, hopen.mem_working, doomed, Finset.mem_union, Finset.mem_sdiff,
      Table.mem_toFinset, List.mem_toFinset]

/-! ### While a pass is open -/

/-- The same objects are being collected, and everything tracked still is. -/
structure SamePass (g g' : Gc δ) : Prop where
  mem_working : ∀ b, b ∈ g'.collector.working ↔ b ∈ g.collector.working
  collecting_eq : g'.collector.collecting = g.collector.collecting
  lastRescued_eq : g'.collector.lastRescued = g.collector.lastRescued
  isTracked : ∀ b, g.collector.isTracked b = true → g'.collector.isTracked b = true

namespace SamePass

lemma refl (g : Gc δ) : g.SamePass g :=
  ⟨fun _ => Iff.rfl, rfl, rfl, fun _ => id⟩

lemma trans (h : g₁.SamePass g₂) (h' : g₂.SamePass g₃) : g₁.SamePass g₃ where
  mem_working b := (h'.mem_working b).trans (h.mem_working b)
  collecting_eq := h'.collecting_eq.trans h.collecting_eq
  lastRescued_eq := h'.lastRescued_eq.trans h.lastRescued_eq
  isTracked b hb := h'.isTracked b (h.isTracked b hb)

lemma of_quiet (h : g₁.Quiet g₂) : g₁.SamePass g₂ where
  mem_working := h.mem_working
  collecting_eq := h.collecting_eq
  lastRescued_eq := h.lastRescued_eq
  isTracked b := (h.isTracked_iff b).2

/-- A new object is no candidate of an open pass. -/
lemma of_created {c : Collector δ} {size : Nat} {d : Option δ}
    (h : g.collector.Created c size d a) : g.SamePass { g with collector := c } where
  mem_working := h.mem_working
  collecting_eq := h.sameBooks.collecting_eq
  lastRescued_eq := h.lastRescued_eq
  isTracked b hb := (h.isTracked_iff b).2 (.inr hb)

end SamePass

end Gc

namespace Machine

variable {δ : Type} {m m' : Machine δ}

/-- No operation disturbs an open pass, as long as that pass is not closed. -/
lemma Step.samePass (h : Step m m') (hm : m.gc.Partitioned)
    (hc : m.gc.collector.collecting = true) (hf : m.frames = []) :
    m.gc.SamePass m'.gc ∧ m'.frames = [] := by
  have hbusy : m.gc.isBusy = true := by simp [Gc.isBusy, hc]
  rcases h.shows hm with hq | ⟨e, hs⟩
  · exact ⟨.of_quiet hq.quiet, hq.frames_eq.trans hf⟩
  cases hs.effect hm with
  | created fs _ hcr => exact ⟨.of_created hcr, hf⟩
  | opened fs u hdooms =>
    rw [hdooms.not_isBusy] at hbusy
    exact absurd hbusy (by decide)
  | called | closed | abandoned => simp at hf

/-- Nor does a run. -/
lemma Steps.samePass (h : Steps m m') (hm : m.gc.Partitioned)
    (hc : m.gc.collector.collecting = true) (hf : m.frames = []) :
    m.gc.SamePass m'.gc ∧ m'.frames = [] := by
  induction h with
  | refl => exact ⟨.refl m.gc, hf⟩
  | tail hsteps hstep ih =>
    obtain ⟨hsame, hf'⟩ := ih
    have hc' := hsame.collecting_eq.trans hc
    obtain ⟨hsame', hf''⟩ := hstep.samePass (Steps.partitioned hsteps hm) hc' hf'
    exact ⟨hsame.trans hsame', hf''⟩

end Machine

namespace Host

open Machine

variable {μ δ : Type}

/-! ### Passes -/

/-- A pass whose destructors return frees what its opening has left in the working table. -/
lemma run_runPass {env : Environment μ δ} {s s' : Host μ δ} {fresh : Option UInt64}
    {roots : List UInt64} {pass : Pass δ} {g : Gc δ}
    (hscan : env.scan s.client s.gc.scanner = some roots)
    (hopen : (Gc.openPass fresh (some roots)).run s.gc = .ok (some pass) g)
    (hrun : (destroyAll env pass.pending).run ⟨env.beginRound pass.condemned s.client, g⟩ =
      .ok () s') :
    ∃ c, (runPass env fresh).run s =
        .ok s'.gc.collector.working.size { s' with gc := { s'.gc with collector := c } } ∧
      after Gc.closePass s'.gc = { s'.gc with collector := c } ∧
      s'.gc.collector.Swept c ∧ c.collecting = false := by
  obtain ⟨c, hclose, hfin⟩ := Gc.closePass_finished s'.gc
  exact ⟨c, by simp [runPass, hscan, hopen, modifyClient, hrun, hclose], by rw [after, hclose],
    hfin.swept, hfin.collecting_eq⟩

/-- The second collector is the first after some objects have been freed. -/
structure Freed (g g' : Gc δ) (dead : Finset UInt64) : Prop where
  live : ∀ a ∈ dead, g.collector.heap.Live a
  live_iff : ∀ a, g'.collector.heap.Live a ↔ g.collector.heap.Live a ∧ a ∉ dead
  isTracked_iff : ∀ a, g'.collector.isTracked a = true ↔
    g.collector.isTracked a = true ∧ a ∉ dead

/-- A pass with some root words opens, and if its destructors return, whatever they have done to the
collector, it frees exactly what was doomed when it opened. All that was tracked before or has been
at any time during the pass is still tracked, unless it was doomed. -/
def PassFrees (env : Environment μ δ) (fresh : Option UInt64) (roots : List UInt64)
    (s : Host μ δ) : Prop :=
  ∃ pass g, (Gc.openPass fresh (some roots)).run s.gc = .ok (some pass) g ∧
    ∀ s', (destroyAll env pass.pending).run ⟨env.beginRound pass.condemned s.client, g⟩ =
        .ok () s' →
      Steps ⟨g, []⟩ ⟨s'.gc, []⟩ →
      ∃ s'', (runPass env fresh).run s = .ok (s.gc.doomed fresh roots).card s'' ∧
        Freed s'.gc s''.gc (s.gc.doomed fresh roots) ∧
        s''.gc.collector.lastRescued = (s.gc.rescued fresh roots).card ∧
        (∀ a, s.gc.collector.isTracked a = true → a ∉ s.gc.doomed fresh roots →
          s''.gc.collector.isTracked a = true) ∧
        ∀ m, Steps ⟨g, []⟩ m → Steps m ⟨s'.gc, []⟩ → ∀ a, m.gc.collector.isTracked a = true →
          a ∉ s.gc.doomed fresh roots → s''.gc.collector.isTracked a = true

/-- Between passes, every pass that finds something to scan frees what it dooms. The destructors are
left open; they only have to be a run. -/
lemma passFrees {env : Environment μ δ} {s : Host μ δ} {roots : List UInt64}
    (hs : s.gc.Partitioned) (hc : s.gc.collector.collecting = false)
    (hsd : s.gc.isShutdown = false) (fresh : Option UInt64)
    (hscan : env.scan s.client s.gc.scanner = some roots) : PassFrees env fresh roots s := by
  obtain ⟨c, condemned, hrun, hopened, hworking, hopen⟩ :=
    Gc.openPass_doomed hs hc hsd fresh roots
  refine ⟨_, _, hrun, fun s' hdestroy hsteps => ?_⟩
  have hidle := hs.idle hc hsd
  -- the destructors are a run inside the pass, so the candidates are still what opening left
  obtain ⟨hsame, -⟩ := hsteps.samePass hopened hopen.collecting_eq rfl
  have hlast := hsteps.partitioned hopened
  have hworking' (b : UInt64) : b ∈ s'.gc.collector.working ↔ b ∈ s.gc.doomed fresh roots := by
    rw [hsame.mem_working, ← hworking, Table.mem_toFinset]
  obtain ⟨c', hpass, -, hswept, -⟩ := run_runPass hscan hrun hdestroy
  have hsize : s'.gc.collector.working.size = (s.gc.doomed fresh roots).card := by
    rw [← Table.card_toFinset]
    congr 1
    ext b
    rw [Table.mem_toFinset, hworking']
  rw [hsize] at hpass
  have htracked (a : UInt64) : c'.isTracked a = true ↔
      s'.gc.collector.isTracked a = true ∧ a ∉ s.gc.doomed fresh roots := by
    rw [hswept.isTracked_iff hlast.collector.disjoint, hworking']
  refine ⟨_, hpass, ⟨?_, ?_, htracked⟩, ?_, ?_, ?_⟩
  · intro a ha
    exact hlast.collector.live (p := .working) ((hworking' a).2 ha)
  · intro a
    rw [hswept.live_iff, hworking', and_comm]
  · rw [hswept.lastRescued_eq, hsame.lastRescued_eq]
    exact hopen.lastRescued_eq
  · intro a ha hdead
    refine (htracked a).2 ⟨hsame.isTracked a ?_, hdead⟩
    exact (hopen.isTracked_iff hidle a).2 ha
  · intro m hm hm' a ha hdead
    obtain ⟨hsame₁, hframes⟩ := hm.samePass hopened hopen.collecting_eq rfl
    have hcoll := hsame₁.collecting_eq.trans hopen.collecting_eq
    obtain ⟨hsame₂, -⟩ := hm'.samePass (hm.partitioned hopened) hcoll hframes
    exact (htracked a).2 ⟨hsame₂.isTracked a ha, hdead⟩

/-- A pass with some root words returns an answer, and what its destructors have done is a run. -/
structure Passes (env : Environment μ δ) (fresh : Option UInt64) (roots : List UInt64)
    (s : Host μ δ) (n : Nat) (s' : Host μ δ) : Prop where
  scan_eq : env.scan s.client s.gc.scanner = some roots
  run_eq : (runPass env fresh).run s = .ok n s'
  steps : ∀ pass g s₁, (Gc.openPass fresh (some roots)).run s.gc = .ok (some pass) g →
    (destroyAll env pass.pending).run ⟨env.beginRound pass.condemned s.client, g⟩ = .ok () s₁ →
    Steps ⟨g, []⟩ ⟨s₁.gc, []⟩

/-- A pass that returns has run its destructors to the end. -/
lemma destroyAll_of_runPass {env : Environment μ δ} {s s' : Host μ δ} {fresh : Option UInt64}
    {roots : List UInt64} {n : Nat} {pass : Pass δ} {g : Gc δ}
    (hscan : env.scan s.client s.gc.scanner = some roots)
    (hopen : (Gc.openPass fresh (some roots)).run s.gc = .ok (some pass) g)
    (hrun : (runPass env fresh).run s = .ok n s') :
    ∃ s₁, (destroyAll env pass.pending).run ⟨env.beginRound pass.condemned s.client, g⟩ =
      .ok () s₁ := by
  cases hdestroy : (destroyAll env pass.pending).run
      ⟨env.beginRound pass.condemned s.client, g⟩ with
  | error e s₁ => simp [runPass, hscan, hopen, modifyClient, hdestroy] at hrun
  | ok _ s₁ => exact ⟨s₁, rfl⟩

/-- If a pass that frees what it dooms returns, it has done so. -/
lemma PassFrees.of_passes {env : Environment μ δ} {s s' : Host μ δ} {fresh : Option UInt64}
    {roots : List UInt64} {n : Nat} (h : PassFrees env fresh roots s)
    (hp : Passes env fresh roots s n s') :
    n = (s.gc.doomed fresh roots).card ∧
      s'.gc.collector.lastRescued = (s.gc.rescued fresh roots).card ∧
      (∃ g, Freed g s'.gc (s.gc.doomed fresh roots)) ∧
      ∀ a, s.gc.collector.isTracked a = true → a ∉ s.gc.doomed fresh roots →
        s'.gc.collector.isTracked a = true := by
  obtain ⟨pass, g, hopen, hfrees⟩ := h
  obtain ⟨s₁, hdestroy⟩ := destroyAll_of_runPass hp.scan_eq hopen hp.run_eq
  obtain ⟨s₂, hrun, hfreed, hrescued, hkept, -⟩ :=
    hfrees s₁ hdestroy (hp.steps pass g s₁ hopen hdestroy)
  cases hp.run_eq.symm.trans hrun
  exact ⟨rfl, hrescued, ⟨_, hfreed⟩, hkept⟩

/-- Such a pass answers how many objects were doomed when it opened, and has freed these and no
other object that was there. -/
lemma Passes.frees {env : Environment μ δ} {s s' : Host μ δ} {fresh : Option UInt64}
    {roots : List UInt64} {n : Nat} (h : Passes env fresh roots s n s') (hs : s.gc.Partitioned)
    (hc : s.gc.collector.collecting = false) (hsd : s.gc.isShutdown = false) :
    n = (s.gc.doomed fresh roots).card ∧
      s'.gc.collector.lastRescued = (s.gc.rescued fresh roots).card ∧
      ∀ a, s.gc.collector.isTracked a = true →
        (s'.gc.collector.isTracked a = true ↔ a ∉ s.gc.doomed fresh roots) := by
  obtain ⟨hn, hrescued, ⟨g, hfreed⟩, hkept⟩ :=
    (passFrees hs hc hsd fresh h.scan_eq).of_passes h
  exact ⟨hn, hrescued, fun a ha => ⟨fun h => ((hfreed.isTracked_iff a).1 h).2, hkept a ha⟩⟩

/-- A client whose destructors do nothing and that reports no roots. -/
def idle : Environment Unit Unit where
  alloc := Heap.allocate
  scan _ _ := some []
  beginRound _ c := c
  destroy _ _ := pure ()

end Host

end HybridGC
