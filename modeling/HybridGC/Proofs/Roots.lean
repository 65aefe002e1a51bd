import HybridGC.Proofs.Clients

/-!
# Roots only save

A root word acts in one of three ways: it rescues the zero-count object it names, and the payload of
that object is then read by the search for cycles; it keeps the multi-ref object it names; or it
does nothing. None of these lets another object die, so with more root words a pass condemns fewer
objects, and with the same words in another order, or more than once, the same ones.
-/

namespace HybridGC

namespace Gc

variable {δ : Type} {g : Gc δ} {fresh : Option UInt64} {roots roots' : List UInt64} {a : UInt64}

/-- The collector just before the first destructor of a pass with some root words runs. -/
def opened (g : Gc δ) (fresh : Option UInt64) (roots : List UInt64) : Gc δ :=
  after (openPass fresh (some roots)) g

/-- A set that stays owned by itself with more roots, and more rescued objects to be read, was owned
by itself with fewer. -/
lemma cyclic_antitone (h : ∀ w ∈ roots, w ∈ roots') :
    g.cyclic fresh roots' ⊆ g.cyclic fresh roots := by
  have hnodup := g.collector.multiRef.nodup_addresses
  rw [cyclic, cyclic]
  split
  case isTrue =>
    apply Heap.subset_unreachable hnodup
    refine (Heap.selfOwned_unreachable hnodup).congr (fun _ => Iff.rfl) (fun _ _ => rfl)
      (fun _ _ => rfl) ?_ fun w _ => h w
    intro z hz
    simp only [List.mem_filter, List.mem_append, decide_eq_true_eq] at hz ⊢
    exact ⟨hz.1, hz.2.imp_right (h z)⟩
  case isFalse => exact Finset.Subset.refl _

/-- More roots doom fewer objects, candidates and cyclic ones alike. -/
lemma doomed_antitone (h : ∀ w ∈ roots, w ∈ roots') :
    g.doomed fresh roots' ⊆ g.doomed fresh roots := by
  refine Finset.union_subset_union ?_ (cyclic_antitone h)
  refine Finset.sdiff_subset_sdiff (Finset.Subset.refl _) ?_
  intro w hw
  simp only [List.mem_toFinset, List.mem_append] at hw ⊢
  exact hw.imp_right (h w)

/-- Which objects are doomed depends on the root words as a set, not on their order or on how often
they come. -/
lemma doomed_congr (h : ∀ w, w ∈ roots ↔ w ∈ roots') :
    g.doomed fresh roots = g.doomed fresh roots' :=
  Finset.Subset.antisymm (doomed_antitone fun w => (h w).2) (doomed_antitone fun w => (h w).1)

lemma rescued_congr (h : ∀ w, w ∈ roots ↔ w ∈ roots') :
    g.rescued fresh roots = g.rescued fresh roots' := by
  rw [rescued, rescued]
  congr 1
  ext w
  simp [h w]

lemma mem_working_opened (hg : g.Partitioned) (hc : g.collector.collecting = false)
    (hs : g.isShutdown = false) :
    a ∈ (g.opened fresh roots).collector.working ↔ a ∈ g.doomed fresh roots := by
  obtain ⟨c, condemned, hrun, -, hworking, -⟩ := openPass_doomed hg hc hs fresh roots
  rw [opened, after, hrun, ← hworking, Table.mem_toFinset]

lemma lastRescued_opened (hg : g.Partitioned) (hc : g.collector.collecting = false)
    (hs : g.isShutdown = false) :
    (g.opened fresh roots).collector.lastRescued = (g.rescued fresh roots).card := by
  obtain ⟨c, condemned, hrun, -, -, hopen⟩ := openPass_doomed hg hc hs fresh roots
  rw [opened, after, hrun]
  exact hopen.lastRescued_eq

lemma opened_of_isShutdown (hs : g.isShutdown = true) : g.opened fresh roots = g := by
  rw [opened, after, openPass_of_isShutdown hs]

/-- More roots leave fewer objects in the working table, also after shutdown, where they leave what
is there. -/
lemma working_opened_antitone (hg : g.Partitioned) (hc : g.collector.collecting = false)
    (h : ∀ w ∈ roots, w ∈ roots') (ha : a ∈ (g.opened fresh roots').collector.working) :
    a ∈ (g.opened fresh roots).collector.working := by
  by_cases hs : g.isShutdown = true
  · rwa [opened_of_isShutdown hs] at ha ⊢
  · rw [Bool.not_eq_true] at hs
    rw [mem_working_opened hg hc hs] at ha ⊢
    exact doomed_antitone h ha

/-- The same words rescue the same number of objects, also after shutdown, where they rescue none.
-/
lemma lastRescued_opened_congr (hg : g.Partitioned) (hc : g.collector.collecting = false)
    (h : ∀ w, w ∈ roots ↔ w ∈ roots') :
    (g.opened fresh roots').collector.lastRescued =
      (g.opened fresh roots).collector.lastRescued := by
  by_cases hs : g.isShutdown = true
  · rw [opened_of_isShutdown hs, opened_of_isShutdown hs]
  · rw [Bool.not_eq_true] at hs
    rw [lastRescued_opened hg hc hs, lastRescued_opened hg hc hs, rescued_congr h]

end Gc

namespace Host

variable {μ δ : Type}

lemma runPass_of_isShutdown {env : Environment μ δ} {s : Host μ δ} (hs : s.gc.isShutdown = true)
    (fresh : Option UInt64) : (runPass env fresh).run s = .ok 0 s := by
  simp [runPass, Gc.openPass_of_isShutdown hs]

/-- Two passes have freed the same objects and rescued as many. -/
structure SameOutcome (before : Gc δ) (n : Nat) (g : Gc δ) (n' : Nat) (g' : Gc δ) : Prop where
  count_eq : n = n'
  lastRescued_eq : g.collector.lastRescued = g'.collector.lastRescued
  isTracked_iff : ∀ a, before.collector.isTracked a = true →
    (g.collector.isTracked a = true ↔ g'.collector.isTracked a = true)

/-- Which objects a pass frees depends on the root words as a set. -/
lemma Passes.sameOutcome {μ' : Type} {env : Environment μ δ} {env' : Environment μ' δ}
    {fresh : Option UInt64} {roots roots' : List UInt64} {s t : Host μ δ} {s' t' : Host μ' δ}
    {n n' : Nat} (h : Passes env fresh roots s n t) (h' : Passes env' fresh roots' s' n' t')
    (hs : s.gc.Partitioned) (hc : s.gc.collector.collecting = false) (hgc : s'.gc = s.gc)
    (hroots : ∀ w, w ∈ roots ↔ w ∈ roots') : SameOutcome s.gc n t.gc n' t'.gc := by
  by_cases hsd : s.gc.isShutdown = true
  · have hrun := h.run_eq.symm.trans (runPass_of_isShutdown hsd fresh)
    have hrun' := h'.run_eq.symm.trans (runPass_of_isShutdown (hgc ▸ hsd) fresh)
    cases hrun
    cases hrun'
    exact ⟨rfl, by rw [hgc], fun a _ => by rw [hgc]⟩
  rw [Bool.not_eq_true] at hsd
  obtain ⟨hcount, hrescued, hkept⟩ := h.frees hs hc hsd
  obtain ⟨hcount', hrescued', hkept'⟩ := h'.frees (hgc ▸ hs) (hgc ▸ hc) (hgc ▸ hsd)
  rw [hgc] at hcount' hrescued' hkept'
  constructor
  case count_eq => rw [hcount, hcount', Gc.doomed_congr hroots]
  case lastRescued_eq => rw [hrescued, hrescued', Gc.rescued_congr hroots]
  case isTracked_iff =>
    intro a ha
    rw [hkept a ha, hkept' a ha, Gc.doomed_congr hroots]

end Host

namespace Machine

open Host World

variable {δ : Type}

/-- Roots only save: with more root words a pass, explicit or automatic, leaves fewer objects in the
working table. With the same words it leaves the same ones, rescues as many, and if it returns it
has freed the same ones, whatever its destructors have done. -/
theorem roots_only_save {m : Machine δ} (hm : m.Reachable)
    (hc : m.gc.collector.collecting = false) (fresh : Option UInt64) {roots roots' : List UInt64}
    (hsub : ∀ w ∈ roots, w ∈ roots') :
    (∀ a, a ∈ (m.gc.opened fresh roots').collector.working →
      a ∈ (m.gc.opened fresh roots).collector.working) ∧
    ((∀ w ∈ roots', w ∈ roots) →
      (∀ a, a ∈ (m.gc.opened fresh roots').collector.working ↔
        a ∈ (m.gc.opened fresh roots).collector.working) ∧
      (m.gc.opened fresh roots').collector.lastRescued =
        (m.gc.opened fresh roots).collector.lastRescued ∧
      ∀ {μ μ' : Type} {env : Environment μ δ} {env' : Environment μ' δ} {s t : Host μ δ}
        {s' t' : Host μ' δ} {n n' : Nat}, s.gc = m.gc → s'.gc = m.gc →
        Passes env fresh roots s n t → Passes env' fresh roots' s' n' t' →
        SameOutcome m.gc n t.gc n' t'.gc) := by
  have hg := hm.partitioned
  refine ⟨fun a => Gc.working_opened_antitone hg hc hsub, fun hsub' => ?_⟩
  have hsame (w : UInt64) : w ∈ roots ↔ w ∈ roots' := ⟨hsub w, hsub' w⟩
  refine ⟨fun a => ?_, Gc.lastRescued_opened_congr hg hc hsame, ?_⟩
  · exact ⟨Gc.working_opened_antitone hg hc hsub, Gc.working_opened_antitone hg hc hsub'⟩
  · intro μ μ' env env' s t s' t' n n' hgc hgc' h h'
    exact hgc ▸ h.sameOutcome h' (hgc ▸ hg) (hgc ▸ hc) (hgc'.trans hgc.symm) hsame

/-- The cluttered client with other words in its root bag. -/
def rooting (roots : List UInt64) : World :=
  { cluttered with client := { cluttered.client with bag := ⟨roots⟩ } }

/-- The words of the bag are the client's: its collector is the same. -/
lemma gc_rooting (roots : List UInt64) : (rooting roots).gc = cluttered.gc := rfl

/-- A pass of such a client that comes to its end is one with the words of the bag as roots. -/
lemma passes_rooting (roots : List UInt64)
    (hreturns : halt (runPass scripts none) (rooting roots) = none) :
    ∃ n w, Passes scripts none roots (rooting roots) n w := by
  have hscanner : cluttered.gc.scanner = .explicit := by decide +kernel
  have hscan : scripts.scan (rooting roots).client (rooting roots).gc.scanner = some roots := by
    simp [World.environment, rooting, Scanner.scan, Scanner.scannable, hscanner]
  have hpart : (rooting roots).gc.Partitioned := reachable_cluttered.partitioned
  have hb : (rooting roots).gc.collector.heap.Bounded := bounded_cluttered
  obtain ⟨n, w, hr⟩ := halt_eq_none_iff.1 hreturns
  exact ⟨n, w, passes_of_returns (World.records_runDestructor .main) hpart hb hscan hr⟩

/-- A word that names one of two objects that refer to one another keeps both and lets the unused
object die. With a word for that one too none of the three dies, however often the words come. -/
theorem roots_only_save_cluttered :
    Reachable ⟨cluttered.gc, []⟩ ∧ cluttered.gc.collector.collecting = false ∧
    (0x100000f0 ∈ (cluttered.gc.opened none []).collector.working ∧
      0x100000f0 ∉ (cluttered.gc.opened none [0x100000b0]).collector.working ∧
      0x10000070 ∈ (cluttered.gc.opened none [0x100000b0]).collector.working ∧
      ∀ a, a ∈ (cluttered.gc.opened none [0x100000b0]).collector.working →
        a ∈ (cluttered.gc.opened none []).collector.working) ∧
    ∃ n t n' t',
      Passes scripts none [0x10000070, 0x100000b0] (rooting [0x10000070, 0x100000b0]) n t ∧
      Passes scripts none [0x100000b0, 0x10000070, 0x100000b0]
        (rooting [0x100000b0, 0x10000070, 0x100000b0]) n' t' ∧
      SameOutcome cluttered.gc n t.gc n' t'.gc := by
  have h := reachable_cluttered
  have hc : cluttered.gc.collector.collecting = false := by decide +kernel
  have hmore : ∀ w ∈ ([] : List UInt64), w ∈ [0x100000b0] := by simp
  have hsame : ∀ w ∈ ([0x10000070, 0x100000b0] : List UInt64),
      w ∈ [0x100000b0, 0x10000070, 0x100000b0] := by simp
  obtain ⟨hless, -⟩ := roots_only_save h hc none hmore
  obtain ⟨-, hagain⟩ := roots_only_save h hc none hsame
  obtain ⟨-, -, houtcome⟩ := hagain (by simp)
  obtain ⟨n, t, hpass⟩ := passes_rooting [0x10000070, 0x100000b0] (by decide +kernel)
  obtain ⟨n', t', hpass'⟩ :=
    passes_rooting [0x100000b0, 0x10000070, 0x100000b0] (by decide +kernel)
  exact ⟨h, hc, ⟨by decide +kernel, by decide +kernel, by decide +kernel, hless⟩, n, t, n', t',
    hpass, hpass', houtcome (gc_rooting _) (gc_rooting _) hpass hpass'⟩

end Machine

end HybridGC
