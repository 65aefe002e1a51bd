import HybridGC.Proofs.Counts

/-!
# What destructors drop

Destructors that drop each pointer in the payloads of their objects once, and do nothing else, drop
no more references than are counted. So they all return, and when their pass is closed, what is
counted is what the remaining payloads hold.
-/

namespace HybridGC

namespace Host

open Machine

variable {μ δ α : Type} {env : Environment μ δ} {calm : μ → Prop} {s : Host μ δ}
variable {a : UInt64} {d : δ}

lemma run_forM_onGc (op : α → Faulting (Gc δ) Unit) (xs : List α) (s : Host μ δ) :
    (xs.forM fun x => onGc (op x)).run s = (onGc (xs.forM op)).run s := by
  induction xs generalizing s with
  | nil => rfl
  | cons x xs ih =>
    rw [run_forM_cons, run_onGc, run_onGc, run_forM_cons]
    cases hr : (op x).run s.gc with
    | ok _ g => exact ih { s with gc := g }
    | error f g => rfl

/-! ### Destructors -/

/-- The destructor of an object drops each word of a payload that is not null once, in some order,
and does nothing else to the collector. Some property of the client is kept. -/
def Environment.Drops (env : Environment μ δ) (calm : μ → Prop) (a : UInt64) (d : δ)
    (words : List UInt64) : Prop :=
  ∀ s : Host μ δ, calm s.client → s.gc.Partitioned → s.gc.collector.heap.words a = words →
    ∃ ws : List UInt64, (∀ v, v ≠ 0 → ws.count v = words.count v) ∧
      ∀ g, (ws.forM Gc.delref).run s.gc = .ok () g →
        ∃ c, calm c ∧ (env.destroy a d).run s = .ok () ⟨c, g⟩

/-- A destructor drops the words of its object's payload. -/
lemma destroy_dropped (hdrops : env.Drops calm a d (s.gc.collector.heap.words a))
    (hcalm : calm s.client) (hs : s.gc.Partitioned) (hsd : s.gc.isShutdown = false)
    (hws : ∀ v, v ≠ 0 → (s.gc.collector.heap.words a).count v ≤ s.gc.count v) :
    ∃ s', (onGc (Gc.note (.destroying a)) >>= fun _ => env.destroy a d).run s = .ok () s' ∧
      calm s'.client ∧ s.gc.Dropped s'.gc (s.gc.collector.heap.words a) ∧
      Steps ⟨after (Gc.note (.destroying a)) s.gc, []⟩ ⟨s'.gc, []⟩ := by
  have hnote := Gc.note_dropped hs (.destroying a)
  obtain ⟨ws, hcount, hdestroy⟩ := hdrops
    { s with gc := after (Gc.note (.destroying a)) s.gc } hcalm hnote.partitioned rfl
  obtain ⟨g, hr, hdropped, hsteps⟩ := Gc.delrefs_dropped ws
    (g := after (Gc.note (.destroying a)) s.gc) hnote.partitioned hsd (fun v hv => by
      rw [hcount v hv]
      exact hws v hv)
  obtain ⟨c, hc, hrun⟩ := hdestroy g hr
  exact ⟨⟨c, g⟩, hrun, hc, hnote.trans (hdropped.of_count hcount), hsteps⟩

/-- Destructors drop the words of the payloads of their objects. -/
lemma destroyAll_dropped (u : Undertaking) (pending : List (UInt64 × δ)) {s : Host μ δ}
    (hdrops : ∀ x ∈ pending, env.Drops calm x.1 x.2 (s.gc.collector.heap.words x.1))
    (hcalm : calm s.client) (hs : s.gc.Partitioned) (hsd : s.gc.isShutdown = false)
    (hws : ∀ v, v ≠ 0 →
      (pending.flatMap fun x => s.gc.collector.heap.words x.1).count v ≤ s.gc.count v) :
    ∃ s', (destroyAll env pending).run s = .ok () s' ∧ calm s'.client ∧
      s.gc.Dropped s'.gc (pending.flatMap fun x => s.gc.collector.heap.words x.1) ∧
      Steps ⟨s.gc, [⟨u, pending⟩]⟩ ⟨s'.gc, [⟨u, []⟩]⟩ := by
  induction pending generalizing s with
  | nil => exact ⟨s, rfl, hcalm, .refl hs, .refl⟩
  | cons x pending ih =>
    obtain ⟨a, d⟩ := x
    simp only [List.flatMap_cons] at hws ⊢
    obtain ⟨s₁, hr, hcalm₁, hdropped, hsteps⟩ :=
      destroy_dropped (a := a) (d := d) (hdrops _ List.mem_cons_self) hcalm hs hsd (fun v hv => by
        have := hws v hv
        rw [List.count_append] at this
        omega)
    -- the words of the remaining payloads are what they were, and what has been dropped leaves
    -- enough counted for them
    obtain ⟨s₂, hr', hcalm₂, hdropped', hsteps'⟩ := ih (s := s₁)
      (fun x hx => by
        rw [hdropped.words_eq]
        exact hdrops x (List.mem_cons_of_mem _ hx))
      hcalm₁ hdropped.partitioned (hdropped.isShutdown_eq.trans hsd) (fun v hv => by
        have := hws v hv
        have hadd := hdropped.add_count v hv
        rw [List.count_append] at this
        simp only [hdropped.words_eq]
        omega)
    simp only [hdropped.words_eq] at hdropped'
    refine ⟨s₂, ?_, hcalm₂, hdropped.trans hdropped', ?_⟩
    · rw [destroyAll, run_forM_cons, hr]
      exact hr'
    · exact .head (.destroy s.gc [] u (a, d) pending)
        ((hsteps.append [⟨u, pending⟩]).trans hsteps')

/-- The destructors a collector owes drop the words of all that it is collecting, if objects without
a destructor have no words. -/
lemma count_pendingDestructors {c : Collector δ}
    (hd : ∀ a ∈ c.working, c.heap.destructor? a = none → c.heap.words a = []) (v : UInt64) :
    (c.pendingDestructors.flatMap fun x => c.heap.words x.1).count v =
      ∑ x ∈ c.working.toFinset, (c.heap.words x).count v := by
  -- an object without a destructor adds no words, so it makes no difference that it is left out
  have h (as : List UInt64) (has : ∀ a ∈ as, a ∈ c.working) :
      (as.filterMap fun a => (c.heap.destructor? a).map (a, ·)).flatMap
        (fun x => c.heap.words x.1) = as.flatMap c.heap.words := by
    induction as with
    | nil => rfl
    | cons a as ih =>
      have ih := ih fun b hb => has b (List.mem_cons_of_mem a hb)
      cases hda : c.heap.destructor? a with
      | none => simp [hda, hd a (has a List.mem_cons_self) hda, ih]
      | some d => simp [hda, ih]
  rw [Collector.pendingDestructors, h _ fun _ => id, List.count_flatMap, Table.toFinset,
    List.sum_toFinset _ c.working.nodup_addresses]
  rfl

/-! ### Passes -/

/-- A pass that opens, and the destructors it owes, drop the words of the doomed payloads, if these
are counted and objects with words have destructors that drop them. -/
lemma released (hs : s.gc.Partitioned) (hc : s.gc.collector.collecting = false)
    (hsd : s.gc.isShutdown = false)
    (hcounted : ∀ v, v ≠ 0 → s.gc.wordsHolding s.gc.collector.tracked v ≤ s.gc.count v)
    (hnone : ∀ a, s.gc.collector.isTracked a = true →
      s.gc.collector.heap.destructor? a = none → s.gc.collector.heap.words a = [])
    (hdrops : ∀ a d, s.gc.collector.isTracked a = true →
      s.gc.collector.heap.destructor? a = some d →
      env.Drops calm a d (s.gc.collector.heap.words a))
    (hcalm : ∀ condemned, calm (env.beginRound condemned s.client)) (fresh : Option UInt64)
    (roots : List UInt64) :
    ∃ pass g s', (Gc.openPass fresh (some roots)).run s.gc = .ok (some pass) g ∧
      (destroyAll env pass.pending).run ⟨env.beginRound pass.condemned s.client, g⟩ =
        .ok () s' ∧
      calm s'.client ∧ s.gc.Released s'.gc (s.gc.doomed fresh roots) ∧
      Steps ⟨s.gc, []⟩ ⟨s'.gc, [⟨.pass, []⟩]⟩ := by
  obtain ⟨c, condemned, hrun, hopened, hworking, hopen⟩ :=
    Gc.openPass_doomed hs hc hsd fresh roots
  have htracked := hopen.isTracked_iff (hs.idle hc hsd)
  have hcount (v : UInt64) : Gc.count { s.gc with collector := c } v = s.gc.count v := by
    simp only [Gc.count, htracked, hopen.sameObjects.refs_eq]
  -- only words of doomed payloads are owed, and they are counted together with those of the
  -- payloads that are kept
  have hpending (v : UInt64) :
      (c.pendingDestructors.flatMap fun x => c.heap.words x.1).count v =
        s.gc.wordsHolding (s.gc.doomed fresh roots) v := by
    rw [count_pendingDestructors, hworking]
    · exact Gc.wordsHolding_congr (g := { s.gc with collector := c })
        (fun x _ => hopen.sameObjects.words_eq x) v
    · intro a ha
      rw [hopen.sameObjects.destructor?_eq, hopen.sameObjects.words_eq]
      apply hnone
      rw [← htracked, Partitions.isTracked_iff]
      exact ⟨.working, ha⟩
  obtain ⟨s', hdestroy, hcalm', hdropped, hsteps⟩ :=
    destroyAll_dropped .pass c.pendingDestructors
      (s := ⟨env.beginRound condemned s.client, { s.gc with collector := c }⟩)
      (fun x hx => by
        obtain ⟨hx, hd⟩ := Collector.mem_pendingDestructors.1 hx
        rw [hopen.sameObjects.destructor?_eq] at hd
        rw [hopen.sameObjects.words_eq]
        exact hdrops x.1 x.2 ((htracked x.1).1 (Partitions.isTracked_iff.2 ⟨.working, hx⟩)) hd)
      (hcalm condemned) hopened hsd
      (fun v hv => by
        have hsplit := s.gc.wordsHolding_sdiff_add (s.gc.doomed_subset_tracked fresh roots) v
        have := hcounted v hv
        simp only [hpending, hcount]
        omega)
  refine ⟨_, _, s', hrun, hdestroy, hcalm', ?_, ?_⟩
  · constructor
    case partitioned => exact hdropped.partitioned
    case toFinset_working =>
      rw [← hworking]
      ext a
      rw [Table.mem_toFinset, Table.mem_toFinset, hdropped.mem_working]
    case add_count =>
      intro v hv
      have hadd := hdropped.add_count v hv
      simp only [hpending, hcount] at hadd
      exact hadd
    case isTracked_iff => exact fun a => (hdropped.isTracked_iff a).trans (htracked a)
    case words_eq => exact fun a => (hdropped.words_eq a).trans (hopen.sameObjects.words_eq a)
    case destructor?_eq =>
      exact fun a => (hdropped.destructor?_eq a).trans (hopen.sameObjects.destructor?_eq a)
    case isShutdown_eq => exact hdropped.isShutdown_eq
    case config_eq => exact hdropped.config_eq
    case scanner_eq => exact hdropped.scanner_eq
  · have hstep := Machine.Step.openPass ⟨s.gc, []⟩ fresh (some roots)
    rw [perform, hrun] at hstep
    exact .head hstep hsteps

end Host

end HybridGC
