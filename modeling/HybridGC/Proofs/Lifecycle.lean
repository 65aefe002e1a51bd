import HybridGC.Proofs.Clients

/-!
# The life of an object

An object is created, and some pass or teardown may doom it. Its destructor is then called, if it
has one, and its block is freed with those of all that were doomed with it. What keeps a destructor
from being called again is that nothing opens while the collector is busy, and a collector stays
busy after a pass or a teardown is abandoned: what that has doomed is never freed.
-/

namespace HybridGC

namespace Machine

variable {δ : Type} {m m' : Machine δ} {e : Event δ} {es : History δ}

/-- The history of a machine agrees with what is owed: an object that is not being collected has not
been destroyed, and one that is either has been, or its destructor is owed once. -/
structure Accounted (m : Machine δ) (es : History δ) : Prop where
  solo : m.Solo
  calls_le_one : ∀ a, es.calls a ≤ 1
  calls_of_not_mem : ∀ a, m.gc.collector.isTracked a = true → a ∉ m.gc.collector.working →
    es.calls a = 0
  nodup_owed : (m.owed.map Prod.fst).Nodup
  of_mem_owed : ∀ a d, (a, d) ∈ m.owed → a ∈ m.gc.collector.working ∧
    m.gc.collector.heap.destructor? a = some d ∧ es.calls a = 0
  owed_or_called : m.frames ≠ [] → ∀ a ∈ m.gc.collector.working, ∀ d,
    m.gc.collector.heap.destructor? a = some d → (a, d) ∈ m.owed ∨ es.calls a = 1
  mem_doomed : m.frames ≠ [] → ∀ a, a ∈ es.doomed ↔ a ∈ m.gc.collector.working
  of_mem_left : ∀ a ∈ es.left, a ∈ m.gc.collector.working ∧ m.frames = [] ∧
    m.gc.isBusy = true

namespace Accounted

lemma start (config : Config) (scanner : Scanner) :
    Accounted (⟨Gc.start config scanner, []⟩ : Machine δ) [] where
  solo := .start config scanner
  calls_le_one _ := Nat.zero_le 1
  calls_of_not_mem _ _ _ := rfl
  nodup_owed := List.nodup_nil
  of_mem_owed _ _ h := by simp [owed] at h
  owed_or_called h := absurd rfl h
  mem_doomed h := absurd rfl h
  of_mem_left _ h := by simp [History.left] at h

/-- What shows nothing in the history moves nothing into or out of what is being collected, so the
accounts stay as they are. -/
lemma quietly (h : m.Accounted es) (hq : m.Quietly m') : m'.Accounted es := by
  have hsolo := h.solo.quietly hq
  obtain ⟨-, hf, hquiet⟩ := hq
  have howed : m'.owed = m.owed := by rw [owed, hf, owed]
  constructor
  case solo => exact hsolo
  case calls_le_one => exact h.calls_le_one
  case calls_of_not_mem =>
    intro a ha hw
    exact h.calls_of_not_mem a ((hquiet.isTracked_iff a).1 ha) (mt (hquiet.mem_working a).2 hw)
  case nodup_owed => exact howed ▸ h.nodup_owed
  case of_mem_owed =>
    intro a d ha
    rw [hquiet.mem_working, hquiet.destructor?_eq]
    exact h.of_mem_owed a d (howed ▸ ha)
  case owed_or_called =>
    intro hf' a ha d hd
    rw [hquiet.mem_working] at ha
    rw [hquiet.destructor?_eq] at hd
    rw [howed]
    exact h.owed_or_called (hf ▸ hf') a ha d hd
  case mem_doomed =>
    intro hf' a
    rw [hquiet.mem_working]
    exact h.mem_doomed (hf ▸ hf') a
  case of_mem_left =>
    intro a ha
    obtain ⟨hw, hnil, hb⟩ := h.of_mem_left a ha
    exact ⟨(hquiet.mem_working a).2 hw, hf.trans hnil, hquiet.isBusy hb⟩

/-- A fresh object has not been destroyed, and its address was that of no object there was. -/
lemma created {g : Gc δ} {fs : List (Frame δ)} {c : Collector δ} {size : Nat} {d : Option δ}
    {a : UInt64} (h : Accounted ⟨g, fs⟩ es) (hsolo : Solo ⟨{ g with collector := c }, fs⟩)
    (hc : g.collector.Created c size d a) :
    Accounted ⟨{ g with collector := c }, fs⟩ (.created a d :: es) := by
  -- the address was in no table, so what is being collected is something else
  have hne {b : UInt64} (hb : b ∈ g.collector.working) : b ≠ a := by
    rintro rfl
    exact hc.not_mem .working hb
  have hcalls (b : UInt64) :
      History.calls b (.created a d :: es) = if b = a then 0 else es.calls b := by
    simp only [History.calls, eq_comm]
  constructor
  case solo => exact hsolo
  case calls_le_one =>
    intro b
    rw [hcalls]
    split_ifs
    · exact Nat.zero_le 1
    · exact h.calls_le_one b
  case calls_of_not_mem =>
    intro b hb hw
    rw [hcalls]
    split_ifs with hba
    · rfl
    · refine h.calls_of_not_mem b (((hc.isTracked_iff b).1 hb).resolve_left hba) ?_
      exact mt (hc.mem_working b).2 hw
  case nodup_owed => exact h.nodup_owed
  case of_mem_owed =>
    intro b d' hb
    obtain ⟨hw, hd, hb⟩ := h.of_mem_owed b d' hb
    rw [hcalls, if_neg (hne hw), hc.destructor?_eq, if_neg (hne hw), hc.mem_working]
    exact ⟨hw, hd, hb⟩
  case owed_or_called =>
    intro hf b hb d' hd
    rw [hc.mem_working] at hb
    rw [hc.destructor?_eq, if_neg (hne hb)] at hd
    rw [hcalls, if_neg (hne hb)]
    exact h.owed_or_called hf b hb d' hd
  case mem_doomed =>
    intro hf b
    rw [hc.mem_working]
    exact h.mem_doomed hf b
  case of_mem_left =>
    intro b hb
    obtain ⟨hw, hf, hbusy⟩ := h.of_mem_left b hb
    exact ⟨(hc.mem_working b).2 hw, hf, (Gc.isBusy_created hc).trans hbusy⟩

/-- What is doomed was not being collected before, so its destructor has not been called. -/
lemma opened {g g' : Gc δ} {fs : List (Frame δ)} {u : Undertaking} {pending : List (UInt64 × δ)}
    (h : Accounted ⟨g, fs⟩ es) (hsolo : Solo ⟨g', ⟨u, pending⟩ :: fs⟩)
    (hdooms : g.Dooms g' pending) :
    Accounted ⟨g', ⟨u, pending⟩ :: fs⟩ (.opened u g'.collector.working.toFinset :: es) := by
  obtain rfl := hsolo.eq_nil
  -- nothing is being collected while the collector is idle, so no destructor of a tracked object
  -- has been called
  have hcalls {a : UInt64} (ha : g'.collector.isTracked a = true) : es.calls a = 0 :=
    h.calls_of_not_mem a ((hdooms.isTracked_iff a).1 ha)
      (h.solo.partitioned.idle hdooms.idle.1 hdooms.idle.2 a)
  have htracked {a : UInt64} (ha : a ∈ g'.collector.working) : g'.collector.isTracked a = true :=
    Partitions.isTracked_iff.2 ⟨.working, ha⟩
  have howed : owed ⟨g', [⟨u, pending⟩]⟩ = g'.collector.pendingDestructors := by
    simp [owed, hdooms.owed_eq]
  constructor
  case solo => exact hsolo
  case calls_le_one => exact h.calls_le_one
  case calls_of_not_mem => exact fun a ha _ => hcalls ha
  case nodup_owed =>
    rw [howed]
    exact g'.collector.nodup_pendingDestructors
  case of_mem_owed =>
    intro a d ha
    rw [howed, Collector.mem_pendingDestructors] at ha
    exact ⟨ha.1, ha.2, hcalls (htracked ha.1)⟩
  case owed_or_called =>
    intro _ a ha d hd
    rw [howed, Collector.mem_pendingDestructors]
    exact .inl ⟨ha, hd⟩
  case mem_doomed => exact fun _ a => Table.mem_toFinset
  case of_mem_left =>
    intro a ha
    have hb := (h.of_mem_left a ha).2.2
    rw [hdooms.not_isBusy] at hb
    exact absurd hb (by decide)

/-- The destructor that is called is owed, once. -/
lemma called {g : Gc δ} {fs : List (Frame δ)} {u : Undertaking} {a : UInt64} {d : δ}
    {rest : List (UInt64 × δ)} (h : Accounted ⟨g, ⟨u, (a, d) :: rest⟩ :: fs⟩ es) :
    Accounted ⟨after (Gc.note (.destroying a)) g, ⟨u, rest⟩ :: fs⟩ (.called a d :: es) := by
  obtain rfl := h.solo.eq_nil
  have howed : owed ⟨g, [⟨u, (a, d) :: rest⟩]⟩ = (a, d) :: rest := by simp [owed]
  have hrest : owed ⟨after (Gc.note (.destroying a)) g, [⟨u, rest⟩]⟩ = rest := by simp [owed]
  obtain ⟨hw, hd, hzero⟩ := h.of_mem_owed a d (by simp [howed])
  have hnodup := h.nodup_owed
  rw [howed, List.map_cons, List.nodup_cons] at hnodup
  -- the destructor is owed, so none of the object has been called yet
  have hcalls (b : UInt64) :
      History.calls b (.called a d :: es) = if b = a then 1 else es.calls b := by
    simp only [History.calls]
    by_cases hba : b = a
    · simp [hba, hzero]
    · simp [hba, Ne.symm hba]
  constructor
  case solo => exact h.solo.shows (.called g [] u (a, d) rest)
  case calls_le_one =>
    intro b
    rw [hcalls]
    split_ifs
    · exact le_rfl
    · exact h.calls_le_one b
  case calls_of_not_mem =>
    intro b hb hbw
    rw [hcalls, if_neg]
    · exact h.calls_of_not_mem b hb hbw
    · rintro rfl
      exact hbw hw
  case nodup_owed =>
    rw [hrest]
    exact hnodup.2
  case of_mem_owed =>
    intro b d' hb
    rw [hrest] at hb
    rw [hcalls, if_neg]
    · exact h.of_mem_owed b d' (by simp [howed, hb])
    · rintro rfl
      exact hnodup.1 (List.mem_map.2 ⟨_, hb, rfl⟩)
  case owed_or_called =>
    intro _ b hb d' hd'
    rw [hrest, hcalls]
    split_ifs with hba
    · exact .inr rfl
    · refine (h.owed_or_called (by simp) b hb d' hd').imp_left fun hmem => ?_
      rw [howed] at hmem
      exact (List.mem_cons.1 hmem).resolve_left fun heq => hba (congrArg Prod.fst heq)
  case mem_doomed => exact fun _ => h.mem_doomed (by simp)
  case of_mem_left => exact fun b hb => absurd (h.of_mem_left b hb).2.1 (by simp)

/-- What is swept leaves nothing that is being collected. -/
lemma swept {g : Gc δ} {c : Collector δ} {fs : List (Frame δ)} {u : Undertaking}
    {freed : Finset UInt64} (h : Accounted ⟨g, ⟨u, []⟩ :: fs⟩ es)
    (hsolo : Solo ⟨{ g with collector := c }, fs⟩) (hc : g.collector.Swept c) :
    Accounted ⟨{ g with collector := c }, fs⟩ (.closed u freed :: es) := by
  obtain rfl := h.solo.eq_nil
  constructor
  case solo => exact hsolo
  case calls_le_one => exact h.calls_le_one
  case calls_of_not_mem =>
    intro a ha _
    obtain ⟨ha, hw⟩ := (hc.isTracked_iff h.solo.partitioned.collector.disjoint a).1 ha
    exact h.calls_of_not_mem a ha hw
  case nodup_owed => exact List.nodup_nil
  case of_mem_owed => exact fun a d ha => by simp [owed] at ha
  case owed_or_called => exact fun hf => absurd rfl hf
  case mem_doomed => exact fun hf => absurd rfl hf
  case of_mem_left => exact fun a ha => absurd (h.of_mem_left a ha).2.1 (by simp)

/-- What is abandoned leaves the collector busy with all that is being collected. -/
lemma abandoned {g : Gc δ} {f : Frame δ} {fs : List (Frame δ)} (h : Accounted ⟨g, f :: fs⟩ es) :
    Accounted ⟨g, fs⟩ (.abandoned f.undertaking :: es) := by
  obtain rfl := h.solo.eq_nil
  constructor
  case solo => exact h.solo.shows (.abandoned g f [])
  case calls_le_one => exact h.calls_le_one
  case calls_of_not_mem => exact h.calls_of_not_mem
  case nodup_owed => exact List.nodup_nil
  case of_mem_owed => exact fun a d ha => by simp [owed] at ha
  case owed_or_called => exact fun hf => absurd rfl hf
  case mem_doomed => exact fun hf => absurd rfl hf
  case of_mem_left =>
    intro a ha
    refine ⟨?_, rfl, h.solo.isBusy (by simp)⟩
    rcases Finset.mem_union.1 ha with hdoomed | hleft
    · exact (h.mem_doomed (by simp) a).1 hdoomed
    · exact (h.of_mem_left a hleft).1

/-- The step: whatever shows itself in the history keeps the accounts. -/
lemma shows (h : m.Accounted es) (hs : m.Shows e m') : m'.Accounted (e :: es) := by
  have hsolo := h.solo.shows hs
  cases hs.effect h.solo.partitioned with
  | created fs _ hc => exact h.created hsolo hc
  | opened fs u hdooms => exact h.opened hsolo hdooms
  | called g fs u x rest => exact h.called
  | closed fs u hc => exact h.swept hsolo hc
  | abandoned g f fs => exact h.abandoned

end Accounted

/-- The run: every history agrees with what is owed. -/
lemma HasHistory.accounted (h : m.HasHistory es) : m.Accounted es :=
  h.induction .start (fun _ => Accounted.quietly) fun _ => Accounted.shows

/-! ### Destructors and freed blocks -/

/-- What is being collected is tracked, labelled so, and not freed. -/
lemma Solo.of_mem_working (hm : m.Solo) {a : UInt64} (ha : a ∈ m.gc.collector.working) :
    m.gc.collector.isTracked a = true ∧ m.gc.collector.heap.state? a = some .working ∧
      m.gc.collector.heap.Live a :=
  ⟨Partitions.isTracked_iff.2 ⟨.working, ha⟩,
    hm.partitioned.collector.labelled (p := .working) ha,
    hm.partitioned.collector.live (p := .working) ha⟩

/-- A destructor is called in its turn, while all that was doomed with its object is there. -/
lemma Accounted.of_called (h : m.Accounted es) {a : UInt64} {d : δ}
    (hs : m.Shows (.called a d) m') :
    es.calls a = 0 ∧ m.gc.collector.heap.destructor? a = some d ∧ a ∈ es.doomed ∧
      ∀ b ∈ es.doomed, m.gc.collector.isTracked b = true ∧
        m.gc.collector.heap.state? b = some .working ∧ m.gc.collector.heap.Live b := by
  cases hs.effect h.solo.partitioned with
  | called g fs u x rest =>
    obtain ⟨hw, hd, hzero⟩ := h.of_mem_owed x.1 x.2 (by simp [owed])
    refine ⟨hzero, hd, (h.mem_doomed (by simp) x.1).2 hw, fun b hb => ?_⟩
    exact h.solo.of_mem_working ((h.mem_doomed (by simp) b).1 hb)

/-- A step that frees a block sweeps, and then no destructor is owed. -/
lemma Step.swept (h : Step m m') (hm : m.gc.Partitioned) {a : UInt64}
    (hl : m.gc.collector.heap.Live a) (hnot : ¬ m'.gc.collector.heap.Live a) :
    a ∈ m.gc.collector.working ∧ ∃ u fs, m.frames = ⟨u, []⟩ :: fs := by
  rcases h.shows hm with hq | ⟨e, hs⟩
  · exact absurd ((hq.quiet.live_iff a).2 hl) hnot
  -- only a sweep takes blocks out of the heap
  cases hs.effect hm with
  | created fs _ hc => exact absurd ((hc.live_iff a).2 (.inr hl)) hnot
  | opened fs u hdooms => exact absurd ((hdooms.sameObjects.live_iff a).2 hl) hnot
  | called | abandoned => exact absurd hl hnot
  | closed fs u hc =>
    refine ⟨?_, u, fs, rfl⟩
    by_contra ha
    exact hnot ((hc.live_iff a).2 ⟨ha, hl⟩)

/-- When a block with a destructor is freed, the destructor has been called: nothing is owed any
more, and what is swept was doomed. -/
lemma Accounted.of_freed (h : m.Accounted es) (hs : Step m m') {a : UInt64} {d : δ}
    (hd : m.gc.collector.heap.destructor? a = some d) (hl : m.gc.collector.heap.Live a)
    (hnot : ¬ m'.gc.collector.heap.Live a) : es.calls a = 1 := by
  obtain ⟨ha, u, fs, hf⟩ := hs.swept h.solo.partitioned hl hnot
  obtain ⟨g, fs'⟩ := m
  obtain rfl : fs' = ⟨u, []⟩ :: fs := hf
  obtain rfl := h.solo.eq_nil
  refine (h.owed_or_called (by simp) a ha d hd).resolve_left ?_
  simp [owed]

/-- In a run, the destructor of each object is called once at most. When it is called, the object
and all that was doomed with it are tracked, being collected and not freed. A block with a
destructor is freed only after the destructor was called, and what an abandoned pass or teardown has
doomed is never freed. A session is such a run, and its client records the destructors that are called. -/
theorem destructors_called_once :
    (∀ {δ : Type} {m : Machine δ} {es : History δ}, m.HasHistory es →
      (∀ a, es.calls a ≤ 1) ∧
      (∀ a d m', m.Shows (.called a d) m' →
        es.calls a = 0 ∧ m.gc.collector.heap.destructor? a = some d ∧ a ∈ es.doomed ∧
        ∀ b ∈ es.doomed, m.gc.collector.isTracked b = true ∧
          m.gc.collector.heap.state? b = some .working ∧ m.gc.collector.heap.Live b) ∧
      (∀ a d m', Step m m' → m.gc.collector.heap.destructor? a = some d →
        m.gc.collector.heap.Live a → ¬ m'.gc.collector.heap.Live a → es.calls a = 1) ∧
      ∀ a ∈ es.left, m.gc.collector.isTracked a = true ∧ m.gc.collector.heap.Live a) ∧
    ∀ calls config scanner, ∃ es,
      HasHistory ⟨(World.run calls (World.start config scanner)).2.gc, []⟩ es ∧
      es.called = World.destroyed (World.run calls (World.start config scanner)).2.client := by
  constructor
  · intro δ m es h
    have hm := h.accounted
    refine ⟨hm.calls_le_one, fun a d m' => hm.of_called, fun a d m' hs => hm.of_freed hs, ?_⟩
    intro a ha
    obtain ⟨htracked, -, hlive⟩ := hm.solo.of_mem_working (hm.of_mem_left a ha).1
    exact ⟨htracked, hlive⟩
  · intro calls config scanner
    obtain ⟨es, h, -, hcalled⟩ := World.hasHistory_run calls config scanner
    exact ⟨es, h, hcalled⟩

/-- Three destructors call back during one pass, and each is called once. -/
theorem destructors_called_once_tidied :
    ∃ es, HasHistory ⟨World.tidied.gc, []⟩ es ∧ es.called = [0x100000f0, 0x100000b0, 0x10000070] ∧
      (∀ a, es.calls a ≤ 1) ∧ ∀ a ∈ es.left, World.tidied.gc.collector.heap.Live a := by
  obtain ⟨hruns, hsessions⟩ := destructors_called_once
  obtain ⟨es, h, hcalled⟩ : ∃ es, HasHistory ⟨World.tidied.gc, []⟩ es ∧
      es.called = World.destroyed World.tidied.client := by
    rw [World.tidied]
    exact hsessions World.tidying {} .explicit
  obtain ⟨hcalls, -, -, hleft⟩ := hruns h
  have hdestroyed : World.destroyed World.tidied.client =
      [0x100000f0, 0x100000b0, 0x10000070] := by decide +kernel
  exact ⟨es, h, hcalled.trans hdestroyed, hcalls, fun a ha => (hleft a ha).2⟩

end Machine

end HybridGC
