import HybridGC.Proofs.Misuse
import HybridGC.Proofs.Pass

/-!
# Hosts follow the machine

An operation that runs destructors is a run of the machine if each destructor is one: it opens a
frame, works off what the frame owes and closes it, or a destructor stops and leaves the frame. If
the client records its destructors, it records those that the run calls.
-/

namespace HybridGC

open Machine

variable {μ δ α β : Type}

lemma after_bind (act : Host.Act μ δ α) (f : α → Host.Act μ δ β) (s : Host μ δ) :
    after (act >>= f) s =
      match act.run s with
      | .ok x s' => after (f x) s'
      | .error _ s' => s' := by
  rw [after, EStateM.run_bind]
  cases act.run s <;> rfl

lemma after_of_ok {act : Host.Act μ δ α} {s s' : Host μ δ} {x : α} (h : act.run s = .ok x s') :
    after act s = s' := by
  rw [after, h]

lemma after_of_error {act : Host.Act μ δ α} {s s' : Host μ δ} {stop : Stop}
    (h : act.run s = .error stop s') : after act s = s' := by
  rw [after, h]

lemma Host.after_onGc (op : Faulting (Gc δ) α) (s : Host μ δ) :
    after (onGc op : Act μ δ α) s = { s with gc := after op s.gc } := by
  rw [after, after, run_onGc]
  cases op.run s.gc <;> rfl

lemma halt_bind (act : Host.Act μ δ α) (f : α → Host.Act μ δ β) (s : Host μ δ) :
    halt (act >>= f) s =
      match act.run s with
      | .ok x s' => halt (f x) s'
      | .error e _ => some e := by
  rw [halt, EStateM.run_bind]
  cases act.run s <;> rfl

lemma Host.halt_onGc (op : Faulting (Gc δ) α) (s : Host μ δ) :
    halt (onGc op : Act μ δ α) s = (halt op s.gc).map .unwinding := by
  rw [halt, halt, run_onGc]
  cases op.run s.gc <;> rfl

/-- The destructions of a round, one call at a time. A call that stops leaves the others unmade. -/
lemma Host.run_destroyAll_cons (env : Host.Environment μ δ) (a : UInt64) (d : δ)
    (pending : List (UInt64 × δ)) (s : Host μ δ) :
    (destroyAll env ((a, d) :: pending)).run s =
      match (env.destroy a d).run { s with gc := after (Gc.note (.destroying a)) s.gc } with
      | .ok _ s' => (destroyAll env pending).run s'
      | .error e s' => .error e s' := by
  have hbody : (onGc (Gc.note (.destroying a)) >>= fun _ => env.destroy a d).run s =
      (env.destroy a d).run { s with gc := after (Gc.note (.destroying a)) s.gc } := rfl
  rw [destroyAll, run_forM_cons]
  simp only [hbody]
  cases (env.destroy a d).run { s with gc := after (Gc.note (.destroying a)) s.gc } <;> rfl

/-! ### Pointers in slots -/

/-- If the new pointer is refused, the slot is not written and the old pointer is not dropped. -/
lemma Host.run_swapref_of_error {cell : Cell μ δ} {v : UInt64} {f : Fault} {g : Gc δ}
    {s : Host μ δ} (hr : (Gc.addref v).run s.gc = .error f g) :
    (swapref cell v).run s = .error (.unwinding f) { s with gc := g } := by
  simp [swapref, hr]

/-- If the new pointer is taken, the slot is written before the old pointer is dropped, so the slot
has it also when dropping stops. -/
lemma Host.run_swapref_of_ok {cell : Cell μ δ} {v x : UInt64} {g : Gc δ} {s : Host μ δ}
    (hr : (Gc.addref v).run s.gc = .ok x g) :
    (swapref cell v).run s =
      (onGc (Gc.delref (cell.read s)) : Act μ δ Unit).run (cell.write x { s with gc := g }) := by
  simp [swapref, hr]

/-! ### What one operation leads to -/

namespace Gc

variable {g : Gc δ}

/-- One operation leads from one collector to another, and the heap stays one in which blocks are
laid out one after the other. If it stops, it stops at the client's misuse. -/
def Leads (g : Gc δ) (stop : Option Fault) (g' : Gc δ) : Prop :=
  g.Partitioned → g.collector.heap.Bounded →
    Machine.Step ⟨g, []⟩ ⟨g', []⟩ ∧ g'.collector.heap.Bounded ∧ ∀ f ∈ stop, f.IsMisuse

namespace Leads

lemma addref (g : Gc δ) (a : UInt64) : g.Leads (halt (addref a) g) (after (addref a) g) :=
  fun hg hb => ⟨.addref g [] a, (Quiet.addref hg a).bounded hb, hg.stopsAtMisuse.addref a⟩

lemma delref (g : Gc δ) (a : UInt64) : g.Leads (halt (delref a) g) (after (delref a) g) :=
  fun hg hb => ⟨.delref g [] a, (Quiet.delref hg a).bounded hb, hg.stopsAtMisuse.delref a⟩

lemma note (g : Gc δ) (msg : Message) : g.Leads (halt (note msg) g) (after (note msg) g) :=
  fun _ hb => ⟨.note g [] msg, hb, fun _ hf => by cases hf⟩

lemma setThreshold (g : Gc δ) (n : Nat) :
    g.Leads (halt (setThreshold n) g) (after (setThreshold n) g) :=
  fun _ hb => ⟨.setThreshold g [] n, hb, fun _ hf => by cases hf⟩

lemma store {a w : UInt64} {offset : Nat} {heap : Heap δ}
    (hs : g.collector.heap.store? a offset w = some heap) :
    g.Leads none { g with collector := { g.collector with heap } } :=
  fun _ hb => ⟨.store g [] hs, (Quiet.store hs).bounded hb, fun _ hf => by cases hf⟩

/-- The heap's own allocator keeps the bound that makes it sound the next time. -/
lemma create (g : Gc δ) (size : Nat) (d : Option δ) :
    g.Leads (halt (create Heap.allocate size d) g) (after (create Heap.allocate size d) g) := by
  intro hg hb
  refine ⟨.create g [] hb.soundAt_allocate size d, ?_, fun f hf => ?_⟩
  · by_cases hs : g.isShutdown = true
    · rw [after, create_of_isShutdown hs]
      exact hb
    rw [Bool.not_eq_true] at hs
    cases ha : Heap.allocate g.collector.heap size d with
    | error e => rwa [after, create_of_error hs ha]
    | ok r =>
      obtain ⟨a, h⟩ := r
      obtain ⟨c, hr, hheap, -⟩ := create_created hg.collector hs hb.soundAt_allocate ha
      rw [after, hr]
      exact hheap ▸ (Heap.grants_allocate hb ha).2
  · obtain ⟨r, g', hr⟩ :=
      hg.stopsAtMisuse.create_eq_ok Heap.allocate hb.soundAt_allocate size d
    rw [halt_of_ok hr] at hf
    cases hf

end Leads

/-! ### Opening and closing -/

/-- Opening lays out no block. -/
lemma Dooms.bounded {g' : Gc δ} {owed : List (UInt64 × δ)} (h : g.Dooms g' owed)
    (hb : g.collector.heap.Bounded) : g'.collector.heap.Bounded :=
  hb.of_cursor_eq h.sameObjects.cursor_eq fun a => (h.sameObjects.live_iff a).1

/-- Whether or not a pass opens, blocks are still laid out one after the other. -/
lemma bounded_openPass (hg : g.Partitioned) (hb : g.collector.heap.Bounded)
    (fresh : Option UInt64) (scan : Option (List UInt64)) :
    (after (openPass fresh scan) g).collector.heap.Bounded := by
  rcases openPass_cases hg fresh scan with ⟨g', hr, hquiet⟩ | ⟨pass, g', hr, hdooms⟩
  · rw [after, hr]
    exact hquiet.bounded hb
  · rw [after, hr]
    exact hdooms.bounded hb

lemma bounded_scanStopped (hg : g.Partitioned) (hb : g.collector.heap.Bounded)
    (fresh : Option UInt64) (reported : List UInt64) :
    (after (scanStopped fresh reported) g).collector.heap.Bounded := by
  rcases scanStopped_cases hg fresh reported with hr | ⟨c, hr, -, hopen⟩
  · rwa [after, hr]
  · rw [after, hr]
    exact hb.of_cursor_eq hopen.sameObjects.cursor_eq fun a => (hopen.sameObjects.live_iff a).1

lemma bounded_beginTeardown (hg : g.Partitioned) (hb : g.collector.heap.Bounded) :
    (after beginTeardown g).collector.heap.Bounded := by
  rcases beginTeardown_cases hg with hr | ⟨f, g', hr, hquiet⟩ | ⟨owed, g', hr, hdooms, -⟩
  · rwa [after, hr]
  · rw [after, hr]
    exact hquiet.bounded hb
  · rw [after, hr]
    exact hdooms.bounded hb

/-- A busy collector opens no pass. -/
lemma Leads.openPass (hbusy : g.isBusy = true) (fresh : Option UInt64)
    (scan : Option (List UInt64)) : g.Leads none (after (openPass fresh scan) g) := by
  intro hg hb
  have hstep := Machine.Step.openPass ⟨g, []⟩ fresh scan
  rcases openPass_cases hg fresh scan with ⟨g', hr, hquiet⟩ | ⟨pass, g', hr, hdooms⟩
  · rw [perform, hr] at hstep
    rw [after, hr]
    exact ⟨hstep, hquiet.bounded hb, fun _ hf => by cases hf⟩
  · rw [hdooms.not_isBusy] at hbusy
    exact absurd hbusy (by decide)

/-- Nor does it begin a teardown. -/
lemma Leads.beginTeardown (hbusy : g.isBusy = true) :
    g.Leads (halt beginTeardown g) (after beginTeardown g) := by
  intro hg hb
  have hmisuse := hg.stopsAtMisuse.beginTeardown
  have hstep := Machine.Step.beginTeardown ⟨g, []⟩
  rcases beginTeardown_cases hg with hr | ⟨f, g', hr, hquiet⟩ | ⟨owed, g', hr, hdooms, -⟩
  · rw [perform, hr] at hstep
    rw [after, hr]
    exact ⟨hstep, hb, hmisuse⟩
  · rw [perform, hr] at hstep
    rw [after, hr]
    exact ⟨hstep, hquiet.bounded hb, hmisuse⟩
  · rw [hdooms.not_isBusy] at hbusy
    exact absurd hbusy (by decide)

/-- A sweep frees blocks and never gives their addresses out again, because the cursor stays. -/
lemma bounded_of_swept {c : Collector δ} (hb : g.collector.heap.Bounded)
    (h : g.collector.Swept c) : c.heap.Bounded :=
  hb.of_cursor_eq h.cursor_eq fun b hl => ((h.live_iff b).1 hl).2

end Gc

/-! ### Clients that record their destructors -/

namespace Host

variable {env : Environment μ δ} {log : μ → List UInt64} {begun : μ → Prop}
variable {s s' s₁ s₂ s₃ : Host μ δ}

/-- A run leads from one host to another, and the client has recorded the destructors that were
called. -/
def Recorded (log : μ → List UInt64) (s s' : Host μ δ) : Prop :=
  s.gc.Partitioned → s.gc.collector.heap.Bounded →
    ∃ es, Run ⟨s.gc, []⟩ es ⟨s'.gc, []⟩ ∧ s'.gc.collector.heap.Bounded ∧
      log s'.client = History.called es ++ log s.client

namespace Recorded

lemma refl (s : Host μ δ) : Recorded log s s :=
  fun _ hb => ⟨[], .refl, hb, rfl⟩

lemma trans (h : Recorded log s₁ s₂) (h' : Recorded log s₂ s₃) : Recorded log s₁ s₃ := by
  intro hs hb
  obtain ⟨es, hrun, hb, hlog⟩ := h hs hb
  obtain ⟨es', hrun', hb', hlog'⟩ := h' (hrun.steps.partitioned hs) hb
  refine ⟨es' ++ es, hrun.trans hrun', hb', ?_⟩
  rw [hlog', hlog, History.called_append, List.append_assoc]

/-- A single operation of an idle machine calls no destructor. -/
lemma of_leads {stop : Option Fault} {g : Gc δ} (h : s.gc.Leads stop g) :
    Recorded log s { s with gc := g } := by
  intro hs hb
  obtain ⟨hstep, hb', -⟩ := h hs hb
  obtain ⟨es, hrun, hcalled⟩ := hstep.exists_run hs rfl
  exact ⟨es, hrun, hb', by simp [hcalled]⟩

/-- What the client does to its own state is recorded if it leaves the log alone. -/
lemma of_client {c : μ} (h : log c = log s.client) : Recorded log s { s with client := c } :=
  fun _ hb => ⟨[], .refl, hb, h⟩

end Recorded

/-- A host whose destructors may run. -/
structure Destroying (begun : μ → Prop) (s : Host μ δ) : Prop where
  partitioned : s.gc.Partitioned
  bounded : s.gc.collector.heap.Bounded
  isBusy : s.gc.isBusy = true
  begun : begun s.client

/-- Destructors are runs, and once a round has begun the client records each. -/
structure Environment.Records (env : Environment μ δ) (log : μ → List UInt64)
    (begun : μ → Prop) : Prop where
  log_beginRound : ∀ condemned c, log (env.beginRound condemned c) = log c
  begun_beginRound : ∀ condemned c, begun (env.beginRound condemned c)
  destroy : ∀ a d s, Destroying begun s → ∃ es,
    Run ⟨s.gc, []⟩ es ⟨(after (env.destroy a d) s).gc, []⟩ ∧
    (after (env.destroy a d) s).gc.collector.heap.Bounded ∧
    log (after (env.destroy a d) s).client = a :: log s.client ∧
    begun (after (env.destroy a d) s).client

/-- Some of the destructors that were owed have been run. -/
structure Destroyed (log : μ → List UInt64) (s s' : Host μ δ)
    (done owed : List (UInt64 × δ)) : Prop where
  steps : Steps ⟨s.gc, []⟩ ⟨s'.gc, []⟩
  run : ∀ u, ∃ es, Run ⟨s.gc, [⟨u, done ++ owed⟩]⟩ es ⟨s'.gc, [⟨u, owed⟩]⟩ ∧
    es.called = (done.map Prod.fst).reverse
  bounded : s'.gc.collector.heap.Bounded
  log_eq : log s'.client = (done.map Prod.fst).reverse ++ log s.client

/-- One call and then the rest of the round. The host is busy, so the call itself can open nothing
and shows no other call. -/
lemma Destroyed.cons {done owed : List (UInt64 × δ)} {es : History δ} (a : UInt64) (d : δ)
    (hs : s₁.gc.Partitioned) (hbusy : s₁.gc.isBusy = true)
    (hrun : Run ⟨after (Gc.note (.destroying a)) s₁.gc, []⟩ es ⟨s₂.gc, []⟩)
    (hlog : log s₂.client = a :: log s₁.client) (h : Destroyed log s₂ s₃ done owed) :
    Destroyed log s₁ s₃ ((a, d) :: done) owed where
  steps := .head (.note s₁.gc [] (.destroying a)) (hrun.steps.trans h.steps)
  run u := by
    obtain ⟨-, -, hnone⟩ := hrun.busy (hs.note _) hbusy rfl
    obtain ⟨es', hrun', hcalled⟩ := h.run u
    refine ⟨_, .trans (.event .refl (.called s₁.gc [] u (a, d) (done ++ owed)))
      ((hrun.append [⟨u, done ++ owed⟩]).trans hrun'), ?_⟩
    simp [History.called, hnone, hcalled]
  bounded := h.bounded
  log_eq := by simp [h.log_eq, hlog]

/-- A round runs some of what is owed, in order, and all of it if it returns. Where it stops, the
call that stopped has been made. -/
lemma destroyed_destroyAll (henv : env.Records log begun) (pending : List (UInt64 × δ))
    (hs : Destroying begun s) :
    ∃ done owed, pending = done ++ owed ∧
      Destroyed log s (after (destroyAll env pending) s) done owed ∧
      ((∃ s', (destroyAll env pending).run s = .ok () s') → owed = []) := by
  -- on the destructors still owed; the invariant is `Destroying`, that the host is partitioned and
  -- busy
  induction pending generalizing s with
  | nil =>
    refine ⟨[], [], rfl, ?_, fun _ => rfl⟩
    exact ⟨.refl, fun u => ⟨[], .refl, rfl⟩, hs.bounded, rfl⟩
  | cons x pending ih =>
    obtain ⟨a, d⟩ := x
    obtain ⟨es, hrun, hb, hlog, hbegun⟩ := henv.destroy a d
      { s with gc := after (Gc.note (.destroying a)) s.gc }
      ⟨hs.partitioned.note _, hs.bounded, hs.isBusy, hs.begun⟩
    have hpart := hrun.steps.partitioned (hs.partitioned.note _)
    obtain ⟨hbusy, -, -⟩ := hrun.busy (hs.partitioned.note _) hs.isBusy rfl
    cases hr : (env.destroy a d).run { s with gc := after (Gc.note (.destroying a)) s.gc } with
    | ok _ s' =>
      rw [after_of_ok hr] at hrun hb hlog hbegun hpart hbusy
      obtain ⟨done, owed, rfl, hrest, howed⟩ := ih ⟨hpart, hb, hbusy, hbegun⟩
      rw [after] at hrest ⊢
      rw [run_destroyAll_cons, hr]
      exact ⟨(a, d) :: done, owed, rfl, hrest.cons a d hs.partitioned hs.isBusy hrun hlog, howed⟩
    | error e s' =>
      rw [after_of_error hr] at hrun hb hlog
      rw [after, run_destroyAll_cons, hr]
      refine ⟨[(a, d)], pending, rfl, ?_, ?_⟩
      · exact .cons a d hs.partitioned hs.isBusy hrun hlog
          ⟨.refl, fun u => ⟨[], .refl, rfl⟩, hb, rfl⟩
      · rintro ⟨_, h⟩
        simp at h

/-- Running the destructors that are owed and then closing what owes them. If a destructor stops,
nothing is closed. -/
lemma recorded_undertake {close : Faulting (Gc δ) β} (henv : env.Records log begun)
    (u : Undertaking) (pending : List (UInt64 × δ))
    (hclose : ∀ g : Gc δ, Machine.Step ⟨g, [⟨u, []⟩]⟩ ⟨after close g, []⟩)
    (hswept : ∀ g : Gc δ, g.collector.Swept (after close g).collector)
    (hs : Destroying begun s) :
    ∃ es, Run ⟨s.gc, [⟨u, pending⟩]⟩ es
        ⟨(after (destroyAll env pending >>= fun _ => onGc close) s).gc, []⟩ ∧
      (after (destroyAll env pending >>= fun _ => onGc close) s).gc.collector.heap.Bounded ∧
      log (after (destroyAll env pending >>= fun _ => onGc close) s).client =
        es.called ++ log s.client := by
  obtain ⟨done, owed, rfl, hdestroyed, howed⟩ := destroyed_destroyAll henv pending hs
  obtain ⟨es, hrun, hcalled⟩ := hdestroyed.run u
  have hpart := hrun.steps.partitioned hs.partitioned
  have hb := hdestroyed.bounded
  have hlog := hdestroyed.log_eq
  rw [← hcalled] at hlog
  rw [after_bind]
  -- either the round returns and what owes it is closed, or it stops and is abandoned
  cases hr : (destroyAll env (done ++ owed)).run s with
  | ok _ s' =>
    rw [after_of_ok hr] at hrun hpart hb hlog
    obtain rfl := howed ⟨s', hr⟩
    obtain ⟨es', hrun', hcalled'⟩ := (hclose s'.gc).exists_run hpart rfl
    simp only [after_onGc]
    refine ⟨es' ++ es, hrun.trans hrun', Gc.bounded_of_swept hb (hswept s'.gc), ?_⟩
    simp [hcalled', hlog]
  | error stop s' =>
    rw [after_of_error hr] at hrun hb hlog
    exact ⟨_, hrun.event (.abandoned s'.gc ⟨u, owed⟩ []), hb, hlog⟩

/-- Opening something that owes destructors, running these and closing it. If nothing opens, that is
all. -/
lemma recorded_of_opening {op : Faulting (Gc δ) (Option α)} {close : Faulting (Gc δ) β}
    {act : Act μ δ β} {owed : α → List (UInt64 × δ)} (henv : env.Records log begun)
    (u : Undertaking) (condemned : α → List UInt64)
    (hopen : Machine.Step ⟨s.gc, []⟩
      (perform op (fun r => r.map fun x => ⟨u, owed x⟩) ⟨s.gc, []⟩))
    (hbounded : s.gc.Partitioned → s.gc.collector.heap.Bounded →
      (after op s.gc).collector.heap.Bounded)
    (hclose : ∀ g : Gc δ, Machine.Step ⟨g, [⟨u, []⟩]⟩ ⟨after close g, []⟩)
    (hswept : ∀ g : Gc δ, g.collector.Swept (after close g).collector)
    (herror : ∀ f g, op.run s.gc = .error f g → after act s = { s with gc := g })
    (hnone : ∀ g, op.run s.gc = .ok none g → after act s = { s with gc := g })
    (hsome : ∀ x g, op.run s.gc = .ok (some x) g → after act s =
      after (destroyAll env (owed x) >>= fun _ => onGc close)
        ⟨env.beginRound (condemned x) s.client, g⟩) :
    Recorded log s (after act s) := by
  intro hs hb
  have hb₁ := hbounded hs hb
  have hsolo := hopen.solo ⟨hs, Nat.zero_le 1, fun h => absurd rfl h⟩
  obtain ⟨es, hrun, hcalled⟩ := hopen.exists_run hs rfl
  rw [perform] at hrun hsolo
  -- a fault or a refusal leaves what opening has left; otherwise the destructors run in a new round
  cases hr : op.run s.gc with
  | error f g =>
    rw [after, hr] at hb₁
    rw [hr] at hrun
    rw [herror f g hr]
    exact ⟨es, hrun, hb₁, by simp [hcalled]⟩
  | ok r g =>
    rw [after, hr] at hb₁
    rw [hr] at hrun hsolo
    cases r with
    | none =>
      rw [hnone g hr]
      exact ⟨es, hrun, hb₁, by simp [hcalled]⟩
    | some x =>
      obtain ⟨es', hrun', hb', hlog⟩ := recorded_undertake henv u (owed x) hclose hswept
        (s := ⟨env.beginRound (condemned x) s.client, g⟩)
        ⟨hsolo.partitioned, hb₁, hsolo.isBusy (by simp), henv.begun_beginRound _ _⟩
      rw [hsome x g hr]
      refine ⟨es' ++ es, hrun.trans hrun', hb', ?_⟩
      rw [hlog, henv.log_beginRound, History.called_append, hcalled, List.append_nil]

/-- A pass is recorded whether it opens or not, and whether its destructors return or stop. -/
lemma recorded_runPass (henv : env.Records log begun) (fresh : Option UInt64) (s : Host μ δ) :
    Recorded log s (after (runPass env fresh) s) := by
  refine recorded_of_opening henv .pass Pass.condemned
    (.openPass _ fresh (env.scan s.client s.gc.scanner))
    (fun hs hb => Gc.bounded_openPass hs hb fresh _) (fun g => .closePass g []) (fun g => ?_)
    ?_ ?_ ?_
  · obtain ⟨c, hclose, hfin⟩ := Gc.closePass_finished g
    rw [after, hclose]
    exact hfin.swept
  · intro f g hr
    simp [after, runPass, hr]
  · intro g hr
    simp [after, runPass, hr]
  · intro pass g hr
    simp [after, runPass, hr, modifyClient]

/-- So is a teardown. -/
lemma recorded_deinit (henv : env.Records log begun) (s : Host μ δ) :
    Recorded log s (after (deinit env) s) := by
  refine recorded_of_opening henv .teardown (fun _ => [])
    (.beginTeardown _) Gc.bounded_beginTeardown (fun g => .endTeardown g []) (fun g => ?_)
    ?_ ?_ ?_
  · obtain ⟨c, hclose, hswept, -⟩ := Gc.endTeardown_swept g
    rw [after, hclose]
    exact hswept
  · intro f g hr
    simp [after, deinit, hr]
  · intro g hr
    simp [after, deinit, hr]
  · intro pending g hr
    simp [after, deinit, hr, modifyClient]

/-! ### Busy hosts -/

/-- Asking a busy collector for a pass opens none. -/
lemma run_runPass_of_isBusy (hs : s.gc.Partitioned) (hb : s.gc.isBusy = true)
    (fresh : Option UInt64) :
    (runPass env fresh).run s = .ok 0
      { s with gc := after (Gc.openPass fresh (env.scan s.client s.gc.scanner)) s.gc } := by
  rcases Gc.openPass_cases hs fresh (env.scan s.client s.gc.scanner) with
    ⟨g, hr, -⟩ | ⟨pass, g, hr, hdooms⟩
  · simp [after, runPass, hr]
  · rw [hdooms.not_isBusy] at hb
    exact absurd hb (by decide)

/-- Nor does a teardown begin. -/
lemma outcome_deinit_of_isBusy (hs : s.gc.Partitioned) (hb : s.gc.isBusy = true) :
    halt (deinit env) s = (halt Gc.beginTeardown s.gc).map .unwinding ∧
      after (deinit env) s = { s with gc := after Gc.beginTeardown s.gc } := by
  rcases Gc.beginTeardown_cases hs with hr | ⟨f, g, hr, -⟩ | ⟨owed, g, hr, hdooms, -⟩
  · simp [after, halt, deinit, hr]
  · simp [after, halt, deinit, hr]
  · rw [hdooms.not_isBusy] at hb
    exact absurd hb (by decide)

/-! ### Passes -/

/-- The destructors of a pass run in a busy host, whose client has begun a round. -/
lemma destroying_of_openPass (henv : env.Records log begun) (hs : s.gc.Partitioned)
    (hb : s.gc.collector.heap.Bounded) {fresh : Option UInt64} {scan : Option (List UInt64)}
    {pass : Pass δ} {g : Gc δ} (hopen : (Gc.openPass fresh scan).run s.gc = .ok (some pass) g) :
    Destroying begun ⟨env.beginRound pass.condemned s.client, g⟩ := by
  have hdooms := Gc.dooms_of_openPass hs hopen
  have hpart := hs.after_openPass fresh scan
  rw [after, hopen] at hpart
  exact ⟨hpart, hdooms.bounded hb, hdooms.isBusy, henv.begun_beginRound _ _⟩

/-- The destructors of a teardown do so too. -/
lemma destroying_of_beginTeardown (henv : env.Records log begun) (hs : s.gc.Partitioned)
    (hb : s.gc.collector.heap.Bounded) {pending : List (UInt64 × δ)} {g : Gc δ}
    (hbegin : Gc.beginTeardown.run s.gc = .ok (some pending) g) :
    Destroying begun ⟨env.beginRound [] s.client, g⟩ := by
  obtain ⟨hdooms, -⟩ := Gc.dooms_of_beginTeardown hs hbegin
  have hpart := hs.after_beginTeardown
  rw [after, hbegin] at hpart
  exact ⟨hpart, hdooms.bounded hb, hdooms.isBusy, henv.begun_beginRound _ _⟩

/-- Destructors that return are a run. -/
lemma Destroying.steps (h : Destroying begun s) (henv : env.Records log begun)
    {pending : List (UInt64 × δ)} (hr : (destroyAll env pending).run s = .ok () s') :
    Steps ⟨s.gc, []⟩ ⟨s'.gc, []⟩ := by
  obtain ⟨done, owed, -, hdestroyed, -⟩ := destroyed_destroyAll henv pending h
  rw [after_of_ok hr] at hdestroyed
  exact hdestroyed.steps

/-- A teardown that returns has run its destructors to the end. -/
lemma destroyAll_of_deinit {pending : List (UInt64 × δ)} {g : Gc δ}
    (hbegin : Gc.beginTeardown.run s.gc = .ok (some pending) g)
    (hr : (deinit env).run s = .ok () s') :
    ∃ s₁, (destroyAll env pending).run ⟨env.beginRound [] s.client, g⟩ = .ok () s₁ := by
  cases hdestroy : (destroyAll env pending).run ⟨env.beginRound [] s.client, g⟩ with
  | error stop s₁ => simp [deinit, hbegin, modifyClient, hdestroy] at hr
  | ok _ s₁ => exact ⟨s₁, rfl⟩

/-- A pass that returns is one whose destructors were a run, if the client records them. -/
lemma passes_of_returns (henv : env.Records log begun) (hs : s.gc.Partitioned)
    (hb : s.gc.collector.heap.Bounded) {fresh : Option UInt64} {roots : List UInt64} {n : Nat}
    (hscan : env.scan s.client s.gc.scanner = some roots)
    (hrun : (runPass env fresh).run s = .ok n s') : Passes env fresh roots s n s' :=
  ⟨hscan, hrun, fun _ _ _ hopen hdestroy =>
    (destroying_of_openPass henv hs hb hopen).steps henv hdestroy⟩

/-- A pass that returns answers how many objects were doomed when it opened, and has freed these and
no other object that was there, whatever its destructors did. -/
theorem runPass_frees (henv : env.Records log begun) (hs : s.gc.Partitioned)
    (hb : s.gc.collector.heap.Bounded) (hc : s.gc.collector.collecting = false)
    (hsd : s.gc.isShutdown = false) {fresh : Option UInt64} {roots : List UInt64} {n : Nat}
    (hscan : env.scan s.client s.gc.scanner = some roots)
    (hrun : (runPass env fresh).run s = .ok n s') :
    n = (s.gc.doomed fresh roots).card ∧
      s'.gc.collector.lastRescued = (s.gc.rescued fresh roots).card ∧
      ∀ a, s.gc.collector.isTracked a = true →
        (s'.gc.collector.isTracked a = true ↔ a ∉ s.gc.doomed fresh roots) :=
  (passes_of_returns henv hs hb hscan hrun).frees hs hc hsd

end Host

end HybridGC
