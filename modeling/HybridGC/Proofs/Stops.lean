import HybridGC.Client.Busy
import HybridGC.Proofs.World

/-!
# What stops a call

A pass or a teardown stops where one of its destructors does, and otherwise only the faults that are
the client's own reach it. So no call of a session stops at a violated assertion of the collector,
whatever has stopped before it, and neither does a call that a destructor makes while its pass or
its teardown is under way.
-/

namespace HybridGC

namespace Host

variable {μ δ β : Type} {env : Environment μ δ} {log : μ → List UInt64} {begun : μ → Prop}
variable {P : Stop → Prop} {s : Host μ δ}

/-! ### Operations that run destructors -/

/-- Where a destructor stops that runs when destructors may run. -/
def Environment.StopsAt (env : Environment μ δ) (begun : μ → Prop) (P : Stop → Prop) : Prop :=
  ∀ a d s, Destroying begun s → ∀ x ∈ halt (env.destroy a d) s, P x

/-- Destructors may run after a destructor has run. -/
lemma Destroying.destroy (henv : env.Records log begun) (a : UInt64) (d : δ)
    (hs : Destroying begun s) : Destroying begun (after (env.destroy a d) s) := by
  obtain ⟨es, hrun, hb, -, hbegun⟩ := henv.destroy a d s hs
  obtain ⟨hbusy, -, -⟩ := hrun.busy hs.partitioned hs.isBusy rfl
  exact ⟨hrun.steps.partitioned hs.partitioned, hb, hbusy, hbegun⟩

/-- The run: destructors that are run one after the other stop where one of them does. -/
lemma halt_destroyAll (henv : env.Records log begun) (hstops : env.StopsAt begun P)
    (pending : List (UInt64 × δ)) (hs : Destroying begun s) :
    ∀ x ∈ halt (destroyAll env pending) s, P x := by
  induction pending generalizing s with
  | nil => simp [halt, destroyAll]
  | cons p pending ih =>
    obtain ⟨a, d⟩ := p
    have hs' : Destroying begun { s with gc := after (Gc.note (.destroying a)) s.gc } :=
      ⟨hs.partitioned.note _, hs.bounded, hs.isBusy, hs.begun⟩
    have hdestroy := hstops a d _ hs'
    have hnext := hs'.destroy henv a d
    rw [halt, run_destroyAll_cons]
    cases hr : (env.destroy a d).run { s with gc := after (Gc.note (.destroying a)) s.gc } with
    | ok _ s' =>
      rw [after_of_ok hr] at hnext
      exact ih hnext
    | error x s' =>
      rw [halt_of_error hr] at hdestroy
      exact hdestroy

/-- Running destructors and closing what owes them, where closing does not stop. -/
lemma halt_undertake {close : Faulting (Gc δ) β} (henv : env.Records log begun)
    (hstops : env.StopsAt begun P) (hclose : ∀ g, halt close g = none)
    (pending : List (UInt64 × δ)) (hs : Destroying begun s) :
    ∀ x ∈ halt (destroyAll env pending >>= fun _ => onGc close) s, P x := by
  -- closing does not stop, so whatever stops is a destructor
  have hdestroy := halt_destroyAll henv hstops pending hs
  rw [halt_bind]
  cases hr : (destroyAll env pending).run s with
  | ok _ s' => simp [halt_onGc, hclose]
  | error x s' =>
    rw [halt_of_error hr] at hdestroy
    exact hdestroy

/-- A pass stops where one of its destructors does. -/
lemma halt_runPass (henv : env.Records log begun) (hstops : env.StopsAt begun P)
    (hs : s.gc.Partitioned) (hb : s.gc.collector.heap.Bounded) (fresh : Option UInt64) :
    ∀ x ∈ halt (runPass env fresh) s, P x := by
  rcases Gc.openPass_cases hs fresh (env.scan s.client s.gc.scanner) with
    ⟨g, hr, -⟩ | ⟨pass, g, hr, hdooms⟩
  · simp [halt, runPass, hr]
  · have hpart := hs.after_openPass fresh (env.scan s.client s.gc.scanner)
    rw [after, hr] at hpart
    have hrun : halt (runPass env fresh) s =
        halt (destroyAll env pass.pending >>= fun _ => onGc Gc.closePass)
          ⟨env.beginRound pass.condemned s.client, g⟩ := by
      simp [halt, runPass, hr, modifyClient]
    rw [hrun]
    refine halt_undertake henv hstops (fun g => ?_) _
      ⟨hpart, hdooms.bounded hb, hdooms.isBusy, henv.begun_beginRound _ _⟩
    obtain ⟨c, hclose, -⟩ := Gc.closePass_finished g
    exact halt_of_ok hclose

/-- A teardown stops where one of its destructors does, or where a pass is open. -/
lemma halt_deinit (henv : env.Records log begun) (hstops : env.StopsAt begun P)
    (hs : s.gc.Partitioned) (hb : s.gc.collector.heap.Bounded) :
    ∀ x ∈ halt (deinit env) s, P x ∨
      s.gc.collector.collecting = true ∧ x = .unwinding .deinitDuringPass := by
  rcases Gc.beginTeardown_cases hs with hr | ⟨f, g, hr, -⟩ | ⟨owed, g, hr, hdooms, -⟩
  · simp [halt, deinit, hr]
  · obtain ⟨hc, -, rfl, -⟩ := (Gc.beginTeardown_eq_error_iff hs.collector).1 hr
    simp [halt, deinit, hr, hc]
  · have hpart := hs.after_beginTeardown
    rw [after, hr] at hpart
    have hrun : halt (deinit env) s =
        halt (destroyAll env owed >>= fun _ => onGc Gc.endTeardown)
          ⟨env.beginRound [] s.client, g⟩ := by
      simp [halt, deinit, hr, modifyClient]
    rw [hrun]
    refine fun x hx => .inl (halt_undertake henv hstops (fun g => ?_) _
      ⟨hpart, hdooms.bounded hb, hdooms.isBusy, henv.begun_beginRound _ _⟩ x hx)
    obtain ⟨c, hclose, -⟩ := Gc.endTeardown_swept g
    exact halt_of_ok hclose

/-- An allocation stops where the pass it runs does. -/
lemma halt_allocate (henv : env.Records log begun) (hstops : env.StopsAt begun P)
    (halloc : env.alloc = Heap.allocate) (hs : s.gc.Partitioned)
    (hb : s.gc.collector.heap.Bounded) (size : Nat) (d : Option δ) :
    ∀ x ∈ halt (allocate env size d) s, P x := by
  obtain ⟨r, g, hr⟩ := hs.stopsAtMisuse.create_eq_ok Heap.allocate hb.soundAt_allocate size d
  obtain ⟨hstep, hb', -⟩ := Gc.Leads.create s.gc size d hs hb
  have hs' := hstep.partitioned hs
  simp only [after, hr] at hs' hb'
  -- the object has been created by then, and the pass is made on what that has left
  have hpass := halt_runPass (s := { s with gc := g }) henv hstops hs' hb'
  rw [allocate, halt_bind]
  simp only [run_onGc, halloc, hr]
  cases r with
  | error e => simp [halt]
  | ok a =>
    simp only [halt_bind, EStateM.run_get]
    split
    · specialize hpass (some a)
      rw [halt_bind]
      cases hrun : (runPass env (some a)).run { s with gc := g } with
      | ok n s' => simp [halt]
      | error x s' =>
        rw [halt_of_error hrun] at hpass
        exact hpass
    · simp [halt]

/-- The operations that run destructors stop where one of these does, and a teardown also where it
is asked for during a pass. -/
structure StopsWithDestructors (env : Environment μ δ) (P : Stop → Prop) (s : Host μ δ) :
    Prop where
  runPass : ∀ fresh, ∀ x ∈ halt (runPass env fresh) s, P x
  allocate : ∀ size d, ∀ x ∈ halt (allocate env size d) s, P x
  deinit : ∀ x ∈ halt (deinit env) s, P x ∨
    s.gc.collector.collecting = true ∧ x = .unwinding .deinitDuringPass

end Host

namespace World

open Host Machine

/-! ### Scripts -/

/-- A destructor stops where its script does, if nothing catches that. -/
lemma halt_runDestructor (here : Thread) (a : UInt64) (f : Finalizer) (w : World) :
    ∀ x ∈ halt (runDestructor here a f) w, x ∈ (runScript here a f.script w).1.2 := by
  have hstop (d : Destruction) (w : World) (stop : Option Stop) :
      halt (recordAndStop d stop) w = stop := by
    cases stop <;> rfl
  obtain ⟨d, hhalt⟩ : ∃ d, halt (runDestructor here a f) w = halt
      (recordAndStop d (afterScript f.kind (runScript here a f.script w).1.2).2)
      (runScript here a f.script w).2 := ⟨_, rfl⟩
  rw [hhalt, hstop]
  intro x hx
  rcases hscript : (runScript here a f.script w).1.2 with - | g | g
  · simp [hscript, afterScript] at hx
  · cases hk : f.kind
    all_goals
      rw [hscript, hk] at hx
    · exact hx
    · simp [afterScript] at hx
  · rwa [hscript] at hx

/-- The destructors of scripts stop at the client's misuse. -/
lemma stopsAt_runDestructor (here : Thread) :
    (environment runDestructor here).StopsAt (fun c => c.rounds ≠ []) Stop.IsMisuse := by
  intro a f w hw x hx
  obtain ⟨-, -, -, hmisuse⟩ := (stable_sameRound _).runScript here a f.script w
    hw.partitioned hw.bounded hw.isBusy
  exact hmisuse x (halt_runDestructor here a f w x hx)

/-- The partition invariant is kept, and what stops a call is the client's misuse. -/
def Tame (w : World) (stop : Option Stop) (w' : World) : Prop :=
  w.gc.Partitioned → w.gc.collector.heap.Bounded →
    w'.gc.Partitioned ∧ w'.gc.collector.heap.Bounded ∧ ∀ x ∈ stop, x.IsMisuse

/-- The step: no call breaks the invariant or stops at anything but misuse, whether the client makes
it or a destructor does. -/
lemma stable_tame : Stable Tame runDestructor where
  refl _ hw hb := ⟨hw, hb, by simp⟩
  trans h h' hw hb := by
    obtain ⟨hw, hb, -⟩ := h hw hb
    exact h' hw hb
  caught h hw hb := by
    obtain ⟨hw, hb, -⟩ := h hw hb
    exact ⟨hw, hb, by simp⟩
  raised _ text hw hb := ⟨hw, hb, by simp [Stop.IsMisuse, Fault.IsMisuse]⟩
  aborting h hw hb := by
    obtain ⟨hw, hb, hmisuse⟩ := h hw hb
    exact ⟨hw, hb, by simpa [Stop.IsMisuse] using hmisuse⟩
  client _ _ _ hw hb := ⟨hw, hb, by simp⟩
  gc _ _ _ h hw hb := by
    obtain ⟨hstep, hb, hmisuse⟩ := h hw hb
    exact ⟨hstep.partitioned hw, hb, isMisuse_of_mem_map hmisuse⟩
  runPass here fresh w hw hb := by
    have henv := records_runDestructor here
    obtain ⟨es, hrun, hb', -⟩ := recorded_runPass henv fresh w hw hb
    exact ⟨hrun.steps.partitioned hw, hb',
      halt_runPass henv (stopsAt_runDestructor here) hw hb fresh⟩
  deinit here w hw hb := by
    have henv := records_runDestructor here
    obtain ⟨es, hrun, hb', -⟩ := recorded_deinit henv w hw hb
    refine ⟨hrun.steps.partitioned hw, hb', fun x hx => ?_⟩
    rcases halt_deinit henv (stopsAt_runDestructor here) hw hb x hx with hx | ⟨-, rfl⟩
    · exact hx
    · trivial

/-- Whatever has come about, also where destructors or the scanner have stopped, counting stops at
objects that are not tracked and at counts that cannot change, a teardown stops during a pass, and
no other operation stops. A pass, an allocation and a teardown stop only where one of their
destructors does, or where the teardown is asked for during a pass. So if destructors are scripts,
no call ever stops at anything but the client's misuse: not between passes, not from within a
destructor, and not at the end of any session. -/
theorem stops_at_misuse :
    (∀ {δ : Type} {m : Machine δ}, m.Arises → m.gc.StopsAtMisuse) ∧
    (∀ {μ δ : Type} {env : Environment μ δ} {log : μ → List UInt64} {begun : μ → Prop}
        {P : Stop → Prop} {s : Host μ δ} {fs : List (Frame δ)},
      env.Records log begun → env.StopsAt begun P → env.alloc = Heap.allocate →
      Arises ⟨s.gc, fs⟩ → s.gc.collector.heap.Bounded → StopsWithDestructors env P s) ∧
    (∀ {w : World} {fs : List (Frame Finalizer)}, Arises ⟨w.gc, fs⟩ →
      w.gc.collector.heap.Bounded → ∀ here self call,
      (∀ x ∈ halt (perform runDestructor here self call) w, x.IsMisuse) ∧
      (w.gc.isBusy = true → ∀ destroy,
        ∀ x ∈ halt (perform destroy here self call) w, x.IsMisuse)) ∧
    ∀ calls config scanner call,
      ∀ x ∈ halt (request call) (run calls (start config scanner)).2, x.IsMisuse := by
  have hcall {w : World} (hw : w.gc.Partitioned) (hb : w.gc.collector.heap.Bounded)
      (here : Thread) (self : Option UInt64) (call : Call) :
      ∀ x ∈ halt (perform runDestructor here self call) w, x.IsMisuse :=
    (stable_tame.perform here self call w hw hb).2.2
  refine ⟨fun hm => hm.partitioned.stopsAtMisuse, fun henv hstops halloc hs hb => ?_,
    fun hw hb here self call => ⟨hcall hw.partitioned hb here self call, ?_⟩,
    fun calls config scanner call => ?_⟩
  · constructor
    case runPass => exact halt_runPass henv hstops hs.partitioned hb
    case allocate => exact halt_allocate henv hstops halloc hs.partitioned hb
    case deinit => exact halt_deinit henv hstops hs.partitioned hb
  · intro hbusy destroy
    rw [halt, perform_of_isBusy hbusy destroy runDestructor here self call, ← halt]
    exact hcall hw.partitioned hb here self call
  · obtain ⟨es, h, hb, -⟩ := hasHistory_run calls config scanner
    exact hcall h.reachable.partitioned hb .main none call

/-- One object without counted references, in a pass whose scanner has stopped. -/
def scanFailed : World :=
  let w := (run [({}, .alloc 8 none 1)] (start {} .noRoots)).2
  { w with gc := after (Gc.scanStopped none []) w.gc }

/-- The object is a candidate of a pass that nobody will end. Dropping it, taking something that is
not there and a teardown are refused. -/
theorem stops_at_misuse_scanFailed :
    Arises ⟨scanFailed.gc, []⟩ ∧ 0x10000030 ∈ scanFailed.gc.collector.working ∧
      (Gc.delref 0x10000030).run scanFailed.gc = .error .countUnderflow scanFailed.gc ∧
      (∃ x ∈ halt (perform runDestructor .main none ({}, .addref (.ref (.word 8)) 1)) scanFailed,
        x.IsMisuse) ∧
      (∃ x ∈ halt (Host.deinit (environment runDestructor .main)) scanFailed, x.IsMisuse) ∧
      ∃ x ∈ halt (request ({}, .delref (.ref (.object 0 0)) 1))
        (run [({}, .alloc 8 none 1)] (start {} .noRoots)).2, x.IsMisuse := by
  obtain ⟨hops, hhost, hcalls, hsessions⟩ := stops_at_misuse
  obtain ⟨es, h, hb, -⟩ := hasHistory_run [({}, .alloc 8 none 1)] {} .noRoots
  have harises : Arises ⟨scanFailed.gc, []⟩ := .scanStopped none [] h.reachable.arises
  have hbounded : scanFailed.gc.collector.heap.Bounded :=
    Gc.bounded_scanStopped h.reachable.partitioned hb none []
  refine ⟨harises, by decide +kernel, ?_, ?_, ?_, ?_⟩
  · rw [(hops harises).delref_eq_error_iff]
    exact ⟨rfl, by decide +kernel⟩
  · have hhalt : (halt (perform runDestructor .main none ({}, .addref (.ref (.word 8)) 1))
        scanFailed).isSome = true := by decide +kernel
    obtain ⟨x, hx⟩ := Option.isSome_iff_exists.1 hhalt
    exact ⟨x, hx, (hcalls harises hbounded .main none _).1 x hx⟩
  · have hhalt : (halt (Host.deinit (environment runDestructor .main)) scanFailed).isSome =
        true := by decide +kernel
    obtain ⟨x, hx⟩ := Option.isSome_iff_exists.1 hhalt
    have hstops := hhost (records_runDestructor .main) (stopsAt_runDestructor .main) rfl harises
      hbounded
    rcases hstops.deinit x hx with hmisuse | ⟨-, rfl⟩
    · exact ⟨x, hx, hmisuse⟩
    · exact ⟨_, hx, trivial⟩
  · have hhalt : (halt (request ({}, .delref (.ref (.object 0 0)) 1))
        (run [({}, .alloc 8 none 1)] (start {} .noRoots)).2).isSome = true := by decide +kernel
    obtain ⟨x, hx⟩ := Option.isSome_iff_exists.1 hhalt
    exact ⟨x, hx, hsessions _ {} .noRoots _ x hx⟩

end World

end HybridGC
