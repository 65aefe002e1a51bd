import HybridGC.Client.Session
import HybridGC.Proofs.Host
import HybridGC.Proofs.Release

/-!
# Sessions are runs

Whatever a client of scripts does, its collector goes through a run of the machine: a call is a
sequence of operations, and so is the script of a destructor. So the states of a session can come
about, and what is known of these holds throughout. The rounds of a client record the destructors
that the run calls.
-/

namespace HybridGC

namespace World

open Host Machine

/-! ### Calls -/

/-- The relation holds between a world, what a computation stops at there, if it does, and the world
it reaches. -/
def Follows {α : Type} (R : World → Option Stop → World → Prop) (act : Act α) : Prop :=
  ∀ w, R w (halt act w) (after act w)

/-- A relation that follows the worlds through a call, whose destructors run in some way, up to
where the call stops. -/
structure Stable (R : World → Option Stop → World → Prop) (destroy : Destroy) : Prop where
  refl : ∀ w, R w none w
  trans : ∀ {w₁ w₂ w₃ stop}, R w₁ none w₂ → R w₂ stop w₃ → R w₁ stop w₃
  caught : ∀ {w w' stop}, R w stop w' → R w none w'
  raised : ∀ w text, R w (some (.unwinding (.raised text))) w
  aborting : ∀ {w w' f}, R w (some (.unwinding f)) w' → R w (some (.aborting f)) w'
  client : ∀ (w : World) (c : Client), c.rounds = w.client.rounds → R w none { w with client := c }
  gc : ∀ (w : World) {f : Option Fault} {g : Gc Finalizer}, w.gc.Leads f g →
    R w (f.map .unwinding) { w with gc := g }
  runPass : ∀ here fresh, Follows R (runPass (environment destroy here) fresh)
  deinit : ∀ here, Follows R (deinit (environment destroy here))

namespace Stable

variable {R : World → Option Stop → World → Prop} {destroy : Destroy} {α β : Type} {act : Act α}
variable {f : α → Act β}

lemma pure (h : Stable R destroy) (x : α) : Follows R (pure x : Act α) :=
  h.refl

lemma get (h : Stable R destroy) : Follows R (get : Act World) :=
  h.refl

/-- A call on the collector is followed, since what it leads to is. -/
lemma onGc (h : Stable R destroy) {op : Faulting (Gc Finalizer) α}
    (hop : ∀ g : Gc Finalizer, g.Leads (halt op g) (after op g)) :
    Follows R (onGc op : Act α) := by
  intro w
  rw [halt_onGc, after_onGc]
  exact h.gc w (hop w.gc)

lemma onClient (h : Stable R destroy) (op : Client → α × Client)
    (hop : ∀ c, (op c).2.rounds = c.rounds) : Follows R (onClient op : Act α) :=
  fun w => h.client w _ (hop w.client)

lemma modifyClient (h : Stable R destroy) (op : Client → Client)
    (hop : ∀ c, (op c).rounds = c.rounds) : Follows R (modifyClient op : Act Unit) :=
  fun w => h.client w _ (hop w.client)

/-- One computation after another is followed through both, or up to where the first stops. -/
lemma bind (h : Stable R destroy) (hact : Follows R act) (hf : ∀ x, Follows R (f x)) :
    Follows R (act >>= f) := by
  intro w
  have hw := hact w
  rw [halt_bind, after_bind]
  cases hr : act.run w with
  | ok x w' =>
    rw [halt_of_ok hr, after_of_ok hr] at hw
    exact h.trans hw (hf x w')
  | error stop w' =>
    rwa [halt_of_error hr, after_of_error hr] at hw

lemma times (h : Stable R destroy) {act : Act Answer} (hact : Follows R act) (n : Nat) :
    Follows R (times act n) := by
  fun_induction World.times act n with
  | case1 => exact h.pure _
  | case2 => exact hact
  | case3 n hn ih => exact h.bind hact (fun _ => ih)

/-- An allocation is followed through the pass that it may make. -/
lemma allocate (h : Stable R destroy) (here : Thread) (size : Nat) (d : Option Finalizer) :
    Follows R (allocate (environment destroy here) size d) := by
  refine h.bind (h.onGc fun g => .create g size d) fun r => ?_
  cases r with
  | error e => exact h.pure _
  | ok a =>
    refine h.bind h.get fun s => ?_
    split
    · exact h.bind (h.runPass here (some a)) fun _ => h.pure _
    · exact h.pure _

/-- Creating an object for a client is followed, also where the allocation is refused. -/
lemma create (h : Stable R destroy) (here : Thread) (api : Api) (size : Nat)
    (d : Option (DestructorKind × List Call)) : Follows R (create destroy here api size d) := by
  refine h.bind (h.bind h.get fun w => ?_) fun n => ?_
  · exact h.bind (h.modifyClient _ fun _ => rfl) fun _ => h.pure _
  refine h.bind (h.allocate here size _) fun r => ?_
  cases r with
  | ok a => exact h.bind (h.modifyClient _ fun _ => rfl) fun _ => h.pure _
  | error e =>
    refine h.bind (h.modifyClient _ fun _ => rfl) fun _ => ?_
    split
    · exact h.bind (h.onGc fun g => .note g _) fun _ => h.pure _
    · exact h.pure _

lemma withWord (h : Stable R destroy) {self : Option UInt64} {p : Operand}
    {k : UInt64 → Act Answer} (hk : ∀ a, Follows R (k a)) : Follows R (withWord self p k) := by
  refine h.bind h.get fun w => ?_
  split
  · exact h.pure _
  · exact hk _

/-- Writing to a place that exists is followed, be it a variable or a word of an object. -/
lemma write? (h : Stable R destroy) {w w' : World} {v : UInt64} {p : Place}
    (hw : write? w v p = some w') : R w none w' := by
  cases p with
  | «variable» k =>
    obtain rfl : { w with client := (w.client.assign k v).2 } = w' := by
      simpa [World.write?] using hw
    exact h.client w _ rfl
  | cell a offset =>
    cases hs : w.gc.collector.heap.store? a offset v with
    | none => simp [World.write?, hs] at hw
    | some heap =>
      obtain rfl :
          { w with gc := { w.gc with collector := { w.gc.collector with heap } } } = w' := by
        simpa [World.write?, hs] using hw
      exact h.gc w (.store hs)

/-- A swap of pointers is followed through its two calls and the write between them. -/
lemma swapref (h : Stable R destroy) (p : Place) (v : UInt64) :
    Follows R (swapref (cell p) v) := by
  refine h.bind h.get fun w => ?_
  refine h.bind (h.onGc fun g => .addref g v) fun new => ?_
  refine h.bind (fun w => ?_) fun _ => h.onGc fun g => .delref g _
  show R w none ((World.write? w new p).getD w)
  cases hw : World.write? w new p with
  | none => exact h.refl w
  | some w' => exact h.write? hw

lemma store (h : Stable R destroy) (p : Place) (v : UInt64) :
    Follows R (do
      match World.write? (← MonadState.get) v p with
      | none => return .refused
      | some w =>
        set w
        return .nothing : Act Answer) := by
  intro w
  cases hw : World.write? w v p with
  | none =>
    simp only [halt, after, EStateM.run_bind, EStateM.run_get, hw]
    exact h.refl w
  | some w' =>
    simp only [halt, after, EStateM.run_bind, EStateM.run_get, hw]
    exact h.write? hw

lemma rounds_removeRoot (a : UInt64) (c : Client) : (c.removeRoot a).2.rounds = c.rounds := by
  rw [Client.removeRoot]
  split <;> rfl

/-- What a call answers. -/
lemma answer (h : Stable R destroy) (here : Thread) (self : Option UInt64) (api : Api) (op : Op) :
    Follows R (answer destroy here self api op) := by
  -- every operation is one on the client, one on the collector, or some of these in a row
  cases op with
  | init => exact h.pure _
  | isInitialized => exact h.pure _
  | objectCount => exact h.bind h.get fun _ => h.pure _
  | alloc size d n => exact h.times (h.create here api size d) n
  | addref p n =>
    refine h.withWord fun a => h.bind (h.times ?_ n) fun _ => h.pure _
    exact h.bind (h.onGc fun g => .addref g a) fun _ => h.pure _
  | delref p n =>
    refine h.withWord fun a => h.times ?_ n
    exact h.bind (h.onGc fun g => .delref g a) fun _ => h.pure _
  | swapref slot value =>
    cases slot with
    | none => exact h.pure _
    | some slot =>
      refine h.withWord fun v => h.bind h.get fun w => ?_
      split
      · exact h.pure _
      · refine h.bind h.get fun w => ?_
        split
        · exact h.pure _
        · exact h.bind (h.swapref _ v) fun _ => h.bind h.get fun w => h.pure _
  | collect => exact h.bind (h.runPass here none) fun _ => h.pure _
  | deinit => exact h.bind (h.deinit here) fun _ => h.pure _
  | setThreshold n =>
    rw [World.answer]
    split
    · exact h.pure _
    · refine h.withWord fun v => ?_
      exact h.bind (h.onGc fun g => .setThreshold g _) fun _ => h.pure _
  | config => exact h.bind h.get fun _ => h.pure _
  | stats => exact h.bind h.get fun _ => h.pure _
  | store p offset value =>
    exact h.withWord fun a => h.withWord fun v => h.store (.cell a offset) v
  | assign k value => exact h.withWord fun v => h.onClient _ fun _ => rfl
  | words p =>
    refine h.withWord fun a => h.bind h.get fun w => ?_
    split <;> exact h.pure _
  | header p =>
    refine h.withWord fun a => h.bind h.get fun w => ?_
    split <;> exact h.pure _
  | query p => exact h.withWord fun a => h.bind h.get fun w => h.pure _
  | rootAdd p => exact h.withWord fun a => h.onClient _ fun _ => rfl
  | rootRemove p => exact h.withWord fun a => h.onClient _ (rounds_removeRoot a)
  | rootClear => exact h.onClient Client.clearRoots fun _ => rfl
  | fail text => exact fun w => h.raised w text

/-- A fault that meets the C boundary does not unwind further. -/
lemma abortOnFault (h : Stable R destroy) {act : Act Answer} (hact : Follows R act) :
    Follows R (abortOnFault act) := by
  intro w
  have hw := hact w
  simp only [halt, after, World.abortOnFault, EStateM.run] at hw ⊢
  rcases hr : act w with ⟨x, w'⟩ | ⟨f | f, w'⟩ <;> rw [hr] at hw
  · exact hw
  · exact h.aborting hw
  · exact hw

/-- A call is followed whether or not it crosses the C boundary. -/
lemma perform (h : Stable R destroy) (here : Thread) (self : Option UInt64) (call : Call) :
    Follows R (perform destroy here self call) := by
  obtain ⟨manner, op⟩ := call
  have hanswer := h.answer (here.call manner.spawn) self manner.api op
  rw [World.perform]
  split
  · exact h.abortOnFault hanswer
  · exact hanswer

/-- A script is a sequence of calls. -/
lemma runScript {R : World → Option Stop → World → Prop} (h : Stable R fun _ _ _ => Pure.pure ())
    (here : Thread) (self : UInt64) (script : List Call) (w : World) :
    R w (runScript here self script w).1.2 (runScript here self script w).2 := by
  induction script generalizing w with
  | nil => exact h.refl w
  | cons call script ih =>
    have hcall := h.perform here (some self) call w
    rw [World.runScript]
    cases hr : (World.perform (fun _ _ _ => Pure.pure ()) here (some self) call).run w with
    | ok x w' =>
      rw [halt_of_ok hr, after_of_ok hr] at hcall
      exact h.trans hcall (ih w')
    | error stop w' =>
      rwa [halt_of_error hr, after_of_error hr] at hcall

/-- A session is a sequence of calls, each of which may stop. -/
lemma run {R : World → Option Stop → World → Prop} (h : Stable R runDestructor)
    (calls : List Call) (w : World) : R w none (run calls w).2 := by
  induction calls generalizing w with
  | nil => exact h.refl w
  | cons call calls ih =>
    have hcall := h.caught (h.perform .main none call w)
    refine h.trans ?_ (ih (step (request call) w).2)
    rw [after, ← request] at hcall
    rw [World.step]
    rcases hr : (request call).run w with ⟨x, w'⟩ | ⟨f | f, w'⟩
    all_goals
      rwa [hr] at hcall

end Stable

/-! ### Destructors -/

/-- The addresses of the objects whose destruction a client has recorded, the latest first. -/
def destroyed (c : Client) : List UInt64 :=
  c.rounds.flatMap fun r => r.destructions.map (·.address)

/-- A run leads from one world with a busy collector to another, in the same round, and what stops
it is the client's misuse. -/
def SameRound (w : World) (stop : Option Stop) (w' : World) : Prop :=
  w.gc.Partitioned → w.gc.collector.heap.Bounded → w.gc.isBusy = true →
    (∃ es, Run ⟨w.gc, []⟩ es ⟨w'.gc, []⟩) ∧ w'.gc.collector.heap.Bounded ∧
      w'.client.rounds = w.client.rounds ∧ ∀ x ∈ stop, x.IsMisuse

lemma isMisuse_of_mem_map {f : Option Fault} (h : ∀ x ∈ f, x.IsMisuse) :
    ∀ x ∈ f.map Stop.unwinding, x.IsMisuse := by
  cases f with
  | none => simp
  | some f => simpa [Stop.IsMisuse] using h

lemma SameRound.of_leads {w : World} {f : Option Fault} {g : Gc Finalizer}
    (h : w.gc.Leads f g) : SameRound w (f.map .unwinding) { w with gc := g } := by
  intro hw hb _
  obtain ⟨hstep, hb, hmisuse⟩ := h hw hb
  obtain ⟨es, hrun, -⟩ := hstep.exists_run hw rfl
  exact ⟨⟨es, hrun⟩, hb, rfl, isMisuse_of_mem_map hmisuse⟩

/-- Calls to a busy collector stay in the same round, whatever destructors would do. -/
lemma stable_sameRound (destroy : Destroy) : Stable SameRound destroy where
  refl _ _ hb _ := ⟨⟨[], .refl⟩, hb, rfl, by simp⟩
  trans h h' hw hb hbusy := by
    obtain ⟨⟨es, hrun⟩, hb, hrounds, -⟩ := h hw hb hbusy
    obtain ⟨hbusy, -, -⟩ := hrun.busy hw hbusy rfl
    obtain ⟨⟨es', hrun'⟩, hb, hrounds', hmisuse⟩ := h' (hrun.steps.partitioned hw) hb hbusy
    exact ⟨⟨_, hrun.trans hrun'⟩, hb, hrounds'.trans hrounds, hmisuse⟩
  caught h hw hb hbusy := by
    obtain ⟨hrun, hb, hrounds, -⟩ := h hw hb hbusy
    exact ⟨hrun, hb, hrounds, by simp⟩
  raised _ text _ hb _ := ⟨⟨[], .refl⟩, hb, rfl, by simp [Stop.IsMisuse, Fault.IsMisuse]⟩
  aborting h hw hb hbusy := by
    obtain ⟨hrun, hb, hrounds, hmisuse⟩ := h hw hb hbusy
    exact ⟨hrun, hb, hrounds, by simpa [Stop.IsMisuse] using hmisuse⟩
  client _ _ h _ hb _ := ⟨⟨[], .refl⟩, hb, h, by simp⟩
  gc _ _ _ := .of_leads
  -- a busy collector opens nothing, so no destructor is called here
  runPass here fresh w hw hb hbusy := by
    have hr : (runPass (environment destroy here) fresh).run w = _ :=
      run_runPass_of_isBusy hw hbusy fresh
    rw [halt_of_ok hr, after_of_ok hr]
    exact SameRound.of_leads (.openPass hbusy fresh _) hw hb hbusy
  deinit here w hw hb hbusy := by
    rw [(outcome_deinit_of_isBusy hw hbusy).1, (outcome_deinit_of_isBusy hw hbusy).2]
    exact SameRound.of_leads (.beginTeardown hbusy) hw hb hbusy

/-- A destruction is recorded in the current round, and nothing else changes. -/
lemma after_recordAndStop (d : Destruction) (stop : Option Stop) {w : World}
    (h : w.client.rounds ≠ []) :
    (after (recordAndStop d stop) w).gc = w.gc ∧
      destroyed (after (recordAndStop d stop) w).client = d.address :: destroyed w.client ∧
      (after (recordAndStop d stop) w).client.rounds ≠ [] := by
  obtain ⟨r, rs, hr⟩ := List.exists_cons_of_ne_nil h
  have hafter : after (recordAndStop d stop) w = { w with client := { w.client with
      rounds := { r with destructions := d :: r.destructions } :: rs } } := by
    cases stop <;> simp [after, recordAndStop, record, modifyClient, hr]
  rw [hafter]
  simp [destroyed, hr]

/-- A destructor runs its script, and then its destruction is recorded, whatever its script has
done. -/
lemma after_runDestructor (here : Thread) (a : UInt64) (f : Finalizer) (w : World) :
    ∃ d stop, d.address = a ∧ after (runDestructor here a f) w =
      after (recordAndStop d stop) (runScript here a f.script w).2 :=
  ⟨_, _, rfl, rfl⟩

/-- Once a round has begun, the destructors of scripts are recorded. -/
lemma records_runDestructor (here : Thread) :
    (environment runDestructor here).Records destroyed fun c => c.rounds ≠ [] where
  log_beginRound _ _ := rfl
  begun_beginRound _ _ := by simp [environment, Client.beginRound]
  destroy a f w hw := by
    obtain ⟨⟨es, hrun⟩, hb, hrounds, -⟩ := (stable_sameRound _).runScript here a f.script w
      hw.partitioned hw.bounded hw.isBusy
    obtain ⟨d, stop, rfl, hafter⟩ := after_runDestructor here a f w
    obtain ⟨hgc, hdestroyed, hbegun⟩ := after_recordAndStop d stop (hrounds ▸ hw.begun)
    rw [environment, hafter, hgc, hdestroyed]
    exact ⟨es, hrun, hb, by rw [destroyed, hrounds, destroyed], hbegun⟩

/-- The calls of a session record the destructors that are called. -/
lemma stable_recorded : Stable (fun w _ w' => Recorded destroyed w w') runDestructor where
  refl := .refl
  trans := .trans
  caught := id
  raised w _ := .refl w
  aborting := id
  client w c h := .of_client (by rw [destroyed, h, destroyed])
  gc _ _ _ := .of_leads
  runPass here := recorded_runPass (records_runDestructor here)
  deinit here := recorded_deinit (records_runDestructor here)

/-! ### Sessions -/

/-- A session is a run, which calls the destructors that the client has recorded. -/
theorem hasHistory_run (calls : List Call) (config : Config) (scanner : Scanner) :
    ∃ es, HasHistory ⟨(run calls (start config scanner)).2.gc, []⟩ es ∧
      (run calls (start config scanner)).2.gc.collector.heap.Bounded ∧
      es.called = destroyed (run calls (start config scanner)).2.client := by
  obtain ⟨es, hrun, hb, hlog⟩ := stable_recorded.run calls (start config scanner)
    (Gc.partitioned_start config scanner) Heap.bounded_empty
  exact ⟨es, ⟨config, scanner, hrun⟩, hb, by simpa [destroyed, start] using hlog.symm⟩

/-- Whatever a session has done, a collection that returns frees what is doomed then. -/
theorem collect_frees {calls : List Call} {config : Config} {scanner : Scanner} {w w' : World}
    {roots : List UInt64} {n : Nat} (hw : (run calls (start config scanner)).2 = w)
    (hc : w.gc.collector.collecting = false) (hsd : w.gc.isShutdown = false)
    (hscan : w.gc.scanner.scan .main w.client.bag w.client.vars.toList = some roots)
    (hrun : (runPass (environment runDestructor .main) none).run w = .ok n w') :
    n = (w.gc.doomed none roots).card ∧
      w'.gc.collector.lastRescued = (w.gc.rescued none roots).card ∧
      ∀ a, w.gc.collector.isTracked a = true →
        (w'.gc.collector.isTracked a = true ↔ a ∉ w.gc.doomed none roots) := by
  obtain ⟨es, h, hb, -⟩ := hasHistory_run calls config scanner
  have hs := h.reachable.partitioned
  rw [hw] at hs hb
  exact runPass_frees (records_runDestructor .main) hs hb hc hsd hscan hrun

/-! ### Scripts that drop words -/

end World

end HybridGC
