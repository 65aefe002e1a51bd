import HybridGC.Client.Answer
import HybridGC.Proofs.Agreement
import HybridGC.Proofs.Discipline
import HybridGC.Proofs.Pass

/-!
# Layout does not matter

Two collectors over different ladders, asked the same things with the same addresses and the same
root words, answer the same and agree in every state, as long as there are no destructors. So the
layout of the tables decides nothing about which objects live. A single pass frees the same objects
whatever the tables look like, also if there are destructors.
-/

namespace HybridGC

/-! ### Collectors without destructors -/

namespace Gc

variable {δ : Type} {g g' : Gc δ}

/-- No object has a destructor. -/
structure Plain (g : Gc δ) : Prop where
  partitioned : g.Partitioned
  destructor?_eq : ∀ a, g.collector.heap.destructor? a = none

namespace Plain

lemma start (config : Config) (scanner : Scanner) : (start config scanner : Gc δ).Plain where
  partitioned := partitioned_start config scanner
  destructor?_eq a := by
    simp [Gc.start, Collector.empty, Heap.destructor?, Heap.header?, Heap.block?]

lemma of_quiet (h : g.Plain) (hq : g.Quiet g') (hp : g'.Partitioned) : g'.Plain :=
  ⟨hp, fun a => (hq.destructor?_eq a).trans (h.destructor?_eq a)⟩

lemma addref (h : g.Plain) (a : UInt64) : (after (addref a) g).Plain :=
  h.of_quiet (.addref h.partitioned a) (h.partitioned.after_addref a)

lemma delref (h : g.Plain) (a : UInt64) : (after (delref a) g).Plain :=
  h.of_quiet (.delref h.partitioned a) (h.partitioned.after_delref a)

lemma setThreshold (h : g.Plain) (n : Nat) : (after (setThreshold n) g).Plain :=
  h.of_quiet (.setThreshold g n) ⟨h.partitioned.collector, h.partitioned.idle⟩

lemma store {heap : Heap δ} {a w : UInt64} {offset : Nat} (h : g.Plain)
    (hs : g.collector.heap.store? a offset w = some heap) :
    Plain { g with collector := { g.collector with heap } } :=
  h.of_quiet (.store hs) (h.partitioned.store hs)

lemma create {alloc : Allocator δ} (h : g.Plain) (hsound : alloc.SoundAt g.collector.heap)
    (size : Nat) : (after (create alloc size none) g).Plain := by
  have hp := h.partitioned.after_create hsound size none
  rcases create_cases h.partitioned hsound size none with ⟨e, g', hr, hq⟩ | ⟨a, c, hr, hc⟩
  · rw [after, hr] at hp ⊢
    exact h.of_quiet hq hp
  · rw [after, hr] at hp ⊢
    refine ⟨hp, fun b => ?_⟩
    rw [hc.destructor?_eq]
    split_ifs
    · rfl
    · exact h.destructor?_eq b

/-- Where nothing has a destructor, condemning objects owes none, whichever they are. -/
lemma dooms {owed : List (UInt64 × δ)} (h : g.Plain) (hd : g.Dooms g' owed) (hp : g'.Partitioned) :
    g'.Plain ∧ owed = [] := by
  have hnone (a : UInt64) : g'.collector.heap.destructor? a = none :=
    (hd.sameObjects.destructor?_eq a).trans (h.destructor?_eq a)
  refine ⟨⟨hp, hnone⟩, ?_⟩
  rw [hd.owed_eq, List.eq_nil_iff_forall_not_mem]
  rintro ⟨a, d⟩ hx
  simp [Collector.mem_pendingDestructors, hnone] at hx

/-- A pass that opens owes no destructors. -/
lemma openPass (h : g.Plain) (fresh : Option UInt64) (scan : Option (List UInt64)) :
    (after (openPass fresh scan) g).Plain ∧
      ∀ pass? g', (Gc.openPass fresh scan).run g = .ok pass? g' → ∀ pass ∈ pass?,
        pass.pending = [] := by
  have hp := h.partitioned.after_openPass fresh scan
  rcases openPass_cases h.partitioned fresh scan with ⟨g₁, hr, hq⟩ | ⟨pass, g₁, hr, hd⟩
  · rw [after, hr] at hp ⊢
    refine ⟨h.of_quiet hq hp, fun pass? g' heq pass hpass => ?_⟩
    cases heq
    cases hpass
  · rw [after, hr] at hp ⊢
    obtain ⟨hplain, hnone⟩ := h.dooms hd hp
    refine ⟨hplain, fun pass? g' heq pass hpass => ?_⟩
    cases heq
    cases hpass
    exact hnone

/-- Neither does a teardown that begins. -/
lemma beginTeardown (h : g.Plain) :
    (after beginTeardown g).Plain ∧
      ∀ owed? g', Gc.beginTeardown.run g = .ok owed? g' → ∀ owed ∈ owed?, owed = [] := by
  have hp := h.partitioned.after_beginTeardown
  rcases beginTeardown_cases h.partitioned with hr | ⟨f, g₁, hr, hq⟩ | ⟨owed, g₁, hr, hd, -⟩
  · rw [after, hr]
    refine ⟨h, fun owed? g' heq owed howed => ?_⟩
    cases heq
    cases howed
  · rw [after, hr] at hp ⊢
    refine ⟨h.of_quiet hq hp, fun owed? g' heq => ?_⟩
    cases heq
  · rw [after, hr] at hp ⊢
    obtain ⟨hplain, hnone⟩ := h.dooms hd hp
    refine ⟨hplain, fun owed? g' heq owed howed => ?_⟩
    cases heq
    cases howed
    exact hnone

lemma swept {c : Collector δ} (h : g.Plain) (hs : g.collector.Swept c) :
    Plain { g with collector := c } :=
  ⟨h.partitioned.swept hs, fun a => (hs.destructor?_eq a).trans (h.destructor?_eq a)⟩

lemma closePass (h : g.Plain) : (after closePass g).Plain := by
  obtain ⟨c, hr, hfin⟩ := closePass_finished g
  rw [after, hr]
  exact h.swept hfin.swept

lemma endTeardown (h : g.Plain) : (after endTeardown g).Plain := by
  obtain ⟨c, hr, hswept, -⟩ := endTeardown_swept g
  rw [after, hr]
  exact h.swept hswept

end Plain

end Gc

/-! ### Hosts that agree -/

namespace Host

variable {μ δ α α' : Type} {s s' : Host μ δ}

/-- The clients are in the same state, the collectors agree, and there are no destructors. -/
structure Agree (s s' : Host μ δ) : Prop where
  client_eq : s'.client = s.client
  gc : s.gc.Agree s'.gc
  plain : s.gc.Plain

/-- A call on the collectors leaves the clients alone, so they stay in agreement. That the first
call runs without destructors is enough: the headers of the second are the same. -/
lemma Agree.onGc {V : α → α' → Prop} {op : Faulting (Gc δ) α} {op' : Faulting (Gc δ) α'}
    (h : s.Agree s') (hop : Alike Gc.Agree V (op.run s.gc) (op'.run s'.gc))
    (hplain : (after op s.gc).Plain) :
    Alike Agree V ((onGc op).run s) ((onGc op').run s') := by
  rw [run_onGc, run_onGc]
  rw [after] at hplain
  generalize op.run s.gc = r at hop hplain
  generalize op'.run s'.gc = r' at hop
  cases hop with
  | ok hv hg => exact .ok hv ⟨h.client_eq, hg, hplain⟩
  | error e hg => exact .error _ ⟨h.client_eq, hg, hplain⟩

/-- A call that keeps the collectors in lockstep keeps the hosts in lockstep if it adds no
destructor. -/
lemma lockstep_onGc {V : α → α' → Prop} {op : Faulting (Gc δ) α} {op' : Faulting (Gc δ) α'}
    (hop : Lockstep Gc.Agree V op op') (hplain : ∀ g : Gc δ, g.Plain → (after op g).Plain) :
    Lockstep (Agree (μ := μ)) V (onGc op) (onGc op') :=
  fun _ _ h => h.onGc (hop h.gc) (hplain _ h.plain)

/-! ### Requests -/

/-- A call on a collector with what it meets outside: which address the allocator answers, and which
root words a pass is given, or nothing where the scanner cannot scan. -/
inductive Request where
  | allocate (size : Nat) (granted : Except GcError UInt64) (scan : Option (List UInt64))
  | addref (p : UInt64)
  | delref (p : UInt64)
  | swapref (slot : PointerSlot) (v : UInt64)
  | collect (scan : Option (List UInt64))
  | deinit
  | setThreshold (n : Nat)
  /-- A plain write into a payload. -/
  | store (a : UInt64) (offset : Nat) (w : UInt64)

/-- The heap with a fresh block at an address. -/
def place (size : Nat) (d : Option δ) (a : UInt64) (h : Heap δ) : Heap δ :=
  { h with blocks := h.blocks.insert a (.fresh size d) }

/-- An allocator that answers what it is told, scans that report what they are told, and no
destructors. -/
def told (granted : Except GcError UInt64) (scan : Option (List UInt64)) : Environment μ δ where
  alloc h size d := granted.map fun a => (a, place size d a h)
  scan _ _ := scan
  beginRound _ c := c
  destroy _ _ := pure ()

namespace Request

/-- What a client of a collector does to make a request. -/
def act : Request → Act (List UInt64) δ Answer
  | allocate size granted scan => do
    match ← Host.allocate (told granted scan) size none with
    | .error e => return .error e
    | .ok a => return .word a
  | addref p => return .word (← onGc (Gc.addref p))
  | delref p => do
    onGc (Gc.delref p)
    return .nothing
  | swapref slot v => do
    Host.swapref slot.cell v
    return .nothing
  | collect scan => return .count (← runPass (told (.error .shutDown) scan) none)
  | deinit => do
    Host.deinit (told (.error .shutDown) none)
    return .nothing
  | setThreshold n => do
    onGc (Gc.setThreshold n)
    return .nothing
  | store a offset w => do
    let s ← get
    match s.gc.collector.heap.store? a offset w with
    | none => return .refused
    | some heap =>
      set { s with gc := { s.gc with collector := { s.gc.collector with heap } } }
      return .nothing

/-- The allocator does not answer null or the address of a block in use. -/
def Possible (s : Host (List UInt64) δ) : Request → Prop
  | allocate _ (.ok a) _ => a ≠ 0 ∧ ¬ s.gc.collector.heap.Live a
  | _ => True

end Request

/-- Make a request. A fault is an answer too: it ends the call, and what has been changed stays. -/
def ask (r : Request) (s : Host (List UInt64) δ) : Answer × Host (List UInt64) δ :=
  match r.act.run s with
  | .ok answer s' => (answer, s')
  | .error (.unwinding f) s' => (.fault f, s')
  | .error (.aborting f) s' => (.fault f, s')

/-- Make requests one after the other. -/
def askAll : List Request → Host (List UInt64) δ → List Answer × Host (List UInt64) δ
  | [], s => ([], s)
  | r :: rs, s =>
    let (answer, s) := ask r s
    let (answers, s) := askAll rs s
    (answer :: answers, s)

/-- Each request is possible when it is made. -/
def AllPossible : List Request → Host (List UInt64) δ → Prop
  | [], _ => True
  | r :: rs, s => r.Possible s ∧ AllPossible rs (ask r s).2

lemma block?_place (size : Nat) (d : Option δ) (a b : UInt64) (h : Heap δ) :
    (place size d a h).block? b = if b = a then some (.fresh size d) else h.block? b := by
  simp only [place, Heap.block?, Std.TreeMap.getElem?_insert, Std.LawfulEqCmp.compare_eq_iff_eq]
  simp only [eq_comm]

/-- An allocator that is told its answer answers the same on every heap, and changes heaps with the
same blocks alike. -/
lemma uniform_told (granted : Except GcError UInt64) (scan : Option (List UInt64)) :
    Gc.Uniform (told granted scan : Environment μ δ).alloc := by
  intro h h' hsame size d
  cases granted with
  | error e => exact .inl ⟨e, rfl, rfl⟩
  | ok a =>
    refine .inr ⟨a, _, _, rfl, rfl, fun b => ?_⟩
    rw [block?_place, block?_place, hsame]

/-- An allocator that is told its answer is sound where the answer is not null and not in use. -/
lemma soundAt_told {granted : Except GcError UInt64} {h : Heap δ}
    (hgranted : ∀ a, granted = .ok a → a ≠ 0 ∧ ¬ h.Live a) (scan : Option (List UInt64)) :
    Allocator.SoundAt (told granted scan : Environment μ δ).alloc h := by
  intro size d a k ha
  cases granted with
  | error e => simp [told, Except.map] at ha
  | ok b =>
    simp only [told, Except.map, Except.ok.injEq, Prod.mk.injEq] at ha
    obtain ⟨rfl, rfl⟩ := ha
    obtain ⟨hne, hlive⟩ := hgranted b rfl
    exact ⟨hne, hlive, fun c => block?_place size d b c h⟩

/-! ### Lockstep -/

/-- Running no destructors, and then closing what owes none. -/
lemma lockstep_undertake {env : Environment μ δ} {close : Faulting (Gc δ) α}
    {owed owed' : List (UInt64 × δ)} (howed : owed = []) (howed' : ∀ x, x ∈ owed' ↔ x ∈ owed)
    (hclose : Lockstep Gc.Agree Eq close close)
    (hplain : ∀ g : Gc δ, g.Plain → (after close g).Plain) :
    Lockstep (Agree (μ := μ)) Eq (destroyAll env owed >>= fun _ => onGc close)
      (destroyAll env owed' >>= fun _ => onGc close) := by
  subst howed
  obtain rfl : owed' = [] := List.eq_nil_iff_forall_not_mem.2 fun x hx => by
    simpa using (howed' x).1 hx
  exact .bind (V := Eq) (.pure rfl) fun _ _ _ => lockstep_onGc hclose hplain

/-- A pass goes in lockstep, with or without a fresh object: it opens alike, owes nothing, and
closes alike. -/
lemma lockstep_runPass (granted : Except GcError UInt64) (scan : Option (List UInt64))
    (fresh : Option UInt64) :
    Lockstep (Agree (μ := μ) (δ := δ)) Eq (runPass (told granted scan) fresh)
      (runPass (told granted scan) fresh) := by
  have hopen : Lockstep (Agree (μ := μ) (δ := δ))
      (fun x x' => Option.Rel Pass.Agree x x' ∧ ∀ pass ∈ x, pass.pending = [])
      (onGc (Gc.openPass fresh scan)) (onGc (Gc.openPass fresh scan)) := by
    intro s s' h
    obtain ⟨hplain, hnone⟩ := h.plain.openPass fresh scan
    exact h.onGc ((h.gc.openPass h.plain.partitioned fresh scan).and_left hnone) hplain
  unfold runPass
  refine .bind .get fun _ _ _ => .bind hopen ?_
  rintro _ _ ⟨hrel, hnone⟩
  cases hrel with
  | none => exact .pure rfl
  | @some pass pass' hpass =>
    refine .bind (V := Eq) (fun _ _ h => .ok rfl h) fun _ _ _ => ?_
    exact lockstep_undertake (hnone pass rfl) hpass.mem_pending Gc.lockstep_closePass
      fun g hg => hg.closePass

/-- A teardown goes in lockstep, also one that is refused because a pass is open. -/
lemma lockstep_deinit (granted : Except GcError UInt64) (scan : Option (List UInt64)) :
    Lockstep (Agree (μ := μ) (δ := δ)) Eq (deinit (told granted scan))
      (deinit (told granted scan)) := by
  have hopen : Lockstep (Agree (μ := μ) (δ := δ))
      (fun x x' => Option.Rel (fun owed owed' => ∀ y, y ∈ owed' ↔ y ∈ owed) x x' ∧
        ∀ owed ∈ x, owed = [])
      (onGc Gc.beginTeardown) (onGc Gc.beginTeardown) := by
    intro s s' h
    obtain ⟨hplain, hnone⟩ := h.plain.beginTeardown
    exact h.onGc ((h.gc.beginTeardown h.plain.partitioned).and_left hnone) hplain
  unfold deinit
  refine .bind hopen ?_
  rintro _ _ ⟨hrel, hnone⟩
  cases hrel with
  | none => exact .pure rfl
  | @some owed owed' howed =>
    refine .bind (V := Eq) (fun _ _ h => .ok rfl h) fun _ _ _ => ?_
    exact lockstep_undertake (hnone owed rfl) howed Gc.lockstep_endTeardown
      fun g hg => hg.endTeardown

/-- An allocation goes in lockstep, together with the pass that it makes if one is due. -/
lemma Agree.allocate {granted : Except GcError UInt64} (h : s.Agree s')
    (hgranted : ∀ a, granted = .ok a → a ≠ 0 ∧ ¬ s.gc.collector.heap.Live a)
    (scan : Option (List UInt64)) (size : Nat) :
    Alike Agree Eq ((Host.allocate (told granted scan) size none).run s)
      ((Host.allocate (told granted scan) size none).run s') := by
  unfold Host.allocate
  have hsound := soundAt_told (μ := μ) hgranted scan
  refine .bind (h.onGc (Gc.lockstep_create (uniform_told granted scan) size none h.gc)
    (h.plain.create hsound size)) ?_
  rintro x _ rfl
  cases x with
  | error e => exact .pure rfl
  | ok a =>
    refine .bind .get fun t t' ht => ?_
    -- whether a pass is due is read off the statistics and the table sizes, not off the layout
    refine .ite (by rw [ht.gc.isDue_eq]) ?_ (.pure rfl)
    exact .bind (lockstep_runPass granted scan (some a)) fun _ _ _ => .pure rfl

namespace Agree

variable {s s' : Host (List UInt64) δ}

/-- Storing a word is refused by both hosts or by neither, and keeps them in agreement. -/
lemma store (h : s.Agree s') (a : UInt64) (offset : Nat) (w : UInt64) :
    s.gc.collector.heap.store? a offset w = none ∧
        s'.gc.collector.heap.store? a offset w = none ∨
      ∃ k k', s.gc.collector.heap.store? a offset w = some k ∧
        s'.gc.collector.heap.store? a offset w = some k' ∧
        Agree { s with gc := { s.gc with collector := { s.gc.collector with heap := k } } }
          { s' with gc := { s'.gc with collector := { s'.gc.collector with heap := k' } } } := by
  rcases h.gc.collector.heap.store? a offset w with hnone | ⟨k, k', hk, hk', hsame⟩
  · exact .inl hnone
  · exact .inr ⟨k, k', hk, hk', h.client_eq, h.gc.withCollector (h.gc.collector.withHeap hsame),
      h.plain.store hk⟩

lemma read_eq (h : s.Agree s') (slot : PointerSlot) : slot.cell.read s' = slot.cell.read s := by
  cases slot with
  | external i => simp [PointerSlot.cell, h.client_eq]
  | word a i => simp [PointerSlot.cell, h.gc.collector.heap.load?_eq]

/-- Writing to a slot keeps hosts in agreement, also where the slot is in no block and nothing is
written. -/
lemma write (h : s.Agree s') (slot : PointerSlot) (v : UInt64) :
    (slot.cell.write v s).Agree (slot.cell.write v s') := by
  cases slot with
  | external i => exact { h with client_eq := congrArg (·.set i v) h.client_eq }
  | word a i =>
    simp only [PointerSlot.cell]
    rcases h.store a (8 * i) v with ⟨hk, hk'⟩ | ⟨k, k', hk, hk', hagree⟩
    · rw [hk, hk']
      exact h
    · rw [hk, hk']
      exact hagree

end Agree

/-- A swap of pointers goes in lockstep: it reads, takes, writes and drops, and each of the four
does. -/
lemma lockstep_swapref (slot : PointerSlot) (v : UInt64) :
    Lockstep Agree Eq (swapref slot.cell v : Act (List UInt64) δ Unit) (swapref slot.cell v) := by
  unfold swapref
  refine .bind .get fun s s' h => ?_
  simp only [h.read_eq]
  refine .bind (lockstep_onGc (Gc.lockstep_addref v) fun g hg => hg.addref v) ?_
  rintro new _ rfl
  refine .bind (.update fun t t' ht => ht.write slot new) fun _ _ _ => ?_
  exact lockstep_onGc (Gc.lockstep_delref _) fun g hg => hg.delref _

/-- Every request goes in lockstep. -/
lemma Agree.act {s s' : Host (List UInt64) δ} (h : s.Agree s') (r : Request)
    (hr : r.Possible s) : Alike Agree Eq (r.act.run s) (r.act.run s') := by
  -- a request is one call or a few in a row, and each of them is in lockstep
  cases r with
  | allocate size granted scan =>
    have hgranted (a : UInt64) (ha : granted = .ok a) : a ≠ 0 ∧ ¬ s.gc.collector.heap.Live a := by
      subst ha
      exact hr
    refine .bind (h.allocate hgranted scan size) ?_
    rintro x _ rfl
    cases x <;> exact .pure rfl
  | addref p =>
    refine .bind (lockstep_onGc (Gc.lockstep_addref p) (fun g hg => hg.addref p) h) ?_
    rintro w _ rfl
    exact .pure rfl
  | delref p =>
    refine .bind (lockstep_onGc (Gc.lockstep_delref p) (fun g hg => hg.delref p) h) ?_
    exact fun _ _ _ => .pure rfl
  | swapref slot v => exact .bind (lockstep_swapref slot v h) fun _ _ _ => .pure rfl
  | collect scan =>
    refine .bind (lockstep_runPass _ scan none h) ?_
    rintro n _ rfl
    exact .pure rfl
  | deinit => exact .bind (lockstep_deinit _ _ h) fun _ _ _ => .pure rfl
  | setThreshold n =>
    refine .bind (lockstep_onGc (Gc.lockstep_setThreshold n) (fun g hg => hg.setThreshold n) h) ?_
    exact fun _ _ _ => .pure rfl
  | store a offset w =>
    refine Lockstep.bind .get (fun t t' ht => ?_) h
    rcases ht.store a offset w with ⟨hk, hk'⟩ | ⟨k, k', hk, hk', hagree⟩
    · rw [hk, hk']
      exact .pure rfl
    · rw [hk, hk']
      exact .bind (V := Eq) (fun _ _ _ => .ok rfl hagree) fun _ _ _ => .pure rfl

/-- The step: a possible request gets the same answer, and keeps the hosts in agreement. -/
lemma Agree.ask {s s' : Host (List UInt64) δ} (h : s.Agree s') (r : Request)
    (hr : r.Possible s) :
    (ask r s).1 = (ask r s').1 ∧ (ask r s).2.Agree (ask r s').2 := by
  have hact := h.act r hr
  rw [Host.ask, Host.ask]
  generalize r.act.run s = x at hact ⊢
  generalize r.act.run s' = x' at hact ⊢
  cases hact with
  | ok hv hs => exact ⟨hv, hs⟩
  | error e hs => cases e <;> exact ⟨rfl, hs⟩

/-- The run: the answers to all requests are the same, and the hosts agree at the end. -/
lemma Agree.askAll {s s' : Host (List UInt64) δ} (h : s.Agree s') (rs : List Request)
    (hrs : AllPossible rs s) :
    (askAll rs s).1 = (askAll rs s').1 ∧ (askAll rs s).2.Agree (askAll rs s').2 := by
  induction rs generalizing s s' with
  | nil => exact ⟨rfl, h⟩
  | cons r rs ih =>
    obtain ⟨hr, hrs⟩ := hrs
    obtain ⟨hanswer, hagree⟩ := h.ask r hr
    obtain ⟨hanswers, hagree'⟩ := ih hagree hrs
    refine ⟨?_, hagree'⟩
    simp only [Host.askAll, hanswer, hanswers]

end Host

/-! ### One pass over different tables -/

/-- The two collectors have the same objects in the same partitions, with the same headers and the
same words in the payloads. -/
structure Collector.SameContents {δ : Type} (c c' : Collector δ) : Prop where
  mem_table : ∀ p a, a ∈ c'.table p ↔ a ∈ c.table p
  header?_eq : ∀ ⦃p a⦄, a ∈ c.table p → c'.heap.header? a = c.heap.header? a
  words_eq : ∀ ⦃p a⦄, a ∈ c.table p → c'.heap.words a = c.heap.words a

namespace Collector.SameContents

variable {δ : Type} {c c' : Collector δ} {p : Partition} {a : UInt64}

lemma of_agree (h : c.Agree c') : c.SameContents c' where
  mem_table := h.mem_table
  header?_eq _ a _ := h.heap.header?_eq a
  words_eq _ a _ := h.heap.words_eq a

lemma refs_eq (h : c.SameContents c') (ha : a ∈ c.table p) : c'.heap.refs a = c.heap.refs a := by
  rw [Heap.refs, Heap.refs, h.header?_eq ha]

lemma destructor?_eq (h : c.SameContents c') (ha : a ∈ c.table p) :
    c'.heap.destructor? a = c.heap.destructor? a := by
  rw [Heap.destructor?, Heap.destructor?, h.header?_eq ha]

lemma labelled (h : c.SameContents c') (hc : c.Labelled) : c'.Labelled := by
  intro p a ha
  rw [h.mem_table] at ha
  rw [Heap.state?, h.header?_eq ha]
  exact hc ha

section Opened

variable {c₁ c₁' : Collector δ} {kept : List UInt64} {cyclic : Finset UInt64}

lemma mem_table_opened (h : c.SameContents c') (ho : c.Opened c₁ kept cyclic)
    (ho' : c'.Opened c₁' kept cyclic) (p : Partition) (a : UInt64) :
    a ∈ c₁'.table p ↔ a ∈ c₁.table p := by
  cases p with
  | zeroCount =>
    refine (ho'.mem_zeroCount a).trans (.trans ?_ (ho.mem_zeroCount a).symm)
    exact and_congr_left fun _ => h.mem_table .zeroCount a
  | multiRef =>
    refine (ho'.mem_multiRef a).trans (.trans ?_ (ho.mem_multiRef a).symm)
    exact and_congr_left fun _ => h.mem_table .multiRef a
  | working =>
    refine (ho'.mem_working a).trans (.trans ?_ (ho.mem_working a).symm)
    exact or_congr_left (and_congr_left fun _ => h.mem_table .zeroCount a)

lemma lastRescued_opened (h : c.SameContents c') (ho : c.Opened c₁ kept cyclic)
    (ho' : c'.Opened c₁' kept cyclic) : c₁'.lastRescued = c₁.lastRescued := by
  rw [ho'.lastRescued_eq, ho.lastRescued_eq]
  congr 2
  ext a
  rw [Table.mem_toFinset, Table.mem_toFinset]
  exact h.mem_table .zeroCount a

/-- A destructor that is owed is one of an object that was tracked before. -/
lemma mem_pendingDestructors_opened (h : c.SameContents c') (ho : c.Opened c₁ kept cyclic)
    (ho' : c'.Opened c₁' kept cyclic) (x : UInt64 × δ) :
    x ∈ c₁'.pendingDestructors ↔ x ∈ c₁.pendingDestructors := by
  obtain ⟨a, d⟩ := x
  rw [mem_pendingDestructors, mem_pendingDestructors, ho.sameObjects.destructor?_eq,
    ho'.sameObjects.destructor?_eq]
  refine (and_congr_left' (h.mem_table_opened ho ho' .working a)).trans ?_
  refine and_congr_right fun ha => ?_
  rcases (ho.mem_working a).1 ha with hz | hx
  · rw [h.destructor?_eq (p := .zeroCount) hz.1]
  · rw [h.destructor?_eq (p := .multiRef) (ho.cyclic_multiRef a hx)]

end Opened

end Collector.SameContents

namespace Gc

variable {δ : Type} {g g' : Gc δ} {fresh : Option UInt64} {roots : List UInt64}

/-- The same objects are cyclic. -/
lemma cyclic_congr (h : g.collector.SameContents g'.collector)
    (htrace : g'.tracesCycles fresh.isSome = g.tracesCycles fresh.isSome) :
    g'.cyclic fresh roots = g.cyclic fresh roots := by
  rw [cyclic, cyclic, htrace]
  split
  case isFalse => rfl
  case isTrue =>
    refine Heap.toFinset_unreachable_congr g.collector.multiRef.nodup_addresses
      g'.collector.multiRef.nodup_addresses (h.mem_table .multiRef)
      (fun a ha => h.refs_eq (p := .multiRef) ha) ?_ ?_ fun _ _ => Iff.rfl
    · rintro a (ha | ha)
      · exact h.words_eq (p := .zeroCount) (List.mem_of_mem_filter ha)
      · exact h.words_eq (p := .multiRef) ha
    · intro a
      rw [List.mem_filter, List.mem_filter]
      exact and_congr_left fun _ => h.mem_table .zeroCount a

/-- A pass can open. It looks for cycles or not. -/
structure Ready (g : Gc δ) (fresh : Option UInt64) (tracing : Bool) : Prop where
  not_mem_working : ∀ a, a ∉ g.collector.working
  collecting_eq : g.collector.collecting = false
  isShutdown_eq : g.isShutdown = false
  tracesCycles_eq : g.tracesCycles fresh.isSome = tracing

/-- A pass with the same roots has opened on both collectors. It has rescued and condemned the same
objects, and owes the same destructors. -/
structure OpenedAlike (fresh : Option UInt64) (roots : List UInt64) (g g' : Gc δ)
    (pass pass' : Pass δ) (c c' : Collector δ) : Prop where
  run_eq : (Gc.openPass fresh (some roots)).run g = .ok (some pass) { g with collector := c }
  run_eq' : (Gc.openPass fresh (some roots)).run g' = .ok (some pass') { g' with collector := c' }
  agree : pass.Agree pass'
  mem_table : ∀ p a, a ∈ c'.table p ↔ a ∈ c.table p
  lastRescued_eq : c'.lastRescued = c.lastRescued

/-- Where both collectors can open a pass, and both would look for cycles or neither would, they
open it alike. -/
lemma Ready.openedAlike {tracing : Bool} (hg : g.Ready fresh tracing) (hg' : g'.Ready fresh tracing)
    (h : g.collector.SameContents g'.collector) (hl : g.collector.Labelled) (roots : List UInt64) :
    ∃ pass pass' c c', OpenedAlike fresh roots g g' pass pass' c c' := by
  obtain ⟨c, condemned, hrun, hcyclic, ho⟩ :=
    openPass_opened hl hg.not_mem_working hg.collecting_eq hg.isShutdown_eq fresh roots
  obtain ⟨c', condemned', hrun', hcyclic', ho'⟩ := openPass_opened (h.labelled hl)
    hg'.not_mem_working hg'.collecting_eq hg'.isShutdown_eq fresh roots
  rw [cyclic_congr h (hg'.tracesCycles_eq.trans hg.tracesCycles_eq.symm)] at hcyclic' ho'
  refine ⟨_, _, c, c', hrun, hrun', ⟨fun a => ?_, ?_⟩, ?_, ?_⟩
  · rw [← List.mem_toFinset, ← List.mem_toFinset, hcyclic, hcyclic']
  · exact h.mem_pendingDestructors_opened ho ho'
  · exact h.mem_table_opened ho ho'
  · exact h.lastRescued_opened ho ho'

/-- What can be seen of the two collectors is the same. -/
structure SameView (g g' : Gc δ) : Prop where
  isTracked_eq : ∀ a, g'.collector.isTracked a = g.collector.isTracked a
  header?_eq : ∀ a, g'.header? a = g.header? a
  words?_eq : ∀ a, g'.words? a = g.words? a
  size_eq : ∀ p, (g'.collector.table p).size = (g.collector.table p).size
  stats_eq : g'.collector.stats = g.collector.stats

lemma Agree.sameView (h : g.Agree g') : g.SameView g' where
  isTracked_eq := h.collector.isTracked_eq
  header?_eq := h.header?_eq
  words?_eq a := by rw [words?, words?, h.collector.isTracked_eq, h.collector.heap.words_eq]
  size_eq := h.collector.size_eq
  stats_eq := h.collector.stats_eq

end Gc

namespace Host

variable {δ : Type}

/-- A client of a new collector. -/
def start (l : Ladder) (config : Config) (scanner : Scanner) (client : List UInt64) :
    Host (List UInt64) δ :=
  ⟨client, Gc.start { config with ladder := l } scanner⟩

/-- New collectors over any two ladders agree: their tables are empty, and so are their heaps. -/
lemma agree_start (l l' : Ladder) (config : Config) (scanner : Scanner) (client : List UInt64) :
    (start l config scanner client : Host (List UInt64) δ).Agree
      (start l' config scanner client) where
  client_eq := rfl
  gc := Gc.agree_start config l l' scanner
  plain := Gc.Plain.start _ scanner

/-- Layout never matters to what lives. Two new collectors over any two ladders, without
destructors, give the same answers to the same requests, and after any of them look the same. And on
any two collectors with the same contents, however their tables are laid out, a pass with the same
roots rescues and condemns the same objects, be there destructors or not. -/
theorem layout_irrelevant (l l' : Ladder) (config : Config) (scanner : Scanner)
    (client : List UInt64) :
    (∀ rs, AllPossible rs (start l config scanner client : Host (List UInt64) δ) →
      let s : Host (List UInt64) δ := start l config scanner client
      let s' : Host (List UInt64) δ := start l' config scanner client
      (askAll rs s).1 = (askAll rs s').1 ∧ (askAll rs s).2.client = (askAll rs s').2.client ∧
        (askAll rs s).2.gc.SameView (askAll rs s').2.gc) ∧
    ∀ {g g' : Gc δ} {fresh : Option UInt64} {tracing : Bool},
      g.collector.SameContents g'.collector → g.collector.Labelled → g.Ready fresh tracing →
      g'.Ready fresh tracing →
      ∀ roots, ∃ pass pass' c c', Gc.OpenedAlike fresh roots g g' pass pass' c c' := by
  refine ⟨fun rs hrs => ?_, fun h hl hg hg' roots => hg.openedAlike hg' h hl roots⟩
  obtain ⟨hanswers, hagree⟩ := (agree_start l l' config scanner client).askAll rs hrs
  exact ⟨hanswers, hagree.client_eq.symm, hagree.gc.sameView⟩

/-- A ladder on which every table is one chain. -/
def oneBucket : Ladder :=
  ⟨[1], by decide, by decide⟩

/-- An object that only its own payload refers to, and one without references. -/
def selfReference : List Request :=
  [.allocate 16 (.ok 32) none, .store 32 0 32, .addref 32, .allocate 16 (.ok 96) none]

/-- The allocator is told two addresses that are not in use. -/
lemma allPossible_selfReference :
    AllPossible selfReference (start .standard {} .noRoots [] : Host (List UInt64) Unit) := by
  have hlive {s : Host (List UInt64) Unit} {a : UInt64}
      (h : (s.gc.collector.heap.block? a).isSome = false) : ¬ s.gc.collector.heap.Live a := by
    rintro ⟨b, hb, -⟩
    simp [hb] at h
  exact ⟨⟨by decide, hlive (by decide +kernel)⟩, trivial, trivial,
    ⟨by decide, hlive (by decide +kernel)⟩, trivial⟩

/-- The standard ladder against one bucket, and a pass that rescues the one object and condemns the
other. -/
theorem layout_irrelevant_selfReference :
    let s : Host (List UInt64) Unit := start .standard {} .noRoots []
    let s' : Host (List UInt64) Unit := start oneBucket {} .noRoots []
    AllPossible selfReference s ∧ (askAll selfReference s).1 = (askAll selfReference s').1 ∧
      (askAll selfReference s).2.gc.SameView (askAll selfReference s').2.gc ∧
      ∃ pass pass' c c', Gc.OpenedAlike none [96] (askAll selfReference s).2.gc
        (askAll selfReference s').2.gc pass pass' c c' := by
  intro s s'
  obtain ⟨hanswers, hpasses⟩ := layout_irrelevant (δ := Unit) .standard oneBucket {} .noRoots []
  obtain ⟨hanswers, -, hview⟩ := hanswers selfReference allPossible_selfReference
  obtain ⟨-, hagree⟩ := (agree_start .standard oneBucket {} .noRoots []).askAll selfReference
    allPossible_selfReference
  have hpart := hagree.plain.partitioned
  refine ⟨allPossible_selfReference, hanswers, hview, ?_⟩
  have hready : (askAll selfReference s).2.gc.Ready none true :=
    ⟨Table.isEmpty_iff.1 (by decide +kernel), by decide +kernel, by decide +kernel,
      by decide +kernel⟩
  have hready' : (askAll selfReference s').2.gc.Ready none true :=
    ⟨Table.isEmpty_iff.1 (by decide +kernel), by decide +kernel, by decide +kernel,
      by decide +kernel⟩
  exact hpasses (.of_agree hagree.gc.collector) hpart.collector.labelled hready hready' [96]

end Host

end HybridGC
