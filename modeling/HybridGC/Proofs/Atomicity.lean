import HybridGC.Proofs.Growth
import HybridGC.Proofs.Host

/-!
# Failed calls change nothing

Counting looks an object up and looks at its count before it changes anything, a swap of pointers
writes only when it has the new reference, and an allocation is registered only when there is a
block for it. So a call that stops there, or is refused, leaves everything as it was, at any moment
of a pass or a teardown and after a stop as well. What destructors that catch such a stop go on with
is what they had before.
-/

namespace HybridGC

/-! ### Blocks that cannot be laid out -/

/-- There is no block of a size that no memory has, nor of one that the rest of the arena has not.
-/
lemma Heap.allocate_eq_error_iff {δ : Type} {h : Heap δ} {size : Nat} {d : Option δ}
    {e : GcError} :
    h.allocate size d = .error e ↔
      Arena.largestBlock < Arena.headerSize + size ∧ e = .invalidLayout size ∨
      Arena.headerSize + size ≤ Arena.largestBlock ∧ e = .allocationFailed size ∧
        Arena.base + Arena.capacity < h.cursor + (Arena.headerSize + size) := by
  simp only [allocate]
  by_cases hlarge : Arena.largestBlock < Arena.headerSize + size
  · simp [hlarge, Nat.not_le.2 hlarge, eq_comm]
  · by_cases hfull : Arena.base + Arena.capacity < h.cursor + (Arena.headerSize + size)
    · simp [hlarge, Nat.not_lt.1 hlarge, hfull, eq_comm]
    · simp [hlarge, hfull]

namespace Gc

variable {δ : Type} {g g' : Gc δ} {a : UInt64} {f : Fault}

/-! ### Counting -/

/-- The count that cannot be counted up. -/
def largestCount : UInt64 := .ofNat (UInt64.size - 1)

/-- Counting is refused at an address, not ignored: the collector has not been shut down, and it
tracks no object there or the count is at a limit. -/
def Refuses (g : Gc δ) (limit a : UInt64) : Prop :=
  a ≠ 0 ∧ g.isShutdown = false ∧
    (g.collector.isTracked a = false ∨ g.collector.heap.refs a = limit)

/-- What counting is refused with at an address, given what it is at a limit. -/
def refusal (g : Gc δ) (a : UInt64) (untracked atLimit : Fault) : Fault :=
  if g.collector.isTracked a then atLimit else untracked

lemma eq_largestCount_iff {n : UInt64} : n = largestCount ↔ n.toNat + 1 = UInt64.size := by
  rw [← UInt64.toNat_inj]
  have : largestCount.toNat = UInt64.size - 1 := rfl
  have := n.toNat_lt_size
  omega

/-- What taking a reference is refused for, and with which fault; the collector is then the one it
was. -/
lemma addref_refused_iff (hg : g.collector.Partitioned) :
    (addref a).run g = .error f g' ↔ g.Refuses largestCount a ∧
      f = g.refusal a (.addrefUntracked a) .countOverflow ∧ g' = g := by
  rw [addref_eq_error_iff hg, Refuses, refusal, eq_largestCount_iff]
  cases g.collector.isTracked a <;> simp <;> tauto

lemma delref_refused_iff (hg : g.collector.Partitioned) :
    (delref a).run g = .error f g' ↔ g.Refuses 0 a ∧
      f = g.refusal a (.delrefUntracked a) .countUnderflow ∧ g' = g := by
  rw [delref_eq_error_iff hg, Refuses, refusal]
  cases g.collector.isTracked a <;> simp <;> tauto

/-! ### Allocation -/

/-- An allocation fails by shutdown, which is logged, or by the allocator, which is not. -/
lemma create_eq_error_iff {alloc : Allocator δ} {size : Nat} {d : Option δ} {e : GcError} :
    (create alloc size d).run g = .ok (.error e) g' ↔
      g.isShutdown = true ∧ e = .shutDown ∧
        g' = { g with collector := g.collector.note (.allocationRefused size) } ∨
      g.isShutdown = false ∧ alloc g.collector.heap size d = .error e ∧ g' = g := by
  by_cases hs : g.isShutdown = true
  · rw [create_of_isShutdown hs]
    simp [hs, eq_comm]
  rw [Bool.not_eq_true] at hs
  cases ha : alloc g.collector.heap size d with
  | error e' =>
    rw [create_of_error hs ha]
    simp [hs, eq_comm]
  | ok r =>
    obtain ⟨a, heap⟩ := r
    cases ht : (Collector.track a).run { g.collector with heap } <;> simp [create, hs, ha, ht]

end Gc

namespace Host

variable {μ δ : Type} {s s' : Host μ δ}

/-! ### Calls that stop or are refused -/

/-- What is refused without a change to the collector is refused without a change to the host. -/
lemma run_onGc_eq_error_iff {α : Type} {act : Faulting (Gc δ) α} {P : Prop} {f : Fault}
    {stop : Stop} (hact : ∀ f' g', act.run s.gc = .error f' g' ↔ P ∧ f' = f ∧ g' = s.gc) :
    (onGc act).run s = .error stop s' ↔ P ∧ stop = .unwinding f ∧ s' = s := by
  rw [run_onGc]
  cases hr : act.run s.gc with
  | ok x g =>
    have hP : ¬ P := fun hP => by
      cases hr.symm.trans ((hact f s.gc).2 ⟨hP, rfl, rfl⟩)
    simp [hP]
  | error f' g =>
    obtain ⟨hP, rfl, rfl⟩ := (hact f' g).1 hr
    constructor
    · rintro ⟨⟩
      exact ⟨hP, rfl, rfl⟩
    · rintro ⟨-, rfl, rfl⟩
      rfl

/-- An allocation that fails runs no pass, since a pass comes after the object has been made. -/
lemma allocate_eq_error_iff {env : Environment μ δ} {size : Nat} {d : Option δ} {e : GcError} :
    (allocate env size d).run s = .ok (.error e) s' ↔
      ∃ g', (Gc.create env.alloc size d).run s.gc = .ok (.error e) g' ∧
        s' = { s with gc := g' } := by
  simp only [allocate, EStateM.run_bind, run_onGc]
  rcases hr : (Gc.create env.alloc size d).run s.gc with ⟨e' | a, g'⟩ | ⟨f, g'⟩
  · simp [eq_comm]
  · simp only [EStateM.run_bind, EStateM.run_get]
    split
    · cases hp : (runPass env (some a)).run { s with gc := g' } <;> simp [hp]
    · simp
  · simp

/-- What stops or is refused leaves the host as it is, but for the note of an allocation after
shutdown. Counting stops exactly where it is refused, and a swap of pointers that is not refused its
new reference takes it and writes before anything can stop it. -/
structure FailsAtomically (s : Host μ δ) : Prop where
  addref_eq_error_iff : ∀ a stop s', (onGc (Gc.addref a)).run s = .error stop s' ↔
    s.gc.Refuses Gc.largestCount a ∧
      stop = .unwinding (s.gc.refusal a (.addrefUntracked a) .countOverflow) ∧ s' = s
  delref_eq_error_iff : ∀ a stop s', (onGc (Gc.delref a)).run s = .error stop s' ↔
    s.gc.Refuses 0 a ∧
      stop = .unwinding (s.gc.refusal a (.delrefUntracked a) .countUnderflow) ∧ s' = s
  swapref_of_refuses : ∀ (cell : Cell μ δ) v, s.gc.Refuses Gc.largestCount v →
    (swapref cell v).run s =
      .error (.unwinding (s.gc.refusal v (.addrefUntracked v) .countOverflow)) s
  swapref_of_not_refuses : ∀ (cell : Cell μ δ) v, ¬ s.gc.Refuses Gc.largestCount v →
    ∃ s', (onGc (Gc.addref v)).run s = .ok v s' ∧
      (swapref cell v).run s = (onGc (Gc.delref (cell.read s))).run (cell.write v s')
  allocate_eq_error_iff : ∀ (env : Environment μ δ) size d e s',
    (allocate env size d).run s = .ok (.error e) s' ↔
      s.gc.isShutdown = true ∧ e = .shutDown ∧ s' = { s with
        gc.collector.journal := .allocationRefused size :: s.gc.collector.journal } ∨
      s.gc.isShutdown = false ∧ env.alloc s.gc.collector.heap size d = .error e ∧ s' = s
  heap_allocate_eq_error_iff : ∀ size d e, s.gc.collector.heap.allocate size d = .error e ↔
    Arena.largestBlock < Arena.headerSize + size ∧ e = .invalidLayout size ∨
      Arena.headerSize + size ≤ Arena.largestBlock ∧ e = .allocationFailed size ∧
        Arena.base + Arena.capacity < s.gc.collector.heap.cursor + (Arena.headerSize + size)

/-- The invariant is all that failing calls rely on; no destructor and no scanner takes part in
them. -/
lemma failsAtomically_of_partitioned (hs : s.gc.collector.Partitioned) : s.FailsAtomically where
  addref_eq_error_iff _ _ _ := run_onGc_eq_error_iff fun _ _ => Gc.addref_refused_iff hs
  delref_eq_error_iff _ _ _ := run_onGc_eq_error_iff fun _ _ => Gc.delref_refused_iff hs
  swapref_of_refuses cell v h :=
    run_swapref_of_error ((Gc.addref_refused_iff hs).2 ⟨h, rfl, rfl⟩)
  swapref_of_not_refuses cell v h := by
    cases hr : (Gc.addref v).run s.gc with
    | error f g => exact absurd ((Gc.addref_refused_iff hs).1 hr).1 h
    | ok x g =>
      obtain rfl := Gc.eq_of_addref_eq_ok hr
      exact ⟨{ s with gc := g }, by simp [hr], run_swapref_of_ok hr⟩
  allocate_eq_error_iff env size d e s' := by
    simp only [Host.allocate_eq_error_iff, Gc.create_eq_error_iff]
    constructor
    · rintro ⟨g', ⟨h, rfl, rfl⟩ | ⟨h, ha, rfl⟩, rfl⟩
      · exact .inl ⟨h, rfl, rfl⟩
      · exact .inr ⟨h, ha, rfl⟩
    · rintro (⟨h, rfl, rfl⟩ | ⟨h, ha, rfl⟩)
      · exact ⟨_, .inl ⟨h, rfl, rfl⟩, rfl⟩
      · exact ⟨_, .inr ⟨h, ha, rfl⟩, rfl⟩
  heap_allocate_eq_error_iff _ _ _ := Heap.allocate_eq_error_iff

/-- Whatever has come about, between passes, inside of a destructor, in a pass that nobody will end
and after shutdown, a call that is refused changes nothing. -/
theorem failed_calls_change_nothing {fs : List (Frame δ)}
    (h : Machine.Arises ⟨s.gc, fs⟩) : s.FailsAtomically :=
  failsAtomically_of_partitioned h.partitioned.collector

/-- The destructor of a doomed object drops the object itself, takes and stores what is not there,
and asks for more memory than there can be. The pass goes on as if it had not. -/
theorem failed_calls_change_nothing_ownerDoomed :
    ∃ s : Host Unit Unit, s.gc.collector.collecting = true ∧
      0x10000030 ∈ s.gc.collector.working ∧
      (onGc (Gc.delref 0x10000030)).run s = .error (.unwinding .countUnderflow) s ∧
      (onGc (Gc.addref 8)).run s = .error (.unwinding (.addrefUntracked 8)) s ∧
      (∀ cell : Cell Unit Unit,
        (swapref cell 8).run s = .error (.unwinding (.addrefUntracked 8)) s) ∧
      (allocate idle Arena.largestBlock none).run s =
        .ok (.error (.invalidLayout Arena.largestBlock)) s := by
  have hs := failed_calls_change_nothing (s := (⟨(), Machine.ownerDoomed⟩ : Host Unit Unit))
    Machine.hasTracing_ownerDoomed.reachable.arises
  generalize hg : Machine.ownerDoomed = g at hs
  have hopen : g.isShutdown = false := by subst hg; decide +kernel
  have hw : 0x10000030 ∈ g.collector.working := by subst hg; decide +kernel
  have hrefs : g.collector.heap.refs 0x10000030 = 0 := by subst hg; decide +kernel
  have ht : g.collector.isTracked 0x10000030 = true := by subst hg; decide +kernel
  have hnt : g.collector.isTracked 8 = false := by subst hg; decide +kernel
  have hdead : g.Refuses 0 0x10000030 := ⟨by decide, hopen, .inr hrefs⟩
  have hnone : g.Refuses Gc.largestCount 8 := ⟨by decide, hopen, .inl hnt⟩
  refine ⟨⟨(), g⟩, by subst hg; decide +kernel, hw, ?_, ?_, fun cell => ?_, ?_⟩
  · exact (hs.delref_eq_error_iff _ _ _).2 ⟨hdead, by simp [Gc.refusal, ht], rfl⟩
  · exact (hs.addref_eq_error_iff _ _ _).2 ⟨hnone, by simp [Gc.refusal, hnt], rfl⟩
  · simpa [Gc.refusal, hnt] using hs.swapref_of_refuses cell 8 hnone
  · refine (hs.allocate_eq_error_iff _ _ _ _ _).2 (.inr ⟨hopen, ?_, rfl⟩)
    exact (hs.heap_allocate_eq_error_iff Arena.largestBlock none _).2 (.inl ⟨by decide, rfl⟩)

end Host

end HybridGC
