import HybridGC.Proofs.Discipline
import HybridGC.Proofs.Host

/-!
# The ledger of a run

A ledger enters each object that is created and each reference that is taken or dropped by a call
that returns, whoever makes it: the client, a swap of pointers or a destructor. It is closed at
shutdown, since later calls are ignored. Nothing else changes a count, so the count of a tracked
object is what the ledger says, in every state that a run can reach.
-/

namespace HybridGC

/-! ### Ledgers -/

/-- An entry of a ledger. -/
inductive Posting where
  | created (a : UInt64)
  | taken (a : UInt64)
  | dropped (a : UInt64)
deriving DecidableEq

/-- The entries of a run, the newest first. -/
abbrev Ledger := List Posting

namespace Ledger

variable {ps : Ledger} {a : UInt64}

/-- The entries made since an object was created. -/
def since (a : UInt64) (ps : Ledger) : Ledger :=
  ps.takeWhile (· ≠ .created a)

/-- How many references to an object have been taken since it was created. -/
def taken (a : UInt64) (ps : Ledger) : Nat :=
  (since a ps).count (.taken a)

/-- How many references to an object have been dropped since it was created. -/
def dropped (a : UInt64) (ps : Ledger) : Nat :=
  (since a ps).count (.dropped a)

/-- Creating an object opens a new account for its address: what was entered of an earlier object
there no longer counts. -/
lemma since_cons (a : UInt64) (p : Posting) (ps : Ledger) :
    since a (p :: ps) = if p = .created a then [] else p :: since a ps := by
  by_cases hp : p = .created a <;> simp [since, hp]

/-- The two ledgers say the same of an object. -/
def Same (a : UInt64) (ps ps' : Ledger) : Prop :=
  taken a ps' = taken a ps ∧ dropped a ps' = dropped a ps

/-- An entry about one object says nothing of the others. -/
lemma same_created {b : UInt64} (h : b ≠ a) (ps : Ledger) : Same b ps (.created a :: ps) := by
  simp [Same, taken, dropped, since_cons, Ne.symm h]

lemma same_taken {b : UInt64} (h : b ≠ a) (ps : Ledger) : Same b ps (.taken a :: ps) := by
  simp [Same, taken, dropped, since_cons, Ne.symm h]

lemma same_dropped {b : UInt64} (h : b ≠ a) (ps : Ledger) : Same b ps (.dropped a :: ps) := by
  simp [Same, taken, dropped, since_cons, Ne.symm h]

lemma posted_taken (a : UInt64) (ps : Ledger) :
    taken a (.taken a :: ps) = taken a ps + 1 ∧ dropped a (.taken a :: ps) = dropped a ps := by
  simp [taken, dropped, since_cons]

lemma posted_dropped (a : UInt64) (ps : Ledger) :
    taken a (.dropped a :: ps) = taken a ps ∧ dropped a (.dropped a :: ps) = dropped a ps + 1 := by
  simp [taken, dropped, since_cons]

lemma posted_created (a : UInt64) (ps : Ledger) :
    taken a (.created a :: ps) = 0 ∧ dropped a (.created a :: ps) = 0 := by
  simp [taken, dropped, since_cons]

end Ledger

/-- The entry that a call makes. It makes none if it does not return or comes after shutdown. -/
def Gc.post {δ α : Type} (g : Gc δ) (act : Faulting (Gc δ) α) (entry : α → Option Posting) :
    List Posting :=
  match act.run g with
  | .ok x _ => if g.isShutdown then [] else (entry x).toList
  | .error _ _ => []

namespace Gc

variable {δ α : Type} {g g' : Gc δ} {act : Faulting (Gc δ) α} {entry : α → Option Posting}

/-- After shutdown no call makes an entry, whatever it answers. -/
lemma post_of_isShutdown (hs : g.isShutdown = true) : g.post act entry = [] := by
  rw [post]
  split <;> simp [hs]

/-- Before shutdown a call that returns makes the entry that its answer determines. -/
lemma post_of_ok {x : α} (hs : g.isShutdown = false) (hr : act.run g = .ok x g') :
    g.post act entry = (entry x).toList := by
  simp [post, hr, hs]

lemma post_of_error {f : Fault} (hr : act.run g = .error f g') : g.post act entry = [] := by
  simp [post, hr]

end Gc

namespace Machine

variable {δ : Type} {m m' : Machine δ} {ps new : Ledger}

/-- One operation, with the entries it makes in the ledger. -/
inductive Posts : Machine δ → List Posting → Machine δ → Prop
  | addref (g : Gc δ) (fs : List (Frame δ)) (a : UInt64) :
      Posts ⟨g, fs⟩ (g.post (Gc.addref a) fun _ => some (.taken a)) ⟨after (Gc.addref a) g, fs⟩
  | delref (g : Gc δ) (fs : List (Frame δ)) (a : UInt64) :
      Posts ⟨g, fs⟩ (g.post (Gc.delref a) fun _ => some (.dropped a)) ⟨after (Gc.delref a) g, fs⟩
  | create (g : Gc δ) (fs : List (Frame δ)) {alloc : Allocator δ}
      (hsound : alloc.SoundAt g.collector.heap) (size : Nat) (d : Option δ) :
      Posts ⟨g, fs⟩ (g.post (Gc.create alloc size d) fun r => r.toOption.map .created)
        ⟨after (Gc.create alloc size d) g, fs⟩
  | note (g : Gc δ) (fs : List (Frame δ)) (msg : Message) :
      Posts ⟨g, fs⟩ [] ⟨after (Gc.note msg) g, fs⟩
  | setThreshold (g : Gc δ) (fs : List (Frame δ)) (n : Nat) :
      Posts ⟨g, fs⟩ [] ⟨after (Gc.setThreshold n) g, fs⟩
  | store (g : Gc δ) (fs : List (Frame δ)) {a w : UInt64} {offset : Nat} {heap : Heap δ}
      (hs : g.collector.heap.store? a offset w = some heap) :
      Posts ⟨g, fs⟩ [] ⟨{ g with collector := { g.collector with heap } }, fs⟩
  | openPass (m : Machine δ) (fresh : Option UInt64) (scan : Option (List UInt64)) :
      Posts m [] (m.perform (Gc.openPass fresh scan) fun pass? => pass?.map (⟨.pass, ·.pending⟩))
  | beginTeardown (m : Machine δ) :
      Posts m [] (m.perform Gc.beginTeardown fun owed? => owed?.map (⟨.teardown, ·⟩))
  | destroy (g : Gc δ) (fs : List (Frame δ)) (u : Undertaking) (x : UInt64 × δ)
      (owed : List (UInt64 × δ)) :
      Posts ⟨g, ⟨u, x :: owed⟩ :: fs⟩ []
        ⟨after (Gc.note (.destroying x.1)) g, ⟨u, owed⟩ :: fs⟩
  | closePass (g : Gc δ) (fs : List (Frame δ)) :
      Posts ⟨g, ⟨.pass, []⟩ :: fs⟩ [] ⟨after Gc.closePass g, fs⟩
  | endTeardown (g : Gc δ) (fs : List (Frame δ)) :
      Posts ⟨g, ⟨.teardown, []⟩ :: fs⟩ [] ⟨after Gc.endTeardown g, fs⟩
  | unwind (g : Gc δ) (f : Frame δ) (fs : List (Frame δ)) : Posts ⟨g, f :: fs⟩ [] ⟨g, fs⟩

/-- The entries are a reading of the operation, and add none. -/
lemma Posts.step (h : Posts m new m') : Step m m' := by
  cases h with
  | addref g fs a => exact .addref g fs a
  | delref g fs a => exact .delref g fs a
  | create g fs hsound size d => exact .create g fs hsound size d
  | note g fs msg => exact .note g fs msg
  | setThreshold g fs n => exact .setThreshold g fs n
  | store g fs hs => exact .store g fs hs
  | openPass m fresh scan => exact .openPass m fresh scan
  | beginTeardown m => exact .beginTeardown m
  | destroy g fs u x owed => exact .destroy g fs u x owed
  | closePass g fs => exact .closePass g fs
  | endTeardown g fs => exact .endTeardown g fs
  | unwind g f fs => exact .unwind g f fs

/-- Every operation makes its entries, so a ledger leaves no operation out. -/
lemma Step.posts (h : Step m m') : ∃ new, Posts m new m' := by
  cases h with
  | addref g fs a => exact ⟨_, .addref g fs a⟩
  | delref g fs a => exact ⟨_, .delref g fs a⟩
  | create g fs hsound size d => exact ⟨_, .create g fs hsound size d⟩
  | note g fs msg => exact ⟨_, .note g fs msg⟩
  | setThreshold g fs n => exact ⟨_, .setThreshold g fs n⟩
  | store g fs hs => exact ⟨_, .store g fs hs⟩
  | openPass m fresh scan => exact ⟨_, .openPass m fresh scan⟩
  | beginTeardown m => exact ⟨_, .beginTeardown m⟩
  | destroy g fs u x owed => exact ⟨_, .destroy g fs u x owed⟩
  | closePass g fs => exact ⟨_, .closePass g fs⟩
  | endTeardown g fs => exact ⟨_, .endTeardown g fs⟩
  | unwind g f fs => exact ⟨_, .unwind g f fs⟩

/-- A run from a new collector leads to a machine and leaves a ledger. -/
inductive HasLedger : Machine δ → Ledger → Prop
  | start (config : Config) (scanner : Scanner) : HasLedger ⟨Gc.start config scanner, []⟩ []
  | post {m m' : Machine δ} {ps new : Ledger} (h : HasLedger m ps) (hp : Posts m new m') :
      HasLedger m' (new ++ ps)

lemma HasLedger.reachable (h : HasLedger m ps) : m.Reachable := by
  induction h with
  | start config scanner => exact ⟨config, scanner, .refl⟩
  | post _ hp ih =>
    obtain ⟨config, scanner, hsteps⟩ := ih
    exact ⟨config, scanner, hsteps.tail hp.step⟩

/-- Whatever has come about by operations has a ledger. -/
lemma Reachable.exists_hasLedger (h : m.Reachable) : ∃ ps, HasLedger m ps := by
  obtain ⟨config, scanner, hsteps⟩ := h
  induction hsteps with
  | refl => exact ⟨[], .start config scanner⟩
  | tail _ hstep ih =>
    obtain ⟨ps, h⟩ := ih
    obtain ⟨new, hp⟩ := hstep.posts
    exact ⟨_, h.post hp⟩

end Machine

/-! ### Counts are what the ledger says -/

namespace Gc

variable {δ : Type} {g g' : Gc δ} {ps ps' : Ledger} {a b n : UInt64} {p q : Partition}

/-- The count of each tracked object is that of the references taken and not dropped. -/
def Accounts (g : Gc δ) (ps : Ledger) : Prop :=
  ∀ a, g.collector.isTracked a = true →
    (g.collector.heap.refs a).toNat + ps.dropped a = ps.taken a

/-- No count has changed, and nothing new is tracked. -/
structure SameCounts (g g' : Gc δ) : Prop where
  refs_eq : ∀ a, g'.collector.heap.refs a = g.collector.heap.refs a
  isTracked : ∀ a, g'.collector.isTracked a = true → g.collector.isTracked a = true

namespace SameCounts

lemma refl (g : Gc δ) : g.SameCounts g :=
  ⟨fun _ => rfl, fun _ => id⟩

lemma store {h : Heap δ} {w : UInt64} {offset : Nat}
    (hs : g.collector.heap.store? a offset w = some h) :
    g.SameCounts { g with collector := { g.collector with heap := h } } :=
  ⟨Heap.refs_store? hs, fun _ => id⟩

/-- A sweep changes no count, and what it frees is no longer tracked. -/
lemma swept {c : Collector δ} (hg : g.Partitioned) (h : g.collector.Swept c) :
    g.SameCounts { g with collector := c } :=
  ⟨h.refs_eq, fun a ha => ((h.isTracked_iff hg.collector.disjoint a).1 ha).1⟩

/-- A pass that opens changes no count, since what it condemns it only moves. Nor does one that does
not open. -/
lemma openPass (hg : g.Partitioned) (fresh : Option UInt64) (scan : Option (List UInt64)) :
    g.SameCounts (after (openPass fresh scan) g) := by
  by_cases hs : g.isShutdown = true
  · rw [after, openPass_of_isShutdown hs]
    exact .refl g
  rw [Bool.not_eq_true] at hs
  cases scan with
  | none =>
    rw [after, openPass_of_no_scan hs]
    exact ⟨fun _ => rfl, fun _ => id⟩
  | some roots =>
    by_cases hc : g.collector.collecting = true
    · rw [after, openPass_of_collecting hc hs]
      exact .refl g
    rw [Bool.not_eq_true] at hc
    obtain ⟨c, condemned, hr, -, hopen⟩ :=
      openPass_opened hg.collector.labelled (hg.idle hc hs) hc hs fresh roots
    rw [after, hr]
    exact ⟨hopen.sameObjects.refs_eq, fun a => (hopen.isTracked_iff (hg.idle hc hs) a).1⟩

lemma beginTeardown (hg : g.Partitioned) : g.SameCounts (after beginTeardown g) := by
  by_cases hs : g.isShutdown = true
  · rw [after, beginTeardown_of_isShutdown hs]
    exact .refl g
  rw [Bool.not_eq_true] at hs
  by_cases hc : g.collector.collecting = true
  · rw [after, beginTeardown_of_collecting hc hs]
    exact ⟨fun _ => rfl, fun _ => id⟩
  rw [Bool.not_eq_true] at hc
  obtain ⟨c, hr, hall⟩ := beginTeardown_allCondemned hg.collector hc hs
  rw [after, hr]
  exact ⟨hall.sameObjects.refs_eq, fun a => (hall.isTracked_iff a).1⟩

lemma closePass (hg : g.Partitioned) : g.SameCounts (after closePass g) := by
  obtain ⟨c, hr, hfin⟩ := closePass_finished g
  rw [after, hr]
  exact .swept hg hfin.swept

lemma endTeardown (hg : g.Partitioned) : g.SameCounts (after endTeardown g) := by
  obtain ⟨c, hr, hswept, -⟩ := endTeardown_swept g
  rw [after, hr]
  exact .swept hg hswept

end SameCounts

lemma ne_zero_of_isTracked (hg : g.Partitioned) (ha : g.collector.isTracked a = true) : a ≠ 0 := by
  obtain ⟨p, hp⟩ := Partitions.isTracked_iff.1 ha
  exact hg.collector.ne_zero hp

namespace Accounts

lemma sameCounts (h : g.Accounts ps) (hs : g.SameCounts g') : g'.Accounts ps := by
  intro a ha
  rw [hs.refs_eq]
  exact h a (hs.isTracked a ha)

/-- One object has another count, and the ledger says so. -/
lemma recounted {c : Collector δ} (h : g.Accounts ps) (hp : a ∈ g.collector.table p)
    (hc : g.collector.Recounted c a n q) (ha : n.toNat + ps'.dropped a = ps'.taken a)
    (hsame : ∀ b ≠ a, Ledger.Same b ps ps') : Accounts { g with collector := c } ps' := by
  intro b hb
  rw [hc.refs_eq]
  split_ifs with hba
  · rw [hba, ha]
  · obtain ⟨htaken, hdropped⟩ := hsame b hba
    rw [htaken, hdropped]
    exact h b ((hc.isTracked_iff hp b).1 hb)

/-- An entry about an address that is not tracked does not matter. -/
lemma same (h : g.Accounts ps)
    (hsame : ∀ b, g.collector.isTracked b = true → Ledger.Same b ps ps') : g.Accounts ps' := by
  intro b hb
  obtain ⟨htaken, hdropped⟩ := hsame b hb
  rw [htaken, hdropped]
  exact h b hb

/-- A reference that is taken is entered. -/
lemma addref (h : g.Accounts ps) (hg : g.Partitioned) (a : UInt64) :
    (after (addref a) g).Accounts ((g.post (addref a) fun _ => some (.taken a)) ++ ps) := by
  by_cases hs : g.isShutdown = true
  · rwa [post_of_isShutdown hs, after, addref_of_ignored (.inr hs)]
  rw [Bool.not_eq_true] at hs
  by_cases h0 : a = 0
  · have hr := addref_of_ignored (g := g) (.inl h0)
    -- a call on null returns without an effect, so its entry is about no object
    rw [post_of_ok hs hr, after, hr]
    exact h.same fun b hb => Ledger.same_taken (h0 ▸ ne_zero_of_isTracked hg hb) ps
  by_cases ht : g.collector.isTracked a = true
  · obtain ⟨p, hp⟩ := Partitions.isTracked_iff.1 ht
    by_cases hn : (g.collector.heap.refs a).toNat + 1 = UInt64.size
    · have hr := addref_of_overflow h0 hs ht hn
      rwa [post_of_error hr, after, hr]
    · obtain ⟨c, q, hr, hc⟩ := addref_recounted hg.collector hs hp hn
      rw [post_of_ok hs hr, after, hr]
      refine h.recounted hp hc ?_ fun b hb => Ledger.same_taken hb ps
      have hcount := h a ht
      have hentry := Ledger.posted_taken a ps
      rw [toNat_add_one hn]
      simp only [Option.toList_some, List.singleton_append]
      omega
  · rw [Bool.not_eq_true] at ht
    have hr := addref_of_not_isTracked h0 hs ht
    rwa [post_of_error hr, after, hr]

/-- A reference that is dropped is entered. -/
lemma delref (h : g.Accounts ps) (hg : g.Partitioned) (a : UInt64) :
    (after (delref a) g).Accounts ((g.post (delref a) fun _ => some (.dropped a)) ++ ps) := by
  by_cases hs : g.isShutdown = true
  · rwa [post_of_isShutdown hs, after, delref_of_ignored (.inr hs)]
  rw [Bool.not_eq_true] at hs
  by_cases h0 : a = 0
  · have hr := delref_of_ignored (g := g) (.inl h0)
    rw [post_of_ok hs hr, after, hr]
    exact h.same fun b hb => Ledger.same_dropped (h0 ▸ ne_zero_of_isTracked hg hb) ps
  by_cases ht : g.collector.isTracked a = true
  · obtain ⟨p, hp⟩ := Partitions.isTracked_iff.1 ht
    by_cases hn : g.collector.heap.refs a = 0
    · have hr := delref_of_underflow h0 hs ht hn
      rwa [post_of_error hr, after, hr]
    · obtain ⟨c, q, hr, hc⟩ := delref_recounted hg.collector hs hp hn
      rw [post_of_ok hs hr, after, hr]
      refine h.recounted hp hc ?_ fun b hb => Ledger.same_dropped hb ps
      have hcount := h a ht
      have hentry := Ledger.posted_dropped a ps
      have hpred := toNat_sub_one_add_one hn
      simp only [Option.toList_some, List.singleton_append]
      omega
  · rw [Bool.not_eq_true] at ht
    have hr := delref_of_not_isTracked h0 hs ht
    rwa [post_of_error hr, after, hr]

/-- An object starts without references and without entries. -/
lemma create {alloc : Allocator δ} (h : g.Accounts ps) (hg : g.Partitioned)
    (hsound : alloc.SoundAt g.collector.heap) (size : Nat) (d : Option δ) :
    (after (create alloc size d) g).Accounts
      ((g.post (create alloc size d) fun r => r.toOption.map .created) ++ ps) := by
  by_cases hs : g.isShutdown = true
  · rw [post_of_isShutdown hs, after, create_of_isShutdown hs]
    exact h
  rw [Bool.not_eq_true] at hs
  cases ha : alloc g.collector.heap size d with
  | error e =>
    have hr := create_of_error hs ha
    rw [post_of_ok hs hr, after, hr]
    exact h
  | ok r =>
    obtain ⟨a, heap⟩ := r
    obtain ⟨c, hr, -, hc⟩ := create_created hg.collector hs hsound ha
    rw [post_of_ok hs hr, after, hr]
    intro b hb
    rw [hc.refs_eq]
    split_ifs with hba
    · subst hba
      obtain ⟨htaken, hdropped⟩ := Ledger.posted_created b ps
      exact (congrArg _ hdropped).trans htaken.symm
    · obtain ⟨htaken, hdropped⟩ := Ledger.same_created hba ps
      have hbefore := ((hc.isTracked_iff b).1 hb).resolve_left hba
      exact (congrArg _ hdropped).trans ((h b hbefore).trans htaken.symm)

end Accounts

/-! ### Taking a reference and dropping it again -/

lemma eq_of_suits (hp : p.Suits n) (hq : q.Suits n) (hw : p = .working ↔ q = .working) : p = q := by
  cases p <;> cases q <;> simp_all [Partition.Suits]

lemma isShutdown_addref (hg : g.Partitioned) (a : UInt64) :
    (after (addref a) g).isShutdown = g.isShutdown := by
  rcases after_addref hg.collector a with h | ⟨c, n, p, q, -, -, h⟩ <;> rw [h]

/-- Taking a reference to a tracked object and dropping it again leaves all counts and all
partitions as they were. -/
lemma delref_addref (hg : g.Partitioned) (ha : g.collector.isTracked a = true)
    (hn : (g.collector.heap.refs a).toNat + 1 ≠ UInt64.size) :
    ∃ g₁ g₂, (addref a).run g = .ok a g₁ ∧ (delref a).run g₁ = .ok () g₂ ∧
      (∀ b, g₂.collector.heap.refs b = g.collector.heap.refs b) ∧
      ∀ p b, b ∈ g₂.collector.table p ↔ b ∈ g.collector.table p := by
  by_cases hs : g.isShutdown = true
  · exact ⟨g, g, addref_of_ignored (.inr hs), delref_of_ignored (.inr hs), fun _ => rfl,
      fun _ _ => Iff.rfl⟩
  rw [Bool.not_eq_true] at hs
  obtain ⟨p, hp⟩ := Partitions.isTracked_iff.1 ha
  obtain ⟨c₁, q₁, hr₁, h₁⟩ := addref_recounted hg.collector hs hp hn
  have hq₁ : a ∈ c₁.table q₁ := (h₁.mem_table q₁ a).2 (by simp)
  have hrefs : c₁.heap.refs a = g.collector.heap.refs a + 1 := by simp [h₁.refs_eq]
  have hne : c₁.heap.refs a ≠ 0 := hrefs ▸ Collector.add_one_ne_zero hn
  obtain ⟨c₂, q₂, hr₂, h₂⟩ := delref_recounted (g := { g with collector := c₁ })
    (h₁.partitioned hg.collector hp) hs hq₁ hne
  simp only [hrefs, UInt64.add_sub_cancel] at h₂
  -- the count is the old one, so the partition that suits it is the old one
  have hq₂ : q₂ = p := by
    refine eq_of_suits h₂.suits (hg.collector.suits hp) ?_
    rw [h₂.working_iff, h₁.mem_working]
    exact (hg.collector.disjoint.mem_table_iff (q := .working) hp).trans eq_comm
  refine ⟨_, _, hr₁, hr₂, fun b => ?_, fun r b => ?_⟩
  · rw [h₂.refs_eq, h₁.refs_eq]
    split_ifs with hba
    · rw [hba]
    · rfl
  · rw [h₂.mem_table, h₁.mem_table, hq₂]
    split_ifs with hba
    · rw [hba]
      exact (hg.collector.disjoint.mem_table_iff hp).symm
    · rfl

end Gc

namespace Machine

variable {δ : Type} {m m' : Machine δ} {ps new : Ledger}

/-- One operation changes counts as the ledger says. -/
lemma Posts.accounts (h : Posts m new m') (hm : m.gc.Partitioned) (hps : m.gc.Accounts ps) :
    m'.gc.Accounts (new ++ ps) := by
  cases h with
  | addref g fs a => exact hps.addref hm a
  | delref g fs a => exact hps.delref hm a
  | create g fs hsound size d => exact hps.create hm hsound size d
  | note | setThreshold | destroy | unwind => exact hps
  | store g fs hs => exact hps.sameCounts (.store hs)
  | openPass m fresh scan =>
    rw [gc_perform]
    exact hps.sameCounts (.openPass hm fresh scan)
  | beginTeardown m =>
    rw [gc_perform]
    exact hps.sameCounts (.beginTeardown hm)
  | closePass g fs => exact hps.sameCounts (.closePass hm)
  | endTeardown g fs => exact hps.sameCounts (.endTeardown hm)

/-- So does every run. -/
lemma HasLedger.accounts (h : HasLedger m ps) : m.gc.Accounts ps := by
  induction h with
  | start config scanner =>
    intro a ha
    simp [Gc.not_isTracked_start] at ha
  | post h hp ih => exact hp.accounts h.reachable.partitioned ih

end Machine

/-! ### Swaps of pointers -/

namespace Host

open Machine

variable {μ δ : Type} {s : Host μ δ} {fs : List (Frame δ)} {ps : Ledger}

/-- Writing to the cell leaves the collector alone or stores a word in a payload. -/
def Cell.Stores (cell : Cell μ δ) : Prop :=
  ∀ v s, (cell.write v s).gc = s.gc ∨ ∃ a offset heap,
    s.gc.collector.heap.store? a offset v = some heap ∧
    (cell.write v s).gc = { s.gc with collector := { s.gc.collector with heap } }

/-- The slots of the clients are such cells, also a slot in a payload that is not there. -/
lemma PointerSlot.stores (slot : PointerSlot) : (slot.cell : Cell (List UInt64) δ).Stores := by
  intro v s
  cases slot with
  | external i => exact .inl rfl
  | word a i =>
    cases hs : s.gc.collector.heap.store? a (8 * i) v with
    | none => exact .inl (by simp [cell, hs])
    | some heap => exact .inr ⟨a, 8 * i, heap, hs, by simp [cell, hs]⟩

lemma Cell.Stores.isShutdown_eq {cell : Cell μ δ} (hcell : cell.Stores) (v : UInt64)
    (s : Host μ δ) : (cell.write v s).gc.isShutdown = s.gc.isShutdown := by
  rcases hcell v s with h | ⟨a, offset, heap, -, h⟩ <;> rw [h]

/-- Writing to such a cell leaves the ledger as it is. -/
lemma hasLedger_write {cell : Cell μ δ} (hcell : cell.Stores) (h : HasLedger ⟨s.gc, fs⟩ ps)
    (v : UInt64) : HasLedger ⟨(cell.write v s).gc, fs⟩ ps := by
  rcases hcell v s with heq | ⟨a, offset, heap, hs, heq⟩
  · rwa [heq]
  · rw [heq]
    exact h.post (.store s.gc fs hs)

/-- A swap of pointers takes the new reference and then drops the old one, unless it stops before.
-/
lemma hasLedger_swapref {cell : Cell μ δ} (hcell : cell.Stores) (h : HasLedger ⟨s.gc, fs⟩ ps)
    (v : UInt64) : ∃ new, HasLedger ⟨(after (swapref cell v) s).gc, fs⟩ (new ++ ps) ∧
      (s.gc.isShutdown = false → (∃ s', (swapref cell v).run s = .ok () s') →
        new = [.dropped (cell.read s), .taken v]) := by
  have htaken := h.post (.addref s.gc fs v)
  -- the first call decides whether anything is written; the second is made on what is left then,
  -- and reads the word that was there before
  cases hr : (Gc.addref v).run s.gc with
  | error f g =>
    have hswap : (swapref cell v).run s = _ := run_swapref_of_error hr
    refine ⟨s.gc.post (Gc.addref v) fun _ => some (.taken v), ?_, fun _ hok => ?_⟩
    · rw [after_of_error hswap]
      rwa [after, hr] at htaken
    · obtain ⟨s', hok⟩ := hok
      cases hswap.symm.trans hok
  | ok x g =>
    have hg : g.isShutdown = s.gc.isShutdown := by
      have := Gc.isShutdown_addref h.reachable.partitioned v
      rwa [after, hr] at this
    have hs₁ := (hcell.isShutdown_eq x { s with gc := g }).trans hg
    rw [after, hr] at htaken
    have hswap : (swapref cell v).run s = _ := run_swapref_of_ok hr
    have hwritten := hasLedger_write (s := { s with gc := g }) hcell htaken x
    generalize cell.write x { s with gc := g } = s₁ at hs₁ hswap hwritten
    have hdropped := hwritten.post (.delref _ fs (cell.read s))
    have hafter : (after (swapref cell v) s).gc = after (Gc.delref (cell.read s)) s₁.gc := by
      rw [after, hswap, ← after, after_onGc]
    rw [← List.append_assoc, ← hafter] at hdropped
    refine ⟨_, hdropped, fun hs hok => ?_⟩
    obtain ⟨s', hok⟩ := hok
    rw [hswap, run_onGc] at hok
    cases hr' : (Gc.delref (cell.read s)).run s₁.gc with
    | error f g' => simp [hr'] at hok
    | ok _ g' =>
      rw [Gc.post_of_ok hs hr, Gc.post_of_ok (hs₁.trans hs) hr']
      rfl

end Host

namespace Machine

open Host

variable {δ : Type} {m : Machine δ} {ps : Ledger} {a : UInt64}

/-- An object that is not being collected is in the multi-ref table if references to it are left. -/
lemma HasLedger.mem_multiRef_iff (h : HasLedger m ps) (ha : m.gc.collector.isTracked a = true)
    (hw : a ∉ m.gc.collector.working) :
    a ∈ m.gc.collector.multiRef ↔ ps.dropped a < ps.taken a := by
  have hg := h.reachable.partitioned.collector
  have hcount := h.accounts a ha
  obtain ⟨p, hp⟩ := Partitions.isTracked_iff.1 ha
  cases p with
  | zeroCount =>
    have hzero : m.gc.collector.heap.refs a = 0 := hg.suits hp
    have hnot : a ∉ m.gc.collector.multiRef :=
      hg.disjoint.not_mem_table (p := .zeroCount) (q := .multiRef) hp (by decide)
    rw [hzero, UInt64.toNat_zero] at hcount
    simp only [hnot, false_iff]
    omega
  | multiRef =>
    have hne : m.gc.collector.heap.refs a ≠ 0 := hg.suits hp
    have hpos : 0 < (m.gc.collector.heap.refs a).toNat :=
      UInt64.lt_iff_toNat_lt.1 (UInt64.pos_iff_ne_zero.2 hne)
    have hmem : a ∈ m.gc.collector.multiRef := hp
    simp only [hmem, true_iff]
    omega
  | working => exact absurd hp hw

/-- Where for each object as many references were dropped as were taken, the multi-ref table is
empty. -/
lemma HasLedger.multiRef_isEmpty (h : HasLedger m ps)
    (hbalanced : ∀ a, m.gc.collector.isTracked a = true → ps.taken a = ps.dropped a) :
    m.gc.collector.multiRef.isEmpty = true := by
  have hg := h.reachable.partitioned.collector
  refine Table.isEmpty_iff.2 fun a ha => ?_
  have htracked : m.gc.collector.isTracked a = true := Partitions.isTracked_iff.2 ⟨.multiRef, ha⟩
  have hw : a ∉ m.gc.collector.working :=
    hg.disjoint.not_mem_table (p := .multiRef) (q := .working) ha (by decide)
  have hlt := (h.mem_multiRef_iff htracked hw).1 ha
  have heq := hbalanced a htracked
  omega

/-- Counts are what the ledger says. Every run leaves a ledger. The count of each tracked object is
the number of references that were taken less that of those that were dropped, and unless it is
being collected it is in the multi-ref table exactly if this is positive. So if the two balance, the
multi-ref table is empty, and taking a reference and dropping it again changes nothing. A swap of
pointers takes one reference and drops one. -/
theorem counts_of_ledger (hm : m.Reachable) :
    (∃ ps, HasLedger m ps) ∧
    (∀ ps, HasLedger m ps →
      (∀ a, m.gc.collector.isTracked a = true →
        ((m.gc.collector.heap.refs a).toNat : ℤ) = ps.taken a - ps.dropped a ∧
        (a ∉ m.gc.collector.working →
          (a ∈ m.gc.collector.multiRef ↔ 0 < (ps.taken a : ℤ) - ps.dropped a))) ∧
      ((∀ a, m.gc.collector.isTracked a = true → ps.taken a = ps.dropped a) →
        m.gc.collector.multiRef.isEmpty = true) ∧
      ∀ {μ : Type} (client : μ) {cell : Cell μ δ}, cell.Stores → ∀ v, ∃ new,
        HasLedger ⟨(after (swapref cell v) ⟨client, m.gc⟩).gc, m.frames⟩ (new ++ ps) ∧
        (m.gc.isShutdown = false → (∃ s, (swapref cell v).run ⟨client, m.gc⟩ = .ok () s) →
          new = [.dropped (cell.read ⟨client, m.gc⟩), .taken v])) ∧
    ∀ a, m.gc.collector.isTracked a = true →
      (m.gc.collector.heap.refs a).toNat + 1 ≠ UInt64.size →
      ∃ g₁ g₂, (Gc.addref a).run m.gc = .ok a g₁ ∧ (Gc.delref a).run g₁ = .ok () g₂ ∧
        (∀ b, g₂.collector.heap.refs b = m.gc.collector.heap.refs b) ∧
        ∀ p b, b ∈ g₂.collector.table p ↔ b ∈ m.gc.collector.table p := by
  refine ⟨hm.exists_hasLedger, fun ps h => ⟨fun a ha => ⟨?_, fun hw => ?_⟩, ?_, ?_⟩, fun a => ?_⟩
  · have := h.accounts a ha
    omega
  · rw [h.mem_multiRef_iff ha hw]
    omega
  · exact h.multiRef_isEmpty
  · intro μ client cell hcell v
    exact hasLedger_swapref (s := ⟨client, m.gc⟩) hcell h v
  · exact Gc.delref_addref hm.partitioned

/-- Two objects, one with a destructor and no reference to it, and one that is referred to twice. -/
def childHeldTwice : Gc Unit :=
  after (Gc.addref 0x10000070) (after (Gc.addref 0x10000070)
    (after (Gc.create Heap.allocate 8 none) (after (Gc.create Heap.allocate 8 (some ()))
      (Gc.start {} .noRoots))))

/-- A pass has been opened on them that reports no roots, and the destructor of the one has dropped
the other. -/
def childDropped : Machine Unit :=
  ⟨after (Gc.delref 0x10000070) (after (Gc.note (.destroying 0x10000030))
    (after (Gc.openPass none (some [])) childHeldTwice)), [⟨.pass, []⟩]⟩

/-- The calls that make them and refer to them, each with its entry. -/
lemma hasLedger_childHeldTwice :
    HasLedger ⟨childHeldTwice, []⟩
      [.taken 0x10000070, .taken 0x10000070, .created 0x10000070, .created 0x10000030] := by
  have h₁ := (HasLedger.start {} .noRoots).post (.create (Gc.start {} .noRoots) []
    Heap.bounded_empty.soundAt_allocate 8 (some ()))
  have h₂ := h₁.post
    (.create _ [] (Heap.Bounded.of_keys (by decide +kernel)).soundAt_allocate 8 none)
  have h₃ := h₂.post (.addref _ [] 0x10000070)
  exact h₃.post (.addref _ [] 0x10000070)

/-- A pass makes no entries, and its destructor makes that of the reference it drops. -/
lemma hasLedger_childDropped :
    HasLedger childDropped [.dropped 0x10000070, .taken 0x10000070, .taken 0x10000070,
      .created 0x10000070, .created 0x10000030] := by
  have h := hasLedger_childHeldTwice
  have hopened := h.post (.openPass _ none (some []))
  have howed : (after (Gc.openPass none (some [])) childHeldTwice).collector.pendingDestructors =
      [(0x10000030, ())] := by
    decide +kernel
  rw [perform_openPass h.reachable.partitioned (by decide +kernel) (by decide +kernel), howed]
    at hopened
  have hcalled := hopened.post (.destroy _ [] .pass (0x10000030, ()) [])
  have hdropped := hcalled.post (.delref _ [⟨.pass, []⟩] 0x10000070)
  have hentry : (after (Gc.note (.destroying 0x10000030))
      (after (Gc.openPass none (some [])) childHeldTwice)).post (Gc.delref 0x10000070)
        (fun _ => some (.dropped 0x10000070)) = [.dropped 0x10000070] := by
    decide +kernel
  rwa [hentry] at hdropped

/-- While the destructor runs, its object is being collected and has no references. The other one
has one of its two left, and swapping it out of a variable leaves it with none. Taking a reference
to it there and dropping it again would change nothing. -/
theorem counts_of_ledger_childDropped :
    HasLedger childDropped [.dropped 0x10000070, .taken 0x10000070, .taken 0x10000070,
      .created 0x10000070, .created 0x10000030] ∧
    0x10000030 ∈ childDropped.gc.collector.working ∧
    ((childDropped.gc.collector.heap.refs 0x10000030).toNat : ℤ) = 0 - 0 ∧
    ((childDropped.gc.collector.heap.refs 0x10000070).toNat : ℤ) = 2 - 1 ∧
    0x10000070 ∈ childDropped.gc.collector.multiRef ∧
    HasLedger ⟨(after (swapref (PointerSlot.external 0).cell 0)
        ⟨[0x10000070], childDropped.gc⟩).gc, [⟨.pass, []⟩]⟩
      [.dropped 0x10000070, .taken 0, .dropped 0x10000070, .taken 0x10000070, .taken 0x10000070,
        .created 0x10000070, .created 0x10000030] ∧
    (after (swapref (PointerSlot.external 0).cell 0)
      ⟨[0x10000070], childDropped.gc⟩).gc.collector.multiRef.isEmpty = true ∧
    ∃ g₁ g₂, (Gc.addref 0x10000070).run childDropped.gc = .ok 0x10000070 g₁ ∧
      (Gc.delref 0x10000070).run g₁ = .ok () g₂ ∧
      ∀ p b, b ∈ g₂.collector.table p ↔ b ∈ childDropped.gc.collector.table p := by
  have h := hasLedger_childDropped
  have hworking : 0x10000030 ∈ childDropped.gc.collector.working := by decide +kernel
  have htracked : childDropped.gc.collector.isTracked 0x10000070 = true := by decide +kernel
  obtain ⟨-, hledger, hrestore⟩ := counts_of_ledger h.reachable
  obtain ⟨g₁, g₂, hr₁, hr₂, -, htables⟩ := hrestore _ htracked (by decide +kernel)
  obtain ⟨hcount, -, hswap⟩ := hledger _ h
  obtain ⟨hdying, -⟩ := hcount 0x10000030 (by decide +kernel)
  obtain ⟨hrefs, hmulti⟩ := hcount _ htracked
  obtain ⟨new, hswapped, hnew⟩ := hswap [0x10000070] (PointerSlot.stores (.external 0)) 0
  have hreturns : (halt (swapref (PointerSlot.external 0).cell 0)
      ⟨[0x10000070], childDropped.gc⟩).isNone = true := by
    decide +kernel
  obtain ⟨_, s, hr⟩ := halt_eq_none_iff.1 (Option.isNone_iff_eq_none.1 hreturns)
  obtain rfl := hnew (by decide +kernel) ⟨s, hr⟩
  obtain ⟨-, hledger', -⟩ := counts_of_ledger hswapped.reachable
  obtain ⟨-, hempty, -⟩ := hledger' _ hswapped
  refine ⟨h, hworking, hdying, hrefs, (hmulti (by decide +kernel)).2 (by decide), hswapped,
    hempty fun a ha => ?_, g₁, g₂, hr₁, hr₂, htables⟩
  have htwo : (after (swapref (PointerSlot.external 0).cell 0)
      ⟨[0x10000070], childDropped.gc⟩).gc.collector.tracked = {0x10000030, 0x10000070} := by
    decide +kernel
  rw [← Partitions.mem_tracked, htwo, Finset.mem_insert, Finset.mem_singleton] at ha
  rcases ha with rfl | rfl
  · decide
  · decide

end Machine

end HybridGC
