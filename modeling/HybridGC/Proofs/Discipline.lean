import HybridGC.Proofs.Release

/-!
# Disciplined clients

A disciplined client keeps counted pointers only: in variables and in the words of payloads, changed
by nothing but counted stores of null and of tracked objects, and dropped by destructors that drop
each word of their payload once. For such a client counts are exact: an object's count is the number
of variables and payload words that hold it, and none of them dangles.
-/

namespace HybridGC

namespace Host

variable {δ : Type}

/-! ### The discipline -/

/-- A place for a counted pointer: a variable, or a word of a payload. -/
inductive PointerSlot where
  | external (i : Nat)
  | word (a : UInt64) (i : Nat)

namespace PointerSlot

/-- The variables that there are, and the words of tracked payloads. -/
def Exists (s : Host (List UInt64) δ) : PointerSlot → Prop
  | .external i => i < s.client.length
  | .word a i => s.gc.collector.isTracked a = true ∧ i < (s.gc.collector.heap.words a).length

instance (s : Host (List UInt64) δ) : (slot : PointerSlot) → Decidable (slot.Exists s)
  | .external i => inferInstanceAs (Decidable (i < s.client.length))
  | .word a i => inferInstanceAs
    (Decidable (s.gc.collector.isTracked a = true ∧ i < (s.gc.collector.heap.words a).length))

/-- A slot as a cell that holds a pointer. -/
def cell : PointerSlot → Cell (List UInt64) δ
  | .external i =>
    { read := fun s => s.client.getD i 0
      write := fun v s => { s with client := s.client.set i v } }
  | .word a i =>
    { read := fun s => (s.gc.collector.heap.load? a (8 * i)).getD 0
      write := fun v s =>
        match s.gc.collector.heap.store? a (8 * i) v with
        | none => s
        | some heap => { s with gc := { s.gc with collector := { s.gc.collector with heap } } } }

lemma Exists.congr {s : Host (List UInt64) δ} (s' : Host (List UInt64) δ) {slot : PointerSlot}
    (h : slot.Exists s) (hclient : s'.client = s.client)
    (htracked : ∀ a, s.gc.collector.isTracked a = true → s'.gc.collector.isTracked a = true)
    (hwords : ∀ a, s'.gc.collector.heap.words a = s.gc.collector.heap.words a) :
    slot.Exists s' ∧ slot.cell.read s' = slot.cell.read s := by
  cases slot with
  | external i => simpa [Exists, cell, hclient] using h
  | word a i =>
    obtain ⟨ht, hi⟩ := h
    have hi' : i < (s'.gc.collector.heap.words a).length := by rwa [hwords]
    refine ⟨⟨htracked a ht, hi'⟩, ?_⟩
    simp only [cell, Heap.load?_word hi, Heap.load?_word hi', hwords]

end PointerSlot

/-- An environment whose destructors drop each word of the payload once, in some order, and do
nothing else. -/
structure Environment.Disciplined (env : Environment (List UInt64) δ) : Prop where
  beginRound_eq : ∀ condemned vars, env.beginRound condemned vars = vars
  destroy_eq : ∀ a d s, ∃ ws : List UInt64, ws.Perm (s.gc.collector.heap.words a) ∧
    (env.destroy a d).run s = (ws.forM fun w => onGc (Gc.delref w)).run s

namespace Environment.Disciplined

/-- What a destructor does of an environment that drops words. -/
lemma drops {env : Environment (List UInt64) δ} (henv : env.Disciplined) (vars : List UInt64)
    (a : UInt64) (d : δ) (words : List UInt64) : env.Drops (· = vars) a d words := by
  rintro ⟨_, g⟩ rfl - rfl
  obtain ⟨ws, hperm, hdestroy⟩ := henv.destroy_eq a d ⟨_, g⟩
  refine ⟨ws, fun v _ => hperm.count_eq v, fun g' hr => ⟨_, rfl, ?_⟩⟩
  rw [hdestroy, run_forM_onGc, run_onGc, hr]

end Environment.Disciplined

/-! ### Counts and slots -/

/-- How many variables and words of tracked payloads hold an address. -/
def holders (s : Host (List UInt64) δ) (v : UInt64) : Nat :=
  s.client.count v + s.gc.wordsHolding s.gc.collector.tracked v

/-- Dropping references moves no pointer, so the slots hold what they held. -/
lemma holders_of_dropped {g g' : Gc δ} {ws : List UInt64} (h : g.Dropped g' ws)
    (vars : List UInt64) (v : UInt64) :
    holders (⟨vars, g'⟩ : Host (List UInt64) δ) v = holders ⟨vars, g⟩ v := by
  rw [holders, holders, Partitions.tracked_eq h.isTracked_iff,
    Gc.wordsHolding_congr fun x _ => h.words_eq x]

/-- Counts are exact: an object's count is the number of slots that hold it, and no slot holds
another address than that of a tracked object. -/
structure Balanced (s : Host (List UInt64) δ) : Prop where
  partitioned : s.gc.Partitioned
  collecting_eq : s.gc.collector.collecting = false
  isShutdown_eq : s.gc.isShutdown = false
  holders_eq : ∀ v, v ≠ 0 → s.holders v = s.gc.count v
  words_of_no_destructor : ∀ a, s.gc.collector.isTracked a = true →
    s.gc.collector.heap.destructor? a = none → s.gc.collector.heap.words a = []

namespace Balanced

variable {s : Host (List UInt64) δ}

/-- No slot but the words of doomed payloads holds a doomed object. -/
lemma holders_of_mem_doomed (hs : s.Balanced) {fresh : Option UInt64} {roots : List UInt64}
    {v : UInt64} (hv : v ∈ s.gc.doomed fresh roots) :
    s.client.count v +
      s.gc.wordsHolding (s.gc.collector.tracked \ s.gc.doomed fresh roots) v = 0 := by
  have hsub := s.gc.doomed_subset_tracked fresh roots
  obtain ⟨p, hp⟩ := Partitions.isTracked_iff.1 (Partitions.mem_tracked.1 (hsub hv))
  have hholders := hs.holders_eq v (hs.partitioned.collector.ne_zero hp)
  have hle := Gc.count_le_of_mem_doomed hs.partitioned hv
  have hsplit := s.gc.wordsHolding_sdiff_add hsub v
  rw [holders] at hholders
  omega

/-- The words of payloads that hold an object are counted. -/
lemma wordsHolding_le (hs : s.Balanced) (v : UInt64) (hv : v ≠ 0) :
    s.gc.wordsHolding s.gc.collector.tracked v ≤ s.gc.count v := by
  rw [← hs.holders_eq v hv, holders]
  exact Nat.le_add_left _ _

lemma of_dropped_nil {g : Gc δ} (hs : s.Balanced) (h : s.gc.Dropped g []) :
    Balanced { s with gc := g } where
  partitioned := h.partitioned
  collecting_eq := h.collecting_eq.trans hs.collecting_eq
  isShutdown_eq := h.isShutdown_eq.trans hs.isShutdown_eq
  holders_eq v hv := by
    have hcount := h.add_count v hv
    rw [List.count_nil] at hcount
    rw [holders_of_dropped h]
    exact (hs.holders_eq v hv).trans hcount.symm
  words_of_no_destructor a ha := by
    rw [h.words_eq, h.destructor?_eq]
    exact hs.words_of_no_destructor a ((h.isTracked_iff a).1 ha)

/-- A pass that opens, and the destructors it owes, drop the words of the doomed payloads. -/
lemma released (hs : s.Balanced) {env : Environment (List UInt64) δ} (henv : env.Disciplined)
    (fresh : Option UInt64) (roots : List UInt64) :
    ∃ pass g g', (Gc.openPass fresh (some roots)).run s.gc = .ok (some pass) g ∧
      (destroyAll env pass.pending).run { s with gc := g } = .ok () { s with gc := g' } ∧
      s.gc.Released g' (s.gc.doomed fresh roots) := by
  obtain ⟨pass, g, ⟨vars, g'⟩, hopen, hdestroy, rfl, hreleased, -⟩ :=
    Host.released hs.partitioned hs.collecting_eq hs.isShutdown_eq hs.wordsHolding_le
      hs.words_of_no_destructor (fun a d _ _ => henv.drops s.client a d _)
      (fun condemned => henv.beginRound_eq condemned s.client) fresh roots
  rw [henv.beginRound_eq] at hdestroy
  exact ⟨pass, g, g', hopen, hdestroy, hreleased⟩

/-- Once the doomed payloads are freed, counts are exact again. -/
lemma of_released (hs : s.Balanced) {fresh : Option UInt64} {roots : List UInt64} {g : Gc δ}
    (h : s.gc.Released g (s.gc.doomed fresh roots)) {c : Collector δ}
    (hc : g.collector.Swept c) (hcoll : c.collecting = false) :
    Balanced { s with gc := { g with collector := c } } := by
  have htracked := h.isTracked_iff_of_swept hc
  have hwords := h.words_of_swept hc
  constructor
  case partitioned => exact h.partitioned.swept hc
  case collecting_eq => exact hcoll
  case isShutdown_eq => exact h.isShutdown_eq.trans hs.isShutdown_eq
  case holders_eq =>
    intro v hv
    rw [holders, Partitions.tracked_eq_sdiff htracked, Gc.wordsHolding_congr fun x _ => hwords x]
    -- a freed object has no holder left; any other has lost the words of freed payloads, which were
    -- dropped
    by_cases hdead : v ∈ s.gc.doomed fresh roots
    · rw [hs.holders_of_mem_doomed hdead, Gc.count, if_neg]
      exact fun h => ((htracked v).1 h).2 hdead
    · have hsame : Gc.count { g with collector := c } v = g.count v := by
        simp [Gc.count, htracked, hdead, hc.refs_eq, h.isTracked_iff]
      have hadd := h.add_count v hv
      have hholders := hs.holders_eq v hv
      have hsplit := s.gc.wordsHolding_sdiff_add (s.gc.doomed_subset_tracked fresh roots) v
      rw [holders] at hholders
      simp only
      omega
  case words_of_no_destructor =>
    intro a ha
    simp only [hwords, h.destructor?_of_swept hc]
    exact hs.words_of_no_destructor a ((htracked a).1 ha).1

/-- A pass of a disciplined client's collector answers, and leaves the variables and the payloads as
they are and the counts exact. -/
lemma runPass (hs : s.Balanced) {env : Environment (List UInt64) δ} (henv : env.Disciplined)
    (fresh : Option UInt64) :
    ∃ n g, (runPass env fresh).run s = .ok n { s with gc := g } ∧ Balanced { s with gc := g } ∧
      ∀ a, g.collector.heap.words a = s.gc.collector.heap.words a := by
  cases hscan : env.scan s.client s.gc.scanner with
  | none =>
    refine ⟨0, _, ?_, hs.of_dropped_nil (Gc.note_dropped hs.partitioned .passSkipped),
      fun _ => rfl⟩
    simp [Host.runPass, hscan, Gc.openPass_of_no_scan hs.isShutdown_eq]
  | some roots =>
    obtain ⟨pass, g, g', hopen, hdestroy, hreleased⟩ := hs.released henv fresh roots
    obtain ⟨c, hpass, -, hswept, hcoll⟩ := run_runPass hscan hopen (by
      rw [henv.beginRound_eq]
      exact hdestroy)
    refine ⟨_, _, hpass, hs.of_released hreleased hswept hcoll, fun a => ?_⟩
    exact hreleased.words_of_swept hswept a

/-! ### Allocation -/

/-- A fresh object changes no count, and no slot names it. -/
lemma of_created {c : Collector δ} {size : Nat} {d : Option δ} {a : UInt64} (hs : s.Balanced)
    (h : s.gc.collector.Created c size d a) (hd : d = none → size / 8 = 0) :
    Balanced { s with gc := { s.gc with collector := c } } := by
  have hnot := h.not_isTracked
  have htracked := h.isTracked_iff
  constructor
  case partitioned => exact hs.partitioned.created h
  case collecting_eq => exact h.sameBooks.collecting_eq.trans hs.collecting_eq
  case isShutdown_eq => exact hs.isShutdown_eq
  case holders_eq =>
    intro v hv
    have hcount : Gc.count { s.gc with collector := c } v = s.gc.count v := by
      simp only [Gc.count, htracked, h.refs_eq]
      by_cases hva : v = a <;> simp [hva, hnot]
    have hinsert := Partitions.tracked_eq_insert htracked
    have ha : a ∉ s.gc.collector.tracked := by
      rw [Partitions.mem_tracked, hnot]
      decide
    -- the fresh payload holds null alone, and the other payloads are as they were
    have hfresh : (c.heap.words a).count v = 0 := by
      rw [h.words_eq, if_pos rfl, List.count_replicate]
      simp [Ne.symm hv]
    have hold : Gc.wordsHolding { s.gc with collector := c } s.gc.collector.tracked v =
        s.gc.wordsHolding s.gc.collector.tracked v := by
      refine Gc.wordsHolding_congr (fun x hx => ?_) v
      rw [h.words_eq, if_neg]
      rintro rfl
      exact ha hx
    rw [hcount, ← hs.holders_eq v hv, holders, holders, hinsert, Gc.wordsHolding,
      Finset.sum_insert ha, hfresh, Nat.zero_add, ← Gc.wordsHolding, hold]
  case words_of_no_destructor =>
    intro b hb
    simp only [h.words_eq, h.destructor?_eq]
    split_ifs with hba
    · intro hnone
      rw [hd hnone]
      rfl
    · exact hs.words_of_no_destructor b (((htracked b).1 hb).resolve_left hba)

/-- An allocation keeps counts exact, with or without a pass, and the payloads that were there keep
their words. -/
lemma allocate (hs : s.Balanced) {env : Environment (List UInt64) δ} (henv : env.Disciplined)
    (hsound : env.alloc.SoundAt s.gc.collector.heap) (size : Nat) (d : Option δ)
    (hd : d = none → size / 8 = 0) :
    ∃ r g, (allocate env size d).run s = .ok r { s with gc := g } ∧ Balanced { s with gc := g } ∧
      ∀ a, s.gc.collector.isTracked a = true →
        g.collector.heap.words a = s.gc.collector.heap.words a := by
  cases ha : env.alloc s.gc.collector.heap size d with
  | error e =>
    refine ⟨.error e, s.gc, ?_, hs, fun _ _ => rfl⟩
    simp [Host.allocate, Gc.create_of_error hs.isShutdown_eq ha]
  | ok r =>
    obtain ⟨a, h⟩ := r
    obtain ⟨c, hr, -, hc⟩ :=
      Gc.create_created hs.partitioned.collector hs.isShutdown_eq hsound ha
    have hs' := hs.of_created hc hd
    have hwords (b : UInt64) (hb : s.gc.collector.isTracked b = true) :
        c.heap.words b = s.gc.collector.heap.words b := by
      rw [hc.words_eq, if_neg]
      rintro rfl
      obtain ⟨p, hp⟩ := Partitions.isTracked_iff.1 hb
      exact hc.not_mem p hp
    by_cases hdue : Gc.isDue { s.gc with collector := c } = true
    · obtain ⟨n, g, hpass, hg, hwords'⟩ := hs'.runPass henv (some a)
      refine ⟨.ok a, g, by simp [Host.allocate, hr, hdue, hpass], hg, fun b hb => ?_⟩
      rw [hwords', hwords b hb]
    · exact ⟨.ok a, _, by simp [Host.allocate, hr, hdue], hs', hwords⟩

end Balanced

/-! ### Storing in slots -/

/-- One slot holds another pointer than before. -/
structure Rewritten (s s' : Host (List UInt64) δ) (old new : UInt64) : Prop where
  partitioned : s'.gc.Partitioned
  holders_add : ∀ w, s'.holders w + [old].count w = s.holders w + [new].count w
  count_eq : ∀ w, s'.gc.count w = s.gc.count w
  isTracked_iff : ∀ w, s'.gc.collector.isTracked w = true ↔ s.gc.collector.isTracked w = true
  words_eq_nil : ∀ w, s.gc.collector.heap.words w = [] → s'.gc.collector.heap.words w = []
  destructor?_eq : ∀ w, s'.gc.collector.heap.destructor? w = s.gc.collector.heap.destructor? w
  collecting_eq : s'.gc.collector.collecting = s.gc.collector.collecting
  isShutdown_eq : s'.gc.isShutdown = s.gc.isShutdown

/-- Writing a slot is the same change for a variable and for a word of a payload: one holder less of
the old pointer, one more of the new. -/
lemma PointerSlot.rewritten {s : Host (List UInt64) δ} (hs : s.gc.Partitioned)
    {slot : PointerSlot} (hslot : slot.Exists s) (v : UInt64) :
    Rewritten s (slot.cell.write v s) (slot.cell.read s) v := by
  -- a variable is no part of the collector; a word is in the payload of a tracked object, since the
  -- slot exists, so the store goes through
  cases slot with
  | external i =>
    constructor
    case partitioned => exact hs
    case holders_add =>
      intro w
      have := count_set_add hslot v w
      simp only [cell, holders] at this ⊢
      omega
    all_goals simp [cell]
  | word a i =>
    obtain ⟨ht, hi⟩ := hslot
    obtain ⟨heap, hstore, hwords⟩ := Heap.store?_word hi v
    have hwrite : (PointerSlot.word a i).cell.write v s =
        { s with gc := { s.gc with collector := { s.gc.collector with heap } } } := by
      simp [cell, hstore]
    have hread : (PointerSlot.word a i).cell.read s =
        (s.gc.collector.heap.words a).getD i 0 := by
      simp [cell, Heap.load?_word hi]
    rw [hwrite, hread]
    constructor
    case partitioned => exact hs.store hstore
    case holders_add =>
      intro w
      have hset := Gc.wordsHolding_set s.gc
        { s.gc with collector := { s.gc.collector with heap } } (Partitions.mem_tracked.2 ht) hi
        hwords w
      rw [holders, holders, Nat.add_assoc, Nat.add_assoc]
      exact congrArg (s.client.count w + ·) hset
    case count_eq =>
      intro w
      simp only [Gc.count, Heap.refs_store? hstore]
    case isTracked_iff => exact fun w => Iff.rfl
    case words_eq_nil =>
      intro w hw
      rw [hwords]
      split_ifs with hwa
      · rw [← hwa, hw]
        rfl
      · exact hw
    case destructor?_eq => exact Heap.destructor?_store? hstore
    case collecting_eq => rfl
    case isShutdown_eq => rfl

/-- Counts are exact but for one reference more to what a word names than slots that hold it. -/
structure Owing (s : Host (List UInt64) δ) (w : UInt64) : Prop where
  partitioned : s.gc.Partitioned
  collecting_eq : s.gc.collector.collecting = false
  isShutdown_eq : s.gc.isShutdown = false
  holders_add : ∀ v, v ≠ 0 → s.holders v + [w].count v = s.gc.count v
  words_of_no_destructor : ∀ a, s.gc.collector.isTracked a = true →
    s.gc.collector.heap.destructor? a = none → s.gc.collector.heap.words a = []

namespace Owing

variable {s s' : Host (List UInt64) δ} {w old : UInt64}

/-- Storing a pointer leaves a reference over to what the slot has held. -/
lemma rewritten (h : Owing s w) (hs : Rewritten s s' old w) : Owing s' old where
  partitioned := hs.partitioned
  collecting_eq := hs.collecting_eq.trans h.collecting_eq
  isShutdown_eq := hs.isShutdown_eq.trans h.isShutdown_eq
  holders_add v hv := by
    rw [hs.holders_add, hs.count_eq]
    exact h.holders_add v hv
  words_of_no_destructor a ha hnone := by
    rw [hs.isTracked_iff] at ha
    rw [hs.destructor?_eq] at hnone
    exact hs.words_eq_nil a (h.words_of_no_destructor a ha hnone)

lemma count_pos (h : Owing s w) (h0 : w ≠ 0) : 0 < s.gc.count w := by
  have := h.holders_add w h0
  rw [List.count_singleton_self] at this
  omega

/-- Dropping the reference that is left over makes counts exact. -/
lemma balanced {g : Gc δ} (h : Owing s w) (hg : s.gc.Dropped g [w]) :
    Balanced { s with gc := g } where
  partitioned := hg.partitioned
  collecting_eq := hg.collecting_eq.trans h.collecting_eq
  isShutdown_eq := hg.isShutdown_eq.trans h.isShutdown_eq
  holders_eq v hv := by
    have hdrop := hg.add_count v hv
    have hadd := h.holders_add v hv
    have hkept : holders { s with gc := g } v = s.holders v := holders_of_dropped hg s.client v
    simp only
    omega
  words_of_no_destructor a ha hnone := by
    rw [hg.isTracked_iff] at ha
    rw [hg.destructor?_eq] at hnone
    rw [hg.words_eq]
    exact h.words_of_no_destructor a ha hnone

end Owing

namespace Balanced

variable {s : Host (List UInt64) δ}

/-- Taking a reference leaves it over. -/
lemma owing {g : Gc δ} {w : UInt64} (hs : s.Balanced) (hg : g.Partitioned)
    (h : g.Dropped s.gc [w]) : Owing { s with gc := g } w where
  partitioned := hg
  collecting_eq := h.collecting_eq.symm.trans hs.collecting_eq
  isShutdown_eq := h.isShutdown_eq.symm.trans hs.isShutdown_eq
  holders_add v hv := by
    have hkept : s.holders v = holders { s with gc := g } v := holders_of_dropped h s.client v
    rw [← hkept, hs.holders_eq v hv]
    exact h.add_count v hv
  words_of_no_destructor a ha hnone := by
    rw [← h.isTracked_iff] at ha
    rw [← h.destructor?_eq] at hnone
    rw [← h.words_eq]
    exact hs.words_of_no_destructor a ha hnone

/-- A counted store of null or of a tracked object leaves the counts exact. It stops only at a count
that is at the largest word, and then changes nothing. -/
lemma swapref (hs : s.Balanced) {slot : PointerSlot} (hslot : slot.Exists s) {v : UInt64}
    (hv : v = 0 ∨ s.gc.collector.isTracked v = true) :
    (∃ s', (swapref slot.cell v).run s = .ok () s' ∧ Balanced s') ∨
      (swapref slot.cell v).run s = .error (.unwinding .countOverflow) s ∧
        s.holders v + 1 = UInt64.size := by
  by_cases hfull : v ≠ 0 ∧ s.gc.count v + 1 = UInt64.size
  · obtain ⟨h0, hfull⟩ := hfull
    have ht := hv.resolve_left h0
    refine .inr ⟨?_, hs.holders_eq v h0 ▸ hfull⟩
    rw [Gc.count, if_pos ht] at hfull
    simp [Host.swapref, Gc.addref_of_overflow h0 hs.isShutdown_eq ht hfull]
  -- take the new reference, write, drop the old one: exact, one over, one over, exact
  · obtain ⟨g₁, haddref, hpart₁, htaken⟩ :=
      Gc.addref_dropped hs.partitioned hs.isShutdown_eq hv (fun h0 hn => hfull ⟨h0, hn⟩)
    obtain ⟨hslot₁, hread⟩ := hslot.congr { s with gc := g₁ } rfl
      (fun a => (htaken.isTracked_iff a).1) (fun a => (htaken.words_eq a).symm)
    have hstore := PointerSlot.rewritten hpart₁ hslot₁ v
    generalize hs₂ : slot.cell.write v { s with gc := g₁ } = s₂ at hstore
    rw [hread] at hstore
    have howing := (hs.owing hpart₁ htaken).rewritten hstore
    obtain ⟨g₃, hdelref, hdropped⟩ :=
      Gc.delref_dropped howing.partitioned howing.isShutdown_eq howing.count_pos
    refine .inl ⟨{ s₂ with gc := g₃ }, ?_, howing.balanced hdropped⟩
    simp [Host.swapref, haddref, hs₂, hdelref]

end Balanced

/-! ### Runs of a disciplined client -/

/-- What a disciplined client does: it allocates, asks for a pass, stores a pointer, or sets the
threshold. What is reported at a pass and how destructors run may differ each time. -/
inductive Turn (δ : Type) where
  | allocate (env : Environment (List UInt64) δ) (size : Nat) (d : Option δ)
  | collect (env : Environment (List UInt64) δ)
  | swapref (slot : PointerSlot) (v : UInt64)
  | setThreshold (n : Nat)

namespace Turn

/-- Objects with words have a destructor and others do not, and only null and tracked objects are
stored. -/
def Allowed (s : Host (List UInt64) δ) : Turn δ → Prop
  | .allocate env size d =>
    env.Disciplined ∧ env.alloc.SoundAt s.gc.collector.heap ∧ (d.isSome = true ↔ 0 < size / 8)
  | .collect env => env.Disciplined
  | .swapref slot v => slot.Exists s ∧ (v = 0 ∨ s.gc.collector.isTracked v = true)
  | .setThreshold _ => True

/-- The call that a turn makes. -/
def act : Turn δ → Act (List UInt64) δ Unit
  | .allocate env size d => (fun _ => ()) <$> Host.allocate env size d
  | .collect env => (fun _ => ()) <$> runPass env none
  | .swapref slot v => Host.swapref slot.cell v
  | .setThreshold n => onGc (Gc.setThreshold n)

end Turn

/-- What a disciplined client can bring about, from a new collector and any number of variables, all
null. -/
inductive Attained : Host (List UInt64) δ → Prop
  | start (n : Nat) (config : Config) (scanner : Scanner) :
      Attained ⟨List.replicate n 0, .start config scanner⟩
  | turn {s : Host (List UInt64) δ} {t : Turn δ} (hs : Attained s) (ht : t.Allowed s) :
      Attained (after t.act s)

/-- The objects that the variables lead to through words of payloads. -/
inductive Reach (s : Host (List UInt64) δ) : UInt64 → Prop
  | external {w : UInt64} (h : w ∈ s.client) (h0 : w ≠ 0) : Reach s w
  | word {a w : UInt64} (ha : Reach s a) (h : w ∈ s.gc.collector.heap.words a) (h0 : w ≠ 0) :
      Reach s w

/-- How many slots there are. -/
def slotCount (s : Host (List UInt64) δ) : Nat :=
  s.client.length + ∑ a ∈ s.gc.collector.tracked, (s.gc.collector.heap.words a).length

/-- No object is held more often than there are slots. -/
lemma holders_le_slotCount (s : Host (List UInt64) δ) (v : UInt64) : s.holders v ≤ s.slotCount :=
  Nat.add_le_add List.count_le_length (Finset.sum_le_sum fun _ _ => List.count_le_length)

namespace Balanced

variable {s : Host (List UInt64) δ}

lemma start (n : Nat) (config : Config) (scanner : Scanner) :
    Balanced (⟨List.replicate n 0, .start config scanner⟩ : Host (List UInt64) δ) := by
  have hnot := Gc.not_isTracked_start (δ := δ) config scanner
  constructor
  case partitioned => exact Gc.partitioned_start config scanner
  case collecting_eq => rfl
  case isShutdown_eq => rfl
  case holders_eq =>
    intro v hv
    simp [holders, Gc.wordsHolding, Gc.tracked_start, Gc.count, hnot, List.count_replicate,
      Ne.symm hv]
  case words_of_no_destructor =>
    intro a ha
    simp [hnot] at ha

/-- The threshold decides when passes run and appears in no count. -/
lemma setThreshold (hs : s.Balanced) (n : Nat) :
    ∃ g, (onGc (Gc.setThreshold n)).run s = .ok () { s with gc := g } ∧
      Balanced { s with gc := g } ∧ g.collector = s.gc.collector := by
  refine ⟨_, rfl, ?_, rfl⟩
  exact { hs with partitioned := ⟨hs.partitioned.collector, hs.partitioned.idle⟩ }

lemma refs_eq (hs : s.Balanced) {o : UInt64} (ho : s.gc.collector.isTracked o = true) :
    (s.gc.collector.heap.refs o).toNat =
      s.client.count o + ∑ a ∈ s.gc.collector.tracked, (s.gc.collector.heap.words a).count o := by
  obtain ⟨p, hp⟩ := Partitions.isTracked_iff.1 ho
  have hholders := hs.holders_eq o (hs.partitioned.collector.ne_zero hp)
  rw [Gc.count, if_pos ho] at hholders
  exact hholders.symm

/-- There are no dangling slots: what is held is counted, and only tracked objects are. -/
lemma isTracked_of_held (hs : s.Balanced) {w : UInt64} (h0 : w ≠ 0)
    (h : w ∈ s.client ∨ ∃ a, s.gc.collector.isTracked a = true ∧
      w ∈ s.gc.collector.heap.words a) :
    s.gc.collector.isTracked w = true := by
  apply Gc.isTracked_of_count_pos
  rw [← hs.holders_eq w h0, holders]
  rcases h with h | ⟨a, ha, h⟩
  · have := List.count_pos_iff.2 h
    omega
  · have hpos := List.count_pos_iff.2 h
    have hle := Finset.single_le_sum (f := fun x => (s.gc.collector.heap.words x).count w)
      (fun _ _ => Nat.zero_le _) (Partitions.mem_tracked.2 ha)
    rw [Gc.wordsHolding]
    omega

/-- What the variables lead to is tracked, and stays so, with its words, where neither the variables
nor the words of tracked payloads change. -/
lemma isTracked_of_reach {s' : Host (List UInt64) δ} (hs : s.Balanced) (hs' : s'.Balanced)
    (hclient : s'.client = s.client)
    (hwords : ∀ a, s.gc.collector.isTracked a = true →
      s'.gc.collector.heap.words a = s.gc.collector.heap.words a)
    {o : UInt64} (h : s.Reach o) :
    s.gc.collector.isTracked o = true ∧ s'.gc.collector.isTracked o = true := by
  -- the path leads on through the words of objects that are still there, and these words have not
  -- changed
  induction h with
  | external h h0 =>
    exact ⟨hs.isTracked_of_held h0 (.inl h), hs'.isTracked_of_held h0 (.inl (hclient ▸ h))⟩
  | word _ h h0 ih =>
    refine ⟨hs.isTracked_of_held h0 (.inr ⟨_, ih.1, h⟩), ?_⟩
    exact hs'.isTracked_of_held h0 (.inr ⟨_, ih.2, hwords _ ih.1 ▸ h⟩)

/-- Every turn leaves the counts exact, and any but a store leaves the variables and the words of
tracked payloads as they are. The only one that may stop is a store of a pointer whose count is at
the largest word, and then it changes nothing. -/
lemma turn (hs : s.Balanced) {t : Turn δ} (ht : t.Allowed s) :
    (∃ s', t.act.run s = .ok () s' ∧ Balanced s' ∧
      ((∃ slot v, t = .swapref slot v) ∨ s'.client = s.client ∧
        ∀ a, s.gc.collector.isTracked a = true →
          s'.gc.collector.heap.words a = s.gc.collector.heap.words a)) ∨
      ∃ slot v, t = .swapref slot v ∧ t.act.run s = .error (.unwinding .countOverflow) s ∧
        s.holders v + 1 = UInt64.size := by
  -- only a swap of pointers moves a pointer, and only its first step can stop
  cases t with
  | allocate env size d =>
    obtain ⟨henv, hsound, hd⟩ := ht
    obtain ⟨r, g, hr, hg, hwords⟩ := hs.allocate henv hsound size d (by
      rintro rfl
      simpa using hd)
    exact .inl ⟨_, by simp [Turn.act, hr], hg, .inr ⟨rfl, hwords⟩⟩
  | collect env =>
    obtain ⟨n, g, hr, hg, hwords⟩ := hs.runPass ht none
    exact .inl ⟨_, by simp [Turn.act, hr], hg, .inr ⟨rfl, fun a _ => hwords a⟩⟩
  | swapref slot v =>
    rcases hs.swapref ht.1 ht.2 with ⟨s', hr, hs'⟩ | h
    · exact .inl ⟨s', hr, hs', .inl ⟨slot, v, rfl⟩⟩
    · exact .inr ⟨slot, v, rfl, h⟩
  | setThreshold n =>
    obtain ⟨g, hr, hg, hc⟩ := hs.setThreshold n
    exact .inl ⟨_, hr, hg, .inr ⟨rfl, fun a _ => by rw [hc]⟩⟩

end Balanced

/-- By induction on the turns. `turn` is the step, and a turn that stops has changed nothing. -/
lemma Attained.balanced {s : Host (List UInt64) δ} (h : Attained s) : s.Balanced := by
  induction h with
  | start n config scanner => exact .start n config scanner
  | turn hs ht ih =>
    rw [after]
    rcases ih.turn ht with ⟨s', hr, hs', -⟩ | ⟨slot, v, -, hr, -⟩
    · rw [hr]
      exact hs'
    · rw [hr]
      exact ih

/-- The collector is sound for a disciplined client. Between its calls no pass is open, the count of
a tracked object is the number of variables and words of tracked payloads that hold it, and whatever
these hold is null or tracked. Its calls do not stop, but for a store of an object that every slot
holds already if there are as many slots as the largest word. What its variables lead to survives
every call but a store. -/
theorem sound_of_attained {s : Host (List UInt64) δ} (h : Attained s) :
    s.gc.collector.collecting = false ∧ s.gc.isShutdown = false ∧
    (∀ o, s.gc.collector.isTracked o = true → (s.gc.collector.heap.refs o).toNat =
      s.client.count o + ∑ a ∈ s.gc.collector.tracked, (s.gc.collector.heap.words a).count o) ∧
    (∀ w, w ≠ 0 → (w ∈ s.client ∨ ∃ a, s.gc.collector.isTracked a = true ∧
      w ∈ s.gc.collector.heap.words a) → s.gc.collector.isTracked w = true) ∧
    (s.slotCount < UInt64.size → ∀ t : Turn δ, t.Allowed s →
      (∃ s', t.act.run s = .ok () s') ∨ ∃ slot v, t = .swapref slot v ∧
        t.act.run s = .error (.unwinding .countOverflow) s ∧
        s.holders v = s.slotCount ∧ s.slotCount + 1 = UInt64.size) ∧
    (∀ t : Turn δ, t.Allowed s → (∀ slot v, t ≠ .swapref slot v) → ∀ o, s.Reach o →
      (after t.act s).gc.collector.isTracked o = true ∧
      (after t.act s).gc.collector.heap.words o = s.gc.collector.heap.words o) := by
  have hs := h.balanced
  refine ⟨hs.collecting_eq, hs.isShutdown_eq, fun o => hs.refs_eq, fun w => hs.isTracked_of_held,
    ?_, ?_⟩
  · intro hslots t ht
    rcases hs.turn ht with ⟨s', hr, -⟩ | ⟨slot, v, rfl, hr, hfull⟩
    · exact .inl ⟨s', hr⟩
    -- the count is that of the holders, so it is full only if every slot holds the object
    · have := s.holders_le_slotCount v
      exact .inr ⟨slot, v, rfl, hr, by omega, by omega⟩
  · intro t ht hstore o ho
    rcases hs.turn ht with ⟨s', hr, hs', ⟨slot, v, ht⟩ | ⟨hclient, hwords⟩⟩ | ⟨slot, v, ht, -⟩
    · exact absurd ht (hstore slot v)
    · obtain ⟨ho, ho'⟩ := hs.isTracked_of_reach hs' hclient hwords ho
      rw [after, hr]
      exact ⟨ho', hwords o ho⟩
    · exact absurd ht (hstore slot v)

/-- A client whose destructors drop the words of their payloads in order and that reports no roots.
-/
def dropping : Environment (List UInt64) Unit where
  alloc := Heap.allocate
  scan _ _ := some []
  beginRound _ vars := vars
  destroy a _ := do
    ((← get).gc.collector.heap.words a).forM fun w => onGc (Gc.delref w)

/-- Destructors that walk their payload drop its words in one of the orders that are allowed. -/
lemma disciplined_dropping : dropping.Disciplined where
  beginRound_eq _ _ := rfl
  destroy_eq a _ s := ⟨s.gc.collector.heap.words a, .refl _, rfl⟩

/-- Two variables that hold an object each. The first object holds the second one as well. -/
def ownedAndHeld : Host (List UInt64) Unit :=
  [Turn.allocate dropping 8 (some ()), .swapref (.external 0) 0x10000030,
    .allocate dropping 8 (some ()), .swapref (.external 1) 0x10000070,
    .swapref (.word 0x10000030 0) 0x10000070].foldl (fun s t => after t.act s)
      ⟨[0, 0], .start {} .noRoots⟩

/-- The first variable has let go of its object. -/
def ownerReleased : Host (List UInt64) Unit :=
  after (Turn.swapref (.external 0) 0).act ownedAndHeld

/-- A pass has freed that object, and its destructor has dropped the other one. -/
def ownerCollected : Host (List UInt64) Unit :=
  after (Turn.collect dropping).act ownerReleased

lemma attained_ownedAndHeld : Attained ownedAndHeld := by
  have h₀ : Attained (⟨[0, 0], .start {} .noRoots⟩ : Host (List UInt64) Unit) :=
    .start 2 {} .noRoots
  have h₁ := h₀.turn (t := .allocate dropping 8 (some ()))
    ⟨disciplined_dropping, Heap.bounded_empty.soundAt_allocate, by decide⟩
  have h₂ := h₁.turn (t := .swapref (.external 0) 0x10000030)
    ⟨by decide +kernel, .inr (by decide +kernel)⟩
  have h₃ := h₂.turn (t := .allocate dropping 8 (some ()))
    ⟨disciplined_dropping, (Heap.Bounded.of_keys (by decide +kernel)).soundAt_allocate, by decide⟩
  have h₄ := h₃.turn (t := .swapref (.external 1) 0x10000070)
    ⟨by decide +kernel, .inr (by decide +kernel)⟩
  exact h₄.turn (t := .swapref (.word 0x10000030 0) 0x10000070)
    ⟨by decide +kernel, .inr (by decide +kernel)⟩

/-- The second object is held by a variable and by a word, and after the pass by the variable alone,
which leads to it all the time. -/
theorem sound_of_attained_ownedAndHeld :
    Attained ownerReleased ∧ (ownerReleased.gc.collector.heap.refs 0x10000070).toNat = 2 ∧
      Attained ownerCollected ∧ ownerCollected.gc.collector.isTracked 0x10000030 = false ∧
      ownerCollected.gc.collector.isTracked 0x10000070 = true ∧
      (ownerCollected.gc.collector.heap.refs 0x10000070).toNat = 1 := by
  have hreleased : Attained ownerReleased :=
    attained_ownedAndHeld.turn ⟨by decide +kernel, .inl rfl⟩
  have hcollected : Attained ownerCollected := hreleased.turn disciplined_dropping
  obtain ⟨-, -, hcount, -, -, hkept⟩ := sound_of_attained hreleased
  obtain ⟨-, -, hcount', -⟩ := sound_of_attained hcollected
  have hreach : ownerReleased.Reach 0x10000070 := .external (by decide +kernel) (by decide)
  obtain ⟨htracked, -⟩ := hkept (.collect dropping) disciplined_dropping (by rintro _ _ ⟨⟩) _ hreach
  refine ⟨hreleased, (hcount _ (by decide +kernel)).trans ?_, hcollected, by decide +kernel,
    htracked, (hcount' _ htracked).trans ?_⟩
  · decide +kernel
  · decide +kernel

end Host

end HybridGC
