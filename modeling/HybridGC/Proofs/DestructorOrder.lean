import HybridGC.Proofs.Exhaustion
import HybridGC.Proofs.IterationOrder
import HybridGC.Proofs.World

/-!
# The order of destructors

The destructors that a pass owes run in the order in which the working table names their objects.
A pass that condemns no cycles has that table from the zero-count partition, less what has been
rescued, so the order was there before the pass.
-/

namespace HybridGC

variable {μ δ : Type}

namespace Collector

/-- A rescue takes one address out of the working table and leaves the order of the others. -/
lemma addresses_working_rescue (c : Collector δ) (w : UInt64) :
    (c.rescue w).2.working.addresses = c.working.addresses.erase w := by
  by_cases hw : w ∈ c.working
  · have htake : (c.take .working w).1 = some (.ofAddress w) := by
      rw [take_fst]
      exact if_pos hw
    have hrescue : (c.rescue w).2.working = (c.working.erase w).2 := by
      rw [rescue]
      split
      case h_1 h => simp [h] at htake
      case h_2 e c₁ h =>
        have hput := table_put_of_ne (c := c₁.setState w .zeroCount) (e := e)
          (show Partition.working ≠ .zeroCount by decide)
        have hc₁ : c₁.working = (c.take .working w).2.working := by rw [h]
        rw [take, onTable_eq] at hc₁
        exact hput.trans hc₁
    rw [hrescue, Table.addresses_erase]
  · rw [c.rescue_of_not_mem hw, List.erase_of_not_mem hw]

/-- Rescuing leaves the other candidates in order. -/
lemma addresses_working_rescueAll (c : Collector δ) (ws : List UInt64) :
    (c.rescueAll ws).2.working.addresses = c.working.addresses.filter (· ∉ ws) := by
  induction ws generalizing c with
  | nil => simp [rescueAll]
  | cons w ws ih =>
    show ((c.rescue w).2.rescueAll ws).2.working.addresses = _
    rw [ih, addresses_working_rescue, c.working.nodup_addresses.erase_eq_filter, List.filter_filter]
    refine List.filter_congr fun a _ => ?_
    by_cases ha : a = w <;> simp [ha]

end Collector

namespace Gc

variable {g g' : Gc δ} {fresh : Option UInt64} {roots : List UInt64} {pass : Pass δ}

/-- The destructors of the zero-count objects that neither a fresh object nor a root word names, in
the order in which the table names the objects. -/
def unrescued (g : Gc δ) (fresh : Option UInt64) (roots : List UInt64) : List (UInt64 × δ) :=
  (g.collector.zeroCount.addresses.filter (· ∉ fresh.toList ++ roots)).filterMap fun a =>
    (g.collector.heap.destructor? a).map (a, ·)

/-- A pass that condemns no cycles works on what was in the zero-count table, in its order. -/
lemma addresses_working_of_openPass (hw : ∀ b, b ∉ g.collector.working)
    (hc : g.collector.collecting = false) (hs : g.isShutdown = false)
    (hr : (openPass fresh (some roots)).run g = .ok (some pass) g') (hnone : pass.condemned = []) :
    g'.collector.working.addresses =
      g.collector.zeroCount.addresses.filter (· ∉ fresh.toList ++ roots) := by
  obtain ⟨c₁, hbegin, hbegun⟩ := Collector.beginPass_begun hc hw
  generalize hc₂ : (c₁.rescueAll fresh.toList).2 = c₂
  generalize hc₃ : c₂.rescueAll roots = x
  obtain ⟨unused, c₃⟩ := x
  -- what is left of the zero-count table's order after both lists of words have rescued
  have hkept : c₃.working.addresses =
      g.collector.zeroCount.addresses.filter (· ∉ fresh.toList ++ roots) := by
    have h := c₂.addresses_working_rescueAll roots
    rw [hc₃, ← hc₂, Collector.addresses_working_rescueAll, hbegun.working_eq,
      List.filter_filter] at h
    rw [h]
    refine List.filter_congr fun a _ => ?_
    simp [and_comm]
  rw [← hkept]
  rw [run_openPass hc hs hbegin (hc₂ ▸ hc₃)] at hr
  split at hr
  case h_2 => cases hr
  case h_1 condemned c hcond =>
    cases hr
    obtain rfl : condemned = [] := hnone
    split at hcond
    case isTrue =>
      -- a search for cycles that finds none moves nothing
      obtain ⟨hcyclic, -⟩ := Collector.condemned_of_condemnCycles hcond
      obtain ⟨c', hcond', htables, -⟩ := Collector.run_condemnCycles_of_nil hcyclic.symm
      cases hcond.symm.trans hcond'
      rw [htables]
    case isFalse =>
      cases hcond
      rfl

end Gc

namespace Host

open Machine

variable {s s' : Host μ δ} {fresh : Option UInt64} {roots : List UInt64} {pass : Pass δ} {g : Gc δ}

/-- A pass that has been opened runs the destructors it owes, in order, and then closes. -/
lemma run_runPass_of_openPass (env : Environment μ δ)
    (hscan : env.scan s.client s.gc.scanner = some roots)
    (hopen : (Gc.openPass fresh (some roots)).run s.gc = .ok (some pass) g) :
    (runPass env fresh).run s = (do destroyAll env pass.pending; onGc Gc.closePass : Act μ δ Nat).run
      ⟨env.beginRound pass.condemned s.client, g⟩ := by
  simp [runPass, hscan, hopen, modifyClient]

/-- A client that records its destructors has recorded those that have run. They are the first of
those that were owed, and all of them if the pass returns. -/
lemma log_runPass {env : Environment μ δ} {log : μ → List UInt64} {begun : μ → Prop}
    (henv : env.Records log begun) (hs : s.gc.Partitioned) (hb : s.gc.collector.heap.Bounded)
    (hscan : env.scan s.client s.gc.scanner = some roots)
    (hopen : (Gc.openPass fresh (some roots)).run s.gc = .ok (some pass) g) :
    ∃ done, done <+: pass.pending.map Prod.fst ∧
      log (after (runPass env fresh) s).client = done.reverse ++ log s.client ∧
      ∀ n s', (runPass env fresh).run s = .ok n s' → done = pass.pending.map Prod.fst := by
  obtain ⟨done, owed, hpending, hdestroyed, howed⟩ :=
    destroyed_destroyAll henv pass.pending (destroying_of_openPass henv hs hb hopen)
  have hrun := run_runPass_of_openPass env hscan hopen
  have hlog := hdestroyed.log_eq
  rw [henv.log_beginRound] at hlog
  -- closing the pass, or abandoning it, does not touch the log
  refine ⟨done.map Prod.fst, ?_, ?_, ?_⟩
  · rw [hpending, List.map_append]
    exact List.prefix_append _ _
  · rw [← hlog, after, hrun, ← after, after_bind, after]
    cases (destroyAll env pass.pending).run ⟨env.beginRound pass.condemned s.client, g⟩ with
    | ok _ s₁ => simp only [after_onGc]
    | error stop s₁ => rfl
  · intro n s' hr
    cases hdestroy : (destroyAll env pass.pending).run
        ⟨env.beginRound pass.condemned s.client, g⟩ with
    | ok _ s₁ =>
      obtain rfl := howed ⟨s₁, hdestroy⟩
      rw [hpending, List.append_nil]
    | error stop s₁ => simp [hrun, hdestroy] at hr

/-- The order of an iteration is settled by what has been put in and taken out, and so is the order
of destructors: a pass that condemns no cycles owes them in the order in which the zero-count table
has named the objects that are not rescued, and runs them in this order. -/
theorem destructors_in_table_order :
    (∀ t : Table, t.IteratesInOrder) ∧
    ∀ {μ δ : Type} (env : Environment μ δ) {s : Host μ δ} {fs : List (Frame δ)}
      (fresh : Option UInt64) {roots : List UInt64}, Reachable ⟨s.gc, fs⟩ →
      s.gc.collector.collecting = false → s.gc.isShutdown = false →
      env.scan s.client s.gc.scanner = some roots →
      ∃ pass g, (Gc.openPass fresh (some roots)).run s.gc = .ok (some pass) g ∧
        pass.condemned.toFinset = s.gc.cyclic fresh roots ∧
        (pass.condemned = [] → pass.pending = s.gc.unrescued fresh roots) ∧
        (runPass env fresh).run s =
          (do destroyAll env pass.pending; onGc Gc.closePass : Act μ δ Nat).run
            ⟨env.beginRound pass.condemned s.client, g⟩ ∧
        ∀ log begun, env.Records log begun → s.gc.collector.heap.Bounded →
          ∃ done, done <+: pass.pending.map Prod.fst ∧
            log (after (runPass env fresh) s).client = done.reverse ++ log s.client ∧
            ∀ n s', (runPass env fresh).run s = .ok n s' → done = pass.pending.map Prod.fst := by
  refine ⟨Table.iteratesInOrder, fun {μ δ} env {s fs} fresh {roots} hs hc hsd hscan => ?_⟩
  have hpart : s.gc.Partitioned := hs.partitioned
  have hidle := hpart.idle hc hsd
  obtain ⟨c, condemned, hopen, hcyclic, hopened⟩ :=
    Gc.openPass_opened hpart.collector.labelled hidle hc hsd fresh roots
  refine ⟨_, _, hopen, hcyclic, fun hnone => ?_, run_runPass_of_openPass env hscan hopen,
    fun log begun henv hb => log_runPass henv hpart hb hscan hopen⟩
  have horder := Gc.addresses_working_of_openPass hidle hc hsd hopen hnone
  -- the owed destructors are read off the working table in its order
  simp only [Collector.pendingDestructors, Gc.unrescued, horder, hopened.sameObjects.destructor?_eq]

/-- Seven objects of which one is a root and another has no destructor, and one that is held. -/
def growing : List Call :=
  [({}, .alloc 8 (some (.native, [])) 5), ({}, .alloc 8 none 1),
    ({}, .alloc 8 (some (.foreign, [])) 2), ({}, .rootAdd (.ref (.object 1 0))),
    ({}, .addref (.ref (.object 2 0)) 1)]

/-- A client whose zero-count table has grown. -/
def grownTable : World :=
  (World.run growing (World.start {} .explicit)).2

/-- The table has grown since the first objects were made, so its order is not theirs. The
destructors follow the table, leaving out the root and the object without a destructor. -/
theorem destructors_in_table_order_grownTable :
    Reachable ⟨grownTable.gc, []⟩ ∧
      grownTable.gc.collector.zeroCount.addresses = [0x100001b0, 0x10000170, 0x10000070,
        0x10000030, 0x100000f0, 0x100001f0, 0x10000130] ∧
      ∃ n w, (runPass (World.environment World.runDestructor .main) none).run grownTable =
          .ok n w ∧
        (World.destroyed w.client).reverse =
          [0x100001b0, 0x10000030, 0x100000f0, 0x100001f0, 0x10000130] := by
  obtain ⟨hs, hb⟩ : Reachable ⟨grownTable.gc, []⟩ ∧ grownTable.gc.collector.heap.Bounded := by
    obtain ⟨es, h, hb, -⟩ := World.hasHistory_run growing {} .explicit
    rw [grownTable]
    exact ⟨h.reachable, hb⟩
  have hscan : (World.environment World.runDestructor .main).scan grownTable.client
      grownTable.gc.scanner = some [0x10000070] := by
    decide +kernel
  obtain ⟨-, hpasses⟩ := destructors_in_table_order
  obtain ⟨pass, g, -, hcyclic, horder, -, hlog⟩ :=
    hpasses (World.environment World.runDestructor .main) none hs (by decide +kernel)
      (by decide +kernel) hscan
  have hnone : pass.condemned = [] := by
    rw [← List.toFinset_eq_empty_iff, hcyclic]
    decide +kernel
  obtain ⟨done, -, hdone, hall⟩ := hlog World.destroyed _ (World.records_runDestructor .main) hb
  have hreturns : (halt (runPass (World.environment World.runDestructor .main) none)
      grownTable).isNone = true := by
    decide +kernel
  obtain ⟨n, w, hr⟩ := halt_eq_none_iff.1 (Option.isNone_iff_eq_none.1 hreturns)
  refine ⟨hs, by decide +kernel, n, w, hr, ?_⟩
  rw [after_of_ok hr, hall n w hr, horder hnone] at hdone
  rw [hdone]
  decide +kernel

end Host

end HybridGC
