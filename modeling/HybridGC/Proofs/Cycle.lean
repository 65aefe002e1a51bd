import HybridGC.Cycle
import Mathlib.Algebra.BigOperators.Group.Finset.Basic
import Mathlib.Order.Bounds.Basic
import Mathlib.Order.Lattice

/-!
# What trial deletion finds

A search that starts from some payloads never reaches a set that nothing outside it points into, and
what it leaves unreached is such a set: the unreached objects are the greatest one. That holds
whichever pending payload is read next, and how often an object has been read and how often it can
still be read add up to the same throughout. Trial deletion starts from the roots, from the
zero-count objects and from the objects owned from outside, so what it finds is the greatest set of
multi-ref objects all of whose owners are words of their own payloads.
-/

namespace HybridGC

open Std (TreeMap TreeSet)

/-! ### Counting words -/

lemma getD_tally (ws : List UInt64) (w : UInt64) : (tally ws).getD w 0 = ws.count w := by
  -- the map is built from the left, so the counts met so far are part of the statement
  have h (m : TreeMap UInt64 Nat) :
      (ws.foldl (fun m w => m.insert w (m.getD w 0 + 1)) m).getD w 0 = m.getD w 0 + ws.count w := by
    induction ws generalizing m with
    | nil => simp
    | cons x xs ih =>
      rw [List.foldl_cons, ih, TreeMap.getD_insert, List.count_cons]
      by_cases hx : x = w
      · simp [hx]
        omega
      · simp [hx]
  simpa [tally] using h ∅

/-! ### The search -/

namespace Frontier

variable {words : UInt64 → List UInt64} {f : Frontier} {a w : UInt64}

lemma mem_unreached_reach : a ∈ (f.reach w).unreached ↔ a ∈ f.unreached ∧ a ≠ w := by
  unfold reach
  split
  case isTrue =>
    rw [TreeSet.mem_erase, ne_eq, Std.LawfulEqCmp.compare_eq_iff_eq]
    tauto
  case isFalse h =>
    constructor
    · rintro ha
      exact ⟨ha, fun haw => h (haw ▸ ha)⟩
    · exact And.left

/-- What is reached becomes pending once: a word that is no longer unreached adds nothing. -/
lemma mem_pending_reach :
    a ∈ (f.reach w).pending ↔ a ∈ f.pending ∨ a = w ∧ a ∈ f.unreached := by
  unfold reach
  split
  case isTrue h =>
    rw [List.mem_cons]
    constructor
    · rintro (rfl | ha)
      · exact .inr ⟨rfl, h⟩
      · exact .inl ha
    · rintro (ha | ⟨rfl, -⟩)
      · exact .inr ha
      · exact .inl rfl
  case isFalse h =>
    constructor
    · exact .inl
    · rintro (ha | ⟨rfl, ha⟩)
      · exact ha
      · exact absurd ha h

lemma reachAll_cons (f : Frontier) (w : UInt64) (ws : List UInt64) :
    f.reachAll (w :: ws) = (f.reach w).reachAll ws := rfl

lemma mem_unreached_reachAll {ws : List UInt64} :
    a ∈ (f.reachAll ws).unreached ↔ a ∈ f.unreached ∧ a ∉ ws := by
  induction ws generalizing f with
  | nil => simp [reachAll]
  | cons w ws ih =>
    rw [reachAll_cons, ih, mem_unreached_reach, List.mem_cons, not_or, and_assoc]

lemma mem_pending_reachAll {ws : List UInt64} :
    a ∈ (f.reachAll ws).pending ↔ a ∈ f.pending ∨ a ∈ ws ∧ a ∈ f.unreached := by
  induction ws generalizing f with
  | nil => simp [reachAll]
  | cons w ws ih =>
    rw [reachAll_cons, ih, mem_pending_reach, mem_unreached_reach, List.mem_cons]
    by_cases haw : a = w
    · simp [haw]
    · simp [haw]

/-! #### Payloads in any order -/

/-- The payload of a pending object is read, whichever of them it is, and what it names is reached.
-/
inductive Reads (words : UInt64 → List UInt64) (a : UInt64) : Frontier → Frontier → Prop
  | read (unreached : TreeSet UInt64) (before after : List UInt64) :
      Reads words a ⟨unreached, before ++ a :: after⟩
        (reachAll ⟨unreached, before ++ after⟩ (words a))

/-- The payloads of some objects are read one after the other, in the order given. -/
inductive Searches (words : UInt64 → List UInt64) : List UInt64 → Frontier → Frontier → Prop
  | nil (f : Frontier) : Searches words [] f f
  | cons {a : UInt64} {as : List UInt64} {f g k : Frontier} (hr : Reads words a f g)
      (hs : Searches words as g k) : Searches words (a :: as) f k

/-- The order in which `exhaust` reads is one of the orders that `Searches` leaves open, so all that
is proved of every search holds of it. -/
lemma searches_exhaust (words : UInt64 → List UInt64) (f : Frontier) :
    ∃ as, Searches words as f ⟨exhaust words f, []⟩ := by
  fun_induction exhaust words f with
  | case1 unreached => exact ⟨[], .nil _⟩
  | case2 unreached a rest ih =>
    obtain ⟨as, hs⟩ := ih
    exact ⟨a :: as, .cons (.read unreached [] rest) hs⟩

/-- How often an object can still be read. -/
def due (f : Frontier) (a : UInt64) : Nat :=
  f.pending.count a + if a ∈ f.unreached then 1 else 0

/-- Reaching an object makes it pending. -/
lemma due_reach (f : Frontier) (w a : UInt64) : (f.reach w).due a = f.due a := by
  by_cases hw : w ∈ f.unreached
  · have h : f.reach w = ⟨f.unreached.erase w, w :: f.pending⟩ := if_pos hw
    by_cases ha : a = w
    · simp [due, h, ha, hw]
    · simp [due, h, Ne.symm ha, TreeSet.mem_erase]
  · rw [reach, if_neg hw]

/-- Reaching moves an object from unreached to pending, so it can be read as often as before. -/
@[simp] lemma due_reachAll (f : Frontier) (ws : List UInt64) (a : UInt64) :
    (f.reachAll ws).due a = f.due a := by
  induction ws generalizing f with
  | nil => rfl
  | cons w ws ih =>
    rw [reachAll_cons, ih, due_reach]

/-- A set that no payload yet to be read points into. -/
structure Isolates (words : UInt64 → List UInt64) (f : Frontier) (X : UInt64 → Prop) : Prop where
  mem_unreached : ∀ a, X a → a ∈ f.unreached
  of_pending : ∀ p ∈ f.pending, ∀ w ∈ words p, ¬ X w
  of_unreached : ∀ p ∈ f.unreached, ¬ X p → ∀ w ∈ words p, ¬ X w

namespace Reads

variable {g : Frontier}

/-- Each payload that is read makes the search smaller, which is why it ends. -/
lemma size_add_one (h : Reads words a f g) : g.size + 1 = f.size := by
  obtain ⟨unreached, before, after⟩ := h
  rw [size_reachAll]
  simp only [size, List.length_append, List.length_cons]
  omega

/-- The object that is read can be read one time less, every other as often as before. -/
lemma due_eq (h : Reads words a f g) (b : UInt64) :
    g.due b + (if b = a then 1 else 0) = f.due b := by
  obtain ⟨unreached, before, after⟩ := h
  rw [due_reachAll]
  by_cases hb : b = a
  · simp [due, hb]
    omega
  · simp [due, hb, List.count_cons_of_ne (Ne.symm hb)]

lemma mem_unreached (h : Reads words a f g) {b : UInt64} :
    b ∈ g.unreached ↔ b ∈ f.unreached ∧ b ∉ words a := by
  obtain ⟨unreached, before, after⟩ := h
  exact mem_unreached_reachAll

/-- A payload that is read does not point into an isolated set, so none of its members becomes
pending. -/
lemma isolates {X : UInt64 → Prop} (h : Reads words a f g) (hX : Isolates words f X) :
    Isolates words g X := by
  obtain ⟨unreached, before, after⟩ := h
  have ha : ∀ w ∈ words a, ¬ X w := hX.of_pending a (by simp)
  constructor
  case mem_unreached =>
    intro x hx
    exact mem_unreached_reachAll.2 ⟨hX.mem_unreached x hx, fun hm => ha x hm hx⟩
  case of_pending =>
    intro p hp
    rcases mem_pending_reachAll.1 hp with hp | ⟨hp, hu⟩
    · refine hX.of_pending p ?_
      simp only [List.mem_append, List.mem_cons] at hp ⊢
      tauto
    · exact hX.of_unreached p hu (ha p hp)
  case of_unreached =>
    intro p hp
    exact hX.of_unreached p (mem_unreached_reachAll.1 hp).1

end Reads

namespace Searches

variable {as : List UInt64} {g : Frontier}

lemma length_add_size (h : Searches words as f g) : as.length + g.size = f.size := by
  induction h with
  | nil f => simp
  | cons hr hs ih =>
    have := hr.size_add_one
    rw [List.length_cons]
    omega

/-- Each time an object is read, it can be read one time less. -/
lemma count_add_due (h : Searches words as f g) (b : UInt64) : as.count b + g.due b = f.due b := by
  induction h with
  | nil f => simp
  | @cons a as f g k hr hs ih =>
    rw [← hr.due_eq b, ← ih, List.count_cons]
    by_cases hb : b = a
    · simp [hb]
      omega
    · simp [hb, Ne.symm hb]

/-- After a search, unreached is what was unreached before and is named by no payload it has read.
-/
lemma mem_unreached (h : Searches words as f g) {b : UInt64} :
    b ∈ g.unreached ↔ b ∈ f.unreached ∧ ∀ a ∈ as, b ∉ words a := by
  induction h with
  | nil f => simp
  | cons hr hs ih => rw [ih, hr.mem_unreached, List.forall_mem_cons, and_assoc]

/-- No search, in whatever order, reaches into an isolated set. -/
lemma isolates {X : UInt64 → Prop} (h : Searches words as f g) (hX : Isolates words f X) :
    Isolates words g X := by
  induction h with
  | nil f => exact hX
  | cons hr hs ih => exact ih (hr.isolates hX)

/-- When none is pending any longer, what was pending and what was reached has been read. -/
lemma mem_iff (h : Searches words as f g) (hg : g.pending = []) {p : UInt64} :
    p ∈ as ↔ p ∈ f.pending ∨ p ∈ f.unreached ∧ p ∉ g.unreached := by
  have hcount := h.count_add_due p
  have hmono : p ∈ g.unreached → p ∈ f.unreached := fun hp => (h.mem_unreached.1 hp).1
  -- with none pending, all that an object can still be read for is that it is unreached
  simp only [due, hg, List.count_nil] at hcount
  rw [← List.count_pos_iff, ← List.count_pos_iff]
  grind

end Searches

/-! #### Reading until none is pending -/

lemma mem_unreached_of_mem_exhaust (h : a ∈ exhaust words f) : a ∈ f.unreached := by
  obtain ⟨as, hs⟩ := searches_exhaust words f
  exact (hs.mem_unreached.1 h).1

/-- Every payload that is pending is read. -/
lemma not_mem_exhaust_of_pending {p : UInt64} (hp : p ∈ f.pending) (hw : w ∈ words p) :
    w ∉ exhaust words f := by
  obtain ⟨as, hs⟩ := searches_exhaust words f
  intro hm
  exact (hs.mem_unreached.1 hm).2 p ((hs.mem_iff rfl).2 (.inl hp)) hw

/-- Every payload that is reached is read. -/
lemma not_mem_exhaust_of_reached {p : UInt64} (hp : p ∈ f.unreached) (hr : p ∉ exhaust words f)
    (hw : w ∈ words p) : w ∉ exhaust words f := by
  obtain ⟨as, hs⟩ := searches_exhaust words f
  intro hm
  exact (hs.mem_unreached.1 hm).2 p ((hs.mem_iff rfl).2 (.inr ⟨hp, hr⟩)) hw

/-- A set that no payload outside it points into is never reached. -/
lemma mem_exhaust_of_isolates {X : UInt64 → Prop} (hX : Isolates words f X) (ha : X a) :
    a ∈ exhaust words f := by
  obtain ⟨as, hs⟩ := searches_exhaust words f
  exact (hs.isolates hX).mem_unreached a ha

end Frontier

/-! ### Unreachable objects -/

namespace Heap

variable {δ : Type} {h : Heap δ} {zeroCount multiRef roots : List UInt64}

/-- A set of multi-ref objects that nothing but their own payloads holds: no root word, no word of a
zero-count payload and no word of another multi-ref payload names one of them, and each count is the
number of words of their payloads that name the object. -/
structure SelfOwned (h : Heap δ) (zeroCount multiRef roots : List UInt64) (X : Finset UInt64) :
    Prop where
  mem_multiRef : ∀ o ∈ X, o ∈ multiRef
  not_mem_roots : ∀ o ∈ X, o ∉ roots
  not_mem_zeroCount : ∀ o ∈ X, ∀ z ∈ zeroCount, o ∉ h.words z
  not_mem_survivor : ∀ o ∈ X, ∀ m ∈ multiRef, m ∉ X → o ∉ h.words m
  refs_eq : ∀ o ∈ X, (h.refs o).toNat = ∑ x ∈ X, (h.words x).count o

/-- The tally of references to an object is the number of words that name it, over the payloads of
all multi-ref objects. -/
lemma getD_references (hnodup : multiRef.Nodup) (o : UInt64) :
    (h.references multiRef).getD o 0 = ∑ m ∈ multiRef.toFinset, (h.words m).count o := by
  rw [references, getD_tally, List.count_flatMap, List.sum_toFinset _ hnodup]
  rfl

/-- An object is held from outside when its count is not the number of words that name it, a count
that is too small included. -/
lemma mem_externallyOwned {o : UInt64} (hnodup : multiRef.Nodup) :
    o ∈ h.externallyOwned multiRef ↔
      o ∈ multiRef ∧ (h.refs o).toNat ≠ ∑ m ∈ multiRef.toFinset, (h.words m).count o := by
  simp [externallyOwned, getD_references hnodup]

/-- Words of payloads outside a set can be left out of a count if none of them names the object. -/
lemma sum_count_eq_of_subset {s t : Finset UInt64} {o : UInt64} (hst : s ⊆ t)
    (ho : ∀ m ∈ t, m ∉ s → o ∉ h.words m) :
    ∑ m ∈ t, (h.words m).count o = ∑ m ∈ s, (h.words m).count o := by
  refine (Finset.sum_subset hst fun m hm hs => ?_).symm
  exact List.count_eq_zero.2 (ho m hm hs)

/-- Where the search for the unreachable objects starts. -/
def searchStart (h : Heap δ) (zeroCount multiRef roots : List UInt64) : Frontier :=
  (Frontier.reachAll ⟨.ofList multiRef, zeroCount⟩ roots).reachAll (h.externallyOwned multiRef)

/-- The search starts with those multi-ref objects unreached that no root word names and that are
not held from outside. -/
lemma mem_unreached_searchStart {o : UInt64} :
    o ∈ (h.searchStart zeroCount multiRef roots).unreached ↔
      o ∈ multiRef ∧ o ∉ roots ∧ o ∉ h.externallyOwned multiRef := by
  rw [searchStart, Frontier.mem_unreached_reachAll, Frontier.mem_unreached_reachAll, and_assoc]
  simp [TreeSet.mem_ofList]

/-- What the search starts from: the zero-count objects and the multi-ref objects that are held or
named by a root word. -/
lemma mem_pending_searchStart {p : UInt64} :
    p ∈ (h.searchStart zeroCount multiRef roots).pending ↔
      p ∈ zeroCount ∨ p ∈ multiRef ∧ (p ∈ roots ∨ p ∈ h.externallyOwned multiRef) := by
  rw [searchStart, Frontier.mem_pending_reachAll, Frontier.mem_unreached_reachAll,
    Frontier.mem_pending_reachAll]
  simp only [TreeSet.mem_ofList, List.contains_iff_mem]
  tauto

lemma mem_unreachable {o : UInt64} :
    o ∈ h.unreachable zeroCount multiRef roots ↔
      o ∈ multiRef ∧ o ∈ Frontier.exhaust h.words (h.searchStart zeroCount multiRef roots) := by
  simp [unreachable, searchStart]

lemma nodup_unreachable (hnodup : multiRef.Nodup) :
    (h.unreachable zeroCount multiRef roots).Nodup :=
  hnodup.filter _

/-- A multi-ref object that is not unreachable was pending from the start or has been reached, so
its payload names no unreachable object. -/
private lemma not_mem_words_of_reached {o m : UInt64} (hm : m ∈ multiRef)
    (hr : m ∉ h.unreachable zeroCount multiRef roots)
    (ho : o ∈ h.unreachable zeroCount multiRef roots) : o ∉ h.words m := by
  rw [mem_unreachable] at hr ho
  intro hw
  by_cases hu : m ∈ (h.searchStart zeroCount multiRef roots).unreached
  · exact Frontier.not_mem_exhaust_of_reached hu (fun he => hr ⟨hm, he⟩) hw ho.2
  · refine Frontier.not_mem_exhaust_of_pending (mem_pending_searchStart.2 ?_) hw ho.2
    rw [mem_unreached_searchStart] at hu
    tauto

/-- What the search leaves over is held by nothing but its own payloads. -/
theorem selfOwned_unreachable (hnodup : multiRef.Nodup) :
    h.SelfOwned zeroCount multiRef roots (h.unreachable zeroCount multiRef roots).toFinset := by
  have hstart {o} (ho : o ∈ h.unreachable zeroCount multiRef roots) :=
    mem_unreached_searchStart.1 (Frontier.mem_unreached_of_mem_exhaust (mem_unreachable.1 ho).2)
  constructor
  case mem_multiRef =>
    intro o ho
    exact (hstart (List.mem_toFinset.1 ho)).1
  case not_mem_roots =>
    intro o ho
    exact (hstart (List.mem_toFinset.1 ho)).2.1
  case not_mem_zeroCount =>
    intro o ho z hz hw
    have ho' := (mem_unreachable.1 (List.mem_toFinset.1 ho)).2
    exact Frontier.not_mem_exhaust_of_pending (mem_pending_searchStart.2 (.inl hz)) hw ho'
  case not_mem_survivor =>
    intro o ho m hm hr
    rw [List.mem_toFinset] at ho hr
    exact not_mem_words_of_reached hm hr ho
  case refs_eq =>
    intro o ho
    rw [List.mem_toFinset] at ho
    obtain ⟨hm, -, howned⟩ := hstart ho
    have hrefs : (h.refs o).toNat = ∑ m ∈ multiRef.toFinset, (h.words m).count o := by
      rw [mem_externallyOwned hnodup] at howned
      tauto
    -- the count is over all multi-ref payloads; those outside the set name no object of it
    rw [hrefs]
    refine sum_count_eq_of_subset ?_ ?_
    · intro x hx
      exact List.mem_toFinset.2 (hstart (List.mem_toFinset.1 hx)).1
    · intro m hm hr
      rw [List.mem_toFinset] at hm hr
      exact not_mem_words_of_reached hm hr ho

/-- No payload that the search reads points into a set that owns itself. -/
lemma SelfOwned.isolates (hnodup : multiRef.Nodup) {X : Finset UInt64}
    (hX : h.SelfOwned zeroCount multiRef roots X) :
    Frontier.Isolates h.words (h.searchStart zeroCount multiRef roots) (· ∈ X) := by
  -- the words of the other payloads name no object of the set, so its counts are not from outside
  have howned {o} (ho : o ∈ X) : o ∉ h.externallyOwned multiRef := by
    rw [mem_externallyOwned hnodup]
    rintro ⟨-, hne⟩
    refine hne ((hX.refs_eq o ho).trans (sum_count_eq_of_subset ?_ ?_).symm)
    · intro x hx
      exact List.mem_toFinset.2 (hX.mem_multiRef x hx)
    · intro m hm hr
      exact hX.not_mem_survivor o ho m (List.mem_toFinset.1 hm) hr
  constructor
  case mem_unreached =>
    intro x hx
    exact mem_unreached_searchStart.2 ⟨hX.mem_multiRef x hx, hX.not_mem_roots x hx, howned hx⟩
  case of_pending =>
    intro p hp w hw hwX
    rcases mem_pending_searchStart.1 hp with hz | ⟨hm, hp⟩
    · exact hX.not_mem_zeroCount w hwX p hz hw
    · refine hX.not_mem_survivor w hwX p hm (fun hpX => ?_) hw
      rcases hp with hp | hp
      · exact hX.not_mem_roots p hpX hp
      · exact howned hpX hp
  case of_unreached =>
    intro p hu hpX w hw hwX
    exact hX.not_mem_survivor w hwX p (mem_unreached_searchStart.1 hu).1 hpX hw

/-- Every set that nothing else holds is left over by the search. With `selfOwned_unreachable` this
makes the unreachable objects the greatest such set. -/
theorem subset_unreachable (hnodup : multiRef.Nodup) {X : Finset UInt64}
    (hX : h.SelfOwned zeroCount multiRef roots X) :
    X ⊆ (h.unreachable zeroCount multiRef roots).toFinset := by
  intro o ho
  rw [List.mem_toFinset, mem_unreachable]
  exact ⟨hX.mem_multiRef o ho, Frontier.mem_exhaust_of_isolates (hX.isolates hnodup) ho⟩

/-- What owns itself depends only on the counts of multi-ref objects, on the words that are read and
on which addresses are given. It may be given fewer zero-count objects and fewer roots. -/
lemma SelfOwned.congr {h' : Heap δ} {zeroCount' multiRef' roots' : List UInt64}
    {X : Finset UInt64} (hX : h.SelfOwned zeroCount multiRef roots X)
    (hm : ∀ a, a ∈ multiRef' ↔ a ∈ multiRef) (hrefs : ∀ a ∈ multiRef, h'.refs a = h.refs a)
    (hwords : ∀ a, a ∈ zeroCount' ∨ a ∈ multiRef → h'.words a = h.words a)
    (hz : ∀ a ∈ zeroCount', a ∈ zeroCount) (hr : ∀ a ∈ multiRef, a ∈ roots' → a ∈ roots) :
    h'.SelfOwned zeroCount' multiRef' roots' X where
  mem_multiRef o ho := (hm o).2 (hX.mem_multiRef o ho)
  not_mem_roots o ho ho' := hX.not_mem_roots o ho (hr o (hX.mem_multiRef o ho) ho')
  not_mem_zeroCount o ho z hz' := by
    rw [hwords z (.inl hz')]
    exact hX.not_mem_zeroCount o ho z (hz z hz')
  not_mem_survivor o ho m hm' hmX := by
    rw [hwords m (.inr ((hm m).1 hm'))]
    exact hX.not_mem_survivor o ho m ((hm m).1 hm') hmX
  refs_eq o ho := by
    rw [hrefs o (hX.mem_multiRef o ho), hX.refs_eq o ho]
    exact Finset.sum_congr rfl fun x hx => by rw [hwords x (.inr (hX.mem_multiRef x hx))]

/-- What is unreachable depends only on counts, words and which addresses are given. -/
lemma toFinset_unreachable_congr {h' : Heap δ} {zeroCount' multiRef' roots' : List UInt64}
    (hnodup : multiRef.Nodup) (hnodup' : multiRef'.Nodup)
    (hm : ∀ a, a ∈ multiRef' ↔ a ∈ multiRef) (hrefs : ∀ a ∈ multiRef, h'.refs a = h.refs a)
    (hwords : ∀ a, a ∈ zeroCount ∨ a ∈ multiRef → h'.words a = h.words a)
    (hz : ∀ a, a ∈ zeroCount' ↔ a ∈ zeroCount)
    (hr : ∀ a ∈ multiRef, a ∈ roots' ↔ a ∈ roots) :
    (h'.unreachable zeroCount' multiRef' roots').toFinset =
      (h.unreachable zeroCount multiRef roots).toFinset := by
  apply Finset.Subset.antisymm
  · apply subset_unreachable hnodup
    refine (selfOwned_unreachable hnodup').congr (fun a => (hm a).symm) ?_ ?_ (fun a => (hz a).2)
      fun a ha => (hr a ((hm a).1 ha)).2
    · exact fun a ha => (hrefs a ((hm a).1 ha)).symm
    · exact fun a ha => (hwords a (ha.imp_right (hm a).1)).symm
  · apply subset_unreachable hnodup'
    refine (selfOwned_unreachable hnodup).congr hm hrefs ?_ (fun a => (hz a).1)
      fun a ha => (hr a ha).1
    exact fun a ha => hwords a (ha.imp_left (hz a).1)

end Heap

end HybridGC
