import HybridGC.Roots.Bag
import Mathlib.Data.List.Perm.Basic
import Mathlib.Data.Multiset.AddSub

/-!
# Shared root bags as multisets

Handles made from one another are of one family, which is known by its first handle. A family holds
the words that were added through any of its handles and not removed or cleared since, each as often
as it is there. A scan through a handle visits what its family holds, in some order, and calls
through the handles of another family change nothing about it.
-/

namespace HybridGC

/-! ### One bag -/

namespace RootBag

variable {b b' : RootBag} {w : UInt64}

/-- The words of a bag, whatever their order. -/
def toMultiset (b : RootBag) : Multiset UInt64 :=
  ↑b.words

@[simp] lemma mem_toMultiset : w ∈ b.toMultiset ↔ w ∈ b.words :=
  Multiset.mem_coe

@[simp] lemma toMultiset_add (b : RootBag) (w : UInt64) :
    (b.add w).toMultiset = w ::ₘ b.toMultiset := by
  rw [toMultiset, toMultiset, words_add, Multiset.cons_coe, Multiset.coe_eq_coe]
  exact List.perm_append_singleton w b.words

lemma size_eq_card (b : RootBag) : b.size = b.toMultiset.card := rfl

lemma isEmpty_eq (b : RootBag) : b.isEmpty = decide (b.toMultiset = 0) := by
  rw [Bool.eq_iff_iff, decide_eq_true_eq, toMultiset, Multiset.coe_eq_zero, isEmpty,
    List.isEmpty_iff]

lemma remove?_eq_none_iff : b.remove? w = none ↔ w ∉ b.toMultiset := by
  rw [remove?, Option.map_eq_none_iff, List.idxOf?_eq_none_iff, mem_toMultiset]

/-- Moving the last element to some place leaves the list without the element that was there. -/
lemma perm_dropLast_set {α : Type} {l : List α} {i : Nat} (hi : i < l.length) (x : α) :
    ((l.set i (l.getLastD x)).dropLast).Perm (l.eraseIdx i) := by
  have hne : l ≠ [] := List.ne_nil_of_length_pos (Nat.zero_lt_of_lt hi)
  rw [List.getLastD_eq_getLast?, List.getLast?_eq_some_getLast hne, Option.getD_some]
  have hset : l.set i (l.getLast hne) ≠ [] := by simpa using hne
  -- the last element is the last one afterwards too, also where it has been moved to its own place
  have hlast : (l.set i (l.getLast hne)).getLast hset = l.getLast hne := by
    rw [List.getLast_eq_getElem, List.getElem_set]
    split
    · rfl
    · simp [List.getLast_eq_getElem]
  have hsplit := List.dropLast_append_getLast hset
  rw [hlast] at hsplit
  have hperm := List.set_perm_cons_eraseIdx hi (l.getLast hne)
  rw [← hsplit] at hperm
  exact ((List.perm_append_singleton _ _).symm.trans hperm).cons_inv

/-- Removing takes one occurrence of the word away and no other word. -/
lemma toMultiset_of_remove? (h : b.remove? w = some b') :
    w ∈ b.toMultiset ∧ b'.toMultiset = b.toMultiset.erase w := by
  rw [remove?, Option.map_eq_some_iff] at h
  obtain ⟨i, hi, rfl⟩ := h
  obtain ⟨hlt, hw, -⟩ := List.idxOf?_eq_some_iff.1 hi
  have hwords : b.toMultiset = w ::ₘ ↑(b.words.eraseIdx i) := by
    rw [toMultiset, Multiset.cons_coe, Multiset.coe_eq_coe, ← hw]
    exact (List.getElem_cons_eraseIdx_perm hlt).symm
  refine ⟨hwords ▸ Multiset.mem_cons_self w _, ?_⟩
  rw [hwords, Multiset.erase_cons_head, toMultiset, Multiset.coe_eq_coe]
  exact perm_dropLast_set hlt w

end RootBag

namespace RootBags

variable {s : RootBags} {calls : List Call} {call : Call} {h h' f f' i : Nat} {b : RootBag}
variable {w : UInt64}

private lemma getElem?_concat {α : Type} (l : List α) (x : α) (n : Nat) :
    (l ++ [x])[n]? = if n = l.length then some x else l[n]? := by
  rcases lt_trichotomy n l.length with hlt | rfl | hgt
  · rw [List.getElem?_append_left hlt, if_neg hlt.ne]
  · simp
  · rw [if_neg hgt.ne', List.getElem?_eq_none_iff.2 hgt.le, List.getElem?_eq_none_iff]
    simpa using Nat.succ_le_of_lt hgt

private lemma getElem?_of_isPrefix {α : Type} {l l' : List α} {n : Nat} {x : α} (h : l <+: l')
    (hx : l[n]? = some x) : l'[n]? = some x := by
  obtain ⟨hlt, rfl⟩ := List.getElem?_eq_some_iff.1 hx
  exact List.prefix_iff_getElem?.1 h n hlt

/-! ### Families -/

/-- The handle a call goes through, if it goes through one. -/
def Call.handle? : Call → Option Nat
  | .add h _ | .remove h _ | .clear h | .size h | .scan h | .share h => some h
  | .create => none

/-- What a call makes of the words that are held. -/
def Call.apply (m : Multiset UInt64) : Call → Multiset UInt64
  | .add _ w => w ::ₘ m
  | .remove _ w => m.erase w
  | .clear _ => 0
  | .size _ | .scan _ | .share _ | .create => m

/-- The first handle of the family of each handle, after some calls, the latest first. A handle that
is made to share a bag joins a family, and one with a bag of its own founds one. -/
def founders : List Call → List Nat
  | [] => [0]
  | .share h :: calls => founders calls ++ (founders calls)[h]?.toList
  | .create :: calls => founders calls ++ [(founders calls).length]
  | _ :: calls => founders calls

/-- The family whose handle a call goes through, after some calls. -/
def family? (calls : List Call) (call : Call) : Option Nat :=
  call.handle?.bind fun h => (founders calls)[h]?

/-- What a family holds after some calls, the latest first: the words that were added through its
handles and not removed or cleared since. -/
def held (f : Nat) : List Call → Multiset UInt64
  | [] => 0
  | call :: calls =>
    if family? calls call = some f then call.apply (held f calls) else held f calls

/-- What some calls have made of the first bag, the latest first. -/
def made : List Call → RootBags
  | [] => {}
  | call :: calls => ((made calls).perform call).2

/-- A call founds no family in the place of another: the handles that are there stay in theirs. -/
lemma founders_isPrefix (call : Call) (calls : List Call) :
    founders calls <+: founders (call :: calls) := by
  cases call with
  | share h => exact List.prefix_append _ _
  | create => exact List.prefix_append _ _
  | add | remove | clear | size | scan => exact List.prefix_rfl

/-- A handle keeps its family. -/
lemma getElem?_founders (call : Call) (hf : (founders calls)[h]? = some f) :
    (founders (call :: calls))[h]? = some f :=
  getElem?_of_isPrefix (founders_isPrefix call calls) hf

/-- A family is as old as its first handle. -/
lemma founder_lt (hf : f ∈ founders calls) : f < (founders calls).length := by
  induction calls with
  | nil => simpa [founders] using hf
  | cons call calls ih =>
    have hle := (founders_isPrefix call calls).length_le
    by_cases hold : f ∈ founders calls
    · exact (ih hold).trans_le hle
    · cases call with
      | share h =>
        simp only [founders, List.mem_append, hold, false_or, Option.mem_toList] at hf
        exact absurd (List.mem_of_getElem? hf) hold
      | create =>
        simp only [founders, List.mem_append, hold, false_or, List.mem_singleton] at hf
        simp [founders, hf]
      | add | remove | clear | size | scan => exact absurd hf hold

/-- A family that has not been founded holds nothing. -/
lemma held_eq_zero (hf : f ∉ founders calls) : held f calls = 0 := by
  induction calls with
  | nil => rfl
  | cons call calls ih =>
    have hnot : f ∉ founders calls := fun hmem => hf ((founders_isPrefix call calls).subset hmem)
    have hother : family? calls call ≠ some f := by
      intro heq
      obtain ⟨h, -, hh⟩ := Option.bind_eq_some_iff.1 heq
      exact hnot (List.mem_of_getElem? hh)
    rw [held, if_neg hother, ih hnot]

/-- A call that makes nothing of what its family holds changes what no family holds. -/
lemma held_cons_eq
    (happly : ∀ f, family? calls call = some f → call.apply (held f calls) = held f calls)
    (f : Nat) : held f (call :: calls) = held f calls := by
  rw [held]
  split
  · exact happly f ‹_›
  · rfl

/-! ### The bag behind a handle -/

lemma bag?_eq_some_iff :
    s.bag? h = some b ↔ ∃ i : Nat, s.handles[h]? = some i ∧ s.bags[i]? = some b :=
  Option.bind_eq_some_iff

/-- Handles and bags that come later do not change what a handle names. -/
lemma bag?_of_isPrefix {s' : RootBags} (hhandles : s.handles <+: s'.handles)
    (hbags : s.bags <+: s'.bags) (hb : s.bag? h = some b) : s'.bag? h = some b := by
  obtain ⟨i, hi, hb⟩ := bag?_eq_some_iff.1 hb
  exact bag?_eq_some_iff.2
    ⟨i, getElem?_of_isPrefix hhandles hi, getElem?_of_isPrefix hbags hb⟩

/-- Every handle that names the same bag sees the new one. -/
lemma bag?_setBag_of_eq {b₀ : RootBag} (hb : s.bag? h = some b₀) (b : RootBag)
    (heq : s.handles[h']? = s.handles[h]?) : (s.setBag h b).bag? h' = some b := by
  obtain ⟨i, hi, hb⟩ := bag?_eq_some_iff.1 hb
  obtain ⟨hlt, -⟩ := List.getElem?_eq_some_iff.1 hb
  simp [setBag, bag?, hi, heq, hlt]

/-- Handles that name another bag do not see the new one. -/
lemma bag?_setBag_of_ne (b : RootBag) (hne : s.handles[h']? ≠ s.handles[h]?) :
    (s.setBag h b).bag? h' = s.bag? h' := by
  cases hi : s.handles[h]? with
  | none => simp [setBag, hi]
  | some i =>
    cases hj : s.handles[h']? with
    | none => simp [setBag, bag?, hi, hj]
    | some j =>
      have hij : i ≠ j := by
        rintro rfl
        exact hne (hj.trans hi.symm)
      simp [setBag, bag?, hi, hj, hij]

lemma handles_setBag (s : RootBags) (h : Nat) (b : RootBag) :
    (s.setBag h b).handles = s.handles := by
  rw [setBag]
  split <;> rfl

/-! ### The bags hold what the families hold -/

/-- Handles of one family name the same bag and no others do, and it holds what the family holds. -/
structure Represents (s : RootBags) (calls : List Call) : Prop where
  length_eq : s.handles.length = (founders calls).length
  shares_iff : ∀ h h' : Nat, s.handles[h]? = s.handles[h']? ↔
    (founders calls)[h]? = (founders calls)[h']?
  bag?_eq : ∀ h f, (founders calls)[h]? = some f →
    ∃ b, s.bag? h = some b ∧ b.toMultiset = held f calls

namespace Represents

lemma handles_eq_none (hs : s.Represents calls) (hf : (founders calls)[h]? = none) :
    s.handles[h]? = none := by
  rw [List.getElem?_eq_none_iff] at hf ⊢
  rwa [hs.length_eq]

/-- A call through a handle that has not been made is refused, whichever call it is. -/
lemma perform_of_none (hs : s.Represents calls) (hh : call.handle? = some h)
    (hf : (founders calls)[h]? = none) : s.perform call = (.refused, s) := by
  have hhandle := hs.handles_eq_none hf
  have hbag : s.bag? h = none := by simp [bag?, hhandle]
  cases call <;> cases hh <;> simp [RootBags.perform, hbag, hhandle, RootBags.setBag]

/-- A call that makes nothing of what is held and no handle can leave the bags as they are. -/
lemma keep (hs : s.Represents calls) (hfounders : founders (call :: calls) = founders calls)
    (happly : ∀ f, family? calls call = some f → call.apply (held f calls) = held f calls) :
    s.Represents (call :: calls) where
  length_eq := hfounders ▸ hs.length_eq
  shares_iff := hfounders ▸ hs.shares_iff
  bag?_eq h f hf := by
    rw [hfounders] at hf
    rw [held_cons_eq happly]
    exact hs.bag?_eq h f hf

/-- A call that is refused changes nothing of what is held either. -/
lemma keep_of_none (hs : s.Represents calls) (hh : call.handle? = some h)
    (hf : (founders calls)[h]? = none) : (s.perform call).2.Represents (call :: calls) := by
  rw [hs.perform_of_none hh hf]
  refine hs.keep ?_ fun f hfamily => ?_
  · cases call <;> cases hh <;> simp [founders, hf]
  · rw [family?, hh, Option.bind_some, hf] at hfamily
    cases hfamily

/-- A call that changes what its family holds changes the bag behind the handles of the family. -/
lemma setBag (hs : s.Represents calls) (hf : (founders calls)[h]? = some f)
    (hfamily : family? calls call = some f)
    (hfounders : founders (call :: calls) = founders calls)
    (hb : b.toMultiset = call.apply (held f calls)) :
    (s.setBag h b).Represents (call :: calls) where
  length_eq := by rw [handles_setBag, hfounders, hs.length_eq]
  shares_iff := by
    rw [handles_setBag, hfounders]
    exact hs.shares_iff
  bag?_eq h' f' hf' := by
    rw [hfounders] at hf'
    obtain ⟨b₀, hb₀, -⟩ := hs.bag?_eq h f hf
    have hsame : s.handles[h']? = s.handles[h]? ↔ f = f' := by
      rw [hs.shares_iff, hf, hf', Option.some.injEq, eq_comm]
    simp only [held, hfamily, Option.some.injEq]
    split
    case isTrue heq => exact ⟨b, bag?_setBag_of_eq hb₀ b (hsame.2 heq), heq ▸ hb⟩
    case isFalse hne =>
      rw [bag?_setBag_of_ne b fun heq => hne (hsame.1 heq)]
      exact hs.bag?_eq h' f' hf'

/-- A call that makes a handle leaves those there are as they were. -/
lemma extend {bags : List RootBag} (hs : s.Represents calls)
    (hfounders : founders (call :: calls) = founders calls ++ [f])
    (happly : ∀ f, family? calls call = some f → call.apply (held f calls) = held f calls)
    (hshares : ∀ h : Nat, s.handles[h]? = some i ↔ (founders calls)[h]? = some f)
    (hbags : s.bags <+: bags)
    (hb : bags[i]? = some b) (hheld : b.toMultiset = held f calls) :
    (⟨bags, s.handles ++ [i]⟩ : RootBags).Represents (call :: calls) := by
  have hlen := hs.length_eq
  constructor
  case length_eq => simp [hfounders, hlen]
  case shares_iff =>
    intro h h'
    -- the new handle is the last one, and it is in the family whose bag it names
    have hnew (h : Nat) : some i = s.handles[h]? ↔ some f = (founders calls)[h]? := by
      rw [eq_comm, hshares, eq_comm]
    simp only [hfounders, getElem?_concat, hlen]
    split_ifs
    · simp
    · exact hnew h'
    · exact hshares h
    · exact hs.shares_iff h h'
  case bag?_eq =>
    intro h f' hf'
    rw [hfounders, getElem?_concat, ← hlen] at hf'
    rw [held_cons_eq happly]
    split_ifs at hf' with hh
    · cases hf'
      exact ⟨b, by simp [bag?, hh, hb], hheld⟩
    · obtain ⟨b', hb', hheld'⟩ := hs.bag?_eq h f' hf'
      exact ⟨b', bag?_of_isPrefix (List.prefix_append _ _) hbags hb', hheld'⟩

/-- What one call leaves is what its history says. -/
lemma perform (hs : s.Represents calls) (call : Call) :
    (s.perform call).2.Represents (call :: calls) := by
  -- each call is one of four kinds: it goes through a handle that has not been made, it changes a
  -- bag, it changes nothing, or it makes a handle
  cases call with
  | add h w =>
    cases hf : (founders calls)[h]? with
    | none => exact hs.keep_of_none rfl hf
    | some f =>
      obtain ⟨b, hb, hm⟩ := hs.bag?_eq h f hf
      simp only [RootBags.perform, hb]
      exact hs.setBag hf hf rfl (by rw [RootBag.toMultiset_add, hm, Call.apply])
  | remove h w =>
    cases hf : (founders calls)[h]? with
    | none => exact hs.keep_of_none rfl hf
    | some f =>
      obtain ⟨b, hb, hm⟩ := hs.bag?_eq h f hf
      simp only [RootBags.perform, hb]
      cases hremove : b.remove? w with
      | none =>
        rw [RootBag.remove?_eq_none_iff, hm] at hremove
        refine hs.keep rfl fun f' hf' => ?_
        obtain rfl : f = f' := Option.some.inj (hf.symm.trans hf')
        exact Multiset.erase_of_notMem hremove
      | some b' =>
        obtain ⟨-, hm'⟩ := RootBag.toMultiset_of_remove? hremove
        exact hs.setBag hf hf rfl (by rw [hm', hm, Call.apply])
  | clear h =>
    cases hf : (founders calls)[h]? with
    | none => exact hs.keep_of_none rfl hf
    | some f => exact hs.setBag hf hf rfl rfl
  | size h =>
    simp only [RootBags.perform]
    split <;> exact hs.keep rfl fun _ _ => rfl
  | scan h =>
    simp only [RootBags.perform]
    split <;> exact hs.keep rfl fun _ _ => rfl
  | share h =>
    cases hf : (founders calls)[h]? with
    | none => exact hs.keep_of_none rfl hf
    | some f =>
      obtain ⟨b, hb, hm⟩ := hs.bag?_eq h f hf
      obtain ⟨i, hi, hb⟩ := bag?_eq_some_iff.1 hb
      simp only [RootBags.perform, hi]
      refine hs.extend (by simp [founders, hf]) (fun _ _ => rfl) (fun h' => ?_)
        List.prefix_rfl hb hm
      rw [← hi, ← hf, hs.shares_iff]
  | create =>
    have hnone : held (founders calls).length calls = 0 :=
      held_eq_zero fun hmem => (founder_lt hmem).false
    refine hs.extend rfl (fun _ _ => rfl) (fun h => ?_) (List.prefix_append _ _)
      List.getElem?_concat_length hnone.symm
    -- neither the bag nor the family was there
    constructor
    · intro hh
      cases hf : (founders calls)[h]? with
      | none => simp [hs.handles_eq_none hf] at hh
      | some f =>
        obtain ⟨b, hb, -⟩ := hs.bag?_eq h f hf
        simp [bag?, hh] at hb
    · exact fun hf => absurd (founder_lt (List.mem_of_getElem? hf)) (lt_irrefl _)

/-- A call through a handle of another family leaves the bag as it is. -/
lemma bag?_perform_of_other (hs : s.Represents calls) (hf : (founders calls)[h]? = some f)
    (hother : family? calls call ≠ some f) : (s.perform call).2.bag? h = s.bag? h := by
  obtain ⟨b, hb, -⟩ := hs.bag?_eq h f hf
  -- the one bag that a call changes is behind its own handle, which is of another family
  have hset {h' : Nat} (hh : call.handle? = some h') (b' : RootBag) :
      (s.setBag h' b').bag? h = s.bag? h := by
    refine bag?_setBag_of_ne b' fun heq => hother ?_
    rw [hs.shares_iff, hf] at heq
    rw [family?, hh, Option.bind_some, heq]
  cases call with
  | add h' w =>
    simp only [RootBags.perform]
    split
    · rfl
    · exact hset rfl _
  | remove h' w =>
    simp only [RootBags.perform]
    split
    · rfl
    · split
      · rfl
      · exact hset rfl _
  | clear h' => exact hset rfl {}
  | size h' =>
    simp only [RootBags.perform]
    split <;> rfl
  | scan h' =>
    simp only [RootBags.perform]
    split <;> rfl
  | share h' =>
    simp only [RootBags.perform]
    split
    · rfl
    · rw [hb]
      exact bag?_of_isPrefix (List.prefix_append _ _) List.prefix_rfl hb
  | create =>
    rw [hb]
    exact bag?_of_isPrefix (List.prefix_append _ _) (List.prefix_append _ _) hb

end Represents

/-- The run: whatever has been called, the bags hold what the families hold. -/
lemma represents_made (calls : List Call) : (made calls).Represents calls := by
  induction calls with
  | nil =>
    refine ⟨rfl, fun _ _ => Iff.rfl, fun h f hf => ?_⟩
    cases h with
    | zero => exact ⟨{}, rfl, rfl⟩
    | succ h => simp [founders] at hf
  | cons call calls ih => exact ih.perform call

/-! ### What the calls answer -/

/-- Through a handle some words are held: a scan visits them in some order, they are counted and
found, and reading changes nothing. -/
structure Serves (s : RootBags) (h : Nat) (m : Multiset UInt64) : Prop where
  scan : ∃ ws : List UInt64, s.perform (.scan h) = (.words ws, s) ∧ (ws : Multiset UInt64) = m
  size : s.perform (.size h) = (.size m.card (decide (m = 0)), s)
  add : ∀ w, (s.perform (.add h w)).1 = .count (m.card + 1)
  remove : ∀ w, (s.perform (.remove h w)).1 = .flag (decide (w ∈ m))
  clear : (s.perform (.clear h)).1 = .nothing

/-- A handle serves the words of the bag that it names. -/
lemma serves_of_bag? (hb : s.bag? h = some b) : s.Serves h b.toMultiset where
  scan := ⟨b.words, by simp [perform, hb], rfl⟩
  size := by simp [perform, hb, RootBag.size_eq_card, RootBag.isEmpty_eq]
  add w := by simp [perform, hb, RootBag.size_eq_card]
  remove w := by
    simp only [perform, hb]
    cases hremove : b.remove? w with
    | none => simp [RootBag.remove?_eq_none_iff.1 hremove]
    | some b' => simp [(RootBag.toMultiset_of_remove? hremove).1]
  clear := by simp [perform, hb]

lemma serves_made (hf : (founders calls)[h]? = some f) :
    (made calls).Serves h (held f calls) := by
  obtain ⟨b, hb, hm⟩ := (represents_made calls).bag?_eq h f hf
  exact hm ▸ serves_of_bag? hb

lemma perform_scan_congr {s' : RootBags} (heq : s'.bag? h = s.bag? h) :
    (s'.perform (.scan h)).1 = (s.perform (.scan h)).1 := by
  simp only [perform, heq]
  split <;> rfl

/-- Whatever has been called, each handle serves the words that were added through the handles of
its family and not removed or cleared since. A call through a handle of the family makes of them
what it does to a multiset, seen through all the handles of the family, and one through a handle of
another family leaves even their order as it is. Calls that make handles number them, and without a
handle nothing is done. -/
theorem bags_are_multisets (calls : List Call) :
    (∀ (h f : Nat), (founders calls)[h]? = some f → (made calls).Serves h (held f calls)) ∧
    (∀ call (h f : Nat), (founders calls)[h]? = some f → family? calls call = some f →
      (made (call :: calls)).Serves h (call.apply (held f calls))) ∧
    (∀ call (h f : Nat), (founders calls)[h]? = some f → family? calls call ≠ some f →
      ((made (call :: calls)).perform (.scan h)).1 = ((made calls).perform (.scan h)).1) ∧
    (∀ call (h : Nat), call.handle? = some h → (founders calls)[h]? = none →
      (made calls).perform call = (.refused, made calls)) ∧
    (∀ (h f : Nat), (founders calls)[h]? = some f →
      ((made calls).perform (.share h)).1 = .handle (founders calls).length) ∧
    ((made calls).perform .create).1 = .handle (founders calls).length := by
  have hs := represents_made calls
  refine ⟨fun h f hf => serves_made hf, fun call h f hf hfamily => ?_,
    fun call h f hf hother => perform_scan_congr (hs.bag?_perform_of_other hf hother),
    fun call h hh hf => hs.perform_of_none hh hf, fun h f hf => ?_, ?_⟩
  · have hserves := serves_made (getElem?_founders call hf)
    rwa [held, if_pos hfamily] at hserves
  · obtain ⟨b, hb, -⟩ := hs.bag?_eq h f hf
    obtain ⟨i, hi, -⟩ := bag?_eq_some_iff.1 hb
    simp [perform, hi, hs.length_eq]
  · simp [perform, hs.length_eq]

/-- Two handles share a bag and a third has its own. The word that is removed is in it twice. -/
def interleaved : List Call :=
  [.remove 1 5, .add 0 7, .add 2 5, .create, .add 1 5, .add 1 3, .share 0, .add 0 5]

/-- The word that is removed through one handle is left once, and a scan through the other handle of
its family sees that; a third handle sees nothing of it. -/
theorem bags_are_multisets_interleaved :
    (founders interleaved)[0]? = some 0 ∧ held 0 interleaved = {3, 5, 7} ∧
      (made interleaved).Serves 0 {3, 5, 7} ∧
      (founders interleaved)[2]? = some 2 ∧ family? interleaved (.remove 0 5) = some 0 ∧
      (made (.remove 0 5 :: interleaved)).Serves 1 {3, 7} ∧
      ((made (.remove 0 5 :: interleaved)).perform (.scan 2)).1 = .words [5] := by
  obtain ⟨hserves, hcall, hother, -⟩ := bags_are_multisets interleaved
  have hheld : held 0 interleaved = {3, 5, 7} := by decide
  have hafter : Call.apply {3, 5, 7} (.remove 0 5) = {3, 7} := by decide
  have h₀ := hserves 0 0 (by decide)
  have h₁ := hcall (.remove 0 5) 1 0 (by decide) (by decide)
  rw [hheld] at h₀ h₁
  rw [hafter] at h₁
  refine ⟨by decide, hheld, h₀, by decide, by decide, h₁, ?_⟩
  rw [hother (.remove 0 5) 2 2 (by decide) (by decide)]
  rfl

end RootBags

end HybridGC
