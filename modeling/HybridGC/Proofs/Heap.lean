import HybridGC.Heap.Basic
import Mathlib.Tactic.Lemma
import Mathlib.Tactic.SplitIfs
import Std.Data.TreeMap.Lemmas

/-!
# What changes to a heap leave alone

Each operation on a heap is described by what it does to the header, the words and the liveness of
every block. A sound allocator hands out a block that is not in use, and changes no other.
-/

namespace HybridGC

/-! ### Aligned words -/

namespace Payload

variable {p : Payload} {i n : Nat} {w : UInt64}

lemma words_eq_take (p : Payload) (n : Nat) : p.words n = p.cells.toList.take n := by
  simp [words, List.extract_eq_take_drop]

/-- A load at a word boundary reads the word that lies there whole, and not parts of two. -/
lemma load?_aligned (hi : i < (p.words n).length) : p.load? (8 * i) = (p.words n)[i]? := by
  rw [words_eq_take, List.length_take] at hi
  rw [words_eq_take, List.getElem?_take_of_lt (by omega)]
  simp [load?]

/-- A store at a word boundary replaces one word, in every longer or shorter view of the payload. -/
lemma store?_aligned (hi : i < (p.words n).length) (w : UInt64) :
    ∃ q, p.store? (8 * i) w = some q ∧ ∀ m, q.words m = (p.words m).set i w := by
  rw [words_eq_take, List.length_take, Array.length_toList] at hi
  have hsize : i < p.cells.size := by omega
  refine ⟨⟨p.cells.setIfInBounds i w⟩, by simp [store?, hsize], fun m => ?_⟩
  rw [words_eq_take, words_eq_take, Array.toList_setIfInBounds, List.take_set]

/-- The words of a fresh payload are null. -/
lemma words_zeroed (size : Nat) :
    (zeroed size).words (size / 8) = List.replicate (size / 8) 0 := by
  have hle : size / 8 ≤ roundUp size 16 / 8 := Nat.div_le_div_right (le_roundUp size (by decide))
  simp [words, zeroed, hle]

end Payload

namespace Heap

variable {δ : Type} {h h' : Heap δ} {a b n : UInt64}

/-- A block that has been given out and not been freed. -/
def Live (h : Heap δ) (a : UInt64) : Prop :=
  ∃ b, h.block? a = some b ∧ b.freed = false

/-! ### Reading a block -/

lemma refs_eq (h : Heap δ) (a : UInt64) :
    h.refs a = ((h.block? a).map (·.header.refs)).getD 0 := by
  simp [refs, header?, Function.comp_def]

lemma state?_eq (h : Heap δ) (a : UInt64) :
    h.state? a = (h.block? a).map (·.header.state) := by
  simp [state?, header?, Function.comp_def]

lemma destructor?_eq (h : Heap δ) (a : UInt64) :
    h.destructor? a = ((h.block? a).map (·.header.destructor)).join := by
  cases hb : h.block? a <;> simp [destructor?, header?, hb]

lemma words_eq (h : Heap δ) (a : UInt64) :
    h.words a = ((h.block? a).map fun x => x.payload.words (x.header.size / 8)).getD [] := by
  cases hb : h.block? a <;> simp [words, hb]

lemma live_iff (h : Heap δ) (a : UInt64) :
    h.Live a ↔ (h.block? a).map (·.freed) = some false := by
  simp [Live]

/-! ### Changing one block -/

/-- A change to one block is seen at its address only. An address without a block gets none. -/
lemma block?_modifyBlock (h : Heap δ) (a b : UInt64) (f : Block δ → Block δ) :
    (h.modifyBlock a f).block? b = if b = a then (h.block? b).map f else h.block? b := by
  simp only [block?, modifyBlock, Std.TreeMap.getElem?_modify, Std.LawfulEqCmp.compare_eq_iff_eq]
  by_cases hab : b = a
  · simp [hab]
  · simp [hab, Ne.symm hab]

/-- What a change to one block keeps of this block, it keeps of all. -/
lemma map_block?_modifyBlock {α : Type} (h : Heap δ) (a b : UInt64) {f : Block δ → Block δ}
    {g : Block δ → α} (hg : ∀ x, g (f x) = g x) :
    ((h.modifyBlock a f).block? b).map g = (h.block? b).map g := by
  rw [block?_modifyBlock]
  split
  · rw [Option.map_map]
    exact congrArg (Option.map · _) (funext hg)
  · rfl

/-! ### States -/

@[simp] lemma refs_setState (h : Heap δ) (a b : UInt64) (s : Partition) :
    (h.setState a s).refs b = h.refs b := by
  rw [refs_eq, setState, modifyHeader, map_block?_modifyBlock, ← refs_eq]
  exact fun _ => rfl

/-- A label is set where there is a header; the other headers keep theirs. -/
lemma state?_setState (h : Heap δ) (a b : UInt64) (s : Partition) :
    (h.setState a s).state? b = if b = a then (h.state? b).map fun _ => s else h.state? b := by
  rw [state?_eq, state?_eq, setState, modifyHeader, block?_modifyBlock]
  split <;> simp [Function.comp_def]

@[simp] lemma destructor?_setState (h : Heap δ) (a b : UInt64) (s : Partition) :
    (h.setState a s).destructor? b = h.destructor? b := by
  rw [destructor?_eq, setState, modifyHeader, map_block?_modifyBlock, ← destructor?_eq]
  exact fun _ => rfl

@[simp] lemma words_setState (h : Heap δ) (a b : UInt64) (s : Partition) :
    (h.setState a s).words b = h.words b := by
  rw [words_eq, setState, modifyHeader, map_block?_modifyBlock, ← words_eq]
  exact fun _ => rfl

@[simp] lemma live_setState (h : Heap δ) (a b : UInt64) (s : Partition) :
    (h.setState a s).Live b ↔ h.Live b := by
  rw [live_iff, setState, modifyHeader, map_block?_modifyBlock, ← live_iff]
  exact fun _ => rfl

@[simp] lemma cursor_setState (h : Heap δ) (a : UInt64) (s : Partition) :
    (h.setState a s).cursor = h.cursor := rfl

/-! ### Counts -/

lemma refs_setRefs (ha : h.Live a) (b n : UInt64) :
    (h.setRefs a n).refs b = if b = a then n else h.refs b := by
  obtain ⟨x, hx, -⟩ := ha
  rw [refs_eq, refs_eq, setRefs, modifyHeader, block?_modifyBlock]
  by_cases hb : b = a
  · simp [hb, hx]
  · simp [hb]

@[simp] lemma state?_setRefs (h : Heap δ) (a b n : UInt64) :
    (h.setRefs a n).state? b = h.state? b := by
  rw [state?_eq, setRefs, modifyHeader, map_block?_modifyBlock, ← state?_eq]
  exact fun _ => rfl

@[simp] lemma destructor?_setRefs (h : Heap δ) (a b n : UInt64) :
    (h.setRefs a n).destructor? b = h.destructor? b := by
  rw [destructor?_eq, setRefs, modifyHeader, map_block?_modifyBlock, ← destructor?_eq]
  exact fun _ => rfl

@[simp] lemma words_setRefs (h : Heap δ) (a b n : UInt64) :
    (h.setRefs a n).words b = h.words b := by
  rw [words_eq, setRefs, modifyHeader, map_block?_modifyBlock, ← words_eq]
  exact fun _ => rfl

@[simp] lemma live_setRefs (h : Heap δ) (a b n : UInt64) :
    (h.setRefs a n).Live b ↔ h.Live b := by
  rw [live_iff, setRefs, modifyHeader, map_block?_modifyBlock, ← live_iff]
  exact fun _ => rfl

@[simp] lemma cursor_setRefs (h : Heap δ) (a n : UInt64) : (h.setRefs a n).cursor = h.cursor := rfl

/-! ### Freeing -/

@[simp] lemma refs_free (h : Heap δ) (a b : UInt64) : (h.free a).refs b = h.refs b := by
  rw [refs_eq, free, map_block?_modifyBlock, ← refs_eq]
  exact fun _ => rfl

@[simp] lemma state?_free (h : Heap δ) (a b : UInt64) : (h.free a).state? b = h.state? b := by
  rw [state?_eq, free, map_block?_modifyBlock, ← state?_eq]
  exact fun _ => rfl

@[simp] lemma destructor?_free (h : Heap δ) (a b : UInt64) :
    (h.free a).destructor? b = h.destructor? b := by
  rw [destructor?_eq, free, map_block?_modifyBlock, ← destructor?_eq]
  exact fun _ => rfl

@[simp] lemma words_free (h : Heap δ) (a b : UInt64) : (h.free a).words b = h.words b := by
  rw [words_eq, free, map_block?_modifyBlock, ← words_eq]
  exact fun _ => rfl

/-- Freeing ends the life of one block. All other facts about it can still be read, as the lemmas
above say. -/
@[simp] lemma live_free (h : Heap δ) (a b : UInt64) :
    (h.free a).Live b ↔ b ≠ a ∧ h.Live b := by
  simp only [Live, free, block?_modifyBlock]
  by_cases hb : b = a <;> cases h.block? b <;> simp [hb]

@[simp] lemma cursor_free (h : Heap δ) (a : UInt64) : (h.free a).cursor = h.cursor := rfl

/-! ### Storing -/

/-- A store that succeeds changes the payload of one block, and nothing in its header. -/
lemma store?_eq_some {offset : Nat} {w : UInt64} (hs : h.store? a offset w = some h') :
    ∃ x p, h.block? a = some x ∧ x.payload.store? offset w = some p ∧
      h' = h.modifyBlock a fun x => { x with payload := p } := by
  cases hx : h.block? a with
  | none => simp [store?, hx] at hs
  | some x =>
    cases hp : x.payload.store? offset w with
    | none => simp [store?, hx, hp] at hs
    | some p => exact ⟨x, p, rfl, hp, by simpa [store?, hx, hp] using hs.symm⟩

variable {offset : Nat} {w : UInt64}

lemma header?_store? (hs : h.store? a offset w = some h') (b : UInt64) :
    h'.header? b = h.header? b := by
  obtain ⟨x, p, -, -, rfl⟩ := store?_eq_some hs
  rw [header?, map_block?_modifyBlock, ← header?]
  exact fun _ => rfl

lemma refs_store? (hs : h.store? a offset w = some h') (b : UInt64) : h'.refs b = h.refs b := by
  obtain ⟨x, p, -, -, rfl⟩ := store?_eq_some hs
  rw [refs_eq, map_block?_modifyBlock, ← refs_eq]
  exact fun _ => rfl

lemma state?_store? (hs : h.store? a offset w = some h') (b : UInt64) :
    h'.state? b = h.state? b := by
  obtain ⟨x, p, -, -, rfl⟩ := store?_eq_some hs
  rw [state?_eq, map_block?_modifyBlock, ← state?_eq]
  exact fun _ => rfl

lemma destructor?_store? (hs : h.store? a offset w = some h') (b : UInt64) :
    h'.destructor? b = h.destructor? b := by
  obtain ⟨x, p, -, -, rfl⟩ := store?_eq_some hs
  rw [destructor?_eq, map_block?_modifyBlock, ← destructor?_eq]
  exact fun _ => rfl

lemma live_store? (hs : h.store? a offset w = some h') (b : UInt64) :
    h'.Live b ↔ h.Live b := by
  obtain ⟨x, p, -, -, rfl⟩ := store?_eq_some hs
  rw [live_iff, map_block?_modifyBlock, ← live_iff]
  exact fun _ => rfl

lemma cursor_store? (hs : h.store? a offset w = some h') : h'.cursor = h.cursor := by
  obtain ⟨x, p, -, -, rfl⟩ := store?_eq_some hs
  rfl

/-! ### Aligned words of an object -/

/-- The words of an object, as the collector reads them, are what an aligned load gives. -/
lemma load?_word {i : Nat} (hi : i < (h.words a).length) :
    h.load? a (8 * i) = (h.words a)[i]? := by
  cases hx : h.block? a with
  | none => simp [words, hx] at hi
  | some x =>
    simp only [words, hx] at hi ⊢
    rw [← Payload.load?_aligned hi]
    simp [load?, hx]

/-- An aligned store into an object changes one of its words and no word of another object. -/
lemma store?_word {i : Nat} (hi : i < (h.words a).length) (w : UInt64) :
    ∃ h', h.store? a (8 * i) w = some h' ∧
      ∀ b, h'.words b = if b = a then (h.words a).set i w else h.words b := by
  cases hx : h.block? a with
  | none => simp [words, hx] at hi
  | some x =>
    simp only [words, hx] at hi
    obtain ⟨q, hq, hwords⟩ := Payload.store?_aligned hi w
    refine ⟨h.modifyBlock a fun x => { x with payload := q }, by simp [store?, hx, hq], fun b => ?_⟩
    rw [words_eq, block?_modifyBlock]
    split
    case isTrue hb => simp [words, hb, hx, hwords]
    case isFalse => rw [← words_eq]

/-! ### Allocating -/

/-- What an allocator may answer: a block that is not in use, under an address other than null. All
other blocks are as they were. -/
structure Grants (h : Heap δ) (size : Nat) (d : Option δ) (a : UInt64) (h' : Heap δ) : Prop where
  ne_zero : a ≠ 0
  not_live : ¬ h.Live a
  block?_eq : ∀ b, h'.block? b = if b = a then some (.fresh size d) else h.block? b

namespace Grants

variable {size : Nat} {d : Option δ}

lemma refs_eq (g : h.Grants size d a h') (b : UInt64) :
    h'.refs b = if b = a then 0 else h.refs b := by
  simp only [refs, header?, g.block?_eq]
  split <;> rfl

lemma state?_eq (g : h.Grants size d a h') (b : UInt64) :
    h'.state? b = if b = a then some .zeroCount else h.state? b := by
  simp only [state?, header?, g.block?_eq]
  split <;> rfl

lemma destructor?_eq (g : h.Grants size d a h') (b : UInt64) :
    h'.destructor? b = if b = a then d else h.destructor? b := by
  simp only [destructor?, header?, g.block?_eq]
  split <;> rfl

lemma live_iff (g : h.Grants size d a h') (b : UInt64) : h'.Live b ↔ b = a ∨ h.Live b := by
  simp only [Live, g.block?_eq]
  by_cases hb : b = a <;> simp [hb, Block.fresh]

lemma words_eq (g : h.Grants size d a h') (b : UInt64) :
    h'.words b = if b = a then List.replicate (size / 8) 0 else h.words b := by
  rw [Heap.words_eq, Heap.words_eq, g.block?_eq]
  split
  · exact Payload.words_zeroed size
  · rfl

end Grants

/-- Every live block begins before the place where the next one goes. -/
def Bounded (h : Heap δ) : Prop :=
  ∀ ⦃a⦄, h.Live a → a.toNat ≤ h.cursor

/-- Freeing blocks and changing their contents keeps the bound, since neither moves the cursor. -/
lemma Bounded.of_cursor_eq (hb : h.Bounded) (hc : h'.cursor = h.cursor)
    (hl : ∀ a, h'.Live a → h.Live a) : h'.Bounded := by
  intro a ha
  rw [hc]
  exact hb (hl a ha)

/-- Freed blocks count too here, so the bound can be checked by looking at all of them. -/
lemma Bounded.of_keys (hb : h.blocks.keys.all (·.toNat ≤ h.cursor) = true) : h.Bounded := by
  rintro a ⟨b, ha, -⟩
  have hmem : a ∈ h.blocks.keys := by
    rw [block?] at ha
    rw [Std.TreeMap.mem_keys, Std.TreeMap.mem_iff_isSome_getElem?, ha]
    rfl
  exact of_decide_eq_true (List.all_eq_true.1 hb a hmem)

/-- The next address does not wrap around as long as its header still fits the arena. -/
lemma toNat_nextAddress (hc : h.cursor + Arena.headerSize ≤ Arena.base + Arena.capacity) :
    h.nextAddress.toNat = h.cursor + Arena.headerSize := by
  simp only [Arena.headerSize, Arena.base, Arena.capacity] at hc
  simp only [nextAddress, Arena.headerSize, UInt64.toNat_ofNat']
  omega

variable {size : Nat} {d : Option δ}

/-- A block is laid out behind the cursor, which moves on past the beginning of its payload. -/
lemma cursor_lt_of_allocate (ha : h.allocate size d = .ok (a, h')) :
    h.cursor < a.toNat ∧ a.toNat ≤ h'.cursor := by
  simp only [allocate] at ha
  split_ifs at ha with hlarge hfull
  simp only [Except.ok.injEq, Prod.mk.injEq] at ha
  obtain ⟨rfl, rfl⟩ := ha
  have hnext := h.toNat_nextAddress (by omega)
  have hle := le_roundUp (h.cursor + (Arena.headerSize + size)) (show 0 < Arena.alignment by decide)
  simp only [Arena.headerSize] at *
  omega

lemma block?_allocate (ha : h.allocate size d = .ok (a, h')) (b : UInt64) :
    h'.block? b = if b = a then some (.fresh size d) else h.block? b := by
  simp only [allocate] at ha
  split_ifs at ha with hlarge hfull
  simp only [Except.ok.injEq, Prod.mk.injEq] at ha
  obtain ⟨rfl, rfl⟩ := ha
  simp only [block?, Std.TreeMap.getElem?_insert, Std.LawfulEqCmp.compare_eq_iff_eq]
  simp only [eq_comm]

/-- Where a block is laid out depends on the cursor alone. -/
lemma allocate_of_cursor_eq {k : Heap δ} (hc : k.cursor = h.cursor)
    (ha : h.allocate size d = .ok (a, h')) :
    ∃ k', k.allocate size d = .ok (a, k') ∧ k'.cursor = h'.cursor := by
  simp only [allocate, nextAddress, hc] at ha ⊢
  split_ifs at ha ⊢
  simp only [Except.ok.injEq, Prod.mk.injEq] at ha
  obtain ⟨rfl, rfl⟩ := ha
  exact ⟨_, rfl, rfl⟩

/-- Laying out blocks one after the other never answers the address of a live block. -/
lemma grants_allocate (hb : h.Bounded)
    (ha : h.allocate size d = .ok (a, h')) : h.Grants size d a h' ∧ h'.Bounded := by
  obtain ⟨hlt, hle⟩ := cursor_lt_of_allocate ha
  have hgrants : h.Grants size d a h' := by
    refine ⟨?_, fun hl => absurd (hb hl) (Nat.not_le.2 hlt), block?_allocate ha⟩
    rintro rfl
    simp at hlt
  refine ⟨hgrants, fun b hl => ?_⟩
  rcases (hgrants.live_iff b).1 hl with rfl | hl
  · exact hle
  · have := hb hl
    omega

end Heap

/-- The allocator never answers the address of a block in use. -/
def Allocator.SoundAt {δ : Type} (alloc : Allocator δ) (h : Heap δ) : Prop :=
  ∀ size d a h', alloc h size d = .ok (a, h') → h.Grants size d a h'

/-- The arena's allocator is sound in every heap that has been laid out by it. -/
lemma Heap.Bounded.soundAt_allocate {δ : Type} {h : Heap δ} (hb : h.Bounded) :
    Allocator.SoundAt allocate h :=
  fun _ _ _ _ ha => (grants_allocate hb ha).1

/-- An empty heap is within any bound, so every heap built from it by `allocate` is. -/
lemma Heap.bounded_empty {δ : Type} : ({} : Heap δ).Bounded := by
  rintro a ⟨b, hb, -⟩
  simp [block?] at hb

end HybridGC
