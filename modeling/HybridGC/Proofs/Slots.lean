import HybridGC.Program
import HybridGC.Proofs.Rearrangement
import HybridGC.Proofs.Stops

/-!
# What a slot holds after a swap

A swap of pointers writes the new one between taking its reference and dropping the old one.
Counting changes headers and tables and no payload, so a swap that returns has stored the new
pointer, in any state of the collector and whichever way the call has come. Where the program has no
collector, there is nobody to count, and the swap does not store either.
-/

namespace HybridGC

/-! ### Words across two cells -/

/-- The bits below a shift. -/
lemma getLsbD_one_shiftLeft_sub_one {n : Nat} (hn : n < 64) (i : Nat) :
    ((1#64 <<< n) - 1#64).getLsbD i = decide (i < n) := by
  have hmask : (1#64 <<< n) - 1#64 = BitVec.ofNat 64 (2 ^ n - 1) := by
    apply BitVec.eq_of_toNat_eq
    have hpos := Nat.two_pow_pos n
    have hlt : 2 ^ n < 2 ^ 64 := Nat.pow_lt_pow_right (by decide) hn
    simp only [BitVec.toNat_sub, BitVec.toNat_shiftLeft, BitVec.toNat_ofNat, Nat.shiftLeft_eq]
    omega
  rw [hmask, BitVec.getLsbD_ofNat, Nat.testBit_two_pow_sub_one]
  by_cases hi : i < n
  · simp [hi, hi.trans hn]
  · simp [hi]

/-- A word put into the upper bits of one cell and the lower bits of the next is read back. -/
lemma join_split_bitVec (low high w : BitVec 64) {n : Nat} (hn : n < 64) :
    ((low &&& ((1#64 <<< n) - 1#64) ||| w <<< n) >>> n) |||
      ((high &&& ~~~((1#64 <<< n) - 1#64) ||| w >>> (64 - n)) <<< (64 - n)) = w := by
  apply BitVec.eq_of_getLsbD_eq
  intro i hi
  simp only [BitVec.getLsbD_or, BitVec.getLsbD_and, BitVec.getLsbD_not, BitVec.getLsbD_shiftLeft,
    BitVec.getLsbD_ushiftRight, getLsbD_one_shiftLeft_sub_one hn]
  -- the lower bits of the word come from the upper part of the first cell, the others from the
  -- second cell
  by_cases hlow : i < 64 - n
  · have hsum : n + i < 64 := by omega
    simp [hlow, hsum]
  · have hindex : 64 - n + (i - (64 - n)) = i := by omega
    have hbelow : i - (64 - n) < n := by omega
    have hsum : ¬ n + i < 64 := by omega
    simp [hi, hlow, hindex, hbelow, hsum]

/-- So with the words of the machine, where a shift is taken modulo 64: by less than 64 it is the
shift itself. -/
lemma join_split (low high w : UInt64) {s : UInt64} (h0 : s ≠ 0) (hs : s.toNat < 64) :
    ((low &&& ((1 <<< s) - 1) ||| w <<< s) >>> s) |||
      ((high &&& ~~~((1 <<< s) - 1) ||| w >>> (64 - s)) <<< (64 - s)) = w := by
  have hpos : 0 < s.toNat := Nat.pos_of_ne_zero fun h => h0 (UInt64.toNat_inj.1 h)
  have hshift : (s.toBitVec % 64).toNat = s.toNat := by
    simp only [BitVec.toNat_umod, UInt64.toNat_toBitVec]
    exact Nat.mod_eq_of_lt hs
  have hrest : ((64 - s).toBitVec % 64).toNat = 64 - s.toNat := by
    have hsub : (64 - s).toNat = 64 - s.toNat :=
      UInt64.toNat_sub_of_le _ _ (UInt64.le_iff_toNat_le.2 hs.le)
    simp only [BitVec.toNat_umod, UInt64.toNat_toBitVec, hsub]
    exact Nat.mod_eq_of_lt (show 64 - s.toNat < 64 by omega)
  rw [UInt64.toBitVec_sub] at hrest
  apply UInt64.eq_of_toBitVec_eq
  simp only [UInt64.toBitVec_or, UInt64.toBitVec_and, UInt64.toBitVec_not, UInt64.toBitVec_sub,
    UInt64.toBitVec_shiftLeft, UInt64.toBitVec_shiftRight, BitVec.shiftLeft_eq',
    BitVec.ushiftRight_eq', hshift, hrest]
  exact join_split_bitVec _ _ _ hs

namespace Payload

variable {p : Payload} {offset : Nat} {w x : UInt64}

/-- Where a word can be read, one can be written, and is read then. -/
lemma store?_of_load? (h : p.load? offset = some x) (w : UInt64) :
    ∃ q, p.store? offset w = some q ∧ q.load? offset = some w := by
  have hlt : (UInt64.ofNat (8 * (offset % 8))).toNat < 64 := by
    rw [UInt64.toNat_ofNat']
    omega
  simp only [load?, store?] at h ⊢
  generalize UInt64.ofNat (8 * (offset % 8)) = s at h hlt ⊢
  generalize offset / 8 = i at h ⊢
  by_cases hs : s = 0
  · rw [if_pos hs] at h
    have hsize := (Array.getElem?_eq_some_iff.1 h).1
    exact ⟨⟨p.cells.setIfInBounds i w⟩, by simp [hs, hsize], by simp [hs, hsize]⟩
  · rw [if_neg hs] at h
    cases hlow : p.cells[i]? with
    | none => simp [hlow] at h
    | some low =>
      cases hhigh : p.cells[i + 1]? with
      | none => simp [hlow, hhigh] at h
      | some high =>
        have hsize := (Array.getElem?_eq_some_iff.1 hhigh).1
        have hsize' := (Array.getElem?_eq_some_iff.1 hlow).1
        refine ⟨_, by simp only [hs, if_false]; rfl, ?_⟩
        simp [hs, hsize, hsize', join_split low high w hs hlt]

end Payload

/-! ### Counting leaves payloads alone -/

namespace Heap

variable {δ : Type} {h h' : Heap δ} {a b n : UInt64} {offset : Nat} {w x : UInt64}

/-- The payload at an address. -/
def payload? (h : Heap δ) (a : UInt64) : Option Payload :=
  (h.block? a).map (·.payload)

lemma load?_eq (h : Heap δ) (a : UInt64) (offset : Nat) :
    h.load? a offset = (h.payload? a).bind (·.load? offset) := by
  cases hb : h.block? a <;> simp [load?, payload?, hb]

lemma payload?_setState (h : Heap δ) (a b : UInt64) (s : Partition) :
    (h.setState a s).payload? b = h.payload? b :=
  h.map_block?_modifyBlock a b fun _ => rfl

lemma payload?_setRefs (h : Heap δ) (a b n : UInt64) :
    (h.setRefs a n).payload? b = h.payload? b :=
  h.map_block?_modifyBlock a b fun _ => rfl

/-- Where a word can be read, one can be written, and is read then. -/
lemma store?_of_load? (hl : h.load? a offset = some x) (w : UInt64) :
    ∃ h', h.store? a offset w = some h' ∧ h'.load? a offset = some w := by
  cases hb : h.block? a with
  | none => simp [load?, hb] at hl
  | some block =>
    have hp : block.payload.load? offset = some x := by simpa [load?, hb] using hl
    obtain ⟨payload, hstore, hload⟩ := Payload.store?_of_load? hp w
    refine ⟨h.modifyBlock a fun x => { x with payload }, by simp [store?, hb, hstore], ?_⟩
    simp [load?, block?_modifyBlock, hb, hload]

end Heap

namespace Collector

variable {δ : Type}

/-- Moving an object leaves every payload alone, also where it stops between the two tables. -/
lemma leaves_payload_transfer (a : UInt64) (source target : Partition) (b : UInt64) :
    Leaves (fun c : Collector δ => c.heap.payload? a) (transfer source target b) := by
  refine .bind (.modifyGet fun c => by rw [heap_take]) fun r => ?_
  cases r with
  | none => exact .throw _
  | some e =>
    refine .bind (.update fun c => c.heap.payload?_setState b a target) fun _ => ?_
    refine .bind (.modifyGet fun c => by rw [heap_put]) fun r => ?_
    exact .ite (.throw _) (.pure _)

lemma leaves_payload_increment (a b : UInt64) :
    Leaves (fun c : Collector δ => c.heap.payload? a) (increment b) := by
  refine .bind .get fun c => .ite (.throw_bind _) ?_
  exact .bind (.update fun c => c.heap.payload?_setRefs b a _) fun _ => .pure _

lemma leaves_payload_decrement (a b : UInt64) :
    Leaves (fun c : Collector δ => c.heap.payload? a) (decrement b) := by
  refine .bind .get fun c => .ite (.throw_bind _) ?_
  exact .bind (.update fun c => c.heap.payload?_setRefs b a _) fun _ => .pure _

end Collector

namespace Gc

variable {δ α τ : Type} {f : Collector δ → τ}

/-- What an operation on the collector leaves alone, it leaves alone as an operation on the whole.
-/
lemma leaves_onCollector {act : Faulting (Collector δ) α} (h : Leaves f act) :
    Leaves (fun g : Gc δ => f g.collector) (onCollector act) := by
  intro g
  have hc := h g.collector
  rw [after] at hc ⊢
  rw [run_onCollector]
  cases hr : act.run g.collector <;> rw [hr] at hc <;> exact hc

/-- Taking a reference leaves every payload alone, whether it returns or stops. -/
lemma leaves_payload_addref (a b : UInt64) :
    Leaves (fun g : Gc δ => g.collector.heap.payload? a) (addref b) := by
  refine .bind .get fun g => .ite (.pure _) (.ite (.throw_bind _) ?_)
  refine .bind (leaves_onCollector (f := fun c => c.heap.payload? a) ?_) fun _ => .pure _
  refine .bind (Collector.leaves_payload_increment a b) fun n => .bind .get fun c => ?_
  exact .ite (Collector.leaves_payload_transfer a _ _ b) (.pure _)

lemma leaves_payload_delref (a b : UInt64) :
    Leaves (fun g : Gc δ => g.collector.heap.payload? a) (delref b) := by
  refine .bind .get fun g => .ite (.pure _) (.ite (.throw_bind _) ?_)
  refine leaves_onCollector (f := fun c => c.heap.payload? a) ?_
  refine .bind (Collector.leaves_payload_decrement a b) fun n => .bind .get fun c => ?_
  exact .ite (Collector.leaves_payload_transfer a _ _ b) (.pure _)

end Gc

/-! ### Calls with the same effect -/

section SameEffect

variable {ε σ α : Type} {act act' act'' : EStateM ε σ α}

/-- The computations reach the same states and return the same answers. Only what they stop at may
differ. -/
def SameEffect (act act' : EStateM ε σ α) : Prop :=
  ∀ s, after act s = after act' s ∧ ∀ x s', act.run s = .ok x s' ↔ act'.run s = .ok x s'

namespace SameEffect

lemma refl (act : EStateM ε σ α) : SameEffect act act :=
  fun _ => ⟨rfl, fun _ _ => Iff.rfl⟩

lemma symm (h : SameEffect act act') : SameEffect act' act :=
  fun s => ⟨(h s).1.symm, fun x s' => ((h s).2 x s').symm⟩

lemma trans (h : SameEffect act act') (h' : SameEffect act' act'') : SameEffect act act'' :=
  fun s => ⟨(h s).1.trans (h' s).1, fun x s' => ((h s).2 x s').trans ((h' s).2 x s')⟩

end SameEffect

end SameEffect

/-! ### In a world -/

namespace World

open Host

variable {w w' : World} {p : Place} {v old : UInt64}

/-- What leaves every payload alone leaves alone what is read from any place, be it a variable or a
word of an object. -/
lemma leaves_read {α : Type} {act : Faulting (Gc Finalizer) α} (p : Place)
    (h : ∀ a, Leaves (fun g : Gc Finalizer => g.collector.heap.payload? a) act) :
    Leaves (fun w : World => read? w p) (onGc act : Act α) := by
  intro w
  rw [after_onGc]
  cases p with
  | «variable» k => rfl
  | cell a offset =>
    simp only [read?, Client.read?, Heap.load?_eq]
    exact congrArg (·.bind (·.load? offset)) (h a w.gc)

/-- A place that exists can be written, and holds then what has been written. -/
lemma write?_of_read? (hold : read? w p = some old) (v : UInt64) :
    ∃ w', write? w v p = some w' ∧ read? w' p = some v := by
  cases p with
  | «variable» k => exact ⟨_, rfl, by simp [read?, Client.read?, Client.assign]⟩
  | cell a offset =>
    obtain ⟨heap, hstore, hload⟩ := Heap.store?_of_load? hold v
    exact ⟨{ w with gc := { w.gc with collector := { w.gc.collector with heap } } },
      by simp [write?, hstore], hload⟩

/-- What a swap leaves in a place that exists. -/
lemma read?_of_swapref (hold : read? w p = some old)
    (hr : (swapref (cell p) v).run w = .ok () w') : read? w' p = some v := by
  cases hadd : (Gc.addref v).run w.gc with
  | error f g =>
    rw [run_swapref_of_error hadd] at hr
    cases hr
  | ok x g =>
    obtain rfl := Gc.eq_of_addref_eq_ok hadd
    have hold₁ : read? { w with gc := g } p = some old := by
      have := leaves_read p (fun a => Gc.leaves_payload_addref a x) w
      rw [after_onGc, after, hadd] at this
      exact this.trans hold
    obtain ⟨w₁, hwrite, hread⟩ := write?_of_read? hold₁ x
    rw [run_swapref_of_ok hadd] at hr
    have hcell : (cell p).write x { w with gc := g } = w₁ := by simp [cell, hwrite]
    rw [hcell] at hr
    have hleaves := leaves_read p (fun a => Gc.leaves_payload_delref a ((cell p).read w)) w₁
    rw [after, hr] at hleaves
    exact hleaves.trans hread

/-! ### Ways to call -/

variable {destroy : Destroy} {here : Thread} {self : Option UInt64} {m m' : Manner} {slot : Slot}
variable {value : Operand} {answered : Answer}

/-- Aborting on a fault changes which fault it is, not the state that is left. -/
lemma sameEffect_abortOnFault {α : Type} (act : Act α) : SameEffect (abortOnFault act) act := by
  intro w
  simp only [after, abortOnFault, EStateM.run]
  rcases act w with ⟨y, w₁⟩ | ⟨f | f, w₁⟩ <;> simp

/-- The C boundary is the only difference between the ways to call for a swap. -/
lemma sameEffect_perform_swapref :
    SameEffect (perform destroy here self (m, .swapref (some slot) value))
      (answer destroy here self .direct (.swapref (some slot) value)) := by
  by_cases hc : m.api = .c
  · have hperform : perform destroy here self (m, .swapref (some slot) value) =
        abortOnFault (answer destroy here self .direct (.swapref (some slot) value)) := by
      simp only [perform, crossesBoundary, hc]
      rfl
    rw [hperform]
    exact sameEffect_abortOnFault _
  · have hperform : perform destroy here self (m, .swapref (some slot) value) =
        answer destroy here self .direct (.swapref (some slot) value) := by
      simp only [perform, crossesBoundary, hc]
      rfl
    rw [hperform]
    exact .refl _

/-- A call for a swap, on a place that exists, is a swap there, and it answers what the place holds
then. -/
lemma run_answer_swapref {api : Api} (hv : eval? w self value = some v)
    (hp : place? w self slot = some p) (hold : read? w p = some old) :
    (answer destroy here self api (.swapref (some slot) value)).run w =
      match (swapref (cell p) v).run w with
      | .ok _ w' => .ok (.word ((read? w' p).getD 0)) w'
      | .error stop w' => .error stop w' := by
  have hsome : (read? w p).isNone = false := by simp [hold]
  simp only [answer, withWord, EStateM.run_bind, EStateM.run_get, hv, hp, hsome, Bool.false_eq_true,
    if_false]
  cases (swapref (cell p) v).run w <;> rfl

/-- A call for a swap that returns answers the new pointer, and the slot holds it. -/
lemma read?_of_perform_swapref (hv : eval? w self value = some v)
    (hp : place? w self slot = some p) (hold : read? w p = some old)
    (hr : (perform destroy here self (m, .swapref (some slot) value)).run w = .ok answered w') :
    answered = .word v ∧ read? w' p = some v := by
  rw [(sameEffect_perform_swapref w).2, run_answer_swapref hv hp hold] at hr
  cases hswap : (swapref (cell p) v).run w with
  | error stop w₁ => simp [hswap] at hr
  | ok u w₁ =>
    have hread := read?_of_swapref hold hswap
    rw [hswap] at hr
    cases hr
    exact ⟨by rw [hread]; rfl, hread⟩

end World

/-! ### In a program -/

namespace Program

/-- The heap of the collector, empty if there is none. -/
def heap (p : Program) : Heap Finalizer :=
  (p.installed.map (·.collector.heap)).getD {}

/-- The word an operand names, if there is one. -/
def eval? (p : Program) (o : Operand) : Option UInt64 :=
  p.client.eval? p.heap none o

/-- The place of a slot, if its object is named. -/
def place? (p : Program) (s : Slot) : Option Place :=
  p.client.place? p.heap none s

/-- The word in a place, if the place exists. -/
def read? (p : Program) (place : Place) : Option UInt64 :=
  p.client.read? p.heap place

variable {p p' : Program} {m m' : Manner} {slot : Slot} {value : Operand} {place : Place}
variable {v old : UInt64} {answered : Answer}

/-- The program a call leaves that has been made on its collector. -/
def withWorld (p : Program) (w : World) : Program :=
  { p with client := w.client, installed := some w.gc }

/-- With a collector, a call of the program is one of the client on that collector, and what the
call leaves belongs to the program. -/
lemma run_perform_of_installed {g : Gc Finalizer} (hg : p.installed = some g) (call : Call) :
    (perform call).run p = match (World.request call).run ⟨p.client, g⟩ with
      | .ok x w => .ok x (p.withWorld w)
      | .error stop w => .error stop (p.withWorld w) := by
  rw [perform, EStateM.run_bind]
  have hrun : (withCollector (World.request call)).run p =
      match (World.request call).run ⟨p.client, g⟩ with
      | .ok x w => .ok (.ok x) (p.withWorld w)
      | .error stop w => .error stop (p.withWorld w) := by
    simp only [withCollector, EStateM.run, hg]
    cases World.request call ⟨p.client, g⟩ <;> rfl
  rw [hrun]
  cases (World.request call).run ⟨p.client, g⟩ <;> rfl

lemma run_perform_of_not_installed (hinstalled : p.installed = none) (call : Call) :
    (perform call).run p =
      (answerAlone (Thread.main.call call.1.spawn) call.1.api call.2).run p := by
  have hnone : (withCollector (World.request call)).run p = .ok (.error .notInitialized) p := by
    simp [withCollector, EStateM.run, hinstalled]
  rw [perform, EStateM.run_bind, hnone]

/-- With a collector, a swap that returns has stored the new pointer. -/
lemma read?_of_perform_swapref (hinstalled : p.installed.isSome = true)
    (hv : p.eval? value = some v) (hplace : p.place? slot = some place)
    (hold : p.read? place = some old)
    (hr : (perform (m, .swapref (some slot) value)).run p = .ok answered p') :
    answered = .word v ∧ p'.read? place = some v := by
  obtain ⟨g, hg⟩ := Option.isSome_iff_exists.1 hinstalled
  rw [run_perform_of_installed hg] at hr
  have hheap : p.heap = g.collector.heap := by simp [heap, hg]
  rw [eval?, hheap] at hv
  rw [place?, hheap] at hplace
  rw [read?, hheap] at hold
  cases hw : (World.request (m, .swapref (some slot) value)).run ⟨p.client, g⟩ with
  | error stop w => simp [hw] at hr
  | ok x w =>
    rw [hw] at hr
    cases hr
    exact World.read?_of_perform_swapref (w := ⟨p.client, g⟩) hv hplace hold hw

/-- Without one, a swap answers what the slot holds, and changes nothing. -/
lemma run_perform_swapref_of_not_installed (hinstalled : p.installed = none)
    (hv : p.eval? value = some v) (hplace : p.place? slot = some place)
    (hold : p.read? place = some old) :
    (perform (m, .swapref (some slot) value)).run p = .ok (.word old) p := by
  have hheap : p.heap = {} := by simp [heap, hinstalled]
  rw [eval?, hheap] at hv
  rw [place?, hheap] at hplace
  rw [read?, hheap] at hold
  rw [run_perform_of_not_installed hinstalled]
  simp only [answerAlone, withWord, EStateM.run_bind, EStateM.run_get, hv, hplace]
  simp [hold]

/-- Calls that have the same effect on a world have it on the program it belongs to. -/
lemma sameEffect_perform {call call' : Call}
    (h : SameEffect (World.request call) (World.request call'))
    (halone : answerAlone (Thread.main.call call.1.spawn) call.1.api call.2 =
      answerAlone (Thread.main.call call'.1.spawn) call'.1.api call'.2) :
    SameEffect (perform call) (perform call') := by
  intro p
  cases hp : p.installed with
  | none =>
    rw [after, after, run_perform_of_not_installed hp, run_perform_of_not_installed hp, halone]
    exact ⟨rfl, fun _ _ => Iff.rfl⟩
  | some g =>
    obtain ⟨hafter, hok⟩ := h ⟨p.client, g⟩
    rw [after, after] at hafter
    rw [after, after, run_perform_of_installed hp, run_perform_of_installed hp]
    rcases hr : (World.request call).run ⟨p.client, g⟩ with ⟨x, w⟩ | ⟨f, w⟩
    · rw [(hok x w).1 hr]
      exact ⟨rfl, fun _ _ => Iff.rfl⟩
    -- if the one call stops, the other does not return, for then the first would have returned as
    -- well
    · rcases hr' : (World.request call').run ⟨p.client, g⟩ with ⟨x', w'⟩ | ⟨f', w'⟩
      · cases hr.symm.trans ((hok x' w').2 hr')
      · rw [hr, hr'] at hafter
        rw [show w = w' from hafter]
        exact ⟨rfl, by simp⟩

/-- Whichever way it is made, a call for a swap leaves the same program. -/
lemma sameEffect_perform_swapref (m m' : Manner) (slot : Slot) (value : Operand) :
    SameEffect (perform (m, .swapref (some slot) value))
      (perform (m', .swapref (some slot) value)) :=
  sameEffect_perform
    (World.sameEffect_perform_swapref.trans World.sameEffect_perform_swapref.symm) rfl

/-- A call for a swap that returns has stored the new pointer, in any state of the collector and
from within a destructor as well, unless the program has no collector: then it returns and has
stored nothing, so that the slot holds the new pointer only if it has held it before. By a method,
by a function on the collector of the program or through the C boundary, it leaves the same. -/
theorem swapref_stores_if_installed (m : Manner) (slot : Slot) (value : Operand) :
    (∀ {destroy : World.Destroy} {here : Thread} {self : Option UInt64} {w w' : World}
        {place : Place} {v old : UInt64} {answered : Answer},
      World.eval? w self value = some v → World.place? w self slot = some place →
      World.read? w place = some old →
      (World.perform destroy here self (m, .swapref (some slot) value)).run w =
        .ok answered w' →
      answered = .word v ∧ World.read? w' place = some v) ∧
    (∀ destroy here self m',
      SameEffect (World.perform destroy here self (m, .swapref (some slot) value))
        (World.perform destroy here self (m', .swapref (some slot) value))) ∧
    (∀ {p p' : Program} {place : Place} {v old : UInt64} {answered : Answer},
      p.eval? value = some v → p.place? slot = some place → p.read? place = some old →
      (perform (m, .swapref (some slot) value)).run p = .ok answered p' →
      answered = .word (if p.installed.isSome then v else old) ∧
      (p'.read? place = some v ↔ p.installed.isSome = true ∨ old = v) ∧
      (p.installed = none → p' = p)) ∧
    ∀ m', SameEffect (perform (m, .swapref (some slot) value))
      (perform (m', .swapref (some slot) value)) := by
  refine ⟨World.read?_of_perform_swapref, fun destroy here self m' => ?_,
    fun {p p' place v old answered} hv hplace hold hr => ?_,
    fun m' => sameEffect_perform_swapref m m' slot value⟩
  · exact World.sameEffect_perform_swapref.trans World.sameEffect_perform_swapref.symm
  · cases hp : p.installed with
    | none =>
      rw [run_perform_swapref_of_not_installed hp hv hplace hold] at hr
      cases hr
      exact ⟨rfl, by simp [hold], fun _ => rfl⟩
    | some g =>
      obtain ⟨hanswered, hread⟩ := read?_of_perform_swapref (by simp [hp]) hv hplace hold hr
      exact ⟨hanswered, by simp [hread], fun h => by simp at h⟩

/-- A program that has installed a collector and allocated an object. -/
def oneAllocated : Program :=
  after (perform ({ api := .c }, .alloc 8 none 1)) (after (perform ({ api := .c }, .init)) {})

/-- A variable comes to hold the object, whichever way the swap is called for. In a pass that nobody
will end, an object that is being collected comes to hold itself, across two words. -/
theorem swapref_stores_if_installed_oneAllocated :
    (∃ w, World.read? w (.cell 0x10000030 3) = some 0x10000030 ∧
      w = after (World.perform World.runDestructor .main (some 0x10000030)
        ({}, .swapref (some (.cell .self 3)) .self)) World.scanFailed) ∧
    ∃ p, (perform ({ api := .c }, .swapref (some (.variable 0)) (.ref (.object 0 0)))).run
          oneAllocated = .ok (.word 0x10000030) p ∧
      (perform ({ api := .program }, .swapref (some (.variable 0)) (.ref (.object 0 0)))).run
          oneAllocated = .ok (.word 0x10000030) p ∧
      p.read? (.variable 0) = some 0x10000030 := by
  obtain ⟨hworld, -⟩ := swapref_stores_if_installed {} (.cell .self 3) .self
  obtain ⟨-, -, hstores, hsame⟩ :=
    swapref_stores_if_installed { api := .c } (.variable 0) (.ref (.object 0 0))
  obtain ⟨y, w, hw⟩ : ∃ y w, (World.perform World.runDestructor .main (some 0x10000030)
      ({}, .swapref (some (.cell .self 3)) .self)).run World.scanFailed = .ok y w :=
    ⟨_, _, by rfl⟩
  have hplace : World.place? World.scanFailed (some 0x10000030) (.cell .self 3) =
      some (.cell 0x10000030 3) := rfl
  have hnull : World.read? World.scanFailed (.cell 0x10000030 3) = some 0 := by decide +kernel
  obtain ⟨-, hcell⟩ := hworld rfl hplace hnull hw
  refine ⟨⟨w, hcell, (after_of_ok hw).symm⟩, ?_⟩
  obtain ⟨x, p, hr⟩ : ∃ x p,
      (perform ({ api := .c }, .swapref (some (.variable 0)) (.ref (.object 0 0)))).run
        oneAllocated = .ok x p := ⟨_, _, by rfl⟩
  have hinstalled : oneAllocated.installed.isSome = true := by decide +kernel
  have hv : oneAllocated.eval? (.ref (.object 0 0)) = some 0x10000030 := by decide +kernel
  have hzero : oneAllocated.read? (.variable 0) = some 0 := by decide +kernel
  obtain ⟨rfl, hread, -⟩ := hstores hv rfl hzero hr
  rw [hinstalled] at hr hread
  exact ⟨p, hr, ((hsame _ _).2 _ _).1 hr, hread.2 (.inl rfl)⟩

/-- Nothing is stored in a program without a collector. -/
theorem swapref_stores_fails :
    ∃ p p' : Program, p.installed = none ∧ p.eval? (.ref (.word 5)) = some 5 ∧
      p.place? (.variable 0) = some (.variable 0) ∧ p.read? (.variable 0) = some 0 ∧
      (perform ({ api := .c }, .swapref (some (.variable 0)) (.ref (.word 5)))).run p =
        .ok (.word 0) p' ∧ p'.read? (.variable 0) ≠ some 5 :=
  ⟨{}, {}, rfl, rfl, rfl, rfl, rfl, by decide⟩

end Program

end HybridGC
