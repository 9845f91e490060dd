import Hairtos.Event.PubSub
import Mathlib.Data.List.Nodup
import Mathlib.Algebra.Order.Group.Nat

namespace Hairtos

variable {signal : Nat}

variable {A : Type} [DecidableEq A]

omit [DecidableEq A] in
theorem PubSub.lt_of_not_rejects {p : PubSub A} {activeIsValid : A → Bool} {a : A}
    (h : ¬ p.rejects activeIsValid signal a) : signal < p.signalCount := by
  simp only [PubSub.rejects, not_or] at h
  omega

structure PubSub.Lists (p : PubSub A) (array : Nat → Option A) (lists : Nat → List A) : Prop where
  valid : p.isValid = true
  slots : ∀ signal < p.signalCount, ∀ i < p.maxSubscribers, p.slots (p.signalSlots signal + i) = (lists signal)[i]?
  length_le : ∀ signal, (lists signal).length ≤ p.maxSubscribers
  nodup : ∀ signal, (lists signal).Nodup
  behind : ∀ i, p.signalCount * p.maxSubscribers ≤ i → p.slots i = array i

namespace PubSub.Lists

variable {p : PubSub A} {array : Nat → Option A} {lists : Nat → List A}

omit [DecidableEq A] in
theorem max_pos (h : p.Lists array lists) : 0 < p.maxSubscribers := by
  have := h.valid
  simp only [PubSub.isValid, Bool.and_eq_true, decide_eq_true_iff] at this
  exact this.1.2

theorem findSlot_mem (h : p.Lists array lists) (hs : signal < p.signalCount) {a : A} {index : Nat}
    (hfind : p.findSlot signal (some a) = some index) :
    index < p.maxSubscribers ∧ (lists signal)[index]? = some a := by
  have hlt : index < p.maxSubscribers := List.mem_range.mp (List.mem_of_find?_eq_some hfind)
  have heq := List.find?_some hfind
  rw [beq_iff_eq, h.slots signal hs index hlt] at heq
  exact ⟨hlt, heq⟩

theorem findSlot_none (h : p.Lists array lists) (hs : signal < p.signalCount) {a : A} :
    p.findSlot signal (some a) = none ↔ a ∉ lists signal := by
  rw [PubSub.findSlot, List.find?_eq_none]
  constructor
  · intro hall hmem
    obtain ⟨i, hi, hget⟩ := List.mem_iff_getElem.mp hmem
    have hlt : i < p.maxSubscribers := lt_of_lt_of_le hi (h.length_le signal)
    refine hall i (List.mem_range.mpr hlt) ?_
    rw [beq_iff_eq, h.slots signal hs i hlt, List.getElem?_eq_getElem hi, hget]
  · intro hmem i hi heq
    rw [beq_iff_eq, h.slots signal hs i (List.mem_range.mp hi)] at heq
    exact hmem (List.mem_of_getElem? heq)

theorem findSlot_free (h : p.Lists array lists) (hs : signal < p.signalCount) :
    p.findSlot signal none = if (lists signal).length < p.maxSubscribers then some (lists signal).length else none := by
  have hslot : ∀ i < p.maxSubscribers, (p.slots (p.signalSlots signal + i) == none) = decide
    ((lists signal).length ≤ i) := by
    intro i hi
    rw [h.slots signal hs i hi, Bool.eq_iff_iff, beq_iff_eq, decide_eq_true_iff, List.getElem?_eq_none_iff]
  by_cases hroom : (lists signal).length < p.maxSubscribers
  · rw [if_pos hroom, PubSub.findSlot, List.find?_range_eq_some]
    refine ⟨?_, List.mem_range.mpr hroom, fun j hj => ?_⟩
    · rw [hslot _ hroom]
      simp
    · rw [hslot j (by omega)]
      simpa using hj
  · rw [if_neg hroom, PubSub.findSlot, List.find?_eq_none]
    intro i hi
    have hlt := List.mem_range.mp hi
    rw [hslot i hlt]
    simp only [decide_eq_true_iff]
    omega

omit [DecidableEq A] in
theorem slot_inj (h : p.Lists array lists) {s s' i j : Nat} (hi : i < p.maxSubscribers) (hj : j < p.maxSubscribers)
    (heq : p.signalSlots s + i = p.signalSlots s' + j) : s = s' ∧ i = j := by
  have hdiv : ∀ s i, i < p.maxSubscribers → (s * p.maxSubscribers + i) / p.maxSubscribers = s := by
    intro s i hi
    rw [Nat.mul_comm, Nat.mul_add_div h.max_pos, Nat.div_eq_of_lt hi, Nat.add_zero]
  simp only [PubSub.signalSlots] at heq
  obtain rfl : s = s' := by rw [← hdiv s i hi, heq, hdiv s' j hj]
  exact ⟨rfl, by omega⟩

omit [DecidableEq A] in
theorem slot_lt {s i : Nat} (hs : s < p.signalCount) (hi : i < p.maxSubscribers) :
    p.signalSlots s + i < p.signalCount * p.maxSubscribers := by
  have := Nat.mul_le_mul_right p.maxSubscribers (Nat.succ_le_of_lt hs)
  rw [Nat.succ_mul] at this
  simp only [PubSub.signalSlots]
  omega

omit [DecidableEq A] in
theorem rewrite (h : p.Lists array lists) {slots : Nat → Option A} {subscribers : List A}
    (hframe : ∀ z, (∀ i < p.maxSubscribers, z ≠ p.signalSlots signal + i) → slots z = p.slots z)
    (hs : signal < p.signalCount) (hslots : ∀ i < p.maxSubscribers, slots (p.signalSlots signal + i) =
      subscribers[i]?)
    (hlength : subscribers.length ≤ p.maxSubscribers) (hnodup : subscribers.Nodup) :
    PubSub.Lists { p with slots := slots } array (Function.update lists signal subscribers) := by
  refine ⟨h.valid, fun s hlt i hi => ?_, fun s => ?_, fun s => ?_, fun z hz => ?_⟩
  · dsimp only at hlt hi ⊢
    by_cases hsig : s = signal
    · subst hsig
      rw [Function.update_self]
      exact hslots i hi
    · rw [Function.update_of_ne hsig]
      refine (hframe _ (fun j hj heq => ?_)).trans (h.slots s hlt i hi)
      exact hsig (h.slot_inj hi hj heq).1
  · by_cases hsig : s = signal
    · subst hsig
      rw [Function.update_self]
      exact hlength
    · rw [Function.update_of_ne hsig]
      exact h.length_le s
  · by_cases hsig : s = signal
    · subst hsig
      rw [Function.update_self]
      exact hnodup
    · rw [Function.update_of_ne hsig]
      exact h.nodup s
  · dsimp only at hz ⊢
    refine (hframe z (fun i hi heq => ?_)).trans (h.behind z hz)
    have := slot_lt (p := p) hs hi
    omega

theorem subscribe_again (h : p.Lists array lists) {activeIsValid : A → Bool} {a : A}
    (hok : ¬ p.rejects activeIsValid signal a) (hmem : a ∈ lists signal) :
    pubsubSubscribe p activeIsValid signal (some a) = (p, .invalidState) := by
  have hs := PubSub.lt_of_not_rejects hok
  obtain ⟨index, hfind⟩ := Option.ne_none_iff_exists'.mp (fun hnone => (h.findSlot_none hs).mp hnone hmem)
  simp [pubsubSubscribe, hok, hfind]

theorem subscribe_full (h : p.Lists array lists) {activeIsValid : A → Bool} {a : A}
    (hok : ¬ p.rejects activeIsValid signal a) (hmem : a ∉ lists signal)
    (hfull : (lists signal).length = p.maxSubscribers) :
    pubsubSubscribe p activeIsValid signal (some a) = (p, .noMemory) := by
  have hs := PubSub.lt_of_not_rejects hok
  have hfind := (h.findSlot_none hs).mpr hmem
  have hfree := h.findSlot_free hs
  rw [if_neg (by omega)] at hfree
  simp [pubsubSubscribe, hok, hfind, hfree]

theorem subscribe_appends (h : p.Lists array lists) {activeIsValid : A → Bool} {a : A}
    (hok : ¬ p.rejects activeIsValid signal a) (hmem : a ∉ lists signal)
    (hroom : (lists signal).length < p.maxSubscribers) :
    ∃ slots, pubsubSubscribe p activeIsValid signal (some a) = ({ p with slots := slots }, .ok) ∧
      PubSub.Lists { p with slots := slots } array (Function.update lists signal (lists signal ++ [a])) := by
  have hs := PubSub.lt_of_not_rejects hok
  have hfind := (h.findSlot_none hs).mpr hmem
  have hfree := h.findSlot_free hs
  rw [if_pos hroom] at hfree
  refine ⟨Function.update p.slots (p.signalSlots signal + (lists signal).length) (some a),
    by simp [pubsubSubscribe, hok, hfind, hfree], h.rewrite (fun z hz => ?_) hs (fun i hi => ?_) ?_ ?_⟩
  · exact Function.update_of_ne (hz _ hroom) _ _
  · by_cases hlast : i = (lists signal).length
    · subst hlast
      simp
    · rw [Function.update_of_ne (by omega), h.slots signal hs i hi]
      by_cases hlt : i < (lists signal).length
      · rw [List.getElem?_append_left hlt]
      · rw [List.getElem?_eq_none (by omega), List.getElem?_eq_none (by simp; omega)]
  · simp
    omega
  · exact List.nodup_append.mpr ⟨h.nodup signal, by simp, by
      intro x hx y hy
      rintro rfl
      simp only [List.mem_singleton] at hy
      exact hmem (hy ▸ hx)⟩

theorem unsubscribe_absent (h : p.Lists array lists) {activeIsValid : A → Bool} {a : A}
    (hok : ¬ p.rejects activeIsValid signal a) (hmem : a ∉ lists signal) :
    pubsubUnsubscribe p activeIsValid signal (some a) = (p, .invalidState) := by
  have hfind := (h.findSlot_none (PubSub.lt_of_not_rejects hok)).mpr hmem
  simp [pubsubUnsubscribe, hok, hfind]

end PubSub.Lists

omit [DecidableEq A] in
theorem shiftSlots_apply (slots : Nat → Option A) (base index count z : Nat) :
    shiftSlots slots base index count z =
      if base + index ≤ z ∧ z < base + index + count then slots (z + 1) else slots z := by
  induction count generalizing z with
  | zero =>
    rw [if_neg (by omega)]
    rfl
  | succ count ih =>
    simp only [shiftSlots] at ih ⊢
    rw [List.range'_1_concat, List.foldl_append, List.foldl_cons, List.foldl_nil]
    by_cases hz : z = base + (index + count)
    · subst hz
      rw [Function.update_self, ih, if_neg (by omega), if_pos (by omega)]
    · rw [Function.update_of_ne hz, ih]
      by_cases hin : base + index ≤ z ∧ z < base + index + count
      · rw [if_pos hin, if_pos (by omega)]
      · rw [if_neg hin, if_neg (by omega)]

theorem PubSub.Lists.unsubscribe_erases {p : PubSub A} {array : Nat → Option A} {lists : Nat → List A}
    (h : p.Lists array lists) {activeIsValid : A → Bool} {a : A}
    (hok : ¬ p.rejects activeIsValid signal a) (hmem : a ∈ lists signal) :
    ∃ slots, pubsubUnsubscribe p activeIsValid signal (some a) = ({ p with slots := slots }, .ok) ∧
      PubSub.Lists { p with slots := slots } array (Function.update lists signal ((lists signal).erase a)) := by
  have hs := PubSub.lt_of_not_rejects hok
  obtain ⟨index, hfind⟩ := Option.ne_none_iff_exists'.mp (fun hnone => (h.findSlot_none hs).mp hnone hmem)
  obtain ⟨hindex, hget⟩ := h.findSlot_mem hs hfind
  have hlen := h.length_le signal
  have herase : (lists signal).erase a = (lists signal).eraseIdx index := by
    obtain ⟨hlt, hget⟩ := List.getElem?_eq_some_iff.mp hget
    rw [← hget, (h.nodup signal).erase_getElem index hlt]
  refine ⟨Function.update (shiftSlots p.slots (p.signalSlots signal) index (p.maxSubscribers - 1 - index))
      (p.signalSlots signal + (p.maxSubscribers - 1)) none,
    by simp only [pubsubUnsubscribe, if_neg hok, hfind], h.rewrite (fun z hz => ?_) hs (fun i hi => ?_) ?_ ?_⟩
  · rw [Function.update_of_ne (hz _ (by omega)), shiftSlots_apply, if_neg]
    rintro ⟨hle, hlt⟩
    exact hz (z - p.signalSlots signal) (by omega) (by omega)
  · rw [herase, List.getElem?_eraseIdx]
    by_cases hlast : i = p.maxSubscribers - 1
    · subst hlast
      rw [Function.update_self, if_neg (by omega), List.getElem?_eq_none (by omega)]
    · rw [Function.update_of_ne (by omega), shiftSlots_apply]
      by_cases hbefore : i < index
      · rw [if_neg (by omega), if_pos hbefore, h.slots signal hs i hi]
      · rw [if_pos (by omega), if_neg hbefore, Nat.add_assoc, h.slots signal hs (i + 1) (by omega)]
  · exact le_trans (List.length_erase_le ..) hlen
  · exact (h.nodup signal).erase a

omit [DecidableEq A] in
theorem filterMap_getElem? {l : List A} {n : Nat} (h : l.length ≤ n) :
    (List.range n).filterMap (fun i => l[i]?) = l := by
  have htake : (List.range n).filterMap (fun i => l[i]?) = l.take n := by
    clear h
    induction n with
    | zero => simp
    | succ n ih =>
      rw [List.range_succ, List.filterMap_append, ih, List.take_add_one]
      cases hget : l[n]? with
      | none => simp [hget]
      | some x => simp [hget]
  rw [htake, List.take_of_length_le h]

omit [DecidableEq A] in
theorem PubSub.Lists.snapshot_eq {p : PubSub A} {array : Nat → Option A} {lists : Nat → List A}
    (h : p.Lists array lists) (hs : signal < p.signalCount) : p.snapshot signal = lists signal := by
  have hslots : ∀ i ∈ List.range p.maxSubscribers, p.slots (p.signalSlots signal + i) = (lists signal)[i]? :=
    fun i hi => h.slots signal hs i (List.mem_range.mp hi)
  rw [PubSub.snapshot, List.filterMap_congr hslots, filterMap_getElem? (h.length_le signal)]

omit [DecidableEq A] in
theorem pubsubInit_lists {p : PubSub A} {storage : Nat} {array : Nat → Option A} {signalCount maxSubscribers : Nat}
    (h : (pubsubInit p storage array signalCount maxSubscribers).2 = .ok) :
    (pubsubInit p storage array signalCount maxSubscribers).1.Lists array (fun _ => []) := by
  rw [pubsubInit] at h ⊢
  by_cases hargs : storage = 0 ∨ signalCount ≤ sigUser ∨ signalCount > maxSignals ∨ maxSubscribers = 0 ∨
      maxSubscribers > maxActiveObjects
  · rw [if_pos hargs] at h
    cases h
  by_cases hvalid : p.isValid = true
  · rw [if_neg hargs, if_pos hvalid] at h
    cases h
  rw [if_neg hargs, if_neg hvalid]
  simp only [not_or] at hargs
  obtain ⟨hstorage, hcount, -, hmax, hsmall⟩ := hargs
  refine ⟨?_, fun signal hs i hi => ?_, fun signal => Nat.zero_le _, fun signal => List.nodup_nil, fun i hi => ?_⟩
  · simp only [PubSub.isValid, beq_self_eq_true, Bool.true_and, Bool.and_eq_true, bne_iff_ne, decide_eq_true_iff]
    exact ⟨⟨⟨hstorage, by omega⟩, by omega⟩, by omega⟩
  · exact if_pos (PubSub.Lists.slot_lt hs hi)
  · exact if_neg (Nat.not_lt.mpr hi)

end Hairtos
