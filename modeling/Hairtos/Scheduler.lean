import Hairtos.List
import Mathlib.Algebra.BigOperators.Group.Finset.Basic
import Mathlib.Algebra.Order.BigOperators.Group.Finset
import Mathlib.Data.BitVec

/-!
The ready set and the fixed-priority policy of `hr_scheduler.c`. `priority` collects the
`priority` fields of the ready nodes.
-/

namespace Hairtos

open Library

variable {p : Nat}

variable {N : Type}

structure ReadySet (N : Type) where
  queues : ListFamily Nat N
  priority : N → Nat
  bitmap : BitVec 32
  count : Nat

def readySetInit (priority : N → Nat) : ReadySet N := ⟨.empty, priority, 0#32, 0⟩

def priorityIsValid (cfg : Config) (priority : Nat) : Bool := priority < cfg.priorityCount

def priorityMask (priority : Nat) : BitVec 32 := 1#32 <<< priority

def readySetHighestPriority (cfg : Config) (set : ReadySet N) : Nat :=
  ((List.range cfg.priorityCount).find? (fun p => set.bitmap &&& priorityMask p ≠ 0#32)).getD cfg.priorityCount

def readySetPeekHighest (cfg : Config) (set : ReadySet N) : Option N :=
  if set.count = 0 then none
  else
    let priority := readySetHighestPriority cfg set
    if !priorityIsValid cfg priority then none else listFront set.queues priority

def readySetValidate [DecidableEq N] (cfg : Config) (set : ReadySet N) : Bool :=
  let levels := List.range cfg.priorityCount
  let expected := levels.foldl (fun b p => if listIsEmpty set.queues p then b else b ||| priorityMask p) 0#32
  levels.all (fun p => listValidate set.queues p) &&
    ((levels.map (listSize set.queues)).sum == set.count) && (expected == set.bitmap)

def schedulerSelectHighest (cfg : Config) (set : ReadySet N) : Option N := readySetPeekHighest cfg set

def schedulerShouldPreempt (cfg : Config) (set : ReadySet N) (current : N) : Bool :=
  if !priorityIsValid cfg (set.priority current) then false
  else
    match schedulerSelectHighest cfg set with
    | none => false
    | some selected => set.priority selected < set.priority current

def schedulerHasEqualPriorityPeer (cfg : Config) (set : ReadySet N) (current : N) : Bool :=
  if !priorityIsValid cfg (set.priority current) then false
  else
    set.queues.host current = some (set.priority current) &&
      decide (1 < listSize set.queues (set.priority current))

def schedulerReadyCount (set : ReadySet N) : Nat := set.count

theorem priorityMask_getLsbD (p q : Nat) (hp : p < 32) : (priorityMask p).getLsbD q = decide (q = p) := by
  simp only [priorityMask, BitVec.getLsbD_shiftLeft, BitVec.getLsbD_one]
  by_cases h : q = p
  · simp [h, hp]
  · simp only [h, decide_false]
    by_cases hq : q < p
    · simp [hq]
    · have : q - p ≠ 0 := by omega
      simp [this]

theorem and_priorityMask_ne_zero (b : BitVec 32) (p : Nat) (hp : p < 32) :
    b &&& priorityMask p ≠ 0#32 ↔ b.getLsbD p = true := by
  constructor
  · intro h
    by_contra hb
    apply h
    apply BitVec.eq_of_getLsbD_eq
    intro i hi
    rw [BitVec.getLsbD_and, priorityMask_getLsbD p i hp]
    by_cases hip : i = p
    · subst hip
      simp [Bool.not_eq_true _ ▸ hb]
    · simp [hip]
  · intro h hz
    have := congrArg (fun v => v.getLsbD p) hz
    simp [priorityMask_getLsbD p p hp, h] at this

structure ReadySet.WellFormed (cfg : Config) (set : ReadySet N) : Prop where
  bitmap : ∀ p, set.bitmap.getLsbD p = true ↔ set.queues.seq p ≠ []
  bound : ∀ p, set.queues.seq p ≠ [] → p < cfg.priorityCount
  count : set.count = ∑ p ∈ Finset.range cfg.priorityCount, (set.queues.seq p).length
  hosted : ∀ n p, set.queues.host n = some p → set.priority n = p

namespace ReadySet.WellFormed

variable {cfg : Config} {set : ReadySet N}

theorem init (cfg : Config) (priority : N → Nat) : (readySetInit priority).WellFormed cfg where
  bitmap := by simp [readySetInit]
  bound := by simp [readySetInit]
  count := by simp [readySetInit]
  hosted := by simp [readySetInit]

theorem highestPriority_eq (wf : set.WellFormed cfg) (hp : set.queues.seq p ≠ [])
    (hmin : ∀ q < p, set.queues.seq q = []) : readySetHighestPriority cfg set = p := by
  have hlt := wf.bound p hp
  have hfind : (List.range cfg.priorityCount).find? (fun p => set.bitmap &&& priorityMask p ≠ 0#32) = some p := by
    rw [List.find?_range_eq_some]
    refine ⟨?_, List.mem_range.mpr hlt, ?_⟩
    · rw [decide_eq_true_eq, and_priorityMask_ne_zero _ _ (hlt.trans_le cfg.priorityCount_le), wf.bitmap]
      exact hp
    · intro q hq
      rw [Bool.not_eq_true', decide_eq_false_iff_not,
        and_priorityMask_ne_zero _ _ (hq.trans (hlt.trans_le cfg.priorityCount_le)), wf.bitmap]
      exact not_not.mpr (hmin q hq)
  simp only [readySetHighestPriority, hfind, Option.getD_some]

theorem count_pos (wf : set.WellFormed cfg) (hp : set.queues.seq p ≠ []) : 0 < set.count := by
  rw [wf.count]
  calc 0 < (set.queues.seq p).length := List.length_pos_iff.mpr hp
    _ ≤ _ := Finset.single_le_sum (f := fun q => (set.queues.seq q).length) (fun _ _ => Nat.zero_le _)
      (Finset.mem_range.mpr (wf.bound p hp))

theorem peekHighest_eq (wf : set.WellFormed cfg) {n : N} {xs : List N}
    (hp : set.queues.seq p = n :: xs) (hmin : ∀ q < p, set.queues.seq q = []) :
    readySetPeekHighest cfg set = some n := by
  have hne : set.queues.seq p ≠ [] := by simp [hp]
  have hc := wf.count_pos hne
  have hlt := wf.bound p hne
  simp [readySetPeekHighest, hc.ne', wf.highestPriority_eq hne hmin, priorityIsValid, hlt, listFront, hp]

theorem exists_first {set : ReadySet N} (hp : set.queues.seq p ≠ []) :
    ∃ q n xs, q ≤ p ∧ set.queues.seq q = n :: xs ∧ ∀ r < q, set.queues.seq r = [] := by
  classical
  have hex : ∃ q, set.queues.seq q ≠ [] := ⟨p, hp⟩
  obtain ⟨n, xs, hq⟩ := List.exists_cons_of_ne_nil (Nat.find_spec hex)
  refine ⟨Nat.find hex, n, xs, Nat.find_min' hex hp, hq, ?_⟩
  intro r hr
  exact not_not.mp (Nat.find_min hex hr)

theorem selectHighest_eq_some (wf : set.WellFormed cfg) {n : N} (h : schedulerSelectHighest cfg set = some n) :
    ∃ p xs, set.queues.seq p = n :: xs ∧ ∀ q < p, set.queues.seq q = [] := by
  have hne : ∃ p, set.queues.seq p ≠ [] := by
    by_contra hall
    push Not at hall
    have hc : set.count = 0 := by simp [wf.count, hall]
    simp [schedulerSelectHighest, readySetPeekHighest, hc] at h
  obtain ⟨p, hp⟩ := hne
  obtain ⟨q, m, xs, -, hq, hmin⟩ := exists_first hp
  rw [schedulerSelectHighest, wf.peekHighest_eq hq hmin] at h
  obtain rfl := Option.some.inj h
  exact ⟨q, xs, hq, hmin⟩

theorem exists_selectHighest (wf : set.WellFormed cfg) {m : N} (hm : set.queues.host m ≠ none) :
    ∃ n, schedulerSelectHighest cfg set = some n := by
  obtain ⟨p, hp⟩ := Option.ne_none_iff_exists'.mp hm
  have hne : set.queues.seq p ≠ [] := List.ne_nil_of_mem ((set.queues.mem_seq p m).mpr hp)
  obtain ⟨q, n, xs, -, hq, hmin⟩ := exists_first hne
  exact ⟨n, wf.peekHighest_eq hq hmin⟩

theorem selectHighest_le (wf : set.WellFormed cfg) {n m : N} (h : schedulerSelectHighest cfg set = some n)
    (hm : set.queues.host m ≠ none) : set.priority n ≤ set.priority m := by
  obtain ⟨p, xs, hp, hmin⟩ := wf.selectHighest_eq_some h
  obtain ⟨q, hq⟩ := Option.ne_none_iff_exists'.mp hm
  rw [wf.hosted n p (set.queues.host_of_head hp), wf.hosted m q hq]
  by_contra hlt
  have hnil := hmin q (not_le.mp hlt)
  have hmem := (set.queues.mem_seq q m).mpr hq
  simp [hnil] at hmem

theorem shouldPreempt_iff (wf : set.WellFormed cfg) {c : N} (hc : set.priority c < cfg.priorityCount) :
    schedulerShouldPreempt cfg set c = true ↔
      ∃ m, set.queues.host m ≠ none ∧ set.priority m < set.priority c := by
  simp only [schedulerShouldPreempt, priorityIsValid, hc, decide_true, Bool.not_true, Bool.false_eq_true, ↓reduceIte]
  constructor
  · intro h
    split at h
    · simp at h
    · rename_i n hn
      obtain ⟨p, xs, hp, -⟩ := wf.selectHighest_eq_some hn
      exact ⟨n, by simp [set.queues.host_of_head hp], by simpa using h⟩
  · rintro ⟨m, hm, hlt⟩
    obtain ⟨n, hn⟩ := wf.exists_selectHighest hm
    rw [hn]
    simpa using (wf.selectHighest_le hn hm).trans_lt hlt

theorem foldl_mask (f : Nat → Bool) (n : Nat) (hn : n ≤ 32) (q : Nat) :
    ((List.range n).foldl (fun b p => if f p then b else b ||| priorityMask p) 0#32).getLsbD q =
      (decide (q < n) && !f q) := by
  induction n with
  | zero => simp
  | succ n ih =>
    have ih := ih (by omega)
    rw [List.range_succ, List.foldl_append, List.foldl_cons, List.foldl_nil]
    split_ifs with hf
    · rw [ih]
      by_cases hq : q = n
      · simp [hq, hf]
      · have : q < n + 1 ↔ q < n := by omega
        simp [this]
    · rw [BitVec.getLsbD_or, ih, priorityMask_getLsbD n q (by omega)]
      by_cases hq : q = n
      · simp [hq, hf]
      · have : q < n + 1 ↔ q < n := by omega
        simp [hq, this]

theorem validate [DecidableEq N] (wf : set.WellFormed cfg) : readySetValidate cfg set = true := by
  have hsum : ((List.range cfg.priorityCount).map (listSize set.queues)).sum = set.count := by
    rw [wf.count]
    rfl
  have hmap : (List.range cfg.priorityCount).foldl
      (fun b p => if listIsEmpty set.queues p then b else b ||| priorityMask p) 0#32 = set.bitmap := by
    apply BitVec.eq_of_getLsbD_eq
    intro q hq
    rw [foldl_mask _ _ cfg.priorityCount_le, Bool.eq_iff_iff, wf.bitmap]
    simp only [listIsEmpty, Bool.and_eq_true, decide_eq_true_eq, Bool.not_eq_true', List.isEmpty_eq_false_iff]
    exact ⟨fun h => h.2, fun h => ⟨wf.bound q h, h⟩⟩
  simp [readySetValidate, hsum, hmap, listValidate_eq_true]

end ReadySet.WellFormed

theorem sum_length_of_step {f g : Nat → List N} {n : Nat} (hp : p < n) (hne : ∀ q, q ≠ p → g q = f q)
    (hlen : (g p).length = (f p).length + 1) :
    ∑ q ∈ Finset.range n, (g q).length = ∑ q ∈ Finset.range n, (f q).length + 1 := by
  have hmem := Finset.mem_range.mpr hp
  rw [← Finset.add_sum_erase _ _ hmem, ← Finset.add_sum_erase _ (fun q => (f q).length) hmem, hlen]
  have hsum : ∑ q ∈ (Finset.range n).erase p, (g q).length = ∑ q ∈ (Finset.range n).erase p, (f q).length :=
    Finset.sum_congr rfl (fun q hq => by rw [hne q (Finset.ne_of_mem_erase hq)])
  omega

variable [DecidableEq N]

def readySetInsert (cfg : Config) (set : ReadySet N) (n : N) : ReadySet N × Status :=
  if !priorityIsValid cfg (set.priority n) then (set, .invalidArgument)
  else
    let (queues, status) := listPushBack set.queues (set.priority n) n
    if status ≠ .ok then (set, status)
    else
      ({ set with
          queues := queues
          bitmap := set.bitmap ||| priorityMask (set.priority n)
          count := set.count + 1 }, .ok)

def readySetRemove (cfg : Config) (set : ReadySet N) (n : N) : ReadySet N × Status :=
  if !priorityIsValid cfg (set.priority n) then (set, .invalidArgument)
  else if set.queues.host n ≠ some (set.priority n) then (set, .invalidState)
  else
    let (queues, status) := listRemove set.queues n
    if status ≠ .ok then (set, status)
    else
      ({ set with
          queues := queues
          count := set.count - 1
          bitmap := if listIsEmpty queues (set.priority n) then set.bitmap &&& ~~~priorityMask (set.priority n)
            else set.bitmap }, .ok)

def readySetRotateHighest (cfg : Config) (set : ReadySet N) : ReadySet N × Status :=
  if set.count = 0 then (set, .invalidState)
  else
    let priority := readySetHighestPriority cfg set
    if !priorityIsValid cfg priority then (set, .internal)
    else if listSize set.queues priority < 2 then (set, .ok)
    else
      match listPopFront set.queues priority with
      | (queues, none) => ({ set with queues := queues }, .internal)
      | (queues, some n) =>
        let (queues, status) := listPushBack queues priority n
        ({ set with queues := queues }, status)

def schedulerAddReady (cfg : Config) (set : ReadySet N) (n : N) : ReadySet N × Status := readySetInsert cfg set n

def schedulerRemoveReady (cfg : Config) (set : ReadySet N) (n : N) : ReadySet N × Status := readySetRemove cfg set n

def schedulerYieldCurrent (cfg : Config) (set : ReadySet N) (current : N) : ReadySet N × Status :=
  if schedulerSelectHighest cfg set ≠ some current then (set, .invalidState)
  else readySetRotateHighest cfg set

theorem schedulerAddReady_eq (set : ReadySet N) (n : N)
    (hp : set.priority n < cfg.priorityCount) (hn : set.queues.host n = none) :
    schedulerAddReady cfg set n =
      ({ set with
          queues := set.queues.link _ n _ (List.perm_append_singleton n (set.queues.seq (set.priority n))) hn
          bitmap := set.bitmap ||| priorityMask (set.priority n)
          count := set.count + 1 }, .ok) := by
  simp [schedulerAddReady, readySetInsert, priorityIsValid, hp, listPushBack_ok _ _ _ hn]

theorem schedulerRemoveReady_eq (set : ReadySet N) (n : N)
    (hp : set.priority n < cfg.priorityCount) (hn : set.queues.host n = some (set.priority n)) :
    schedulerRemoveReady cfg set n =
      ({ set with
          queues := set.queues.unlink n
          count := set.count - 1
          bitmap := if listIsEmpty (set.queues.unlink n) (set.priority n)
            then set.bitmap &&& ~~~priorityMask (set.priority n) else set.bitmap }, .ok) := by
  simp [schedulerRemoveReady, readySetRemove, priorityIsValid, hp, hn,
    listRemove_ok set.queues n (by simp [hn])]

theorem schedulerAddReady_spec {set : ReadySet N} (wf : set.WellFormed cfg) (n : N)
    (hp : set.priority n < cfg.priorityCount) (hn : set.queues.host n = none) :
    ∃ set', schedulerAddReady cfg set n = (set', .ok) ∧ set'.WellFormed cfg ∧ set'.priority = set.priority ∧
      set'.queues.host = Function.update set.queues.host n (some (set.priority n)) ∧
      set'.queues.seq = Function.update set.queues.seq (set.priority n) (set.queues.seq (set.priority n) ++ [n]) := by
  refine ⟨_, schedulerAddReady_eq set n hp hn, ⟨?_, ?_, ?_, ?_⟩, rfl, rfl, rfl⟩
  · intro p
    simp only [BitVec.getLsbD_or, Bool.or_eq_true, wf.bitmap,
      priorityMask_getLsbD _ _ (hp.trans_le cfg.priorityCount_le), decide_eq_true_eq, ListFamily.link_seq]
    by_cases h : p = set.priority n
    · simp [h]
    · simp [h]
  · intro p h
    by_cases hpn : p = set.priority n
    · exact hpn ▸ hp
    · simp only [ListFamily.link_seq, ne_eq, hpn, not_false_eq_true, Function.update_of_ne] at h
      exact wf.bound p h
  · simp only [wf.count, ListFamily.link_seq]
    symm
    apply sum_length_of_step hp
    · intro q hq
      exact Function.update_of_ne hq _ _
    · simp
  · intro m p h
    by_cases hm : m = n
    · subst hm
      simpa using h
    · simp only [ListFamily.link_host, ne_eq, hm, not_false_eq_true, Function.update_of_ne] at h
      exact wf.hosted m p h

theorem schedulerRemoveReady_spec {set : ReadySet N} (wf : set.WellFormed cfg) (n : N)
    (hn : set.queues.host n = some (set.priority n)) :
    ∃ set', schedulerRemoveReady cfg set n = (set', .ok) ∧ set'.WellFormed cfg ∧ set'.priority = set.priority ∧
      set'.queues = set.queues.unlink n := by
  have hmem : n ∈ set.queues.seq (set.priority n) := (set.queues.mem_seq _ _).mpr hn
  have hp : set.priority n < cfg.priorityCount := wf.bound _ (List.ne_nil_of_mem hmem)
  have hother : ∀ q, q ≠ set.priority n → (set.queues.unlink n).seq q = set.queues.seq q := by
    intro q hq
    apply ListFamily.unlink_seq_of_ne
    rw [hn]
    exact fun h => hq (Option.some.inj h).symm
  refine ⟨_, schedulerRemoveReady_eq set n hp hn, ⟨?_, ?_, ?_, ?_⟩, rfl, rfl⟩
  · intro p
    by_cases h : p = set.priority n
    · subst h
      cases he : listIsEmpty (set.queues.unlink n) (set.priority n) with
      | true =>
        have hnil : (set.queues.unlink n).seq (set.priority n) = [] := by simpa [listIsEmpty] using he
        rw [hnil]
        simp [priorityMask_getLsbD _ _ (hp.trans_le cfg.priorityCount_le)]
      | false =>
        have hne : (set.queues.unlink n).seq (set.priority n) ≠ [] := by simpa [listIsEmpty] using he
        exact iff_of_true ((wf.bitmap _).mpr (List.ne_nil_of_mem hmem)) hne
    · rw [hother p h, ← wf.bitmap]
      split_ifs
      · simp [priorityMask_getLsbD _ _ (hp.trans_le cfg.priorityCount_le), h]
        intro hb
        by_contra hge
        simp [BitVec.getLsbD_of_ge _ _ (not_lt.mp hge)] at hb
      · rfl
  · intro p h
    by_cases hpn : p = set.priority n
    · exact hpn ▸ hp
    · rw [hother p hpn] at h
      exact wf.bound p h
  · have hsum := sum_length_of_step (f := (set.queues.unlink n).seq) (g := set.queues.seq) hp
      (fun q hq => (hother q hq).symm) (by
        rw [ListFamily.unlink_seq, List.length_erase_of_mem hmem]
        have := List.length_pos_of_mem hmem
        omega)
    simp only [wf.count, hsum, Nat.add_sub_cancel]
  · intro m p h
    by_cases hm : m = n
    · subst hm
      simp at h
    · simp only [ListFamily.unlink_host, ne_eq, hm, not_false_eq_true, Function.update_of_ne] at h
      exact wf.hosted m p h

theorem ReadySet.WellFormed.setPriority {set : ReadySet N} (wf : set.WellFormed cfg) (n : N) (p : Nat)
    (hn : set.queues.host n = none) :
    { set with priority := Function.update set.priority n p }.WellFormed cfg where
  bitmap := wf.bitmap
  bound := wf.bound
  count := wf.count
  hosted := by
    intro m q h
    have hm : m ≠ n := by
      rintro rfl
      simp [hn] at h
    exact (Function.update_of_ne hm p set.priority).trans (wf.hosted m q h)

theorem schedulerYieldCurrent_spec {set : ReadySet N} (wf : set.WellFormed cfg) {n : N}
    {xs : List N} (hp : set.queues.seq p = n :: xs) (hmin : ∀ q < p, set.queues.seq q = []) :
    ∃ set', schedulerYieldCurrent cfg set n = (set', .ok) ∧ set'.WellFormed cfg ∧ set'.priority = set.priority ∧
      set'.queues.host = set.queues.host ∧ set'.queues.seq = Function.update set.queues.seq p (xs ++ [n]) := by
  have hne : set.queues.seq p ≠ [] := by simp [hp]
  have hlt := wf.bound p hne
  have hsel : schedulerSelectHighest cfg set = some n := wf.peekHighest_eq hp hmin
  cases xs with
  | nil =>
    refine ⟨set, ?_, wf, rfl, rfl, ?_⟩
    · simp [schedulerYieldCurrent, hsel, readySetRotateHighest, (wf.count_pos hne).ne',
        wf.highestPriority_eq hne hmin, priorityIsValid, hlt, listSize, hp]
    · rw [List.nil_append, ← hp, Function.update_eq_self]
  | cons y ys =>
    have hhost : set.queues.host n = some p := set.queues.host_of_head hp
    have hn : (set.queues.unlink n).host n = none := by simp
    have htail : (set.queues.unlink n).seq p = y :: ys := by simp [ListFamily.unlink_seq, hp]
    let queues := (set.queues.unlink n).link p n _ (List.perm_append_singleton n _) hn
    have hseq : queues.seq = Function.update set.queues.seq p (y :: ys ++ [n]) := by
      funext q
      by_cases hq : q = p
      · subst hq
        simp [queues, htail]
      · simp only [queues, ListFamily.link_seq, Function.update_of_ne hq]
        apply ListFamily.unlink_seq_of_ne
        rw [hhost]
        exact fun h => hq (Option.some.inj h).symm
    have hhosts : queues.host = set.queues.host := by
      funext m
      by_cases hm : m = n
      · simp [queues, hm, hhost]
      · simp [queues, hm]
    refine ⟨{ set with queues := queues }, ?_, ⟨?_, ?_, ?_, ?_⟩, rfl, hhosts, hseq⟩
    · simp [schedulerYieldCurrent, hsel, readySetRotateHighest, (wf.count_pos hne).ne',
        wf.highestPriority_eq hne hmin, priorityIsValid, hlt, listSize, hp,
        listPopFront_cons _ _ hp, listPushBack_ok _ _ _ hn, queues]
    · intro q
      rw [wf.bitmap, hseq]
      by_cases hq : q = p
      · simp [hq, hp]
      · simp [hq]
    · intro q h
      by_cases hq : q = p
      · exact hq ▸ hlt
      · rw [hseq, Function.update_of_ne hq] at h
        exact wf.bound q h
    · rw [wf.count]
      apply Finset.sum_congr rfl
      intro q hq
      rw [hseq]
      by_cases hqp : q = p
      · simp [hqp, hp]
      · simp [hqp]
    · intro m q h
      rw [hhosts] at h
      exact wf.hosted m q h

end Hairtos
