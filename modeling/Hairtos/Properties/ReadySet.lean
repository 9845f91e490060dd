import Hairtos.Scheduler
import Hairtos.Library.Runs
import Mathlib.Data.Set.Card

namespace Hairtos

open Library

variable {N : Type}

inductive SchedulerOp (N : Type)
  | addReady (n : N)
  | removeReady (n : N)
  | yieldCurrent (n : N)
  | selectHighest
  deriving Repr

inductive SchedulerAnswer (N : Type)
  | status (s : Status)
  | node (n : Option N)
  deriving DecidableEq, Repr

abbrev Fifos (N : Type) := Nat → List N

def Fifos.oldest (cfg : Config) (fifos : Fifos N) : Option N :=
  ((List.range cfg.priorityCount).find? (fun p => !(fifos p).isEmpty)).bind (fun p => (fifos p).head?)

theorem Fifos.oldest_of_first {cfg : Config} {fifos : Fifos N} {p : Nat} {n : N} {xs : List N}
    (hlt : p < cfg.priorityCount) (hp : fifos p = n :: xs) (hmin : ∀ q < p, fifos q = []) :
    fifos.oldest cfg = some n := by
  have hfind : (List.range cfg.priorityCount).find? (fun p => !(fifos p).isEmpty) = some p := by
    rw [List.find?_range_eq_some]
    exact ⟨by simp [hp], List.mem_range.mpr hlt, fun q hq => by simp [hmin q hq]⟩
  rw [Fifos.oldest, hfind, Option.bind_some, hp, List.head?_cons]

theorem Fifos.oldest_of_empty {cfg : Config} {fifos : Fifos N} (h : ∀ p, fifos p = []) : fifos.oldest cfg = none := by
  simp [Fifos.oldest, h]

variable [DecidableEq N]

def fifosStep (cfg : Config) (priority : N → Nat) (fifos : Fifos N) : SchedulerOp N → Fifos N × SchedulerAnswer N
  | .addReady n =>
    if cfg.priorityCount ≤ priority n then (fifos, .status .invalidArgument)
    else if n ∈ fifos (priority n) then (fifos, .status .invalidState)
    else (Function.update fifos (priority n) (fifos (priority n) ++ [n]), .status .ok)
  | .removeReady n =>
    if cfg.priorityCount ≤ priority n then (fifos, .status .invalidArgument)
    else if n ∉ fifos (priority n) then (fifos, .status .invalidState)
    else (Function.update fifos (priority n) ((fifos (priority n)).erase n), .status .ok)
  | .yieldCurrent n =>
    if fifos.oldest cfg ≠ some n then (fifos, .status .invalidState)
    else (Function.update fifos (priority n) ((fifos (priority n)).tail ++ [n]), .status .ok)
  | .selectHighest => (fifos, .node (fifos.oldest cfg))

def schedulerStep (cfg : Config) (set : ReadySet N) : SchedulerOp N → ReadySet N × SchedulerAnswer N
  | .addReady n => ((schedulerAddReady cfg set n).1, .status (schedulerAddReady cfg set n).2)
  | .removeReady n => ((schedulerRemoveReady cfg set n).1, .status (schedulerRemoveReady cfg set n).2)
  | .yieldCurrent n => ((schedulerYieldCurrent cfg set n).1, .status (schedulerYieldCurrent cfg set n).2)
  | .selectHighest => (set, .node (schedulerSelectHighest cfg set))

namespace ReadySet

variable {cfg : Config} {set : ReadySet N}

omit [DecidableEq N] in
theorem WellFormed.select_cases (wf : set.WellFormed cfg) :
    (schedulerSelectHighest cfg set = none ∧ ∀ p, set.queues.seq p = []) ∨
      ∃ p n xs, schedulerSelectHighest cfg set = some n ∧ set.queues.seq p = n :: xs ∧
        ∀ q < p, set.queues.seq q = [] := by
  by_cases h : ∀ p, set.queues.seq p = []
  · left
    have hcount : set.count = 0 := by simp [wf.count, h]
    exact ⟨by simp [schedulerSelectHighest, readySetPeekHighest, hcount], h⟩
  · right
    push Not at h
    obtain ⟨p, hp⟩ := h
    obtain ⟨q, n, xs, -, hq, hmin⟩ := WellFormed.exists_first hp
    exact ⟨q, n, xs, wf.peekHighest_eq hq hmin, hq, hmin⟩

omit [DecidableEq N] in
theorem WellFormed.select_eq_oldest (wf : set.WellFormed cfg) :
    schedulerSelectHighest cfg set = Fifos.oldest cfg set.queues.seq := by
  rcases wf.select_cases with ⟨hsel, hempty⟩ | ⟨p, n, xs, hsel, hp, hmin⟩
  · rw [hsel, Fifos.oldest_of_empty hempty]
  · rw [hsel, Fifos.oldest_of_first (wf.bound p (by simp [hp])) hp hmin]

theorem WellFormed.count_eq_ncard (wf : set.WellFormed cfg) : set.count = {n | set.queues.host n ≠ none}.ncard := by
  have hlinked : {n | set.queues.host n ≠ none} =
      ((Finset.range cfg.priorityCount).biUnion (fun p => (set.queues.seq p).toFinset) : Finset N) := by
    ext n
    simp only [Set.mem_ofPred_eq, Finset.coe_biUnion, Finset.coe_range, List.coe_toFinset, Set.mem_iUnion, Set.mem_Iio]
    constructor
    · intro h
      obtain ⟨p, hp⟩ := Option.ne_none_iff_exists'.mp h
      have hmem := (set.queues.mem_seq p n).mpr hp
      exact ⟨p, wf.bound p (List.ne_nil_of_mem hmem), hmem⟩
    · rintro ⟨p, -, hmem⟩
      simp [set.queues.host_of_mem hmem]
  rw [hlinked, Set.ncard_coe_finset, Finset.card_biUnion, wf.count]
  · exact Finset.sum_congr rfl (fun p _ => (List.toFinset_card_of_nodup (set.queues.nodup p)).symm)
  · intro p _ q _ hpq
    apply Finset.disjoint_left.mpr
    intro n hp hq
    rw [List.mem_toFinset] at hp hq
    exact hpq (Option.some.inj ((set.queues.host_of_mem hp).symm.trans (set.queues.host_of_mem hq)))

omit [DecidableEq N] in
theorem WellFormed.linked_iff (wf : set.WellFormed cfg) (n : N) :
    n ∈ set.queues.seq (set.priority n) ↔ set.queues.host n ≠ none := by
  rw [set.queues.mem_seq]
  constructor
  · intro h
    simp [h]
  · intro h
    obtain ⟨p, hp⟩ := Option.ne_none_iff_exists'.mp h
    rw [wf.hosted n p hp, hp]

structure Shows (cfg : Config) (priority : N → Nat) (set : ReadySet N) (fifos : Fifos N) : Prop where
  wellFormed : set.WellFormed cfg
  queues : set.queues.seq = fifos
  priority : set.priority = priority

theorem addReady_refused {n : N} (h : (schedulerAddReady cfg set n).2 ≠ .ok) :
    (schedulerAddReady cfg set n).1 = set := by
  simp only [schedulerAddReady, readySetInsert] at h ⊢
  split_ifs at h ⊢ <;> simp_all

theorem removeReady_refused {n : N} (h : (schedulerRemoveReady cfg set n).2 ≠ .ok) :
    (schedulerRemoveReady cfg set n).1 = set := by
  simp only [schedulerRemoveReady, readySetRemove] at h ⊢
  split_ifs at h ⊢ <;> simp_all

theorem WellFormed.yieldCurrent_eq (wf : set.WellFormed cfg) (n : N) :
    (schedulerSelectHighest cfg set ≠ some n ∧ schedulerYieldCurrent cfg set n = (set, .invalidState)) ∨
      ∃ p xs set', schedulerSelectHighest cfg set = some n ∧ set.queues.seq p = n :: xs ∧
        (∀ q < p, set.queues.seq q = []) ∧ schedulerYieldCurrent cfg set n = (set', .ok) ∧ set'.WellFormed cfg ∧
        set'.priority = set.priority ∧ set'.queues.seq = Function.update set.queues.seq p (xs ++ [n]) := by
  by_cases hsel : schedulerSelectHighest cfg set = some n
  · right
    obtain ⟨p, xs, hp, hmin⟩ := wf.selectHighest_eq_some hsel
    obtain ⟨set', hyield, wf', hpriority, -, hseq⟩ := schedulerYieldCurrent_spec wf hp hmin
    exact ⟨p, xs, set', hsel, hp, hmin, hyield, wf', hpriority, hseq⟩
  · exact Or.inl ⟨hsel, by simp [schedulerYieldCurrent, hsel]⟩

variable {priority : N → Nat} {fifos : Fifos N}

namespace Shows

theorem addReady (h : set.Shows cfg priority fifos) (n : N) :
    (schedulerStep cfg set (.addReady n)).1.Shows cfg priority (fifosStep cfg priority fifos (.addReady n)).1 ∧
      (schedulerStep cfg set (.addReady n)).2 = (fifosStep cfg priority fifos (.addReady n)).2 := by
  obtain ⟨wf, rfl, rfl⟩ := h
  simp only [schedulerStep, fifosStep, wf.linked_iff]
  by_cases hp : cfg.priorityCount ≤ set.priority n
  · have hrefused : schedulerAddReady cfg set n = (set, .invalidArgument) := by
      simp [schedulerAddReady, readySetInsert, priorityIsValid, hp]
    simp only [hrefused, hp, ↓reduceIte]
    exact ⟨⟨wf, rfl, rfl⟩, trivial⟩
  · by_cases hn : set.queues.host n = none
    · obtain ⟨set', hadd, wf', hpriority, -, hseq⟩ := schedulerAddReady_spec wf n (not_le.mp hp) hn
      simp only [hadd, hp, hn, ↓reduceIte, ne_eq, not_true_eq_false]
      exact ⟨⟨wf', hseq, hpriority⟩, trivial⟩
    · have hrefused : schedulerAddReady cfg set n = (set, .invalidState) := by
        simp [schedulerAddReady, readySetInsert, priorityIsValid, hp, listPushBack, hn]
      simp only [hrefused, hp, hn, ↓reduceIte, ne_eq, not_false_eq_true]
      exact ⟨⟨wf, rfl, rfl⟩, trivial⟩

theorem removeReady (h : set.Shows cfg priority fifos) (n : N) :
    (schedulerStep cfg set (.removeReady n)).1.Shows cfg priority (fifosStep cfg priority fifos (.removeReady n)).1 ∧
      (schedulerStep cfg set (.removeReady n)).2 = (fifosStep cfg priority fifos (.removeReady n)).2 := by
  obtain ⟨wf, rfl, rfl⟩ := h
  simp only [schedulerStep, fifosStep]
  by_cases hp : cfg.priorityCount ≤ set.priority n
  · have hrefused : schedulerRemoveReady cfg set n = (set, .invalidArgument) := by
      simp [schedulerRemoveReady, readySetRemove, priorityIsValid, hp]
    simp only [hrefused, hp, ↓reduceIte]
    exact ⟨⟨wf, rfl, rfl⟩, trivial⟩
  · by_cases hn : n ∈ set.queues.seq (set.priority n)
    · have hhost := set.queues.host_of_mem hn
      obtain ⟨set', hremove, wf', hpriority, hqueues⟩ := schedulerRemoveReady_spec wf n hhost
      simp only [hremove, hp, hn, ↓reduceIte, not_true_eq_false]
      refine ⟨⟨wf', ?_, hpriority⟩, trivial⟩
      funext q
      by_cases hq : q = set.priority n
      · simp [hq, hqueues, ListFamily.unlink_seq]
      · have hne : set.queues.host n ≠ some q := by
          rw [hhost]
          exact fun heq => hq (Option.some.inj heq).symm
        rw [Function.update_of_ne hq, hqueues, set.queues.unlink_seq_of_ne hne]
    · have hhost : set.queues.host n ≠ some (set.priority n) := mt (set.queues.mem_seq _ _).mpr hn
      have hrefused : schedulerRemoveReady cfg set n = (set, .invalidState) := by
        simp [schedulerRemoveReady, readySetRemove, priorityIsValid, hp, hhost]
      simp only [hrefused, hp, hn, ↓reduceIte, not_false_eq_true]
      exact ⟨⟨wf, rfl, rfl⟩, trivial⟩

theorem yieldCurrent (h : set.Shows cfg priority fifos) (n : N) :
    (schedulerStep cfg set (.yieldCurrent n)).1.Shows cfg priority
      (fifosStep cfg priority fifos (.yieldCurrent n)).1 ∧
      (schedulerStep cfg set (.yieldCurrent n)).2 = (fifosStep cfg priority fifos (.yieldCurrent n)).2 := by
  obtain ⟨wf, rfl, rfl⟩ := h
  simp only [schedulerStep, fifosStep, ← wf.select_eq_oldest]
  rcases wf.yieldCurrent_eq n with ⟨hsel, hyield⟩ | ⟨p, xs, set', hsel, hp, -, hyield, wf', hpriority, hseq⟩
  · simp only [hyield, hsel, ↓reduceIte, ne_eq, not_false_eq_true]
    exact ⟨⟨wf, rfl, rfl⟩, trivial⟩
  · have hlevel : set.priority n = p := wf.hosted n p (set.queues.host_of_head hp)
    simp only [hyield, hsel, ↓reduceIte, ne_eq, not_true_eq_false, hlevel, hp, List.tail_cons]
    exact ⟨⟨wf', hseq, hpriority⟩, trivial⟩

theorem step (h : set.Shows cfg priority fifos) (op : SchedulerOp N) :
    (schedulerStep cfg set op).1.Shows cfg priority (fifosStep cfg priority fifos op).1 ∧
      (schedulerStep cfg set op).2 = (fifosStep cfg priority fifos op).2 := by
  cases op with
  | addReady n => exact h.addReady n
  | removeReady n => exact h.removeReady n
  | yieldCurrent n => exact h.yieldCurrent n
  | selectHighest =>
    refine ⟨h, congrArg SchedulerAnswer.node ?_⟩
    rw [h.wellFormed.select_eq_oldest, h.queues]

end Shows

structure Refines (cfg : Config) (set : ReadySet N) (fifos : Fifos N) : Prop where
  queues : set.queues.seq = fifos
  linked : ∀ n p, set.queues.host n = some p ↔ n ∈ fifos p
  bitmap : ∀ p, set.bitmap.getLsbD p = true ↔ fifos p ≠ []
  count : set.count = {n | set.queues.host n ≠ none}.ncard
  total : set.count = ∑ p ∈ Finset.range cfg.priorityCount, (fifos p).length
  selects : ∀ n, schedulerSelectHighest cfg set = some n ↔ ∃ p xs, fifos p = n :: xs ∧ ∀ q < p, fifos q = []
  idle : schedulerSelectHighest cfg set = none ↔ ∀ p, fifos p = []
  yields : ∀ n, (schedulerYieldCurrent cfg set n).2 = .ok ↔ schedulerSelectHighest cfg set = some n
  rotates : ∀ n p xs, fifos p = n :: xs → (∀ q < p, fifos q = []) →
    (schedulerYieldCurrent cfg set n).1.queues.seq = Function.update fifos p (xs ++ [n])
  refused : ∀ op s, (schedulerStep cfg set op).2 = .status s → s ≠ .ok → (schedulerStep cfg set op).1 = set

theorem WellFormed.step_refused (wf : set.WellFormed cfg) (op : SchedulerOp N) {s : Status}
    (h : (schedulerStep cfg set op).2 = .status s) (hs : s ≠ .ok) : (schedulerStep cfg set op).1 = set := by
  cases op with
  | addReady n =>
    cases h
    exact addReady_refused hs
  | removeReady n =>
    cases h
    exact removeReady_refused hs
  | yieldCurrent n =>
    cases h
    rcases wf.yieldCurrent_eq n with ⟨-, hyield⟩ | ⟨_, _, _, -, -, -, hyield, -⟩
    · simp [schedulerStep, hyield]
    · simp [hyield] at hs
  | selectHighest => rfl

theorem Shows.refines (h : set.Shows cfg priority fifos) : set.Refines cfg fifos := by
  obtain ⟨wf, rfl, rfl⟩ := h
  refine ⟨rfl, fun n p => (set.queues.mem_seq p n).symm, wf.bitmap, wf.count_eq_ncard, wf.count, ?_, ?_, ?_, ?_,
    fun op s => wf.step_refused op⟩
  · intro n
    exact ⟨wf.selectHighest_eq_some, fun ⟨p, xs, hp, hmin⟩ => wf.peekHighest_eq hp hmin⟩
  · rcases wf.select_cases with ⟨hsel, hempty⟩ | ⟨p, n, xs, hsel, hp, -⟩
    · exact iff_of_true hsel hempty
    · refine iff_of_false (by simp [hsel]) ?_
      intro hempty
      simp [hempty p] at hp
  · intro n
    rcases wf.yieldCurrent_eq n with ⟨hsel, hyield⟩ | ⟨_, _, _, hsel, -, -, hyield, -⟩
    · exact iff_of_false (by simp [hyield]) hsel
    · exact iff_of_true (by simp [hyield]) hsel
  · intro n p xs hp hmin
    obtain ⟨set', hyield, -, -, -, hseq⟩ := schedulerYieldCurrent_spec wf hp hmin
    rw [hyield, hseq]

end ReadySet

/-- Whatever is called on whatever nodes, the ready set answers as a family of queues in order of arrival does and shows
its queues. -/
theorem readySet_refines_fifos (cfg : Config) (priority : N → Nat) (ops : List (SchedulerOp N)) :
    (answers (schedulerStep cfg) (readySetInit priority) ops).2 =
        (answers (fifosStep cfg priority) (fun _ => []) ops).2 ∧
      (answers (schedulerStep cfg) (readySetInit priority) ops).1.Refines cfg
        (answers (fifosStep cfg priority) (fun _ => []) ops).1 := by
  have hinit : (readySetInit priority).Shows cfg priority (fun _ => []) :=
    ⟨ReadySet.WellFormed.init cfg priority, rfl, rfl⟩
  obtain ⟨hend, hanswers⟩ :=
    answers_simulate (ReadySet.Shows cfg priority) (fun _ _ op h => h.step op) hinit ops
  exact ⟨hanswers, hend.refines⟩

end Hairtos
