import Hairtos.Invariant.Run
import Mathlib.Algebra.BigOperators.Ring.Finset

namespace Hairtos

open Library

section

variable {cfg : Config} {k : Kernel}

theorem length_seq_eq_countP {L N : Type} [DecidableEq L] (f : ListFamily L N) {xs : List N}
    (hnodup : xs.Nodup) (hall : ∀ n, f.host n ≠ none → n ∈ xs) (l : L) :
    (f.seq l).length = xs.countP (fun n => f.host n = some l) := by
  rw [List.countP_eq_length_filter]
  apply List.Perm.length_eq
  rw [List.perm_ext_iff_of_nodup (f.nodup l) (hnodup.filter _)]
  intro n
  rw [f.mem_seq, List.mem_filter, decide_eq_true_eq]
  constructor
  · intro hn
    exact ⟨hall n (by simp [hn]), hn⟩
  · exact fun h => h.2

theorem sum_countP_host {N : Type} (host : N → Option Nat) {n : Nat} (xs : List N)
    (hbound : ∀ x p, host x = some p → p < n) :
    ∑ p ∈ Finset.range n, xs.countP (fun x => host x = some p) = xs.countP (fun x => (host x).isSome) := by
  induction xs with
  | nil => simp
  | cons x xs ih =>
    simp only [List.countP_cons, Finset.sum_add_distrib, ih]
    congr 1
    cases hx : host x with
    | none => simp
    | some p =>
      have hp := hbound x p hx
      simp [hp]

theorem Kernel.Sound.readyCount_eq (g : k.Sound cfg) :
    schedulerReadyCount k.scheduler = (k.allTasks.seq ()).countP (fun t => listNodeIsLinked k.scheduler.queues t) := by
  have hall : ∀ t, k.scheduler.queues.host t ≠ none → t ∈ k.allTasks.seq () := by
    intro t ht
    exact registered_mem k ((g.shape t).registered_of_isReady (g.isReady_of_host ht))
  have hbound : ∀ t p, k.scheduler.queues.host t = some p → p < cfg.priorityCount := by
    intro t p ht
    apply g.scheduler.bound
    exact List.ne_nil_of_mem ((k.scheduler.queues.mem_seq p t).mpr ht)
  calc schedulerReadyCount k.scheduler
      = ∑ p ∈ Finset.range cfg.priorityCount, (k.scheduler.queues.seq p).length := g.scheduler.count
    _ = ∑ p ∈ Finset.range cfg.priorityCount,
          (k.allTasks.seq ()).countP (fun t => k.scheduler.queues.host t = some p) :=
        Finset.sum_congr rfl fun p _ => length_seq_eq_countP k.scheduler.queues (k.allTasks.nodup ()) hall p
    _ = (k.allTasks.seq ()).countP (fun t => listNodeIsLinked k.scheduler.queues t) :=
        sum_countP_host k.scheduler.queues.host (k.allTasks.seq ()) hbound

theorem Kernel.Sound.readyLinked_eq (g : k.Sound cfg) (t : TaskRef) :
    listNodeIsLinked k.scheduler.queues t = (k.tasks t).state.isReady := by
  have hhost : k.scheduler.queues.host t = if (k.tasks t).state.isReady then some (k.tasks t).effectivePriority
    else none :=
    (g.shape t).readyHost
  simp only [listNodeIsLinked, hhost]
  split
  · next h => simp [h]
  · next h => simpa using h

theorem Kernel.Good.nodes_of_wait_none (g : k.Good cfg) {t : TaskRef} (hw : (k.tasks t).wait = none) :
    listNodeIsLinked k.waitLists.lists t = false ∧ listNodeIsLinked k.timeoutList.lists t = false ∧
      (k.tasks t).waitKind = .none := by
  have hshape := g.shape t
  have hwait : k.waitLists.lists.host t = none := hshape.waitHost_none hw
  have htimeout : k.timeoutList.lists.host t = none := hshape.timeoutHost_none hw
  have hkind : (k.tasks t).waitKind = ((k.tasks t).wait.map Wait.kind).getD .none := hshape.records.kind
  refine ⟨by simp [listNodeIsLinked, hwait], by simp [listNodeIsLinked, htimeout], ?_⟩
  rw [hkind, hw]
  rfl

theorem Kernel.Good.nodes_of_wait (g : k.Good cfg) {t : TaskRef} (hw : (k.tasks t).wait ≠ none) :
    (k.tasks t).waitKind ≠ .none ∧ (k.tasks t).waitingObject ≠ none ∧
      (if (k.tasks t).waitKind = .delay then
          !listNodeIsLinked k.waitLists.lists t && listNodeIsLinked k.timeoutList.lists t
        else listNodeIsLinked k.waitLists.lists t) = true := by
  obtain ⟨w, hw⟩ := Option.ne_none_iff_exists'.mp hw
  have hshape := g.shape t
  have hrec : (k.tasks t).Records (k.tasks t).wait := hshape.records
  have hhost : k.waitLists.lists.host t = (k.tasks t).wait.bind Wait.waitList := hshape.waitHost_eq
  rw [hw] at hrec hhost
  have hkind : (k.tasks t).waitKind = w.kind := hrec.kind
  have hobject : (k.tasks t).waitingObject = some w.object := hrec.object
  rw [hkind, hobject]
  cases w with
  | delay =>
    have htimeout := Option.ne_none_iff_isSome.mp (g.delays t hw)
    simp [Wait.kind, listNodeIsLinked, hhost, Wait.waitList, htimeout]
  | queueSend q b => simp [Wait.kind, listNodeIsLinked, hhost, Wait.waitList]
  | queueReceive q b => simp [Wait.kind, listNodeIsLinked, hhost, Wait.waitList]
  | semaphoreTake x => simp [Wait.kind, listNodeIsLinked, hhost, Wait.waitList]
  | mutexLock m => simp [Wait.kind, listNodeIsLinked, hhost, Wait.waitList]

theorem kernelValidateTask_eq_true (g : k.Good cfg) {t : TaskRef} (ht : t ∈ k.allTasks.seq ()) :
    kernelValidateTask k t = true := by
  have hh : k.allTasks.host t = some () := k.allTasks.host_of_mem ht
  have hreg : (k.view t).registered = true := by simp [Kernel.view, listNodeIsLinked, hh]
  have hshape := g.shape t
  have hm : (k.tasks t).magic = true := hshape.magic_of_registered hreg
  have hready : k.scheduler.priority t = (k.tasks t).effectivePriority := (hshape.agree hm).1
  have hwait : k.waitLists.priority t = (k.tasks t).effectivePriority := (hshape.agree hm).2
  have hlinked := g.readyLinked_eq t
  obtain ⟨hinvalid, hcreated⟩ : (k.tasks t).state ≠ .invalid ∧ (k.tasks t).state ≠ .created :=
    hshape.registered.mp hreg
  have hwaiting : (k.tasks t).wait ≠ none ↔ (k.tasks t).isWaiting = true := hshape.waiting
  simp only [kernelValidateTask, taskIsValid, hm, hh, hready, hwait, hlinked]
  cases hs : (k.tasks t).state with
  | invalid => exact absurd hs hinvalid
  | created => exact absurd hs hcreated
  | ready =>
    have hnone : (k.tasks t).wait = none := by
      simpa [TaskControlBlock.isWaiting, hs] using hwaiting
    obtain ⟨h1, h2, h3⟩ := g.nodes_of_wait_none hnone
    simp [h1, h2, h3, TaskState.isReady]
  | running =>
    have hnone : (k.tasks t).wait = none := by
      simpa [TaskControlBlock.isWaiting, hs] using hwaiting
    obtain ⟨h1, h2, h3⟩ := g.nodes_of_wait_none hnone
    simp [h1, h2, h3, TaskState.isReady, g.running t hs]
  | blocked =>
    have hsome : (k.tasks t).wait ≠ none := by
      simpa [TaskControlBlock.isWaiting, hs] using hwaiting
    obtain ⟨h1, h2, h3⟩ := g.nodes_of_wait hsome
    simpa [h1, h2, TaskState.isReady] using h3
  | suspended =>
    have hresumes := hshape.resumes hs
    simp only [Kernel.view] at hresumes
    rcases hresumes with hr | hr
    · have hnone : (k.tasks t).wait = none := by
        simpa [TaskControlBlock.isWaiting, hs, hr] using hwaiting
      obtain ⟨h1, h2, h3⟩ := g.nodes_of_wait_none hnone
      simp [hr, h1, h2, h3, TaskState.isReady]
    · have hsome : (k.tasks t).wait ≠ none := by
        simpa [TaskControlBlock.isWaiting, hs, hr] using hwaiting
      obtain ⟨h1, h2, h3⟩ := g.nodes_of_wait hsome
      simpa [hr, h1, h2, TaskState.isReady] using h3

theorem kernelValidateLoop_eq (g : k.Good cfg) (xs : List TaskRef) (hxs : ∀ t ∈ xs, t ∈ k.allTasks.seq ())
    (counts : ValidationCounts) :
    kernelValidateLoop k counts xs = some
      { registered := counts.registered + xs.length
        ready := counts.ready + xs.countP (fun t => (k.tasks t).state.isReady)
        running := counts.running + xs.countP (fun t => (k.tasks t).state = .running) } := by
  induction xs generalizing counts with
  | nil => simp [kernelValidateLoop]
  | cons t xs ih =>
    have ht := kernelValidateTask_eq_true g (hxs t List.mem_cons_self)
    simp only [kernelValidateLoop, ht, Bool.not_true, Bool.false_eq_true, ↓reduceIte]
    rw [ih (fun u hu => hxs u (List.mem_cons_of_mem t hu))]
    simp only [List.length_cons, List.countP_cons, Option.some.injEq, ValidationCounts.mk.injEq]
    refine ⟨by omega, ?_, ?_⟩
    · simp only [TaskState.isReady]
      cases (k.tasks t).state <;> simp <;> omega
    · simp only [decide_eq_true_eq]
      split_ifs <;> omega

theorem kernelValidateStructure_eq (g : k.Good cfg) :
    kernelValidateStructure cfg k = some
      { registered := k.taskCount
        ready := (k.allTasks.seq ()).countP (fun t => (k.tasks t).state.isReady)
        running := (k.allTasks.seq ()).countP (fun t => (k.tasks t).state = .running) } := by
  have hloop := kernelValidateLoop_eq g (k.allTasks.seq ()) (fun _ h => h) {}
  have hready : schedulerReadyCount k.scheduler = (k.allTasks.seq ()).countP (fun t => (k.tasks t).state.isReady) := by
    rw [g.readyCount_eq]
    exact congrArg (fun p => (k.allTasks.seq ()).countP p) (funext g.readyLinked_eq)
  simp only [kernelValidateStructure, g.scheduler.validate, listValidate_eq_true, g.timeouts.validate, listSize,
    ← g.taskCount, hloop, Nat.zero_add, hready]
  simp

theorem Kernel.Sound.countP_running_one (g : k.Sound cfg) {c : TaskRef} (hc : (k.tasks c).state = .running) :
    (k.allTasks.seq ()).countP (fun t => (k.tasks t).state = .running) = 1 := by
  have hmem : c ∈ k.allTasks.seq () := by
    apply registered_mem
    exact (g.shape c).registered_of_isReady (by simp [Kernel.view, TaskState.isReady, hc])
  have hiff : ∀ t ∈ k.allTasks.seq (), decide ((k.tasks t).state = .running) = true ↔ (t == c) = true := by
    intro t _
    rw [decide_eq_true_eq, beq_iff_eq]
    constructor
    · intro ht
      exact Option.some.inj ((g.running t ht).symm.trans (g.running c hc))
    · rintro rfl
      exact hc
  rw [List.countP_congr hiff]
  exact List.count_eq_one_of_mem (k.allTasks.nodup ()) hmem

theorem Kernel.countP_running_zero (h : ∀ t, (k.tasks t).state ≠ .running) :
    (k.allTasks.seq ()).countP (fun t => (k.tasks t).state = .running) = 0 := by
  rw [List.countP_eq_zero]
  intro t _
  simpa using h t

theorem Kernel.Sound.not_running (g : k.Sound cfg) {c : TaskRef} (hc : k.currentTask = some c)
    (hs : (k.tasks c).state ≠ .running) (t : TaskRef) : (k.tasks t).state ≠ .running := by
  intro ht
  obtain rfl := Option.some.inj ((g.running t ht).symm.trans hc)
  exact hs ht

structure NodesLinked (k : Kernel) (t : TaskRef) : Prop where
  ready : k.scheduler.queues.host t =
    if (k.tasks t).state = .ready ∨ (k.tasks t).state = .running then some (k.tasks t).effectivePriority else none
  wait : k.waitLists.lists.host t = (k.tasks t).blockedWaitList
  waitList : (k.tasks t).blockedWaitList ≠ none ↔
    (k.tasks t).waitKind ≠ .none ∧ (k.tasks t).waitKind ≠ .delay
  waiting : (k.tasks t).waitKind ≠ .none ↔ (k.tasks t).state = .blocked ∨
    (k.tasks t).state = .suspended ∧ (k.tasks t).suspendedResumeState = .blocked
  timeout : k.timeoutList.lists.host t ≠ none → (k.tasks t).waitKind ≠ .none
  delay : (k.tasks t).waitKind = .delay → k.timeoutList.lists.host t ≠ none
  fresh : k.timeoutList.lists.host t ≠ some .expired

theorem Kernel.Good.nodesLinked (g : k.Good cfg) (hq : k.Quiet) (t : TaskRef) : NodesLinked k t := by
  have hshape := g.shape t
  have hrec : (k.tasks t).Records (k.tasks t).wait := hshape.records
  have hwaiting : (k.tasks t).wait ≠ none ↔ (k.tasks t).isWaiting = true := hshape.waiting
  have hkind : (k.tasks t).waitKind ≠ .none ↔ (k.tasks t).wait ≠ none := by
    rw [hrec.kind]
    cases hw : (k.tasks t).wait with
    | none => simp
    | some w => cases w <;> simp [Wait.kind]
  constructor
  · have hhost : k.scheduler.queues.host t =
        if (k.tasks t).state.isReady then some (k.tasks t).effectivePriority else none := hshape.readyHost
    rw [hhost]
    simp only [TaskState.isReady, Bool.or_eq_true, decide_eq_true_eq]
  · exact hshape.waitHost
  · rw [hrec.waitList, hrec.kind]
    cases hw : (k.tasks t).wait with
    | none => simp
    | some w => cases w <;> simp [Wait.kind, Wait.waitList]
  · rw [hkind, hwaiting]
    simp [TaskControlBlock.isWaiting]
  · intro ht
    exact hkind.mpr (hshape.timeoutHost ht)
  · intro hd
    apply g.delays
    rw [hrec.kind] at hd
    cases hw : (k.tasks t).wait with
    | none => simp [hw] at hd
    | some w => cases w <;> simp_all [Wait.kind]
  · exact k.quiet_iff.mp hq t

end

/-- After any run the kernel's own validation succeeds when the current task is RUNNING or the kernel
has not been started; while a context switch is due it finds everything in order but that no task is
RUNNING. The nodes of all tasks are linked as their control blocks say. -/
theorem kernelValidateInternal_exec (cfg : Config) (ops : List Op) :
    let k := (exec cfg (boot cfg) ops).kernel
    (∀ c, k.currentTask = some c → (k.tasks c).state = .running → kernelValidateInternal cfg k = true) ∧
    (k.state = .initialized → kernelValidateInternal cfg k = true) ∧
    (∀ c, k.currentTask = some c → (k.tasks c).state ≠ .running →
      k.currentControlBlock = some c ∧ (∀ t, (k.tasks t).state ≠ .running) ∧
        ∃ counts, kernelValidateStructure cfg k = some counts ∧ counts.running = 0) ∧
    (∀ t, NodesLinked k t) ∧
    (k.allTasks.seq ()).countP (fun t => listNodeIsLinked k.scheduler.queues t) =
      (k.allTasks.seq ()).countP (fun t => (k.tasks t).state = .ready ∨ (k.tasks t).state = .running) := by
  have hs := (boot_steady cfg).exec ops
  have g := hs.good.kernel
  have hstarted : ∀ c, (exec cfg (boot cfg) ops).kernel.currentTask = some c →
      (exec cfg (boot cfg) ops).kernel.state = .running ∧
        (exec cfg (boot cfg) ops).kernel.currentControlBlock = some c := by
    intro c hc
    rcases g.booted with hb | hb
    · simp [g.unstarted hb] at hc
    · obtain ⟨d, hd, hcb, -⟩ := g.started hb
      exact ⟨hb, hcb.trans (hd.symm.trans hc)⟩
  refine ⟨?_, ?_, ?_, fun t => g.nodesLinked hs.quiet t, ?_⟩
  · intro c hc hrun
    obtain ⟨hstate, hcb⟩ := hstarted c hc
    simp [kernelValidateInternal, kernelValidateStructure_eq g, hstate, g.countP_running_one hrun, hc, hcb]
  · intro hstate
    have hnone : ∀ t, ((exec cfg (boot cfg) ops).kernel.tasks t).state ≠ .running := by
      intro t ht
      simpa [g.unstarted hstate] using g.running t ht
    simp [kernelValidateInternal, kernelValidateStructure_eq g, hstate, Kernel.countP_running_zero hnone]
  · intro c hc hrun
    have hnone := g.not_running hc hrun
    exact ⟨(hstarted c hc).2, hnone, _, kernelValidateStructure_eq g, Kernel.countP_running_zero hnone⟩
  · apply List.countP_congr
    intro t _
    rw [g.readyLinked_eq t]
    simp [TaskState.isReady]

end Hairtos
