import Hairtos.Invariant.Slice
import Hairtos.Properties.Cooperative

/-!
Round robin between equals. A tick that finds another reason for a switch charges the runtime of the RUNNING task, but
not its slice, so that tasks that preempt it at the right moments keep its equals from their turn.
-/

namespace Hairtos

open Library

variable {woken : Bool} {order : List TaskRef} {n : Nat}

def Rivals (a b : TaskRef) (p : Nat) (s : System) : Prop :=
  ((s.kernel.tasks a).state = .running ∨ (s.kernel.tasks a).state = .ready ∧ ∃ c ∈ s.kernel.currentTask,
    c ≠ a) ∧
    (s.kernel.tasks b).state = .ready ∧
    (s.kernel.tasks a).effectivePriority = p ∧ (s.kernel.tasks b).effectivePriority = p

instance decidableRivals (a b : TaskRef) (p : Nat) (s : System) : Decidable (Rivals a b p s) :=
  inferInstanceAs (Decidable (_ ∧ _))

def Op.dispatches : Op → Bool
  | .pendsv => true
  | _ => false

def KeepsTurn (cfg : Config) (a b : TaskRef) (p : Nat) (s : System) (op : Op) : Prop :=
  Rivals a b p s ∧ Rivals a b p (step cfg s op) ∧
    (op.dispatches = true → ∀ c ∈ (step cfg s op).kernel.currentTask,
      c = a ∨ ((step cfg s op).kernel.tasks c).effectivePriority < p)

instance decidableKeepsTurn (cfg : Config) (a b : TaskRef) (p : Nat) (s : System) (op : Op) :
    Decidable (KeepsTurn cfg a b p s op) :=
  inferInstanceAs (Decidable (_ ∧ _ ∧ _))

/-- A tick that `a` runs in finds no other reason for a switch, and no task that outranks `a` is READY when a PendSV
ends its slice. -/
def ChargesSlice (cfg : Config) (a : TaskRef) (s : System) : Op → Prop
  | .tick => (s.kernel.tasks a).state = .running →
      s.kernel.switchReasons.timeSlice = false ∧
      (cfg.preemption = true → ∀ v,
        ((s.kernel.tasks v).state = .ready ∨
          (s.kernel.tasks v).state = .blocked ∧ s.kernel.timeoutList.left v = some 1) →
        (s.kernel.tasks a).effectivePriority ≤ (s.kernel.tasks v).effectivePriority) ∧
      ((∃ t, s.timers.timeouts.left t = some 1) → ∀ v,
        (s.kernel.tasks v).wait = some (.semaphoreTake .timerSignal) → (s.kernel.tasks v).state = .blocked →
        (s.kernel.tasks a).effectivePriority ≤ (s.kernel.tasks v).effectivePriority) ∧
      (LockLapses s → s.Inherited)
  | .pendsv => (s.kernel.tasks a).state = .running → s.kernel.switchReasons.timeSlice = true →
      ∀ v, (s.kernel.tasks v).state = .ready →
        (s.kernel.tasks a).effectivePriority ≤ (s.kernel.tasks v).effectivePriority
  | _ => True

def charged (a : TaskRef) (s : System) : Op → Nat
  | .tick => if (s.kernel.tasks a).state = .running then 1 else 0
  | _ => 0

structure SameSlice (t : TaskRef) (k k' : Kernel) : Prop where
  slice : (k'.tasks t).timeSliceRemaining = (k.tasks t).timeSliceRemaining
  runtime : (k'.tasks t).runtimeCounter = (k.tasks t).runtimeCounter
  timeSlice : k'.switchReasons.timeSlice = k.switchReasons.timeSlice

section

variable {cfg : Config} {s s' : System} {k k' : Kernel} {a b c t u : TaskRef} {p : Nat} {call : Call}

theorem Kernel.Sound.hasPeer (g : k.Sound cfg) (ha : (k.tasks a).state.isReady = true)
    (hb : (k.tasks b).state.isReady = true) (hab : a ≠ b)
    (heq : (k.tasks b).effectivePriority = (k.tasks a).effectivePriority) :
    schedulerHasEqualPriorityPeer cfg k.scheduler a = true := by
  have hm := (g.shape a).magic_of_isReady ha
  have hpriority : k.scheduler.priority a = (k.tasks a).effectivePriority := ((g.shape a).agree hm).1
  have hmem : a ∈ k.scheduler.queues.seq (k.tasks a).effectivePriority :=
    (k.scheduler.queues.mem_seq _ _).mpr (g.host_of_isReady ha)
  have hmem' : b ∈ k.scheduler.queues.seq (k.tasks a).effectivePriority :=
    (k.scheduler.queues.mem_seq _ _).mpr (heq ▸ g.host_of_isReady hb)
  have hlt := g.scheduler.bound _ (List.ne_nil_of_mem hmem)
  have hlength : 1 < (k.scheduler.queues.seq (k.tasks a).effectivePriority).length := by
    by_contra hnot
    obtain ⟨x, hx⟩ := List.length_eq_one_iff.mp (le_antisymm (not_lt.mp hnot) (List.length_pos_of_mem hmem))
    rw [hx, List.mem_singleton] at hmem hmem'
    exact hab (hmem.trans hmem'.symm)
  simp [schedulerHasEqualPriorityPeer, priorityIsValid, hpriority, hlt, g.host_of_isReady ha, listSize, hlength]

theorem SamePace.sameSlice (h : SamePace k k') (t : TaskRef) : SameSlice t k k' :=
  ⟨h.slice t, h.runtime t, h.timeSlice⟩

theorem SameSlice.trans {k'' : Kernel} (h : SameSlice t k k') (h' : SameSlice t k' k'') : SameSlice t k k'' :=
  ⟨h'.slice.trans h.slice, h'.runtime.trans h.runtime, h'.timeSlice.trans h.timeSlice⟩

theorem Kernel.startWait_sameSlice (k : Kernel) (w : Wait) (ticks : Option Tick) (htu : t ≠ u) :
    SameSlice t k (k.startWait cfg u w ticks) := by
  refine ⟨?_, ?_, rfl⟩ <;> simp [Kernel.startWait, htu]

theorem Woken.sameSlice {result : Status} (h : Woken cfg k u result k') (htu : t ≠ u) : SameSlice t k k' := by
  refine ⟨?_, ?_, by rw [h.frame]⟩ <;> rw [h.others t htu]

theorem LockEffect.sameSlice {m : MutexRef} {timeout : Tick} {outcome : Outcome}
    (h : LockEffect cfg s m timeout s' outcome)
    (hruns : s.kernel.Runs t → (s'.kernel.tasks t).state = .running) : SameSlice t s.kernel s'.kernel := by
  cases h with
  | acquired u => exact (s.kernel.countOwned_samePace u _).sameSlice t
  | again u => exact ⟨rfl, rfl, rfl⟩
  | waits u o k hu _ _ _ hreprio =>
    have htu : t ≠ u := by
      rintro rfl
      have hrun := hruns hu
      simp only [requestContextSwitch] at hrun
      rw [hreprio.tasks t] at hrun
      simp [Kernel.startWait, waitingBlock] at hrun
    exact ((s.kernel.startWait_sameSlice _ _ htu).trans (hreprio.samePace.sameSlice t)).trans
      ((Kernel.calm_requestContextSwitch k).samePace.sameSlice t)
  | refused u o k k' hu _ _ hreprio hwoken =>
    have htu : t ≠ u := by
      rintro rfl
      have hrun := hruns hu
      simp only [requestContextSwitch] at hrun
      rw [hwoken.task] at hrun
      simp only [wokenBlock] at hrun
      split at hrun <;> cases hrun
    exact (((s.kernel.startWait_sameSlice _ _ htu).trans (hreprio.samePace.sameSlice t)).trans
      (hwoken.sameSlice htu)).trans ((Kernel.calm_requestContextSwitch k').samePace.sameSlice t)

theorem Paced.sameSlice (h : Paced k k') (ht : (k.tasks t).state.isReady = true)
    (ht' : (k'.tasks t).state.isReady = true) : SameSlice t k k' :=
  ⟨h.slice t ht ht', h.runtime t ht, h.timeSlice⟩

theorem Kernel.Mild.sameSlice (h : k.Mild k') (ht : (k.tasks t).state.isReady = true)
    (ht' : (k'.tasks t).state.isReady = true) : SameSlice t k k' := by
  refine ⟨?_, ?_, h.timeSlice⟩ <;> rw [h.tasks t ht ht']

theorem TaskStep.sameSlice (h : TaskStep cfg s s' call) (hs : s.Steady cfg)
    (ht : (s.kernel.tasks t).state.isReady = true) (ht' : (s'.kernel.tasks t).state.isReady = true)
    (hruns : s.kernel.Runs t → (s'.kernel.tasks t).state = .running) : SameSlice t s.kernel s'.kernel := by
  cases h with
  | refused _ hkernel => rw [hkernel]; exact ⟨rfl, rfl, rfl⟩
  | changes _ _ hchange => exact (hchange.mild hs.good.kernel.toSound).sameSlice ht ht'
  | locks m timeout outcome heffect => exact heffect.sameSlice hruns
  | unlocks m u _ _ heffect => exact (heffect.paced hs.good.kernel).sameSlice ht ht'

theorem step_sameSlice (hs : s.Steady cfg) (hk : s.kernel.state = .running) {op : Op} (htick : op ≠ .tick)
    (hpendsv : op ≠ .pendsv) (ht : (s.kernel.tasks t).state.isReady = true)
    (ht' : ((step cfg s op).kernel.tasks t).state.isReady = true)
    (hruns : s.kernel.Runs t → ((step cfg s op).kernel.tasks t).state = .running) :
    SameSlice t s.kernel (step cfg s op).kernel := by
  cases op with
  | task call => exact (step_task_cases hs call).sameSlice hs ht ht' hruns
  | isr call honoured =>
    obtain ⟨woken, hchange⟩ := step_isr_change hs call honoured
    exact (hchange.mild hs.good.kernel.toSound).sameSlice ht ht'
  | service => exact ((step_service_change (c := .taskYield) hs).mild hs.good.kernel.toSound).sameSlice ht ht'
  | tick => exact absurd rfl htick
  | pendsv => exact absurd rfl hpendsv
  | start =>
    simp only [step, hk]
    exact ⟨rfl, rfl, rfl⟩
  | writeBuffer b content => exact ⟨rfl, rfl, rfl⟩
  | writeAnchor a value => exact ⟨rfl, rfl, rfl⟩

theorem Granted.others (h : Granted cfg k u k') (htu : t ≠ u) : k'.tasks t = k.tasks t := by
  rw [h.woken.others t htu, h.effective t]

theorem TimerTick.others (h : TimerTick cfg s s' woken) (g : s.kernel.Sound cfg)
    (ht : (s.kernel.tasks t).state.isReady = true) : s'.kernel.tasks t = s.kernel.tasks t := by
  rcases h.kernel_cases with ⟨hkernel, -⟩ | ⟨u, hwait, hgranted, -⟩
  · rw [hkernel]
  · refine hgranted.others ?_
    rintro rfl
    simp [g.not_isReady_of_wait hwait] at ht

theorem TimerTick.ready (h : TimerTick cfg s s' false) (g : s'.kernel.Sound cfg)
    (hrun : (s'.kernel.tasks c).state = .running) (ht : (s'.kernel.tasks t).state = .ready)
    (hout : (s'.kernel.tasks t).effectivePriority < (s'.kernel.tasks c).effectivePriority) :
    s'.kernel.tasks t = s.kernel.tasks t := by
  rcases h.kernel_cases with ⟨hkernel, -⟩ | ⟨u, -, hgranted, htold⟩
  · rw [hkernel]
  · apply hgranted.others
    rintro rfl
    have hvalid : (s'.kernel.tasks c).magic = true :=
      (g.shape c).magic_of_isReady (by simp [Kernel.view, TaskState.isReady, hrun])
    have hawake : (s.kernel.tasks t).state ≠ .suspended := by
      intro hs
      rw [hgranted.woken.task] at ht
      simp [wokenBlock, hs] at ht
    simp [preemptsCurrent, hawake, kernelOutranksCurrent, g.running c hrun, taskIsValid, hvalid, hrun, hout] at htold

theorem Rivals.ready (h : Rivals a b p s) :
    (s.kernel.tasks a).state.isReady = true ∧ (s.kernel.tasks b).state.isReady = true := by
  obtain ⟨ha | ⟨ha, -⟩, hb, -⟩ := h
  all_goals simp [TaskState.isReady, ha, hb]

theorem Rivals.running (h : Rivals a b p s) (hc : s.kernel.currentTask = some a) :
    (s.kernel.tasks a).state = .running := by
  obtain ⟨ha | ⟨-, c, hc', hca⟩, -⟩ := h
  · exact ha
  · exact absurd (Option.some.inj (Eq.trans (Eq.symm hc') hc)) hca

theorem Rivals.started (h : Rivals a b p s) (g : s.Good cfg) : s.kernel.state = .running := by
  have hsome : s.kernel.currentTask ≠ none := by
    obtain ⟨ha | ⟨-, c, hc, -⟩, -⟩ := h
    · simp [g.kernel.running a ha]
    · simp [Option.mem_def.mp hc]
  exact g.kernel.booted.resolve_left fun hb => hsome (g.kernel.unstarted hb)

theorem Lapsed.of_ready {ms : Mutexes} (h : Lapsed ms k order k') (g : k.Sound cfg)
    (ht : (k.tasks t).state.isReady = true) :
    k'.tasks t = { k.tasks t with effectivePriority := (k'.tasks t).effectivePriority } := by
  refine h.others t (fun hmem => ?_)
  obtain ⟨w, hw⟩ := Option.ne_none_iff_exists'.mp (h.waited t hmem)
  simp [g.not_isReady_of_wait hw] at ht

theorem TickParts.of_ready (h : TickParts cfg s c order k s' woken)
    (g : s.Good cfg) (ht : (s.kernel.tasks t).state.isReady = true) :
    s'.kernel.tasks t = { s.kernel.tasks t with effectivePriority := (s'.kernel.tasks t).effectivePriority } := by
  have hlapsed := h.lapsed.of_ready g.kernel.toSound ht
  have ht' : (k.tasks t).state.isReady = true := by rwa [hlapsed]
  rw [h.timers.others h.good.kernel.toSound ht']
  exact hlapsed

theorem TickParts.sameSlice (h : TickParts cfg s c order k s' woken)
    (g : s.Good cfg) (htc : t ≠ c) (ht : (s.kernel.tasks t).state.isReady = true) :
    ((step cfg s .tick).kernel.tasks t).timeSliceRemaining = (s.kernel.tasks t).timeSliceRemaining ∧
      ((step cfg s .tick).kernel.tasks t).runtimeCounter = (s.kernel.tasks t).runtimeCounter := by
  simp only [step, h.result]
  rw [kernelTickEnd_others _ _ htc, h.of_ready g ht]
  exact ⟨rfl, rfl⟩

theorem TickParts.quiet (h : TickParts cfg s a order k s' woken) (g : s.Good cfg)
    (hrun : (s.kernel.tasks a).state = .running)
    (hkept : (s'.kernel.tasks a).effectivePriority = (s.kernel.tasks a).effectivePriority)
    (hop : ChargesSlice cfg a s .tick) :
    woken = false ∧ (cfg.preemption && schedulerShouldPreempt cfg s'.kernel.scheduler a) = false := by
  obtain ⟨-, hready, htimers, hlapses⟩ := hop hrun
  have hl := h.lapsed
  have hrises := hl.rises (fun ⟨t, hmem, m, hm⟩ => (hlapses ⟨t, m, hm, h.due t hmem⟩).balanced g)
  have ha : (s.kernel.tasks a).state.isReady = true := by simp [hrun, TaskState.isReady]
  have hka : (k.tasks a).state.isReady = true := by rwa [hl.of_ready g.kernel.toSound ha]
  have hsame := h.timers.others h.good.kernel.toSound hka
  have hrun' : (s'.kernel.tasks a).state = .running := by rwa [h.of_ready g ha]
  have hwoken : woken = false := by
    by_contra hnot
    have hwoken := Bool.eq_true_of_not_eq_false hnot
    obtain ⟨u, hw, hs, hout⟩ := h.timers.exists_woken hwoken
    have hcurrent : k.currentTask = some a := by
      rw [hl.frame]
      exact h.current
    simp only [kernelOutranksCurrent, hcurrent, Bool.and_eq_true, decide_eq_true_eq] at hout
    have hle := htimers (h.expired hwoken) u (hl.waits u _ hw) (hl.blocked_of_wait h.good.kernel.toSound hw hs)
    rw [← hkept, hsame] at hle
    exact absurd (hle.trans (hrises u)) (not_le.mpr hout.2)
  subst hwoken
  refine ⟨rfl, ?_⟩
  by_contra hnot
  obtain ⟨hp, hshould⟩ := Bool.and_eq_true_iff.mp (Bool.eq_true_of_not_eq_false hnot)
  obtain ⟨v, hv, hlt⟩ := h.good₃.kernel.exists_of_shouldPreempt hrun' hshould
  have hv' := h.timers.ready h.good₃.kernel.toSound hrun' hv hlt
  rw [hv'] at hv hlt
  have hcandidate : (s.kernel.tasks v).state = .ready ∨
      (s.kernel.tasks v).state = .blocked ∧ s.kernel.timeoutList.left v = some 1 := by
    by_cases hmem : v ∈ order
    · rcases hl.states v hmem with ⟨-, hb⟩ | ⟨hr, -⟩
      · exact Or.inr ⟨hb, h.due v hmem⟩
      · simp [hr] at hv
    · left
      rwa [hl.others v hmem] at hv
  have hle := hready hp v hcandidate
  rw [← hkept] at hle
  exact absurd (hle.trans (hrises v)) (not_le.mpr hlt)

theorem step_tick_charges (hs : s.Steady cfg) (ht : s.Timed cfg) (hk : s.kernel.state = .running)
    (hts : cfg.timeSlicing = true) (hab : a ≠ b) (hrivals : Rivals a b p s)
    (hrivals' : Rivals a b p (step cfg s .tick))
    (hc : s.kernel.currentTask = some a) (hop : ChargesSlice cfg a s .tick) :
    ((step cfg s .tick).kernel.tasks a).runtimeCounter = (s.kernel.tasks a).runtimeCounter + 1#32 ∧
      ((s.kernel.tasks a).timeSliceRemaining.toNat ≤ 1 ∧ (step cfg s .tick).kernel.switchReasons.timeSlice =
        true ∨
        ((step cfg s .tick).kernel.tasks a).timeSliceRemaining.toNat + 1 =
          (s.kernel.tasks a).timeSliceRemaining.toNat) := by
  obtain ⟨c, order, k, s₃, woken, h⟩ := tick_parts hs ht hk
  obtain rfl : c = a := Option.some.inj (h.current.symm.trans hc)
  have hrun := hrivals.running hc
  have hstep : step cfg s .tick = { s₃ with kernel := kernelTickEnd cfg s₃.kernel c woken } := h.result
  rw [hstep] at hrivals' ⊢
  dsimp only [Rivals] at hrivals' ⊢
  have hbook := (kernelTickEnd_charged cfg s₃.kernel c woken).bookkept
  simp only [hbook.taskState, hbook.effective] at hrivals'
  obtain ⟨-, hb, hpa, hpb⟩ := hrivals'
  have hself := h.of_ready hs.good hrivals.ready.1
  have hrun₃ : (s₃.kernel.tasks c).state = .running := by rwa [hself]
  obtain ⟨rfl, hpreempt⟩ := h.quiet hs.good hrun (hpa.trans hrivals.2.2.1.symm) hop
  have hpeer : schedulerHasEqualPriorityPeer cfg s₃.kernel.scheduler c = true := by
    refine h.good₃.kernel.hasPeer ?_ ?_ hab (hpb.trans hpa.symm)
    · simp [hrun₃, TaskState.isReady]
    · simp [hb, TaskState.isReady]
  obtain ⟨hruntime, -, hslice⟩ := @kernelTickCurrent_cases cfg s₃.kernel c false
  rw [kernelTickEnd_running hrun₃]
  refine ⟨?_, ?_⟩
  · rw [yieldFromIsr_tasks, hruntime, hself]
  · have htick := hslice.resolve_right (by simp [hts, hpreempt])
    have hcharged : (s₃.kernel.tasks c).timeSliceRemaining = (s.kernel.tasks c).timeSliceRemaining := by rw [hself]
    cases htick.requested (kernelTickCurrent cfg s₃.kernel c false).2 with
    | alone halone => exact absurd (halone.symm.trans hpeer) Bool.false_ne_true
    | ends hlast _ htime => exact Or.inl ⟨hcharged ▸ hlast, htime⟩
    | more _ hleft => exact Or.inr (hcharged ▸ hleft)

theorem Kernel.Good.rotate_front (g : k.Good cfg) (hrotates : k.rotates cfg a = true)
    (hb : (k.tasks b).state.isReady = true) (hab : a ≠ b)
    (heq : (k.tasks b).effectivePriority = (k.tasks a).effectivePriority) :
    ((k.rotate cfg a).scheduler.queues.seq (k.tasks a).effectivePriority).head? ≠ some a := by
  have hselected : schedulerSelectHighest cfg k.scheduler = some a := by
    simp only [Kernel.rotates, Bool.and_eq_true, decide_eq_true_eq] at hrotates
    exact hrotates.1.2
  obtain ⟨q, xs, hq, hmin⟩ := g.scheduler.selectHighest_eq_some hselected
  obtain ⟨set', hyield, -, -, -, hseq⟩ := schedulerYieldCurrent_spec g.scheduler hq hmin
  have hready := g.toSound.isReady_of_host (t := a) (by simp [k.scheduler.queues.host_of_head hq])
  obtain rfl : (k.tasks a).effectivePriority = q :=
    Option.some.inj ((g.toSound.host_of_isReady hready).symm.trans (k.scheduler.queues.host_of_head hq))
  have hmem : b ∈ a :: xs := by
    rw [← hq]
    exact (k.scheduler.queues.mem_seq _ _).mpr (heq ▸ g.toSound.host_of_isReady hb)
  have hnodup : (a :: xs).Nodup := hq ▸ k.scheduler.queues.nodup _
  simp only [Kernel.rotate, hrotates, ↓reduceIte, hyield, hseq, Function.update_self]
  cases xs with
  | nil => exact absurd (List.mem_singleton.mp hmem).symm hab
  | cons x xs =>
    rw [List.cons_append, List.head?_cons, ne_eq, Option.some.injEq]
    rintro rfl
    simp at hnodup

theorem Kernel.Good.not_rotates (g : k.Good cfg) {next : TaskRef}
    (hnext : schedulerSelectHighest cfg (k.rotate cfg a).scheduler = some next)
    (hb : (k.tasks b).state.isReady = true) (hab : a ≠ b)
    (heq : (k.tasks b).effectivePriority = (k.tasks a).effectivePriority)
    (hturn : next = a ∨ (k.tasks next).effectivePriority < (k.tasks a).effectivePriority) :
    k.rotates cfg a = false := by
  by_contra hnot
  have hrotates := Bool.eq_true_of_not_eq_false hnot
  have hselected : schedulerSelectHighest cfg k.scheduler = some a := by
    simp only [Kernel.rotates, Bool.and_eq_true, decide_eq_true_eq] at hrotates
    exact hrotates.1.2
  have g' : (k.rotate cfg a).Sound cfg := (g.rotate a).toSound
  have hfirst := (g'.first_of_selected hnext).1
  obtain ⟨slice, hslice⟩ := @Kernel.rotate_tasks cfg k a next
  rw [hslice] at hfirst
  rcases hturn with rfl | hlt
  · exact g.rotate_front hrotates hb hab heq hfirst
  · have hready : (k.tasks next).state.isReady = true := by
      obtain ⟨next', hnext', hready⟩ := g'.exists_selectHighest
      rw [Option.some.inj (hnext.symm.trans hnext')] at hslice ⊢
      rwa [hslice] at hready
    exact absurd ((g.toSound.first_of_selected hselected).2 next hready) (not_le.mpr hlt)

theorem Kernel.rotate_slice (k : Kernel) (h : c = t → k.rotates cfg c = false) :
    ((k.rotate cfg c).tasks t).timeSliceRemaining = (k.tasks t).timeSliceRemaining ∧
      ((k.rotate cfg c).tasks t).runtimeCounter = (k.tasks t).runtimeCounter := by
  by_cases htc : c = t
  · simp [Kernel.rotate, h htc]
  · simp only [Kernel.rotate]
    split_ifs
    · simp [Function.update_of_ne (Ne.symm htc)]
    · exact ⟨rfl, rfl⟩

theorem step_pendsv_keepsTurn (hs : s.Steady cfg) (hk : s.kernel.state = .running) (hab : a ≠ b)
    (hturn : KeepsTurn cfg a b p s .pendsv) (hop : ChargesSlice cfg a s .pendsv) :
    ((step cfg s .pendsv).kernel.tasks a).timeSliceRemaining = (s.kernel.tasks a).timeSliceRemaining ∧
      ((step cfg s .pendsv).kernel.tasks a).runtimeCounter = (s.kernel.tasks a).runtimeCounter ∧
      ((s.kernel.tasks a).state = .running → s.kernel.switchReasons.timeSlice = false) := by
  obtain ⟨hrivals, -, hdispatched⟩ := hturn
  obtain ⟨c, next, hc, hnext, he, -⟩ := step_pendsv_eq hs.good hk
  generalize hk₀ : ({ s.kernel with pendSvPending := false } : Kernel) = k₀ at hnext he
  have g₀ : k₀.Good cfg := hk₀ ▸ hs.good.kernel.bookkept ⟨rfl, fun _ => rfl⟩
  have htasks : k₀.tasks = s.kernel.tasks := by rw [← hk₀]
  have hkept : next = a ∨ (s.kernel.tasks next).effectivePriority < p := by
    have h := hdispatched rfl next (by rw [he]; rfl)
    obtain ⟨slice, hslice⟩ := @Kernel.rotate_tasks cfg k₀ c next
    rw [he] at h
    simpa [Kernel.switch, hslice, htasks] using h
  have hrotates : c = a → k₀.rotates cfg c = false := by
    rintro rfl
    refine g₀.not_rotates hnext (htasks ▸ hrivals.ready.2) hab ?_ ?_
    · rw [htasks, hrivals.2.2.1, hrivals.2.2.2]
    · rw [htasks, hrivals.2.2.1]
      exact hkept
  have hsame := k₀.rotate_slice hrotates
  rw [htasks] at hsame
  rw [he]
  refine ⟨(Kernel.switch_slice _ c next a).1.trans hsame.1, (Kernel.switch_slice _ c next a).2.trans hsame.2, ?_⟩
  intro hrun
  by_contra hslice
  have hflag := Bool.eq_true_of_not_eq_false hslice
  obtain rfl : c = a := Option.some.inj (hc.symm.trans (hs.good.kernel.running a hrun))
  have hfalse := hrotates rfl
  have hscheduler : (k₀.rotate cfg c).scheduler = k₀.scheduler := by simp [Kernel.rotate, hfalse]
  rw [hscheduler] at hnext
  have hne : next ≠ c := by
    rintro rfl
    have hreasons : k₀.switchReasons = s.kernel.switchReasons := by rw [← hk₀]
    simp [Kernel.rotates, htasks, hrun, hnext, hreasons, hflag] at hfalse
  obtain ⟨next', hnext', hready⟩ := g₀.exists_selectHighest
  obtain rfl : next = next' := Option.some.inj (hnext.symm.trans hnext')
  have hlt := hkept.resolve_left hne
  rw [htasks] at hready
  have hwaits : (s.kernel.tasks next).state ≠ .running := by
    intro hnextRuns
    exact hne (Option.some.inj ((hs.good.kernel.running next hnextRuns).symm.trans hc))
  have hle := hop hrun hflag next (by simpa [TaskState.isReady, hwaits] using hready)
  rw [hrivals.2.2.1] at hle
  exact absurd hle (not_le.mpr hlt)

def WithinSlice (cfg : Config) (a : TaskRef) (n : Nat) (s : System) : Prop :=
  n + (s.kernel.tasks a).timeSliceRemaining.toNat ≤ cfg.timeSliceTicks.toNat ∨
    (s.kernel.tasks a).state = .running ∧ s.kernel.switchReasons.timeSlice = true ∧ n ≤ cfg.timeSliceTicks.toNat

def StaysWithin (cfg : Config) (a : TaskRef) (n : Nat) (s : System) (op : Op) : Prop :=
  WithinSlice cfg a (n + charged a s op) (step cfg s op) ∧
    ((step cfg s op).kernel.tasks a).runtimeCounter =
      (s.kernel.tasks a).runtimeCounter + BitVec.ofNat 32 (charged a s op)

theorem WithinSlice.tick (h : WithinSlice cfg a n s) (hs : s.Steady cfg) (ht : s.Timed cfg)
    (hsliced : s.kernel.Sliced cfg) (hts : cfg.timeSlicing = true) (hab : a ≠ b) (hturn : KeepsTurn cfg a b p s .tick)
    (hop : ChargesSlice cfg a s .tick) : StaysWithin cfg a n s .tick := by
  obtain ⟨hrivals, hrivals', -⟩ := hturn
  have hk := hrivals.started hs.good
  by_cases hc : s.kernel.currentTask = some a
  · have hrun := hrivals.running hc
    have hleft : n + (s.kernel.tasks a).timeSliceRemaining.toNat ≤ cfg.timeSliceTicks.toNat := by
      refine h.resolve_right ?_
      rintro ⟨-, hflag, -⟩
      exact Bool.false_ne_true ((hop hrun).1.symm.trans hflag)
    have hpos := (hsliced a hrivals.ready.1).1
    have hcurrent : (step cfg s .tick).kernel.currentTask = some a :=
      (step_stepped hs.good hs.quiet .tick).current hs.good (by simp) hc
    obtain ⟨hruntime, hslice⟩ := step_tick_charges hs ht hk hts hab hrivals hrivals' hc hop
    simp only [StaysWithin, charged, hrun, ↓reduceIte]
    refine ⟨?_, hruntime⟩
    rcases hslice with ⟨hlast, hflag⟩ | hmore
    · exact Or.inr ⟨hrivals'.running hcurrent, hflag, by omega⟩
    · exact Or.inl (by omega)
  · have hrun : (s.kernel.tasks a).state ≠ .running := fun hrun => hc (hs.good.kernel.running a hrun)
    obtain ⟨c, order, k, s₃, woken, hparts⟩ := tick_parts hs ht hk
    have hac : a ≠ c := by
      rintro rfl
      exact hc hparts.current
    obtain ⟨hslice, hruntime⟩ := hparts.sameSlice hs.good hac hrivals.ready.1
    simp only [StaysWithin, charged, hrun, ↓reduceIte]
    refine ⟨Or.inl ?_, by rw [hruntime, BitVec.add_zero]⟩
    rw [hslice]
    exact h.resolve_right fun hends => hrun hends.1

theorem WithinSlice.pendsv (h : WithinSlice cfg a n s) (hs : s.Steady cfg) (hab : a ≠ b)
    (hturn : KeepsTurn cfg a b p s .pendsv) (hop : ChargesSlice cfg a s .pendsv) : StaysWithin cfg a n s .pendsv := by
  obtain ⟨hslice, hruntime, hflag⟩ := step_pendsv_keepsTurn hs (hturn.1.started hs.good) hab hturn hop
  refine ⟨Or.inl ?_, by simp [charged, hruntime]⟩
  rw [hslice]
  refine h.resolve_right ?_
  rintro ⟨hrun, hpending, -⟩
  exact Bool.false_ne_true ((hflag hrun).symm.trans hpending)

theorem step_withinSlice (h : WithinSlice cfg a n s) (hs : s.Steady cfg) (ht : s.Timed cfg)
    (hsliced : s.kernel.Sliced cfg) (hts : cfg.timeSlicing = true) (hab : a ≠ b) {op : Op}
    (hturn : KeepsTurn cfg a b p s op) (hop : ChargesSlice cfg a s op) : StaysWithin cfg a n s op := by
  by_cases htick : op = .tick
  · subst htick
    exact h.tick hs ht hsliced hts hab hturn hop
  by_cases hpendsv : op = .pendsv
  · subst hpendsv
    exact h.pendsv hs hab hturn hop
  obtain ⟨hrivals, hrivals', -⟩ := hturn
  have hruns : s.kernel.currentTask = some a → ((step cfg s op).kernel.tasks a).state = .running := by
    intro hc
    exact hrivals'.running ((step_stepped hs.good hs.quiet op).current hs.good hpendsv hc)
  have hsame := step_sameSlice hs (hrivals.started hs.good) htick hpendsv hrivals.ready.1 hrivals'.ready.1
    (fun hr => hruns hr.current)
  have hnone : charged a s op = 0 := by
    cases op with
    | tick => exact absurd rfl htick
    | _ => rfl
  refine ⟨?_, by simp [hnone, hsame.runtime]⟩
  unfold WithinSlice at h ⊢
  rw [hnone, hsame.slice, hsame.timeSlice]
  exact h.imp id fun hends => ⟨hruns (hs.good.kernel.running a hends.1), hends.2⟩

theorem exec_withinSlice (hts : cfg.timeSlicing = true) (hab : a ≠ b) {ops : List Op} (hs : s.Steady cfg)
    (ht : s.Timed cfg) (hsliced : s.kernel.Sliced cfg) (h : WithinSlice cfg a n s)
    (hops : Meets (step cfg) (fun s op => KeepsTurn cfg a b p s op ∧ ChargesSlice cfg a s op) s ops) :
    n + tally cfg (charged a) s ops ≤ cfg.timeSliceTicks.toNat ∧
      ((exec cfg s ops).kernel.tasks a).runtimeCounter =
        (s.kernel.tasks a).runtimeCounter + BitVec.ofNat 32 (tally cfg (charged a) s ops) := by
  induction ops generalizing s n with
  | nil =>
    refine ⟨?_, by simp [exec, tally]⟩
    rcases h with h | h
    · exact (Nat.le_add_right n _).trans h
    · exact h.2.2
  | cons op ops ih =>
    obtain ⟨⟨hturn, hop⟩, hrest⟩ := hops
    obtain ⟨hwithin, hruntime⟩ := step_withinSlice h hs ht hsliced hts hab hturn hop
    obtain ⟨hle, heq⟩ := ih (hs.step op) (step_alarmStep hs ht op).timed
      (step_sliced hs (cfg.timeSliceTicks_pos hts) hsliced op) hwithin hrest
    refine ⟨?_, ?_⟩
    · simp only [tally]
      omega
    · simp only [tally, exec, List.foldl_cons] at heq ⊢
      rw [heq, hruntime, BitVec.ofNat_add, BitVec.add_assoc]

end

/-- With time slices, in every run that keeps the turn with `a` while its equal `b` is READY and charges the ticks of
`a` to its slice, `a` is charged at most one slice. -/
theorem turn_within_slice (cfg : Config) (hts : cfg.timeSlicing = true) {s : System} (hr : Reachable cfg s)
    {a b : TaskRef} (hab : a ≠ b) (p : Nat) {ops : List Op}
    (hops : Meets (step cfg) (fun s op => KeepsTurn cfg a b p s op ∧ ChargesSlice cfg a s op) s ops) :
    tally cfg (charged a) s ops ≤ cfg.timeSliceTicks.toNat ∧
      ((exec cfg s ops).kernel.tasks a).runtimeCounter =
        (s.kernel.tasks a).runtimeCounter + BitVec.ofNat 32 (tally cfg (charged a) s ops) := by
  cases ops with
  | nil => simp [tally, exec]
  | cons op ops =>
    have hsliced := reachable_sliced (cfg.timeSliceTicks_pos hts) hr
    have hfresh : WithinSlice cfg a 0 s := Or.inl (by simpa using (hsliced a hops.1.1.1.ready.1).2)
    simpa using exec_withinSlice hts hab (reachable_steady hr) (reachable_timed hr) hsliced hfresh hops

theorem TimeoutList.left_of_empty {N : Type} {tl : TimeoutList N}
    (h : tl.lists.seq (.slot false) = [] ∧ tl.lists.seq (.slot true) = [] ∧ tl.lists.seq .expired = []) (n : N) :
    tl.left n = none := by
  refine TimeoutList.left_eq_none.mpr (Option.eq_none_iff_forall_not_mem.mpr fun l hl => ?_)
  have hmem := (tl.lists.mem_seq l n).mpr hl
  rcases l with (_ | _) | _ <;> simp [h] at hmem

theorem chargesSlice_of_empty {cfg : Config} {s : System} {a : TaskRef} (hr : Reachable cfg s)
    (hselected : schedulerSelectHighest cfg s.kernel.scheduler = some a)
    (hslice : s.kernel.switchReasons.timeSlice = false) (hleft : ∀ t, s.kernel.timeoutList.left t = none)
    (hstopped : ∀ t, s.timers.timeouts.left t = none) : ChargesSlice cfg a s .tick := by
  refine fun _ => ⟨hslice, fun _ v hv => ?_, fun ⟨t, ht⟩ => ?_, fun ⟨t, m, _, ht⟩ => ?_⟩
  · rcases hv with hv | ⟨-, hv⟩
    · exact ((reachable_steady hr).good.kernel.first_of_selected hselected).2 v (by simp [hv, TaskState.isReady])
    · simp [hleft v] at hv
  · simp [hstopped t] at ht
  · simp [hleft t] at ht

/-- Tasks 1 and 2 are equals, and the more urgent task 0 waits for the semaphore. -/
def rivalsRun : List Op :=
  launch 0 1 ++ launch 1 3 ++ launch 2 3 ++
    [.task (.semaphoreCreateBinary (some 0) false), .start, .task (.semaphoreTake (some 0) waitForever), .pendsv]

def preemptedTurn : List Op :=
  [.isr (.semaphoreGiveFromIsr (some 0)) true, .pendsv, .task (.semaphoreTake (some 0) waitForever), .pendsv]

theorem turn_within_slice_rivalsRun :
    let s := exec .standard (boot .standard) rivalsRun
    (exec .standard s (preemptedTurn.take 2)).kernel.currentTask = some (.app 0) ∧
      tally .standard (charged (.app 1)) s (preemptedTurn ++ [.tick]) = 1 ∧
      ((exec .standard s (preemptedTurn ++ [.tick])).kernel.tasks (.app 1)).runtimeCounter =
        (s.kernel.tasks (.app 1)).runtimeCounter +
          BitVec.ofNat 32 (tally .standard (charged (.app 1)) s (preemptedTurn ++ [.tick])) := by
  intro s
  have hreachable : Reachable .standard s := ⟨rivalsRun, rfl⟩
  have hcharges : ChargesSlice .standard (.app 1) (exec .standard s preemptedTurn) .tick :=
    chargesSlice_of_empty ⟨rivalsRun ++ preemptedTurn, by rw [exec_append]⟩ (by decide +kernel) (by decide +kernel)
      (TimeoutList.left_of_empty (by decide +kernel)) (TimeoutList.left_of_empty (by decide +kernel))
  have hpendsv : ∀ s, s.kernel.switchReasons.timeSlice = false → ChargesSlice .standard (.app 1) s .pendsv :=
    fun s hslice _ htrue => absurd (hslice.symm.trans htrue) Bool.false_ne_true
  have hops : Meets (step .standard) (fun s op => KeepsTurn .standard (.app 1) (.app 2) 3 s op ∧
      ChargesSlice .standard (.app 1) s op) s (preemptedTurn ++ [.tick]) :=
    ⟨⟨by decide +kernel, trivial⟩, ⟨by decide +kernel, hpendsv _ (by decide +kernel)⟩,
      ⟨by decide +kernel, trivial⟩,
      ⟨by decide +kernel, hpendsv _ (by decide +kernel)⟩, ⟨by decide +kernel, hcharges⟩, trivial⟩
  have hne : TaskRef.app 1 ≠ TaskRef.app 2 := by decide
  exact ⟨by decide +kernel, by decide +kernel, (turn_within_slice .standard rfl hreachable hne 3 hops).2⟩

def equalsRun : List Op :=
  launch 0 1 ++ launch 1 3 ++ launch 2 3 ++ [.start, .task (.taskDelay 1#32), .pendsv]

def wakingRun : List Op := [.tick, .pendsv, .task (.taskDelay 1#32), .pendsv, .tick]

/-- Task 1 is charged two ticks in one turn although its slice is a single tick, and task 2 is READY all the time. -/
theorem turn_exceeds_slice :
    let s := exec .standard (boot .standard) equalsRun
    Config.standard.timeSliceTicks = 1#32 ∧
      Meets (step .standard) (KeepsTurn .standard (.app 1) (.app 2) 3) s wakingRun ∧
      ((exec .standard s wakingRun).kernel.tasks (.app 1)).runtimeCounter =
        (s.kernel.tasks (.app 1)).runtimeCounter + 2#32 := by
  decide +kernel

end Hairtos
