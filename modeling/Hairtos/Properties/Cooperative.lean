import Hairtos.Invariant.Lapse
import Hairtos.Properties.FrontRunner

/-!
Scheduling without preemption and time slices. The functions that wake a task ask for a switch whatever the
configuration is, so that the RUNNING task keeps the processor only as long as nobody more urgent is woken.
-/

namespace Hairtos

open Library

variable {op : Op} {inIsr woken : Bool} {m : MutexRef}

def GivesUp (cfg : Config) (s : System) (c : TaskRef) (op : Op) : Prop :=
  s.kernel.Runs c ∧
    ((op = .task .taskYield ∨ op = .task (.taskDelay 0#32)) ∨
      ((∃ call, op = .task call) ∨ op = .service) ∧ ((step cfg s op).kernel.tasks c).state ≠ .running)

def GaveUp (cfg : Config) (c : TaskRef) (ops : List Op) : Prop :=
  ∃ before op after, ops = before ++ op :: after ∧ GivesUp cfg (exec cfg (boot cfg) before) c op ∧
    Op.pendsv ∉ after

def WakesNoBetter (s : System) (inIsr : Bool) (call : Call) : Prop :=
  ∀ l u, call.serving s inIsr = some l → waitListPeek s.kernel.waitLists l = some u →
    (s.kernel.tasks u).state = .blocked → kernelOutranksCurrent s.kernel u = false

instance decidableWakesNoBetter (s : System) (inIsr : Bool) (call : Call) : Decidable (WakesNoBetter s inIsr call) :=
  decidable_of_iff (∀ l ∈ call.serving s inIsr, ∀ u ∈ waitListPeek s.kernel.waitLists l,
      (s.kernel.tasks u).state = .blocked → kernelOutranksCurrent s.kernel u = false)
    ⟨fun h l u hl hu => h l hl u hu, fun h l hl u hu => h l u hl hu⟩

def OwnerKeepsUp (s : System) (m : MutexRef) (c v : TaskRef) : Prop :=
  (s.kernel.tasks c).basePriority ≤ (s.kernel.tasks v).effectivePriority ∨
    ∃ n u, n ≠ m ∧ (s.mutexes.blocks n).owner = some c ∧ (s.kernel.tasks u).wait = some (.mutexLock n) ∧
      (s.kernel.tasks u).effectivePriority ≤ (s.kernel.tasks v).effectivePriority

def LockLapses (s : System) : Prop :=
  ∃ t m, (s.kernel.tasks t).wait = some (.mutexLock m) ∧ s.kernel.timeoutList.left t = some 1

def TimersWakeNoBetter (s : System) : Prop :=
  (∃ t, s.timers.timeouts.left t = some 1) → ∀ c u, s.kernel.currentTask = some c →
    (s.kernel.tasks u).wait = some (.semaphoreTake .timerSignal) → (s.kernel.tasks u).state = .blocked →
    (s.kernel.tasks c).effectivePriority ≤ (s.kernel.tasks u).effectivePriority ∧
      (LockLapses s → s.Inherited ∧ (s.kernel.tasks c).basePriority ≤ (s.kernel.tasks u).effectivePriority)

/-- Nobody who outranks the RUNNING task is woken, or READY when it gives up a mutex, and a PendSV comes only when it
has been requested. -/
def Considerate (s : System) : Op → Prop
  | .task (.mutexUnlock (some m)) => LastUnlock s m → s.Inherited ∧ ∀ c v, s.kernel.currentTask = some c →
      ((s.kernel.tasks v).state = .ready ∨
        waitListPeek s.kernel.waitLists (.mutex m) = some v ∧ (s.kernel.tasks v).state = .blocked) →
      OwnerKeepsUp s m c v
  | .task call => WakesNoBetter s false call
  | .isr call honoured => honoured = true → WakesNoBetter s true call
  | .tick => TimersWakeNoBetter s
  | .pendsv => s.kernel.pendSvPending = true
  | _ => True

section

variable {cfg : Config} {s s' : System} {k k' : Kernel} {c t u : TaskRef} {call : Call}

theorem Stepped.current (h : Stepped cfg s op s') (g : s.Good cfg) (hop : op ≠ .pendsv)
    (hc : s.kernel.currentTask = some c) : s'.kernel.currentTask = some c := by
  cases h with
  | refused => exact hc
  | acts _ htrace => exact htrace.sameRun.currentTask.trans hc
  | lock m timeout s' outcome heffect => exact heffect.sameRun.currentTask.trans hc
  | isr call honoured s₁ k htrace hcalm =>
    exact hcalm.sameRun.currentTask.trans (htrace.sameRun.currentTask.trans hc)
  | tick _ _ heffect =>
    obtain ⟨current, switchRequired, -, -, hexpiry, htimers, -⟩ := heffect
    obtain ⟨owed, htrace⟩ := hexpiry.trace
    exact (kernelTickEnd_charged _ _ _ _).bookkept.control.currentTask.trans
      (htimers.sameRun.currentTask.trans (htrace.sameRun.currentTask.trans hc))
  | pendsv => exact absurd rfl hop
  | start next hstate => simp [g.kernel.unstarted hstate] at hc

theorem Kernel.Sound.runs_of_running (g : k.Sound cfg) (hrun : (k.tasks t).state = .running) (hidle : t ≠ .idle) :
    k.Runs t := by
  have hc := g.running t hrun
  refine ⟨?_, hc, hrun, hidle⟩
  rcases g.booted with hb | hb
  · simp [g.unstarted hb] at hc
  · exact hb

theorem Granted.outranks (h : Granted cfg k u k') (hout : kernelOutranksCurrent k' u = true) :
    kernelOutranksCurrent k u = true := by
  unfold kernelOutranksCurrent at hout ⊢
  rw [h.woken.control.currentTask] at hout
  cases hc : k.currentTask with
  | none => simp [hc] at hout
  | some c =>
    simp only [hc, Bool.and_eq_true, decide_eq_true_eq, taskIsValid, h.effective] at hout ⊢
    have hcu : c ≠ u := by
      rintro rfl
      have hrun := hout.1.2
      rw [h.woken.task] at hrun
      simp only [wokenBlock] at hrun
      split at hrun <;> simp at hrun
    rwa [h.woken.others c hcu] at hout

theorem WakesNoBetter.not_preempts (h : WakesNoBetter s inIsr call) (g : s.kernel.Sound cfg) {l : WaitListRef}
    {w : Wait}
    (hl : call.serving s inIsr = some l) (hfirst : waitListPeek s.kernel.waitLists l = some u)
    (hw : (s.kernel.tasks u).wait = some w) (hgranted : Granted cfg s.kernel u k) :
    preemptsCurrent s.kernel u k = false := by
  by_contra hp
  simp only [preemptsCurrent, Bool.not_eq_false, Bool.and_eq_true, decide_eq_true_eq] at hp
  have hblocked := (g.state_of_wait hw).resolve_right hp.1
  exact Bool.false_ne_true ((h l u hl hfirst hblocked).symm.trans (hgranted.outranks hp.2))

theorem Call.Change.woken_false (h : call.Change cfg s inIsr k woken) (g : s.kernel.Sound cfg)
    (hwakes : WakesNoBetter s inIsr call) : woken = false := by
  cases h with
  | serves l u w k₁ hl hfirst hwait hgranted _ _ htold =>
    by_contra hwoken
    have hp := htold (Bool.eq_true_of_not_eq_false hwoken)
    exact Bool.false_ne_true ((hwakes.not_preempts g hl hfirst hwait hgranted).symm.trans hp)
  | _ => rfl

theorem Call.Change.gives_up (h : call.Change cfg s inIsr k woken) (g : s.kernel.Sound cfg)
    (hp : cfg.preemption = false) (hwakes : WakesNoBetter s inIsr call) (hpend : k.pendSvPending = true) :
    s.kernel.pendSvPending = true ∨ ∃ c, s.kernel.Runs c ∧
      ((call = .taskYield ∨ call = .taskDelay 0#32) ∨ (k.tasks c).state ≠ .running) := by
  cases h with
  | prepares hpath => exact Or.inl (Kernel.Prepares.pends hpath ▸ hpend)
  | yields hcall _ hpends =>
    refine (hpends hpend).imp id ?_
    rintro ⟨c, hruns⟩
    exact ⟨c, hruns, Or.inl hcall⟩
  | waits c w ticks hruns hcalm =>
    refine Or.inr ⟨c, hruns, Or.inr ?_⟩
    rw [hcalm.tasks]
    simp [Kernel.startWait, waitingBlock]
  | suspends c _ hidle _ hcalm hpends =>
    refine (hpends hpend).imp id (fun hrun => ⟨c, g.runs_of_running hrun hidle, Or.inr ?_⟩)
    rw [hcalm.tasks]
    simp [Kernel.suspend, suspendedBlock]
  | resumes _ _ _ _ hpends =>
    refine Or.inl ((hpends hpend).resolve_right ?_)
    simp [hp]
  | serves l u w k₁ hl hfirst hwait hgranted _ hpends =>
    refine Or.inl ((hpends hpend).resolve_right ?_)
    simp [hwakes.not_preempts g hl hfirst hwait hgranted]

theorem LockEffect.gives_up {timeout : Tick} {outcome : Outcome}
    (h : LockEffect cfg s m timeout s' outcome) (hpend : s'.kernel.pendSvPending = true) :
    s.kernel.pendSvPending = true ∨ ∃ c, s.kernel.Runs c ∧ (s'.kernel.tasks c).state ≠ .running := by
  cases h with
  | acquired t => exact Or.inl hpend
  | again t => exact Or.inl hpend
  | waits t o k hruns _ _ _ hreprio =>
    refine Or.inr ⟨t, hruns, ?_⟩
    simp only [requestContextSwitch]
    rw [hreprio.tasks t]
    simp [Kernel.startWait, waitingBlock]
  | refused t o k k' hruns _ _ _ hwoken =>
    refine Or.inr ⟨t, hruns, ?_⟩
    simp only [requestContextSwitch]
    rw [hwoken.task]
    simp only [wokenBlock]
    split <;> simp

theorem OwnerKeepsUp.effective_le (h : OwnerKeepsUp s m c u) (g : s.Good cfg)
    (hb : Balanced s.kernel s.mutexes c) :
    (s.kernel.tasks c).effectivePriority ≤ (s.kernel.tasks u).effectivePriority := by
  have hleast := isLeast_waiters g hb
  rcases h with hbase | ⟨n, v, -, ho, hw, hv⟩
  · exact (hleast.2 (Or.inl rfl)).trans hbase
  · exact (hleast.2 (Or.inr ⟨n, v, ho, hw, rfl⟩)).trans hv

theorem OwnerKeepsUp.released {next : Option TaskRef} (h : OwnerKeepsUp s m c u)
    (hr : Released cfg s m c next s') (g : s.Good cfg) (g' : s'.Good cfg) (hruns : s.kernel.Runs c)
    (hb : ∀ v, Balanced s.kernel s.mutexes v) :
    (s'.kernel.tasks c).effectivePriority ≤ (s.kernel.tasks u).effectivePriority := by
  have hleast := isLeast_waiters g' (hr.balanced hb c)
  rcases h with hle | ⟨n, v, hn, ho, hw, hv⟩
  · rw [← hr.base c] at hle
    exact (hleast.2 (Or.inl rfl)).trans hle
  · have hw' := hr.waits g.kernel hn hw
    rw [← (hr.waiting g.kernel hruns hw').2] at hv
    exact (hleast.2 (Or.inr ⟨n, v, by rw [hr.owner n, if_neg hn, ho], hw', rfl⟩)).trans hv

theorem Kernel.exists_of_should (g : k.Good cfg) (hc : k.currentTask = some c)
    (h : kernelCurrentShouldPreempt cfg k = true) :
    ∃ v, (k.tasks v).state = .ready ∧ (k.tasks v).effectivePriority < (k.tasks c).effectivePriority := by
  simp only [kernelCurrentShouldPreempt, hc, Bool.and_eq_true, decide_eq_true_eq] at h
  exact g.exists_of_shouldPreempt h.1.2 h.2

theorem Released.pends_of_keepsUp {next : Option TaskRef} (h : Released cfg s m t next s') (g : s.Good cfg)
    (g' : s'.Good cfg) (hruns : s.kernel.Runs t) (ho : (s.mutexes.blocks m).owner = some t)
    (hb : ∀ v, Balanced s.kernel s.mutexes v)
    (hkeep : ∀ v, ((s.kernel.tasks v).state = .ready ∨
      waitListPeek s.kernel.waitLists (.mutex m) = some v ∧ (s.kernel.tasks v).state = .blocked) →
        OwnerKeepsUp s m t v)
    (hpend : s'.kernel.pendSvPending = true) : s.kernel.pendSvPending = true := by
  have hblocked : ∀ {v}, next = some v → (s.kernel.tasks v).state ≠ .suspended → OwnerKeepsUp s m t v := by
    intro v hv hawake
    have hfirst := h.first.trans hv
    have hw := (g.kernel.waitHost_mutex v m).mp (waitListPeek_host _ hfirst)
    exact hkeep v (Or.inr ⟨hfirst, (g.kernel.state_of_wait hw).resolve_right hawake⟩)
  rcases h.requests hpend with hpend | ⟨u, hu, hawake, hlt⟩ | ⟨k, hcalm, hshould⟩
  · exact hpend
  · exact absurd ((hblocked hu hawake).effective_le g (hb t)) (not_le.mpr hlt)
  · obtain ⟨v, hv, hlt⟩ := Kernel.exists_of_should (g'.kernel.bookkept hcalm.bookkept.symm)
      (hcalm.sameRun.currentTask.symm.trans (h.current.trans hruns.current)) hshould
    rw [← hcalm.tasks] at hv hlt
    have hv₀ : OwnerKeepsUp s m t v := by
      rw [h.state v] at hv
      split_ifs at hv with hnext
      · exact hblocked hnext.1 hnext.2
      · exact hkeep v (Or.inl hv)
    have hvt : v ≠ t := by
      rintro rfl
      exact lt_irrefl _ hlt
    rw [h.effective_of_ne g g' hruns ho hb hvt] at hlt
    exact absurd (hv₀.released h g g' hruns hb) (not_le.mpr hlt)

theorem step_task_pends (hs : s.Steady cfg) (hp : cfg.preemption = false) (hop : Considerate s (.task call))
    (hpend : (step cfg s (.task call)).kernel.pendSvPending = true) :
    s.kernel.pendSvPending = true ∨ ∃ c, GivesUp cfg s c (.task call) := by
  have g' := (hs.step (.task call)).good
  cases step_task_cases hs call with
  | refused _ hkernel => exact Or.inl (hkernel ▸ hpend)
  | changes _ hmutex hchange =>
    have hwakes : WakesNoBetter s false call := by
      cases call with
      | mutexUnlock m => simp [Call.isMutexCall] at hmutex
      | _ => exact hop
    refine (hchange.gives_up hs.good.kernel.toSound hp hwakes hpend).imp id ?_
    rintro ⟨c, hruns, hgives⟩
    refine ⟨c, hruns, hgives.imp (Or.imp (congrArg _) (congrArg _)) fun hstate =>
      ⟨Or.inl ⟨call, rfl⟩, hstate⟩⟩
  | locks m timeout outcome heffect =>
    refine (heffect.gives_up hpend).imp id ?_
    rintro ⟨c, hruns, hstate⟩
    exact ⟨c, hruns, Or.inr ⟨Or.inl ⟨_, rfl⟩, hstate⟩⟩
  | unlocks m t hruns ho heffect =>
    left
    rcases heffect.released hs.good.kernel hruns ho with hkernel | ⟨next, hreleased⟩
    · rwa [hkernel] at hpend
    · obtain ⟨hi, hkeep⟩ := hop hreleased.last
      exact hreleased.pends_of_keepsUp hs.good g' hruns ho (hi.balanced hs.good)
        (fun v hv => hkeep t v hruns.current hv) hpend

theorem step_isr_pends (hs : s.Steady cfg) {honoured : Bool} (hop : honoured = true → WakesNoBetter s true call) :
    (step cfg s (.isr call honoured)).kernel.pendSvPending = s.kernel.pendSvPending := by
  have he := step_effect hs.good hs.quiet (.isr call honoured)
  generalize step cfg s (.isr call honoured) = s' at he ⊢
  cases he with
  | isr _ _ r k _ _ heffect _ hkernel =>
    refine Eq.trans ?_ (heffect.isr_pends hs.good)
    rw [hkernel]
    split_ifs with hhonoured
    · rw [(heffect.isr_change hs.good).woken_false hs.good.kernel.toSound (hop hhonoured)]
      rfl
    · rfl

theorem TimerTick.pends (h : TimerTick cfg s s' woken) :
    s'.kernel.pendSvPending = s.kernel.pendSvPending := by
  rcases h.kernel_cases with ⟨hkernel, -⟩ | ⟨u, -, hgranted, -⟩
  · rw [hkernel]
  · exact hgranted.pends

theorem TimerTick.exists_woken (h : TimerTick cfg s s' woken) (hwoken : woken = true) :
    ∃ u, (s.kernel.tasks u).wait = some (.semaphoreTake .timerSignal) ∧ (s.kernel.tasks u).state ≠ .suspended ∧
      kernelOutranksCurrent s.kernel u = true := by
  rcases h.kernel_cases with ⟨-, hfalse⟩ | ⟨u, hwait, hgranted, htold⟩
  · exact absurd (hfalse.symm.trans hwoken) Bool.false_ne_true
  · have hpreempts := htold.symm.trans hwoken
    simp only [preemptsCurrent, Bool.and_eq_true, decide_eq_true_eq] at hpreempts
    exact ⟨u, hwait, hpreempts.1, hgranted.outranks hpreempts.2⟩

theorem Lapsed.blocked_of_wait {ms : Mutexes} {order : List TaskRef} (h : Lapsed ms k order k') (g' : k'.Sound cfg)
    {w : Wait} (hw : (k'.tasks u).wait = some w) (hs : (k'.tasks u).state ≠ .suspended) :
    (k.tasks u).state = .blocked := by
  have hblocked := (g'.state_of_wait hw).resolve_right hs
  by_cases hu : u ∈ order
  · rcases h.states u hu with ⟨hr, -⟩ | ⟨hr, -⟩
    · simp [hr] at hblocked
    · exact absurd hr hs
  · rwa [h.others u hu] at hblocked

theorem TickParts.woken_false {order : List TaskRef} (h : TickParts cfg s c order k s' woken)
    (g : s.Good cfg) (hop : TimersWakeNoBetter s) : woken = false := by
  by_contra hnot
  have hwoken : woken = true := Bool.eq_true_of_not_eq_false hnot
  obtain ⟨u, hw, hs, hout⟩ := h.timers.exists_woken hwoken
  have hl := h.lapsed
  have hcurrent : k.currentTask = some c := by
    rw [hl.frame]
    exact h.current
  simp only [kernelOutranksCurrent, hcurrent, Bool.and_eq_true, decide_eq_true_eq] at hout
  refine absurd ?_ (not_le.mpr hout.2)
  obtain ⟨hle, hlapses⟩ := hop (h.expired hwoken) c u h.current (hl.waits u _ hw)
    (hl.blocked_of_wait h.good.kernel.toSound hw hs)
  by_cases hlock : LockLapses s
  · obtain ⟨hi, hbase⟩ := hlapses hlock
    have hb := hi.balanced g
    have hrises := hl.rises (fun _ => hb) u
    have hkept : (k.tasks c).effectivePriority ≤ (s.kernel.tasks c).basePriority := by
      rw [← hl.base c]
      exact (hl.balanced hb c).2 (Or.inl rfl)
    exact hkept.trans (hbase.trans hrises)
  · have hsame := hl.same (fun t ht m hm => hlock ⟨t, m, hm, h.due t ht⟩)
    rwa [hsame c, hsame u]

theorem step_tick_pends (hs : s.Steady cfg) (ht : s.Timed cfg) (hp : cfg.preemption = false)
    (hts : cfg.timeSlicing = false) (hop : TimersWakeNoBetter s) :
    (step cfg s .tick).kernel.pendSvPending = s.kernel.pendSvPending := by
  by_cases hk : s.kernel.state = .running
  swap
  · simp [step, kernelTickFromIsr, hk]
  obtain ⟨c, order, k, s₃, woken, h⟩ := tick_parts hs ht hk
  have hend : (kernelTickEnd cfg s₃.kernel c false).pendSvPending = s₃.kernel.pendSvPending := by
    simp only [kernelTickEnd, kernelTickCurrent, hp, hts, yieldFromIsr, Bool.false_and, Bool.or_self,
      Bool.false_eq_true,
      ↓reduceIte]
    split <;> rfl
  have hframe : k.pendSvPending = s.kernel.pendSvPending := by
    rw [h.lapsed.frame]
  obtain rfl := h.woken_false hs.good hop
  simp only [step, h.result]
  exact hend.trans (h.timers.pends.trans hframe)

theorem step_pends (hs : s.Steady cfg) (ht : s.Timed cfg) (hp : cfg.preemption = false) (hts : cfg.timeSlicing = false)
    (hop : Considerate s op) (hne : op ≠ .pendsv) (hpend : (step cfg s op).kernel.pendSvPending = true) :
    s.kernel.pendSvPending = true ∨ ∃ c, GivesUp cfg s c op := by
  cases op with
  | task call => exact step_task_pends hs hp hop hpend
  | isr call honoured => exact Or.inl (step_isr_pends hs hop ▸ hpend)
  | service =>
    have hchange : (Call.taskStart none).Change cfg s false (step cfg s .service).kernel false := step_service_change hs
    refine (hchange.gives_up hs.good.kernel.toSound hp
      (fun l u hl => by simp [Call.serving, Call.passes] at hl) hpend).imp id ?_
    rintro ⟨c, hruns, hgives⟩
    exact ⟨c, hruns, Or.inr ⟨Or.inr rfl, hgives.resolve_left (by simp)⟩⟩
  | tick => exact Or.inl (step_tick_pends hs ht hp hts hop ▸ hpend)
  | pendsv => exact absurd rfl hne
  | start =>
    by_cases hk : s.kernel.state = .initialized
    · obtain ⟨next, -, he, -⟩ := step_start_eq hs.good hk
      rw [he] at hpend
      exact Or.inl hpend
    · exact Or.inl (by simpa [step, hk] using hpend)
  | writeBuffer b content => exact Or.inl hpend
  | writeAnchor a value => exact Or.inl hpend

theorem step_pendsv_pends (hs : s.Steady cfg) (hc : s.kernel.currentTask = some c) :
    (step cfg s .pendsv).kernel.pendSvPending = false := by
  have hk : s.kernel.state = .running := by
    rcases hs.good.kernel.booted with hb | hb
    · simp [hs.good.kernel.unstarted hb] at hc
    · exact hb
  obtain ⟨current, next, -, -, he, -⟩ := step_pendsv_eq hs.good hk
  rw [he]
  simp [Kernel.switch, Kernel.rotate]

theorem GaveUp.append {ops : List Op} (h : GaveUp cfg c ops) (hop : op ≠ .pendsv) :
    GaveUp cfg c (ops ++ [op]) := by
  obtain ⟨before, o, after, hsplit, hgives, hafter⟩ := h
  refine ⟨before, o, after ++ [op], ?_, hgives, ?_⟩
  · rw [hsplit, List.append_assoc, List.cons_append]
  · rw [List.mem_append, List.mem_singleton]
    exact not_or.mpr ⟨hafter, hop.symm⟩

theorem exec_pends (hp : cfg.preemption = false) (hts : cfg.timeSlicing = false) (ops : List Op)
    (hops : Meets (step cfg) Considerate (boot cfg) ops)
    (hpend : (exec cfg (boot cfg) ops).kernel.pendSvPending = true) :
    ∃ c, (exec cfg (boot cfg) ops).kernel.currentTask = some c ∧ GaveUp cfg c ops := by
  induction ops using List.reverseRecOn with
  | nil => simp [exec, boot_eq, Kernel.register, Kernel.bare, Kernel.create, Kernel.reset] at hpend
  | append_singleton ops op ih =>
    obtain ⟨hinit, hop, -⟩ := meets_append.mp hops
    change Considerate (exec cfg (boot cfg) ops) op at hop
    have hstep : exec cfg (boot cfg) (ops ++ [op]) = step cfg (exec cfg (boot cfg) ops) op := by simp [exec]
    rw [hstep] at hpend ⊢
    have hs : (exec cfg (boot cfg) ops).Steady cfg := (boot_steady cfg).exec ops
    have ht : (exec cfg (boot cfg) ops).Timed cfg := reachable_timed ⟨ops, rfl⟩
    by_cases hne : op = .pendsv
    · subst hne
      obtain ⟨c, hc, -⟩ := ih hinit hop
      simp [step_pendsv_pends hs hc] at hpend
    · have hcurrent := fun c => (step_stepped hs.good hs.quiet op).current (c := c) hs.good hne
      rcases step_pends hs ht hp hts hop hne hpend with hbefore | ⟨c, hgives⟩
      · obtain ⟨c, hc, hgave⟩ := ih hinit hbefore
        exact ⟨c, hcurrent c hc, hgave.append hne⟩
      · exact ⟨c, hcurrent c hgives.1.current, ops, op, [], rfl, hgives, List.not_mem_nil⟩

end

/-- Without preemption and time slices, in every run whose operations are considerate, a task stays the current one
until it gives the processor up itself. -/
theorem replaced_task_gave_up (cfg : Config) (hp : cfg.preemption = false) (hts : cfg.timeSlicing = false)
    (ops : List Op) (op : Op) (hops : Meets (step cfg) Considerate (boot cfg) (ops ++ [op])) (c : TaskRef)
    (hc : (exec cfg (boot cfg) ops).kernel.currentTask = some c)
    (hreplaced : (exec cfg (boot cfg) (ops ++ [op])).kernel.currentTask ≠ some c) : GaveUp cfg c ops := by
  obtain ⟨hinit, hop, -⟩ := meets_append.mp hops
  change Considerate (exec cfg (boot cfg) ops) op at hop
  have hs : (exec cfg (boot cfg) ops).Steady cfg := (boot_steady cfg).exec ops
  by_cases hne : op = .pendsv
  · subst hne
    obtain ⟨d, hd, hgave⟩ := exec_pends hp hts ops hinit hop
    obtain rfl := Option.some.inj (hc.symm.trans hd)
    exact hgave
  · refine absurd ?_ hreplaced
    rw [show exec cfg (boot cfg) (ops ++ [op]) = step cfg (exec cfg (boot cfg) ops) op by simp [exec]]
    exact (step_stepped hs.good hs.quiet op).current hs.good hne hc

def Config.cooperative : Config :=
  { Config.standard with preemption := false, timeSlicing := false, timeSliceTicks_ne := by decide }

def yieldRun : List Op :=
  launch 0 3 ++ launch 1 3 ++
    [.task (.semaphoreCreateBinary (some 0) false), .start, .task (.semaphoreTake (some 0) waitForever), .pendsv,
      .task (.semaphoreGive (some 0)), .task .taskYield]

theorem replaced_task_gave_up_yieldRun :
    ((exec .cooperative (boot .cooperative) (yieldRun.take 8)).kernel.tasks (.app 0)).state = .blocked ∧
      ((exec .cooperative (boot .cooperative) (yieldRun.take 9)).kernel.tasks (.app 0)).state = .ready ∧
      (exec .cooperative (boot .cooperative) (yieldRun ++ [.pendsv])).kernel.currentTask = some (.app 0) ∧
      GaveUp .cooperative (.app 1) yieldRun := by
  have hops : Meets (step .cooperative) Considerate (boot .cooperative) (yieldRun ++ [.pendsv]) := by
    refine ⟨?_, ?_, ?_, ?_, ?_, trivial, ?_, ?_, ?_, ?_, ?_, trivial⟩ <;> simp only [Considerate] <;> decide +kernel
  exact ⟨by decide +kernel, by decide +kernel, by decide +kernel,
    replaced_task_gave_up .cooperative rfl rfl yieldRun .pendsv hops (.app 1) (by decide +kernel)
      (by decide +kernel)⟩

def waitingRun : List Op :=
  launch 0 1 ++ launch 1 3 ++
    [.task (.semaphoreCreateBinary (some 0) false), .start, .task (.semaphoreTake (some 0) waitForever), .pendsv]

/-- Task 1 gives the semaphore, which succeeds and leaves it RUNNING, and the PendSV that follows replaces it. -/
theorem giver_replaced :
    let s := exec .cooperative (boot .cooperative) waitingRun
    let give := Op.task (.semaphoreGive (some 0))
    s.kernel.currentTask = some (.app 1) ∧ (s.kernel.tasks (.app 1)).state = .running ∧
      s.kernel.pendSvPending = false ∧ (call .cooperative s false (.semaphoreGive (some 0))).outcome =
        .returned .ok ∧
      ((step .cooperative s give).kernel.tasks (.app 1)).state = .running ∧
      (step .cooperative s give).kernel.pendSvPending = true ∧
      (exec .cooperative s [give, .pendsv]).kernel.currentTask = some (.app 0) := by
  decide +kernel

end Hairtos
