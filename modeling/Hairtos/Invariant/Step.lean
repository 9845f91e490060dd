import Hairtos.Invariant.Trace
import Hairtos.Invariant.Waits
import Hairtos.Invariant.Dispatch

namespace Hairtos

open Library

variable {order : List TaskRef} {r : CallResult}

structure Kernel.Charged (k k' : Kernel) : Prop where
  bookkept : k.Bookkept k'
  owned : ∀ t, (k'.tasks t).ownedMutexCount = (k.tasks t).ownedMutexCount
  pends : k.pendSvPending = true → k'.pendSvPending = true

def kernelTickEnd (cfg : Config) (k : Kernel) (current : TaskRef) (switchRequired : Bool) : Kernel :=
  let r := if (k.tasks current).state = .running then kernelTickCurrent cfg k current switchRequired
    else (k, switchRequired)
  yieldFromIsr r.1 r.2

inductive Expiry (cfg : Config) : System → List TaskRef → System → Prop
  | nil {s : System} (quiet : s.kernel.Quiet) : Expiry cfg s [] s
  | cons {s s' : System} {t : TaskRef} {rest : List TaskRef} (w : Wait) (k : Kernel)
      (first : s.kernel.timeoutList.lists.seq .expired = t :: rest) (wait : (s.kernel.tasks t).wait = some w)
      (woken : Woken cfg s.kernel t w.deadlineResult k) (acts : Acts cfg s true { s with kernel := k })
      (lapses : Lapses s.mutexes s.kernel t k)
      (balanced : (∀ u, Balanced s.kernel s.mutexes u) → ∀ u, Balanced k s.mutexes u)
      (next : Expiry cfg { s with kernel := k } rest s') : Expiry cfg s (t :: rest) s'

def System.ticked (s : System) (timeoutList : TimeoutList TaskRef) : System :=
  { s with kernel := { s.kernel with timeoutList := timeoutList, tick := s.kernel.tick + 1#32 } }

inductive TimerTick (cfg : Config) (s : System) : System → Bool → Prop
  | silent (timers : TimerSystem) : TimerTick cfg s { s with timers := timers } false
  | signals (timers : TimerSystem) (s' : System) (woken : Bool) (status : Status)
      (effect : GiveEffect cfg { s with timers := timers } .timerSignal s' woken status) : TimerTick cfg s s' woken

inductive ServiceEffect (cfg : Config) (s : System) : System → Prop
  | halts (status : Status) (taking : s.service = .taking) (failed : status ≠ .ok)
      (eq : semaphoreTake cfg s false (some .timerSignal) waitForever = (s, .returned status)) :
      ServiceEffect cfg s { s with service := .halted }
  | takes (s₁ : System) (outcome : Outcome) (phase : ServicePhase) (taking : s.service = .taking)
      (eq : semaphoreTake cfg s false (some .timerSignal) waitForever = (s₁, outcome))
      (valid : semaphoreIsValid s .timerSignal = true)
      (effect : TakeEffect cfg s .timerSignal waitForever s.kernel.currentTask s₁ outcome)
        (good : s₁.kernel.Good cfg)
      (next : phase = if outcome = .blocked then .waiting else .draining) :
      ServiceEffect cfg s { s₁ with service := phase }
  | resumes (waiting : s.service = .waiting) :
      ServiceEffect cfg s
        { s with service := if (s.kernel.tasks .timerService).waitResult = .ok then .draining else .halted }
  | begins (timers : TimerSystem) (pending : Option TimerRef) (draining : s.service = .draining)
      (eq : timerBeginPending s = ({ s with timers := timers }, pending)) :
      ServiceEffect cfg s { s with timers := timers, service := pending.elim .taking .callback }
  | ends (t : TimerRef) (callback : s.service = .callback t) :
      ServiceEffect cfg s { timerEndPending s t with service := .draining }
  | halted (halted : s.service = .halted) : ServiceEffect cfg s s

inductive TickEffect (cfg : Config) (s : System) : System → Prop
  | mk {timeoutList : TimeoutList TaskRef} {order : List TaskRef} {s₂ s₃ : System} {owed : Bool} (current : TaskRef)
      (switchRequired : Bool) (advance : s.kernel.timeoutList.Ticked timeoutList)
      (good : (s.ticked timeoutList).Good cfg) (expiry : Expiry cfg (s.ticked timeoutList) order s₂)
      (timers : Trace cfg s₂ owed s₃) (hcurrent : s₃.kernel.currentTask = some current) :
      TickEffect cfg s { s₃ with kernel := kernelTickEnd cfg s₃.kernel current switchRequired }

inductive Stepped (cfg : Config) (s : System) : Op → System → Prop
  | refused (op : Op) : Stepped cfg s op s
  | acts (op : Op) {s' : System} (trace : Trace cfg s false s') : Stepped cfg s op s'
  | lock (m : MutexRef) (timeout : Tick) (s' : System) (outcome : Outcome)
      (effect : LockEffect cfg s m timeout s' outcome) (good : s'.Good cfg) :
      Stepped cfg s (.task (.mutexLock (some m) timeout)) s'
  | isr (c : Call) (honoured : Bool) {owed : Bool} (s₁ : System) (k : Kernel) (trace : Trace cfg s owed s₁)
      (calm : s₁.kernel.Calm k) (pends : honoured = true → owed = true → k.pendSvPending = true) :
      Stepped cfg s (.isr c honoured) { s₁ with kernel := k }
  | tick (running : s.kernel.state = .running) (s' : System) (effect : TickEffect cfg s s') : Stepped cfg s .tick s'
  | pendsv (current next : TaskRef) (running : s.kernel.state = .running)
      (hcurrent : s.kernel.currentTask = some current)
      (selected : schedulerSelectHighest cfg ({ s.kernel with pendSvPending := false }.rotate cfg current).scheduler =
        some next)
      (good : (({ s.kernel with pendSvPending := false }.rotate cfg current).switch current next).Good cfg) :
      Stepped cfg s .pendsv
        { s with kernel := ({ s.kernel with pendSvPending := false }.rotate cfg current).switch current next }
  | start (next : TaskRef) (state : s.kernel.state = .initialized)
      (selected : schedulerSelectHighest cfg s.kernel.scheduler = some next)
      (good : ({ (kernelReloadTimeSlice cfg s.kernel next).switch next next with state := .running } :
        Kernel).Good cfg) :
      Stepped cfg s .start
        { s with kernel := { (kernelReloadTimeSlice cfg s.kernel next).switch next next with state := .running } }

structure TickRun (cfg : Config) (s : System) (timeoutList : TimeoutList TaskRef) (order : List TaskRef) (k : Kernel)
    (s₃ : System) (woken : Bool) (c : TaskRef) : Prop where
  running : s.kernel.state = .running
  advance : s.kernel.timeoutList.Ticked timeoutList
  advanced : kernelTickAdvance s.kernel = (s.ticked timeoutList).kernel
  begun : (s.ticked timeoutList).Good cfg
  seq : timeoutList.lists.seq .expired = order
  loop : k = kernelTickWakeLoop cfg s.mutexes order.length (kernelTickAdvance s.kernel)
  expiry : Expiry cfg (s.ticked timeoutList) order { s with kernel := k }
  good : ({ s with kernel := k } : System).Good cfg
  quiet : k.Quiet
  sameRun : SameRun (s.ticked timeoutList).kernel k
  result : timerTickFromIsr cfg { s with kernel := k } k.tick = (s₃, woken)
  timers : TimerTick cfg { s with kernel := k } s₃ woken
  trace : ∃ owed, Trace cfg { s with kernel := k } owed s₃
  good₃ : s₃.Good cfg
  current : s₃.kernel.currentTask = some c

inductive StepEffect (cfg : Config) (s : System) : Op → System → Prop
  | noTask (c : Call) (guard : canCall s = false) : StepEffect cfg s (.task c) s
  | task (c : Call) (r : CallResult) (guard : canCall s = true) (eq : call cfg s false c = r)
      (called : Called s false) (effect : CallEffect cfg s false c r) : StepEffect cfg s (.task c) r.system
  | isr (c : Call) (honoured : Bool) (r : CallResult) (k : Kernel) (guard : s.kernel.state ≠ .panic)
      (eq : call cfg s true c = r) (effect : CallEffect cfg s true c r) (calm : r.system.kernel.Calm k)
      (kernel : k = if honoured then yieldFromIsr r.system.kernel r.woken else r.system.kernel) :
      StepEffect cfg s (.isr c honoured) { r.system with kernel := k }
  | noService (guard : serviceRuns s = false) : StepEffect cfg s .service s
  | service (s' : System) (guard : serviceRuns s = true) (runs : s.kernel.Runs .timerService)
      (effect : ServiceEffect cfg s s') : StepEffect cfg s .service s'
  | noTick (guard : s.kernel.state ≠ .running) : StepEffect cfg s .tick s
  | tick (timeoutList : TimeoutList TaskRef) (order : List TaskRef) (k : Kernel) (s₃ : System) (woken : Bool)
      (c : TaskRef) (run : TickRun cfg s timeoutList order k s₃ woken c) :
      StepEffect cfg s .tick { s₃ with kernel := kernelTickEnd cfg s₃.kernel c woken }
  | noPendsv (guard : s.kernel.state ≠ .running) : StepEffect cfg s .pendsv s
  | pendsv (current next : TaskRef) (running : s.kernel.state = .running)
      (hcurrent : s.kernel.currentTask = some current)
      (selected : schedulerSelectHighest cfg ({ s.kernel with pendSvPending := false }.rotate cfg current).scheduler =
        some next)
      (good : (({ s.kernel with pendSvPending := false }.rotate cfg current).switch current next).Good cfg) :
      StepEffect cfg s .pendsv
        { s with kernel := ({ s.kernel with pendSvPending := false }.rotate cfg current).switch current next }
  | noStart (guard : s.kernel.state ≠ .initialized) : StepEffect cfg s .start s
  | start (next : TaskRef) (state : s.kernel.state = .initialized)
      (selected : schedulerSelectHighest cfg s.kernel.scheduler = some next)
      (good : ({ (kernelReloadTimeSlice cfg s.kernel next).switch next next with state := .running } :
        Kernel).Good cfg) :
      StepEffect cfg s .start
        { s with kernel := { (kernelReloadTimeSlice cfg s.kernel next).switch next next with state := .running } }
  | writeBuffer (b : BufferRef) (content : Nat → UInt8) :
      StepEffect cfg s (.writeBuffer b content) { s with memory := Function.update s.memory b content }
  | writeAnchor (a : Nat) (value : Tick) :
      StepEffect cfg s (.writeAnchor a value) { s with anchors := Function.update s.anchors a value }

section

variable {cfg : Config} {k k' : Kernel}

theorem Kernel.Charged.refl (k : Kernel) : k.Charged k := ⟨(Kernel.Calm.refl k).bookkept, fun _ => rfl, id⟩

theorem Kernel.Charged.trans {k'' : Kernel} (h : k.Charged k') (h' : k'.Charged k'') : k.Charged k'' :=
  ⟨h.bookkept.trans h'.bookkept, fun t => (h'.owned t).trans (h.owned t), fun hp => h'.pends (h.pends hp)⟩

theorem Kernel.Calm.charged (h : k.Calm k') : k.Charged k' :=
  ⟨h.bookkept, fun t => by rw [h.tasks], h.pends⟩

theorem Kernel.charged_updateTask (t : TaskRef) {f : TaskControlBlock → TaskControlBlock}
    (hf : f (k.tasks t) = { k.tasks t with
      timeSliceRemaining := (f (k.tasks t)).timeSliceRemaining
      runtimeCounter := (f (k.tasks t)).runtimeCounter }) : k.Charged (k.updateTask t f) := by
  have howned : ∀ u, ((k.updateTask t f).tasks u).ownedMutexCount = (k.tasks u).ownedMutexCount := by
    intro u
    by_cases hu : u = t
    · subst hu
      simp only [Kernel.updateTask, Function.update_self]
      rw [hf]
    · simp [Kernel.updateTask, hu]
  refine ⟨⟨rfl, fun u => ?_⟩, howned, id⟩
  rw [howned u]
  by_cases hu : u = t
  · subst hu
    simp only [Kernel.updateTask, Function.update_self]
    exact hf
  · simp [Kernel.updateTask, hu]

theorem Ownership.charged {ms : Mutexes} (own : Ownership k ms) (h : k.Charged k') : Ownership k' ms := by
  refine own.update (fun t ht => (h.bookkept.control.registered t).trans ht) h.owned ?_
  intro t m ht
  rwa [h.bookkept.wait t] at ht

theorem yieldFromIsr_calm (k : Kernel) (b : Bool) : k.Calm (yieldFromIsr k b) := by
  cases b
  · exact Kernel.Calm.refl k
  · exact Kernel.calm_requestContextSwitch k

theorem kernelReloadTimeSlice_charged (k : Kernel) (t : TaskRef) : k.Charged (kernelReloadTimeSlice cfg k t) :=
  Kernel.charged_updateTask t rfl

theorem kernelTickTimeSlice_charged (k : Kernel) (c : TaskRef) : k.Charged (kernelTickTimeSlice cfg k c).1 := by
  unfold kernelTickTimeSlice
  split
  · dsimp only
    have h1 : k.Charged (k.updateTask c (fun cb =>
        { cb with timeSliceRemaining :=
            if cb.timeSliceRemaining = 0#32 then 0#32 else cb.timeSliceRemaining - 1#32 })) :=
      Kernel.charged_updateTask c rfl
    split
    · exact (h1.trans (kernelReloadTimeSlice_charged _ c)).trans ⟨⟨rfl, fun _ => rfl⟩, fun _ => rfl, id⟩
    · exact h1
  · exact kernelReloadTimeSlice_charged k c

theorem kernelTickCurrent_charged (k : Kernel) (c : TaskRef) (b : Bool) :
    k.Charged (kernelTickCurrent cfg k c b).1 := by
  let k₁ := k.updateTask c (fun cb => { cb with runtimeCounter := cb.runtimeCounter + 1#32 })
  let preempt := cfg.preemption && schedulerShouldPreempt cfg k₁.scheduler c
  let k₂ := if preempt then { k₁ with switchReasons := { k₁.switchReasons with preempt := true } } else k₁
  have h1 : k.Charged k₁ := Kernel.charged_updateTask c rfl
  have h2 : k.Charged k₂ := by
    refine h1.trans (Kernel.Calm.charged ?_)
    simp only [k₂]
    split
    · exact ⟨rfl, id, rfl⟩
    · exact Kernel.Calm.refl k₁
  have heq : kernelTickCurrent cfg k c b =
      if cfg.timeSlicing && !(b || preempt) then kernelTickTimeSlice cfg k₂ c else (k₂, b || preempt) := rfl
  rw [heq]
  split
  · exact h2.trans (kernelTickTimeSlice_charged k₂ c)
  · exact h2

theorem kernelTickEnd_charged (cfg : Config) (k : Kernel) (c : TaskRef) (b : Bool) :
    k.Charged (kernelTickEnd cfg k c b) := by
  unfold kernelTickEnd
  dsimp only
  refine Kernel.Charged.trans ?_ (yieldFromIsr_calm _ _).charged
  split
  · exact kernelTickCurrent_charged k c b
  · exact Kernel.Charged.refl k

end

section

variable {cfg : Config} {s s' : System}

theorem timerExpire_frame (s : System) (t : TimerRef) :
    (timerExpire s t).1 = { s with timers := (timerExpire s t).1.timers } := by
  unfold timerExpire
  split
  · rfl
  · dsimp only
    split <;> rfl

theorem timerExpireLoop_frame (fuel : Nat) (s : System) (signal : Bool) :
    (timerExpireLoop fuel s signal).1 = { s with timers := (timerExpireLoop fuel s signal).1.timers } := by
  induction fuel generalizing s signal with
  | zero => rfl
  | succ fuel ih =>
    unfold timerExpireLoop
    rcases listPopFront s.timers.timeouts.lists .expired with ⟨lists, _ | t⟩
    · rfl
    · dsimp only
      have hframe := timerExpire_frame
        { s with timers := { s.timers with timeouts := { s.timers.timeouts with lists := lists } } } t
      generalize timerExpire { s with
        timers := { s.timers with timeouts := { s.timers.timeouts with lists := lists } } } t = r at hframe
      obtain ⟨s₁, b⟩ := r
      dsimp only at hframe
      cases b with
      | true =>
        dsimp only
        rw [ih s₁ true, hframe]
      | false =>
        dsimp only
        rw [hframe]

theorem timers_trace (h : s.Good cfg) (timers : TimerSystem) : Trace cfg s false { s with timers := timers } :=
  Trace.calm h timers s.service s.anchors (Kernel.Calm.refl s.kernel)

theorem timerTickFromIsr_timerTick (h : s.Good cfg) (hq : s.kernel.Quiet) (now : Tick) :
    TimerTick cfg s (timerTickFromIsr cfg s now).1 (timerTickFromIsr cfg s now).2 ∧
      ∃ owed, Trace cfg s owed (timerTickFromIsr cfg s now).1 := by
  unfold timerTickFromIsr
  split
  · exact ⟨.silent s.timers, _, .nil s⟩
  dsimp only
  split
  · exact ⟨.silent _, _, timers_trace h _⟩
  generalize listSize (timeoutListAdvance s.timers.timeouts now).1.lists .expired = fuel
  generalize hs₁ : ({ s with timers := _ } : System) = s₁
  have hframe : (timerExpireLoop fuel s₁ false).1 =
      { s with timers := (timerExpireLoop fuel s₁ false).1.timers } := by
    rw [timerExpireLoop_frame fuel s₁ false, ← hs₁]
  generalize timerExpireLoop fuel s₁ false = r at hframe
  obtain ⟨s₂, signal⟩ := r
  dsimp only at hframe ⊢
  rw [hframe]
  have htrace := timers_trace h s₂.timers
  rcases signal with _ | _ | _
  · exact ⟨.silent _, _, htrace⟩
  · exact ⟨.silent _, _, htrace⟩
  · simp only [semaphoreGiveFromIsr]
    split_ifs with hv
    · exact ⟨.silent _, _, htrace⟩
    · exact ⟨.silent _, _, htrace⟩
    obtain ⟨hgive, g'⟩ := semaphoreGiveLocked_effect (s := { s with timers := s₂.timers }) h.kernel .timerSignal
      (fresh_of_quiet hq _)
    generalize semaphoreGiveLocked cfg { s with timers := s₂.timers } .timerSignal = r at hgive g'
    obtain ⟨s₃, woken, status⟩ := r
    have hstatus : ((decide (status = .ok) || decide (status = .semaphoreFull)) && woken) = woken := by
      dsimp only at hgive
      cases hgive <;> simp
    have hacts := (htrace.good h).acts (.give .timerSignal s₃ woken status _ woken (by simpa using hv) hgive
      (Kernel.Calm.refl _) Or.inl) g' (hgive.ownership h.owners)
    dsimp only
    rw [hstatus]
    exact ⟨.signals _ _ _ _ hgive, _, htrace.trans (.single hacts)⟩

theorem timerTickFromIsr_trace (h : s.Good cfg) (hq : s.kernel.Quiet) (now : Tick) :
    ∃ owed, Trace cfg s owed (timerTickFromIsr cfg s now).1 :=
  (timerTickFromIsr_timerTick h hq now).2

theorem kernelTickWake_acts (h : s.Good cfg) {t : TaskRef} {rest : List TaskRef}
    (hx : s.kernel.timeoutList.lists.seq .expired = t :: rest) :
    ∃ w, (s.kernel.tasks t).wait = some w ∧
      Woken cfg s.kernel t w.deadlineResult (kernelTickWake cfg s.mutexes s.kernel) ∧
      ((∀ u, Balanced s.kernel s.mutexes u) → ∀ u, Balanced (kernelTickWake cfg s.mutexes s.kernel)
        s.mutexes u) ∧
      Acts cfg s true { s with kernel := kernelTickWake cfg s.mutexes s.kernel } ∧
      (kernelTickWake cfg s.mutexes s.kernel).timeoutList.lists.seq .expired = rest ∧
      ∀ fuel, kernelTickWakeLoop cfg s.mutexes (fuel + 1) s.kernel =
        kernelTickWakeLoop cfg s.mutexes fuel (kernelTickWake cfg s.mutexes s.kernel) := by
  obtain ⟨w, hw, hwoken, g', hbal, -⟩ := kernelTickWake_spec h.kernel h.owners hx
  have hpanic : s.kernel.state ≠ .panic := by
    rcases h.kernel.booted with hb | hb <;> simp [hb]
  refine ⟨w, hw, hwoken, hbal, ?_, ?_, fun fuel => if_neg hpanic⟩
  · exact h.acts (.expire t w _ (s.kernel.timeoutList.lists.host_of_head hx) hw hwoken hbal) g'
      (hwoken.ownership h.owners)
  · rw [hwoken.timeouts, ListFamily.unlink_seq, hx, List.erase_cons_head]

theorem kernelTickWakeLoop_expiry (h : s.Good cfg)
    (hx : s.kernel.timeoutList.lists.seq .expired = order) :
    Expiry cfg s order { s with kernel := kernelTickWakeLoop cfg s.mutexes order.length s.kernel } := by
  induction order generalizing s with
  | nil => exact .nil hx
  | cons t rest ih =>
    obtain ⟨w, hw, hwoken, hbal, hacts, hrest, hloop⟩ := kernelTickWake_acts h hx
    refine .cons w _ hx hw hwoken hacts (kernelTickWake_lapses h.kernel h.owners hx) hbal ?_
    rw [List.length_cons, hloop]
    exact ih (s := { s with kernel := kernelTickWake cfg s.mutexes s.kernel }) hacts.good hrest

theorem Expiry.trace (h : Expiry cfg s order s') : ∃ owed, Trace cfg s owed s' := by
  induction h with
  | nil => exact ⟨_, .nil _⟩
  | cons w k _ _ _ hacts _ _ _ ih =>
    obtain ⟨owed, htrace⟩ := ih
    exact ⟨_, .cons hacts htrace⟩

theorem Expiry.quiet (h : Expiry cfg s order s') : s'.kernel.Quiet := by
  induction h with
  | nil hq => exact hq
  | cons _ _ _ _ _ _ _ _ _ ih => exact ih

theorem service_trace (h : s.Good cfg) (timers : TimerSystem) (phase : ServicePhase) :
    Trace cfg s false { s with timers := timers, service := phase } :=
  Trace.calm h timers phase s.anchors (Kernel.Calm.refl s.kernel)

theorem timerBeginPending_frame (s : System) :
    (timerBeginPending s).1 = { s with timers := (timerBeginPending s).1.timers } := by
  unfold timerBeginPending
  split
  · rfl
  rcases listPopFront s.timers.pending () with ⟨pending, _ | t⟩
  · rfl
  · dsimp only
    split <;> rfl

theorem timerServiceStep_effect (h : s.Good cfg) (hruns : s.kernel.Runs .timerService) :
    ServiceEffect cfg s (timerServiceStep cfg s) := by
  unfold timerServiceStep
  cases hp : s.service with
  | taking =>
    rcases semaphoreTake_effect h.kernel false (fun _ _ => ⟨_, hruns⟩) (some .timerSignal) waitForever with
      ⟨status, hne, he⟩ | ⟨x, hx, hm, -, heffect, g'⟩
    · simp only [he, hne, ↓reduceIte]
      exact .halts status hp hne he
    · obtain rfl := Option.some.inj hx
      generalize he : semaphoreTake cfg s false (some .timerSignal) waitForever = r at heffect g'
      obtain ⟨s₁, outcome⟩ := r
      have htakes := fun phase => ServiceEffect.takes s₁ outcome phase hp he (h.semaphores _ hm) heffect g'
      cases heffect
      · exact htakes .draining rfl
      · exact htakes .waiting rfl
  | waiting => exact .resumes hp
  | draining =>
    have hframe := timerBeginPending_frame s
    dsimp only
    rcases hr : timerBeginPending s with ⟨s₁, pending⟩
    rw [hr] at hframe
    dsimp only at hframe
    rw [hframe] at hr ⊢
    cases pending <;> exact .begins s₁.timers _ hp hr
  | callback t => exact .ends t hp
  | halted => exact .halted hp

theorem ServiceEffect.trace (he : ServiceEffect cfg s s') (h : s.Good cfg) (hruns : s.kernel.Runs .timerService) :
    Trace cfg s false s' := by
  cases he with
  | halts => exact service_trace h s.timers _
  | takes s₁ outcome phase _ _ hv heffect hgood =>
    have hcaller : ∀ t, s.kernel.currentTask = some t → s.kernel.Runs t := fun t ht => by
      rwa [← Option.some.inj (hruns.current.symm.trans ht)]
    have htrace := Trace.single (h.acts (.take _ _ _ _ hcaller hv heffect) hgood (heffect.ownership h.owners))
    exact htrace.trans (service_trace (htrace.good h) s₁.timers phase)
  | resumes => exact service_trace h s.timers _
  | begins timers => exact service_trace h timers _
  | ends t => exact service_trace h _ _
  | halted => exact .nil s

theorem called_of_canCall (h : s.Good cfg) (hc : canCall s = true) : Called s false := by
  intro _ hk
  obtain ⟨t, ht, -⟩ := h.kernel.started hk
  simp only [canCall, hk, ht, Bool.and_eq_true, decide_eq_true_eq] at hc
  exact ⟨t, hk, ht, hc.1.1, hc.1.2⟩

theorem kernelTickFinish_eq (h : s.Good cfg) (hk : s.kernel.state = .running) (hq : s.kernel.Quiet) :
    ∃ current, (timerTickFromIsr cfg s s.kernel.tick).1.kernel.currentTask = some current ∧
      kernelTickFinish cfg s =
        { (timerTickFromIsr cfg s s.kernel.tick).1 with
          kernel := kernelTickEnd cfg (timerTickFromIsr cfg s s.kernel.tick).1.kernel current
            (timerTickFromIsr cfg s s.kernel.tick).2 } := by
  obtain ⟨owed, htrace⟩ := timerTickFromIsr_trace h hq s.kernel.tick
  have h₃ := htrace.good h
  obtain ⟨c, hc, -, hreg⟩ := h₃.kernel.started (htrace.sameRun.state.trans hk)
  have hm : ((timerTickFromIsr cfg s s.kernel.tick).1.kernel.tasks c).magic = true :=
    (h₃.kernel.shape c).magic_of_registered hreg
  refine ⟨c, hc, ?_⟩
  simp only [kernelTickFinish, hc, taskIsValid, hm, Bool.not_true, Bool.false_eq_true, ↓reduceIte]
  rfl

theorem kernelTickFromIsr_run (h : s.Good cfg) (hq : s.kernel.Quiet) (hk : s.kernel.state = .running) :
    ∃ timeoutList order k s₃ woken c, TickRun cfg s timeoutList order k s₃ woken c ∧
      kernelTickFromIsr cfg s = { s₃ with kernel := kernelTickEnd cfg s₃.kernel c woken } := by
  obtain ⟨tl, he, hticked, g'⟩ := kernelTickAdvance_spec h.kernel hq
  have h₁ : (s.ticked tl).Good cfg := by
    refine ⟨?_, ?_, h.queues.congr rfl, h.semaphores.congr rfl⟩
    · rwa [he] at g'
    · exact h.owners.update (fun _ hr => hr) (fun _ => rfl) (fun _ _ hw => hw)
  have hadvanced : kernelTickAdvance s.kernel = (s.ticked tl).kernel := he
  have hexpiry := kernelTickWakeLoop_expiry h₁ rfl
  obtain ⟨owed, htrace⟩ := hexpiry.trace
  have hsame := htrace.sameRun
  have h₂ := htrace.good h₁
  set k := kernelTickWakeLoop cfg s.mutexes (tl.lists.seq .expired).length (s.ticked tl).kernel with hloop
  have hk₂ : k.state = .running := hsame.state.trans hk
  obtain ⟨c, hc, hfinish⟩ := kernelTickFinish_eq (s := { s with kernel := k }) h₂ hk₂ hexpiry.quiet
  obtain ⟨htimers, owed', htrace'⟩ :=
    timerTickFromIsr_timerTick (s := { s with kernel := k }) h₂ hexpiry.quiet k.tick
  refine ⟨tl, _, k, _, _, c,
    ⟨hk, hticked, hadvanced, h₁, rfl, by rw [hadvanced], hexpiry, h₂, hexpiry.quiet, hsame,
    rfl, htimers, ⟨owed', htrace'⟩, htrace'.good h₂, hc⟩, Eq.trans ?_ hfinish⟩
  unfold kernelTickFromIsr
  rw [if_neg (not_not_intro hk), hadvanced]
  exact if_neg (show ¬k.state = .panic by simp [hk₂])

theorem LockEffect.queuesValid {m : MutexRef} {timeout : Tick} {outcome : Outcome}
    (h : LockEffect cfg s m timeout s' outcome) (hq : s.QueuesValid) : s'.QueuesValid := by
  cases h <;> exact hq.congr rfl

theorem LockEffect.semaphoresValid {m : MutexRef} {timeout : Tick} {outcome : Outcome}
    (h : LockEffect cfg s m timeout s' outcome) (hx : s.SemaphoresValid) : s'.SemaphoresValid := by
  cases h <;> exact hx.congr rfl

theorem CallEffect.not_woken {c : Call} (he : CallEffect cfg s false c r) : r.woken = false := by
  cases he with
  | sendFromIsr q b r hisr => cases hisr
  | receiveFromIsr q b r hisr => cases hisr
  | giveFromIsr n s₁ woken status hisr => cases hisr
  | _ => rfl

theorem CallEffect.stepped {c : Call} (he : CallEffect cfg s false c r) (h : s.Good cfg)
    (hcaller : Called s false) : Stepped cfg s (.task c) r.system := by
  by_cases hlock : ∃ m timeout, c = .mutexLock m timeout
  · obtain ⟨m, timeout, rfl⟩ := hlock
    cases he with
    | refused => exact .refused _
    | lock m timeout s₁ outcome _ heffect hgood howners =>
      exact .lock m timeout _ _ heffect
        ⟨hgood, howners, heffect.queuesValid h.queues, heffect.semaphoresValid h.semaphores⟩
    | _ => simp_all [Call.usesTimer]
  · push Not at hlock
    have htrace := he.trace h hcaller hlock
    rw [he.not_woken] at htrace
    exact .acts _ htrace

theorem CallEffect.isr_trace {c : Call} (he : CallEffect cfg s true c r) (h : s.Good cfg) :
    Trace cfg s r.woken r.system := by
  by_cases hlock : ∃ m timeout, c = .mutexLock m timeout
  · obtain ⟨m, timeout, rfl⟩ := hlock
    cases he with
    | refused => exact .nil s
    | lock _ _ _ _ htask => cases htask
    | _ => simp_all
  · push Not at hlock
    exact he.trace h (by simp [Called]) hlock

theorem Call.servesFresh_of_quiet (hq : s.kernel.Quiet) (inIsr : Bool) (c : Call) : c.ServesFresh s inIsr :=
  fun l _ => fresh_of_quiet hq l

theorem isrStep_effect (h : s.Good cfg) (c : Call) (honoured : Bool) (hfresh : c.ServesFresh s true) :
    StepEffect cfg s (.isr c honoured) (isrStep cfg s c honoured) := by
  have hp : s.kernel.state ≠ .panic := by rcases h.kernel.booted with hb | hb <;> simp [hb]
  have heffect := call_effect h true (by simp [Called]) c hfresh
  cases honoured with
  | false => exact .isr c false _ _ hp rfl heffect (Kernel.Calm.refl _) rfl
  | true => exact .isr c true _ _ hp rfl heffect (yieldFromIsr_calm _ _) rfl

theorem step_pendsv_eq (h : s.Good cfg) (hk : s.kernel.state = .running) :
    ∃ current next, s.kernel.currentTask = some current ∧
      schedulerSelectHighest cfg ({ s.kernel with pendSvPending := false }.rotate cfg current).scheduler = some next ∧
      step cfg s .pendsv =
        { s with kernel := ({ s.kernel with pendSvPending := false }.rotate cfg current).switch current next } ∧
      (step cfg s .pendsv).kernel.Good cfg := by
  have g' : ({ s.kernel with pendSvPending := false } : Kernel).Good cfg := h.kernel.bookkept ⟨rfl, fun _ => rfl⟩
  obtain ⟨current, next, hc, hn, he, g''⟩ := kernelSelectNextFromPendsv_spec g' hk
  have hstep : step cfg s .pendsv =
      { s with kernel := kernelSelectNextFromPendsv cfg { s.kernel with pendSvPending := false } } := by
    simp [step, hk]
  refine ⟨current, next, hc, hn, ?_, ?_⟩
  · rw [hstep, he]
  · rw [hstep]
    exact g''

theorem step_start_eq (h : s.Good cfg) (hk : s.kernel.state = .initialized) :
    ∃ next, schedulerSelectHighest cfg s.kernel.scheduler = some next ∧
      step cfg s .start =
        { s with
          kernel := { (kernelReloadTimeSlice cfg s.kernel next).switch next next with state := .running } } ∧
      (step cfg s .start).kernel.Good cfg := by
  obtain ⟨next, hn, he, g'⟩ := kernelPrepareStart_spec h.kernel hk
  have hstep : step cfg s .start = { s with kernel := (kernelPrepareStart cfg s.kernel).1 } := by simp [step, hk]
  refine ⟨next, hn, ?_, ?_⟩
  · rw [hstep, he]
  · rw [hstep]
    exact g'

theorem step_effect (h : s.Good cfg) (hq : s.kernel.Quiet) (op : Op) : StepEffect cfg s op (step cfg s op) := by
  cases op with
  | task c =>
    cases hc : canCall s with
    | false => simpa [step, hc] using .noTask c hc
    | true =>
      have hcaller := called_of_canCall h hc
      simpa [step, hc] using .task c _ hc rfl hcaller (call_effect h false hcaller c (c.servesFresh_of_quiet hq false))
  | isr c honoured =>
    have hp : s.kernel.state ≠ .panic := by rcases h.kernel.booted with hb | hb <;> simp [hb]
    simpa [step, hp] using isrStep_effect h c honoured (c.servesFresh_of_quiet hq true)
  | service =>
    cases hs : serviceRuns s with
    | false => simpa [step, hs] using .noService hs
    | true =>
      have hruns : s.kernel.Runs .timerService := by
        simp only [serviceRuns, Bool.and_eq_true, decide_eq_true_eq] at hs
        exact ⟨hs.1.1, hs.1.2, hs.2, by simp⟩
      simpa [step, hs] using .service _ hs hruns (timerServiceStep_effect h hruns)
  | tick =>
    by_cases hk : s.kernel.state = .running
    · obtain ⟨tl, order, k, s₃, woken, c, hrun, he⟩ := kernelTickFromIsr_run h hq hk
      simpa [step, he] using .tick tl order k s₃ woken c hrun
    · simpa [step, kernelTickFromIsr, hk] using .noTick hk
  | pendsv =>
    by_cases hk : s.kernel.state = .running
    · obtain ⟨current, next, hc, hn, he, g'⟩ := step_pendsv_eq h hk
      rw [he] at g' ⊢
      exact .pendsv current next hk hc hn g'
    · simpa [step, hk] using .noPendsv hk
  | start =>
    by_cases hk : s.kernel.state = .initialized
    · obtain ⟨next, hn, he, g'⟩ := step_start_eq h hk
      rw [he] at g' ⊢
      exact .start next hk hn g'
    · simpa [step, hk] using .noStart hk
  | writeBuffer b content => exact .writeBuffer b content
  | writeAnchor a value => exact .writeAnchor a value

theorem TickRun.effect {tl : TimeoutList TaskRef} {k : Kernel} {s₃ : System} {woken : Bool}
    {c : TaskRef} (h : TickRun cfg s tl order k s₃ woken c) :
    TickEffect cfg s { s₃ with kernel := kernelTickEnd cfg s₃.kernel c woken } := by
  obtain ⟨owed, htrace⟩ := h.trace
  exact .mk c woken h.advance h.begun h.expiry htrace h.current

theorem kernelTickFromIsr_effect (h : s.Good cfg) (hq : s.kernel.Quiet) (hk : s.kernel.state = .running) :
    TickEffect cfg s (kernelTickFromIsr cfg s) := by
  obtain ⟨tl, order, k, s₃, woken, c, hrun, he⟩ := kernelTickFromIsr_run h hq hk
  rw [he]
  exact hrun.effect

theorem StepEffect.stepped {op : Op} (he : StepEffect cfg s op s') (h : s.Good cfg) : Stepped cfg s op s' := by
  cases he with
  | task c r _ _ hcaller heffect => exact heffect.stepped h hcaller
  | isr c honoured r k _ _ heffect hcalm hk =>
    refine .isr c honoured _ _ (heffect.isr_trace h) hcalm ?_
    rintro rfl hw
    simp [hk, hw, yieldFromIsr, requestContextSwitch]
  | service s' _ hruns heffect => exact .acts _ (heffect.trace h hruns)
  | tick tl order k s₃ woken c hrun => exact .tick hrun.running _ hrun.effect
  | pendsv current next hk hc hn hgood => exact .pendsv current next hk hc hn hgood
  | start next hk hn hgood => exact .start next hk hn hgood
  | writeBuffer b content => exact .acts _ (.single (h.acts (.write b content) h.kernel h.owners))
  | writeAnchor a value => exact .acts _ (Trace.calm h s.timers s.service _ (Kernel.Calm.refl s.kernel))
  | _ => exact .refused _

theorem step_stepped (h : s.Good cfg) (hq : s.kernel.Quiet) (op : Op) : Stepped cfg s op (step cfg s op) :=
  (step_effect h hq op).stepped h

end

end Hairtos
