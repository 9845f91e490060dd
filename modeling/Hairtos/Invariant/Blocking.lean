import Hairtos.Invariant.Turn

namespace Hairtos

open Library

def Call.request (s : System) : Call → Option (Wait × Option Tick)
  | .taskDelay ticks => some (.delay, some ticks)
  | .taskDelayUntil (some a) period => some (.delay, some (s.anchors a + period - s.kernel.tick))
  | .queueSend (some q) (some b) timeout => some (.queueSend q b, timeoutTicks timeout)
  | .queueReceive (some q) (some b) timeout => some (.queueReceive q b, timeoutTicks timeout)
  | .semaphoreTake (some n) timeout => some (.semaphoreTake (.app n), timeoutTicks timeout)
  | .mutexLock (some m) timeout => some (.mutexLock m, timeoutTicks timeout)
  | _ => none

def Op.request (s : System) : Op → Option (Wait × Option Tick)
  | .task c => c.request s
  | .service => some (.semaphoreTake .timerSignal, none)
  | _ => none

def Op.blocks (cfg : Config) (s : System) : Op → Bool
  | .task c => canCall s && decide ((call cfg s false c).outcome = .blocked)
  | .service =>
    serviceRuns s && decide (s.service = .taking) &&
      decide ((semaphoreTake cfg s false (some .timerSignal) waitForever).2 = .blocked)
  | _ => false

structure Begins (s : System) (t : TaskRef) (w : Wait) (ticks : Option Tick) (s' : System) : Prop where
  starts : WaitStarts s.kernel t w ticks s'.kernel
  pending : (s'.kernel.tasks t).waitResult = w.pendingResult
  state : (s'.kernel.tasks t).state = .blocked
  frame : s' = { s with kernel := s'.kernel, service := s'.service, anchors := s'.anchors }

structure TurnedDown (s : System) (t : TaskRef) (m : MutexRef) (s' : System) : Prop where
  runs : s.kernel.Runs t
  wait : (s'.kernel.tasks t).wait = none
  result : (s'.kernel.tasks t).waitResult = .internal
  frame : s' = { s with kernel := s'.kernel }
  cycle : ∃ o, (s.mutexes.blocks m).owner = some o ∧
    Relation.ReflTransGen (fun a b => waitsFor s.kernel s.mutexes a = some b) o t

section

variable {cfg : Config} {s s' : System} {t : TaskRef} {w : Wait} {ticks : Option Tick}

theorem Begins.of_startWait (hruns : s.kernel.Runs t) (hd : ∀ d, ticks = some d → d ≠ 0#32 ∧ d ≠ waitForever)
    (service : ServicePhase) (anchors : Nat → Tick) :
    Begins s t w ticks
      { s with
        kernel := requestContextSwitch (s.kernel.startWait cfg t w ticks)
        service := service
        anchors := anchors } where
  starts := (Kernel.startWait_starts cfg w hruns hd).aside (Kernel.calm_requestContextSwitch _).bookkept.aside
  pending := by simp [requestContextSwitch, Kernel.startWait, waitingBlock]
  state := by simp [requestContextSwitch, Kernel.startWait, waitingBlock]
  frame := rfl

theorem Begins.of_delay {d : Tick} (hruns : s.kernel.Runs t) (h0 : d ≠ 0#32) (hf : d ≠ waitForever)
    (anchors : Nat → Tick) :
    Begins s t .delay (some d)
      { s with kernel := requestContextSwitch (s.kernel.startWait cfg t .delay (some d)), anchors := anchors } := by
  refine .of_startWait hruns ?_ s.service anchors
  rintro _ ⟨⟩
  exact ⟨h0, hf⟩

theorem Kernel.Runs.eq {k : Kernel} {u : TaskRef} (h : k.Runs t) (hu : k.Runs u) : u = t :=
  Option.some.inj (hu.current.symm.trans h.current)

theorem TakeEffect.begins {x : SemaphoreRef} {timeout : Tick} {caller : Option TaskRef}
    (h : TakeEffect cfg s x timeout caller s' .blocked) (hruns : s.kernel.Runs t) (service : ServicePhase) :
    Begins s t (.semaphoreTake x) (timeoutTicks timeout) { s' with service := service } := by
  cases h with
  | waits u hu _ _ hfinite =>
    obtain rfl := hruns.eq hu
    exact .of_startWait hruns (timeoutTicks_spec hfinite) service s.anchors

theorem LockEffect.begins {m : MutexRef} {timeout : Tick} (h : LockEffect cfg s m timeout s' .blocked)
    (hruns : s.kernel.Runs t) : Begins s t (.mutexLock m) (timeoutTicks timeout) s' ∨ TurnedDown s t m s' := by
  cases h with
  | waits u o k hu howner hother hfinite hreprio =>
    obtain rfl := hruns.eq hu
    have hstarts := (Kernel.startWait_starts cfg (.mutexLock m) hruns (timeoutTicks_spec hfinite)).aside hreprio.aside
    refine Or.inl ⟨hstarts.aside (Kernel.calm_requestContextSwitch _).bookkept.aside, ?_, ?_, rfl⟩
    all_goals
      simp only [requestContextSwitch]
      rw [hreprio.tasks u]
      simp [Kernel.startWait, waitingBlock]
  | refused u o k k' hu howner hfinite hreprio hwoken hcycle =>
    obtain rfl := hruns.eq hu
    refine Or.inr ⟨hruns, hwoken.wait_none, ?_, rfl, o, howner, hcycle⟩
    simp only [requestContextSwitch]
    rw [hwoken.task]
    rfl

theorem runs_of_blocks (hs : s.Steady cfg) {op : Op} (hc : s.kernel.currentTask = some t)
    (hb : op.blocks cfg s = true) : s.kernel.Runs t := by
  cases op with
  | task c =>
    simp only [Op.blocks, Bool.and_eq_true] at hb
    exact (called_of_canCall hs.good hb.1).runs hs.good t hc
  | service =>
    simp only [Op.blocks, serviceRuns, Bool.and_eq_true, decide_eq_true_eq] at hb
    obtain rfl := Option.some.inj (hb.1.1.1.2.symm.trans hc)
    exact ⟨hb.1.1.1.1, hc, hb.1.1.2, by simp⟩
  | _ => simp [Op.blocks] at hb

theorem CallEffect.begins {inIsr : Bool} {c : Call} {r : CallResult} (he : CallEffect cfg s inIsr c r)
    (hruns : s.kernel.Runs t) (hb : r.outcome = .blocked) :
    ∃ w ticks, c.request s = some (w, ticks) ∧
      (Begins s t w ticks r.system ∨ ∃ m, w = .mutexLock m ∧ TurnedDown s t m r.system) := by
  cases he with
  | delay u d _ hu h0 hf =>
    obtain rfl := hruns.eq hu
    exact ⟨_, _, rfl, Or.inl (.of_delay hruns h0 hf s.anchors)⟩
  | delayUntil u a period ticks hticks _ hu h0 hf =>
    obtain rfl := hruns.eq hu
    subst hticks
    exact ⟨_, _, rfl, Or.inl (.of_delay hruns h0 hf _)⟩
  | send q b timeout r _ _ heffect =>
    refine ⟨_, _, rfl, Or.inl ?_⟩
    cases heffect with
    | waits u hu _ _ _ hfinite =>
      obtain rfl := hruns.eq hu
      exact .of_startWait hruns (timeoutTicks_spec hfinite) s.service s.anchors
    | _ => simp [QueueResult.finish] at hb
  | receive q b timeout r _ _ heffect =>
    refine ⟨_, _, rfl, Or.inl ?_⟩
    cases heffect with
    | waits u hu _ _ _ hfinite =>
      obtain rfl := hruns.eq hu
      exact .of_startWait hruns (timeoutTicks_spec hfinite) s.service s.anchors
    | _ => simp [QueueResult.finish] at hb
  | take n timeout s₁ outcome _ _ heffect =>
    subst hb
    exact ⟨_, _, rfl, Or.inl (heffect.begins hruns s₁.service)⟩
  | lock m timeout s₁ outcome _ heffect =>
    subst hb
    exact ⟨_, _, rfl, (heffect.begins hruns).imp id (fun hdown => ⟨m, rfl, hdown⟩)⟩
  | _ => simp at hb

theorem step_begins (hs : s.Steady cfg) {op : Op} (hc : s.kernel.currentTask = some t) (hb : op.blocks cfg s = true) :
    ∃ w ticks, op.request s = some (w, ticks) ∧ (Begins s t w ticks (step cfg s op) ∨
      ∃ m, w = .mutexLock m ∧ TurnedDown s t m (step cfg s op)) := by
  have hruns := runs_of_blocks hs hc hb
  have he := step_effect hs.good hs.quiet op
  generalize step cfg s op = s' at he ⊢
  cases he with
  | noTask c hcan => simp [Op.blocks, hcan] at hb
  | task c r hcan heq _ heffect => exact heffect.begins hruns (by simpa [Op.blocks, hcan, heq] using hb)
  | noService hserves => simp [Op.blocks, hserves] at hb
  | service s' hserves _ heffect =>
    simp only [Op.blocks, Bool.and_eq_true, decide_eq_true_eq] at hb
    cases heffect with
    | halts status _ _ heq => simp [heq] at hb
    | takes s₁ outcome phase _ heq _ heffect =>
      obtain rfl : outcome = .blocked := by simpa [heq] using hb.2
      exact ⟨_, none, rfl, Or.inl (heffect.begins hruns _)⟩
    | _ => simp_all
  | _ => simp [Op.blocks] at hb

end

end Hairtos
