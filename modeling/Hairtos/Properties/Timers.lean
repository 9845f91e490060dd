import Hairtos.Invariant.Alarms

namespace Hairtos

open Library

variable {op : Op} {reload : Bool} {ops : List Op}

def ticked (s : System) : Op → Nat
  | .tick => if s.kernel.state = .running then 1 else 0
  | _ => 0

def expired (cfg : Config) (t : TimerRef) (s : System) : Op → Nat
  | .tick => if s.kernel.state = .running then (timersExpired cfg s).count t else 0
  | _ => 0

def dequeued (t : TimerRef) (s : System) : Op → Nat
  | .service => if serviceRuns s && s.service = .draining && (timerBeginPending s).2 = some t then 1 else 0
  | _ => 0

def Call.arms (t : TimerRef) : Call → Bool
  | .timerStart u => u = some t
  | .timerReset u => u = some t
  | .timerChangePeriod u _ => u = some t
  | _ => false

def Call.stops (t : TimerRef) : Call → Bool
  | .timerStop u => u = some t
  | _ => false

def Call.controls (t : TimerRef) (c : Call) : Bool := c.arms t || c.stops t

def Op.succeeds (cfg : Config) (s : System) (kind : Call → Bool) : Op → Bool
  | .task c => canCall s && kind c && decide ((call cfg s false c).outcome = .returned .ok)
  | _ => false

def Without (cfg : Config) (kind : Call → Bool) : System → List Op → Prop
  | _, [] => True
  | s, op :: ops => op.succeeds cfg s kind = false ∧ Without cfg kind (step cfg s op) ops

inductive TimerTurn (cfg : Config) (t : TimerRef) (s : System) (op : Op) : Prop
  | none (event : op.alarmEvent cfg s t = none) (ticks : ticked s op = 0) (expiries : expired cfg t s op = 0)
      (callbacks : dequeued t s op = 0)
  | tick (event : op.alarmEvent cfg s t = some .tick) (ticks : ticked s op = 1)
      (expiries : expired cfg t s op = if (s.timers.alarm t).due then 1 else 0) (callbacks : dequeued t s op = 0)
  | serve (event : op.alarmEvent cfg s t = some .serve) (ticks : ticked s op = 0) (expiries : expired cfg t s op = 0)
      (callbacks : dequeued t s op = 1) (pending : 0 < (s.timers.alarm t).pending)
  | stop (event : op.alarmEvent cfg s t = some .stop) (call : op.succeeds cfg s (Call.stops t) = true)
      (ticks : ticked s op = 0) (expiries : expired cfg t s op = 0) (callbacks : dequeued t s op = 0)
  | arm (p : Nat) (event : op.alarmEvent cfg s t = some (.arm p)) (call : op.succeeds cfg s (Call.arms t) = true)
      (ticks : ticked s op = 0) (expiries : expired cfg t s op = 0) (callbacks : dequeued t s op = 0)

section

variable {cfg : Config} {s : System} {t : TimerRef} {p n : Nat}

theorem timerCreateStatic_fails (h : s.Timed cfg) (hm : (s.timers.blocks t).magic = true) (inIsr : Bool)
    (name : Option String) (period : Tick) (autoReload : Bool) (callback : Option Nat) :
    (timerCreateStatic cfg s inIsr (some t) name period autoReload callback).2 ≠ .ok := by
  have hv := h.sound.isValid hm
  unfold timerCreateStatic
  split
  · simp
  · dsimp only
    split_ifs <;> simp

theorem task_timerTurn (h : s.Timed cfg) (hm : (s.timers.blocks t).magic = true) (c : Call) :
    TimerTurn cfg t s (.task c) := by
  by_cases hok : canCall s = true ∧ (call cfg s false c).outcome = .returned .ok
  swap
  · refine .none ?_ rfl rfl rfl
    simp only [Op.alarmEvent, Bool.and_eq_true, decide_eq_true_eq, if_neg hok]
  have hevent : (Op.task c).alarmEvent cfg s t = (c.timerEvent s).bind
    (fun e => if e.1 = t then some e.2 else none) := by
    simp [Op.alarmEvent, hok]
  have hsucceeds : ∀ kind : Call → Bool, kind c = true → (Op.task c).succeeds cfg s kind = true := by
    intro kind hkind
    simp [Op.succeeds, hok, hkind]
  have harm : ∀ {u : TimerRef} {p : Nat}, c.timerEvent s = some (u, .arm p) → (u = t → c.arms t = true) →
      TimerTurn cfg t s (.task c) := by
    intro u p hc harms
    by_cases hu : u = t
    · exact .arm p (by simp [hevent, hc, hu]) (hsucceeds _ (harms hu)) rfl rfl rfl
    · exact .none (by simp [hevent, hc, hu]) rfl rfl rfl
  cases c with
  | timerCreateStatic timer name period autoReload callback =>
    rcases timer with _ | u
    · exact .none (by simp [hevent, Call.timerEvent]) rfl rfl rfl
    by_cases hu : u = t
    · subst hu
      refine absurd ?_ (timerCreateStatic_fails h hm false name period autoReload callback)
      simpa [call, statusResult] using hok.2
    · exact .none (by simp [hevent, Call.timerEvent, hu]) rfl rfl rfl
  | timerStart timer =>
    rcases timer with _ | u
    · exact .none (by simp [hevent, Call.timerEvent]) rfl rfl rfl
    · exact harm rfl (fun hu => by simp [Call.arms, hu])
  | timerReset timer =>
    rcases timer with _ | u
    · exact .none (by simp [hevent, Call.timerEvent]) rfl rfl rfl
    · exact harm rfl (fun hu => by simp [Call.arms, hu])
  | timerChangePeriod timer period =>
    rcases timer with _ | u
    · exact .none (by simp [hevent, Call.timerEvent]) rfl rfl rfl
    · exact harm rfl (fun hu => by simp [Call.arms, hu])
  | timerStop timer =>
    rcases timer with _ | u
    · exact .none (by simp [hevent, Call.timerEvent]) rfl rfl rfl
    by_cases hu : u = t
    · subst hu
      exact .stop (by simp [hevent, Call.timerEvent]) (hsucceeds _ (by simp [Call.stops])) rfl rfl rfl
    · exact .none (by simp [hevent, Call.timerEvent, hu]) rfl rfl rfl
  | _ => exact .none (by simp [hevent, Call.timerEvent]) rfl rfl rfl

theorem timerTurn (hs : s.Steady cfg) (h : s.Timed cfg) (hm : (s.timers.blocks t).magic = true) (op : Op) :
    TimerTurn cfg t s op := by
  cases op with
  | task c => exact task_timerTurn h hm c
  | service =>
    by_cases hserve : (serviceRuns s && s.service = .draining && (timerBeginPending s).2 = some t) = true
    · refine .serve (by simp only [Op.alarmEvent, hserve, ↓reduceIte]) rfl rfl
        (by simp only [dequeued, hserve, ↓reduceIte]) ?_
      simp only [Bool.and_eq_true, decide_eq_true_eq] at hserve
      rcases timerBeginPending_spec h.sound with ⟨-, he⟩ | ⟨u, ts, hhost, he, -⟩
      · simp [he] at hserve
      · obtain rfl : u = t := by simpa [he] using hserve.2
        exact (h.sound.shape u).pending.mpr (by simp [hhost])
    · exact .none (by simp only [Op.alarmEvent, if_neg hserve]) rfl rfl (by simp only [dequeued, if_neg hserve])
  | tick =>
    by_cases hk : s.kernel.state = .running
    · obtain ⟨-, -, hnodup, hmem⟩ := tick_alarmStep hs h hk
      refine .tick (by simp [Op.alarmEvent, hk]) (by simp [ticked, hk]) ?_ rfl
      simp only [expired, hk, ↓reduceIte, hnodup.count, hmem t]
    · exact .none (by simp [Op.alarmEvent, hk]) (by simp [ticked, hk]) (by simp [expired, hk]) rfl
  | _ => exact .none rfl rfl rfl rfl

theorem Op.succeeds_mono {kind kind' : Call → Bool} (hkind : ∀ c, kind c = true → kind' c = true)
    (h : op.succeeds cfg s kind = true) : op.succeeds cfg s kind' = true := by
  cases op with
  | task c =>
    simp only [Op.succeeds, Bool.and_eq_true] at h ⊢
    exact ⟨⟨h.1.1, hkind c h.1.2⟩, h.2⟩
  | _ => simp [Op.succeeds] at h

theorem Op.succeeds_controls_of_arms (h : op.succeeds cfg s (Call.arms t) = true) :
    op.succeeds cfg s (Call.controls t) = true :=
  Op.succeeds_mono (fun c hc => by simp [Call.controls, hc]) h

theorem Op.succeeds_controls_of_stops (h : op.succeeds cfg s (Call.stops t) = true) :
    op.succeeds cfg s (Call.controls t) = true :=
  Op.succeeds_mono (fun c hc => by simp [Call.controls, hc]) h

structure Armed (cfg : Config) (t : TimerRef) (p : Nat) (reload : Bool) (n : Nat) (s : System) : Prop where
  steady : s.Steady cfg
  timed : s.Timed cfg
  magic : (s.timers.blocks t).magic = true
  since : (s.timers.alarm t).Since p n
  reload : (s.timers.alarm t).reload = reload

theorem Armed.exists_step (h : Armed cfg t p reload n s) (hp : 0 < p)
    (hop : op.succeeds cfg s (Call.controls t) = false) :
    Armed cfg t p reload (n + ticked s op) (step cfg s op) ∧
      expired cfg t s op + Alarm.expiries p reload n = Alarm.expiries p reload (n + ticked s op) ∧
      ((s.timers.alarm t).pending < uint32Max →
        ((step cfg s op).timers.alarm t).pending + dequeued t s op =
          (s.timers.alarm t).pending + expired cfg t s op) := by
  have hstep := step_alarmStep h.steady h.timed op
  have halarm := hstep.alarm t
  have hnext : ∀ {m : Nat}, ((step cfg s op).timers.alarm t).Since p m →
      ((step cfg s op).timers.alarm t).reload = (s.timers.alarm t).reload → Armed cfg t p reload m (step cfg s op) :=
    fun hsince hreload => ⟨h.steady.step op, hstep.timed, hstep.magic t h.magic, hsince, hreload.trans h.reload⟩
  cases timerTurn h.steady h.timed h.magic op with
  | none event ticks expiries callbacks =>
    rw [event] at halarm
    simp only [applyEvent, Option.elim_none] at halarm
    rw [ticks, expiries, callbacks, halarm]
    exact ⟨hnext (by rw [halarm]; exact h.since) (by rw [halarm]), by simp, fun _ => rfl⟩
  | tick event ticks expiries callbacks =>
    rw [event] at halarm
    simp only [applyEvent, Option.elim_some] at halarm
    rw [ticks, expiries, callbacks]
    refine ⟨hnext (by rw [halarm]; exact h.since.tick hp) ?_, ?_, fun hlt => ?_⟩
    · rw [halarm, Alarm.step]
      split <;> rfl
    · rw [← h.reload, h.since.expiries_succ hp, Nat.add_comm]
    · rw [halarm, Alarm.step]
      split
      · simp [Alarm.expire, hlt]
      · rfl
  | serve event ticks expiries callbacks pending =>
    rw [event] at halarm
    simp only [applyEvent, Option.elim_some] at halarm
    rw [ticks, expiries, callbacks]
    refine ⟨hnext (by rw [halarm]; exact h.since.serve) (by rw [halarm]; rfl), by simp, fun _ => ?_⟩
    rw [halarm]
    exact Nat.sub_add_cancel pending
  | stop event call => simpa [hop] using Op.succeeds_controls_of_stops call
  | arm q event call => simpa [hop] using Op.succeeds_controls_of_arms call

theorem Armed.exists_exec (h : Armed cfg t p reload n s) (hp : 0 < p)
    (hops : Without cfg (Call.controls t) s ops) :
    Armed cfg t p reload (n + tally cfg ticked s ops) (exec cfg s ops) ∧
      tally cfg (expired cfg t) s ops + Alarm.expiries p reload n =
        Alarm.expiries p reload (n + tally cfg ticked s ops) ∧
      ((∀ us vs, ops = us ++ vs → ((exec cfg s us).timers.blocks t).pendingCount < uint32Max) →
        ((exec cfg s ops).timers.alarm t).pending + tally cfg (dequeued t) s ops =
          (s.timers.alarm t).pending + tally cfg (expired cfg t) s ops) := by
  induction ops generalizing s n with
  | nil => exact ⟨h, by simp [tally], fun _ => rfl⟩
  | cons op ops ih =>
    obtain ⟨hop, hrest⟩ := hops
    obtain ⟨hnext, hexpiries, hpending⟩ := h.exists_step hp hop
    obtain ⟨hend, hexpiries', hpending'⟩ := ih hnext hrest
    simp only [tally, ← Nat.add_assoc] at hend hexpiries' ⊢
    refine ⟨hend, by omega, fun hbound => ?_⟩
    have h0 := hpending (hbound [] (op :: ops) rfl)
    have h1 := hpending' (fun us vs hus => hbound (op :: us) vs (by rw [hus]; rfl))
    rw [show exec cfg s (op :: ops) = exec cfg (step cfg s op) ops from rfl]
    omega

theorem ControlResult.magic {inIsr : Bool} {e : TimerRef → AlarmEvent} {r : System × Status}
    (hr : ControlResult s inIsr (some t) e r) (hok : r.2 = .ok) : (s.timers.blocks t).magic = true := by
  cases hr with
  | failed status hne => exact absurd hok hne
  | done u ts htimer _ hmagic =>
    obtain rfl := Option.some.inj htimer
    exact hmagic

theorem magic_of_succeeds (h : s.Timed cfg) (hop : op.succeeds cfg s (Call.controls t) = true) :
    (s.timers.blocks t).magic = true := by
  cases op with
  | task c =>
    simp only [Op.succeeds, Bool.and_eq_true, decide_eq_true_eq] at hop
    obtain ⟨⟨-, hkind⟩, hok⟩ := hop
    cases c with
    | timerStart timer =>
      obtain rfl : timer = some t := by simpa [Call.controls, Call.arms, Call.stops] using hkind
      exact (timerStart_result h false (some t)).magic (by simpa [call, statusResult] using hok)
    | timerStop timer =>
      obtain rfl : timer = some t := by simpa [Call.controls, Call.arms, Call.stops] using hkind
      exact (timerStop_result h false (some t)).magic (by simpa [call, statusResult] using hok)
    | timerReset timer =>
      obtain rfl : timer = some t := by simpa [Call.controls, Call.arms, Call.stops] using hkind
      exact (timerReset_result h false (some t)).magic (by simpa [call, statusResult] using hok)
    | timerChangePeriod timer period =>
      obtain rfl : timer = some t := by simpa [Call.controls, Call.arms, Call.stops] using hkind
      exact (timerChangePeriod_result h false (some t) period).magic (by simpa [call, statusResult] using hok)
    | _ => simp [Call.controls, Call.arms, Call.stops] at hkind
  | _ => simp [Op.succeeds] at hop

def Op.armPeriod (s : System) (t : TimerRef) : Op → Nat
  | .task (.timerChangePeriod _ period) => period.toNat
  | _ => (s.timers.blocks t).periodTicks.toNat

theorem alarmEvent_of_arms (hop : op.succeeds cfg s (Call.arms t) = true) :
    op.alarmEvent cfg s t = some (.arm (op.armPeriod s t)) := by
  cases op with
  | task c =>
    simp only [Op.succeeds, Bool.and_eq_true, decide_eq_true_eq] at hop
    obtain ⟨⟨hcall, hkind⟩, hok⟩ := hop
    cases c with
    | timerStart timer =>
      obtain rfl : timer = some t := by simpa [Call.arms] using hkind
      simp [Op.alarmEvent, hcall, hok, Call.timerEvent, Op.armPeriod]
    | timerReset timer =>
      obtain rfl : timer = some t := by simpa [Call.arms] using hkind
      simp [Op.alarmEvent, hcall, hok, Call.timerEvent, Op.armPeriod]
    | timerChangePeriod timer period =>
      obtain rfl : timer = some t := by simpa [Call.arms] using hkind
      simp [Op.alarmEvent, hcall, hok, Call.timerEvent, Op.armPeriod]
    | _ => simp [Call.arms] at hkind
  | _ => simp [Op.succeeds] at hop

theorem alarmEvent_of_stops (hop : op.succeeds cfg s (Call.stops t) = true) :
    op.alarmEvent cfg s t = some .stop := by
  cases op with
  | task c =>
    simp only [Op.succeeds, Bool.and_eq_true, decide_eq_true_eq] at hop
    obtain ⟨⟨hcall, hkind⟩, hok⟩ := hop
    cases c with
    | timerStop timer =>
      obtain rfl : timer = some t := by simpa [Call.stops] using hkind
      simp [Op.alarmEvent, hcall, hok, Call.timerEvent]
    | _ => simp [Call.stops] at hkind
  | _ => simp [Op.succeeds] at hop

theorem armed_of_succeeds (hs : s.Steady cfg) (h : s.Timed cfg)
    (hop : op.succeeds cfg s (Call.arms t) = true) :
    0 < op.armPeriod s t ∧ op.armPeriod s t ≤ 2 ^ 32 - 2 ∧
      Armed cfg t (op.armPeriod s t) (s.timers.alarm t).reload 0 (step cfg s op) ∧
      ((step cfg s op).timers.alarm t).pending = 0 := by
  have hm := magic_of_succeeds h (Op.succeeds_controls_of_arms hop)
  have hstep := step_alarmStep hs h op
  have halarm := hstep.alarm t
  rw [alarmEvent_of_arms hop] at halarm
  simp only [applyEvent, Option.elim_some] at halarm
  have hperiod : (((step cfg s op).timers.blocks t).periodTicks).toNat = op.armPeriod s t :=
    congrArg Alarm.period halarm
  obtain ⟨-, -, h0, hf⟩ := (hstep.timed.sound.shape t).valid (hstep.magic t hm)
  have hpos : 0 < op.armPeriod s t := by
    rw [← hperiod]
    bv_omega
  refine ⟨hpos, ?_, ⟨hs.step op, hstep.timed, hstep.magic t hm, ?_, ?_⟩, ?_⟩
  · rw [← hperiod]
    simp only [waitForever] at hf
    bv_omega
  · rw [halarm]
    exact Alarm.since_arm _ hpos
  · rw [halarm]
    rfl
  · rw [halarm]
    rfl

theorem timerValidateInternal_of_timed (h : s.Timed cfg) (hm : (s.timers.blocks t).magic = true) :
    timerValidateInternal s t = true := by
  have hs := h.sound.shape t
  have hactive : (s.timers.blocks t).active = listNodeIsLinked s.timers.timeouts.lists t := by
    rw [Bool.eq_iff_iff, hs.active, listNodeIsLinked_iff]
  have hpending : ((s.timers.blocks t).pendingCount == 0) = !listNodeIsLinked s.timers.pending t := by
    rw [Bool.eq_iff_iff, Bool.not_eq_true', ← Bool.not_eq_true, listNodeIsLinked_iff, ← hs.pending, beq_iff_eq]
    omega
  simp [timerValidateInternal, h.sound.isValid hm, hactive, hpending]

theorem pending_linked_once (h : s.Timed cfg) (t : TimerRef) :
    (s.timers.pending.seq ()).count t = if 0 < (s.timers.blocks t).pendingCount then 1 else 0 := by
  have hs := h.sound.shape t
  have hmem : t ∈ s.timers.pending.seq () ↔ 0 < (s.timers.blocks t).pendingCount := by
    rw [s.timers.pending.mem_seq, hs.pending]
    cases s.timers.pending.host t <;> simp
  rw [(s.timers.pending.nodup ()).count]
  simp only [hmem]

theorem exec_tick (hs : s.Steady cfg) (h : s.Timed cfg) (ops : List Op) :
    (exec cfg s ops).kernel.tick = s.kernel.tick + BitVec.ofNat 32 (tally cfg ticked s ops) := by
  induction ops generalizing s with
  | nil => simp [exec, tally]
  | cons op ops ih =>
    have hstep := step_alarmStep hs h op
    rw [show exec cfg s (op :: ops) = exec cfg (step cfg s op) ops from rfl, ih (hs.step op) hstep.timed, tally]
    have hone : (step cfg s op).kernel.tick = s.kernel.tick + BitVec.ofNat 32 (ticked s op) := by
      by_cases hop : op = .tick
      · subst hop
        by_cases hk : s.kernel.state = .running
        · simpa [ticked, hk, step] using (tick_alarmStep hs h hk).2.1
        · simp [ticked, hk, step, kernelTickFromIsr]
      · rw [step_tick_of_ne hs hop]
        cases op <;> simp [ticked] at hop ⊢
    rw [hone, BitVec.ofNat_add, BitVec.add_assoc]

structure OnGrid (cfg : Config) (t : TimerRef) (p : Nat) (reload : Bool) (s₀ : System) (ops : List Op) : Prop where
  tick : (exec cfg s₀ ops).kernel.tick = s₀.kernel.tick + BitVec.ofNat 32 (tally cfg ticked s₀ ops)
  expires : (exec cfg s₀ ops).kernel.state = .running →
    (t ∈ timersExpired cfg (exec cfg s₀ ops) ↔
      if reload then p ∣ tally cfg ticked s₀ ops + 1 else tally cfg ticked s₀ ops + 1 = p)
  expiries : tally cfg (expired cfg t) s₀ ops = Alarm.expiries p reload (tally cfg ticked s₀ ops)
  active : ((exec cfg s₀ ops).timers.blocks t).active = true ↔ reload = true ∨ tally cfg ticked s₀ ops < p
  pending : (∀ us vs, ops = us ++ vs → ((exec cfg s₀ us).timers.blocks t).pendingCount < uint32Max) →
    ((exec cfg s₀ ops).timers.blocks t).pendingCount + tally cfg (dequeued t) s₀ ops =
      tally cfg (expired cfg t) s₀ ops

theorem Armed.active (h : Armed cfg t p reload n s) :
    (s.timers.blocks t).active = true ↔ reload = true ∨ n < p := by
  have hleft : s.timers.timeouts.left t = (s.timers.alarm t).left := rfl
  rw [(h.timed.sound.shape t).active, ← not_iff_not, not_not, ← TimeoutList.left_eq_none, hleft,
    h.since.left, h.reload]
  cases reload with
  | true => simp
  | false => simp

theorem Armed.onGrid (h : Armed cfg t p reload 0 s) (hp : 0 < p)
    (hpending : (s.timers.alarm t).pending = 0) (hops : Without cfg (Call.controls t) s ops) :
    OnGrid cfg t p reload s ops := by
  obtain ⟨hend, hexpiries, hledger⟩ := h.exists_exec hp hops
  rw [Nat.zero_add] at hend hexpiries
  refine ⟨exec_tick h.steady h.timed ops, fun hk => ?_, ?_, hend.active, fun hbound => ?_⟩
  · rw [(tick_alarmStep hend.steady hend.timed hk).2.2.2 t, hend.since.due_iff hp, hend.reload]
  · have hzero : Alarm.expiries p reload 0 = 0 := by
      cases reload <;> simp [Alarm.expiries, hp]
    rw [← hexpiries, hzero, Nat.add_zero]
  · have := hledger hbound
    rw [hpending, Nat.zero_add] at this
    exact this

/-- A timer expires exactly on the grid that the call arming it starts, and every expiry is counted until its
callback is run. -/
theorem timers_expire_on_grid {cfg : Config} {s : System} (hr : Reachable cfg s) :
    (∀ t, (s.timers.blocks t).magic = true →
      timerValidateInternal s t = true ∧
      ((s.timers.blocks t).active = true ↔ (s.timers.timeouts.lists.host t).isSome = true) ∧
      (s.timers.pending.seq ()).count t = if 0 < (s.timers.blocks t).pendingCount then 1 else 0) ∧
    ∀ (t : TimerRef) (arming : Op), arming.succeeds cfg s (Call.arms t) = true →
      1 ≤ arming.armPeriod s t ∧ arming.armPeriod s t ≤ 2 ^ 32 - 2 ∧
      (step cfg s arming).kernel.tick = s.kernel.tick ∧
      ∀ ops, Without cfg (Call.controls t) (step cfg s arming) ops →
        OnGrid cfg t (arming.armPeriod s t) (s.timers.blocks t).autoReload (step cfg s arming) ops := by
  have hs := reachable_steady hr
  have h := reachable_timed hr
  refine ⟨fun t hm => ⟨timerValidateInternal_of_timed h hm, ?_, pending_linked_once h t⟩, fun t arming harm =>
    ?_⟩
  · rw [(h.sound.shape t).active, Option.isSome_iff_ne_none]
  · obtain ⟨hpos, hle, harmed, hpending⟩ := armed_of_succeeds hs h harm
    refine ⟨hpos, hle, step_tick_of_ne hs ?_, fun ops hops => harmed.onGrid hpos hpending hops⟩
    rintro rfl
    simp [Op.succeeds] at harm

end

def timerRun : List Op :=
  launch 0 6 ++ [.task (.timerCreateStatic (some 0) (some "periodic") 2#32 true (some 0)), .start]

def timerRest : List Op := [.tick, .tick, .pendsv, .service, .service, .tick, .tick]

theorem timers_expire_on_grid_timerRun :
    let s := step .standard (exec .standard (boot .standard) timerRun) (.task (.timerStart (some 0)))
    tally .standard ticked s timerRest = 4 ∧ tally .standard (expired .standard 0) s timerRest = 2 ∧
      OnGrid .standard 0 2 true s timerRest := by
  refine ⟨by decide +kernel, by decide +kernel, ?_⟩
  obtain ⟨-, -, -, hgrid⟩ := (@timers_expire_on_grid .standard _ ⟨timerRun, rfl⟩).2 0
    (.task (.timerStart (some 0))) (by decide +kernel)
  exact hgrid timerRest
    ⟨by decide +kernel, by decide +kernel, by decide +kernel, by decide +kernel, by decide +kernel,
    by decide +kernel, by decide +kernel, trivial⟩

section

variable {cfg : Config} {s : System} {t : TimerRef}

structure Cancelled (cfg : Config) (t : TimerRef) (s : System) : Prop where
  steady : s.Steady cfg
  timed : s.Timed cfg
  magic : (s.timers.blocks t).magic = true
  left : (s.timers.alarm t).left = none
  pending : (s.timers.alarm t).pending = 0

theorem cancelled_of_succeeds (hs : s.Steady cfg) (h : s.Timed cfg)
    (hop : op.succeeds cfg s (Call.stops t) = true) : Cancelled cfg t (step cfg s op) := by
  have hm := magic_of_succeeds h (Op.succeeds_controls_of_stops hop)
  have hstep := step_alarmStep hs h op
  have halarm := hstep.alarm t
  rw [alarmEvent_of_stops hop] at halarm
  simp only [applyEvent, Option.elim_some] at halarm
  exact ⟨hs.step op, hstep.timed, hstep.magic t hm, by rw [halarm]; rfl, by rw [halarm]; rfl⟩

theorem Cancelled.exists_step (h : Cancelled cfg t s) (hop : op.succeeds cfg s (Call.arms t) = false) :
    Cancelled cfg t (step cfg s op) ∧ dequeued t s op = 0 := by
  have hstep := step_alarmStep h.steady h.timed op
  have halarm := hstep.alarm t
  have hnext : ((step cfg s op).timers.alarm t).left = none → ((step cfg s op).timers.alarm t).pending = 0 →
      Cancelled cfg t (step cfg s op) :=
    fun hleft hpending => ⟨h.steady.step op, hstep.timed, hstep.magic t h.magic, hleft, hpending⟩
  cases timerTurn h.steady h.timed h.magic op with
  | none event _ _ callbacks =>
    rw [event] at halarm
    simp only [applyEvent, Option.elim_none] at halarm
    exact ⟨hnext (by rw [halarm]; exact h.left) (by rw [halarm]; exact h.pending), callbacks⟩
  | tick event _ _ callbacks =>
    have hdue : (s.timers.alarm t).due = false := by simp [Alarm.due, h.left]
    rw [event] at halarm
    simp only [applyEvent, Option.elim_some, Alarm.step, hdue, Bool.false_eq_true, ↓reduceIte] at halarm
    exact ⟨hnext (by simp [halarm, h.left]) (by simp [halarm, h.pending]), callbacks⟩
  | serve _ _ _ _ pending => simp [h.pending] at pending
  | stop event _ _ _ callbacks =>
    rw [event] at halarm
    simp only [applyEvent, Option.elim_some] at halarm
    exact ⟨hnext (by rw [halarm]; rfl) (by rw [halarm]; rfl), callbacks⟩
  | arm q event call => simp [hop] at call

theorem Cancelled.dequeued_eq_zero (h : Cancelled cfg t s) (hops : Without cfg (Call.arms t) s ops) :
    tally cfg (dequeued t) s ops = 0 := by
  induction ops generalizing s with
  | nil => rfl
  | cons op ops ih =>
    obtain ⟨hnext, hzero⟩ := h.exists_step hops.1
    rw [tally, hzero, ih hnext hops.2]

theorem pending_le (hs : s.Steady cfg) (h : s.Timed cfg) (hm : (s.timers.blocks t).magic = true) (op : Op) :
    ((step cfg s op).timers.alarm t).pending + dequeued t s op ≤ (s.timers.alarm t).pending + expired cfg t s op := by
  have halarm := (step_alarmStep hs h op).alarm t
  cases timerTurn hs h hm op with
  | none event _ expiries callbacks =>
    rw [event] at halarm
    simp only [applyEvent, Option.elim_none] at halarm
    rw [halarm, expiries, callbacks]
  | tick event _ expiries callbacks =>
    rw [event] at halarm
    simp only [applyEvent, Option.elim_some, Alarm.step] at halarm
    rw [halarm, expiries, callbacks]
    split
    · simp only [Alarm.expire]
      split <;> omega
    · exact le_rfl
  | serve event _ expiries callbacks pending =>
    rw [event] at halarm
    simp only [applyEvent, Option.elim_some, Alarm.step] at halarm
    rw [halarm, expiries, callbacks]
    exact (Nat.sub_add_cancel pending).le
  | stop event _ _ expiries callbacks =>
    rw [event] at halarm
    simp only [applyEvent, Option.elim_some, Alarm.step] at halarm
    rw [halarm, expiries, callbacks]
    exact Nat.zero_le _
  | arm _ event _ _ expiries callbacks =>
    rw [event] at halarm
    simp only [applyEvent, Option.elim_some, Alarm.step] at halarm
    rw [halarm, expiries, callbacks]
    exact Nat.zero_le _

theorem dequeued_le_expired (hs : s.Steady cfg) (h : s.Timed cfg) (hm : (s.timers.blocks t).magic = true)
    (ops : List Op) :
    tally cfg (dequeued t) s ops ≤ (s.timers.alarm t).pending + tally cfg (expired cfg t) s ops := by
  induction ops generalizing s with
  | nil => exact Nat.zero_le _
  | cons op ops ih =>
    have hstep := step_alarmStep hs h op
    have hone := pending_le hs h hm op
    have hrest := ih (hs.step op) hstep.timed (hstep.magic t hm)
    simp only [tally]
    omega

def Call.timer : Call → Option TimerRef
  | .timerCreateStatic t _ _ _ _ => t
  | .timerStart t => t
  | .timerStop t => t
  | .timerReset t => t
  | .timerChangePeriod t _ => t
  | _ => none

theorem Call.timerEvent_fst {c : Call} {e : TimerRef × AlarmEvent} (hc : c.timerEvent s = some e) :
    c.timer = some e.1 := by
  unfold Call.timerEvent at hc
  split at hc
  case h_6 => simp at hc
  all_goals
    obtain rfl := Option.some.inj hc
    rfl

def Op.timer : Op → Option TimerRef
  | .task c => c.timer
  | .isr c _ => c.timer
  | _ => none

theorem Op.alarmEvent_of_ne (hop : op.timer = some t) {u : TimerRef} (hu : u ≠ t) :
    op.alarmEvent cfg s u = none := by
  cases op with
  | task c =>
    have hne : ∀ e, c.timerEvent s = some e → e.1 ≠ u := by
      rintro e he rfl
      exact hu (Option.some.inj ((Call.timerEvent_fst he).symm.trans hop))
    cases hc : c.timerEvent s with
    | none => simp [Op.alarmEvent, hc]
    | some e => simp [Op.alarmEvent, hc, hne e hc]
  | isr c honoured => rfl
  | _ => simp [Op.timer] at hop

theorem System.Timed.active_iff (h : s.Timed cfg) (t : TimerRef) :
    (s.timers.blocks t).active = true ↔ (s.timers.alarm t).left ≠ none := by
  rw [(h.sound.shape t).active, ne_eq, ne_eq, ← TimeoutList.left_eq_none]
  rfl

theorem System.Timed.wakeTick (h : s.Timed cfg) (hactive : (s.timers.blocks t).active = true) :
    ∃ n, (s.timers.alarm t).left = some n ∧ s.timers.timeouts.wakeTick t = s.kernel.tick + BitVec.ofNat 32 n := by
  have hhost := (h.sound.shape t).active.mp hactive
  have hinit : s.timers.initialized = true := by
    by_contra hi
    have := h.sound.uninitialized (by simpa using hi) t
    simp [(h.sound.shape t).magic_of_active hhost] at this
  obtain ⟨l, hl⟩ := Option.ne_none_iff_exists'.mp hhost
  cases l with
  | expired => exact absurd hl (h.quiet.not_expired t)
  | slot i =>
    refine ⟨s.timers.timeouts.remaining t, TimeoutList.Waiting.left ⟨i, hl⟩, ?_⟩
    rw [TimeoutList.remaining, h.clock hinit, BitVec.ofNat_toNat, BitVec.setWidth_eq]
    bv_omega

theorem step_other_timer (hs : s.Steady cfg) (h : s.Timed cfg) (hop : op.timer = some t) {u : TimerRef}
    (hu : u ≠ t) :
    (step cfg s op).timers.alarm u = s.timers.alarm u ∧
      ((step cfg s op).timers.blocks u).active = (s.timers.blocks u).active ∧
      ((s.timers.blocks u).active = true →
        (step cfg s op).timers.timeouts.wakeTick u = s.timers.timeouts.wakeTick u) := by
  have hstep := step_alarmStep hs h op
  have halarm := hstep.alarm u
  rw [Op.alarmEvent_of_ne hop hu] at halarm
  simp only [applyEvent, Option.elim_none] at halarm
  have hactive : ((step cfg s op).timers.blocks u).active = (s.timers.blocks u).active := by
    rw [Bool.eq_iff_iff, hstep.timed.active_iff, h.active_iff, halarm]
  refine ⟨halarm, hactive, fun ha => ?_⟩
  have htick : (step cfg s op).kernel.tick = s.kernel.tick :=
    step_tick_of_ne hs (by rintro rfl; simp [Op.timer] at hop)
  obtain ⟨n, hn, hwake⟩ := h.wakeTick ha
  obtain ⟨m, hm, hwake'⟩ := hstep.timed.wakeTick (hactive.trans ha)
  rw [halarm, hn] at hm
  rw [hwake, hwake', htick, Option.some.inj hm]

end

/-- A call that stops or arms a timer cancels every callback that is not running yet, and no call on a timer
concerns another one. -/
theorem cancelled_expiries_never_fire {cfg : Config} {s : System} (hr : Reachable cfg s) (t : TimerRef) (op : Op) :
    (op.succeeds cfg s (Call.stops t) = true →
      ∀ ops, Without cfg (Call.arms t) (step cfg s op) ops → tally cfg (dequeued t) (step cfg s op) ops = 0) ∧
    (op.succeeds cfg s (Call.arms t) = true →
      ((step cfg s op).timers.blocks t).periodTicks.toNat = op.armPeriod s t ∧
      (∀ ops, tally cfg (dequeued t) (step cfg s op) ops ≤ tally cfg (expired cfg t) (step cfg s op) ops) ∧
      ∀ ops, Without cfg (Call.controls t) (step cfg s op) ops →
        (exec cfg (step cfg s op) ops).kernel.state = .running →
        (t ∈ timersExpired cfg (exec cfg (step cfg s op) ops) ↔
          if (s.timers.blocks t).autoReload then op.armPeriod s t ∣ tally cfg ticked (step cfg s op) ops + 1
          else tally cfg ticked (step cfg s op) ops + 1 = op.armPeriod s t)) ∧
    (op.timer = some t → ∀ u, u ≠ t →
      ((step cfg s op).timers.blocks u).pendingCount = (s.timers.blocks u).pendingCount ∧
      ((step cfg s op).timers.blocks u).active = (s.timers.blocks u).active ∧
      (step cfg s op).timers.timeouts.left u = s.timers.timeouts.left u ∧
      ((s.timers.blocks u).active = true →
        (step cfg s op).timers.timeouts.wakeTick u = s.timers.timeouts.wakeTick u)) := by
  have hs := reachable_steady hr
  have h := reachable_timed hr
  refine ⟨fun hstop ops hops => (cancelled_of_succeeds hs h hstop).dequeued_eq_zero hops, fun harm => ?_,
    fun hop u hu => ?_⟩
  · obtain ⟨hpos, -, harmed, hpending⟩ := armed_of_succeeds hs h harm
    refine ⟨harmed.since.period, fun ops => ?_, fun ops hops => (harmed.onGrid hpos hpending hops).expires⟩
    have hle := dequeued_le_expired harmed.steady harmed.timed harmed.magic ops
    rwa [hpending, Nat.zero_add] at hle
  · obtain ⟨halarm, hactive, hwake⟩ := step_other_timer hs h hop hu
    exact ⟨congrArg Alarm.pending halarm, hactive, congrArg Alarm.left halarm, hwake⟩

def overdueRun : List Op := timerRun ++ [.task (.timerStart (some 0)), .tick, .tick]

theorem cancelled_expiries_never_fire_overdueRun :
    let s := exec .standard (boot .standard) overdueRun
    let stopped := step .standard s (.task (.timerStop (some 0)))
    let retimed := step .standard s (.task (.timerChangePeriod (some 0) 3#32))
    (s.timers.blocks 0).pendingCount = 1 ∧
      tally .standard (dequeued 0) stopped [.pendsv, .service, .service] = 0 ∧
      (retimed.timers.blocks 0).periodTicks.toNat = 3 ∧
      (stopped.timers.blocks 1).active = (s.timers.blocks 1).active := by
  have hr : Reachable .standard (exec .standard (boot .standard) overdueRun) := ⟨overdueRun, rfl⟩
  obtain ⟨hstop, -, hother⟩ := cancelled_expiries_never_fire hr 0 (.task (.timerStop (some 0)))
  obtain ⟨-, hretimed, -⟩ := cancelled_expiries_never_fire hr 0 (.task (.timerChangePeriod (some 0) 3#32))
  refine ⟨by decide +kernel, hstop (by decide +kernel) _ ?_, (hretimed (by decide +kernel)).1,
    (hother rfl 1 (by decide)).2.1⟩
  exact ⟨by decide +kernel, by decide +kernel, by decide +kernel, trivial⟩

end Hairtos
