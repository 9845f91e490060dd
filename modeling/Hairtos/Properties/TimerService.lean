import Hairtos.Invariant.Turn
import Hairtos.Properties.Availability
import Hairtos.Properties.Timers

namespace Hairtos

open Library

variable {k : Kernel} {order : List TaskRef} {x : SemaphoreRef} {woken : Bool}

structure System.Attended (s : System) : Prop where
  binary : s.timers.initialized = true →
    (s.semaphores .timerSignal).magic = true ∧ (s.semaphores .timerSignal).maxCount = 1 ∧
      (s.semaphores .timerSignal).count ≤ 1
  waits : ∀ t, (s.kernel.tasks t).wait = some (.semaphoreTake .timerSignal) →
    t = .timerService ∧ s.service = .waiting ∧ s.timers.pending.seq () = []
  taking : s.service = .taking → s.timers.pending.seq () ≠ [] → (s.semaphores .timerSignal).count = 1

structure Unbothered (s s' : System) : Prop where
  service : s'.service = s.service
  signal : s.timers.initialized = true → s'.semaphores .timerSignal = s.semaphores .timerSignal
  created : s.timers.initialized = false → s'.timers.initialized = true →
    s'.semaphores .timerSignal = { magic := true, count := 0, maxCount := 1 }
  kept : s.timers.initialized = true → s'.timers.initialized = true
  waits : ∀ t, (s'.kernel.tasks t).wait = some (.semaphoreTake .timerSignal) →
    (s.kernel.tasks t).wait = some (.semaphoreTake .timerSignal)

section

variable {cfg : Config} {s s' s'' : System}

theorem TimerSystem.Sound.mem_pending {ts : TimerSystem} (h : ts.Sound) (t : TimerRef) :
    t ∈ ts.pending.seq () ↔ 0 < (ts.alarm t).pending := by
  rw [ts.pending.mem_seq, show (ts.alarm t).pending = (ts.blocks t).pendingCount from rfl, (h.shape t).pending]
  cases ts.pending.host t <;> simp

theorem TimerSystem.Sound.pending_ne_nil {ts : TimerSystem} (h : ts.Sound) :
    ts.pending.seq () ≠ [] ↔ ∃ t, 0 < (ts.alarm t).pending := by
  simp only [← h.mem_pending, ne_eq, List.eq_nil_iff_forall_not_mem, not_forall_not]

theorem applyEvent_pending_le (a : Alarm) {e : Option AlarmEvent} (he : e ≠ some .tick) :
    (applyEvent a e).pending ≤ a.pending := by
  rcases e with _ | e
  · exact le_rfl
  cases e with
  | tick => exact absurd rfl he
  | serve => exact Nat.sub_le _ _
  | _ => exact Nat.zero_le _

theorem Call.timerEvent_ne_tick {c : Call} {e : TimerRef × AlarmEvent} (hc : c.timerEvent s = some e) :
    e.2 ≠ .tick := by
  unfold Call.timerEvent at hc
  split at hc
  case h_6 => simp at hc
  all_goals
    obtain rfl := Option.some.inj hc
    simp

theorem Op.alarmEvent_ne_tick {op : Op} (hop : op ≠ .tick) (s : System) (t : TimerRef) :
    op.alarmEvent cfg s t ≠ some .tick := by
  cases op with
  | tick => exact absurd rfl hop
  | task c =>
    cases hc : c.timerEvent s with
    | none => simp [Op.alarmEvent, hc]
    | some e => simp [Op.alarmEvent, hc, Call.timerEvent_ne_tick hc]
  | service => simp [Op.alarmEvent]
  | _ => simp [Op.alarmEvent]

theorem step_pending_ne_nil (hs : s.Steady cfg) (h : s.Timed cfg) (op : Op) (hop : op ≠ .tick)
    (hp : (step cfg s op).timers.pending.seq () ≠ []) : s.timers.pending.seq () ≠ [] := by
  have hstep := step_alarmStep hs h op
  obtain ⟨t, ht⟩ := hstep.timed.sound.pending_ne_nil.mp hp
  rw [hstep.alarm t] at ht
  exact h.sound.pending_ne_nil.mpr ⟨t, ht.trans_le (applyEvent_pending_le _ (Op.alarmEvent_ne_tick hop s t))⟩

theorem Unbothered.refl (s : System) : Unbothered s s :=
  ⟨rfl, fun _ => rfl, fun h h' => by simp [h] at h', id, fun _ h => h⟩

theorem Unsignalled.unbothered (h : Unsignalled s s') : Unbothered s s' :=
  ⟨h.service, fun _ => h.signal, fun hf ht => by simp [h.timers, hf] at ht, fun hi => by rwa [h.timers], h.waits⟩

theorem Unbothered.calm (h : Unbothered s s') (hcalm : s'.kernel.Calm k) :
    Unbothered s { s' with kernel := k } :=
  ⟨h.service, h.signal, h.created, h.kept,
    fun t ht => h.waits t ((hcalm.bookkept.aside.sameWaits.wait t).symm.trans ht)⟩

theorem ControlResult.unbothered {inIsr : Bool} {timer : Option TimerRef} {e : TimerRef → AlarmEvent}
    {r : System × Status} (hr : ControlResult s inIsr timer e r) : Unbothered s r.1 := by
  cases hr with
  | failed => exact .refl s
  | done t ts _ _ _ hcontrol =>
    have hi := hcontrol.only.initialized
    exact ⟨rfl, fun _ => rfl, fun hf ht => by simp [hi, hf] at ht, fun ht => hi.trans ht, fun _ h => h⟩

theorem Unbothered.trans (h : Unbothered s s') (h' : Unbothered s' s'') : Unbothered s s'' := by
  refine ⟨h'.service.trans h.service, fun hi => (h'.signal (h.kept hi)).trans (h.signal hi), fun hf hi => ?_,
    fun hi => h'.kept (h.kept hi), fun t ht => h.waits t (h'.waits t ht)⟩
  cases hi' : s'.timers.initialized with
  | false => exact h'.created hi' hi
  | true => exact (h'.signal hi').trans (h.created hf hi')

theorem Unbothered.of_same (h : SameWaits s.kernel k) : Unbothered s { s with kernel := k } :=
  (@Unsignalled.of_same s { s with kernel := k } h rfl rfl rfl).unbothered

theorem Bringup.unbothered (h : Relation.ReflTransGen (Bringup cfg) s s') (g : s.Good cfg) : Unbothered s s' := by
  induction h with
  | refl => exact .refl s
  | tail hpath hlast ih =>
    refine ih.trans ?_
    cases hlast with
    | timers timers hkept hready =>
      exact ⟨rfl, fun _ => rfl, fun hf hi => (hready hi).resolve_left (by simp [hf]), hkept, fun _ h => h⟩
    | signal _ hearly =>
      exact ⟨rfl, fun hi => by simp [hearly] at hi, fun _ hi => by simp [System.signalled, System.record,
        System.updateSemaphore], id, fun _ h => h⟩
    | create hfresh => exact .of_same ((bringup_good hpath g).kernel.create_sameWaits hfresh _)
    | register => exact .of_same (Kernel.register_sameWaits _ _)

theorem CallEffect.unbothered {inIsr : Bool} {c : Call} {r : CallResult} (he : CallEffect cfg s inIsr c r)
    (hcall : call cfg s inIsr c = r) (g : s.Good cfg) (h : s.Timed cfg) : Unbothered s r.system := by
  cases hc : c.usesTimer with
  | false => exact (he.unsignalled g hc).unbothered
  | true =>
    rw [← hcall] at he ⊢
    cases c with
    | timerCreateStatic timer name period autoReload callback =>
      exact Bringup.unbothered (timerCreateStatic_bringup g inIsr timer name period autoReload callback) g
    | timerStart timer => exact (timerStart_result h inIsr timer).unbothered
    | timerStop timer => exact (timerStop_result h inIsr timer).unbothered
    | timerReset timer => exact (timerReset_result h inIsr timer).unbothered
    | timerChangePeriod timer period => exact (timerChangePeriod_result h inIsr timer period).unbothered
    | _ => simp [Call.usesTimer] at hc

theorem step_unbothered (hs : s.Steady cfg) (h : s.Timed cfg) {op : Op} (htick : op ≠ .tick)
    (hservice : op ≠ .service) :
    Unbothered s (step cfg s op) := by
  have he := step_effect hs.good hs.quiet op
  generalize step cfg s op = s' at he ⊢
  cases he with
  | noTask | noPendsv | noStart => exact .refl s
  | task c r _ hcall _ heffect => exact heffect.unbothered hcall hs.good h
  | isr c honoured r k _ hcall heffect hcalm => exact (heffect.unbothered hcall hs.good h).calm hcalm
  | noService | service => exact absurd rfl hservice
  | noTick | tick => exact absurd rfl htick
  | pendsv current next => exact .of_same (s.kernel.dispatched_rotate_switch current next).sameWaits
  | start next => exact .of_same (s.kernel.dispatched_start next).sameWaits
  | writeBuffer | writeAnchor => exact ⟨rfl, fun _ => rfl, fun hf ht => by simp [hf] at ht, id, fun _ ht => ht⟩

theorem System.Attended.unbothered (h : s.Attended) (ht : s.Timed cfg) (hu : Unbothered s s')
    (hpending : s'.timers.pending.seq () ≠ [] → s.timers.pending.seq () ≠ []) : s'.Attended := by
  have hinit : s.timers.pending.seq () ≠ [] → s.timers.initialized = true := by
    intro hp
    by_contra hi
    exact hp (ht.sound.pending_eq_nil (by simpa using hi))
  refine ⟨fun hi => ?_, fun t hw => ?_, fun hphase hp => ?_⟩
  · cases hi' : s.timers.initialized with
    | false => simp [hu.created hi' hi]
    | true =>
      rw [hu.signal hi']
      exact h.binary hi'
  · obtain ⟨rfl, hphase, hnil⟩ := h.waits t (hu.waits t hw)
    refine ⟨rfl, hu.service.trans hphase, ?_⟩
    by_contra hp
    exact hpending hp hnil
  · rw [hu.signal (hinit (hpending hp))]
    exact h.taking (hu.service.symm.trans hphase) (hpending hp)

theorem System.Attended.awake (hbinary : s.timers.initialized = true →
      (s.semaphores .timerSignal).magic = true ∧ (s.semaphores .timerSignal).maxCount = 1 ∧
        (s.semaphores .timerSignal).count ≤ 1)
    (hwaits : ∀ t, (s.kernel.tasks t).wait ≠ some (.semaphoreTake .timerSignal))
    (htaking : s.service = .taking → s.timers.pending.seq () ≠ [] → (s.semaphores .timerSignal).count = 1) :
    s.Attended :=
  ⟨hbinary, fun t hw => absurd hw (hwaits t), htaking⟩

theorem System.Attended.not_waiting (h : s.Attended) (hphase : s.service ≠ .waiting) (t : TaskRef) :
    (s.kernel.tasks t).wait ≠ some (.semaphoreTake .timerSignal) :=
  fun hw => hphase (h.waits t hw).2.1

theorem ServiceEffect.attended (he : ServiceEffect cfg s s') (h : s.Attended) (ht : s.Timed cfg) (g : s.Good cfg)
    (hruns : s.kernel.Runs .timerService) : s'.Attended := by
  cases he with
  | halts status hphase => exact .awake h.binary (h.not_waiting (by simp [hphase])) (by simp)
  | takes s₁ outcome phase hphase _ _ heffect _ hnext =>
    have hnone := h.not_waiting (by simp [hphase])
    cases heffect with
    | counted havailable =>
      refine .awake (fun hi => ?_) hnone (by simp_all)
      obtain ⟨hm, hmax, hle⟩ := h.binary hi
      simp only [System.record, System.updateSemaphore, Function.update_self]
      exact ⟨hm, hmax, by omega⟩
    | waits t hruns' _ hzero hfinite =>
      have hstarts := (Kernel.startWait_starts cfg (.semaphoreTake .timerSignal) hruns'
        (timeoutTicks_spec hfinite)).aside (Kernel.calm_requestContextSwitch _).bookkept.aside
      refine ⟨h.binary, fun u hw => ?_, by simp_all⟩
      have hut : u = t := by
        by_contra hut
        rw [hstarts.others u hut] at hw
        exact hnone u hw
      refine ⟨hut.trans (Option.some.inj (hruns'.current.symm.trans hruns.current)), by simp_all, ?_⟩
      by_contra hp
      have := h.taking hphase hp
      omega
  | resumes hphase =>
    refine .awake h.binary (fun t hw => ?_) (fun hp => ?_)
    · obtain ⟨rfl, -, -⟩ := h.waits t hw
      simp [g.kernel.wait_of_runs hruns] at hw
    · dsimp only at hp
      split at hp <;> simp at hp
  | begins timers pending hphase heq =>
    have hnone := h.not_waiting (by simp [hphase])
    rcases timerBeginPending_spec ht.sound with ⟨hnil, he⟩ | ⟨t, ts, -, he, -, honly, -⟩
    · obtain ⟨htimers, rfl⟩ := Prod.mk.inj (heq.symm.trans he)
      obtain rfl : timers = s.timers := congrArg System.timers htimers
      exact .awake h.binary hnone (fun _ hp => absurd hnil hp)
    · obtain ⟨htimers, rfl⟩ := Prod.mk.inj (heq.symm.trans he)
      obtain rfl : timers = ts := congrArg System.timers htimers
      exact .awake (fun hi => h.binary (honly.initialized.symm.trans hi)) hnone (by simp)
  | ends t hphase => exact .awake h.binary (h.not_waiting (by simp [hphase])) (by simp)
  | halted => exact h

theorem Expiry.wait_of_later (h : Expiry cfg s order s') {t : TaskRef} {w : Wait}
    (hw : (s'.kernel.tasks t).wait = some w) : (s.kernel.tasks t).wait = some w := by
  by_cases ht : t ∈ order
  · obtain ⟨_, -, hdone, -⟩ := h.completes ht
    simp [hdone] at hw
  · rwa [(h.unmoved ht).wait] at hw

theorem GiveEffect.space_of_full (h : GiveEffect cfg s x s' woken .semaphoreFull) :
    (s.semaphores x).maxCount ≤ (s.semaphores x).count := by
  cases h with
  | full _ hspace => exact hspace

theorem System.Attended.given (hx : x = .timerSignal) {status : Status}
    (he : GiveEffect cfg s x s' woken status) (g : s.kernel.Good cfg) (hbinary : s.timers.initialized = true →
      (s.semaphores .timerSignal).magic = true ∧ (s.semaphores .timerSignal).maxCount = 1 ∧
        (s.semaphores .timerSignal).count ≤ 1)
    (hi : s.timers.initialized = true)
    (hwaits : ∀ t, (s.kernel.tasks t).wait = some (.semaphoreTake .timerSignal) →
      t = .timerService ∧ s.service = .waiting) :
    s'.Attended := by
  subst hx
  obtain ⟨hm, hmax, hle⟩ := hbinary hi
  cases he with
  | served u k _ hwait hgranted =>
    have hends := hgranted.woken.waitEnds hwait
    obtain ⟨rfl, hphase⟩ := hwaits u hwait
    refine .awake hbinary (fun t hw => ?_) (fun hp => ?_)
    · by_cases ht : t = .timerService
      · subst ht
        exact absurd (hends.done.symm.trans hw) (by simp)
      · exact ht (hwaits t ((hends.others t ht).symm.trans hw)).1
    · exact absurd (hphase.symm.trans hp) (by simp)
  | counted hnone hspace =>
    have hsignal : ((s.updateSemaphore .timerSignal (fun cb => { cb with count := cb.count + 1 })).semaphores
        .timerSignal) = { s.semaphores .timerSignal with count := (s.semaphores .timerSignal).count + 1 } := by
      simp [System.updateSemaphore]
    refine .awake (fun _ => ?_) (fun t hw => not_waiting_of_peek g.toSound hnone hw rfl) (fun _ _ => ?_)
    · simp only [System.record, hsignal]
      exact ⟨hm, hmax, by omega⟩
    · simp only [System.record, hsignal]
      omega
  | full hnone hspace =>
    exact .awake hbinary (fun t hw => not_waiting_of_peek g.toSound hnone hw rfl) (fun _ _ => by omega)

theorem System.Attended.charged (h : s.Attended) (hk : s.kernel.Charged k) :
    ({ s with kernel := k } : System).Attended :=
  ⟨h.binary, fun t hw => h.waits t (hk.unmoved.wait.symm.trans hw), h.taking⟩

theorem semaphoreGiveFromIsr_eq (hv : semaphoreIsValid s x = true) :
    semaphoreGiveFromIsr cfg s true (some x) = semaphoreGiveLocked cfg s x := by
  simp [semaphoreGiveFromIsr, hv]

theorem timerTickFromIsr_attended (h : s.Attended) (g : s.Good cfg) (hq : s.kernel.Quiet) (hsound : s.timers.Sound)
    (hquiet : s.timers.Quiet) (hi : s.timers.initialized = true) (henabled : cfg.softwareTimer = true) :
    (timerTickFromIsr cfg s (s.timers.timeouts.lastTick + 1#32)).1.Attended := by
  obtain ⟨ts, xs, he, hsound', -, hi', -, hdue, -, halarm, -⟩ := timerTickFromIsr_eq hsound hquiet henabled hi
  rw [he]
  split
  · next hxs =>
    have hpending : ts.pending.seq () ≠ [] → s.timers.pending.seq () ≠ [] := by
      rw [hsound'.pending_ne_nil, hsound.pending_ne_nil]
      rintro ⟨t, ht⟩
      have hno : (s.timers.alarm t).due = false := by
        rw [← Bool.not_eq_true, ← hdue t, hxs]
        simp
      rw [halarm t, Alarm.step, hno] at ht
      exact ⟨t, ht⟩
    refine ⟨fun _ => h.binary hi, fun t hw => ?_, fun hphase hp => h.taking hphase (hpending hp)⟩
    obtain ⟨ht, hphase, hnil⟩ := h.waits t hw
    exact ⟨ht, hphase, by_contra fun hp => hpending hp hnil⟩
  · obtain ⟨hm, hmax, hle⟩ := h.binary hi
    rw [semaphoreGiveFromIsr_eq (by simp [semaphoreIsValid, hm, hmax, hle])]
    refine System.Attended.given rfl (semaphoreGiveLocked_effect (s := { s with timers := ts }) g.kernel .timerSignal
      (fresh_of_quiet hq _)).1 g.kernel (fun _ => h.binary hi) hi' (fun t hw => ?_)
    obtain ⟨ht, hphase, -⟩ := h.waits t hw
    exact ⟨ht, hphase⟩

theorem TickRun.attended {tl : TimeoutList TaskRef} {s₃ : System}
    {c : TaskRef} (hrun : TickRun cfg s tl order k s₃ woken c) (h : s.Attended) :
    ({ s with kernel := k } : System).Attended ∧ k.tick = s.kernel.tick + 1#32 :=
  ⟨⟨h.binary, fun t hw => h.waits t (hrun.expiry.wait_of_later hw), h.taking⟩, hrun.sameRun.tick⟩

theorem tick_attended {tl : TimeoutList TaskRef} {s₃ : System}
    {c : TaskRef} (hrun : TickRun cfg s tl order k s₃ woken c) (ht : s.Timed cfg) (h : s.Attended) :
    s₃.Attended := by
  obtain ⟨hwoken, htick⟩ := hrun.attended h
  have hresult := hrun.result
  cases hi : s.timers.initialized with
  | false =>
    have hsame : timerTickFromIsr cfg { s with kernel := k } k.tick = ({ s with kernel := k }, false) := by
      simp [timerTickFromIsr, hi]
    obtain ⟨rfl, -⟩ := Prod.mk.inj (hsame.symm.trans hresult)
    exact hwoken
  | true =>
    rw [htick, ← ht.clock hi] at hresult
    have hattended := timerTickFromIsr_attended hwoken hrun.good hrun.quiet ht.sound ht.quiet hi (ht.enabled hi)
    rwa [hresult] at hattended

theorem step_attended (hs : s.Steady cfg) (ht : s.Timed cfg) (h : s.Attended) (op : Op) : (step cfg s op).Attended := by
  have hother := fun htick hservice =>
    h.unbothered ht (step_unbothered hs ht htick hservice) (step_pending_ne_nil hs ht op htick)
  have he := step_effect hs.good hs.quiet op
  generalize step cfg s op = s' at he hother ⊢
  cases he with
  | noService | noTick => exact h
  | service s' _ hruns heffect => exact heffect.attended h ht hs.good hruns
  | tick _ _ _ _ _ _ hrun => exact (tick_attended hrun ht h).charged (kernelTickEnd_charged _ _ _ _)
  | _ => exact hother (by simp) (by simp)

theorem boot_attended (cfg : Config) : (boot cfg).Attended := by
  refine .awake (fun hi => ?_) (by simp [boot_wait]) (fun _ hp => absurd ?_ hp)
  · simp [boot_eq, System.reset] at hi
  · simp [boot_eq, System.reset]

theorem exec_attended (hs : s.Steady cfg) (ht : s.Timed cfg) (h : s.Attended) (ops : List Op) :
    (exec cfg s ops).Attended := by
  induction ops generalizing s with
  | nil => exact h
  | cons op ops ih => exact ih (hs.step op) (step_alarmStep hs ht op).timed (step_attended hs ht h op)

theorem mem_pending_tick (hs : s.Steady cfg) (ht : s.Timed cfg) (hk : s.kernel.state = .running) (t : TimerRef) :
    t ∈ (kernelTickFromIsr cfg s).timers.pending.seq () ↔
      t ∈ s.timers.pending.seq () ∨ t ∈ timersExpired cfg s := by
  obtain ⟨hstep, -, -, hdue⟩ := tick_alarmStep hs ht hk
  rw [hstep.timed.sound.mem_pending, ht.sound.mem_pending, hdue t, hstep.alarm t]
  simp only [applyEvent, Option.elim_some, Alarm.step]
  split
  · next hd =>
    have hlimit : 0 < uint32Max := by decide
    simp only [Alarm.expire, hd, or_true, iff_true]
    split <;> omega
  · next hd => simp [hd]

theorem timerTickFromIsr_full (h : s.Attended) (g : s.Good cfg) (hq : s.kernel.Quiet) (hsound : s.timers.Sound)
    (hquiet : s.timers.Quiet) (hi : s.timers.initialized = true) (henabled : cfg.softwareTimer = true)
    (hwaits : ∀ t, (s.kernel.tasks t).wait ≠ some (.semaphoreTake .timerSignal))
    (hcount : (s.semaphores .timerSignal).count = 1) :
    (timerTickFromIsr cfg s (s.timers.timeouts.lastTick + 1#32)).1.semaphores = s.semaphores := by
  obtain ⟨ts, xs, he, -⟩ := timerTickFromIsr_eq hsound hquiet henabled hi
  rw [he]
  split
  · rfl
  · obtain ⟨hm, hmax, hle⟩ := h.binary hi
    rw [semaphoreGiveFromIsr_eq (by simp [semaphoreIsValid, hm, hmax, hle])]
    have heffect := (semaphoreGiveLocked_effect (s := { s with timers := ts }) g.kernel .timerSignal
      (fresh_of_quiet hq _)).1
    generalize semaphoreGiveLocked cfg { s with timers := ts } .timerSignal = r at heffect
    obtain ⟨s₁, woken, status⟩ := r
    cases heffect with
    | served u k _ hwait => exact absurd hwait (hwaits u)
    | counted _ hspace => simp only [hmax, hcount, lt_irrefl] at hspace
    | full => rfl

theorem tick_full (hs : s.Steady cfg) (ht : s.Timed cfg) (h : s.Attended)
    (hwaits : ∀ t, (s.kernel.tasks t).wait ≠ some (.semaphoreTake .timerSignal))
    (hcount : (s.semaphores .timerSignal).count = 1) : (step cfg s .tick).semaphores = s.semaphores := by
  have he := step_effect hs.good hs.quiet .tick
  generalize step cfg s .tick = s' at he ⊢
  cases he with
  | noTick => rfl
  | tick _ _ k s₃ woken _ hrun =>
    obtain ⟨hwoken, htick⟩ := hrun.attended h
    have hresult := congrArg (·.1.semaphores) hrun.result
    refine hresult.symm.trans ?_
    cases hi : s.timers.initialized with
    | false => simp [timerTickFromIsr, hi]
    | true =>
      rw [htick, ← ht.clock hi]
      exact timerTickFromIsr_full hwoken hrun.good hrun.quiet ht.sound ht.quiet hi (ht.enabled hi)
        (fun t hw => hwaits t (hrun.expiry.wait_of_later hw)) hcount

end

/-- While a timer is pending, the signal is there or the service task does not wait for it. -/
theorem timer_service_never_sleeps {cfg : Config} {s : System} (hr : Reachable cfg s) :
    (s.timers.pending.seq () ≠ [] →
      (s.semaphores .timerSignal).count = 1 ∨
        (s.kernel.tasks .timerService).wait ≠ some (.semaphoreTake .timerSignal)) ∧
    (s.timers.initialized = true → (semaphoreGiveFromIsr cfg s true (some .timerSignal)).2.2 = .semaphoreFull →
      (s.semaphores .timerSignal).count = 1) ∧
    (s.kernel.state = .running → (s.semaphores .timerSignal).count = 1 →
      (step cfg s .tick).semaphores .timerSignal = s.semaphores .timerSignal ∧
        ∀ t, t ∈ (step cfg s .tick).timers.pending.seq () ↔
          t ∈ s.timers.pending.seq () ∨ t ∈ timersExpired cfg s) ∧
    ((timerBeginPending s).2 = none → s.timers.pending.seq () = []) := by
  have hs := reachable_steady hr
  have ht := reachable_timed hr
  obtain ⟨ops, rfl⟩ := hr
  have h := exec_attended (boot_steady cfg) (boot_timed cfg) (boot_attended cfg) ops
  refine ⟨fun hp => Or.inr fun hw => hp (h.waits _ hw).2.2, fun hi hfull => ?_, fun hk hcount => ⟨?_, ?_⟩,
    fun hnone => ?_⟩
  · obtain ⟨hm, hmax, hle⟩ := h.binary hi
    rw [semaphoreGiveFromIsr_eq (by simp [semaphoreIsValid, hm, hmax, hle])] at hfull
    have heffect := (semaphoreGiveLocked_effect hs.good.kernel .timerSignal (fresh_of_quiet hs.quiet _)).1
    rw [hfull] at heffect
    have hspace := heffect.space_of_full
    omega
  · have hwaits : ∀ t, ((exec cfg (boot cfg) ops).kernel.tasks t).wait ≠ some (.semaphoreTake .timerSignal) := by
      intro t hw
      have := (exec_unserved cfg ops _ _ hw).2
      omega
    exact congrFun (tick_full hs ht h hwaits hcount) _
  · exact mem_pending_tick hs ht hk
  · rcases timerBeginPending_spec ht.sound with ⟨hnil, -⟩ | ⟨t, ts, -, he, -⟩
    · exact hnil
    · simp [he] at hnone

theorem timer_service_never_sleeps_overdueRun :
    let s := exec .standard (boot .standard) overdueRun
    s.timers.pending.seq () = [0] ∧ (s.semaphores .timerSignal).count = 1 ∧
      (s.kernel.tasks .timerService).state = .ready ∧
      (0 ∈ (step .standard s .tick).timers.pending.seq () ↔
        0 ∈ s.timers.pending.seq () ∨ 0 ∈ timersExpired .standard s) := by
  obtain ⟨-, -, hfull, -⟩ := @timer_service_never_sleeps .standard _ ⟨overdueRun, rfl⟩
  exact ⟨by decide +kernel, by decide +kernel, by decide +kernel,
    (hfull (by decide +kernel) (by decide +kernel)).2 0⟩

end Hairtos
