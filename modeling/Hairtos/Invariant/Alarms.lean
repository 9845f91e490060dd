import Hairtos.Invariant.Signal
import Hairtos.Invariant.Timers

namespace Hairtos

open Library

variable {ts : TimerSystem} {inIsr : Bool}

structure System.Timed (cfg : Config) (s : System) : Prop where
  sound : s.timers.Sound
  quiet : s.timers.Quiet
  clock : s.timers.initialized = true → s.timers.timeouts.lastTick = s.kernel.tick
  enabled : s.timers.initialized = true → cfg.softwareTimer = true

def Call.timerEvent (s : System) : Call → Option (TimerRef × AlarmEvent)
  | .timerCreateStatic (some t) _ period autoReload _ => some (t, .create period.toNat autoReload)
  | .timerStart (some t) => some (t, .arm (s.timers.blocks t).periodTicks.toNat)
  | .timerReset (some t) => some (t, .arm (s.timers.blocks t).periodTicks.toNat)
  | .timerChangePeriod (some t) period => some (t, .arm period.toNat)
  | .timerStop (some t) => some (t, .stop)
  | _ => none

def Op.alarmEvent (cfg : Config) (s : System) (t : TimerRef) : Op → Option AlarmEvent
  | .task c =>
    if canCall s && decide ((call cfg s false c).outcome = .returned .ok) then
      (c.timerEvent s).bind (fun e => if e.1 = t then some e.2 else none)
    else none
  | .service =>
    if serviceRuns s && decide (s.service = .draining) && decide ((timerBeginPending s).2 = some t) then some .serve
    else none
  | .tick => if s.kernel.state = .running then some .tick else none
  | _ => none

def applyEvent (a : Alarm) (e : Option AlarmEvent) : Alarm := e.elim a (a.step uint32Max)

section

variable {cfg : Config} {s s' : System} {t : TimerRef}

theorem Alarm.of_fresh (h : ts.Sound) (hm : (ts.blocks t).magic = false) :
    ts.alarm t = ⟨(ts.blocks t).periodTicks.toNat, (ts.blocks t).autoReload, none, 0⟩ := by
  obtain ⟨ha, hp⟩ := (h.shape t).fresh hm
  simp [TimerSystem.alarm, TimeoutList.left, h.host_none ha, hp]

theorem TimerSystem.Sound.reinit {ts' : TimerSystem} (h : ts.Sound) (hi : ts.initialized = false)
    (hblocks : ts'.blocks = ts.blocks) (htimeouts : ts'.timeouts = timeoutListInit ts.timeouts.wakeTick now)
    (hpending : ts'.pending = .empty) : ts'.Sound ∧ ts'.Quiet ∧ ∀ t, ts'.alarm t = ts.alarm t := by
  have hnone := h.uninitialized hi
  have hsound : ts'.Sound := by
    refine ⟨?_, fun t => ?_, fun _ t => ?_⟩
    · rw [htimeouts]
      exact TimeoutList.WellFormed.init _ _
    · obtain ⟨ha, hp⟩ := (h.shape t).fresh (hnone t)
      rw [hblocks, htimeouts, hpending]
      exact ⟨by simp [ha, timeoutListInit], by simp [hp], (h.shape t).valid, fun _ => ⟨ha, hp⟩⟩
    · rw [hblocks]
      exact hnone t
  refine ⟨hsound, by rw [TimerSystem.Quiet, htimeouts]; rfl, fun t => ?_⟩
  rw [Alarm.of_fresh h (hnone t), Alarm.of_fresh hsound (by rw [hblocks]; exact hnone t), hblocks]

structure Ensured (cfg : Config) (s : System) (s' : System) (status : Status) : Prop where
  sound : s'.timers.Sound
  quiet : s'.timers.Quiet
  blocks : s'.timers.blocks = s.timers.blocks
  alarm : ∀ t, s'.timers.alarm t = s.timers.alarm t
  wakeTick : s'.timers.timeouts.wakeTick = s.timers.timeouts.wakeTick
  clock : s'.timers.initialized = true → s'.timers.timeouts.lastTick = s.kernel.tick
  enabled : s'.timers.initialized = true → cfg.softwareTimer = true
  ready : status = .ok → s'.timers.initialized = true

theorem semaphoreCreateBinary_timers (s : System) (x : Option SemaphoreRef) (available : Bool) :
    (semaphoreCreateBinary s x available).1.timers = s.timers := by
  unfold semaphoreCreateBinary semaphoreCreateCounting
  cases x with
  | none => rfl
  | some x =>
    dsimp only
    split_ifs <;> rfl

theorem timerSystemEnsureInitialized_ensured (h : s.Timed cfg) :
    Ensured cfg s (timerSystemEnsureInitialized cfg s).1 (timerSystemEnsureInitialized cfg s).2 := by
  have hkeep : ∀ status, status ≠ .ok → Ensured cfg s s status := fun status hs =>
    ⟨h.sound, h.quiet, rfl, fun _ => rfl, rfl, h.clock, h.enabled, fun he => absurd he hs⟩
  unfold timerSystemEnsureInitialized
  split
  · exact hkeep _ (by simp)
  next hcfg =>
  split
  · next hi => exact ⟨h.sound, h.quiet, rfl, fun _ => rfl, rfl, h.clock, h.enabled, fun _ => hi⟩
  next hi =>
  split
  · exact hkeep _ (by simp)
  have hi' : s.timers.initialized = false := by simpa using hi
  -- From here on the lists are empty, whatever the creation of the signal and of the task returns.
  have hempty : ∀ {ts : TimerSystem} {s' : System} (status : Status), s'.timers = ts →
    ts.blocks = s.timers.blocks →
      ts.timeouts = timeoutListInit s.timers.timeouts.wakeTick s.kernel.tick → ts.pending = .empty →
      (ts.initialized = true ↔ status = .ok) → Ensured cfg s s' status := by
    intro ts s' status hts hblocks htimeouts hpending hstatus
    obtain ⟨hsound, hquiet, halarm⟩ := h.sound.reinit hi' hblocks htimeouts hpending
    rw [← hts] at hsound hquiet halarm htimeouts hstatus hblocks
    exact ⟨hsound, hquiet, hblocks, halarm, by rw [htimeouts]; rfl, fun _ => by rw [htimeouts]; rfl,
      fun _ => by simpa using hcfg, hstatus.mpr⟩
  dsimp only
  have hts := semaphoreCreateBinary_timers { s with
    timers := { s.timers with
      timeouts := timeoutListInit s.timers.timeouts.wakeTick s.kernel.tick
      pending := .empty } } (some .timerSignal) false
  split
  · next hne => exact hempty _ hts rfl rfl rfl (iff_of_false (by simp [hi']) hne)
  split
  · next hne => exact hempty _ hts rfl rfl rfl (iff_of_false (by simp [hi']) hne)
  split
  · next hne => exact hempty _ hts rfl rfl rfl (iff_of_false (by simp [hi']) hne)
  · refine @hempty { s.timers with
      timeouts := timeoutListInit s.timers.timeouts.wakeTick s.kernel.tick
      pending := .empty
      initialized := true } _ _ ?_ rfl rfl rfl (by simp)
    simp only [hts]

theorem semaphoreGiveFromIsr_timers (s : System) (inIsr : Bool) (x : Option SemaphoreRef) :
    (semaphoreGiveFromIsr cfg s inIsr x).1.timers = s.timers := by
  unfold semaphoreGiveFromIsr
  cases x with
  | none => rfl
  | some x =>
    dsimp only
    split_ifs
    · rfl
    · rfl
    · unfold semaphoreGiveLocked
      split
      · dsimp only
        split_ifs <;> rfl
      · split_ifs <;> rfl

theorem TimerSystem.Sound.advance (h : ts.Sound) (hq : ts.Quiet) :
    ∃ timeouts, timeoutListAdvance ts.timeouts (ts.timeouts.lastTick + 1#32) = (timeouts, .ok) ∧
      { ts with timeouts := timeouts }.Sound ∧ timeouts.lastTick = ts.timeouts.lastTick + 1#32 ∧
      (∀ t, t ∈ timeouts.lists.seq .expired ↔ (ts.alarm t).due = true) ∧
      ∀ t, timeouts.left t = (ts.timeouts.left t).map (· - 1) := by
  obtain ⟨tl, he, hwf, hticked⟩ := timeoutListAdvance_spec h.timeouts hq
  have hleft : ∀ t, tl.left t = (ts.timeouts.left t).map (· - 1) := by
    intro t
    rw [hticked.left h.timeouts hq t]
    cases tl.left t <;> simp
  refine ⟨tl, he, ⟨hwf, fun t => ?_, h.uninitialized⟩, hticked.lastTick, fun t => ?_, hleft⟩
  · have hlinked : tl.lists.host t ≠ none ↔ ts.timeouts.lists.host t ≠ none := by
      constructor
      · intro hne
        obtain ⟨i, hi⟩ := hticked.waited hne
        simp [hi]
      · intro hne
        apply hticked.waiting
        obtain ⟨l, hl⟩ := Option.ne_none_iff_exists'.mp hne
        cases l with
        | slot i => exact ⟨i, hl⟩
        | expired => exact absurd hl (hq.not_expired t)
    have hs := h.shape t
    exact ⟨hs.active.trans hlinked.symm, hs.pending, hs.valid, hs.fresh⟩
  · rw [tl.lists.mem_seq, hticked.expired t]
    rw [Alarm.due_eq_true]
    constructor
    · rintro ⟨hw, hr⟩
      exact hw.left.trans (by rw [hr])
    · intro hone
      exact TimeoutList.left_eq_some hone (hq.not_expired t)

def timersExpired (cfg : Config) (s : System) : List TimerRef :=
  if !cfg.softwareTimer || !s.timers.initialized then []
  else
    let (timeouts, status) := timeoutListAdvance s.timers.timeouts (s.kernel.tick + 1#32)
    if status ≠ .ok then []
    else
      timerExpireOrder (listSize timeouts.lists .expired) { s with timers := { s.timers with timeouts := timeouts } }

theorem timerTickFromIsr_eq (h : s.timers.Sound) (hq : s.timers.Quiet) (henabled : cfg.softwareTimer = true)
    (hi : s.timers.initialized = true) :
    ∃ ts' xs, timerTickFromIsr cfg s (s.timers.timeouts.lastTick + 1#32) =
        (if xs = [] then ({ s with timers := ts' }, false)
        else
          let r := semaphoreGiveFromIsr cfg { s with timers := ts' } true (some .timerSignal)
          (r.1, (decide (r.2.2 = .ok) || decide (r.2.2 = .semaphoreFull)) && r.2.1)) ∧
      ts'.Sound ∧ ts'.Quiet ∧ ts'.initialized = true ∧
        ts'.timeouts.lastTick = s.timers.timeouts.lastTick + 1#32 ∧
      (∀ t, t ∈ xs ↔ (s.timers.alarm t).due = true) ∧ xs.Nodup ∧
      (∀ t, ts'.alarm t = (s.timers.alarm t).step uint32Max .tick) ∧
      (∀ t, (ts'.blocks t).magic = (s.timers.blocks t).magic) ∧
      ∀ s₀ : System, s₀.timers = s.timers → s₀.kernel.tick = s.timers.timeouts.lastTick →
        timersExpired cfg s₀ = xs := by
  obtain ⟨tl, he, hsound, hlast, hdue, hleft⟩ := h.advance hq
  have hloop := fun s₁ : System => timerExpireLoop_spec
    (s := { s₁ with timers := { s.timers with timeouts := tl } })
    hsound rfl false
  obtain ⟨ts', heloop, -, hsound', hquiet', hinit, hlast', halarm, hmagic⟩ := hloop s
  refine ⟨ts', tl.lists.seq .expired, ?_, hsound', hquiet', hinit.trans hi, hlast'.trans hlast, hdue,
    tl.lists.nodup _, ?_, hmagic, ?_⟩
  · unfold timerTickFromIsr
    rw [if_neg (by simp [henabled, hi])]
    simp only [he, listSize, heloop, ne_eq, not_true_eq_false, ↓reduceIte, Bool.false_or]
    cases tl.lists.seq .expired with
    | nil => rfl
    | cons t rest => rfl
  · intro t
    rw [halarm t]
    by_cases ht : t ∈ tl.lists.seq .expired
    · rw [if_pos ht]
      simp only [Alarm.step, (hdue t).mp ht]
      rfl
    · have hno : (s.timers.alarm t).due = false := by
        rw [← Bool.not_eq_true, ← hdue t]
        exact ht
      rw [if_neg ht]
      simp only [Alarm.step, hno]
      simp [TimerSystem.alarm, hleft]
  · intro s₀ htimers htick
    obtain ⟨-, -, horder, -⟩ := hloop s₀
    unfold timersExpired
    rw [if_neg (by simp [henabled, htimers, hi])]
    simp only [htimers, htick, he, listSize, ne_eq, not_true_eq_false, ↓reduceIte]
    exact horder

structure AlarmStep (cfg : Config) (s s' : System) (e : TimerRef → Option AlarmEvent) : Prop where
  timed : s'.Timed cfg
  alarm : ∀ t, s'.timers.alarm t = applyEvent (s.timers.alarm t) (e t)
  magic : ∀ t, (s.timers.blocks t).magic = true → (s'.timers.blocks t).magic = true

theorem AlarmStep.of_timers (h : s.Timed cfg) (htimers : s'.timers = s.timers) (htick : s'.kernel.tick = s.kernel.tick)
    {e : TimerRef → Option AlarmEvent} (he : ∀ t, e t = none) : AlarmStep cfg s s' e := by
  refine ⟨⟨?_, ?_, ?_, ?_⟩, fun t => ?_, fun t ht => ?_⟩ <;> simp only [htimers, htick, he]
  exacts [h.sound, h.quiet, h.clock, h.enabled, rfl, ht]

theorem TimerControl.alarmStep {e : AlarmEvent} (hc : TimerControl t e s.timers ts)
    (h : s.Timed cfg) : AlarmStep cfg s { s with timers := ts } (fun u => if t = u then some e else none) := by
  refine ⟨⟨hc.sound, hc.quiet, fun hi => ?_, fun hi => ?_⟩, fun u => ?_, fun u hu => ?_⟩
  · rw [hc.only.lastTick]
    exact h.clock (hc.only.initialized.symm.trans hi)
  · exact h.enabled (hc.only.initialized.symm.trans hi)
  all_goals by_cases hut : t = u
  · subst hut
    simp only [↓reduceIte]
    exact hc.alarm
  · simp only [if_neg hut]
    exact hc.only.alarm (Ne.symm hut)
  · subst hut
    exact hc.magic.trans hu
  · rw [hc.only.blocks u (Ne.symm hut)]
    exact hu

inductive ControlResult (s : System) (inIsr : Bool) (timer : Option TimerRef) (e : TimerRef → AlarmEvent) :
    System × Status → Prop
  | failed (status : Status) (ne : status ≠ .ok) : ControlResult s inIsr timer e (s, status)
  | done (t : TimerRef) (ts : TimerSystem) (timer_eq : timer = some t) (inIsr_eq : inIsr = false)
      (magic : (s.timers.blocks t).magic = true) (control : TimerControl t (e t) s.timers ts) :
      ControlResult s inIsr timer e ({ s with timers := ts }, .ok)

theorem timerCall_result {timer : Option TimerRef} {e : TimerRef → AlarmEvent}
    {f : TimerSystem → TimerRef → TimerSystem × Status}
    (hf : ∀ t, (s.timers.blocks t).magic = true →
      (∃ status, status ≠ .ok ∧ f s.timers t = (s.timers, status)) ∨
      ∃ ts, f s.timers t = (ts, .ok) ∧ TimerControl t (e t) s.timers ts) :
    ControlResult s inIsr timer e (timerCall cfg s inIsr timer f) := by
  unfold timerCall
  split
  · exact .failed _ (by simp)
  split
  · exact .failed _ (by simp)
  next t =>
  split
  · exact .failed _ (by simp)
  next hv =>
  split
  · exact .failed _ (by simp)
  next hisr =>
  simp only [Bool.not_eq_true', Bool.not_eq_false, timerIsValid, Bool.and_eq_true] at hv
  rcases hf t hv.1.1.1.1 with ⟨status, hne, he⟩ | ⟨ts, he, hcontrol⟩
  · rw [he]
    exact .failed status hne
  · rw [he]
    exact .done t ts rfl (by simpa using hisr) hv.1.1.1.1 hcontrol

theorem timerStart_result (h : s.Timed cfg) (inIsr : Bool) (timer : Option TimerRef) :
    ControlResult s inIsr timer (fun t => .arm (s.timers.blocks t).periodTicks.toNat)
      (timerStart cfg s inIsr timer) := by
  apply timerCall_result
  intro t hm
  cases ha : (s.timers.blocks t).active with
  | true => exact Or.inl ⟨.invalidState, by simp, rfl⟩
  | false => exact Or.inr (timerArm_control h.sound h.quiet hm ha)

theorem timerStop_result (h : s.Timed cfg) (inIsr : Bool) (timer : Option TimerRef) :
    ControlResult s inIsr timer (fun _ => .stop) (timerStop cfg s inIsr timer) := by
  apply timerCall_result
  intro t _
  obtain ⟨ts, he, hcontrol⟩ := timerStop_control h.sound h.quiet (t := t)
  exact Or.inr ⟨_, by simp [he], hcontrol⟩

theorem timerReset_result (h : s.Timed cfg) (inIsr : Bool) (timer : Option TimerRef) :
    ControlResult s inIsr timer (fun t => .arm (s.timers.blocks t).periodTicks.toNat)
      (timerReset cfg s inIsr timer) := by
  apply timerCall_result
  intro t hm
  obtain ⟨-, -, h0, hf⟩ := (h.sound.shape t).valid hm
  obtain ⟨ts₁, ts', he, he', hcontrol⟩ := timerRearm_control h.sound h.quiet hm h0 hf
  have hsame : ts₁.update t (fun cb => { cb with periodTicks := (s.timers.blocks t).periodTicks }) = ts₁ := by
    obtain ⟨ts₂, he₂, -, -, hblock, -⟩ := timerDisarmLocked_spec h.sound h.quiet t
    obtain rfl : ts₁ = ts₂ := (Prod.ext_iff.mp (he.symm.trans he₂)).1
    have hperiod : (s.timers.blocks t).periodTicks = (ts₁.blocks t).periodTicks := by rw [hblock]
    simp [TimerSystem.update, hperiod]
  rw [hsame] at he'
  exact Or.inr ⟨ts', by simp [he, he'], hcontrol⟩

theorem timerChangePeriod_result (h : s.Timed cfg) (inIsr : Bool) (timer : Option TimerRef) (period : Tick) :
    ControlResult s inIsr timer (fun _ => .arm period.toNat) (timerChangePeriod cfg s inIsr timer period) := by
  unfold timerChangePeriod
  split
  · exact .failed _ (by simp)
  next hperiod =>
  cases hcfg : cfg.softwareTimer with
  | false => simpa [timerCall, hcfg] using ControlResult.failed .notSupported (by simp)
  | true =>
    simp only [hcfg, Bool.true_and, Bool.or_eq_true, decide_eq_true_eq, not_or] at hperiod
    apply timerCall_result
    intro t hm
    obtain ⟨ts₁, ts', he, he', hcontrol⟩ := timerRearm_control h.sound h.quiet hm hperiod.1 hperiod.2
    exact Or.inr ⟨ts', by simp [he, he'], hcontrol⟩

theorem Ensured.alarmStep {status : Status} (he : Ensured cfg s s' status) (htick : s'.kernel.tick = s.kernel.tick) :
    AlarmStep cfg s s' (fun _ => none) :=
  ⟨⟨he.sound, he.quiet, fun hi => (he.clock hi).trans htick.symm, he.enabled⟩, he.alarm,
    fun t ht => by rwa [he.blocks]⟩

theorem timerCreateStatic_alarmStep (h : s.Timed cfg) (g : s.Good cfg) (inIsr : Bool) (timer : Option TimerRef)
    (name : Option String) (period : Tick) (autoReload : Bool) (callback : Option Nat) :
    let r := timerCreateStatic cfg s inIsr timer name period autoReload callback
    (r.2 ≠ .ok ∧ AlarmStep cfg s r.1 (fun _ => none)) ∨
      r.2 = .ok ∧ inIsr = false ∧ ∃ t, timer = some t ∧
        AlarmStep cfg s r.1 (fun u => if t = u then some (.create period.toNat autoReload) else none) := by
  have hrefl : AlarmStep cfg s s (fun _ => none) := .of_timers h rfl rfl (fun _ => rfl)
  have hensured := timerSystemEnsureInitialized_ensured h
  have htick := (bringup_trace (timerSystemEnsureInitialized_bringup g) g).sameRun.tick
  unfold timerCreateStatic
  split
  · exact Or.inl ⟨by simp, hrefl⟩
  split
  · exact Or.inl ⟨by simp, hrefl⟩
  next t =>
  dsimp only
  split
  · exact Or.inl ⟨by simp, hrefl⟩
  next hargs =>
  split
  · exact Or.inl ⟨by simp, hrefl⟩
  next hisr =>
  split
  · exact Or.inl ⟨by simp, hrefl⟩
  next hv =>
  simp only [Bool.or_eq_true, decide_eq_true_eq, not_or] at hargs
  obtain ⟨⟨⟨hname, hcallback⟩, h0⟩, hf⟩ := hargs
  generalize timerSystemEnsureInitialized cfg s = r at hensured htick
  obtain ⟨s₁, status⟩ := r
  dsimp only at hensured htick ⊢
  split
  · next hne => exact Or.inl ⟨hne, hensured.alarmStep htick⟩
  next hok =>
  have hready := hensured.ready (not_not.mp hok)
  have hm : (s₁.timers.blocks t).magic = false := by
    rw [hensured.blocks, ← Bool.not_eq_true]
    exact fun hm => hv (h.sound.isValid hm)
  obtain ⟨ha, hp⟩ := (hensured.sound.shape t).fresh hm
  have hhost := hensured.sound.host_none ha
  have hpending : s₁.timers.pending.host t = none := by
    by_contra hne
    have := (hensured.sound.shape t).pending.mpr hne
    omega
  refine Or.inr ⟨rfl, by simpa using hisr, t, rfl, ⟨⟨?_, ?_, ?_, ?_⟩, ?_, ?_⟩⟩
  · refine ⟨hensured.sound.timeouts.setWakeTick _ hhost, fun u => ?_, fun hi => ?_⟩
    · by_cases hu : u = t
      · subst hu
        simp only [TimerSystem.update, Function.update_self]
        exact ⟨by simp [hhost], by simp [hpending], fun _ => ⟨hname, hcallback, h0, hf⟩, by simp⟩
      · simpa [TimerSystem.update, hu] using hensured.sound.shape u
    · exact absurd hready (by simpa [TimerSystem.update] using hi)
  · exact hensured.quiet
  · intro _
    exact (hensured.clock hready).trans htick.symm
  · intro _
    exact hensured.enabled hready
  · intro u
    by_cases hu : t = u
    · subst hu
      simp [applyEvent, Alarm.step, TimerSystem.alarm, TimerSystem.update, TimeoutList.left, hhost]
    · simp only [if_neg hu, applyEvent, Option.elim_none, ← hensured.alarm u]
      simp [TimerSystem.alarm, TimerSystem.update, TimeoutList.left, TimeoutList.remaining, Ne.symm hu]
  · intro u hu
    by_cases hut : u = t
    · simp [TimerSystem.update, hut]
    · simpa [TimerSystem.update, hut, hensured.blocks] using hu

theorem TimerSystem.Sound.pending_eq_nil (h : ts.Sound) (hi : ts.initialized = false) :
    ts.pending.seq () = [] := by
  rw [List.eq_nil_iff_forall_not_mem]
  intro t ht
  have hm := (h.shape t).magic_of_pending (by simp [ts.pending.host_of_mem ht])
  simp [h.uninitialized hi t] at hm

theorem timerBeginPending_spec (h : s.timers.Sound) :
    (s.timers.pending.seq () = [] ∧ timerBeginPending s = (s, none)) ∨
    ∃ t ts, s.timers.pending.host t = some () ∧ timerBeginPending s = ({ s with timers := ts }, some t) ∧
      ts.Sound ∧
      OnlyTimer t s.timers ts ∧ ts.timeouts = s.timers.timeouts ∧
      ts.blocks t = { s.timers.blocks t with
        pendingCount := (s.timers.blocks t).pendingCount - 1, callbackRunning := true } := by
  cases hp : s.timers.pending.seq () with
  | nil => exact Or.inl ⟨rfl, by simp [timerBeginPending, listPopFront_nil _ _ hp]⟩
  | cons t rest =>
    have hhost := s.timers.pending.host_of_head hp
    have hs := h.shape t
    have hm := hs.magic_of_pending (by simp [hhost])
    have hpos : 0 < (s.timers.blocks t).pendingCount := hs.pending.mpr (by simp [hhost])
    have hi : s.timers.initialized = true := by
      by_contra hi
      simp [h.pending_eq_nil (by simpa using hi)] at hp
    have hv := h.isValid hm
    simp only [timerIsValid] at hv
    have hunlinked : (s.timers.pending.unlink t).host t = none := by simp
    obtain ⟨pending, hpending, hpush⟩ : ∃ pending : ListFamily Unit TimerRef,
        (if 0 < (s.timers.blocks t).pendingCount - 1 then (listPushBack (s.timers.pending.unlink t) () t).1
          else s.timers.pending.unlink t) = pending ∧
        pending.host = Function.update s.timers.pending.host t
          (if 0 < (s.timers.blocks t).pendingCount - 1 then some () else none) := by
      refine ⟨_, rfl, ?_⟩
      split
      · simp [listPushBack_ok _ _ _ hunlinked]
      · rfl
    have honly : OnlyTimer t s.timers { s.timers with
        pending := pending
        blocks := Function.update s.timers.blocks t { s.timers.blocks t with
          pendingCount := (s.timers.blocks t).pendingCount - 1, callbackRunning := true } } :=
      ⟨rfl, rfl, fun u hu => by simp [hu], fun _ _ => rfl, fun _ _ => rfl, fun u hu => by simp [hpush, hu]⟩
    refine Or.inr ⟨t, _, hhost, ?_, h.update honly h.timeouts ?_ (by simp), honly, rfl, by simp⟩
    · unfold timerBeginPending
      rw [if_neg (by simp [hi])]
      simp only [listPopFront_cons _ _ hp, timerIsValid, hv, hpos.ne', TimerSystem.update, Function.update_self,
        hpending]
      rfl
    · simp only [Function.update_self, hpush]
      refine ⟨hs.active, ?_, hs.valid, fun hm' => by simp [hm] at hm'⟩
      split <;> simp_all

theorem timerBeginPending_alarmStep (h : s.Timed cfg) :
    AlarmStep cfg s (timerBeginPending s).1
      (fun t => if (timerBeginPending s).2 = some t then some .serve else none) := by
  rcases timerBeginPending_spec h.sound with ⟨-, he⟩ | ⟨t, ts, hhost, he, hsound, honly, htimeouts, hblock⟩
  · rw [he]
    exact .of_timers h rfl rfl (by simp)
  · rw [he]
    have hcontrol : TimerControl t .serve s.timers ts := by
      refine ⟨hsound, ?_, honly, ?_, by rw [hblock], fun u hu => ?_⟩
      · rw [TimerSystem.Quiet, htimeouts]
        exact h.quiet
      · simp [TimerSystem.alarm, Alarm.step, hblock, htimeouts]
      · by_cases hut : u = t
        · simp [hut, hhost]
        · rwa [honly.pending u hut] at hu
    simpa using hcontrol.alarmStep h

theorem timerEndPending_alarmStep (h : s.Timed cfg) (t : TimerRef) :
    AlarmStep cfg s (timerEndPending s t) (fun _ => none) := by
  have honly : OnlyTimer t s.timers (timerEndPending s t).timers :=
    ⟨rfl, rfl, fun u hu => by simp [timerEndPending, TimerSystem.update, hu], fun _ _ => rfl, fun _ _ => rfl,
      fun _ _ => rfl⟩
  have hblock : (timerEndPending s t).timers.blocks t = { s.timers.blocks t with callbackRunning := false } := by
    simp [timerEndPending, TimerSystem.update]
  have hs := h.sound.shape t
  refine ⟨⟨h.sound.update honly h.sound.timeouts ?_ (by rw [hblock]), h.quiet, h.clock, h.enabled⟩, fun u => ?_,
    fun u hu => ?_⟩
  · rw [hblock]
    exact ⟨hs.active, hs.pending, hs.valid, hs.fresh⟩
  all_goals by_cases hut : u = t
  · subst hut
    simp only [TimerSystem.alarm, hblock]
    rfl
  · exact honly.alarm hut
  · subst hut
    rw [hblock]
    exact hu
  · rwa [honly.blocks u hut]

theorem AlarmStep.service {e : TimerRef → Option AlarmEvent} (h : AlarmStep cfg s s' e) (phase : ServicePhase) :
    AlarmStep cfg s { s' with service := phase } e :=
  ⟨⟨h.timed.sound, h.timed.quiet, h.timed.clock, h.timed.enabled⟩, h.alarm, h.magic⟩

theorem ServiceEffect.alarmStep (he : ServiceEffect cfg s s') (h : s.Timed cfg)
    (htick : s'.kernel.tick = s.kernel.tick) :
    AlarmStep cfg s s'
      (fun t => if s.service = .draining ∧ (timerBeginPending s).2 = some t then some .serve else none) := by
  cases he with
  | takes s₁ outcome phase hp _ _ heffect =>
    refine .of_timers h ?_ htick (by simp [hp])
    cases heffect <;> rfl
  | begins timers pending hp he =>
    have hbegin := timerBeginPending_alarmStep h
    simp only [he] at hbegin
    simpa [hp, he] using hbegin.service _
  | ends t hp => simpa [hp] using (timerEndPending_alarmStep h t).service .draining
  | halts status hp => exact .of_timers h (by rfl) htick (by simp [hp])
  | resumes hp => exact .of_timers h (by rfl) htick (by simp [hp])
  | halted hp => exact .of_timers h rfl htick (by simp [hp])

theorem AlarmStep.setKernel {e : TimerRef → Option AlarmEvent} (h : AlarmStep cfg s s' e) {k : Kernel}
    (htick : k.tick = s'.kernel.tick) : AlarmStep cfg s { s' with kernel := k } e :=
  ⟨⟨h.timed.sound, h.timed.quiet, fun hi => (h.timed.clock hi).trans htick.symm, h.timed.enabled⟩, h.alarm,
    h.magic⟩

theorem ControlResult.alarmStep {timer : Option TimerRef} {e : TimerRef → AlarmEvent}
    {r : System × Status} (hr : ControlResult s inIsr timer e r) (h : s.Timed cfg) :
    AlarmStep cfg s r.1 (fun u =>
      if inIsr = false ∧ r.2 = .ok then timer.bind (fun t => if t = u then some (e t) else none) else none) := by
  cases hr with
  | failed status hne => exact .of_timers h rfl rfl (fun u => if_neg (fun he => hne he.2))
  | done t ts htimer hisr _ hcontrol =>
    subst htimer hisr
    simpa using hcontrol.alarmStep h

theorem Call.timerEvent_none {c : Call} (hc : c.usesTimer = false) (s : System) : c.timerEvent s = none := by
  cases c <;> simp [Call.usesTimer] at hc <;> rfl

theorem call_alarmStep (hs : s.Steady cfg) (h : s.Timed cfg) {c : Call}
    (he : CallEffect cfg s inIsr c (call cfg s inIsr c))
    (htick : (call cfg s inIsr c).system.kernel.tick = s.kernel.tick) :
    AlarmStep cfg s (call cfg s inIsr c).system (fun t =>
      if inIsr = false ∧ (call cfg s inIsr c).outcome = .returned .ok then
        (c.timerEvent s).bind (fun e => if e.1 = t then some e.2 else none)
      else none) := by
  cases hc : c.usesTimer with
  | false => exact .of_timers h (he.unsignalled hs.good hc).timers htick (by simp [Call.timerEvent_none hc])
  | true =>
    cases c with
    | timerCreateStatic timer name period autoReload callback =>
      have hcreate := timerCreateStatic_alarmStep h hs.good inIsr timer name period autoReload callback
      simp only [call, statusResult, Outcome.returned.injEq]
      rcases hcreate with ⟨hne, hstep⟩ | ⟨hok, rfl, t, rfl, hstep⟩
      · simpa [hne] using hstep
      · simpa [hok, Call.timerEvent] using hstep
    | timerStart timer =>
      have hstep := (timerStart_result h inIsr timer).alarmStep h
      cases timer <;> simpa [call, statusResult, Call.timerEvent] using hstep
    | timerStop timer =>
      have hstep := (timerStop_result h inIsr timer).alarmStep h
      cases timer <;> simpa [call, statusResult, Call.timerEvent] using hstep
    | timerReset timer =>
      have hstep := (timerReset_result h inIsr timer).alarmStep h
      cases timer <;> simpa [call, statusResult, Call.timerEvent] using hstep
    | timerChangePeriod timer period =>
      have hstep := (timerChangePeriod_result h inIsr timer period).alarmStep h
      cases timer <;> simpa [call, statusResult, Call.timerEvent] using hstep
    | _ => simp [Call.usesTimer] at hc

theorem step_tick_of_ne (hs : s.Steady cfg) {op : Op} (hop : op ≠ .tick) :
    (step cfg s op).kernel.tick = s.kernel.tick := by
  have hstep := hs.stepped op
  generalize step cfg s op = s' at hstep
  cases hstep with
  | refused => rfl
  | acts op htrace => exact htrace.sameRun.tick
  | lock m timeout s' outcome heffect => exact heffect.sameRun.tick
  | isr c honoured s₁ k htrace hcalm => exact hcalm.sameRun.tick.trans htrace.sameRun.tick
  | tick => exact absurd rfl hop
  | pendsv => rfl
  | start => rfl

theorem tick_alarmStep (hs : s.Steady cfg) (h : s.Timed cfg) (hk : s.kernel.state = .running) :
    AlarmStep cfg s (kernelTickFromIsr cfg s) (fun _ => some .tick) ∧
      (kernelTickFromIsr cfg s).kernel.tick = s.kernel.tick + 1#32 ∧ (timersExpired cfg s).Nodup ∧
      ∀ t, t ∈ timersExpired cfg s ↔ (s.timers.alarm t).due = true := by
  obtain ⟨tl, order, k, s₃, woken, c, hrun, he⟩ := kernelTickFromIsr_run hs.good hs.quiet hk
  have htick : k.tick = s.kernel.tick + 1#32 := hrun.sameRun.tick
  obtain ⟨owed, htimers⟩ := hrun.trace
  have hresult := hrun.result
  have hend := (kernelTickEnd_charged cfg s₃.kernel c woken).bookkept.control.tick
  have hlast : (kernelTickFromIsr cfg s).kernel.tick = s.kernel.tick + 1#32 := by
    rw [he]
    exact hend.trans (htimers.sameRun.tick.trans htick)
  cases hi : s.timers.initialized with
  | false =>
    obtain rfl : { s with kernel := k } = s₃ := by simpa [timerTickFromIsr, hi] using congrArg Prod.fst hresult
    have halarm : ∀ t, s.timers.alarm t = applyEvent (s.timers.alarm t) (some .tick) := by
      intro t
      rw [Alarm.of_fresh h.sound (h.sound.uninitialized hi t)]
      simp [applyEvent, Alarm.step, Alarm.due]
    refine ⟨?_, hlast, by simp [timersExpired, hi], fun t => ?_⟩
    · rw [he]
      refine ⟨⟨h.sound, h.quiet, fun hi' => ?_, h.enabled⟩, halarm, fun _ ht => ht⟩
      simp [hi] at hi'
    · rw [Alarm.of_fresh h.sound (h.sound.uninitialized hi t)]
      simp [timersExpired, hi, Alarm.due]
  | true =>
    obtain ⟨ts, xs, heq, hsound, hquiet, hinit, hlast', hdue, hnodup, halarm, hmagic, hxs⟩ :=
      timerTickFromIsr_eq (s := { s with kernel := k }) h.sound h.quiet (h.enabled hi) hi
    have hxs' : timersExpired cfg s = xs := hxs s rfl (h.clock hi).symm
    have hts : (kernelTickFromIsr cfg s).timers = ts := by
      rw [he]
      rw [htick, ← h.clock hi, heq] at hresult
      refine (congrArg (fun r => r.1.timers) hresult).symm.trans ?_
      dsimp only
      split
      · rfl
      · exact semaphoreGiveFromIsr_timers _ _ _
    refine ⟨⟨⟨?_, ?_, fun _ => ?_, fun _ => h.enabled hi⟩, fun t => ?_, fun t ht => ?_⟩, hlast,
      hxs' ▸ hnodup,
      fun t => hxs' ▸ hdue t⟩
    · rw [hts]
      exact hsound
    · rw [hts]
      exact hquiet
    · rw [hlast, hts, hlast', h.clock hi]
    · rw [hts]
      exact halarm t
    · rw [hts, hmagic t]
      exact ht

theorem step_alarmStep (hs : s.Steady cfg) (h : s.Timed cfg) (op : Op) :
    AlarmStep cfg s (step cfg s op) (fun t => op.alarmEvent cfg s t) := by
  by_cases hop : op = .tick
  · subst hop
    by_cases hk : s.kernel.state = .running
    · simpa [Op.alarmEvent, hk, step] using (tick_alarmStep hs h hk).1
    · simpa [Op.alarmEvent, hk, step, kernelTickFromIsr] using .of_timers h rfl rfl (fun _ => rfl)
  have htick := step_tick_of_ne hs hop
  have he := step_effect hs.good hs.quiet op
  generalize step cfg s op = s' at he htick ⊢
  cases he with
  | noTask c hcan => exact .of_timers h rfl rfl (by simp [Op.alarmEvent, hcan])
  | task c r hcan heq _ heffect =>
    subst heq
    simpa [Op.alarmEvent, hcan] using call_alarmStep hs h heffect htick
  | isr c honoured r k _ heq heffect hcalm =>
    subst heq
    have hcall := hcalm.sameRun.tick
    have hstep := call_alarmStep hs h heffect (hcall.symm.trans htick)
    simp only [Bool.true_eq_false, false_and, ↓reduceIte] at hstep
    exact hstep.setKernel hcall
  | noService hruns => exact .of_timers h rfl rfl (by simp [Op.alarmEvent, hruns])
  | service s' hruns _ heffect => simpa [Op.alarmEvent, hruns] using heffect.alarmStep h htick
  | noTick | tick => exact absurd rfl hop
  | _ => exact .of_timers h (by rfl) htick (fun _ => rfl)

theorem boot_timed (cfg : Config) : (boot cfg).Timed cfg := by
  have htimers : (boot cfg).timers = System.reset.timers := by rw [boot_eq]
  refine ⟨⟨?_, fun t => ?_, fun _ t => ?_⟩, ?_, fun hi => ?_, fun hi => ?_⟩ <;> rw [htimers] at *
  · exact TimeoutList.WellFormed.init _ _
  · exact ⟨by simp [System.reset, timeoutListInit], by simp [System.reset], by simp [System.reset],
      by simp [System.reset]⟩
  · rfl
  · rfl
  · simp [System.reset] at hi
  · simp [System.reset] at hi

theorem exec_timed (hs : s.Steady cfg) (h : s.Timed cfg) (ops : List Op) : (exec cfg s ops).Timed cfg := by
  induction ops generalizing s with
  | nil => exact h
  | cons op ops ih => exact ih (hs.step op) (step_alarmStep hs h op).timed

theorem reachable_timed (h : Reachable cfg s) : s.Timed cfg := by
  obtain ⟨ops, rfl⟩ := h
  exact exec_timed (boot_steady cfg) (boot_timed cfg) ops

end

end Hairtos
