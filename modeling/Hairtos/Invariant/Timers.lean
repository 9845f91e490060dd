import Hairtos.Library.Alarm
import Hairtos.Timer

namespace Hairtos

open Library

structure TimerShape (cb : TimerControlBlock) (timeoutHost : Option TimeoutSlot) (pendingHost : Option Unit) :
    Prop where
  active : cb.active = true ↔ timeoutHost ≠ none
  pending : 0 < cb.pendingCount ↔ pendingHost ≠ none
  valid : cb.magic = true → cb.name ≠ none ∧ cb.callback ≠ none ∧ cb.periodTicks ≠ 0#32 ∧
    cb.periodTicks ≠ waitForever
  fresh : cb.magic = false → cb.active = false ∧ cb.pendingCount = 0

structure TimerSystem.Sound (ts : TimerSystem) : Prop where
  timeouts : ts.timeouts.WellFormed
  shape : ∀ t, TimerShape (ts.blocks t) (ts.timeouts.lists.host t) (ts.pending.host t)
  uninitialized : ts.initialized = false → ∀ t, (ts.blocks t).magic = false

def TimerSystem.Quiet (ts : TimerSystem) : Prop := ts.timeouts.lists.seq .expired = []

def TimerSystem.alarm (ts : TimerSystem) (t : TimerRef) : Alarm where
  period := (ts.blocks t).periodTicks.toNat
  reload := (ts.blocks t).autoReload
  left := ts.timeouts.left t
  pending := (ts.blocks t).pendingCount

structure OnlyTimer (t : TimerRef) (ts ts' : TimerSystem) : Prop where
  initialized : ts'.initialized = ts.initialized
  lastTick : ts'.timeouts.lastTick = ts.timeouts.lastTick
  blocks : ∀ u, u ≠ t → ts'.blocks u = ts.blocks u
  timeouts : ∀ u, u ≠ t → ts'.timeouts.lists.host u = ts.timeouts.lists.host u
  wakeTick : ∀ u, u ≠ t → ts'.timeouts.wakeTick u = ts.timeouts.wakeTick u
  pending : ∀ u, u ≠ t → ts'.pending.host u = ts.pending.host u

section

variable {ts ts' ts'' : TimerSystem} {t u : TimerRef}

theorem OnlyTimer.trans (h : OnlyTimer t ts ts') (h' : OnlyTimer t ts' ts'') : OnlyTimer t ts ts'' where
  initialized := h'.initialized.trans h.initialized
  lastTick := h'.lastTick.trans h.lastTick
  blocks := fun u hu => (h'.blocks u hu).trans (h.blocks u hu)
  timeouts := fun u hu => (h'.timeouts u hu).trans (h.timeouts u hu)
  wakeTick := fun u hu => (h'.wakeTick u hu).trans (h.wakeTick u hu)
  pending := fun u hu => (h'.pending u hu).trans (h.pending u hu)

theorem OnlyTimer.alarm (h : OnlyTimer t ts ts') (hu : u ≠ t) : ts'.alarm u = ts.alarm u := by
  simp only [TimerSystem.alarm, TimeoutList.left, TimeoutList.remaining, h.blocks u hu, h.timeouts u hu,
    h.wakeTick u hu,
    h.lastTick]

theorem TimerSystem.Sound.update (h : ts.Sound) (ho : OnlyTimer t ts ts') (hwf : ts'.timeouts.WellFormed)
    (hshape : TimerShape (ts'.blocks t) (ts'.timeouts.lists.host t) (ts'.pending.host t))
    (hmagic : (ts'.blocks t).magic = (ts.blocks t).magic) : ts'.Sound := by
  refine ⟨hwf, fun u => ?_, fun hi u => ?_⟩
  · by_cases hu : u = t
    · rw [hu]
      exact hshape
    · rw [ho.blocks u hu, ho.timeouts u hu, ho.pending u hu]
      exact h.shape u
  · rw [ho.initialized] at hi
    by_cases hu : u = t
    · rw [hu, hmagic]
      exact h.uninitialized hi t
    · rw [ho.blocks u hu]
      exact h.uninitialized hi u

theorem TimerSystem.Sound.host_none (h : ts.Sound) (ht : (ts.blocks t).active = false) :
    ts.timeouts.lists.host t = none := by
  by_contra hne
  have := (h.shape t).active.mpr hne
  simp [ht] at this

theorem TimerSystem.Quiet.not_expired (hq : ts.Quiet) (t : TimerRef) : ts.timeouts.lists.host t ≠ some .expired := by
  intro hx
  simpa [show ts.timeouts.lists.seq .expired = [] from hq] using (ts.timeouts.lists.mem_seq _ _).mpr hx

theorem timerClearPendingLocked_eq (ts : TimerSystem) (t : TimerRef) :
    timerClearPendingLocked ts t =
      { ts with
        pending := ts.pending.unlink t
        blocks := Function.update ts.blocks t { ts.blocks t with pendingCount := 0 } } := by
  by_cases hl : ts.pending.host t = none
  · simp [timerClearPendingLocked, listNodeIsLinked, hl, TimerSystem.update, ListFamily.unlink_of_none]
  · have hlinked : listNodeIsLinked ts.pending t = true := (listNodeIsLinked_iff _ _).mpr hl
    simp [timerClearPendingLocked, hlinked, listRemove_ok _ _ hl, TimerSystem.update]

theorem timerClearPendingLocked_spec (h : ts.Sound) (t : TimerRef) :
    (timerClearPendingLocked ts t).Sound ∧ OnlyTimer t ts (timerClearPendingLocked ts t) ∧
      (timerClearPendingLocked ts t).blocks t = { ts.blocks t with pendingCount := 0 } ∧
      (timerClearPendingLocked ts t).timeouts = ts.timeouts ∧
      (timerClearPendingLocked ts t).pending = ts.pending.unlink t := by
  rw [timerClearPendingLocked_eq]
  have honly : OnlyTimer t ts { ts with
      pending := ts.pending.unlink t
      blocks := Function.update ts.blocks t { ts.blocks t with pendingCount := 0 } } :=
    ⟨rfl, rfl, fun u hu => by simp [hu], fun _ _ => rfl, fun _ _ => rfl, fun u hu => by simp [hu]⟩
  refine ⟨h.update honly h.timeouts ?_ (by simp), honly, by simp, rfl, rfl⟩
  have hs := h.shape t
  simp only [Function.update_self, ListFamily.unlink_host]
  exact ⟨hs.active, by simp, hs.valid, fun hm => ⟨(hs.fresh hm).1, rfl⟩⟩

theorem timerArmLocked_spec (h : ts.Sound) (hm : (ts.blocks t).magic = true)
    (hn : ts.timeouts.lists.host t = none) :
    ∃ ts', timerArmLocked ts t = (ts', .ok) ∧ ts'.Sound ∧ OnlyTimer t ts ts' ∧
      ts'.blocks t = { ts.blocks t with active := true } ∧
      ts'.timeouts.left t = some (ts.blocks t).periodTicks.toNat ∧ ts'.pending = ts.pending ∧
      ts'.timeouts.lists.seq .expired = ts.timeouts.lists.seq .expired := by
  have hs := h.shape t
  obtain ⟨-, -, h0, hf⟩ := hs.valid hm
  obtain ⟨tl, i, he, hwf, hlast, hhost, hseq, hwake⟩ := timeoutListInsert_spec h.timeouts t _ h0 hf hn
  have hleft := timeoutListInsert_left h.timeouts h0 hf hn t
  rw [he, if_pos rfl] at hleft
  refine ⟨{ ts with
    timeouts := tl
    blocks := Function.update ts.blocks t { ts.blocks t with active := true } }, ?_, ?_, ?_, by simp, hleft, rfl, ?_⟩
  · simp [timerArmLocked, he, TimerSystem.update]
  · refine h.update (t := t) ⟨rfl, hlast, fun u hu => by simp [hu], fun u hu => by simp [hhost, hu],
      fun u hu => by simp [hwake, hu], fun _ _ => rfl⟩ hwf ?_ (by simp)
    simp only [Function.update_self, hhost]
    exact ⟨by simp, hs.pending, hs.valid, fun hm' => by simp [hm] at hm'⟩
  · exact ⟨rfl, hlast, fun u hu => by simp [hu], fun u hu => by simp [hhost, hu],
      fun u hu => by simp [hwake, hu], fun _ _ => rfl⟩
  · simp [hseq]

theorem timerDisarmLocked_spec (h : ts.Sound) (hq : ts.Quiet) (t : TimerRef) :
    ∃ ts', timerDisarmLocked ts t = (ts', .ok) ∧ ts'.Sound ∧ OnlyTimer t ts ts' ∧
      ts'.blocks t = { ts.blocks t with active := false } ∧ ts'.timeouts.lists.host t = none ∧
      ts'.pending = ts.pending ∧ ts'.Quiet := by
  have hs := h.shape t
  cases ha : (ts.blocks t).active with
  | false =>
    refine ⟨ts, by simp [timerDisarmLocked, ha], h, ⟨rfl, rfl, fun _ _ => rfl, fun _ _ => rfl, fun _ _ => rfl,
      fun _ _ => rfl⟩, ?_, h.host_none ha, rfl, hq⟩
    rw [← ha]
  | true =>
    obtain ⟨l, hl⟩ := Option.ne_none_iff_exists'.mp (hs.active.mp ha)
    have hwaiting : ts.timeouts.Waiting t := by
      cases l with
      | slot i => exact ⟨i, hl⟩
      | expired => exact absurd hl (hq.not_expired t)
    obtain ⟨tl, he, hwf, hlast, hlists, hwake⟩ := timeoutListRemove_spec h.timeouts t hwaiting
    have honly : OnlyTimer t ts { ts with
        timeouts := tl
        blocks := Function.update ts.blocks t { ts.blocks t with active := false } } :=
      ⟨rfl, hlast, fun u hu => by simp [hu], fun u hu => by simp [hlists, hu], fun u hu => by rw [hwake],
        fun _ _ => rfl⟩
    refine ⟨_, ?_, h.update honly hwf ?_ (by simp), honly, by simp, by simp [hlists], rfl, ?_⟩
    · simp [timerDisarmLocked, ha, he, TimerSystem.update]
    · simp only [Function.update_self, hlists, ListFamily.unlink_host]
      exact ⟨by simp, hs.pending, hs.valid, fun hm => ⟨rfl, (hs.fresh hm).2⟩⟩
    · simp only [TimerSystem.Quiet, hlists, ListFamily.unlink_seq]
      rw [show ts.timeouts.lists.seq .expired = [] from hq]
      rfl

def expiredBlock (cb : TimerControlBlock) : TimerControlBlock :=
  { cb with
    active := false
    pendingCount := if cb.pendingCount < uint32Max then cb.pendingCount + 1 else cb.pendingCount }

theorem TimerSystem.Sound.isValid {s : System} (h : s.timers.Sound) (hm : (s.timers.blocks t).magic = true) :
    timerIsValid s t = true := by
  obtain ⟨hname, hcallback, h0, hf⟩ := (h.shape t).valid hm
  simp [timerIsValid, hm, h0, hf, Option.isSome_iff_ne_none, hname, hcallback]

theorem TimerShape.magic_of_active {cb : TimerControlBlock} {a : Option TimeoutSlot} {b : Option Unit}
    (h : TimerShape cb a b) (ha : a ≠ none) : cb.magic = true := by
  by_contra hm
  have := (h.fresh (by simpa using hm)).1
  simp [h.active.mpr ha] at this

theorem TimerShape.magic_of_pending {cb : TimerControlBlock} {a : Option TimeoutSlot} {b : Option Unit}
    (h : TimerShape cb a b) (hb : b ≠ none) : cb.magic = true := by
  by_contra hm
  have := (h.fresh (by simpa using hm)).2
  have hpos := h.pending.mpr hb
  omega

theorem pending_push (pending : ListFamily Unit TimerRef) (t : TimerRef) :
    (if !listNodeIsLinked pending t then (listPushBack pending () t).1 else pending).host =
      Function.update pending.host t (some ()) := by
  cases hl : pending.host t with
  | none => simp [listNodeIsLinked, hl, listPushBack_ok _ _ _ hl]
  | some l =>
    rw [← show pending.host t = some () from hl, Function.update_eq_self]
    simp [listNodeIsLinked, hl]

def TimerSystem.expireFront (ts : TimerSystem) (t : TimerRef) : TimerSystem :=
  { ts with
    timeouts := { ts.timeouts with lists := ts.timeouts.lists.unlink t }
    pending := if !listNodeIsLinked ts.pending t then (listPushBack ts.pending () t).1 else ts.pending
    blocks := Function.update ts.blocks t (expiredBlock (ts.blocks t)) }

theorem TimerSystem.Sound.expireFront (h : ts.Sound) (hx : ts.timeouts.lists.host t = some .expired) :
    (ts.expireFront t).Sound ∧ OnlyTimer t ts (ts.expireFront t) := by
  have hs := h.shape t
  have hm : (ts.blocks t).magic = true := hs.magic_of_active (by simp [hx])
  have hpush := pending_push ts.pending t
  have honly : OnlyTimer t ts (ts.expireFront t) :=
    ⟨rfl, rfl, fun u hu => by simp [TimerSystem.expireFront, hu], fun u hu => by simp [TimerSystem.expireFront, hu],
      fun _ _ => rfl, fun u hu => by simp only [TimerSystem.expireFront, hpush, Function.update_of_ne hu]⟩
  refine ⟨h.update honly (h.timeouts.popExpired hx) ?_ (by simp [TimerSystem.expireFront, expiredBlock]), honly⟩
  simp only [TimerSystem.expireFront, hpush, Function.update_self, ListFamily.unlink_host]
  refine ⟨by simp [expiredBlock], ?_, hs.valid, fun hm' => by simp [expiredBlock, hm] at hm'⟩
  simp only [expiredBlock, ne_eq, reduceCtorEq, not_false_eq_true, iff_true]
  split
  · omega
  · next hlt => exact lt_of_lt_of_le (show 0 < uint32Max by decide) (not_lt.mp hlt)

theorem timerExpire_eq {s : System} (hv : timerIsValid s t = true) (ha : (s.timers.blocks t).active = true) :
    timerExpire
        { s with
          timers :=
            { s.timers with timeouts := { s.timers.timeouts with lists := s.timers.timeouts.lists.unlink t } } } t =
      if (s.timers.blocks t).autoReload then
        ({ s with timers := (timerArmLocked (s.timers.expireFront t) t).1 },
          decide ((timerArmLocked (s.timers.expireFront t) t).2 = .ok))
      else ({ s with timers := s.timers.expireFront t }, true) := by
  simp only [timerIsValid] at hv
  simp only [timerExpire, timerIsValid, hv, ha, TimerSystem.update, Function.update_self]
  rfl

theorem timerExpire_spec {s : System} (h : s.timers.Sound) {rest : List TimerRef}
    (hx : s.timers.timeouts.lists.seq .expired = t :: rest) :
    ∃ ts', timerExpire
        { s with
          timers :=
            { s.timers with timeouts := { s.timers.timeouts with lists := s.timers.timeouts.lists.unlink t } } } t =
        ({ s with timers := ts' }, true) ∧
      ts'.Sound ∧ OnlyTimer t s.timers ts' ∧ ts'.timeouts.lists.seq .expired = rest ∧
      ts'.alarm t = (s.timers.alarm t).expire uint32Max ∧ (ts'.blocks t).magic = (s.timers.blocks t).magic := by
  have hhost := s.timers.timeouts.lists.host_of_head hx
  have hs := h.shape t
  have hm : (s.timers.blocks t).magic = true := hs.magic_of_active (by simp [hhost])
  have ha : (s.timers.blocks t).active = true := hs.active.mpr (by simp [hhost])
  obtain ⟨hsound, honly⟩ := h.expireFront hhost
  have hrest : (s.timers.expireFront t).timeouts.lists.seq .expired = rest := by
    simp only [TimerSystem.expireFront]
    rw [ListFamily.unlink_seq, hx, List.erase_cons_head]
  have hblock : (s.timers.expireFront t).blocks t = expiredBlock (s.timers.blocks t) := by
    simp [TimerSystem.expireFront]
  rw [timerExpire_eq (h.isValid hm) ha]
  cases hr : (s.timers.blocks t).autoReload with
  | false =>
    refine ⟨_, rfl, hsound, honly, hrest, ?_, by rw [hblock]; rfl⟩
    simp only [TimerSystem.alarm, hblock]
    simp [Alarm.expire, expiredBlock, hr, TimeoutList.left, TimerSystem.expireFront]
  | true =>
    obtain ⟨ts', he, hsound', honly', hblock', hleft, hpending, hexpired⟩ :=
      timerArmLocked_spec hsound (t := t) (by simpa [hblock, expiredBlock] using hm) (by simp [TimerSystem.expireFront])
    refine ⟨ts', by simp [he], hsound', honly.trans honly', hexpired.trans hrest, ?_, by rw [hblock', hblock]; rfl⟩
    simp [TimerSystem.alarm, Alarm.expire, hblock', hblock, hleft, hr, expiredBlock]

def timerExpireOrder : Nat → System → List TimerRef
  | 0, _ => []
  | fuel + 1, s =>
    match listPopFront s.timers.timeouts.lists .expired with
    | (_, none) => []
    | (lists, some t) =>
      match timerExpire { s with timers := { s.timers with timeouts := { s.timers.timeouts with lists := lists } } } t
        with
      | (s, true) => t :: timerExpireOrder fuel s
      | (_, false) => []

theorem timerExpireLoop_spec {s : System} (h : s.timers.Sound) {xs : List TimerRef}
    (hx : s.timers.timeouts.lists.seq .expired = xs) (signal : Bool) :
    ∃ ts', timerExpireLoop xs.length s signal = ({ s with timers := ts' }, some (signal || !xs.isEmpty)) ∧
      timerExpireOrder xs.length s = xs ∧
      ts'.Sound ∧ ts'.Quiet ∧ ts'.initialized = s.timers.initialized ∧
      ts'.timeouts.lastTick = s.timers.timeouts.lastTick ∧
      (∀ t, ts'.alarm t = if t ∈ xs then (s.timers.alarm t).expire uint32Max else s.timers.alarm t) ∧
      ∀ t, (ts'.blocks t).magic = (s.timers.blocks t).magic := by
  induction xs generalizing s signal with
  | nil => exact ⟨s.timers, by simp [timerExpireLoop], rfl, h, hx, rfl, rfl, by simp, fun _ => rfl⟩
  | cons t rest ih =>
    have hnodup : t ∉ rest := (List.nodup_cons.mp (hx ▸ s.timers.timeouts.lists.nodup .expired)).1
    obtain ⟨ts₁, he, hsound, honly, hrest, halarm, hmagic⟩ := timerExpire_spec h hx
    obtain ⟨ts₂, hloop, horder, hsound₂, hquiet, hinit, hlast, halarms, hmagics⟩ :=
      ih (s := { s with timers := ts₁ }) hsound hrest true
    refine ⟨ts₂, ?_, ?_, hsound₂, hquiet, hinit.trans honly.initialized, hlast.trans honly.lastTick, ?_, ?_⟩
    · simp only [List.length_cons, timerExpireLoop, listPopFront_cons _ _ hx, he, hloop]
      simp
    · simp only [List.length_cons, timerExpireOrder, listPopFront_cons _ _ hx, he, horder]
    · intro u
      rw [halarms u]
      by_cases hu : u = t
      · subst hu
        simp [hnodup, halarm]
      · simp [hu, honly.alarm hu]
    · intro u
      rw [hmagics u]
      by_cases hu : u = t
      · rw [hu]
        exact hmagic
      · exact congrArg _ (honly.blocks u hu)

structure TimerControl (t : TimerRef) (e : AlarmEvent) (ts ts' : TimerSystem) : Prop where
  sound : ts'.Sound
  quiet : ts'.Quiet
  only : OnlyTimer t ts ts'
  alarm : ts'.alarm t = (ts.alarm t).step uint32Max e
  magic : (ts'.blocks t).magic = (ts.blocks t).magic
  pending : ∀ u, ts'.pending.host u ≠ none → ts.pending.host u ≠ none

theorem timerArm_control (h : ts.Sound) (hq : ts.Quiet) (hm : (ts.blocks t).magic = true)
    (ha : (ts.blocks t).active = false) :
    ∃ ts', timerArmLocked (timerClearPendingLocked ts t) t = (ts', .ok) ∧
      TimerControl t (.arm (ts.blocks t).periodTicks.toNat) ts ts' := by
  obtain ⟨hsound, honly, hblock, htimeouts, hpending⟩ := timerClearPendingLocked_spec h t
  obtain ⟨ts', he, hsound', honly', hblock', hleft, hpending', hexpired⟩ :=
    timerArmLocked_spec hsound (t := t) (by rw [hblock]; exact hm) (by rw [htimeouts]; exact h.host_none ha)
  refine ⟨ts', he, hsound', ?_, honly.trans honly', ?_, ?_, ?_⟩
  · rw [TimerSystem.Quiet, hexpired, htimeouts]
    exact hq
  · simp [TimerSystem.alarm, Alarm.step, hblock', hblock, hleft]
  · rw [hblock', hblock]
  · intro u hu
    rw [hpending', hpending] at hu
    by_cases hut : u = t
    · simp [hut] at hu
    · simpa [hut] using hu

theorem timerStop_control (h : ts.Sound) (hq : ts.Quiet) :
    ∃ ts', timerDisarmLocked ts t = (ts', .ok) ∧ TimerControl t .stop ts (timerClearPendingLocked ts' t) := by
  obtain ⟨ts', he, hsound, honly, hblock, hhost, hpending, hquiet⟩ := timerDisarmLocked_spec h hq t
  obtain ⟨hsound', honly', hblock', htimeouts, hpending'⟩ := timerClearPendingLocked_spec hsound t
  refine ⟨ts', he, hsound', ?_, honly.trans honly', ?_, ?_, ?_⟩
  · rw [TimerSystem.Quiet, htimeouts]
    exact hquiet
  · simp [TimerSystem.alarm, Alarm.step, hblock', hblock, htimeouts, TimeoutList.left, hhost]
  · rw [hblock', hblock]
  · intro u hu
    rw [hpending', hpending] at hu
    by_cases hut : u = t
    · simp [hut] at hu
    · simpa [hut] using hu

theorem timerRearm_control (h : ts.Sound) (hq : ts.Quiet) (hm : (ts.blocks t).magic = true) {period : Tick}
    (h0 : period ≠ 0#32) (hf : period ≠ waitForever) :
    ∃ ts₁ ts', timerDisarmLocked ts t = (ts₁, .ok) ∧
      timerArmLocked (timerClearPendingLocked (ts₁.update t (fun cb => { cb with periodTicks := period })) t) t =
        (ts', .ok) ∧ TimerControl t (.arm period.toNat) ts ts' := by
  obtain ⟨ts₁, he, hsound, honly, hblock, hhost, hpending, hquiet⟩ := timerDisarmLocked_spec h hq t
  have hs₁ := hsound.shape t
  have honly₂ : OnlyTimer t ts₁ (ts₁.update t (fun cb => { cb with periodTicks := period })) :=
    ⟨rfl, rfl, fun u hu => by simp [TimerSystem.update, hu], fun _ _ => rfl, fun _ _ => rfl, fun _ _ => rfl⟩
  have hblock₂ : (ts₁.update t (fun cb => { cb with periodTicks := period })).blocks t =
      { ts₁.blocks t with periodTicks := period } := by simp [TimerSystem.update]
  have hsound₂ : (ts₁.update t (fun cb => { cb with periodTicks := period })).Sound := by
    refine hsound.update honly₂ hsound.timeouts ?_ (by rw [hblock₂])
    rw [hblock₂]
    exact ⟨hs₁.active, hs₁.pending, fun hm => ⟨(hs₁.valid hm).1, (hs₁.valid hm).2.1, h0, hf⟩,
      hs₁.fresh⟩
  obtain ⟨ts', he', hcontrol⟩ := timerArm_control hsound₂ (t := t) hquiet
    (by rw [hblock₂, hblock]; exact hm) (by rw [hblock₂, hblock])
  rw [hblock₂] at hcontrol
  refine ⟨ts₁, ts', he, he', hcontrol.sound, hcontrol.quiet, (honly.trans honly₂).trans hcontrol.only,
    ?_, ?_, ?_⟩
  · rw [hcontrol.alarm]
    simp [TimerSystem.alarm, Alarm.step, hblock₂, hblock]
  · rw [hcontrol.magic, hblock₂, hblock]
  · intro u hu
    have := hcontrol.pending u hu
    rwa [show (ts₁.update t (fun cb => { cb with periodTicks := period })).pending = ts₁.pending from rfl, hpending]
      at this

end

end Hairtos
