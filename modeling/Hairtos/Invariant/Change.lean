import Hairtos.Invariant.Run

namespace Hairtos

open Library

variable {k k' : Kernel} {l : WaitListRef} {w : Wait} {woken : Bool} {timeout : Tick} {r : CallResult}

inductive Kernel.Prepares (cfg : Config) (k : Kernel) : Kernel → Prop
  | create (t : TaskRef) (priority : Nat) (fresh : (k.tasks t).state = .invalid) :
      Prepares cfg k (k.create cfg t priority)
  | register (t : TaskRef) (state : k.state = .initialized) (created : (k.tasks t).state = .created) :
      Prepares cfg k (k.register cfg t)

inductive Call.Change (cfg : Config) (s : System) (inIsr : Bool) (c : Call) : Kernel → Bool → Prop
  | prepares {k : Kernel} (path : Relation.ReflTransGen (Kernel.Prepares cfg) s.kernel k) : Change cfg s inIsr c k false
  | yields {k : Kernel} (call : c = .taskYield ∨ c = .taskDelay 0#32) (calm : s.kernel.Calm k)
      (pends : k.pendSvPending = true → s.kernel.pendSvPending = true ∨ ∃ t, s.kernel.Runs t) :
        Change cfg s inIsr c k false
  | waits (t : TaskRef) (w : Wait) (ticks : Option Tick) {k : Kernel} (runs : s.kernel.Runs t)
      (calm : (s.kernel.startWait cfg t w ticks).Calm k) : Change cfg s inIsr c k false
  | suspends (t : TaskRef) {k : Kernel} (call : c = .taskSuspend (some t)) (idle : t ≠ .idle)
      (state : (s.kernel.tasks t).state.isReady = true ∨ (s.kernel.tasks t).state = .blocked)
      (calm : (s.kernel.suspend cfg t).Calm k)
      (pends : k.pendSvPending = true → s.kernel.pendSvPending = true ∨ (s.kernel.tasks t).state = .running) :
      Change cfg s inIsr c k false
  | resumes (t : TaskRef) {k : Kernel} (call : c = .taskResume (some t)) (state : (s.kernel.tasks t).state = .suspended)
      (calm : (s.kernel.resume cfg t).Calm k)
      (pends : k.pendSvPending = true → s.kernel.pendSvPending = true ∨ cfg.preemption = true) :
        Change cfg s inIsr c k false
  | serves (l : WaitListRef) (u : TaskRef) (w : Wait) (k₁ : Kernel) {k : Kernel} {woken : Bool}
      (list : c.serving s inIsr = some l) (first : waitListPeek s.kernel.waitLists l = some u)
      (wait : (s.kernel.tasks u).wait = some w) (granted : Granted cfg s.kernel u k₁) (calm : k₁.Calm k)
      (pends : k.pendSvPending = true → s.kernel.pendSvPending = true ∨ preemptsCurrent s.kernel u k₁ = true)
      (told : woken = true → preemptsCurrent s.kernel u k₁ = true) : Change cfg s inIsr c k woken

section

variable {cfg : Config} {s : System} {inIsr : Bool} {c : Call}

theorem Call.Change.same : c.Change cfg s inIsr s.kernel false := .prepares .refl

theorem Granted.pends {u : TaskRef} (h : Granted cfg k u k') :
    k'.pendSvPending = k.pendSvPending := by rw [h.woken.frame]

theorem Granted.change {u : TaskRef} {k₁ : Kernel}
    (h : Granted cfg s.kernel u k₁) (hl : c.serving s inIsr = some l)
    (hfirst : waitListPeek s.kernel.waitLists l = some u)
    (hw : (s.kernel.tasks u).wait = some w) (hcalm : k₁.Calm k)
    (hpends : k.pendSvPending = true → k₁.pendSvPending = true ∨ preemptsCurrent s.kernel u k₁ = true)
    (htold : woken = true → preemptsCurrent s.kernel u k₁ = true) : c.Change cfg s inIsr k woken := by
  refine .serves l u w k₁ hl hfirst hw h hcalm ?_ htold
  rwa [h.pends] at hpends

theorem Transfer.pends {blocked : Bool}
    (h : Transfer cfg k l w timeout blocked woken k') : k'.pendSvPending = k.pendSvPending := by
  cases h with
  | same => rfl
  | served u w' k' _ _ hgranted => exact hgranted.pends
  | waits t => rfl

theorem Transfer.change {blocked told : Bool} {k₁ : Kernel}
    (h : Transfer cfg s.kernel l w timeout blocked woken k₁) (hl : c.serving s inIsr = some l) (hcalm : k₁.Calm k)
    (hpends : blocked = false → k.pendSvPending = true → k₁.pendSvPending = true ∨ woken = true)
    (hquiet : blocked = false → woken = false → k = k₁) (htold : told = true → woken = true) :
    c.Change cfg s inIsr k told := by
  have hnot : woken = false → told = false := fun hw => Bool.eq_false_iff.mpr fun ht => by simp [htold ht] at hw
  cases h with
  | same =>
    rw [hnot rfl, hquiet rfl rfl]
    exact .same
  | served u w' k₁ hfirst hwait hgranted => exact hgranted.change hl hfirst hwait hcalm (hpends rfl) htold
  | waits t hruns =>
    rw [hnot rfl]
    exact .waits t _ _ hruns hcalm

theorem TakeEffect.change {x : SemaphoreRef} {caller : Option TaskRef} {s₁ : System}
    {outcome : Outcome} (h : TakeEffect cfg s x timeout caller s₁ outcome) :
    c.Change cfg s inIsr s₁.kernel false := by
  cases h with
  | counted => exact .same
  | waits t hruns => exact .waits t _ _ hruns (Kernel.calm_requestContextSwitch _)

theorem Bringup.prepares {s' : System} (h : Relation.ReflTransGen (Bringup cfg) s s') (g : s.Good cfg) :
    Relation.ReflTransGen (Kernel.Prepares cfg) s.kernel s'.kernel := by
  induction h with
  | refl => exact .refl
  | tail hpath hlast ih =>
    cases hlast with
    | timers => exact ih
    | signal => exact ih
    | create hfresh =>
      refine ih.tail (.create _ _ ?_)
      by_contra hs
      have hm := ((bringup_good hpath g).kernel.shape .timerService).magic.mpr hs
      exact Bool.false_ne_true (hfresh.symm.trans hm)
    | register hstate hcreated => exact ih.tail (.register _ hstate hcreated)

def Call.isMutexCall : Call → Bool
  | .mutexLock _ _ => true
  | .mutexUnlock _ => true
  | _ => false

theorem CallEffect.change (he : CallEffect cfg s inIsr c r) (h : s.Good cfg)
    (hc : c.isMutexCall = false) : c.Change cfg s inIsr r.system.kernel r.woken := by
  cases he with
  | createTask n p hfresh =>
    refine .prepares (.single (.create _ _ ?_))
    by_contra hs
    exact Bool.false_ne_true (hfresh.symm.trans ((h.kernel.shape _).magic.mpr hs))
  | startTask t hstate hcreated => exact .prepares (.single (.register t hstate hcreated))
  | yield _ hcall t k _ hruns hcalm => exact .yields hcall hcalm (fun _ => Or.inr ⟨t, hruns⟩)
  | delay t ticks _ hruns => exact .waits t .delay _ hruns (Kernel.calm_requestContextSwitch _)
  | delayUntil t a period ticks _ _ hruns => exact .waits t .delay _ hruns (Kernel.calm_requestContextSwitch _)
  | suspend t _ hstate hidle =>
    refine .suspends t rfl hidle hstate ?_ (fun hp => ?_)
    · simpa using Kernel.calm_ite (s.kernel.suspend cfg t) (decide ((s.kernel.tasks t).state = .running))
    · split_ifs at hp with hrun
      · exact Or.inr hrun
      · exact Or.inl hp
  | resume t k _ hstate _ hcalm hpends =>
    refine .resumes t rfl hstate hcalm (fun hp => ?_)
    simp only [hpends, Bool.or_eq_true, Bool.and_eq_true] at hp
    exact hp.imp id (fun hp => hp.1.1)
  | send q b timeout r htask hv heffect =>
    refine heffect.transfer.change (Call.serving_of_passes (by simp [Call.passes, htask, hv])) (Kernel.calm_ite _ _)
      (fun hb hp => ?_) r.finish_kernel (by simp)
    simpa [hb] using Kernel.pends_ite hp
  | receive q b timeout r htask hv heffect =>
    refine heffect.transfer.change (Call.serving_of_passes (by simp [Call.passes, htask, hv])) (Kernel.calm_ite _ _)
      (fun hb hp => ?_) r.finish_kernel (by simp)
    simpa [hb] using Kernel.pends_ite hp
  | sendFromIsr q b r hisr hv heffect =>
    exact heffect.transfer.change (Call.serving_of_passes (by simp [Call.passes, hisr, hv])) (Kernel.Calm.refl _)
      (fun _ => Or.inl) (fun _ _ => rfl) id
  | receiveFromIsr q b r hisr hv heffect =>
    exact heffect.transfer.change (Call.serving_of_passes (by simp [Call.passes, hisr, hv])) (Kernel.Calm.refl _)
      (fun _ => Or.inl) (fun _ _ => rfl) id
  | take n timeout s₁ outcome _ _ heffect => exact heffect.change
  | give n s₁ woken status htask hv heffect =>
    exact (heffect.transfer .delay noWait).change (Call.serving_of_passes (by simp [Call.passes, htask, hv]))
      (Kernel.calm_ite _ _) (fun _ => Kernel.pends_ite) (fun _ hw => by simp [hw]) (by simp)
  | giveFromIsr n s₁ woken status hisr hv heffect =>
    exact (heffect.transfer .delay noWait).change (Call.serving_of_passes (by simp [Call.passes, hisr, hv]))
      (Kernel.Calm.refl _) (fun _ => Or.inl) (fun _ _ => rfl) id
  | lock m timeout => simp [Call.isMutexCall] at hc
  | unlock m t => simp [Call.isMutexCall] at hc
  | createTimer t name period autoReload callback s₁ status hpath => exact .prepares (Bringup.prepares hpath h)
  | _ => exact .same

theorem Call.Change.honoured (h : c.Change cfg s inIsr k woken) :
    c.Change cfg s inIsr (yieldFromIsr k woken) woken := by
  cases h with
  | prepares path => exact .prepares path
  | yields hcall hcalm hpends => exact .yields hcall hcalm hpends
  | waits t w ticks hruns hcalm => exact .waits t w ticks hruns hcalm
  | suspends t hcall hidle hstate hcalm hpends => exact .suspends t hcall hidle hstate hcalm hpends
  | resumes t hcall hstate hcalm hpends => exact .resumes t hcall hstate hcalm hpends
  | serves l u w k₁ hl hfirst hwait hgranted hcalm hpends htold =>
    cases woken with
    | false => exact .serves l u w k₁ hl hfirst hwait hgranted hcalm hpends htold
    | true =>
      exact .serves l u w k₁ hl hfirst hwait hgranted (hcalm.trans (Kernel.calm_requestContextSwitch _))
        (fun _ => Or.inr (htold rfl)) htold

theorem step_task_change (hs : s.Steady cfg) (hc : c.isMutexCall = false) :
    c.Change cfg s false (step cfg s (.task c)).kernel false := by
  have he := step_effect hs.good hs.quiet (.task c)
  generalize step cfg s (.task c) = s' at he ⊢
  cases he with
  | noTask => exact .same
  | task c r _ _ _ heffect => exact heffect.not_woken ▸ heffect.change hs.good hc

inductive TaskStep (cfg : Config) (s s' : System) : Call → Prop
  | refused (c : Call) (kernel : s'.kernel = s.kernel) : TaskStep cfg s s' c
  | changes (c : Call) (notMutex : c.isMutexCall = false) (change : c.Change cfg s false s'.kernel false) :
      TaskStep cfg s s' c
  | locks (m : MutexRef) (timeout : Tick) (outcome : Outcome) (effect : LockEffect cfg s m timeout s' outcome) :
      TaskStep cfg s s' (.mutexLock (some m) timeout)
  | unlocks (m : MutexRef) (t : TaskRef) (runs : s.kernel.Runs t) (owner : (s.mutexes.blocks m).owner = some t)
      (effect : UnlockEffect cfg s m t s') : TaskStep cfg s s' (.mutexUnlock (some m))

theorem step_task_cases (hs : s.Steady cfg) (c : Call) : TaskStep cfg s (step cfg s (.task c)) c := by
  by_cases hmutex : c.isMutexCall = false
  · exact .changes c hmutex (step_task_change hs hmutex)
  have he := step_effect hs.good hs.quiet (.task c)
  generalize step cfg s (.task c) = s' at he ⊢
  cases he with
  | noTask => exact .refused c rfl
  | task c r _ _ _ heffect =>
    cases heffect with
    | lock m timeout s₁ outcome _ heffect => exact .locks m timeout _ heffect
    | unlock m t s₁ _ hruns howner heffect => exact .unlocks m t hruns howner heffect
    | refused | control => exact .refused _ rfl
    | _ => grind [Call.isMutexCall]

theorem CallEffect.isr_change (he : CallEffect cfg s true c r) (h : s.Good cfg) :
    c.Change cfg s true r.system.kernel r.woken := by
  by_cases hc : c.isMutexCall = false
  · exact he.change h hc
  · cases he <;> first | exact .same | grind [Call.isMutexCall]

theorem step_isr_change (hs : s.Steady cfg) (c : Call) (honoured : Bool) :
    ∃ woken, c.Change cfg s true (step cfg s (.isr c honoured)).kernel woken := by
  have he := step_effect hs.good hs.quiet (.isr c honoured)
  generalize step cfg s (.isr c honoured) = s' at he ⊢
  cases he with
  | isr c honoured r k _ _ heffect _ hk =>
    have h := heffect.isr_change hs.good
    rw [hk]
    cases honoured with
    | false => exact ⟨_, h⟩
    | true => exact ⟨_, h.honoured⟩

theorem step_isr_suspend (hs : s.Steady cfg) (t : TaskRef) (honoured : Bool) :
    (step cfg s (.isr (.taskSuspend (some t)) honoured)).kernel = s.kernel := by
  have he := step_effect hs.good hs.quiet (.isr (.taskSuspend (some t)) honoured)
  generalize step cfg s (.isr (.taskSuspend (some t)) honoured) = s' at he ⊢
  cases he with
  | isr _ _ r k _ _ heffect _ hk => cases heffect <;> simp_all [yieldFromIsr]

theorem Kernel.Prepares.pends (h : Relation.ReflTransGen (Kernel.Prepares cfg) k k') :
    k'.pendSvPending = k.pendSvPending := by
  induction h with
  | refl => rfl
  | tail _ hlast ih =>
    rw [← ih]
    cases hlast <;> rfl

theorem CallEffect.isr_pends (he : CallEffect cfg s true c r) (h : s.Good cfg) :
    r.system.kernel.pendSvPending = s.kernel.pendSvPending := by
  cases he with
  | sendFromIsr q b r _ _ heffect => exact heffect.transfer.pends
  | receiveFromIsr q b r _ _ heffect => exact heffect.transfer.pends
  | giveFromIsr n s₁ woken status _ _ heffect => exact (heffect.transfer .delay noWait).pends
  | createTimer t name period autoReload callback s₁ status hpath =>
    exact Kernel.Prepares.pends (Bringup.prepares hpath h)
  | _ => first | rfl | simp_all

theorem step_service_change (hs : s.Steady cfg) : c.Change cfg s false (step cfg s .service).kernel false := by
  have he := step_effect hs.good hs.quiet .service
  generalize step cfg s .service = s' at he ⊢
  cases he with
  | noService => exact .same
  | service s' _ _ heffect =>
    cases heffect with
    | takes s₁ outcome phase _ _ _ heffect => exact heffect.change
    | _ => exact .same

end

end Hairtos
