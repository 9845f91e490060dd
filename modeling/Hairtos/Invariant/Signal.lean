import Hairtos.Invariant.Run

namespace Hairtos

open Library

variable {t : TaskRef} {w : Wait} {timeout : Tick}

structure Unsignalled (s s' : System) : Prop where
  timers : s'.timers = s.timers
  service : s'.service = s.service
  signal : s'.semaphores .timerSignal = s.semaphores .timerSignal
  waits : ∀ t, (s'.kernel.tasks t).wait = some (.semaphoreTake .timerSignal) →
    (s.kernel.tasks t).wait = some (.semaphoreTake .timerSignal)

section

variable {cfg : Config} {s s' s'' : System}

theorem Unsignalled.refl (s : System) : Unsignalled s s := ⟨rfl, rfl, rfl, fun _ h => h⟩

theorem Unsignalled.trans (h : Unsignalled s s') (h' : Unsignalled s' s'') : Unsignalled s s'' :=
  ⟨h'.timers.trans h.timers, h'.service.trans h.service, h'.signal.trans h.signal, fun t ht => h.waits t
    (h'.waits t ht)⟩

theorem Unsignalled.of_same (h : SameWaits s.kernel s'.kernel) (htimers : s'.timers = s.timers)
    (hservice : s'.service = s.service) (hsignal : s'.semaphores .timerSignal = s.semaphores .timerSignal) :
    Unsignalled s s' :=
  ⟨htimers, hservice, hsignal, fun t ht => (h.wait t).symm.trans ht⟩

theorem Unsignalled.of_starts {ticks : Option Tick}
    (h : WaitStarts s.kernel t w ticks s'.kernel) (hw : w ≠ .semaphoreTake .timerSignal)
    (htimers : s'.timers = s.timers) (hservice : s'.service = s.service)
    (hsignal : s'.semaphores .timerSignal = s.semaphores .timerSignal) : Unsignalled s s' := by
  refine ⟨htimers, hservice, hsignal, fun u hu => ?_⟩
  by_cases hut : u = t
  · rw [hut, h.wait] at hu
    exact absurd (Option.some.inj hu) hw
  · rwa [h.others u hut] at hu

theorem Unsignalled.of_ends {result : Status} (h : WaitEnds s.kernel t w result s'.kernel)
    (htimers : s'.timers = s.timers) (hservice : s'.service = s.service)
    (hsignal : s'.semaphores .timerSignal = s.semaphores .timerSignal) : Unsignalled s s' := by
  refine ⟨htimers, hservice, hsignal, fun u hu => ?_⟩
  by_cases hut : u = t
  · rw [hut, h.done] at hu
    simp at hu
  · rwa [h.others u hut] at hu

theorem Unsignalled.calm {k : Kernel} (h : Unsignalled s s') (hcalm : s'.kernel.Calm k) :
    Unsignalled s { s' with kernel := k } :=
  h.trans (.of_same hcalm.bookkept.aside.sameWaits rfl rfl rfl)

theorem GiveEffect.unsignalled {x : SemaphoreRef} {woken : Bool} {status : Status}
    (h : GiveEffect cfg s x s' woken status) (hx : x ≠ .timerSignal) : Unsignalled s s' := by
  cases h with
  | served u k _ hwait hgranted => exact .of_ends (hgranted.woken.waitEnds hwait) rfl rfl rfl
  | counted =>
    refine .of_same (SameWaits.refl _) rfl rfl ?_
    simp [System.record, System.updateSemaphore, hx.symm]
  | full => exact .refl s

theorem TakeEffect.unsignalled {x : SemaphoreRef} {caller : Option TaskRef} {outcome : Outcome}
    (h : TakeEffect cfg s x timeout caller s' outcome) (hx : x ≠ .timerSignal) : Unsignalled s s' := by
  cases h with
  | counted =>
    refine .of_same (SameWaits.refl _) rfl rfl ?_
    simp [System.record, System.updateSemaphore, hx.symm]
  | waits t hruns _ _ hfinite =>
    refine Unsignalled.of_starts ((Kernel.startWait_starts cfg _ hruns (timeoutTicks_spec hfinite)).aside
      (Kernel.calm_requestContextSwitch _).bookkept.aside) ?_ rfl rfl rfl
    simpa using hx

theorem Transfer.unsignalled {l : WaitListRef} {blocked woken : Bool}
    (h : Transfer cfg s.kernel l w timeout blocked woken s'.kernel) (hw : w ≠ .semaphoreTake .timerSignal)
    (hrest : s'.timers = s.timers ∧ s'.service = s.service ∧ s'.semaphores = s.semaphores) : Unsignalled s s' := by
  obtain ⟨htimers, hservice, hsemaphores⟩ := hrest
  have hsignal := congrFun hsemaphores .timerSignal
  generalize hk : s'.kernel = k at h
  cases h with
  | same => exact .of_same (hk ▸ SameWaits.refl _) htimers hservice hsignal
  | served u w' k _ hwait hgranted =>
    exact .of_ends (hk ▸ hgranted.woken.waitEnds hwait) htimers hservice hsignal
  | waits t hruns _ hfinite =>
    exact .of_starts (hk ▸ Kernel.startWait_starts cfg _ hruns (timeoutTicks_spec hfinite)) hw htimers
      hservice hsignal

theorem SendEffect.unsignalled {q : QueueRef} {item : BufferRef} {sender : Option TaskRef}
    {r : QueueResult} (h : SendEffect cfg s q item timeout sender r) : Unsignalled s r.system :=
  h.transfer.unsignalled (by simp) (by cases h <;> exact ⟨rfl, rfl, rfl⟩)

theorem ReceiveEffect.unsignalled {q : QueueRef} {item : BufferRef} {receiver : Option TaskRef}
    {r : QueueResult} (h : ReceiveEffect cfg s q item timeout receiver r) : Unsignalled s r.system :=
  h.transfer.unsignalled (by simp) (by cases h <;> exact ⟨rfl, rfl, rfl⟩)

theorem UnlockEffect.unsignalled {m : MutexRef} (h : UnlockEffect cfg s m t s') : Unsignalled s s' := by
  have hrest : s'.timers = s.timers ∧ s'.service = s.service ∧ s'.semaphores = s.semaphores := by
    cases h <;> exact ⟨rfl, rfl, rfl⟩
  obtain ⟨htimers, hservice, hsemaphores⟩ := hrest
  rcases h.keeps_or_ends with ⟨hsame, -⟩ | ⟨u, hends, -⟩
  · exact .of_same hsame htimers hservice (by rw [hsemaphores])
  · exact .of_ends hends htimers hservice (by rw [hsemaphores])

theorem LockEffect.unsignalled {m : MutexRef} {outcome : Outcome}
    (h : LockEffect cfg s m timeout s' outcome) : Unsignalled s s' := by
  have hrest : s'.timers = s.timers ∧ s'.service = s.service ∧ s'.semaphores = s.semaphores := by
    cases h <;> exact ⟨rfl, rfl, rfl⟩
  obtain ⟨htimers, hservice, hsemaphores⟩ := hrest
  rcases h.keeps_or_starts with hsame | ⟨t, hstarts⟩ | ⟨t, k, hstarts, hends⟩
  · exact .of_same hsame htimers hservice (by rw [hsemaphores])
  · exact .of_starts hstarts (by simp) htimers hservice (by rw [hsemaphores])
  · have hfirst : Unsignalled s { s with kernel := k } := .of_starts hstarts (by simp) rfl rfl rfl
    exact hfirst.trans (.of_ends hends htimers hservice (by rw [hsemaphores]))

theorem delay_unsignalled {d : Tick} (hruns : s.kernel.Runs t) (h0 : d ≠ 0#32) (hf : d ≠ waitForever)
    (anchors : Nat → Tick) :
    Unsignalled s
      { s with kernel := requestContextSwitch (s.kernel.startWait cfg t .delay (some d)), anchors := anchors } := by
  have hstarts : WaitStarts s.kernel t .delay (some d) (s.kernel.startWait cfg t .delay (some d)) :=
    Kernel.startWait_starts cfg _ hruns (by rintro _ ⟨⟩; exact ⟨h0, hf⟩)
  exact .of_starts (hstarts.aside (Kernel.calm_requestContextSwitch _).bookkept.aside) (by simp) rfl rfl rfl

theorem CallEffect.unsignalled {inIsr : Bool} {c : Call} {r : CallResult} (he : CallEffect cfg s inIsr c r)
    (h : s.Good cfg) (hc : c.usesTimer = false) : Unsignalled s r.system := by
  cases he with
  | createTask n p hfresh => exact .of_same (h.kernel.create_sameWaits hfresh _) rfl rfl rfl
  | startTask t => exact .of_same (s.kernel.register_sameWaits t) rfl rfl rfl
  | yield _ _ t k _ _ hcalm => exact (Unsignalled.refl s).calm hcalm
  | delay t ticks _ hruns h0 hf => exact delay_unsignalled hruns h0 hf s.anchors
  | delayUntil t a period ticks _ _ hruns h0 hf => exact delay_unsignalled hruns h0 hf _
  | suspend t =>
    have hsuspend : Unsignalled s { s with kernel := s.kernel.suspend cfg t } :=
      .of_same (s.kernel.suspend_sameWaits t) rfl rfl rfl
    split
    · exact hsuspend.calm (Kernel.calm_requestContextSwitch _)
    · exact hsuspend
  | resume t k _ _ _ hcalm =>
    have hresume : Unsignalled s { s with kernel := s.kernel.resume cfg t } :=
      .of_same (s.kernel.resume_sameWaits t) rfl rfl rfl
    exact hresume.calm hcalm
  | send q b timeout r _ _ heffect => exact heffect.unsignalled.calm (Kernel.calm_ite _ _)
  | receive q b timeout r _ _ heffect => exact heffect.unsignalled.calm (Kernel.calm_ite _ _)
  | sendFromIsr q b r _ _ heffect => exact heffect.unsignalled
  | receiveFromIsr q b r _ _ heffect => exact heffect.unsignalled
  | createSemaphore _ n =>
    exact .of_same (SameWaits.refl _) rfl rfl (by simp [System.record, System.updateSemaphore])
  | take n timeout s₁ outcome _ _ heffect => exact heffect.unsignalled (by simp)
  | give n s₁ woken status _ _ heffect => exact (heffect.unsignalled (by simp)).calm (Kernel.calm_ite _ _)
  | giveFromIsr n s₁ woken status _ _ heffect => exact heffect.unsignalled (by simp)
  | lock m timeout s₁ outcome _ heffect => exact heffect.unsignalled
  | unlock m t s₁ _ _ _ heffect => exact heffect.unsignalled
  | createTimer => simp [Call.usesTimer] at hc
  | control _ timers status _ hcall => simp [hc] at hcall
  | _ => exact .of_same (SameWaits.refl _) rfl rfl rfl

end

end Hairtos
