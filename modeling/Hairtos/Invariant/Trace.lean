import Hairtos.Invariant.CallEffect

namespace Hairtos

open Library

variable {s' : System} {k : Kernel} {ms : Mutexes} {timeout : Tick} {q : QueueRef} {item : BufferRef}

section

variable {cfg : Config} {s : System}

theorem Trace.trans {s s'' : System} {owed owed' : Bool} (h : Trace cfg s owed s') (h' : Trace cfg s' owed' s'') :
    Trace cfg s (owed || owed') s'' := by
  induction h with
  | nil => exact h'
  | single ha => exact .cons ha h'
  | cons ha _ ih =>
    rw [Bool.or_assoc]
    exact .cons ha (ih h')

theorem Trace.good {s : System} {owed : Bool} (h : Trace cfg s owed s') (hs : s.Good cfg) : s'.Good cfg := by
  induction h with
  | nil => exact hs
  | single ha => exact ha.good
  | cons ha _ ih => exact ih ha.good

theorem Trace.calm (h : s.Good cfg) (timers : TimerSystem) (service : ServicePhase)
    (anchors : Nat → Tick) (hcalm : s.kernel.Calm k) :
    Trace cfg s false { s with kernel := k, timers := timers, service := service, anchors := anchors } :=
  .single (h.acts (.calm k timers service anchors hcalm) (h.kernel.bookkept hcalm.bookkept) (h.owners.calm hcalm))

theorem Trace.delay (h : s.Good cfg) {t : TaskRef} (hruns : s.kernel.Runs t) {d : Tick} (h0 : d ≠ 0#32)
    (hf : d ≠ waitForever) (anchors : Nat → Tick) :
    Trace cfg s false
      { s with kernel := requestContextSwitch (s.kernel.startWait cfg t .delay (some d)), anchors := anchors } := by
  have hcalm := Kernel.calm_requestContextSwitch (s.kernel.startWait cfg t .delay (some d))
  refine .single (h.acts (.delay t d anchors hruns h0 hf) ?_ ?_)
  · refine (h.kernel.startWait hruns.running hruns.idle .delay (some d) ?_ (by simp)).bookkept hcalm.bookkept
    rintro _ ⟨⟩
    exact ⟨h0, hf⟩
  · exact (h.owners.startWait t (by simp) (some d)).calm hcalm

theorem Ownership.granted {k' : Kernel} {u : TaskRef} (own : Ownership k ms)
    (h : Granted cfg k u k') : Ownership k' ms := h.woken.ownership own

theorem Transfer.ownership {k' : Kernel} {l : WaitListRef} {w : Wait}
    {blocked woken : Bool} (h : Transfer cfg k l w timeout blocked woken k') (hw : ∀ m, w ≠ .mutexLock m)
    (own : Ownership k ms) : Ownership k' ms := by
  cases h with
  | same => exact own
  | served u w' k' _ _ hgranted => exact own.granted hgranted
  | waits t => exact own.startWait t hw _

theorem TakeEffect.ownership {x : SemaphoreRef} {caller : Option TaskRef} {s₁ : System}
    {outcome : Outcome} (h : TakeEffect cfg s x timeout caller s₁ outcome) (own : Ownership s.kernel s.mutexes) :
    Ownership s₁.kernel s₁.mutexes := by
  cases h with
  | counted => exact own
  | waits t => exact (own.startWait t (by simp) _).calm (Kernel.calm_requestContextSwitch _)

theorem GiveEffect.ownership {x : SemaphoreRef} {s₁ : System} {woken : Bool} {status : Status}
    (h : GiveEffect cfg s x s₁ woken status) (own : Ownership s.kernel s.mutexes) :
    Ownership s₁.kernel s₁.mutexes := by
  rw [show s₁.mutexes = s.mutexes by cases h <;> rfl]
  exact (h.transfer .delay noWait).ownership (by simp) own

theorem SendEffect.mutexes {sender : Option TaskRef}
    {r : QueueResult} (h : SendEffect cfg s q item timeout sender r) : r.system.mutexes = s.mutexes := by
  cases h <;> rfl

theorem ReceiveEffect.mutexes {receiver : Option TaskRef}
    {r : QueueResult} (h : ReceiveEffect cfg s q item timeout receiver r) : r.system.mutexes = s.mutexes := by
  cases h <;> rfl

theorem SendEffect.ownership {sender : Option TaskRef}
    {r : QueueResult} (h : SendEffect cfg s q item timeout sender r) (own : Ownership s.kernel s.mutexes) :
    Ownership r.system.kernel r.system.mutexes := by
  rw [h.mutexes]
  exact h.transfer.ownership (by simp) own

theorem ReceiveEffect.ownership {receiver : Option TaskRef}
    {r : QueueResult} (h : ReceiveEffect cfg s q item timeout receiver r) (own : Ownership s.kernel s.mutexes) :
    Ownership r.system.kernel r.system.mutexes := by
  rw [h.mutexes]
  exact h.transfer.ownership (by simp) own

theorem Ownership.createMutex (own : Ownership k ms) {m : MutexRef}
    (hm : (ms.blocks m).magic = false) (recursive : Bool) :
    Ownership k (ms.update m (fun _ => { magic := true, recursive := recursive })) := by
  have ho : (ms.blocks m).owner = none := by
    by_contra ho
    simp [own.magic m ho] at hm
  refine own.reassign m ?_ ?_ ?_ ?_ (fun _ => rfl) own.count ?_
  · intro n hn
    simp [Mutexes.update, hn]
  · simp only [Mutexes.update, Function.update_self]
    exact (Function.update_eq_self_iff.mpr (own.host_none ho).symm).symm
  · simp [Mutexes.update]
  · simp [Mutexes.update]
  · intro v n hw
    refine ⟨hw, ?_⟩
    rintro rfl
    exact absurd hw (own.no_waiter ho v)

theorem bringup_trace (hpath : Relation.ReflTransGen (Bringup cfg) s s') (h : s.Good cfg) :
    Trace cfg s false s' := by
  induction hpath with
  | refl => exact .nil s
  | tail hpath hlast ih => exact ih.trans (.single (hlast.acts (bringup_good hpath h)))

theorem CallEffect.trace {inIsr : Bool} {c : Call} {r : CallResult} (he : CallEffect cfg s inIsr c r) (h : s.Good cfg)
    (hcaller : Called s inIsr) (hlock : ∀ m timeout, c ≠ .mutexLock m timeout) : Trace cfg s r.woken r.system := by
  cases he with
  | refused => exact .nil s
  | createTask n p hfresh hgood =>
    exact .single (h.acts (.createTask _ _ hfresh) hgood (h.owners.create h.kernel hfresh _))
  | startTask t hstate hcreated hgood =>
    exact .single (h.acts (.startTask t hstate hcreated) hgood (h.owners.register t))
  | noYield => exact .nil s
  | yield _ _ t k _ _ hcalm => exact Trace.calm h s.timers s.service s.anchors hcalm
  | delay t ticks _ hruns h0 hf => exact Trace.delay h hruns h0 hf s.anchors
  | delayUntil t a period ticks _ _ hruns h0 hf => exact Trace.delay h hruns h0 hf _
  | missed a period => exact Trace.calm h s.timers s.service _ (Kernel.Calm.refl s.kernel)
  | suspend t _ hstate hidle =>
    have hcalm : (s.kernel.suspend cfg t).Calm (if (s.kernel.tasks t).state = .running then
        requestContextSwitch (s.kernel.suspend cfg t) else s.kernel.suspend cfg t) := by
      simpa using Kernel.calm_ite (s.kernel.suspend cfg t) (decide ((s.kernel.tasks t).state = .running))
    exact .single (h.acts (.suspend t _ hstate hidle hcalm) ((h.kernel.suspend hstate hidle).bookkept hcalm.bookkept)
      ((h.owners.suspend t).calm hcalm))
  | resume t k _ hstate hidle hcalm hpends =>
    refine .single (h.acts (.resume t k hstate hidle hcalm ?_) ((h.kernel.resume hstate hidle).bookkept hcalm.bookkept)
      ((h.owners.resume t).calm hcalm))
    intro hpre hready hout
    simp [hpends, hpre, hready, hout]
  | createQueue q storage itemSize capacity hfresh hsize hroom hfits =>
    exact .single (h.acts (.createQueue q storage itemSize capacity hfresh hsize hroom hfits) h.kernel h.owners)
  | send q b timeout r hisr hvalid heffect hgood =>
    subst hisr
    have hcalm := Kernel.calm_ite r.system.kernel (r.blocked || r.woken)
    refine .single (h.acts (.send q b timeout _ r _ false (hcaller.runs h) hvalid heffect hcalm ?_)
      (hgood.bookkept hcalm.bookkept) ((heffect.ownership h.owners).calm hcalm))
    intro hw
    right
    simp [hw, requestContextSwitch]
  | receive q b timeout r hisr hvalid heffect hgood =>
    subst hisr
    have hcalm := Kernel.calm_ite r.system.kernel (r.blocked || r.woken)
    refine .single (h.acts (.receive q b timeout _ r _ false (hcaller.runs h) hvalid heffect hcalm ?_)
      (hgood.bookkept hcalm.bookkept) ((heffect.ownership h.owners).calm hcalm))
    intro hw
    right
    simp [hw, requestContextSwitch]
  | sendFromIsr q b r _ hvalid heffect hgood =>
    exact .single (h.acts (.send q b noWait none r _ _ (by simp) hvalid heffect (Kernel.Calm.refl _) Or.inl) hgood
      (heffect.ownership h.owners))
  | receiveFromIsr q b r _ hvalid heffect hgood =>
    exact .single (h.acts (.receive q b noWait none r _ _ (by simp) hvalid heffect (Kernel.Calm.refl _) Or.inl) hgood
      (heffect.ownership h.owners))
  | createSemaphore _ n count maxCount _ hfresh hroom hfits =>
    exact .single (h.acts (.createSemaphore _ count maxCount hfresh hroom hfits) h.kernel h.owners)
  | take n timeout s₁ outcome hisr hvalid heffect hgood =>
    subst hisr
    exact .single (h.acts (.take _ timeout _ _ (hcaller.runs h) hvalid heffect) hgood (heffect.ownership h.owners))
  | give n s₁ woken status _ hvalid heffect hgood =>
    have hcalm := Kernel.calm_ite s₁.kernel woken
    refine .single (h.acts (.give _ s₁ woken status _ false hvalid heffect hcalm ?_) (hgood.bookkept hcalm.bookkept)
      ((heffect.ownership h.owners).calm hcalm))
    intro hw
    right
    simp [hw, requestContextSwitch]
  | giveFromIsr n s₁ woken status _ hvalid heffect hgood =>
    exact .single (h.acts (.give _ _ _ _ _ _ hvalid heffect (Kernel.Calm.refl _) Or.inl) hgood
      (heffect.ownership h.owners))
  | createMutex _ m recursive _ hfresh =>
    exact .single (h.acts (.createMutex m recursive hfresh) h.kernel (h.owners.createMutex hfresh recursive))
  | lock m timeout => exact absurd rfl (hlock (some m) timeout)
  | unlock m t s₁ _ hruns howner heffect hgood howners =>
    exact .single (h.acts (.unlock m t _ hruns howner heffect) hgood howners)
  | createTimer t name period autoReload callback s₁ status hpath => exact bringup_trace hpath h
  | control _ timers => exact Trace.calm h timers s.service s.anchors (Kernel.Calm.refl s.kernel)

end

end Hairtos
