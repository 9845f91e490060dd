import Hairtos.Invariant.Blocking

namespace Hairtos

open Library

def WaitsOn (s : System) (a b : TaskRef) : Prop := waitsFor s.kernel s.mutexes a = some b

def ClosesCycle (s : System) (t o : TaskRef) : Prop :=
  Relation.TransGen (fun a b => WaitsOn s a b ∨ a = t ∧ b = o) t t

section

variable {cfg : Config} {s : System} {t o : TaskRef} {m : MutexRef} {timeout : Tick}

theorem System.Good.acyclic (h : s.Good cfg) (t : TaskRef) : ¬ Relation.TransGen (WaitsOn s) t t :=
  (h.owners.ends t).not_cycle

theorem waitsFor_of_runs (g : s.Good cfg) (hruns : s.kernel.Runs t) : waitsFor s.kernel s.mutexes t = none := by
  have hnone : (s.kernel.tasks t).wait = none :=
    (g.kernel.shape t).wait_none_of_isReady (by simp [TaskState.isReady, Kernel.view, hruns.running])
  apply waitsFor_of_not_lock
  simp [hnone]

theorem closesCycle_iff (g : s.Good cfg) (hruns : s.kernel.Runs t) :
    ClosesCycle s t o ↔ Relation.ReflTransGen (WaitsOn s) o t :=
  transGen_insert_iff (waitsFor_of_runs g hruns)

theorem mutexRecomputeTaskPriority_status (g : s.Good cfg) (hreg : (s.kernel.view t).registered = true)
    (hidle : t ≠ .idle) :
    (mutexRecomputeTaskPriority cfg s.mutexes (recomputeDepth cfg) s.kernel t).2 = .ok := by
  obtain ⟨k, status, he, -, -, hends, -⟩ := mutexRecomputeTaskPriority_good g.kernel g.owners.toOwners hreg hidle
  rw [he]
  have hwithin := g.owners.endsWithin g.kernel.toSound hreg
  rw [g.owners.nextOwner g.kernel.toSound] at hwithin
  rcases hends with ⟨-, hok⟩ | ⟨hnot, -⟩
  · exact hok
  · exact absurd hwithin hnot

structure MustWait (s : System) (t o : TaskRef) (m : MutexRef) (timeout : Tick) : Prop where
  calls : canCall s = true
  current : s.kernel.currentTask = some t
  owner : (s.mutexes.blocks m).owner = some o
  other : o ≠ t
  waits : timeout ≠ noWait

theorem MustWait.runs (h : MustWait s t o m timeout) (hs : s.Steady cfg) : s.kernel.Runs t :=
  (called_of_canCall hs.good h.calls).runs hs.good t h.current

theorem MustWait.lock_eq (h : MustWait s t o m timeout) (hs : s.Steady cfg) :
    mutexLock cfg s false (some m) timeout = mutexLockWait cfg s m t timeout := by
  have hruns := h.runs hs
  have hm : (s.mutexes.blocks m).magic = true := hs.good.owners.magic m (by simp [h.owner])
  have hvalid : mutexIsValid s m = true := by rw [mutexIsValid_eq hs.good.kernel hs.good.owners.toOwners, hm]
  have hmagic : (s.kernel.tasks t).magic = true :=
    (hs.good.kernel.shape t).magic_of_isReady (by simp [TaskState.isReady, Kernel.view, hruns.running])
  have hother : ¬ o = t := h.other
  simp [mutexLock, hvalid, kernelIsRunning, hruns.state, h.current, taskIsValid, hmagic, h.owner, hother, h.waits]

theorem MustWait.step_eq (h : MustWait s t o m timeout) (hs : s.Steady cfg) :
    step cfg s (.task (.mutexLock (some m) timeout)) = (mutexLockWait cfg s m t timeout).1 := by
  simp only [step, h.calls, ↓reduceIte, call, outcomeResult, h.lock_eq hs]

theorem MustWait.effect (h : MustWait s t o m timeout) (hs : s.Steady cfg) :
    LockEffect cfg s m timeout (mutexLockWait cfg s m t timeout).1 (mutexLockWait cfg s m t timeout).2 :=
  (mutexLockWait_effect hs.good.kernel hs.good.owners (h.runs hs) h.owner h.other h.waits).1

theorem MustWait.blocked (h : MustWait s t o m timeout) (hs : s.Steady cfg) :
    (mutexLockWait cfg s m t timeout).2 = .blocked := by
  have heffect := h.effect hs
  generalize mutexLockWait cfg s m t timeout = r at heffect
  obtain ⟨s', outcome⟩ := r
  cases heffect with
  | acquired _ _ _ hfree => simp [h.owner] at hfree
  | again u hu hown =>
    obtain rfl := Option.some.inj (hu.current.symm.trans h.current)
    exact absurd (Option.some.inj (h.owner.symm.trans hown)) h.other
  | waits => rfl
  | refused => rfl

theorem MustWait.begins (h : MustWait s t o m timeout) (hs : s.Steady cfg) :
    Begins s t (.mutexLock m) (timeoutTicks timeout) (step cfg s (.task (.mutexLock (some m) timeout))) ∨
      TurnedDown s t m (step cfg s (.task (.mutexLock (some m) timeout))) := by
  rw [h.step_eq hs]
  exact LockEffect.begins (h.blocked hs ▸ h.effect hs) (h.runs hs)

theorem Begins.not_closesCycle {s' : System} {ticks : Option Tick} (hb : Begins s t (.mutexLock m) ticks s')
    (g : s.Good cfg) (g' : s'.Good cfg) (hruns : s.kernel.Runs t) (ho : (s.mutexes.blocks m).owner = some o) :
    ¬ ClosesCycle s t o := by
  rw [closesCycle_iff g hruns]
  intro hpath
  have hms : s'.mutexes = s.mutexes := by rw [hb.frame]
  have hlast : WaitsOn s' t o := by
    rw [WaitsOn, waitsFor_of_lock hb.starts.wait, hms, ho]
  have hedge : ∀ a b, WaitsOn s a b → WaitsOn s' a b := by
    intro a b hab
    have hat : a ≠ t := by
      rintro rfl
      simp [WaitsOn, waitsFor_of_runs g hruns] at hab
    unfold WaitsOn waitsFor at hab ⊢
    rwa [hb.starts.others a hat, hms]
  exact g'.acyclic t (.head' hlast (Relation.ReflTransGen.mono hedge _ _ hpath))

theorem MustWait.recompute_status (h : MustWait s t o m timeout) (hs : s.Steady cfg) :
    let k := (kernelBlockCurrentOnWaitListEx cfg s.kernel (.mutex m) (.mutex m) .mutexLock none timeout
      (some .mutexWaitCleanup)).1
    (ClosesCycle s t o → (mutexRecomputeOwnerPriority cfg s.mutexes k m).2 = .internal) ∧
      (¬ ClosesCycle s t o → (mutexRecomputeOwnerPriority cfg s.mutexes k m).2 = .ok) := by
  have hruns := h.runs hs
  have g := hs.good.kernel
  have own := hs.good.owners
  have hblock : kernelBlockCurrentOnWaitListEx cfg s.kernel (.mutex m) (.mutex m) .mutexLock none timeout
      (some .mutexWaitCleanup) = (s.kernel.startWait cfg t (.mutexLock m) (timeoutTicks timeout), .ok) :=
    kernelBlockCurrentOnWaitListEx_eq g.toSound hruns.state hruns.current hruns.running hruns.idle
      (w := .mutexLock m) rfl h.waits
  simp only [hblock]
  rw [closesCycle_iff hs.good hruns]
  have g1 : (s.kernel.startWait cfg t (.mutexLock m) (timeoutTicks timeout)).Good cfg :=
    g.startWait hruns.running hruns.idle _ _ (timeoutTicks_spec h.waits) (by simp)
  have own1 : Owners (s.kernel.startWait cfg t (.mutexLock m) (timeoutTicks timeout)) s.mutexes :=
    own.toOwners.startWait _ h.owner h.other
  have hgraph := fun u => waitsFor_startWait cfg s.kernel t (timeoutTicks timeout) h.owner u
  obtain ⟨hreg, hidle⟩ := own1.registered m o h.owner
  obtain ⟨k2, status, hrec, -, -, hends, -⟩ := mutexRecomputeTaskPriority_good g1 own1 hreg hidle
  have hstatus : (mutexRecomputeOwnerPriority cfg s.mutexes
      (s.kernel.startWait cfg t (.mutexLock m) (timeoutTicks timeout)) m).2 = status := by
    simp [mutexRecomputeOwnerPriority, own.magic m (by simp [h.owner]), h.owner, taskIsValid,
      (own1.urgent g1.toSound h.owner).1, hrec]
  rw [hstatus]
  constructor
  · intro hpath
    rcases hends with ⟨hends, -⟩ | ⟨-, hstatus⟩
    · refine absurd (.tail' (Relation.ReflTransGen.mono ?_ _ _ hpath) ?_) (Ends.not_cycle ⟨_, hends⟩)
      · intro a b hab
        have hat : a ≠ t := by
          rintro rfl
          simp [WaitsOn, waitsFor_of_runs hs.good hruns] at hab
        rw [hgraph a, if_neg hat]
        exact hab
      · rw [hgraph t, if_pos rfl]
    · exact hstatus
  · intro hno
    rcases hends with ⟨-, hstatus⟩ | ⟨hends, -⟩
    · exact hstatus
    · refine absurd (EndsWithin.congr_of_not_reach (waitsFor s.kernel s.mutexes) t ?_ hno ?_) hends
      · intro u hu
        rw [hgraph u, if_neg hu]
      · rw [← own.nextOwner g.toSound]
        exact own.endsWithin g.toSound (own.registered m o h.owner).1

theorem Turn.result_ne_internal {n : Nat} {s' : System} (h : Turn t n s s') {w : Wait}
    (hw : (s.kernel.tasks t).wait = some w) (hdone : (s'.kernel.tasks t).wait = none) :
    (s'.kernel.tasks t).waitResult ≠ .internal := by
  cases h with
  | idle hbefore => simp [hw] at hbefore
  | kept _ _ hafter => simp [hdone] at hafter
  | granted _ _ _ _ hresult => simp [hresult]
  | expired w _ _ _ hresult =>
    rw [hresult]
    cases w <;> simp [Wait.deadlineResult]

theorem MustWait.completes (h : MustWait s t o m timeout) (hs : s.Steady cfg) {ops : List Op}
    (habsent : Absent cfg t (step cfg s (.task (.mutexLock (some m) timeout))) ops)
    (hdone : ((exec cfg (step cfg s (.task (.mutexLock (some m) timeout))) ops).kernel.tasks t).wait = none) :
    ((exec cfg (step cfg s (.task (.mutexLock (some m) timeout))) ops).kernel.tasks t).waitResult = .internal ↔
      ClosesCycle s t o := by
  have hruns := h.runs hs
  have hturn := ((hruns.watched hs).step (.task (.mutexLock (some m) timeout))).exec_turn habsent
  rcases h.begins hs with hb | hd
  · exact iff_of_false (hturn.result_ne_internal hb.starts.wait hdone)
      (hb.not_closesCycle hs.good (hs.step _).good hruns h.owner)
  · obtain ⟨o', ho', hpath⟩ := hd.cycle
    obtain rfl := Option.some.inj (h.owner.symm.trans ho')
    refine iff_of_true ?_ ((closesCycle_iff hs.good hruns).mpr hpath)
    cases hturn with
    | idle _ _ hresult => exact hresult.trans hd.result
    | kept w hbefore => simp [hd.wait] at hbefore
    | granted w e hbefore => simp [hd.wait] at hbefore
    | expired w n hbefore => simp [hd.wait] at hbefore

theorem not_mem_waiters (g : s.Good cfg) (hw : (s.kernel.tasks t).wait = none) (l : WaitListRef) :
    t ∉ s.kernel.waitLists.lists.seq l := by
  have hhost : s.kernel.waitLists.lists.host t = none := (g.kernel.shape t).waitHost_none hw
  rw [s.kernel.waitLists.lists.mem_seq, hhost]
  simp

end

/-- The graph of waiting tasks has no cycle, so that no recomputation of priorities meets its bound. A lock that has
to wait ends with the error exactly if its wait would close a cycle. -/
theorem deadlocks_refused_exactly {cfg : Config} {s : System} (hr : Reachable cfg s) :
    (∀ t, ¬ Relation.TransGen (WaitsOn s) t t) ∧
    (∀ t, (s.kernel.view t).registered = true → t ≠ .idle →
      (mutexRecomputeTaskPriority cfg s.mutexes (recomputeDepth cfg) s.kernel t).2 = .ok) ∧
    ∀ (t o : TaskRef) (m : MutexRef) (timeout : Tick), MustWait s t o m timeout →
      let s' := step cfg s (.task (.mutexLock (some m) timeout))
      let k := (kernelBlockCurrentOnWaitListEx cfg s.kernel (.mutex m) (.mutex m) .mutexLock none timeout
        (some .mutexWaitCleanup)).1
      (ClosesCycle s t o →
        (mutexRecomputeOwnerPriority cfg s.mutexes k m).2 = .internal ∧ (s'.kernel.tasks t).wait = none ∧
          t ∉ s'.kernel.waitLists.lists.seq (.mutex m)) ∧
      (¬ ClosesCycle s t o →
        (mutexRecomputeOwnerPriority cfg s.mutexes k m).2 = .ok ∧
          (s'.kernel.tasks t).wait = some (.mutexLock m)) ∧
      ∀ ops, Absent cfg t s' ops → ((exec cfg s' ops).kernel.tasks t).wait = none →
        (((exec cfg s' ops).kernel.tasks t).waitResult = .internal ↔ ClosesCycle s t o) := by
  have hs := reachable_steady hr
  refine ⟨hs.good.acyclic, fun t hreg hidle => mutexRecomputeTaskPriority_status hs.good hreg hidle, ?_⟩
  intro t o m timeout h s' k
  have hruns := h.runs hs
  obtain ⟨hinternal, hok⟩ := h.recompute_status hs
  refine ⟨fun hcycle => ?_, fun hno => ?_, fun ops habsent hdone => h.completes hs habsent hdone⟩
  · rcases h.begins hs with hb | hd
    · exact absurd hcycle (hb.not_closesCycle hs.good (hs.step _).good hruns h.owner)
    · exact ⟨hinternal hcycle, hd.wait, not_mem_waiters (hs.step _).good hd.wait _⟩
  · rcases h.begins hs with hb | hd
    · exact ⟨hok hno, hb.starts.wait⟩
    · obtain ⟨o', ho', hpath⟩ := hd.cycle
      obtain rfl := Option.some.inj (h.owner.symm.trans ho')
      exact absurd ((closesCycle_iff hs.good hruns).mpr hpath) hno

def embraceRun : List Op :=
  launch 0 2 ++ launch 1 1 ++
    [.task (.mutexCreate (some 0)), .task (.mutexCreate (some 1)), .start, .task (.mutexLock (some 1) waitForever),
      .task (.taskDelay 1#32), .pendsv, .task (.mutexLock (some 0) waitForever), .tick, .pendsv,
      .task (.mutexLock (some 0) waitForever), .pendsv]

theorem deadlocks_refused_exactly_embraceRun :
    let s := exec .standard (boot .standard) embraceRun
    let s' := step .standard s (.task (.mutexLock (some 1) waitForever))
    WaitsOn s (.app 1) (.app 0) ∧ (s'.kernel.tasks (.app 0)).wait = none ∧
      (s'.kernel.tasks (.app 0)).waitResult = .internal ∧ ¬ Relation.TransGen (WaitsOn s') (.app 0) (.app 0) := by
  have hwait : MustWait (exec .standard (boot .standard) embraceRun) (.app 0) (.app 1) 1 waitForever :=
    ⟨by decide +kernel, by decide +kernel, by decide +kernel, by decide, by decide⟩
  have hon : WaitsOn (exec .standard (boot .standard) embraceRun) (.app 1) (.app 0) := by
    unfold WaitsOn
    decide +kernel
  have hcycle : ClosesCycle (exec .standard (boot .standard) embraceRun) (.app 0) (.app 1) :=
    .head (Or.inr ⟨rfl, rfl⟩) (.single (Or.inl hon))
  obtain ⟨-, -, hlock⟩ := @deadlocks_refused_exactly .standard _ ⟨embraceRun, rfl⟩
  obtain ⟨hclosed, -, hresult⟩ := hlock _ _ _ _ hwait
  obtain ⟨-, hnone, -⟩ := hclosed hcycle
  refine ⟨hon, hnone, (hresult [] (fun xs op ys he => by simp at he) hnone).mpr hcycle, ?_⟩
  exact (@deadlocks_refused_exactly .standard _
    ⟨embraceRun ++ [.task (.mutexLock (some 1) waitForever)], by rw [exec_append]; rfl⟩).1 _

end Hairtos
