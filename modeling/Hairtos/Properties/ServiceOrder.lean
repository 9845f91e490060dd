import Hairtos.Invariant.WaitStep
import Hairtos.Properties.TimerService

namespace Hairtos

open Library

def arrivalTimes (cfg : Config) : System → Arrivals TaskRef → List Op → Arrivals TaskRef
  | _, c, [] => c
  | s, c, op :: ops => arrivalTimes cfg (step cfg s op) (c.arriveAll (op.arrivals cfg s)) ops

def System.Before (s : System) (time : TaskRef → Nat) (t u : TaskRef) : Prop :=
  Precedes (fun v => (s.kernel.tasks v).effectivePriority) time t u

structure Obtains (s s' : System) (l : WaitListRef) (u : TaskRef) : Prop where
  waited : u ∈ s.kernel.waitLists.lists.seq l
  done : (s'.kernel.tasks u).wait = none
  result : (s'.kernel.tasks u).waitResult = .ok

def Call.hands (s : System) : Call → Option WaitListRef
  | .mutexUnlock (some m) => if 1 < (s.mutexes.blocks m).recursionCount then none else some (.mutex m)
  | c => c.serves

def Op.hands (cfg : Config) (s : System) : Op → Option WaitListRef
  | .task c => if canCall s && (call cfg s false c).outcome = .returned .ok then c.hands s else none
  | .isr c _ =>
    if s.kernel.state ≠ .panic && (call cfg s true c).outcome = .returned .ok then c.hands s else none
  | _ => none

section

variable {cfg : Config} {s s' : System} {l : WaitListRef} {u : TaskRef}

theorem exec_waitLists_inOrder (hs : s.Steady cfg) {c : Arrivals TaskRef} (hc : s.kernel.waitLists.InOrder c)
    (ops : List Op) :
    (exec cfg s ops).kernel.waitLists.InOrder (arrivalTimes cfg s c ops) := by
  induction ops generalizing s c with
  | nil => exact hc
  | cons op ops ih => exact ih (hs.step op) ((step_shifts hs op).inOrder hc)

theorem boot_waitLists_inOrder (cfg : Config) : (boot cfg).kernel.waitLists.InOrder .none := by
  intro l
  have hnil : (boot cfg).kernel.waitLists.lists.seq l = [] := by
    rw [boot_eq]
    rfl
  rw [hnil]
  exact .nil

theorem Kernel.Sound.priority_of_mem {k : Kernel} (g : k.Sound cfg) (h : u ∈ k.waitLists.lists.seq l) :
    k.waitLists.priority u = (k.tasks u).effectivePriority := by
  have hhost : (k.view u).waitHost = some l := k.waitLists.lists.host_of_mem h
  have hwait : (k.view u).cb.wait ≠ none := by
    intro hnone
    rw [(g.shape u).waitHost_eq, hnone] at hhost
    simp at hhost
  exact ((g.shape u).agree ((g.shape u).magic_of_wait hwait)).2

theorem System.before_iff (g : s.kernel.Sound cfg) {time : TaskRef → Nat} {t : TaskRef}
    (ht : t ∈ s.kernel.waitLists.lists.seq l) (hu : u ∈ s.kernel.waitLists.lists.seq l) :
    s.Before time t u ↔ Precedes s.kernel.waitLists.priority time t u := by
  unfold System.Before Precedes
  rw [g.priority_of_mem ht, g.priority_of_mem hu]

theorem Obtains.left (h : Obtains s s' l u) (g' : s'.kernel.Sound cfg) (k : WaitListRef) :
    u ∉ s'.kernel.waitLists.lists.seq k := by
  apply s'.kernel.waitLists.lists.not_mem_of_host_none
  have hhost : s'.kernel.waitLists.lists.host u = (s'.kernel.tasks u).wait.bind Wait.waitList :=
    (g'.shape u).waitHost_eq
  rw [hhost, h.done]
  rfl

theorem wait_of_mem (g : s.kernel.Sound cfg) (h : u ∈ s.kernel.waitLists.lists.seq l) :
    ∃ w, (s.kernel.tasks u).wait = some w ∧ w.waitList = some l := by
  have hhost : s.kernel.waitLists.lists.host u = (s.kernel.tasks u).wait.bind Wait.waitList :=
    (g.shape u).waitHost_eq
  rw [s.kernel.waitLists.lists.host_of_mem h] at hhost
  exact Option.bind_eq_some_iff.mp hhost.symm

theorem Moved.first {w w' : WaitLists WaitListRef TaskRef} {ts : List TaskRef} (h : Moved w ts w')
    (hu : u ∈ w.lists.seq l) (hleft : u ∉ w'.lists.seq l) :
    waitListPeek w l = some u ∧ ∀ k, w'.lists.seq k = (w.lists.seq k).erase u := by
  cases h with
  | kept hagrees =>
    rw [hagrees.lists] at hleft
    exact absurd hu hleft
  | served k v hfirst hagrees =>
    have hlists : ∀ k, w'.lists.seq k = (w.lists.seq k).erase v := fun k => by
      rw [hagrees.lists]
      rfl
    obtain rfl : u = v := by
      by_contra hne
      rw [hlists] at hleft
      exact hleft ((List.mem_erase_of_ne hne).mpr hu)
    have hhost := waitListPeek_host w hfirst
    rw [w.lists.host_of_mem hu] at hhost
    obtain rfl := Option.some.inj hhost
    exact ⟨hfirst, hlists⟩
  | entered t k hfree =>
    refine absurd ?_ hleft
    rw [WaitLists.insert_seq hfree]
    split_ifs
    · exact (mem_insertSorted _ _ _ _).mpr (Or.inr hu)
    · exact hu

theorem step_lock_wait (hs : s.Steady cfg) (m : Option MutexRef) (timeout : Tick)
    (hwait : (s.kernel.tasks u).wait ≠ none) :
    ((step cfg s (.task (.mutexLock m timeout))).kernel.tasks u).wait = (s.kernel.tasks u).wait := by
  have hne : ∀ {t}, s.kernel.Runs t → u ≠ t := by
    rintro t hruns rfl
    exact hwait (hs.good.kernel.wait_of_runs hruns)
  have he := step_effect hs.good hs.quiet (.task (.mutexLock m timeout))
  generalize step cfg s (.task (.mutexLock m timeout)) = s' at he ⊢
  cases he with
  | noTask => rfl
  | task c r _ _ _ heffect =>
  cases heffect with
  | refused => rfl
  | lock m _ s₁ outcome _ heffect =>
    rcases heffect.keeps_or_starts with hsame | ⟨t, hstarts⟩ | ⟨t, k, hstarts, hends⟩
    · exact hsame.wait u
    · exact hstarts.others u (hne hstarts.runs)
    · exact (hends.others u (hne hstarts.runs)).trans (hstarts.others u (hne hstarts.runs))
  | _ => simp_all [Call.usesTimer]

theorem not_running_of_wait (g : s.kernel.Sound cfg) (hw : (s.kernel.tasks u).wait ≠ none) :
    (s.kernel.tasks u).state ≠ .running := by
  rcases g.waiting_state hw with hb | ⟨hb, -⟩ <;> simp [hb]

theorem tick_alone (hs : s.Steady cfg) (hatt : s.Attended) (h : Obtains s (step cfg s .tick) l u) {v : TaskRef}
    (hv : v ∈ s.kernel.waitLists.lists.seq l) : v = u := by
  obtain ⟨w, hw, hl⟩ := wait_of_mem hs.good.kernel.toSound h.waited
  have hdone := h.done
  have hresult := h.result
  have hleft := h.left (hs.step .tick).good.kernel.toSound l
  have he := step_effect hs.good hs.quiet .tick
  generalize step cfg s .tick = s' at he hdone hresult hleft
  cases he with
  | noTick => simp [hw] at hdone
  | tick tl order k s₃ woken c hrun =>
  have hcharged := kernelTickEnd_charged cfg s₃.kernel c woken
  have hmagic : (s.kernel.tasks u).magic = true :=
    (hs.good.kernel.shape u).magic_of_wait (by simp [Kernel.view, hw])
  have hnot := not_running_of_wait hs.good.kernel.toSound (by simp [hw] : (s.kernel.tasks u).wait ≠ none)
  rw [hcharged.unmoved.result] at hresult
  rw [hcharged.bookkept.frame] at hleft
  by_cases hdue : u ∈ order
  · -- Its deadline comes, so that the result is the timeout.
    obtain ⟨w', hw', hnone, htimeout⟩ := hrun.expiry.completes hdue
    obtain rfl : w = w' := Option.some.inj (hw.symm.trans hw')
    obtain ⟨owed, htrace⟩ := hrun.expiry.trace
    obtain ⟨owed', htimers⟩ := hrun.trace
    have hkept := (htimers.turn hrun.good (htrace.magic hrun.begun hmagic)
      (fun hr => hnot (htrace.running hrun.begun hr))).of_done hnone
    rw [hkept.2.1, htimeout] at hresult
    cases w <;> simp [Wait.deadlineResult, Wait.waitList] at hresult hl
  · have hwait : (k.tasks u).wait = some w := (hrun.expiry.unmoved hdue).wait.trans hw
    have hmem : u ∈ k.waitLists.lists.seq l := by
      have hhost : k.waitLists.lists.host u = (k.tasks u).wait.bind Wait.waitList :=
        (hrun.good.kernel.shape u).waitHost_eq
      rw [k.waitLists.lists.mem_seq, hhost, hwait]
      exact hl
    rcases hrun.timers.lists with hagrees | ⟨u', hfirst, hlists⟩
    · rw [hagrees.lists] at hleft
      exact absurd hmem hleft
    · rw [hlists] at hleft
      obtain rfl : u = u' := by
        by_contra hne
        exact hleft ((List.mem_erase_of_ne hne).mpr hmem)
      have hhost : k.waitLists.lists.host u = some (.semaphore .timerSignal) := waitListPeek_host _ hfirst
      rw [k.waitLists.lists.host_of_mem hmem] at hhost
      obtain rfl := Option.some.inj hhost
      have hsignal : ∀ t, t ∈ s.kernel.waitLists.lists.seq (.semaphore .timerSignal) → t = .timerService := by
        intro t ht
        have hwait := (hs.good.kernel.shape t).wait_of_semaphore (s.kernel.waitLists.lists.host_of_mem ht)
        exact (hatt.waits t hwait).1
      rw [hsignal v hv, hsignal u h.waited]

theorem WaitEnds.obtains {w : Wait} (h : WaitEnds s.kernel u w .ok s'.kernel)
    (hfirst : waitListPeek s.kernel.waitLists l = some u) : Obtains s s' l u :=
  ⟨(s.kernel.waitLists.lists.mem_seq _ _).mpr (waitListPeek_host _ hfirst), h.done, h.waitResult⟩

theorem Obtains.calm (h : Obtains s s' l u) {k : Kernel} (hcalm : s'.kernel.Calm k) :
    Obtains s { s' with kernel := k } l u := by
  refine ⟨h.waited, ?_, ?_⟩
  · simp only [hcalm.tasks]
    exact h.done
  · simp only [hcalm.tasks]
    exact h.result

theorem Transfer.obtains {w : Wait} {timeout : Tick} {blocked woken : Bool}
    (h : Transfer cfg s.kernel l w timeout blocked woken s'.kernel)
    (hfirst : waitListPeek s.kernel.waitLists l = some u) : Obtains s s' l u := by
  generalize hk : s'.kernel = k at h
  cases h with
  | same hnone => simp [hnone] at hfirst
  | served v w' k hfirst' hwait hgranted =>
    obtain rfl := Option.some.inj (hfirst'.symm.trans hfirst)
    exact (hk ▸ hgranted.woken.waitEnds hwait).obtains hfirst
  | waits t _ hnone => simp [hnone] at hfirst

theorem UnlockEffect.ends {m : MutexRef} {t : TaskRef} (h : UnlockEffect cfg s m t s') (g : s.kernel.Sound cfg)
    (hlast : ¬ 1 < (s.mutexes.blocks m).recursionCount)
    (hfirst : waitListPeek s.kernel.waitLists (.mutex m) = some u) : ∃ w, WaitEnds s.kernel u w .ok s'.kernel := by
  cases h with
  | again hnested => exact absurd hnested hlast
  | freed k k' hfree => exact absurd ((g.shape u).wait_of_waitHost (waitListPeek_host _ hfirst)) (hfree u)
  | handed v k k' k'' hfirst' hwait hwoken hreprio hcalm =>
    obtain rfl := Option.some.inj (hfirst'.symm.trans hfirst)
    exact ⟨_, handed_waitEnds hwait hwoken hreprio hcalm⟩

theorem CallEffect.hands {inIsr : Bool} {c : Call} {r : CallResult} (he : CallEffect cfg s inIsr c r)
    (g : s.kernel.Sound cfg) (hok : r.outcome = .returned .ok) (hl : c.hands s = some l)
    (hfirst : waitListPeek s.kernel.waitLists l = some u) : Obtains s r.system l u := by
  cases he with
  | refused c status hne => simp [hne] at hok
  | send q b timeout r _ _ heffect =>
    obtain rfl := Option.some.inj hl
    exact (heffect.transfer.obtains hfirst).calm (Kernel.calm_ite _ _)
  | receive q b timeout r _ _ heffect =>
    obtain rfl := Option.some.inj hl
    exact (heffect.transfer.obtains hfirst).calm (Kernel.calm_ite _ _)
  | sendFromIsr q b r _ _ heffect =>
    obtain rfl := Option.some.inj hl
    exact heffect.transfer.obtains hfirst
  | receiveFromIsr q b r _ _ heffect =>
    obtain rfl := Option.some.inj hl
    exact heffect.transfer.obtains hfirst
  | give n s₁ woken status _ _ heffect =>
    obtain rfl := Option.some.inj hl
    exact ((heffect.transfer .delay noWait).obtains hfirst).calm (Kernel.calm_ite _ _)
  | giveFromIsr n s₁ woken status _ _ heffect =>
    obtain rfl := Option.some.inj hl
    exact (heffect.transfer .delay noWait).obtains hfirst
  | unlock m t s₁ _ _ _ heffect =>
    simp only [Call.hands] at hl
    split_ifs at hl with hlast
    obtain rfl := Option.some.inj hl
    obtain ⟨w, hends⟩ := heffect.ends g hlast hfirst
    exact hends.obtains hfirst
  | control c => cases c <;> simp_all [Call.hands, Call.serves, Call.usesTimer]
  | _ => grind [Call.hands, Call.serves]

theorem step_hands (hs : s.Steady cfg) {op : Op} (hl : op.hands cfg s = some l)
    (hfirst : waitListPeek s.kernel.waitLists l = some u) : Obtains s (step cfg s op) l u := by
  have he := step_effect hs.good hs.quiet op
  generalize step cfg s op = s' at he ⊢
  cases he with
  | noTask c hcan => simp [Op.hands, hcan] at hl
  | task c r hcan heq _ heffect =>
    simp only [Op.hands, heq] at hl
    split_ifs at hl with hc
    simp only [Bool.and_eq_true, decide_eq_true_eq] at hc
    exact heffect.hands hs.good.kernel.toSound hc.2 hl hfirst
  | isr c honoured r k _ heq heffect hcalm =>
    simp only [Op.hands, heq] at hl
    split_ifs at hl with hc
    simp only [Bool.and_eq_true, decide_eq_true_eq] at hc
    exact (heffect.hands hs.good.kernel.toSound hc.2 hl hfirst).calm hcalm
  | _ => simp [Op.hands] at hl

theorem Obtains.first (hs : s.Steady cfg) {op : Op} (htick : op ≠ .tick) (h : Obtains s (step cfg s op) l u) :
    waitListPeek s.kernel.waitLists l = some u ∧
      ∀ k, (step cfg s op).kernel.waitLists.lists.seq k = (s.kernel.waitLists.lists.seq k).erase u := by
  by_cases hlock : ∃ m timeout, op = .task (.mutexLock m timeout)
  · obtain ⟨m, timeout, rfl⟩ := hlock
    obtain ⟨w, hw, -⟩ := wait_of_mem hs.good.kernel.toSound h.waited
    have hdone := h.done
    rw [step_lock_wait hs m timeout (by simp [hw]), hw] at hdone
    simp at hdone
  · push Not at hlock
    exact (step_moved hs htick hlock).first h.waited (h.left (hs.step op).good.kernel.toSound l)

end

/-- Every wait list is sorted by effective priority and then by the time at which its tasks entered it or last changed
their priority. A transfer goes to the first task, and the others keep their order. -/
theorem waiters_served_in_order (cfg : Config) (ops : List Op) :
    let s := exec cfg (boot cfg) ops
    let time := (arrivalTimes cfg (boot cfg) .none ops).time
    let seq := s.kernel.waitLists.lists.seq
    (∀ l, (seq l).Pairwise (s.Before time)) ∧
    (∀ t, (kernelSetTaskEffectivePriority cfg s.kernel t (s.kernel.tasks t).effectivePriority).1 = s.kernel) ∧
    ∀ op, let s' := step cfg s op
      let seq' := s'.kernel.waitLists.lists.seq
      (∀ l u, op.hands cfg s = some l → (seq l).head? = some u → Obtains s s' l u) ∧
      (∀ l u, Obtains s s' l u → (∀ v ∈ seq l, v ≠ u → s.Before time u v) ∧
        (op ≠ .tick → ∀ l', seq' l' = (seq l').erase u)) ∧
      (∀ l t, t ∉ op.arrivals cfg s → t ∈ seq' l →
        t ∈ seq l ∧ (s'.kernel.tasks t).effectivePriority = (s.kernel.tasks t).effectivePriority) ∧
      ∀ l t u, t ∉ op.arrivals cfg s → u ∉ op.arrivals cfg s → t ∈ seq' l → u ∈ seq' l →
        [t, u].Sublist (seq l) → [t, u].Sublist (seq' l) := by
  intro s time seq
  have hs : s.Steady cfg := (boot_steady cfg).exec ops
  have g := hs.good.kernel.toSound
  have horder : ∀ l, (seq l).Pairwise (s.Before time) := fun l =>
    (exec_waitLists_inOrder (boot_steady cfg) (boot_waitLists_inOrder cfg) ops l).imp_of_mem
    (fun ht hu => (System.before_iff g ht hu).mpr)
  refine ⟨horder, fun t => ?_, fun op => ⟨fun l u hl hu => step_hands hs hl hu, fun l u hc => ?_, fun l t ht hmem =>
    ?_, ?_⟩⟩
  · simp only [kernelSetTaskEffectivePriority, ↓reduceIte]
    split_ifs <;> rfl
  · by_cases htick : op = .tick
    · subst htick
      have hatt := exec_attended (boot_steady cfg) (boot_timed cfg) (boot_attended cfg) ops
      exact ⟨fun v hv hne => absurd (tick_alone hs hatt hc hv) hne, fun hne => absurd rfl hne⟩
    · obtain ⟨hfirst, hlists⟩ := hc.first hs htick
      refine ⟨fun v hv hne => ?_, fun _ => hlists⟩
      obtain ⟨xs, hx⟩ := (waitListPeek_eq_some _ _ _).mp hfirst
      have hpairs := horder l
      rw [show seq l = u :: xs from hx] at hpairs hv
      exact (List.pairwise_cons.mp hpairs).1 v ((List.mem_cons.mp hv).resolve_left hne)
  · have hstays := (step_shifts hs op).stays ht hmem
    refine ⟨hstays.1, ?_⟩
    rw [← (hs.step op).good.kernel.priority_of_mem hmem, ← g.priority_of_mem hstays.1]
    exact hstays.2
  · exact fun l t u ht hu hmt hmu => (step_shifts hs op).order ht hu hmt hmu

def boostRun : List Op :=
  launch 0 3 ++ launch 1 2 ++ launch 2 1 ++
    [.task (.semaphoreCreateCounting (some 0) 0 1), .task (.mutexCreate (some 0)), .start, .task (.taskDelay 1#32),
      .pendsv, .task (.semaphoreTake (some 0) waitForever), .pendsv, .task (.mutexLock (some 0) noWait),
      .task (.semaphoreTake (some 0) waitForever), .pendsv, .tick, .pendsv, .task (.mutexLock (some 0) waitForever)]

theorem waiters_served_in_order_boostRun :
    let s := exec .standard (boot .standard) boostRun
    let time := (arrivalTimes .standard (boot .standard) .none boostRun).time
    s.kernel.waitLists.lists.seq (.semaphore (.app 0)) = [.app 0, .app 1] ∧
      Obtains s (step .standard s (.isr (.semaphoreGiveFromIsr (some 0)) true)) (.semaphore (.app 0)) (.app 0) ∧
      s.Before time (.app 0) (.app 1) := by
  obtain ⟨-, -, hstep⟩ := waiters_served_in_order .standard boostRun
  obtain ⟨hhands, hfirst, -⟩ := hstep (.isr (.semaphoreGiveFromIsr (some 0)) true)
  have hcompletes := hhands (.semaphore (.app 0)) (.app 0) (by decide +kernel) (by decide +kernel)
  exact ⟨by decide +kernel, hcompletes, (hfirst _ _ hcompletes).1 (.app 1) (by decide +kernel) (by decide +kernel)⟩

end Hairtos
