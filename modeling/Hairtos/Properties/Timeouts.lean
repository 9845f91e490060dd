import Hairtos.Properties.Wakeup

namespace Hairtos

open Library

def Ungranted (cfg : Config) (t : TaskRef) (w : Wait) (s : System) (ops : List Op) : Prop :=
  ∀ us o vs, ops = us ++ o :: vs → ¬ Grants t w (exec cfg s us) (step cfg (exec cfg s us) o)

structure BlocksFor (cfg : Config) (s : System) (op : Op) (t : TaskRef) (w : Wait) (d : Tick) : Prop where
  current : s.kernel.currentTask = some t
  blocks : op.blocks cfg s = true
  request : op.request s = some (w, some d)
  blocked : ((step cfg s op).kernel.tasks t).state = .blocked

section

variable {cfg : Config} {s s' : System} {k k' : Kernel} {t u : TaskRef} {w : Wait} {ops : List Op}

theorem Ungranted.tail {op : Op} (h : Ungranted cfg t w s (op :: ops)) : Ungranted cfg t w (step cfg s op) ops :=
  fun us o vs he => h (op :: us) o vs (by simp [he])

theorem Ungranted.append {xs ys : List Op} (h : Ungranted cfg t w s (xs ++ ys)) :
    Ungranted cfg t w s xs ∧ Ungranted cfg t w (exec cfg s xs) ys := by
  refine ⟨fun us o vs he => h us o (vs ++ ys) (by simp [he]), fun us o vs he => ?_⟩
  rw [← exec_append]
  exact h (xs ++ us) o vs (by simp [he])

theorem Watched.not_running (h : Watched cfg t s) (hw : (s.kernel.tasks t).wait = some w) :
    (s.kernel.tasks t).state ≠ .running := by
  intro hr
  rw [(h.steady.good.kernel.running_shape hr).2.1] at hw
  cases hw

theorem Watched.waits_on (h : Watched cfg t s) {n : Nat} (hw : (s.kernel.tasks t).wait = some w)
    (hleft : s.kernel.timeoutList.left t = some n) (hun : Ungranted cfg t w s ops) (hlt : ticksIn ops < n) :
    ((Hairtos.exec cfg s ops).kernel.tasks t).wait = some w ∧
      (Hairtos.exec cfg s ops).kernel.timeoutList.left t = some (n - ticksIn ops) ∧ Absent cfg t s ops := by
  induction ops generalizing s n with
  | nil => exact ⟨hw, by simpa [ticksIn, Hairtos.exec] using hleft, fun xs op ys he => by simp at he⟩
  | cons op ops ih =>
    have hnot := h.not_running hw
    have hticks : ticksIn (op :: ops) = op.ticks + ticksIn ops := by simp [ticksIn]
    have hpending : ((Hairtos.step cfg s op).kernel.tasks t).wait ≠ none := by
      intro hdone
      rcases wait_ends h hnot hw hdone with ⟨-, hgrants, -, -⟩ | ⟨-, -, rfl, hone⟩
      · exact hun [] op ops rfl hgrants
      · obtain rfl : n = 1 := by simpa [hleft] using hone
        simp only [hticks, Op.ticks] at hlt
        omega
    obtain ⟨hw', -, hleft'⟩ := (h.turn hnot op).of_waiting hw hpending
    obtain ⟨m, hm, hmn⟩ : ∃ m, (Hairtos.step cfg s op).kernel.timeoutList.left t = some m ∧
        m + op.ticks = n := by
      rw [hleft] at hleft'
      simpa [eq_comm] using hleft'
    obtain ⟨h1, h2, h3⟩ := ih (h.step op) hw' hm hun.tail (by omega)
    refine ⟨h1, ?_, ?_⟩
    · rw [Hairtos.exec, List.foldl_cons]
      refine h2.trans ?_
      congr 1
      omega
    · intro xs o ys he
      cases xs with
      | nil => exact hnot
      | cons x xs =>
        obtain ⟨rfl, he'⟩ := List.cons.inj he
        exact h3 xs o ys he'

theorem WaitStarts.inOrder {v : TaskRef} {ticks : Option Tick} (h : WaitStarts k v w ticks k') (g : k.Good cfg)
    (ht : t ≠ v) (hu : u ≠ v) : k.timeoutList.InOrder t u k'.timeoutList := by
  rw [h.timeoutList]
  cases ticks with
  | none => exact .of_lists rfl
  | some d =>
    obtain ⟨h0, hd⟩ := h.finite d rfl
    exact timeoutListInsert_inOrder g.timeouts h0 hd (g.running_shape h.runs.running).2.2.2.1 ht hu

theorem WaitChange.inOrder (h : WaitChange k k') (g : k.Good cfg) (ht : (k.tasks t).state ≠ .running)
    (hu : (k.tasks u).state ≠ .running) : k.timeoutList.InOrder t u k'.timeoutList := by
  cases h with
  | keeps hsame => exact .of_lists hsame.lists
  | starts v w ticks hstarts => exact hstarts.inOrder g (hstarts.runs.ne ht) (hstarts.runs.ne hu)
  | ends v w result hends => exact .of_unlink hends.lists

theorem LockEffect.inOrder {m : MutexRef} {timeout : Tick} {outcome : Outcome}
    (h : LockEffect cfg s m timeout s' outcome) (g : s.Good cfg) (ht : (s.kernel.tasks t).state ≠ .running)
    (hu : (s.kernel.tasks u).state ≠ .running) : s.kernel.timeoutList.InOrder t u s'.kernel.timeoutList := by
  rcases h.keeps_or_starts with hsame | ⟨v, hstarts⟩ | ⟨v, k, hstarts, hends⟩
  · exact .of_lists hsame.lists
  · exact hstarts.inOrder g.kernel (hstarts.runs.ne ht) (hstarts.runs.ne hu)
  · exact (hstarts.inOrder g.kernel (hstarts.runs.ne ht) (hstarts.runs.ne hu)).trans (.of_unlink hends.lists)

theorem Trace.inOrder {owed : Bool} (h : Trace cfg s owed s') (g : s.Good cfg)
    (ht : (s.kernel.tasks t).state ≠ .running) (hu : (s.kernel.tasks u).state ≠ .running) :
    s.kernel.timeoutList.InOrder t u s'.kernel.timeoutList := by
  induction h with
  | nil => exact .of_lists rfl
  | single ha => exact (ha.action.waitChange g).inOrder g.kernel ht hu
  | cons ha _ ih =>
    have hpaced := ha.action.paced g
    exact ((ha.action.waitChange g).inOrder g.kernel ht hu).trans
      (ih ha.good (fun hr => ht (hpaced.running t hr)) (fun hr => hu (hpaced.running u hr)))

theorem TickEffect.inOrder (h : TickEffect cfg s s') (ht : (s.kernel.tasks t).state ≠ .running)
    (hu : (s.kernel.tasks u).state ≠ .running) : s.kernel.timeoutList.InOrder t u s'.kernel.timeoutList := by
  obtain ⟨current, switchRequired, hticked, hgood, hexpiry, htimers, -⟩ := h
  obtain ⟨owed, htrace⟩ := hexpiry.trace
  have hserved := htimers.inOrder (htrace.good hgood) (fun hr => ht (htrace.running hgood hr))
    (fun hr => hu (htrace.running hgood hr))
  exact (hticked.inOrder.trans (htrace.inOrder hgood ht hu)).trans
    (hserved.trans (.of_lists (kernelTickEnd_charged _ _ _ _).bookkept.aside.sameWaits.lists))

theorem step_inOrder (h : Watched cfg t s) (ht : (s.kernel.tasks t).state ≠ .running)
    (hu : (s.kernel.tasks u).state ≠ .running) (op : Op) :
    s.kernel.timeoutList.InOrder t u (step cfg s op).kernel.timeoutList := by
  have hstep := h.steady.stepped op
  generalize step cfg s op = s' at hstep
  cases hstep with
  | refused op => exact .of_lists rfl
  | acts op htrace => exact htrace.inOrder h.steady.good ht hu
  | lock m timeout s' outcome heffect hgood => exact heffect.inOrder h.steady.good ht hu
  | isr c honoured s₁ k htrace hcalm =>
    exact (htrace.inOrder h.steady.good ht hu).trans (.of_lists hcalm.bookkept.aside.sameWaits.lists)
  | tick _ s' heffect => exact heffect.inOrder ht hu
  | pendsv current next => exact .of_lists rfl
  | start next => exact .of_lists rfl

theorem exec_inOrder (h : Watched cfg t s) (ht : Absent cfg t s ops) (hu : Absent cfg u s ops) :
    s.kernel.timeoutList.InOrder t u (exec cfg s ops).kernel.timeoutList := by
  induction ops generalizing s with
  | nil => exact .of_lists rfl
  | cons op ops ih =>
    have hfirst := step_inOrder h (ht [] op ops rfl) (hu [] op ops rfl) op
    exact hfirst.trans (ih (h.step op) (fun xs o ys he => ht (op :: xs) o ys (by simp [he]))
      (fun xs o ys he => hu (op :: xs) o ys (by simp [he])))

theorem kernelTickWakeLoop_front {ms : Mutexes} (g : k.Good cfg) (own : Ownership k ms) (hk : k.state = .running)
    {xs ys : List TaskRef} (hx : k.timeoutList.lists.seq .expired = xs ++ ys) :
    (∀ v ∈ xs, ((kernelTickWakeLoop cfg ms xs.length k).tasks v).wait = none) ∧
      ∀ v ∉ xs, ((kernelTickWakeLoop cfg ms xs.length k).tasks v).wait = (k.tasks v).wait := by
  induction xs generalizing k with
  | nil => exact ⟨by simp, fun _ _ => rfl⟩
  | cons x xs ih =>
    obtain ⟨w, hw, hwoken, g', -, -⟩ := kernelTickWake_spec g own hx
    have hnodup := k.timeoutList.lists.nodup .expired
    rw [hx, List.cons_append, List.nodup_cons] at hnodup
    have hx' : (kernelTickWake cfg ms k).timeoutList.lists.seq .expired = xs ++ ys := by
      rw [hwoken.timeouts, ListFamily.unlink_seq, hx]
      simp
    obtain ⟨h1, h2⟩ := ih g' (hwoken.ownership own) (hwoken.control.state.trans hk) hx'
    have hloop : kernelTickWakeLoop cfg ms (x :: xs).length k =
        kernelTickWakeLoop cfg ms xs.length (kernelTickWake cfg ms k) := by
      simp [kernelTickWakeLoop, hk]
    rw [hloop]
    refine ⟨fun v hv => ?_, fun v hv => ?_⟩
    · rcases List.mem_cons.mp hv with rfl | hv
      · exact (h2 v (fun hm => hnodup.1 (List.mem_append_left ys hm))).trans hwoken.wait_none
      · exact h1 v hv
    · obtain ⟨hvx, hvs⟩ := not_or.mp (mt List.mem_cons.mpr hv)
      exact (h2 v hvs).trans (hwoken.wait_of_ne hvx)

theorem tick_serves_inOrder (h : Watched cfg t s) {w' : Wait} {i : Bool}
    (horder : [t, u].Sublist (s.kernel.timeoutList.lists.seq (.slot i)))
    (ht : s.kernel.timeoutList.left t = some 1) (hu : s.kernel.timeoutList.left u = some 1)
    (hw : (s.kernel.tasks u).wait = some w') :
    ∃ n, ((kernelTickWakeLoop cfg s.mutexes n (kernelTickAdvance s.kernel)).tasks t).wait = none ∧
      ((kernelTickWakeLoop cfg s.mutexes n (kernelTickAdvance s.kernel)).tasks u).wait = some w' := by
  have hquiet := s.kernel.quiet_iff.mp h.steady.quiet
  obtain ⟨tl, he, hticked, hgood⟩ := kernelTickAdvance_spec h.steady.good.kernel h.steady.quiet
  have hexpired := hticked.expires_inOrder horder
    ((hticked.expired t).mpr (TimeoutList.left_eq_some ht (hquiet t)))
    ((hticked.expired u).mpr (TimeoutList.left_eq_some hu (hquiet u)))
  obtain ⟨xs, ys, hxs, hx, hy⟩ := List.cons_sublist_iff.mp hexpired
  have hnodup := tl.lists.nodup .expired
  rw [hxs] at hnodup
  have hut : u ∉ xs := fun hm => List.disjoint_of_nodup_append hnodup hm (List.singleton_sublist.mp hy)
  have hown : Ownership (kernelTickAdvance s.kernel) s.mutexes := by
    rw [he]
    exact h.steady.good.owners.update (fun _ hr => hr) (fun _ => rfl) (fun _ _ hm => hm)
  have hfront : (kernelTickAdvance s.kernel).timeoutList.lists.seq .expired = xs ++ ys := by
    rw [he]
    exact hxs
  obtain ⟨h1, h2⟩ := kernelTickWakeLoop_front hgood hown (by rw [he]; exact h.started) hfront
  refine ⟨xs.length, h1 t hx, (h2 u hut).trans ?_⟩
  rw [he]
  exact hw

theorem BlocksFor.begins {op : Op} {d : Tick} (h : BlocksFor cfg s op t w d) (hs : s.Steady cfg) :
    Begins s t w (some d) (step cfg s op) := by
  obtain ⟨w', ticks, hrequest, hbegins | ⟨m, rfl, hdown⟩⟩ := step_begins hs h.current h.blocks
  · obtain ⟨rfl, rfl⟩ : w = w' ∧ some d = ticks := by simpa [h.request] using hrequest
    exact hbegins
  · have hwait := ((hs.step op).good.kernel.shape t).waiting.mpr (by
      simp [Kernel.view, TaskControlBlock.isWaiting, h.blocked])
    exact absurd hdown.wait hwait

theorem BlocksFor.watched {op : Op} {d : Tick} (h : BlocksFor cfg s op t w d) (hs : s.Steady cfg) :
    Watched cfg t (step cfg s op) := ((runs_of_blocks hs h.current h.blocks).watched hs).step op

theorem Op.blocks_ticks {op : Op} (h : op.blocks cfg s = true) : op.ticks = 0 := by
  cases op <;> first | rfl | simp [Op.blocks] at h

theorem BlocksFor.behind {o : Op} {d : Tick} {w' : Wait} {n : Nat} {ops : List Op} (h : Watched cfg t s)
    (hw : (s.kernel.tasks t).wait = some w) (ht : s.kernel.timeoutList.left t = some n)
    (hun : Ungranted cfg t w s (o :: ops)) (hblocks : BlocksFor cfg s o u w' d)
    (hun' : Ungranted cfg u w' (step cfg s o) ops) (hn : ticksIn ops + 1 = n) (hd : ticksIn ops + 1 = d.toNat) :
    ((exec cfg (step cfg s o) ops).kernel.tasks u).wait = some w' ∧
      (exec cfg (step cfg s o) ops).kernel.timeoutList.left u = some 1 ∧
      ∃ i, [t, u].Sublist ((exec cfg (step cfg s o) ops).kernel.timeoutList.lists.seq (.slot i)) := by
  have hbegins := hblocks.begins h.steady
  have hidle := (h.steady.good.kernel.running_shape hbegins.starts.runs.running).2.2.2.1
  obtain ⟨h0, hf⟩ := hbegins.starts.finite d rfl
  obtain ⟨i, hi⟩ : ∃ i, [t, u].Sublist ((step cfg s o).kernel.timeoutList.lists.seq (.slot i)) := by
    rw [hbegins.starts.timeoutList]
    exact timeoutListInsert_behind h.steady.good.kernel.timeouts h0 hf hidle (by rw [ht]; congr 1; omega) h.steady.quiet
  obtain ⟨hwu, hleftu, habsent'⟩ := (hblocks.watched h.steady).waits_on hbegins.starts.wait
    (hbegins.left h.steady.good) hun' (by omega)
  obtain ⟨hwt, hleftt, habsent⟩ := h.waits_on hw ht hun (by
    have := Op.blocks_ticks hblocks.blocks
    simp only [ticksIn, List.map_cons, List.sum_cons] at hn ⊢
    omega)
  have horder := exec_inOrder (h.step o) (fun xs a ys he => habsent (o :: xs) a ys (by simp [he])) habsent'
  have hquiet := (exec cfg (step cfg s o) ops).kernel.quiet_iff.mp ((h.step o).exec ops).steady.quiet
  obtain ⟨⟨j, hj⟩, -⟩ := TimeoutList.left_eq_some hleftt (hquiet t)
  obtain ⟨⟨l, hl⟩, -⟩ := TimeoutList.left_eq_some hleftu (hquiet u)
  -- both stay in the list they were in
  have hti := (step cfg s o).kernel.timeoutList.lists.host_of_mem (hi.subset (by simp : t ∈ [t, u]))
  have hui := (step cfg s o).kernel.timeoutList.lists.host_of_mem (hi.subset (by simp : u ∈ [t, u]))
  obtain rfl : j = i := by simpa [hti, eq_comm] using horder.first j hj
  obtain rfl : l = j := by simpa [hui, eq_comm] using horder.second l hl
  exact ⟨hwu, hleftu.trans (by congr 1; omega), l, horder.order l hi hj hl⟩

theorem BlocksFor.waits_on {op : Op} {d : Tick} (h : BlocksFor cfg s op t w d) (hs : s.Steady cfg) {after : List Op}
    (hun : Ungranted cfg t w (step cfg s op) after) (hlt : ticksIn after < d.toNat) :
    ((exec cfg (step cfg s op) after).kernel.tasks t).wait = some w ∧
      (exec cfg (step cfg s op) after).kernel.timeoutList.left t = some (d.toNat - ticksIn after) ∧
      Absent cfg t (step cfg s op) after :=
  (h.watched hs).waits_on (h.begins hs).starts.wait ((h.begins hs).left hs.good) hun hlt

theorem Watched.ends (h : Watched cfg t s) (hw : (s.kernel.tasks t).wait = some w)
    (hleft : s.kernel.timeoutList.left t = some 1) :
    ((Hairtos.step cfg s .tick).kernel.tasks t).wait = none ∧
      ((Hairtos.step cfg s .tick).kernel.tasks t).waitResult = w.deadlineResult ∧
      (((Hairtos.step cfg s .tick).kernel.tasks t).state = .ready ∨
        ((Hairtos.step cfg s .tick).kernel.tasks t).state = .suspended ∧
          ((Hairtos.step cfg s .tick).kernel.tasks t).suspendedResumeState = .ready) := by
  have hnot := h.not_running hw
  have heffect := kernelTickFromIsr_effect h.steady.good h.steady.quiet h.started
  obtain ⟨hdone, hresult, -, -⟩ := heffect.completes h.steady.quiet h.magic hnot hw hleft
  exact ⟨hdone, hresult, (h.step .tick).steady.good.kernel.ready_or_suspended (h.step .tick).registered hdone
    (fun hr => hnot (heffect.running hr))⟩

/-- A wait with a finite timeout that nothing grants ends with the tick of its deadline, neither before nor
after, and of the waits that end with one tick the one that began first ends first. -/
theorem timeouts_exact (hs : Reachable cfg s) {op : Op} {d : Tick} (hblocks : BlocksFor cfg s op t w d)
    {after : List Op} (hun : Ungranted cfg t w (step cfg s op) after) :
    (ticksIn after < d.toNat → ((exec cfg (step cfg s op) after).kernel.tasks t).wait = some w) ∧
    (ticksIn after + 1 = d.toNat →
      (let cb := (step cfg (exec cfg (step cfg s op) after) .tick).kernel.tasks t;
        cb.wait = none ∧ cb.waitResult = w.deadlineResult ∧
          (cb.state = .ready ∨ cb.state = .suspended ∧ cb.suspendedResumeState = .ready)) ∧
      ∀ xs o ys u w' d', after = xs ++ o :: ys → BlocksFor cfg (exec cfg (step cfg s op) xs) o u w' d' →
        Ungranted cfg u w' (step cfg (exec cfg (step cfg s op) xs) o) ys → ticksIn ys + 1 = d'.toNat →
        let s' := exec cfg (step cfg s op) after;
        ∃ n, ((kernelTickWakeLoop cfg s'.mutexes n (kernelTickAdvance s'.kernel)).tasks t).wait = none ∧
          ((kernelTickWakeLoop cfg s'.mutexes n (kernelTickAdvance s'.kernel)).tasks u).wait = some w') := by
  have hsteady := reachable_steady hs
  have hwatched := hblocks.watched hsteady
  have hwaits := fun hlt => hblocks.waits_on hsteady hun hlt
  refine ⟨fun hlt => (hwaits hlt).1, fun hdue => ?_⟩
  obtain ⟨hw', hleft', habsent⟩ := hwaits (by omega)
  have hone : (exec cfg (step cfg s op) after).kernel.timeoutList.left t = some 1 := hleft'.trans (by congr 1; omega)
  have hend := hwatched.exec after
  refine ⟨hend.ends hw' hone, ?_⟩
  · rintro xs o ys u v d' rfl hblocks' hun' hd'
    have hticks : ticksIn (xs ++ o :: ys) = ticksIn xs + ticksIn ys := by
      have := Op.blocks_ticks hblocks'.blocks
      simp [ticksIn, this]
    obtain ⟨hwx, hleftx, -⟩ := hblocks.waits_on hsteady hun.append.1 (by omega)
    obtain ⟨hwu, hleftu, i, hi⟩ := hblocks'.behind (hwatched.exec xs) hwx hleftx hun.append.2 hun' (by omega) hd'
    have hexec : exec cfg (step cfg s op) (xs ++ o :: ys) =
        exec cfg (step cfg (exec cfg (step cfg s op) xs) o) ys := exec_append cfg _ xs (o :: ys)
    rw [← hexec] at hwu hleftu hi
    exact tick_serves_inOrder hend hi hone hleftu hwu

end

theorem ungranted_delay (cfg : Config) (t : TaskRef) (s : System) (ops : List Op) : Ungranted cfg t .delay s ops := by
  rintro us o vs - ⟨⟨e, he, -⟩, -⟩
  exact he

def delayRun : List Op := launch 0 1 ++ launch 1 2 ++ [.start]

def delayRest : List Op := [.pendsv, .task (.taskDelay 2#32), .pendsv, .tick]

theorem timeouts_exact_delayRun :
    let s := step .standard (exec .standard (boot .standard) delayRun) (.task (.taskDelay 2#32))
    ((step .standard (exec .standard s delayRest) .tick).kernel.tasks (.app 0)).wait = none ∧
      ∃ n, ((kernelTickWakeLoop .standard (exec .standard s delayRest).mutexes n
          (kernelTickAdvance (exec .standard s delayRest).kernel)).tasks (.app 0)).wait = none ∧
        ((kernelTickWakeLoop .standard (exec .standard s delayRest).mutexes n
          (kernelTickAdvance (exec .standard s delayRest).kernel)).tasks (.app 1)).wait = some .delay := by
  have hfirst : BlocksFor .standard (exec .standard (boot .standard) delayRun) (.task (.taskDelay 2#32)) (.app 0) .delay
      2#32 := ⟨by decide +kernel, by decide +kernel, rfl, by decide +kernel⟩
  have hsecond : BlocksFor .standard (exec .standard (step .standard (exec .standard (boot .standard) delayRun)
      (.task (.taskDelay 2#32))) [.pendsv]) (.task (.taskDelay 2#32)) (.app 1) .delay 2#32 :=
    ⟨by decide +kernel, by decide +kernel, rfl, by decide +kernel⟩
  obtain ⟨hdone, horder⟩ := (timeouts_exact ⟨delayRun, rfl⟩ hfirst (ungranted_delay _ _ _ delayRest)).2 rfl
  exact ⟨hdone.1, horder [.pendsv] (.task (.taskDelay 2#32)) [.pendsv, .tick] (.app 1) .delay 2#32 rfl hsecond
    (ungranted_delay _ _ _ _) rfl⟩

end Hairtos
