import Hairtos.Invariant.Step

namespace Hairtos

open Library

inductive Move (cfg : Config) (s : System) : System → Prop
  | act {owed : Bool} {s' : System} (acts : Acts cfg s owed s') : Move cfg s s'
  | lock (m : MutexRef) (timeout : Tick) (s' : System) (outcome : Outcome)
      (effect : LockEffect cfg s m timeout s' outcome) (good : s'.Good cfg) : Move cfg s s'
  | advance (timeoutList : TimeoutList TaskRef) (ticked : s.kernel.timeoutList.Ticked timeoutList)
      (good : (s.ticked timeoutList).Good cfg) : Move cfg s (s.ticked timeoutList)
  | charge (k : Kernel) (charged : s.kernel.Charged k) : Move cfg s { s with kernel := k }
  | dispatch (current next : TaskRef) (running : s.kernel.state = .running)
      (hcurrent : s.kernel.currentTask = some current)
      (selected : schedulerSelectHighest cfg ({ s.kernel with pendSvPending := false }.rotate cfg current).scheduler =
        some next)
      (good : (({ s.kernel with pendSvPending := false }.rotate cfg current).switch current next).Good cfg) :
      Move cfg s { s with kernel := ({ s.kernel with pendSvPending := false }.rotate cfg current).switch current next }
  | start (next : TaskRef) (state : s.kernel.state = .initialized)
      (selected : schedulerSelectHighest cfg s.kernel.scheduler = some next)
      (good : ({ (kernelReloadTimeSlice cfg s.kernel next).switch next next with state := .running } :
        Kernel).Good cfg) :
      Move cfg s { s with kernel := { (kernelReloadTimeSlice cfg s.kernel next).switch next next with state :=
        .running } }

structure Dispatched (k k' : Kernel) : Prop where
  tasks : ∀ u, k'.tasks u = { k.tasks u with
    state := (k'.tasks u).state
    timeSliceRemaining := (k'.tasks u).timeSliceRemaining }
  timeoutList : k'.timeoutList = k.timeoutList
  waitLists : k'.waitLists = k.waitLists
  tick : k'.tick = k.tick

section

variable {cfg : Config} {s s' : System} {op : Op}

theorem Dispatched.sameWaits {k k' : Kernel} (h : Dispatched k k') : SameWaits k k' := by
  refine ⟨fun u => ?_, fun u hm => ?_, fun u _ => ?_, by rw [h.timeoutList], fun _ _ => by rw [h.timeoutList],
    by rw [h.timeoutList]⟩
  · rw [h.tasks u]
    rfl
  · rwa [h.tasks u]
  · rw [h.tasks u]

theorem Kernel.dispatched_rotate_switch (k : Kernel) (current next : TaskRef) :
    Dispatched k (({ k with pendSvPending := false }.rotate cfg current).switch current next) := by
  refine ⟨fun u => ?_, rfl, rfl, rfl⟩
  simp only [Kernel.switch, Kernel.rotate]
  by_cases hu : u = current
  · subst hu
    split_ifs <;> simp
  · split_ifs <;> simp [hu]

theorem Kernel.dispatched_start (k : Kernel) (next : TaskRef) :
    Dispatched k { (kernelReloadTimeSlice cfg k next).switch next next with state := .running } := by
  refine ⟨fun u => ?_, rfl, rfl, rfl⟩
  simp only [Kernel.switch, kernelReloadTimeSlice, Kernel.updateTask]
  by_cases hu : u = next
  · subst hu
    simp
  · simp [hu]

theorem Ownership.dispatched {k k' : Kernel} {ms : Mutexes} (own : Ownership k ms) (h : Dispatched k k')
    (hall : k'.allTasks = k.allTasks) : Ownership k' ms := by
  refine own.update (fun u hu => ?_) (fun u => ?_) (fun u m hw => ?_)
  · simpa only [Kernel.view, hall] using hu
  · rw [h.tasks u]
  · rwa [h.sameWaits.wait u] at hw

theorem Move.good (h : Move cfg s s') (hs : s.Good cfg) : s'.Good cfg := by
  cases h with
  | act hacts => exact hacts.good
  | lock m timeout s' outcome heffect hgood => exact hgood
  | advance timeoutList hticked hgood => exact hgood
  | charge k hcharged =>
    exact ⟨hs.kernel.bookkept hcharged.bookkept, hs.owners.charged hcharged, hs.queues.congr rfl,
      hs.semaphores.congr rfl⟩
  | dispatch current next hrunning hcurrent hselected hgood =>
    exact ⟨hgood, hs.owners.dispatched (s.kernel.dispatched_rotate_switch current next) rfl, hs.queues.congr rfl,
      hs.semaphores.congr rfl⟩
  | start next hstate hselected hgood =>
    exact ⟨hgood, hs.owners.dispatched (s.kernel.dispatched_start next) rfl, hs.queues.congr rfl,
      hs.semaphores.congr rfl⟩

theorem Trace.moves {owed : Bool} (h : Trace cfg s owed s') : Relation.ReflTransGen (Move cfg) s s' := by
  induction h with
  | nil => exact .refl
  | single ha => exact .single (.act ha)
  | cons ha _ ih => exact .head (.act ha) ih

theorem Stepped.moves (h : Stepped cfg s op s') : Relation.ReflTransGen (Move cfg) s s' := by
  cases h with
  | refused op => exact .refl
  | acts op htrace => exact htrace.moves
  | lock m timeout s' outcome heffect hgood => exact .single (.lock m timeout s' outcome heffect hgood)
  | isr c honoured s₁ k htrace hcalm => exact htrace.moves.tail (.charge k hcalm.charged)
  | tick _ s' heffect =>
    obtain ⟨current, switchRequired, hticked, hgood, hexpiry, htimers, -⟩ := heffect
    obtain ⟨owed, htrace⟩ := hexpiry.trace
    exact ((htrace.moves.head (.advance _ hticked hgood)).trans htimers.moves).tail
      (.charge _ (kernelTickEnd_charged _ _ _ _))
  | pendsv current next hrunning hcurrent hselected hgood =>
    exact .single (.dispatch current next hrunning hcurrent hselected hgood)
  | start next hstate hselected hgood => exact .single (.start next hstate hselected hgood)

theorem moves_keep {P : System → Prop} (h : Relation.ReflTransGen (Move cfg) s s')
    (hmove : ∀ a b, a.Good cfg → Move cfg a b → P a → P b) (hs : s.Good cfg) (hp : P s) :
    s'.Good cfg ∧ P s' := by
  induction h with
  | refl => exact ⟨hs, hp⟩
  | tail _ hm ih => exact ⟨hm.good ih.1, hmove _ _ ih.1 hm ih.2⟩

theorem moves_good (h : Relation.ReflTransGen (Move cfg) s s') (hs : s.Good cfg) : s'.Good cfg :=
  (moves_keep h (fun _ _ _ _ _ => trivial) hs trivial).1

theorem Kernel.Charged.quiet {k k' : Kernel} (h : k.Charged k') (hq : k.Quiet) : k'.Quiet := by
  unfold Kernel.Quiet
  rw [h.bookkept.frame]
  exact hq

theorem Stepped.quiet (h : Stepped cfg s op s') (hs : s.Good cfg) (hq : s.kernel.Quiet) : s'.kernel.Quiet := by
  cases h with
  | refused op => exact hq
  | acts op htrace => exact htrace.quiet hs hq
  | lock m timeout s' outcome heffect hgood => exact heffect.quiet hs.kernel hq
  | isr c honoured s₁ k htrace hcalm => exact hcalm.charged.quiet (htrace.quiet hs hq)
  | tick _ s' heffect =>
    obtain ⟨current, switchRequired, hticked, hgood, hexpiry, htimers, -⟩ := heffect
    obtain ⟨owed, htrace⟩ := hexpiry.trace
    exact (kernelTickEnd_charged _ _ _ _).quiet (htimers.quiet (htrace.good hgood) hexpiry.quiet)
  | pendsv => exact hq
  | start => exact hq

structure System.Steady (cfg : Config) (s : System) : Prop where
  good : s.Good cfg
  quiet : s.kernel.Quiet

theorem System.Steady.stepped (h : s.Steady cfg) (op : Op) : Stepped cfg s op (step cfg s op) :=
  step_stepped h.good h.quiet op

theorem System.Steady.step (h : s.Steady cfg) (op : Op) : (Hairtos.step cfg s op).Steady cfg :=
  ⟨moves_good (h.stepped op).moves h.good, (h.stepped op).quiet h.good h.quiet⟩

theorem System.Steady.exec (h : s.Steady cfg) (ops : List Op) : (Hairtos.exec cfg s ops).Steady cfg := by
  induction ops generalizing s with
  | nil => exact h
  | cons op ops ih => exact ih (h.step op)

theorem System.Steady.exec_keeps (h : s.Steady cfg) {P : System → Prop}
    (hmove : ∀ a b, a.Good cfg → Move cfg a b → P a → P b) (hs : P s) (ops : List Op) :
    P (Hairtos.exec cfg s ops) := by
  induction ops generalizing s with
  | nil => exact hs
  | cons op ops ih =>
    exact ih (h.step op) (moves_keep (h.stepped op).moves hmove h.good hs).2

theorem boot_wait (cfg : Config) (t : TaskRef) : ((boot cfg).kernel.tasks t).wait = none := by
  rw [boot_eq]
  by_cases ht : t = .idle
  · subst ht
    simpa [Kernel.register, TaskControlBlock.wait] using (Kernel.bare_wait cfg .idle).1
  · simpa [Kernel.register, ht] using (Kernel.bare_wait cfg t).1

theorem boot_ownership (cfg : Config) : Ownership (boot cfg).kernel (boot cfg).mutexes := by
  have hms : (boot cfg).mutexes = System.reset.mutexes := by rw [boot_eq]
  rw [hms]
  refine ⟨⟨?_, ?_, ?_, ?_, ?_, ?_⟩, ?_⟩
  · simp [System.reset]
  · simp [System.reset]
  · simp [System.reset]
  · simp [System.reset]
  · intro t
    by_cases ht : t = .idle <;>
      simp [boot_eq, System.reset, Kernel.register, Kernel.bare, Kernel.create, Kernel.reset, createdBlock, ht]
  · simp [boot_wait]
  · intro t
    exact Ends.of_none (waitsFor_of_not_lock (by simp [boot_wait]))

theorem boot_steady (cfg : Config) : (boot cfg).Steady cfg := by
  refine ⟨⟨boot_good cfg, boot_ownership cfg, ?_, ?_⟩, ?_⟩
  · intro q
    simp [boot_eq, System.reset]
  · intro x
    simp [boot_eq, System.reset]
  · rw [boot_eq]
    rfl

theorem reachable_steady (h : Reachable cfg s) : s.Steady cfg := by
  obtain ⟨ops, rfl⟩ := h
  exact (boot_steady cfg).exec ops

end

def tally (cfg : Config) (f : System → Op → Nat) : System → List Op → Nat
  | _, [] => 0
  | s, op :: ops => f s op + tally cfg f (step cfg s op) ops

def launch (n priority : Nat) : List Op :=
  [.task (.taskCreateStatic (some n) ⟨some "task", some 0, some 0, minTaskStackWords, priority⟩),
    .task (.taskStart (some (.app n)))]

end Hairtos
