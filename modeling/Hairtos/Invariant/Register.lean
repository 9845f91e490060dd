import Hairtos.Invariant.Priority
import Hairtos.System

namespace Hairtos

open Library

def createdBlock (cfg : Config) (priority : Nat) : TaskControlBlock :=
  { magic := true
    state := .created
    basePriority := priority
    effectivePriority := priority
    timeSliceRemaining := cfg.timeSliceTicks }

def Kernel.create (cfg : Config) (k : Kernel) (t : TaskRef) (priority : Nat) : Kernel :=
  { k with
    scheduler := { k.scheduler with priority := Function.update k.scheduler.priority t priority }
    waitLists := { k.waitLists with priority := Function.update k.waitLists.priority t priority }
    timeoutList := { k.timeoutList with wakeTick := Function.update k.timeoutList.wakeTick t 0#32 }
    tasks := Function.update k.tasks t (createdBlock cfg priority) }

def Kernel.register (cfg : Config) (k : Kernel) (t : TaskRef) : Kernel :=
  { k with
    scheduler := (schedulerAddReady cfg k.scheduler t).1
    allTasks := (listPushBack k.allTasks () t).1
    tasks := Function.update k.tasks t { k.tasks t with state := .ready, timeSliceRemaining := cfg.timeSliceTicks }
    taskCount := k.taskCount + 1 }

section

variable {cfg : Config} {k : Kernel} {t : TaskRef}

theorem Shape.of_invalid {v : TaskView} (h : Shape cfg v) (hm : v.cb.magic = false) :
    v.registered = false ∧ v.readyHost = none ∧ v.waitHost = none ∧ v.timeoutHost = none ∧ v.idle = false := by
  have hs : v.cb.state = .invalid := by
    by_contra hs
    simp [h.magic.mpr hs] at hm
  have hw : v.cb.wait = none := by
    by_contra hw
    simp [h.magic_of_wait hw] at hm
  refine ⟨?_, ?_, h.waitHost_none hw, h.timeoutHost_none hw, ?_⟩
  · cases hr : v.registered with
    | false => rfl
    | true => exact absurd hs (h.registered.mp hr).1
  · simpa [hs, TaskState.isReady] using h.readyHost
  · cases hi : v.idle with
    | false => rfl
    | true => simpa [hs, TaskState.isReady] using (h.idle hi).1

theorem Shape.create {v : TaskView} {priority : Nat} (hp : priority < cfg.priorityCount)
    (hv : v = { idle := false, cb := createdBlock cfg priority, registered := false, readyHost := none,
                readyPriority := priority, waitHost := none, waitPriority := priority, timeoutHost := none }) :
    Shape cfg v := by
  subst hv
  refine ⟨?_, ?_, ?_, rfl, ⟨rfl, rfl, rfl, rfl, rfl⟩, ?_, ?_, ?_, ?_, ?_, ?_, ?_, ?_, ?_, ?_⟩ <;>
    simp [createdBlock, TaskState.isReady, TaskControlBlock.wait, TaskControlBlock.isWaiting, hp]

theorem Kernel.Good.create (g : k.Good cfg) (hm : (k.tasks t).magic = false) {priority : Nat}
    (hp : priority < cfg.priorityCount) : (k.create cfg t priority).Good cfg := by
  obtain ⟨hreg, hready, hwait, htimeout, hidle⟩ := (g.shape t).of_invalid hm
  refine ⟨g.updateView ⟨rfl, rfl, rfl, rfl, rfl, rfl⟩ (g.scheduler.setPriority t priority hready)
    (g.sorted.setPriority t priority hwait) (g.timeouts.setWakeTick 0#32 htimeout) rfl t ?_ ?_ ?_, ?_⟩
  · intro u hu
    simp [Kernel.view, Kernel.create, hu]
  · apply Shape.create hp
    simp only [Kernel.view] at hreg hready hwait htimeout hidle
    simp [Kernel.view, Kernel.create, hreg, hready, hwait, htimeout, hidle]
  · simp [Kernel.create, createdBlock]
  · intro u hu
    apply g.delays u
    by_cases hut : u = t
    · subst hut
      simp [Kernel.create, createdBlock, TaskControlBlock.wait] at hu
    · simpa [Kernel.create, hut] using hu

theorem taskCreateStatic_spec (g : k.Good cfg) (task : Option TaskRef) (p : TaskParameters) :
    (∃ status, status ≠ .ok ∧ taskCreateStatic cfg k task p = (k, status)) ∨
    (∃ t, task = some t ∧ (k.tasks t).magic = false ∧
      taskCreateStatic cfg k task p = (k.create cfg t p.priority, .ok) ∧ (k.create cfg t p.priority).Good cfg) := by
  cases task with
  | none => exact Or.inl ⟨.invalidArgument, by simp, rfl⟩
  | some t =>
    by_cases hargs : (p.name = none || p.entry = none || p.stack = none : Bool) = true
    · exact Or.inl ⟨.invalidArgument, by simp, by rw [taskCreateStatic, if_pos hargs]⟩
    by_cases hm : (k.tasks t).magic = true
    · exact Or.inl
        ⟨.invalidState, by simp, by simp only [taskCreateStatic, hargs, taskIsValid, hm, ↓reduceIte]; rfl⟩
    by_cases hrange : (p.stackWords < minTaskStackWords || cfg.priorityCount ≤ p.priority : Bool) = true
    · exact Or.inl ⟨.invalidArgument, by simp, by
        simp only [taskCreateStatic, hargs, taskIsValid, hm, hrange, ↓reduceIte]; rfl⟩
    have hp : p.priority < cfg.priorityCount := by
      simp only [Bool.or_eq_true, decide_eq_true_eq, not_or, not_le] at hrange
      exact hrange.2
    have hm : (k.tasks t).magic = false := by simpa using hm
    refine Or.inr ⟨t, rfl, hm, ?_, g.create hm hp⟩
    simp only [taskCreateStatic, hargs, taskIsValid, hm, hrange]
    rfl

theorem Shape.register {v v' : TaskView} {slice : Tick} (h : Shape cfg { v with idle := false })
    (hs : v.cb.state = .created) (hidle : v.cb.effectivePriority = cfg.idlePriority ↔ v.idle = true)
    (hv : v' = { v with
      cb := { v.cb with state := .ready, timeSliceRemaining := slice }
      registered := true
      readyHost := some v.cb.effectivePriority }) : Shape cfg v' := by
  have hm : v.cb.magic = true := h.magic.mpr (by simp [hs])
  have hw : v.cb.wait = none := by
    by_contra hw
    have := h.waiting.mp hw
    simp [TaskControlBlock.isWaiting, hs] at this
  have hreg : v.registered = false := by
    cases hr : v.registered with
    | false => rfl
    | true => exact absurd hs (h.registered.mp hr).2
  have hfresh : v.cb.effectivePriority = v.cb.basePriority := h.fresh hreg
  have hbase : v.cb.basePriority < cfg.priorityCount := h.base hm
  have hr := h.records
  subst hv
  refine ⟨?_, ?_, ?_, h.waitHost, ⟨hr.kind, hr.object, hr.waitList, hr.buffer, hr.cleanup⟩, ?_, ?_, ?_,
    ?_, h.agree,
    h.effective, ?_, h.base, ?_, ?_⟩
  · simp [hm]
  · simp
  · simp [TaskState.isReady]
  · simpa [TaskControlBlock.isWaiting, TaskControlBlock.wait] using hw
  · exact h.timeoutHost
  · simp
  · intro _
    exact h.resumesNot (by simp [hs])
  · simp
  · intro _ hi
    have hne : v.cb.effectivePriority ≠ cfg.idlePriority := fun he => by simp [hidle.mp he] at hi
    simp only [Config.idlePriority] at hne ⊢
    omega
  · intro hi
    exact ⟨by simp [TaskState.isReady], hidle.mpr hi⟩

theorem Kernel.register_good (hwf : k.scheduler.WellFormed cfg) (hsorted : k.waitLists.Sorted)
    (htimeouts : k.timeoutList.WellFormed) (hlast : k.timeoutList.lastTick = k.tick)
    (hshape : ∀ u, u ≠ t → Shape cfg (k.view u)) (hself : Shape cfg { k.view t with idle := false })
    (hcount : k.taskCount = (k.allTasks.seq ()).length) (hmax : k.taskCount < cfg.maxTasks)
    (hstate : k.state = .initialized) (hcurrent : k.currentTask = none)
    (hrunning : ∀ u, (k.tasks u).state ≠ .running)
    (hdelays : ∀ u, (k.tasks u).wait = some .delay → k.timeoutList.lists.host u ≠ none)
    (hcreated : (k.tasks t).state = .created)
    (hidle : (k.tasks t).effectivePriority = cfg.idlePriority ↔ t = .idle) : (k.register cfg t).Good cfg := by
  have hm : (k.tasks t).magic = true := hself.magic.mpr (by simp [Kernel.view, hcreated])
  have hagree : k.scheduler.priority t = (k.tasks t).effectivePriority := (hself.agree hm).1
  have hhost : k.scheduler.queues.host t = none := by
    have := hself.readyHost
    simpa [Kernel.view, hcreated, TaskState.isReady] using this
  have hreg : k.allTasks.host t = none := by
    by_contra h
    exact (hself.registered.mp (by simpa [Kernel.view] using h)).2 hcreated
  have hlt : k.scheduler.priority t < cfg.priorityCount := hagree.trans_lt (hself.effective_lt hm)
  obtain ⟨scheduler, hadd, hwf', hprio, hhosts, -⟩ := schedulerAddReady_spec hwf t hlt hhost
  have hview : (k.register cfg t).view t = { k.view t with
      cb := { (k.view t).cb with state := .ready, timeSliceRemaining := cfg.timeSliceTicks }
      registered := true
      readyHost := some (k.view t).cb.effectivePriority } := by
    simp [Kernel.view, Kernel.register, hadd, hprio, hhosts, hagree, listPushBack_ok _ _ _ hreg, listNodeIsLinked]
  have hviews : ∀ u, u ≠ t → (k.register cfg t).view u = k.view u := by
    intro u hu
    simp [Kernel.view, Kernel.register, hadd, hprio, hhosts, hu, listPushBack_ok _ _ _ hreg, listNodeIsLinked]
  have hrun : ∀ u, ((k.register cfg t).tasks u).state ≠ .running := by
    intro u
    by_cases hu : u = t
    · simp [Kernel.register, hu]
    · simpa [Kernel.register, hu] using hrunning u
  refine ⟨⟨?_, hsorted, htimeouts, hlast, ?_, ?_, hmax, Or.inl hstate, fun _ => hcurrent, ?_, ?_⟩, ?_⟩
  · simpa [Kernel.register, hadd] using hwf'
  · intro u
    by_cases hu : u = t
    · rw [hu]
      exact hself.register hcreated (by simpa [Kernel.view] using hidle) hview
    · rw [hviews u hu]
      exact hshape u hu
  · simp [Kernel.register, hcount, listPushBack_ok _ _ _ hreg]
  · intro h
    simp [Kernel.register, hstate] at h
  · intro u hu
    exact absurd hu (hrun u)
  · intro u hu
    apply hdelays u
    by_cases hut : u = t
    · subst hut
      simpa [Kernel.register, TaskControlBlock.wait] using hu
    · simpa [Kernel.register, hut] using hu

theorem kernelRegisterTask_eq (cfg : Config) (hstate : k.state = .initialized) (hm : (k.tasks t).magic = true)
    (hmax : k.taskCount < cfg.maxTasks)
    (hidle : (k.tasks t).effectivePriority = cfg.idlePriority → t = .idle) (hcreated : (k.tasks t).state = .created)
    (hready : k.scheduler.queues.host t = none) (hreg : k.allTasks.host t = none)
    (hlt : k.scheduler.priority t < cfg.priorityCount) : kernelRegisterTask cfg k t = (k.register cfg t, .ok) := by
  have hpriority : ¬ (¬t = .idle ∧ (k.tasks t).effectivePriority = cfg.idlePriority) :=
    fun h => h.1 (hidle h.2)
  simp [kernelRegisterTask, hstate, taskIsValid, hm, hmax.not_ge, hpriority, hcreated, listNodeIsLinked, hready, hreg,
    Kernel.addReady, schedulerAddReady_eq _ _ hlt hready, listPushBack_ok _ _ _ hreg, taskTransitionState,
    Kernel.updateTask, kernelReloadTimeSlice, Kernel.register]

theorem taskStart_spec (g : k.Good cfg) (task : Option TaskRef) :
    (∃ status, status ≠ .ok ∧ taskStart cfg k task = (k, status)) ∨
    (∃ t, task = some t ∧ (k.tasks t).state = .created ∧ k.state = .initialized ∧
      taskStart cfg k task = (k.register cfg t, .ok) ∧ (k.register cfg t).Good cfg) := by
  cases task with
  | none => exact Or.inl ⟨.invalidArgument, by simp, rfl⟩
  | some t =>
    by_cases hm : (k.tasks t).magic = true
    swap
    · exact Or.inl ⟨.invalidArgument, by simp, by simp [taskStart, taskIsValid, hm]⟩
    by_cases hstate : k.state = .initialized
    swap
    · exact Or.inl ⟨.invalidState, by simp, by simp [taskStart, taskIsValid, hm, kernelRegisterTask, hstate]⟩
    by_cases hmax : k.taskCount < cfg.maxTasks
    swap
    · exact Or.inl ⟨.noMemory, by simp, by
        simp [taskStart, taskIsValid, hm, kernelRegisterTask, hstate, not_lt.mp hmax]⟩
    by_cases hidle : (k.tasks t).effectivePriority = cfg.idlePriority → t = .idle
    swap
    · push Not at hidle
      exact Or.inl ⟨.invalidArgument, by simp, by
        simp [taskStart, taskIsValid, hm, kernelRegisterTask, hstate, hmax.not_ge, hidle]⟩
    by_cases hcreated : (k.tasks t).state = .created
    swap
    · have hpriority : ¬ (¬t = .idle ∧ (k.tasks t).effectivePriority = cfg.idlePriority) :=
        fun h => h.1 (hidle h.2)
      exact Or.inl ⟨.invalidState, by simp, by
        simp [taskStart, taskIsValid, hm, kernelRegisterTask, hstate, hmax.not_ge, hpriority, hcreated]⟩
    have hne : t ≠ .idle := by
      rintro rfl
      simpa [Kernel.view, hcreated, TaskState.isReady] using ((g.shape .idle).idle (by simp [Kernel.view])).1
    have hview : { k.view t with idle := false } = k.view t := by simp [Kernel.view, hne]
    have hself : Shape cfg { k.view t with idle := false } := hview ▸ g.shape t
    have hready : k.scheduler.queues.host t = none := by
      simpa [Kernel.view, hcreated, TaskState.isReady] using (g.shape t).readyHost
    have hreg : k.allTasks.host t = none := by
      by_contra h
      exact ((g.shape t).registered.mp (by simpa [Kernel.view] using h)).2 hcreated
    have hagree : k.scheduler.priority t = (k.tasks t).effectivePriority := ((g.shape t).agree hm).1
    have hlt : k.scheduler.priority t < cfg.priorityCount := hagree.trans_lt ((g.shape t).effective_lt hm)
    have hrunning : ∀ u, (k.tasks u).state ≠ .running := by
      intro u hu
      simpa [g.unstarted hstate] using g.running u hu
    refine Or.inr ⟨t, rfl, hcreated, hstate, ?_, ?_⟩
    · simpa [taskStart, taskIsValid, hm] using kernelRegisterTask_eq cfg hstate hm hmax hidle hcreated hready hreg hlt
    · exact Kernel.register_good g.scheduler g.sorted g.timeouts g.lastTick (fun u _ => g.shape u) hself g.taskCount
        hmax hstate (g.unstarted hstate) hrunning g.delays hcreated ⟨hidle, fun h => absurd h hne⟩

end

def Kernel.bare (cfg : Config) : Kernel := { Kernel.reset with state := .initialized }.create cfg .idle cfg.idlePriority

theorem Kernel.bare_shape (cfg : Config) (t : TaskRef) : Shape cfg { (Kernel.bare cfg).view t with idle := false } := by
  by_cases ht : t = .idle
  · subst ht
    exact Shape.create cfg.idlePriority_lt rfl
  · have hview : { (Kernel.bare cfg).view t with idle := false } =
        { idle := false, cb := {}, registered := false, readyHost := none, readyPriority := 0, waitHost := none,
          waitPriority := 0, timeoutHost := none } := by
      simp [Kernel.bare, Kernel.view, Kernel.create, Kernel.reset, readySetInit, timeoutListInit, ht, listNodeIsLinked]
    rw [hview]
    constructor <;> simp [TaskState.isReady, TaskControlBlock.wait, TaskControlBlock.isWaiting]
    exact ⟨rfl, rfl, rfl, rfl, rfl⟩

theorem taskStart_bare (cfg : Config) :
    taskStart cfg (Kernel.bare cfg) (some .idle) = ((Kernel.bare cfg).register cfg .idle, .ok) := by
  have hm : ((Kernel.bare cfg).tasks .idle).magic = true := by simp [Kernel.bare, Kernel.create, createdBlock]
  have h := kernelRegisterTask_eq cfg (k := Kernel.bare cfg) (t := .idle) rfl hm cfg.maxTasks_pos
    (fun _ => rfl) (by simp [Kernel.bare, Kernel.create, createdBlock]) rfl rfl
    (by simpa [Kernel.bare, Kernel.create] using cfg.idlePriority_lt)
  simpa [taskStart, taskIsValid, hm] using h

theorem boot_eq (cfg : Config) : boot cfg = { System.reset with kernel := (Kernel.bare cfg).register cfg .idle } := by
  have hcreate : taskCreateStatic cfg { Kernel.reset with state := .initialized } (some .idle)
      (idleTaskParameters cfg) = (Kernel.bare cfg, .ok) := by
    simp [taskCreateStatic, idleTaskParameters, taskIsValid, Kernel.reset, minTaskStackWords, idleStackWords,
      cfg.idlePriority_lt.not_ge, Kernel.bare, Kernel.create, createdBlock, Kernel.updateTask]
  simp only [boot, kernelInit]
  rw [if_neg (by simp [System.reset, Kernel.reset])]
  rw [show ({ System.reset.kernel with
      scheduler := readySetInit System.reset.kernel.scheduler.priority
      allTasks := .empty
      timeoutList := timeoutListInit System.reset.kernel.timeoutList.wakeTick 0#32
      currentTask := none
      currentControlBlock := none
      taskCount := 0
      tick := 0#32
      switchReasons := {}
      state := .initialized } : Kernel) = { Kernel.reset with state := .initialized } from rfl]
  simp only [hcreate, taskStart_bare]
  rfl

theorem Kernel.bare_wait (cfg : Config) (t : TaskRef) :
    ((Kernel.bare cfg).tasks t).wait = none ∧ ((Kernel.bare cfg).tasks t).state ≠ .running := by
  by_cases ht : t = .idle <;> simp [Kernel.bare, Kernel.create, Kernel.reset, createdBlock, TaskControlBlock.wait, ht]

theorem boot_good (cfg : Config) : (boot cfg).kernel.Good cfg := by
  rw [boot_eq]
  have hidle : ((Kernel.bare cfg).tasks .idle).effectivePriority = cfg.idlePriority := by
    simp [Kernel.bare, Kernel.create, createdBlock]
  have hwf := (ReadySet.WellFormed.init cfg (fun _ : TaskRef => 0)).setPriority .idle cfg.idlePriority rfl
  have htimeouts := (TimeoutList.WellFormed.init (fun _ : TaskRef => 0#32) 0#32).setWakeTick (n := .idle) 0#32 rfl
  refine Kernel.register_good hwf ?_ htimeouts rfl ?_ (Kernel.bare_shape cfg .idle) rfl cfg.maxTasks_pos rfl rfl
    (fun u => (Kernel.bare_wait cfg u).2) ?_ ?_ ⟨fun _ => rfl, fun _ => hidle⟩
  · intro l
    simp [Kernel.bare, Kernel.create, Kernel.reset]
  · intro u hu
    have := Kernel.bare_shape cfg u
    simpa [Kernel.view, hu] using this
  · intro u hu
    simp [(Kernel.bare_wait cfg u).1] at hu
  · simp [Kernel.bare, Kernel.create, createdBlock]

end Hairtos
