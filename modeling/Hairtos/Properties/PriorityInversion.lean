import Hairtos.Properties.Inheritance
import Hairtos.Properties.Scheduling

namespace Hairtos

open Library

variable {cfg : Config} {s : System}

def WaitsThrough (s : System) : TaskRef → TaskRef → Prop :=
  Relation.ReflTransGen (fun a b => waitsFor s.kernel s.mutexes a = some b)

theorem System.Good.registered_of_waitsFor (h : s.Good cfg) {u v : TaskRef}
    (hw : waitsFor s.kernel s.mutexes u = some v) :
    (s.kernel.view u).registered = true ∧ (s.kernel.view v).registered = true := by
  obtain ⟨m, hwait, howner⟩ := waitsFor_eq_some hw
  exact ⟨(h.kernel.shape u).registered_of_wait (by simp [Kernel.view, hwait]), (h.owners.registered m v howner).1⟩

theorem exists_donor (h : s.Good cfg) (hb : ∀ t, Balanced s.kernel s.mutexes t) {t : TaskRef}
    (hreg : (s.kernel.view t).registered = true) :
    ∃ u, WaitsThrough s u t ∧ (s.kernel.tasks u).basePriority = (s.kernel.tasks t).effectivePriority := by
  refine backward_induction (P := fun u => (s.kernel.view u).registered = true)
    (R := fun v => ∃ u, WaitsThrough s u v ∧ (s.kernel.tasks u).basePriority = (s.kernel.tasks v).effectivePriority)
    (fun u v _ hw => (h.registered_of_waitsFor hw).2) h.owners.ends (s.kernel.allTasks.seq ())
    (fun u hu => registered_mem s.kernel hu) (fun v _ ih => ?_) t hreg
  rcases (isLeast_of_balanced h (hb v)).1 with hbase | ⟨m, u, howner, hmem, heff⟩
  · exact ⟨v, .refl, hbase.symm⟩
  · rw [s.kernel.waitLists.lists.mem_seq, h.kernel.waitHost_mutex] at hmem
    have hw : waitsFor s.kernel s.mutexes u = some v := (waitsFor_of_lock hmem).trans howner
    obtain ⟨w, hchain, hbase⟩ := ih u (h.registered_of_waitsFor hw).1 hw
    exact ⟨w, hchain.tail hw, hbase.trans heff.symm⟩

theorem System.Steady.settled (h : s.Steady cfg) (hp : cfg.preemption = true) (hset : s.kernel.Settled) {ops : List Op}
    (hops : ∀ c, Op.isr c false ∉ ops) : (Hairtos.exec cfg s ops).kernel.Settled := by
  induction ops generalizing s with
  | nil => exact hset
  | cons op ops ih =>
    refine ih (h.step op) (step_settled h hp ?_ hset) (fun c hc => hops c (List.mem_cons_of_mem op hc))
    rintro c rfl
    exact hops c List.mem_cons_self

theorem no_priority_inversion (cfg : Config) (hp : cfg.preemption = true) (ops : List Op)
    (hops : ∀ c, Op.isr c false ∉ ops) (hok : locksSucceed cfg (boot cfg) ops = true) (c t o : TaskRef)
    (hcurrent : (exec cfg (boot cfg) ops).kernel.currentTask = some c)
    (hrunning : ((exec cfg (boot cfg) ops).kernel.tasks c).state = .running)
    (hpending : (exec cfg (boot cfg) ops).kernel.pendSvPending = false)
    (hchain : WaitsThrough (exec cfg (boot cfg) ops) t o)
    (hready : o = c ∨ ((exec cfg (boot cfg) ops).kernel.tasks o).state = .ready) :
    ∃ u, WaitsThrough (exec cfg (boot cfg) ops) u c ∧
      ((exec cfg (boot cfg) ops).kernel.tasks u).basePriority ≤
        ((exec cfg (boot cfg) ops).kernel.tasks t).effectivePriority := by
  have hs := (boot_steady cfg).exec ops
  have hb := exec_balanced (boot_steady cfg) hok (boot_balanced cfg)
  have hset := (boot_steady cfg).settled hp (boot_settled cfg) hops
  generalize exec cfg (boot cfg) ops = s at *
  have hreg : (s.kernel.view c).registered = true := by
    apply (hs.good.kernel.shape c).registered.mpr
    simp [Kernel.view, hrunning]
  obtain ⟨u, hu, hbase⟩ := exists_donor hs.good hb hreg
  have howner : (s.kernel.tasks c).effectivePriority ≤ (s.kernel.tasks o).effectivePriority := by
    rcases hready with rfl | hready
    · exact le_rfl
    · by_contra hlt
      have := hset c o hcurrent hrunning hready (not_le.mp hlt)
      simp [hpending] at this
  exact ⟨u, hu, hbase.le.trans (howner.trans (effectivePriority_le_of_waitsFor hs.good hb hchain))⟩

def inversionRun : List Op :=
  launch 0 1 ++ launch 1 2 ++ launch 2 3 ++
    [.task (.mutexCreate (some 0)), .start, .task (.taskDelay 1#32), .pendsv, .task (.taskDelay 2#32), .pendsv,
      .task (.mutexLock (some 0) noWait), .tick, .pendsv, .task (.mutexLock (some 0) waitForever), .pendsv,
        .tick, .pendsv]

theorem no_priority_inversion_inversionRun :
    ((exec .standard (boot .standard) inversionRun).kernel.tasks (.app 1)).state = .ready ∧
      ∃ u, WaitsThrough (exec .standard (boot .standard) inversionRun) u (.app 2) ∧
        ((exec .standard (boot .standard) inversionRun).kernel.tasks u).basePriority ≤
          ((exec .standard (boot .standard) inversionRun).kernel.tasks (.app 0)).effectivePriority :=
  ⟨by decide +kernel,
    no_priority_inversion .standard rfl inversionRun (by simp [inversionRun, launch]) (by decide +kernel)
    (.app 2) (.app 0) (.app 2) (by decide +kernel) (by decide +kernel) (by decide +kernel)
    (.single (by decide +kernel)) (Or.inl rfl)⟩

end Hairtos
