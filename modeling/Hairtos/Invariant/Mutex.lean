import Hairtos.Invariant.Tick
import Hairtos.Invariant.Block

namespace Hairtos

open Library

def Kernel.countOwned (k : Kernel) (t : TaskRef) (f : Nat → Nat) : Kernel :=
  k.updateTask t (fun cb => { cb with ownedMutexCount := f cb.ownedMutexCount })

def Mutexes.attach (ms : Mutexes) (m : MutexRef) (t : TaskRef) : Mutexes where
  blocks := Function.update ms.blocks m { ms.blocks m with owner := some t, recursionCount := 1 }
  owned := (listPushBack ms.owned t m).1

def Mutexes.detach (ms : Mutexes) (m : MutexRef) : Mutexes where
  blocks := Function.update ms.blocks m { ms.blocks m with owner := none, recursionCount := 0 }
  owned := ms.owned.unlink m

section

variable {cfg : Config} {k k' : Kernel} {ms : Mutexes} {m : MutexRef} {c t : TaskRef}

theorem Kernel.bookkept_countOwned (k : Kernel) (t : TaskRef) (f : Nat → Nat) : k.Bookkept (k.countOwned t f) := by
  refine ⟨rfl, ?_⟩
  intro u
  by_cases hu : u = t
  · subst hu
    simp [Kernel.countOwned, Kernel.updateTask]
  · simp [Kernel.countOwned, Kernel.updateTask, hu]

theorem Kernel.countOwned_self (f : Nat → Nat) :
    ((k.countOwned t f).tasks t).ownedMutexCount = f (k.tasks t).ownedMutexCount := by
  simp [Kernel.countOwned, Kernel.updateTask]

theorem Kernel.countOwned_of_ne (f : Nat → Nat) {u : TaskRef} (hu : u ≠ t) :
    (k.countOwned t f).tasks u = k.tasks u := by
  simp [Kernel.countOwned, Kernel.updateTask, hu]

theorem Mutexes.attach_host (hm : ms.owned.host m = none) (t : TaskRef) :
    (ms.attach m t).owned.host = Function.update ms.owned.host m (some t) := by
  simp [Mutexes.attach, listPushBack_ok _ _ _ hm]

theorem Mutexes.attach_seq (hm : ms.owned.host m = none) (t : TaskRef) :
    (ms.attach m t).owned.seq = Function.update ms.owned.seq t (ms.owned.seq t ++ [m]) := by
  simp [Mutexes.attach, listPushBack_ok _ _ _ hm]

theorem Mutexes.detach_length (hm : ms.owned.host m = some c) (u : TaskRef) :
    ((ms.detach m).owned.seq u).length = if u = c then (ms.owned.seq u).length - 1 else (ms.owned.seq u).length := by
  split_ifs with hu
  · subst hu
    exact List.length_erase_of_mem ((ms.owned.mem_seq u m).mpr hm)
  · rw [Mutexes.detach, ListFamily.unlink_seq_of_ne]
    rw [hm]
    exact fun h => hu (Option.some.inj h).symm

theorem mutexAttachOwner_eq {s : System} (ht : (s.kernel.tasks t).magic = true)
    (ho : (s.mutexes.blocks m).owner = none) (hh : s.mutexes.owned.host m = none) :
    mutexAttachOwner s m t =
      ({ s with mutexes := s.mutexes.attach m t, kernel := s.kernel.countOwned t (· + 1) }.record [.acquired m t],
        .ok) := by
  simp [mutexAttachOwner, taskIsValid, ht, ho, hh, listNodeIsLinked, listPushBack_ok _ _ _ hh, Mutexes.attach,
    Mutexes.update, Kernel.countOwned]

theorem mutexDetachOwner_eq {s : System} (own : Owners s.kernel s.mutexes) (hc : (s.kernel.tasks c).magic = true)
    (ho : (s.mutexes.blocks m).owner = some c) :
    mutexDetachOwner s m =
      ({ s with mutexes := s.mutexes.detach m, kernel := s.kernel.countOwned c (· - 1) }, some c, .ok) := by
  have hh := (own.owner m c).mp ho
  have hcount : (s.kernel.tasks c).ownedMutexCount ≠ 0 := by
    rw [own.count c]
    exact (List.length_pos_of_mem ((s.mutexes.owned.mem_seq c m).mpr hh)).ne'
  simp [mutexDetachOwner, ho, taskIsValid, hc, hh, listNodeIsLinked, hcount,
    listRemove_ok s.mutexes.owned m (by simp [hh]), Mutexes.detach, Mutexes.update, Kernel.countOwned]

theorem Ownership.reprio (own : Ownership k ms) (hr : Reprio k k') : Ownership k' ms := by
  refine own.update (fun t ht => (hr.control.registered t).trans ht) ?_ ?_
  · intro t
    rw [hr.tasks t]
  · intro t m ht
    rwa [hr.wait t] at ht

theorem Ownership.calm (own : Ownership k ms) (h : k.Calm k') : Ownership k' ms := by
  refine own.update (fun t ht => (h.bookkept.control.registered t).trans ht) ?_ ?_
  · intro t
    rw [h.tasks]
  · intro t m ht
    rwa [h.tasks] at ht

theorem mutexRecomputeTaskPriority_good (g : k.Good cfg) (own : Owners k ms) {o : TaskRef}
    (hreg : (k.view o).registered = true) (hidle : o ≠ .idle) :
    ∃ k' status, mutexRecomputeTaskPriority cfg ms (recomputeDepth cfg) k o = (k', status) ∧ k'.Good cfg ∧
      Reprio k k' ∧
      (EndsWithin (waitsFor k ms) (recomputeDepth cfg) o ∧ status = .ok ∨
        ¬ EndsWithin (waitsFor k ms) (recomputeDepth cfg) o ∧ status = .internal) ∧
      (status = .ok → ∀ t, (t ≠ o → Balanced k ms t) → Balanced k' ms t) := by
  have hm := (g.shape o).magic_of_registered hreg
  have hb := (g.shape o).urgent hreg (by simpa [Kernel.view] using hidle)
  have hi : Inherits cfg k ms := own.inherits g.toSound rfl (fun _ _ h => h)
  obtain ⟨k', status, he, hl, hr, heff, hkeep, hends, hbal⟩ :=
    mutexRecomputeTaskPriority_spec (recomputeDepth cfg) g.linked hi o hm hb
  refine ⟨k', status, he, ?_, hr, own.nextOwner g.toSound ▸ hends, hbal⟩
  apply g.reprio hl hr (fun t => heff t (g.shape t).effective)
  intro t ht
  apply hkeep t _ (own.not_owner ht)
  rintro rfl
  rcases ht with ht | ht
  · simp [ht] at hreg
  · simp [Kernel.view, hidle] at ht

structure Recomputed (cfg : Config) (ms : Mutexes) (k : Kernel) (o : TaskRef) (k' : Kernel) : Prop where
  good : k'.Good cfg
  reprio : Reprio k k'
  owners : Ownership k' ms
  balanced : ∀ t, (t ≠ o → Balanced k ms t) → Balanced k' ms t
  others : ∀ u, u ≠ o → k'.tasks u = k.tasks u
  waitLists : k.waitLists.Agrees k'.waitLists
  queues : k.Requeued (fun u => u = o ∧ (k'.tasks u).effectivePriority ≠ (k.tasks u).effectivePriority) k'

theorem mutexRecomputeTaskPriority_recomputed (g : k.Good cfg) (own : Ownership k ms) {o : TaskRef}
    (hreg : (k.view o).registered = true) (hidle : o ≠ .idle) (hw : (k.tasks o).wait = none) :
    ∃ k', mutexRecomputeTaskPriority cfg ms (recomputeDepth cfg) k o = (k', .ok) ∧ Recomputed cfg ms k o k' := by
  have hm := (g.shape o).magic_of_registered hreg
  have hb := (g.shape o).urgent hreg (by simpa [Kernel.view] using hidle)
  have hi : Inherits cfg k ms := own.inherits g.toSound rfl (fun _ _ h => h)
  obtain ⟨k', he, -, hr, htasks, hlists⟩ := kernelSetTaskEffectivePriority_spec g.linked o _ hm
    ((mutexRequiredPriority_le g.linked hi o).trans_lt hb)
  have hlast : mutexNextOwner k' ms o = none := by
    rw [hr.mutexNextOwner, own.nextOwner g.toSound]
    exact waitsFor_of_not_lock (by simp [hw])
  have heq : mutexRecomputeTaskPriority cfg ms (recomputeDepth cfg) k o = (k', .ok) := by
    simp [recomputeDepth, mutexRecomputeTaskPriority, he, hlast]
  obtain ⟨_, _, he', g', -, -, hbal⟩ := mutexRecomputeTaskPriority_good g own.toOwners hreg hidle
  obtain ⟨rfl, rfl⟩ := Prod.mk.inj (heq.symm.trans he')
  have hmoved := @kernelSetTaskEffectivePriority_requeued cfg k o (mutexRequiredPriority k ms o)
  rw [he] at hmoved
  refine ⟨k', heq, g', hr, own.reprio hr, hbal rfl, fun u hu => by rw [htasks, Function.update_of_ne hu], ?_,
    hmoved.mono ?_⟩
  · rw [hlists]
    split_ifs
    · exact .refl _
    · refine k.waitLists.agrees_move ?_ _
      have hhost : k.waitLists.lists.host o = (k.tasks o).wait.bind Wait.waitList := (g.shape o).waitHost_eq
      rw [hhost, hw]
      rfl
  · rintro u ⟨rfl, hne⟩
    rw [effectivePriority_update htasks, if_pos rfl]
    exact ⟨rfl, hne.symm⟩

theorem Balanced.congr {ms' : Mutexes} (hb : Balanced k ms t)
    (hbase : (k'.tasks t).basePriority = (k.tasks t).basePriority)
    (heff : (k'.tasks t).effectivePriority = (k.tasks t).effectivePriority)
    (hwaiters : ∀ u, (∃ m, ms'.owned.host m = some t ∧ k'.waitLists.lists.host u = some (.mutex m)) ↔
      ∃ m, ms.owned.host m = some t ∧ k.waitLists.lists.host u = some (.mutex m))
    (hprio : ∀ u m, ms.owned.host m = some t → k.waitLists.lists.host u = some (.mutex m) →
      k'.waitLists.priority u = k.waitLists.priority u) : Balanced k' ms' t := by
  have hsame : donors k' ms' t = donors k ms t := by
    ext p
    simp only [donors, hbase, Set.mem_ofPred_eq]
    refine or_congr_right ⟨?_, ?_⟩
    · rintro ⟨m, u, ho, hu, rfl⟩
      obtain ⟨m', ho', hu'⟩ := (hwaiters u).mp ⟨m, ho, hu⟩
      exact ⟨m', u, ho', hu', hprio u m' ho' hu'⟩
    · rintro ⟨m, u, ho, hu, rfl⟩
      obtain ⟨m', ho', hu'⟩ := (hwaiters u).mpr ⟨m, ho, hu⟩
      exact ⟨m', u, ho', hu', (hprio u m ho hu).symm⟩
  unfold Balanced
  rw [hsame, heff]
  exact hb

theorem Owners.host_none (own : Owners k ms) (ho : (ms.blocks m).owner = none) : ms.owned.host m = none := by
  by_contra hh
  obtain ⟨u, hu⟩ := Option.ne_none_iff_exists'.mp hh
  simp [(own.owner m u).mpr hu] at ho

theorem mutexIsValid_eq {s : System} (g : s.kernel.Good cfg) (own : Owners s.kernel s.mutexes) (m : MutexRef) :
    mutexIsValid s m = (s.mutexes.blocks m).magic := by
  cases ho : (s.mutexes.blocks m).owner with
  | none =>
    simp [mutexIsValid, ho, (own.recursion m).mpr ho, listNodeIsLinked, own.host_none ho]
  | some t =>
    have hr : (s.mutexes.blocks m).recursionCount ≠ 0 := by simp [own.recursion m, ho]
    simp [mutexIsValid, ho, taskIsValid, (own.urgent g.toSound ho).1, listNodeIsLinked, (own.owner m t).mp ho,
      Nat.pos_of_ne_zero hr]

theorem Owners.no_waiter (own : Owners k ms) (ho : (ms.blocks m).owner = none) (u : TaskRef) :
    (k.tasks u).wait ≠ some (.mutexLock m) := fun hw => (own.waited u m hw).1 ho

theorem Ownership.reassign {ms' : Mutexes} (own : Ownership k ms) (m : MutexRef)
    (hblock : ∀ n, n ≠ m → ms'.blocks n = ms.blocks n)
    (hhost : ms'.owned.host = Function.update ms.owned.host m (ms'.blocks m).owner)
    (hnew : ∀ u, (ms'.blocks m).owner = some u →
      (ms'.blocks m).magic = true ∧ (k.view u).registered = true ∧ u ≠ .idle)
    (hrec : (ms'.blocks m).recursionCount = 0 ↔ (ms'.blocks m).owner = none)
    (hregs : ∀ u, (k'.view u).registered = (k.view u).registered)
    (hcount : ∀ u, (k'.tasks u).ownedMutexCount = (ms'.owned.seq u).length)
    (hwait : ∀ v n, (k'.tasks v).wait = some (.mutexLock n) → (k.tasks v).wait = some (.mutexLock n) ∧
      (n = m → ∃ u, (ms'.blocks m).owner = some u ∧ u ≠ v ∧
        ∀ n, (k'.tasks u).wait ≠ some (.mutexLock n))) :
    Ownership k' ms' := by
  refine ⟨⟨?_, ?_, ?_, ?_, hcount, ?_⟩, ?_⟩
  · intro n u
    rw [hhost]
    by_cases hn : n = m
    · rw [hn, Function.update_self]
    · rw [hblock n hn, Function.update_of_ne hn]
      exact own.owner n u
  · intro n hn
    by_cases hnm : n = m
    · subst hnm
      obtain ⟨u, hu⟩ := Option.ne_none_iff_exists'.mp hn
      exact (hnew u hu).1
    · rw [hblock n hnm] at hn ⊢
      exact own.magic n hn
  · intro n u hu
    rw [hregs u]
    by_cases hnm : n = m
    · exact (hnew u (hnm ▸ hu)).2
    · rw [hblock n hnm] at hu
      exact own.registered n u hu
  · intro n
    by_cases hnm : n = m
    · rw [hnm]
      exact hrec
    · rw [hblock n hnm]
      exact own.recursion n
  · intro v n hw
    obtain ⟨hold, hm⟩ := hwait v n hw
    by_cases hnm : n = m
    · obtain ⟨u, hu, huv, -⟩ := hm hnm
      rw [hnm, hu]
      exact ⟨by simp, fun h => huv (Option.some.inj h)⟩
    · rw [hblock n hnm]
      exact own.waited v n hold
  · apply Ends.redirect own.ends
    intro v
    by_cases hlock : ∃ n, (k'.tasks v).wait = some (.mutexLock n)
    · obtain ⟨n, hw⟩ := hlock
      obtain ⟨hold, hm⟩ := hwait v n hw
      by_cases hnm : n = m
      · right
        obtain ⟨u, hu, -, hnone⟩ := hm hnm
        intro b hb
        rw [waitsFor_of_lock hw, hnm, hu] at hb
        exact Option.some.inj hb ▸ Ends.of_none (waitsFor_of_not_lock hnone)
      · left
        rw [waitsFor_of_lock hw, waitsFor_of_lock hold, hblock n hnm]
    · push Not at hlock
      right
      simp [waitsFor_of_not_lock hlock]

theorem Ownership.attach (own : Ownership k ms) (hm : (ms.blocks m).magic = true)
    (ho : (ms.blocks m).owner = none) (hreg : (k.view t).registered = true) (hidle : t ≠ .idle) :
    Ownership (k.countOwned t (· + 1)) (ms.attach m t) := by
  have hbook := Kernel.bookkept_countOwned k t (· + 1)
  have hh : ms.owned.host m = none := own.host_none ho
  have hself : ((ms.attach m t).blocks m).owner = some t := by simp [Mutexes.attach]
  refine own.reassign m ?_ ?_ ?_ ?_ (hbook.control.registered ·) ?_ ?_
  · intro n hn
    simp [Mutexes.attach, hn]
  · rw [Mutexes.attach_host hh, hself]
  · intro u hu
    obtain rfl : t = u := Option.some.inj (hself.symm.trans hu)
    exact ⟨by simp [Mutexes.attach, hm], hreg, hidle⟩
  · simp [Mutexes.attach]
  · intro u
    rw [Mutexes.attach_seq hh]
    by_cases hu : u = t
    · subst hu
      simp [Kernel.countOwned_self, own.count u]
    · rw [Kernel.countOwned_of_ne _ hu, Function.update_of_ne hu]
      exact own.count u
  · intro v n hw
    rw [hbook.wait v] at hw
    refine ⟨hw, ?_⟩
    rintro rfl
    exact absurd hw (own.no_waiter ho v)

end

theorem Ownership.recurse {k : Kernel} {ms : Mutexes} (own : Ownership k ms) (m : MutexRef) (f : Nat → Nat)
    (ho : (ms.blocks m).owner ≠ none) (hf : f (ms.blocks m).recursionCount ≠ 0) :
    Ownership k (ms.update m (fun cb => { cb with recursionCount := f cb.recursionCount })) := by
  have howner : ∀ n, ((ms.update m (fun cb => { cb with recursionCount := f cb.recursionCount })).blocks n).owner =
      (ms.blocks n).owner ∧
      ((ms.update m (fun cb => { cb with recursionCount := f cb.recursionCount })).blocks n).magic =
        (ms.blocks n).magic := by
    intro n
    by_cases hn : n = m <;> simp [Mutexes.update, hn]
  have hgraph : waitsFor k (ms.update m (fun cb => { cb with recursionCount := f cb.recursionCount })) =
      waitsFor k ms := by
    funext t
    unfold waitsFor
    split
    · exact (howner _).1
    · rfl
  refine ⟨⟨?_, ?_, ?_, ?_, own.count, ?_⟩, ?_⟩
  · intro n t
    rw [(howner n).1]
    exact own.owner n t
  · intro n
    rw [(howner n).1, (howner n).2]
    exact own.magic n
  · intro n t
    rw [(howner n).1]
    exact own.registered n t
  · intro n
    rw [(howner n).1]
    by_cases hn : n = m
    · subst hn
      simp [Mutexes.update, hf, ho]
    · simpa [Mutexes.update, hn] using own.recursion n
  · intro t n
    rw [(howner n).1]
    exact own.waited t n
  · rw [hgraph]
    exact own.ends

inductive LockEffect (cfg : Config) (s : System) (m : MutexRef) (timeout : Tick) : System → Outcome → Prop
  | acquired (t : TaskRef) (runs : s.kernel.Runs t) (magic : (s.mutexes.blocks m).magic = true)
      (free : (s.mutexes.blocks m).owner = none) :
      LockEffect cfg s m timeout
        ({ s with mutexes := s.mutexes.attach m t, kernel := s.kernel.countOwned t (· + 1) }.record [.acquired m t])
        (.returned .ok)
  | again (t : TaskRef) (runs : s.kernel.Runs t) (owner : (s.mutexes.blocks m).owner = some t) :
      LockEffect cfg s m timeout
        { s with mutexes := s.mutexes.update m (fun cb => { cb with recursionCount := cb.recursionCount + 1 }) }
        (.returned .ok)
  | waits (t o : TaskRef) (k : Kernel) (runs : s.kernel.Runs t) (owner : (s.mutexes.blocks m).owner = some o)
      (other : o ≠ t) (finite : timeout ≠ noWait)
      (reprio : Reprio (s.kernel.startWait cfg t (.mutexLock m) (timeoutTicks timeout)) k)
      (balanced : (∀ u, Balanced s.kernel s.mutexes u) → ∀ u, Balanced k s.mutexes u) (keeps : s.kernel.Keeps k) :
      LockEffect cfg s m timeout { s with kernel := requestContextSwitch k } .blocked
  | refused (t o : TaskRef) (k k' : Kernel) (runs : s.kernel.Runs t) (owner : (s.mutexes.blocks m).owner = some o)
      (finite : timeout ≠ noWait)
      (reprio : Reprio (s.kernel.startWait cfg t (.mutexLock m) (timeoutTicks timeout)) k)
      (woken : Woken cfg k t .internal k')
      (cycle : Relation.ReflTransGen (fun a b => waitsFor s.kernel s.mutexes a = some b) o t)
      (keeps : s.kernel.Keeps k') :
      LockEffect cfg s m timeout { s with kernel := requestContextSwitch k' } .blocked

section

variable {cfg : Config} {s : System} {m : MutexRef} {t o : TaskRef}

theorem Kernel.startWait_wait (k : Kernel) (t : TaskRef) (w : Wait) (ticks : Option Tick) (u : TaskRef) :
    ((k.startWait cfg t w ticks).tasks u).wait = if u = t then some w else (k.tasks u).wait := by
  split_ifs with hu
  · subst hu
    simp [Kernel.startWait, waitingBlock_wait]
  · simp [Kernel.startWait, hu]

theorem Owners.startWait {k : Kernel} {ms : Mutexes} (own : Owners k ms) (ticks : Option Tick)
    (ho : (ms.blocks m).owner = some o) (hne : o ≠ t) :
    Owners (k.startWait cfg t (.mutexLock m) ticks) ms := by
  refine own.update (fun _ h => h) ?_ ?_
  · intro u
    by_cases hu : u = t
    · subst hu
      simp [Kernel.startWait, waitingBlock]
    · simp [Kernel.startWait, hu]
  · intro u n hw
    rw [Kernel.startWait_wait] at hw
    split_ifs at hw with hu
    · obtain rfl : m = n := by simpa using hw
      simp [ho, hu, hne]
    · exact own.waited u n hw

theorem waitsFor_startWait (cfg : Config) (k : Kernel) (t : TaskRef) {ms : Mutexes} (ticks : Option Tick)
    (ho : (ms.blocks m).owner = some o)
    (u : TaskRef) :
    waitsFor (k.startWait cfg t (.mutexLock m) ticks) ms u = if u = t then some o else waitsFor k ms u := by
  unfold waitsFor
  rw [Kernel.startWait_wait]
  split_ifs with hu
  · exact ho
  · rfl

theorem Balanced.startWait {k : Kernel} {ms : Mutexes} (g : k.Good cfg) (own : Owners k ms)
    (hs : (k.tasks t).state = .running) (ticks : Option Tick) (ho : (ms.blocks m).owner = some o) {u : TaskRef}
    (hu : u ≠ o) (hb : Balanced k ms u) : Balanced (k.startWait cfg t (.mutexLock m) ticks) ms u := by
  obtain ⟨-, -, hwn, -⟩ := g.running_shape hs
  obtain ⟨-, hprio, hhost, -⟩ := Kernel.enterWaitList_spec g.sorted hwn (Wait.mutexLock m).waitList
  have hblock : ∀ v, ((k.startWait cfg t (.mutexLock m) ticks).tasks v).basePriority = (k.tasks v).basePriority ∧
      ((k.startWait cfg t (.mutexLock m) ticks).tasks v).effectivePriority = (k.tasks v).effectivePriority := by
    intro v
    by_cases hv : v = t
    · subst hv
      simp [Kernel.startWait, waitingBlock]
    · simp [Kernel.startWait, hv]
  refine hb.congr (hblock u).1 (hblock u).2 ?_ (fun v n _ _ => by simp [Kernel.startWait, hprio])
  intro v
  refine exists_congr fun n => and_congr_right fun hn => ?_
  simp only [Kernel.startWait, hhost]
  by_cases hv : v = t
  · subst hv
    simp only [Function.update_self, Wait.waitList, hwn, reduceCtorEq, iff_false]
    rintro ⟨⟩
    rw [← own.owner, ho] at hn
    exact hu (Option.some.inj hn).symm
  · simp [hv]

theorem timeoutTicks_spec {timeout : Tick} (h0 : timeout ≠ noWait) :
    ∀ d, timeoutTicks timeout = some d → d ≠ 0#32 ∧ d ≠ waitForever := by
  intro d hd
  unfold timeoutTicks at hd
  split_ifs at hd with hf
  obtain rfl := Option.some.inj hd
  exact ⟨h0, hf⟩

theorem startWait_recompute_requeued {timeout : Tick}
    (g1 : (s.kernel.startWait cfg t (.mutexLock m) (timeoutTicks timeout)).Good cfg)
    (own1 : Owners (s.kernel.startWait cfg t (.mutexLock m) (timeoutTicks timeout)) s.mutexes)
    (ho : (s.mutexes.blocks m).owner = some o) :
    let k2 := (mutexRecomputeTaskPriority cfg s.mutexes (recomputeDepth cfg)
      (s.kernel.startWait cfg t (.mutexLock m) (timeoutTicks timeout)) o).1
    s.kernel.Requeued (fun u => u = t ∨ (s.kernel.tasks u).isWaiting = true ∨
      (k2.tasks u).effectivePriority ≠ (s.kernel.tasks u).effectivePriority) k2 := by
  intro k2
  have hstart : s.kernel.Requeued (· = t) (s.kernel.startWait cfg t (.mutexLock m) (timeoutTicks timeout)) :=
    s.kernel.removeReady_requeued t
  obtain ⟨hm, hb⟩ := own1.urgent g1.toSound ho
  have hmoved := mutexRecomputeTaskPriority_requeued (recomputeDepth cfg) g1.linked
    (own1.inherits g1.toSound rfl (fun _ _ h => h)) hm hb
  refine (hstart.mono (fun u hu => Or.inl hu)).trans (hmoved.mono ?_)
  intro u hu
  by_cases hut : u = t
  · exact Or.inl hut
  · rw [show (s.kernel.startWait cfg t (.mutexLock m) (timeoutTicks timeout)).tasks u = s.kernel.tasks u by
      simp [Kernel.startWait, hut]] at hu
    exact Or.inr hu

theorem mutexLockWait_cases (g : s.kernel.Good cfg) (own : Ownership s.kernel s.mutexes) (hruns : s.kernel.Runs t)
    (ho : (s.mutexes.blocks m).owner = some o) (hne : o ≠ t) {timeout : Tick} (h0 : timeout ≠ noWait) :
    let k1 := s.kernel.startWait cfg t (.mutexLock m) (timeoutTicks timeout)
    let k2 := (mutexRecomputeTaskPriority cfg s.mutexes (recomputeDepth cfg) k1 o).1
    k1.Good cfg ∧ Owners k1 s.mutexes ∧ k2.Good cfg ∧ Reprio k1 k2 ∧
      (EndsWithin (waitsFor k1 s.mutexes) (recomputeDepth cfg) o ∧
          (∀ u, (u ≠ o → Balanced k1 s.mutexes u) → Balanced k2 s.mutexes u) ∧
          mutexLockWait cfg s m t timeout = ({ s with kernel := requestContextSwitch k2 }, .blocked) ∨
        ¬ EndsWithin (waitsFor k1 s.mutexes) (recomputeDepth cfg) o ∧
          ∃ k3, mutexLockWait cfg s m t timeout = ({ s with kernel := requestContextSwitch k3 }, .blocked) ∧
            k3.Sound cfg ∧ Woken cfg k2 t .internal k3 ∧
            k3.waitLists = { k2.waitLists with lists := k2.waitLists.lists.unlink t } ∧
            (∀ u, (k3.tasks u).effectivePriority = (k2.tasks u).effectivePriority) ∧ k2.Requeued (· = t) k3) := by
  intro k1 k2
  have hblock : kernelBlockCurrentOnWaitListEx cfg s.kernel (.mutex m) (.mutex m) .mutexLock none timeout
      (some .mutexWaitCleanup) = (k1, .ok) :=
    kernelBlockCurrentOnWaitListEx_eq g.toSound hruns.state hruns.current hruns.running hruns.idle
      (w := .mutexLock m) rfl h0
  have g1 : k1.Good cfg := g.startWait hruns.running hruns.idle _ _ (timeoutTicks_spec h0) (by simp)
  have own1 : Owners k1 s.mutexes := own.toOwners.startWait _ ho hne
  obtain ⟨hreg, hidle⟩ := own1.registered m o ho
  obtain ⟨k2', status, hrec, g2, hr, hends, hbal⟩ := mutexRecomputeTaskPriority_good g1 own1 hreg hidle
  obtain rfl : k2 = k2' := by simp only [k2, hrec]
  have hrec' : mutexRecomputeOwnerPriority cfg s.mutexes k1 m = (k2, status) := by
    simp [mutexRecomputeOwnerPriority, own.magic m (by simp [ho]), ho, taskIsValid, (own1.urgent g1.toSound ho).1, hrec]
  refine ⟨g1, own1, g2, hr, ?_⟩
  rcases hends with ⟨hends, rfl⟩ | ⟨hends, rfl⟩
  · exact Or.inl ⟨hends, hbal rfl, by simp [mutexLockWait, hblock, hrec']⟩
  · obtain ⟨-, -, -, htn, -⟩ := g.running_shape hruns.running
    have hw2 : (k2.tasks t).wait = some (.mutexLock m) := by
      rw [hr.wait t, Kernel.startWait_wait, if_pos rfl]
    have hx2 : k2.timeoutList.lists.host t ≠ some .expired := by
      rw [hr.timeoutList]
      exact Kernel.enterTimeout_not_expired htn _
    obtain ⟨k3, hready, g3, hwoken, heff, hlists⟩ := kernelMakeTaskReady_grant s.mutexes .internal g2.toSound
      (by simp) (by simp [hw2]) hx2
    have hqueues : k2.Requeued (· = t) k3 := by
      have hmoved := @kernelMakeTaskReady_requeued cfg s.mutexes k2 t .internal (by simp)
      rwa [hready] at hmoved
    have hm2 : (k2.tasks t).magic = true := (g2.shape t).magic_of_wait (by simp [Kernel.view, hw2])
    exact Or.inr ⟨hends, k3, by simp [mutexLockWait, hblock, hrec', kernelUnblockWaiter, taskIsValid, hm2, hready],
      g3, hwoken, hlists, heff, hqueues⟩

theorem mutexLockWait_effect (g : s.kernel.Good cfg) (own : Ownership s.kernel s.mutexes) (hruns : s.kernel.Runs t)
    (ho : (s.mutexes.blocks m).owner = some o) (hne : o ≠ t) {timeout : Tick} (h0 : timeout ≠ noWait) :
    LockEffect cfg s m timeout (mutexLockWait cfg s m t timeout).1 (mutexLockWait cfg s m t timeout).2 ∧
      (mutexLockWait cfg s m t timeout).1.kernel.Good cfg ∧
      Ownership (mutexLockWait cfg s m t timeout).1.kernel (mutexLockWait cfg s m t timeout).1.mutexes := by
  obtain ⟨g1, own1, g2, hr, hcases⟩ := mutexLockWait_cases g own hruns ho hne h0
  have hgraph := fun u => waitsFor_startWait cfg s.kernel t (timeoutTicks timeout) ho u
  have hmoved := @startWait_recompute_requeued cfg s m t o timeout g1 own1 ho
  set k1 := s.kernel.startWait cfg t (.mutexLock m) (timeoutTicks timeout)
  set k2 := (mutexRecomputeTaskPriority cfg s.mutexes (recomputeDepth cfg) k1 o).1
  rcases hcases with ⟨hends, hbal, heq⟩ | ⟨hends, k3, heq, g3, hwoken, -, heff, hqueues⟩
  · rw [heq]
    refine ⟨.waits t o k2 hruns ho hne h0 hr ?_ ?_, g2.bookkept (k2.calm_requestContextSwitch).bookkept, ?_⟩
    · intro hb u
      apply hbal
      intro hu
      exact (hb u).startWait g own.toOwners hruns.running _ ho hu
    · apply hmoved.mono
      rintro u (rfl | hu | hu)
      · right
        left
        rw [hr.tasks u, hruns.running]
        simp [k1, Kernel.startWait, waitingBlock]
      · exact Or.inl hu
      · exact Or.inr (Or.inr hu)
    · have hall : Ownership k1 s.mutexes := by
        refine ⟨own1, Ends.redirect own.ends ?_⟩
        intro u
        by_cases hu : u = t
        · right
          intro b hb
          rw [hgraph u, if_pos hu] at hb
          exact Option.some.inj hb ▸ ⟨_, hends⟩
        · left
          rw [hgraph u, if_neg hu]
      exact (hall.reprio hr).calm k2.calm_requestContextSwitch
  · -- The chain of owners does not end, and it did before the caller began to wait.
    have hcycle : Relation.ReflTransGen (fun a b => waitsFor s.kernel s.mutexes a = some b) o t := by
      by_contra hno
      apply hends
      apply EndsWithin.congr_of_not_reach (waitsFor s.kernel s.mutexes) t _ hno
      · rw [← own.nextOwner g.toSound]
        exact own.endsWithin g.toSound (own.registered m o ho).1
      · intro u hu
        rw [hgraph u, if_neg hu]
    have g3' : k3.Good cfg := hwoken.good g3 (fun u _ hu => g2.delays u hu)
    have own3 : Ownership k3 s.mutexes := by
      refine own.update ?_ ?_ ?_
      · intro u hu
        rw [hwoken.control.registered u, hr.control.registered u]
        exact hu
      · intro u
        have hcount : (k2.tasks u).ownedMutexCount = (s.kernel.tasks u).ownedMutexCount := by
          rw [hr.tasks u]
          exact (own1.count u).trans (own.count u).symm
        rw [← hcount]
        by_cases hu : u = t
        · rw [hu, hwoken.task]
          rfl
        · rw [hwoken.others u hu]
      · intro u n hw
        obtain ⟨hu, hw⟩ := hwoken.wait_eq_some hw
        rwa [hr.wait u, Kernel.startWait_wait, if_neg hu] at hw
    have hkeeps : s.kernel.Keeps k3 := by
      have hself : (k3.tasks t).state ≠ (s.kernel.tasks t).state := by
        rw [hwoken.task, hruns.running]
        simp only [wokenBlock]
        split <;> simp
      refine (hmoved.mono ?_).trans (hqueues.mono ?_)
      · rintro u (rfl | hu | hu)
        · exact Or.inr (Or.inl hself)
        · exact Or.inl hu
        · rw [← heff u] at hu
          exact Or.inr (Or.inr hu)
      · rintro u rfl
        exact Or.inr (Or.inl hself)
    rw [heq]
    exact ⟨.refused t o k2 k3 hruns ho h0 hr hwoken hcycle hkeeps, g3'.bookkept
      (k3.calm_requestContextSwitch).bookkept,
      own3.calm k3.calm_requestContextSwitch⟩

theorem mutexLock_effect (g : s.kernel.Good cfg) (own : Ownership s.kernel s.mutexes) (inIsr : Bool)
    (hcaller : inIsr = false → s.kernel.state = .running → ∃ t, s.kernel.Runs t) (mutex : Option MutexRef)
    (timeout : Tick) :
    (∃ status, status ≠ .ok ∧ status ≠ .internal ∧ mutexLock cfg s inIsr mutex timeout =
      (s, .returned status)) ∨
    ∃ m, mutex = some m ∧ inIsr = false ∧
      LockEffect cfg s m timeout (mutexLock cfg s inIsr mutex timeout).1 (mutexLock cfg s inIsr mutex timeout).2 ∧
      (mutexLock cfg s inIsr mutex timeout).1.kernel.Good cfg ∧
      Ownership (mutexLock cfg s inIsr mutex timeout).1.kernel (mutexLock cfg s inIsr mutex timeout).1.mutexes := by
  cases mutex with
  | none => exact Or.inl ⟨.invalidArgument, by simp, by simp, rfl⟩
  | some m =>
    cases hm : (s.mutexes.blocks m).magic with
    | false =>
      exact Or.inl ⟨.invalidArgument, by simp, by simp, by simp [mutexLock, mutexIsValid_eq g own.toOwners, hm]⟩
    | true =>
    cases inIsr with
    | true => exact Or.inl ⟨.fromIsr, by simp, by simp, by simp [mutexLock, mutexIsValid_eq g own.toOwners, hm]⟩
    | false =>
    by_cases hk : s.kernel.state = .running
    swap
    · exact Or.inl ⟨.invalidState, by simp, by simp, by
        simp [mutexLock, mutexIsValid_eq g own.toOwners, hm, kernelIsRunning, hk]⟩
    obtain ⟨t, hruns⟩ := hcaller rfl hk
    have hr : (s.kernel.tasks t).state.isReady = true := by simp [hruns.running, TaskState.isReady]
    have hmt : (s.kernel.tasks t).magic = true := (g.shape t).magic_of_isReady hr
    have hreg : (s.kernel.view t).registered = true := (g.shape t).registered_of_isReady hr
    have hbody : mutexLock cfg s false (some m) timeout =
        if (s.mutexes.blocks m).owner = none then
          ((mutexAttachOwner s m t).1, .returned (mutexAttachOwner s m t).2)
        else if (s.mutexes.blocks m).owner = some t then
          if !(s.mutexes.blocks m).recursive then (s, .returned .mutexBusy)
          else if (s.mutexes.blocks m).recursionCount = uint32Max then (s, .returned .overflow)
          else
            ({ s with mutexes := s.mutexes.update m (fun cb =>
                { cb with recursionCount := cb.recursionCount + 1 }) }, .returned .ok)
        else if timeout = noWait then (s, .returned .mutexBusy)
        else mutexLockWait cfg s m t timeout := by
      simp [mutexLock, mutexIsValid_eq g own.toOwners, hm, kernelIsRunning, hk, hruns.current, taskIsValid, hmt]
    rw [hbody]
    cases ho : (s.mutexes.blocks m).owner with
    | none =>
      refine Or.inr ⟨m, rfl, rfl, ?_⟩
      simp only [↓reduceIte, mutexAttachOwner_eq hmt ho (own.host_none ho)]
      exact ⟨.acquired t hruns hm ho, g.bookkept (Kernel.bookkept_countOwned _ _ _), own.attach hm ho hreg
        hruns.idle⟩
    | some o =>
      simp only [reduceCtorEq, ↓reduceIte, Option.some.injEq]
      by_cases hot : o = t
      · subst hot
        rw [if_pos rfl]
        by_cases hrec : (s.mutexes.blocks m).recursive = true
        swap
        · exact Or.inl ⟨.mutexBusy, by simp, by simp, by simp [hrec]⟩
        by_cases hmax : (s.mutexes.blocks m).recursionCount = uint32Max
        · exact Or.inl ⟨.overflow, by simp, by simp, by simp [hrec, hmax]⟩
        refine Or.inr ⟨m, rfl, trivial, ?_⟩
        simp only [hrec, hmax, Bool.not_true, Bool.false_eq_true, ↓reduceIte]
        exact ⟨.again o hruns ho, g, own.recurse m (fun n => n + 1) (by simp [ho]) (by simp)⟩
      · rw [if_neg hot]
        by_cases h0 : timeout = noWait
        · exact Or.inl ⟨.mutexBusy, by simp, by simp, by simp [h0]⟩
        · rw [if_neg h0]
          exact Or.inr ⟨m, rfl, trivial, mutexLockWait_effect g own hruns ho hot h0⟩

theorem Mutexes.detach_host (ms : Mutexes) (m : MutexRef) :
    (ms.detach m).owned.host = Function.update ms.owned.host m none := rfl

theorem Ownership.detach {k : Kernel} {ms : Mutexes} (own : Ownership k ms) (ho : (ms.blocks m).owner = some t)
    (hfree : ∀ u, (k.tasks u).wait ≠ some (.mutexLock m)) : Ownership (k.countOwned t (· - 1)) (ms.detach m) := by
  have hbook := Kernel.bookkept_countOwned k t (· - 1)
  have hself : ((ms.detach m).blocks m).owner = none := by simp [Mutexes.detach]
  refine own.reassign m ?_ ?_ ?_ ?_ (hbook.control.registered ·) ?_ ?_
  · intro n hn
    simp [Mutexes.detach, hn]
  · rw [Mutexes.detach_host, hself]
  · simp [hself]
  · simp [Mutexes.detach]
  · intro u
    rw [Mutexes.detach_length ((own.owner m t).mp ho)]
    by_cases hu : u = t
    · subst hu
      simp [Kernel.countOwned_self, own.count u]
    · rw [Kernel.countOwned_of_ne _ hu, if_neg hu]
      exact own.count u
  · intro v n hw
    rw [hbook.wait v] at hw
    refine ⟨hw, ?_⟩
    rintro rfl
    exact absurd hw (hfree v)

theorem Ownership.handOver {k k' : Kernel} {ms : Mutexes} {u : TaskRef} (own : Ownership k ms)
    (ho : (ms.blocks m).owner = some t) (hreg : (k.view u).registered = true ∧ u ≠ .idle) (hut : u ≠ t)
    (hregs : ∀ v, (k'.view v).registered = (k.view v).registered)
    (hcount : ∀ v, (k'.tasks v).ownedMutexCount =
      if v = u then (k.tasks v).ownedMutexCount + 1
      else if v = t then (k.tasks v).ownedMutexCount - 1 else (k.tasks v).ownedMutexCount)
    (hwait : ∀ v n, (k'.tasks v).wait = some (.mutexLock n) → v ≠ u ∧ (k.tasks v).wait = some (.mutexLock n)) :
    Ownership k' ((ms.detach m).attach m u) := by
  have hh : (ms.detach m).owned.host m = none := by simp [Mutexes.detach_host]
  have hself : (((ms.detach m).attach m u).blocks m).owner = some u := by simp [Mutexes.attach]
  refine own.reassign m ?_ ?_ ?_ ?_ hregs ?_ ?_
  · intro n hn
    simp [Mutexes.attach, Mutexes.detach, hn]
  · rw [Mutexes.attach_host hh, Mutexes.detach_host, hself, Function.update_idem]
  · intro v hv
    obtain rfl : u = v := Option.some.inj (hself.symm.trans hv)
    exact ⟨by simpa [Mutexes.attach, Mutexes.detach] using own.magic m (by simp [ho]), hreg⟩
  · simp [Mutexes.attach]
  · intro v
    rw [Mutexes.attach_seq hh, hcount v]
    have hlen := Mutexes.detach_length ((own.owner m t).mp ho)
    by_cases hv : v = u
    · subst hv
      simp [hlen, hut, own.count v]
    · rw [if_neg hv, Function.update_of_ne hv, hlen, own.count v]
  · intro v n hw
    obtain ⟨hvu, hold⟩ := hwait v n hw
    exact ⟨hold, fun _ => ⟨u, hself, hvu.symm, fun n hn => (hwait u n hn).1 rfl⟩⟩

end

inductive UnlockEffect (cfg : Config) (s : System) (m : MutexRef) (t : TaskRef) : System → Prop
  | again (nested : 1 < (s.mutexes.blocks m).recursionCount) :
      UnlockEffect cfg s m t
        { s with mutexes := s.mutexes.update m (fun cb => { cb with recursionCount := cb.recursionCount - 1 }) }
  | freed (k k' : Kernel) (unwanted : ∀ u, (s.kernel.tasks u).wait ≠ some (.mutexLock m))
      (reprio : Reprio (s.kernel.countOwned t (· - 1)) k) (calm : k.Calm k')
      (pends : kernelCurrentShouldPreempt cfg k = true → k'.pendSvPending = true)
      (balanced : (∀ u, Balanced s.kernel s.mutexes u) → ∀ u, Balanced k' (s.mutexes.detach m) u)
      (waitLists : s.kernel.waitLists.Agrees k'.waitLists) (keeps : s.kernel.Keeps k')
      (effective : ∀ v, v ≠ t → (k'.tasks v).effectivePriority = (s.kernel.tasks v).effectivePriority)
      (requests : k'.pendSvPending = true → s.kernel.pendSvPending = true ∨ kernelCurrentShouldPreempt cfg k = true)
      (last : ¬ ((s.mutexes.blocks m).recursive = true ∧ 1 < (s.mutexes.blocks m).recursionCount)) :
      UnlockEffect cfg s m t { s with mutexes := s.mutexes.detach m, kernel := k' }
  | handed (u : TaskRef) (k k' k'' : Kernel)
      (first : waitListPeek s.kernel.waitLists (.mutex m) = some u)
      (wait : (s.kernel.tasks u).wait = some (.mutexLock m))
      (woken : Woken cfg ((s.kernel.countOwned t (· - 1)).countOwned u (· + 1)) u .ok k)
      (reprio : Reprio k k') (calm : k'.Calm k'')
      (pends : kernelCurrentShouldPreempt cfg k' = true → k''.pendSvPending = true)
      (balanced : (∀ v, Balanced s.kernel s.mutexes v) → ∀ v, Balanced k'' ((s.mutexes.detach m).attach m u) v)
      (waitLists : WaitLists.Agrees { s.kernel.waitLists with lists := s.kernel.waitLists.lists.unlink u }
        k''.waitLists)
      (keeps : s.kernel.Keeps k'')
      (effective : ∀ v, v ≠ t → v ≠ u → (k''.tasks v).effectivePriority =
        (s.kernel.tasks v).effectivePriority)
      (requests : k''.pendSvPending = true → s.kernel.pendSvPending = true ∨
        ((s.kernel.tasks u).state ≠ .suspended ∧ (s.kernel.tasks u).effectivePriority <
          (s.kernel.tasks t).effectivePriority) ∨
        kernelCurrentShouldPreempt cfg k' = true)
      (last : ¬ ((s.mutexes.blocks m).recursive = true ∧ 1 < (s.mutexes.blocks m).recursionCount)) :
      UnlockEffect cfg s m t
        ({ s with mutexes := (s.mutexes.detach m).attach m u, kernel := k'' }.record [.acquired m u])

section

variable {cfg : Config} {s : System} {m : MutexRef} {t : TaskRef}

theorem Kernel.Sound.wait_of_runs {k : Kernel} (g : k.Sound cfg) (hruns : k.Runs t) : (k.tasks t).wait = none :=
  (g.shape t).wait_none_of_isReady (by simp [TaskState.isReady, Kernel.view, hruns.running])

theorem Balanced.detach {k k' : Kernel} {ms : Mutexes} (g : k.Good cfg) (hbook : k.Bookkept k')
    (hfree : ∀ u, (k.tasks u).wait ≠ some (.mutexLock m)) {u : TaskRef} (hb : Balanced k ms u) :
    Balanced k' (ms.detach m) u := by
  have hwaits : k'.waitLists = k.waitLists := by rw [hbook.frame]
  refine hb.congr (by rw [hbook.tasks u]) (by rw [hbook.tasks u]) ?_ (fun _ _ _ _ => by rw [hwaits])
  intro v
  refine exists_congr fun n => ?_
  rw [hwaits, Mutexes.detach_host]
  by_cases hn : n = m
  · subst hn
    have hv : k.waitLists.lists.host v ≠ some (.mutex n) := fun h => hfree v ((g.shape v).wait_of_waitHost h)
    simp [hv]
  · rw [Function.update_of_ne hn]

theorem Kernel.calm_ite (k : Kernel) (b : Bool) : k.Calm (if b then requestContextSwitch k else k) := by
  cases b
  · exact Kernel.Calm.refl k
  · exact k.calm_requestContextSwitch

theorem Kernel.pends_ite {k : Kernel} {b : Bool}
    (h : (if b then requestContextSwitch k else k).pendSvPending = true) : k.pendSvPending = true ∨ b = true := by
  cases b
  · exact Or.inl h
  · exact Or.inr rfl

theorem mutexRelease_freed (g : s.kernel.Good cfg) (own : Ownership s.kernel s.mutexes) (hruns : s.kernel.Runs t)
    (ho : (s.mutexes.blocks m).owner = some t)
    (hlast : ¬ ((s.mutexes.blocks m).recursive = true ∧ 1 < (s.mutexes.blocks m).recursionCount))
    (hpeek : waitListPeek s.kernel.waitLists (.mutex m) = none) :
    UnlockEffect cfg s m t (mutexRelease cfg s m).1 ∧ (mutexRelease cfg s m).2 = .ok ∧
      (mutexRelease cfg s m).1.kernel.Good cfg ∧
      Ownership (mutexRelease cfg s m).1.kernel (mutexRelease cfg s m).1.mutexes := by
  have hfree : ∀ u, (s.kernel.tasks u).wait ≠ some (.mutexLock m) := by
    intro u hw
    have hhost : s.kernel.waitLists.lists.host u = some (.mutex m) := by
      have h := (g.shape u).waitHost_eq
      rwa [show (s.kernel.view u).cb.wait = some (.mutexLock m) from hw] at h
    have hmem := (s.kernel.waitLists.lists.mem_seq _ _).mpr hhost
    rw [(waitListPeek_eq_none _ _).mp hpeek] at hmem
    simp at hmem
  obtain ⟨hreg, hidle⟩ := own.registered m t ho
  have hbook := Kernel.bookkept_countOwned s.kernel t (· - 1)
  have g1 := g.bookkept hbook
  have own1 := own.detach ho hfree
  obtain ⟨k2, hrec, h2⟩ :=
    mutexRecomputeTaskPriority_recomputed g1 own1 ((hbook.control.registered t).trans hreg) hidle
    ((hbook.wait t).trans (g.wait_of_runs hruns))
  have hcalm := k2.calm_ite (kernelCurrentShouldPreempt cfg k2)
  have heq : mutexRelease cfg s m =
      ({ s with
          mutexes := s.mutexes.detach m
          kernel := if kernelCurrentShouldPreempt cfg k2 then requestContextSwitch k2 else k2 }, .ok) := by
    simp [mutexRelease, hpeek, mutexDetachOwner_eq own.toOwners (own.urgent g.toSound ho).1 ho,
      mutexRecomputeAfterUnlock, hrec]
  rw [heq]
  refine ⟨.freed k2 _ hfree h2.reprio hcalm ?_ ?_ ?_ ?_ ?_ ?_ hlast, rfl, h2.good.bookkept hcalm.bookkept,
    h2.owners.calm hcalm⟩
  · intro hp
    simp [hp, requestContextSwitch]
  · intro hb u
    exact (h2.balanced u (fun _ => (hb u).detach g hbook hfree)).congr (by rw [hcalm.tasks]) (by rw [hcalm.tasks])
      (fun _ => by rw [hcalm.frame]) (fun _ _ _ _ => by rw [hcalm.frame])
  · rw [hcalm.frame]
    exact h2.waitLists
  · refine Kernel.Requeued.trans (h2.queues.mono ?_) (.of_eq (by rw [hcalm.frame]))
    rintro u ⟨-, hu⟩
    rw [hbook.tasks u] at hu
    rw [hcalm.tasks]
    exact Or.inr (Or.inr hu)
  · intro v hv
    rw [hcalm.tasks, h2.others v hv, hbook.tasks v]
  · have hpends : k2.pendSvPending = s.kernel.pendSvPending := by
      rw [h2.reprio.frame]
      rfl
    exact hpends ▸ Kernel.pends_ite

theorem Balanced.handOver {k kc k' : Kernel} {ms : Mutexes} {u v : TaskRef} (g : k.Good cfg) (g' : k'.Sound cfg)
    (own : Owners k ms) (ho : (ms.blocks m).owner = some t) (hw : (k.tasks u).wait = some (.mutexLock m))
    (hbook : k.Bookkept kc) (hwoken : Woken cfg kc u .ok k')
    (heff : ∀ x, (k'.tasks x).effectivePriority = (kc.tasks x).effectivePriority) (hvt : v ≠ t) (hvu : v ≠ u)
    (hb : Balanced k ms v) : Balanced k' ((ms.detach m).attach m u) v := by
  have heff' : ∀ x, (k'.tasks x).effectivePriority = (k.tasks x).effectivePriority := by
    intro x
    rw [heff x, hbook.tasks x]
  have hwaits : kc.waitLists = k.waitLists := by rw [hbook.frame]
  have hbase : (k'.tasks v).basePriority = (k.tasks v).basePriority := by
    rw [hwoken.others v hvu, hbook.tasks v]
  have hhost : k.waitLists.lists.host u = some (.mutex m) := by
    have h := (g.shape u).waitHost_eq
    rwa [show (k.view u).cb.wait = some (.mutexLock m) from hw] at h
  have hh : (ms.detach m).owned.host m = none := by simp [Mutexes.detach_host]
  refine hb.congr hbase (heff' v) ?_ ?_
  · intro x
    refine exists_congr fun n => ?_
    rw [Mutexes.attach_host hh, Mutexes.detach_host, hwoken.waitHost, hwaits]
    by_cases hn : n = m
    · subst hn
      have hold : ms.owned.host n ≠ some v := by
        rw [(own.owner n t).mp ho]
        exact fun h => hvt (Option.some.inj h).symm
      simp [hold, Ne.symm hvu]
    · rw [Function.update_of_ne hn, Function.update_of_ne hn]
      by_cases hx : x = u
      · subst hx
        simp [hhost, Ne.symm hn]
      · rw [Function.update_of_ne hx]
  · intro x n _ hx
    have hxw := (g.shape x).wait_of_waitHost hx
    have hm : (k.tasks x).magic = true := (g.shape x).magic_of_wait (by simp [hxw])
    have hm' : (k'.tasks x).magic = true := by
      by_cases hxu : x = u
      · rw [hxu, hwoken.task]
        simp only [wokenBlock]
        rw [hbook.tasks u]
        exact hxu ▸ hm
      · rw [hwoken.others x hxu, hbook.tasks x]
        exact hm
    have h1 : k.waitLists.priority x = (k.tasks x).effectivePriority := ((g.shape x).agree hm).2
    have h2 : k'.waitLists.priority x = (k'.tasks x).effectivePriority := ((g'.shape x).agree hm').2
    rw [h1, h2, heff' x]

theorem Woken.handOver {k k' : Kernel} {ms : Mutexes} {u : TaskRef}
    (hwoken : Woken cfg ((k.countOwned t (· - 1)).countOwned u (· + 1)) u .ok k') (own : Ownership k ms)
    (ho : (ms.blocks m).owner = some t) (hreg : (k.view u).registered = true ∧ u ≠ .idle) (hut : u ≠ t) :
    Ownership k' ((ms.detach m).attach m u) := by
  have hbook : k.Bookkept ((k.countOwned t (· - 1)).countOwned u (· + 1)) :=
    (Kernel.bookkept_countOwned _ _ _).trans (Kernel.bookkept_countOwned _ _ _)
  refine own.handOver ho hreg hut (fun v => (hwoken.control.registered v).trans (hbook.control.registered v)) ?_ ?_
  · intro v
    by_cases hv : v = u
    · subst hv
      rw [hwoken.task]
      simp [wokenBlock, Kernel.countOwned_self, Kernel.countOwned_of_ne _ hut]
    · rw [hwoken.others v hv, if_neg hv, Kernel.countOwned_of_ne _ hv]
      by_cases hvt : v = t
      · simp [hvt, Kernel.countOwned_self]
      · rw [if_neg hvt, Kernel.countOwned_of_ne _ hvt]
  · intro v n hv
    obtain ⟨hvu, hv⟩ := hwoken.wait_eq_some hv
    exact ⟨hvu, (hbook.wait v).symm.trans hv⟩

theorem mutexRelease_granted (g : s.kernel.Good cfg) (own : Ownership s.kernel s.mutexes)
    (ho : (s.mutexes.blocks m).owner = some t) {u : TaskRef} (hu : (s.kernel.tasks u).magic = true)
    (hpeek : waitListPeek s.kernel.waitLists (.mutex m) = some u) {ms : Mutexes}
    (hms : ms = (s.mutexes.detach m).attach m u)
    {k₁ k₂ k₃ : Kernel} {woken : Bool}
    (hready : kernelMakeTaskReady cfg ms ((s.kernel.countOwned t (· - 1)).countOwned u (· + 1)) u .ok =
      (k₁, woken, .ok))
    (hold : mutexRecomputeTaskPriority cfg ms (recomputeDepth cfg) k₁ t = (k₂, .ok))
    (hnew : mutexRecomputeTaskPriority cfg ms (recomputeDepth cfg) k₂ u = (k₃, .ok)) :
    mutexRelease cfg s m =
      ({ s with
          mutexes := ms
          kernel := if woken || kernelCurrentShouldPreempt cfg k₃ then requestContextSwitch k₃ else k₃ }.record
        [.acquired m u], .ok) := by
  subst hms
  have hu₁ : ((s.kernel.countOwned t (· - 1)).tasks u).magic = true := by
    rw [(Kernel.bookkept_countOwned _ _ _).tasks u]
    exact hu
  have hu₂ : (((s.kernel.countOwned t (· - 1)).countOwned u (· + 1)).tasks u).magic = true := by
    rw [(Kernel.bookkept_countOwned _ _ _).tasks u]
    exact hu₁
  have hattach := mutexAttachOwner_eq (m := m) (t := u)
    (s := { s with mutexes := s.mutexes.detach m, kernel := s.kernel.countOwned t (· - 1) })
    hu₁ (by simp [Mutexes.detach]) (by simp [Mutexes.detach_host])
  simp only [mutexRelease, hpeek, Option.any_some, taskIsValid, hu, Bool.not_true, Bool.false_eq_true, ↓reduceIte,
    mutexDetachOwner_eq own.toOwners (own.urgent g.toSound ho).1 ho, ne_eq, not_true_eq_false, hattach,
    System.unblock, System.record, kernelUnblockWaiter, hu₂, hready, mutexRecomputeAfterUnlock, hold, hnew,
    decide_true, Bool.true_and]

theorem mutexRelease_handed (g : s.kernel.Good cfg) (own : Ownership s.kernel s.mutexes) (hruns : s.kernel.Runs t)
    (ho : (s.mutexes.blocks m).owner = some t)
    (hlast : ¬ ((s.mutexes.blocks m).recursive = true ∧ 1 < (s.mutexes.blocks m).recursionCount)) {u : TaskRef}
    (hpeek : waitListPeek s.kernel.waitLists (.mutex m) = some u)
    (hx : s.kernel.timeoutList.lists.host u ≠ some .expired) :
    UnlockEffect cfg s m t (mutexRelease cfg s m).1 ∧ (mutexRelease cfg s m).2 = .ok ∧
      (mutexRelease cfg s m).1.kernel.Good cfg ∧
      Ownership (mutexRelease cfg s m).1.kernel (mutexRelease cfg s m).1.mutexes := by
  have hw : (s.kernel.tasks u).wait = some (.mutexLock m) := (g.shape u).wait_of_waitHost (waitListPeek_host _ hpeek)
  have hwv : (s.kernel.view u).cb.wait ≠ none := by simp [Kernel.view, hw]
  have hregu := (g.shape u).registered_of_wait hwv
  have hidleu : u ≠ .idle := by simpa [Kernel.view] using (g.shape u).not_idle_of_wait hwv
  have hmu : (s.kernel.tasks u).magic = true := (g.shape u).magic_of_wait hwv
  have hut : u ≠ t := by
    rintro rfl
    exact (own.waited u m hw).2 ho
  obtain ⟨hreg, hidle⟩ := own.registered m t ho
  let kc := (s.kernel.countOwned t (· - 1)).countOwned u (· + 1)
  have hbook : s.kernel.Bookkept kc := (Kernel.bookkept_countOwned _ _ _).trans (Kernel.bookkept_countOwned _ _ _)
  have gc := g.bookkept hbook
  have hwc : (kc.tasks u).wait = some (.mutexLock m) := (hbook.wait u).trans hw
  let ms' := (s.mutexes.detach m).attach m u
  obtain ⟨k2, hready, g2, hwoken, heff, hlists⟩ := kernelMakeTaskReady_grant ms' .ok (t := u) gc.toSound
    (by simp) (by simp [hwc]) (by rw [hbook.frame]; exact hx)
  have g2' : k2.Good cfg := hwoken.good g2 (fun v _ hv => gc.delays v hv)
  have hregs : ∀ v, (k2.view v).registered = (s.kernel.view v).registered :=
    fun v => (hwoken.control.registered v).trans (hbook.control.registered v)
  have own2 : Ownership k2 ms' := hwoken.handOver own ho ⟨hregu, hidleu⟩ hut
  -- Neither the old nor the new owner waits for anything, so that each recomputation ends with its task.
  have hwt : (k2.tasks t).wait = none :=
    (hwoken.wait_of_ne hut.symm).trans ((hbook.wait t).trans (g.wait_of_runs hruns))
  obtain ⟨k3, hrec3, h3⟩ := mutexRecomputeTaskPriority_recomputed g2' own2 ((hregs t).trans hreg) hidle hwt
  obtain ⟨k4, hrec4, h4⟩ := mutexRecomputeTaskPriority_recomputed h3.good h3.owners (o := u)
    ((h3.reprio.control.registered u).trans ((hregs u).trans hregu)) hidleu
    ((h3.reprio.wait u).trans hwoken.wait_none)
  have hr := h3.reprio.trans h4.reprio
  have heff2 : ∀ v, (k2.tasks v).effectivePriority = (s.kernel.tasks v).effectivePriority := by
    intro v
    rw [heff v, hbook.tasks v]
  let woken := decide ((kc.tasks u).state ≠ .suspended) && kernelOutranksCurrent k2 u
  have hcalm := k4.calm_ite (woken || kernelCurrentShouldPreempt cfg k4)
  rw [mutexRelease_granted g own ho hmu hpeek rfl hready hrec3 hrec4]
  refine ⟨.handed u k2 k4 _ hpeek hw hwoken hr hcalm ?_ ?_ ?_ ?_ ?_ ?_ hlast, rfl, h4.good.bookkept hcalm.bookkept,
    h4.owners.calm hcalm⟩
  · intro hp
    simp [hp, requestContextSwitch]
  · intro hb v
    have hb4 := h4.balanced v (fun hvu => h3.balanced v (fun hvt =>
      (hb v).handOver g g2 own.toOwners ho hw hbook hwoken heff hvt hvu))
    exact hb4.congr (by rw [hcalm.tasks]) (by rw [hcalm.tasks]) (fun _ => by rw [hcalm.frame])
      (fun _ _ _ _ => by rw [hcalm.frame])
  · have hagrees := h3.waitLists.trans h4.waitLists
    rw [hlists] at hagrees
    rw [hcalm.frame]
    exact hagrees
  · have hwaitu : (s.kernel.tasks u).isWaiting = true := (g.shape u).waiting.mp hwv
    have hmoved2 := @kernelMakeTaskReady_requeued cfg ms' kc u .ok (by simp)
    rw [hready] at hmoved2
    refine Kernel.Requeued.trans (hmoved2.mono ?_)
      (((h3.queues.mono ?_).trans (h4.queues.mono ?_)).trans (.of_eq (by rw [hcalm.frame])))
    · rintro v rfl
      exact Or.inl hwaitu
    · rintro v ⟨rfl, hv⟩
      rw [hcalm.tasks, h4.others v hut.symm]
      rw [heff2 v] at hv
      exact Or.inr (Or.inr hv)
    · rintro v ⟨rfl, -⟩
      exact Or.inl hwaitu
  · intro v hvt hvu
    rw [hcalm.tasks, h4.others v hvu, h3.others v hvt, heff2 v]
  · have hpends : k4.pendSvPending = s.kernel.pendSvPending := by
      rw [hr.frame, hwoken.frame]
      rfl
    have hcurrent : k2.currentTask = some t := by
      rw [hwoken.frame]
      exact hruns.current
    have houtranks : woken = true → (s.kernel.tasks u).state ≠ .suspended ∧
        (s.kernel.tasks u).effectivePriority < (s.kernel.tasks t).effectivePriority := by
      simp only [woken, kernelOutranksCurrent, hcurrent, Bool.and_eq_true, decide_eq_true_eq, heff2]
      rintro ⟨hs, -, hlt⟩
      exact ⟨by rwa [hbook.taskState] at hs, hlt⟩
    intro hp
    rcases Kernel.pends_ite hp with hp | hp
    · exact Or.inl (hpends ▸ hp)
    · exact Or.inr ((Bool.or_eq_true _ _ ▸ hp).imp houtranks id)

theorem mutexUnlock_effect (g : s.kernel.Good cfg) (own : Ownership s.kernel s.mutexes) (inIsr : Bool)
    (hcaller : inIsr = false → s.kernel.state = .running → ∃ t, s.kernel.Runs t) (mutex : Option MutexRef)
    (hfresh : ∀ m u, mutex = some m → inIsr = false → mutexIsValid s m = true →
      waitListPeek s.kernel.waitLists (.mutex m) = some u → s.kernel.timeoutList.lists.host u ≠ some .expired) :
    (∃ status, status ≠ .ok ∧ mutexUnlock cfg s inIsr mutex = (s, status)) ∨
    ∃ m t, mutex = some m ∧ inIsr = false ∧ s.kernel.Runs t ∧ (s.mutexes.blocks m).owner = some t ∧
      UnlockEffect cfg s m t (mutexUnlock cfg s inIsr mutex).1 ∧ (mutexUnlock cfg s inIsr mutex).2 = .ok ∧
      (mutexUnlock cfg s inIsr mutex).1.kernel.Good cfg ∧
      Ownership (mutexUnlock cfg s inIsr mutex).1.kernel (mutexUnlock cfg s inIsr mutex).1.mutexes := by
  cases mutex with
  | none => exact Or.inl ⟨.invalidArgument, by simp, rfl⟩
  | some m =>
    cases hm : (s.mutexes.blocks m).magic with
    | false => exact Or.inl ⟨.invalidArgument, by simp, by simp [mutexUnlock, mutexIsValid_eq g own.toOwners, hm]⟩
    | true =>
    cases inIsr with
    | true => exact Or.inl ⟨.fromIsr, by simp, by simp [mutexUnlock, mutexIsValid_eq g own.toOwners, hm]⟩
    | false =>
    rcases g.booted with hk | hk
    · exact Or.inl ⟨.invalidState, by simp, by
        simp [mutexUnlock, mutexIsValid_eq g own.toOwners, hm, g.unstarted hk]⟩
    obtain ⟨t, hruns⟩ := hcaller rfl hk
    have hmt : (s.kernel.tasks t).magic = true :=
      (g.shape t).magic_of_isReady (by simp [Kernel.view, hruns.running, TaskState.isReady])
    by_cases ho : (s.mutexes.blocks m).owner = some t
    swap
    · exact Or.inl ⟨.notOwner, by simp, by
        simp [mutexUnlock, mutexIsValid_eq g own.toOwners, hm, hruns.current, taskIsValid, hmt, ho]⟩
    refine Or.inr ⟨m, t, rfl, rfl, hruns, ho, ?_⟩
    by_cases hnested : (s.mutexes.blocks m).recursive = true ∧ 1 < (s.mutexes.blocks m).recursionCount
    · have heq : mutexUnlock cfg s false (some m) =
          ({ s with mutexes := s.mutexes.update m (fun cb => { cb with recursionCount := cb.recursionCount - 1 }) },
            .ok) := by
        simp [mutexUnlock, mutexIsValid_eq g own.toOwners, hm, hruns.current, taskIsValid, hmt, ho, hnested]
      rw [heq]
      exact ⟨.again hnested.2, rfl, g, own.recurse m (fun n => n - 1) (by simp [ho]) (by omega)⟩
    · have heq : mutexUnlock cfg s false (some m) = mutexRelease cfg s m := by
        simp [mutexUnlock, mutexIsValid_eq g own.toOwners, hm, hruns.current, taskIsValid, hmt, ho, hnested]
      rw [heq]
      cases hpeek : waitListPeek s.kernel.waitLists (.mutex m) with
      | none => exact mutexRelease_freed g own hruns ho hnested hpeek
      | some u =>
        exact mutexRelease_handed g own hruns ho hnested hpeek
          (hfresh m u rfl rfl ((mutexIsValid_eq g own.toOwners m).trans hm) hpeek)

end

end Hairtos
