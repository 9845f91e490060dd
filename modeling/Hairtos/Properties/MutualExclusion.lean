import Hairtos.Invariant.MutexStep

namespace Hairtos

open Library

structure Counted (cb : MutexControlBlock) : Prop where
  bounded : cb.recursionCount ≤ uint32Max
  plain : cb.recursive = false → cb.recursionCount ≤ 1

structure TakesFree (cfg : Config) (s : System) (m : MutexRef) (op : Op) : Prop where
  locks : op.locks cfg s m = true
  free : (s.mutexes.blocks m).owner = none
  owner : ((step cfg s op).mutexes.blocks m).owner = s.kernel.currentTask

structure FinalUnlock (cfg : Config) (s : System) (m : MutexRef) (op : Op) : Prop where
  unlocks : op.unlocks cfg s m = true
  owner : (s.mutexes.blocks m).owner = s.kernel.currentTask
  last : (s.mutexes.blocks m).recursionCount = 1
  next : ((step cfg s op).mutexes.blocks m).owner = (s.kernel.waitLists.lists.seq (.mutex m)).head?
  granted : ∀ u, ((step cfg s op).mutexes.blocks m).owner = some u →
    (s.kernel.tasks u).wait = some (.mutexLock m) ∧ ((step cfg s op).kernel.tasks u).wait = none ∧
      ((step cfg s op).kernel.tasks u).waitResult = .ok

def lockedBy (cfg : Config) (m : MutexRef) (t : TaskRef) (s : System) (op : Op) : Nat :=
  if op.locks cfg s m && s.kernel.currentTask = some t then 1 else 0

def unlockedBy (cfg : Config) (m : MutexRef) (t : TaskRef) (s : System) (op : Op) : Nat :=
  if op.unlocks cfg s m && s.kernel.currentTask = some t then 1 else 0

def Holds (cfg : Config) (m : MutexRef) (t : TaskRef) (s : System) (ops : List Op) : Prop :=
  ∀ us vs, ops = us ++ vs → ((exec cfg s us).mutexes.blocks m).owner = some t

section

variable {cfg : Config} {s s' : System} {m : MutexRef} {t : TaskRef} {op : Op}

theorem MutexStep.counted (h : MutexStep cfg s m op s') (hc : Counted (s.mutexes.blocks m)) :
    Counted (s'.mutexes.blocks m) := by
  cases h with
  | kept _ _ hblocks =>
    rw [hblocks]
    exact hc
  | created recursive _ _ _ hblocks =>
    rw [hblocks]
    exact ⟨Nat.zero_le _, fun _ => Nat.zero_le _⟩
  | acquired t _ _ _ _ _ hblocks =>
    rw [hblocks]
    exact ⟨show 1 ≤ uint32Max by decide, fun _ => le_rfl⟩
  | again t _ _ _ _ hrec hmax hblocks =>
    rw [hblocks]
    refine ⟨?_, fun hplain => by simp [hrec] at hplain⟩
    have := hc.bounded
    exact Nat.lt_of_le_of_ne this hmax
  | nested t _ _ _ _ _ hblocks =>
    rw [hblocks]
    exact ⟨(Nat.sub_le _ _).trans hc.bounded, fun hplain => (Nat.sub_le _ _).trans (hc.plain hplain)⟩
  | freed t _ _ _ _ _ _ hblocks =>
    rw [hblocks]
    exact ⟨Nat.zero_le _, fun _ => Nat.zero_le _⟩
  | handed t u _ _ _ _ _ _ _ hblocks =>
    rw [hblocks]
    exact ⟨show 1 ≤ uint32Max by decide, fun _ => le_rfl⟩

theorem exec_counted (hs : s.Steady cfg) (hc : Counted (s.mutexes.blocks m)) (ops : List Op) :
    Counted ((exec cfg s ops).mutexes.blocks m) := by
  induction ops generalizing s with
  | nil => exact hc
  | cons op ops ih => exact ih (hs.step op) ((step_mutexStep hs m op).counted hc)

theorem MutexStep.magic (h : MutexStep cfg s m op s') (hm : (s.mutexes.blocks m).magic = true) :
    (s'.mutexes.blocks m).magic = true := by
  cases h with
  | created recursive _ _ hfresh => simp [hm] at hfresh
  | kept _ _ hblocks => rwa [hblocks]
  | acquired t _ _ _ _ _ hblocks => rwa [hblocks]
  | again t _ _ _ _ _ _ hblocks => rwa [hblocks]
  | nested t _ _ _ _ _ hblocks => rwa [hblocks]
  | freed t _ _ _ _ _ _ hblocks => rwa [hblocks]
  | handed t u _ _ _ _ _ _ _ hblocks => rwa [hblocks]

theorem exec_mutex_magic (hs : s.Steady cfg) (hm : (s.mutexes.blocks m).magic = true) (ops : List Op) :
    ((exec cfg s ops).mutexes.blocks m).magic = true := by
  induction ops generalizing s with
  | nil => exact hm
  | cons op ops ih => exact ih (hs.step op) ((step_mutexStep hs m op).magic hm)

theorem Counted.last (hc : Counted (s.mutexes.blocks m)) (own : Owners s.kernel s.mutexes)
    (ho : (s.mutexes.blocks m).owner = some t)
    (hfinal : ¬ ((s.mutexes.blocks m).recursive = true ∧ 1 < (s.mutexes.blocks m).recursionCount)) :
    (s.mutexes.blocks m).recursionCount = 1 := by
  have hne : (s.mutexes.blocks m).recursionCount ≠ 0 := by simp [own.recursion m, ho]
  cases hrec : (s.mutexes.blocks m).recursive with
  | true =>
    rw [hrec] at hfinal
    simp only [true_and, not_lt] at hfinal
    omega
  | false =>
    have := hc.plain hrec
    omega

theorem owner_changes (hs : s.Steady cfg) (hc : Counted (s.mutexes.blocks m))
    (hne : ((step cfg s op).mutexes.blocks m).owner ≠ (s.mutexes.blocks m).owner) :
    TakesFree cfg s m op ∨ FinalUnlock cfg s m op := by
  have own := hs.good.owners.toOwners
  cases step_mutexStep hs m op with
  | kept _ _ hblocks => simp [hblocks] at hne
  | created recursive _ _ hfresh hblocks =>
    have hnone : (s.mutexes.blocks m).owner = none := by
      by_contra ho
      simp [own.magic m ho] at hfresh
    simp [hblocks, hnone] at hne
  | acquired t hruns hlocks _ _ hfree hblocks =>
    exact Or.inl ⟨hlocks, hfree, by rw [hblocks, hruns.current]⟩
  | again t _ _ _ _ _ _ hblocks => simp [hblocks] at hne
  | nested t _ _ _ _ _ hblocks => simp [hblocks] at hne
  | freed t hruns _ hunlocks howner hfinal hunwanted hblocks =>
    refine Or.inr ⟨hunlocks, howner.trans hruns.current.symm, hc.last own howner hfinal, ?_, ?_⟩
    · rw [hblocks, (waitListPeek_eq_none _ _).mp hunwanted]
      rfl
    · simp [hblocks]
  | handed t u hruns _ hunlocks howner hfinal hfirst hends hblocks =>
    refine Or.inr ⟨hunlocks, howner.trans hruns.current.symm, hc.last own howner hfinal, ?_, ?_⟩
    · obtain ⟨rest, hseq⟩ := (waitListPeek_eq_some _ _ _).mp hfirst
      rw [hblocks, hseq]
      rfl
    · intro v hv
      rw [hblocks] at hv
      obtain rfl := Option.some.inj hv
      exact ⟨hends.wait, hends.done, hends.waitResult⟩

theorem recursionCount_of_acquired (hs : s.Steady cfg) (hbefore : (s.mutexes.blocks m).owner ≠ some t)
    (hafter : ((step cfg s op).mutexes.blocks m).owner = some t) :
    ((step cfg s op).mutexes.blocks m).recursionCount = 1 := by
  cases step_mutexStep hs m op with
  | kept _ _ hblocks => exact absurd (hblocks ▸ hafter) hbefore
  | created recursive _ _ _ hblocks => simp [hblocks] at hafter
  | acquired u _ _ _ _ _ hblocks => rw [hblocks]
  | again u _ _ _ _ _ _ hblocks =>
    rw [hblocks] at hafter
    exact absurd hafter hbefore
  | nested u _ _ _ _ _ hblocks =>
    rw [hblocks] at hafter
    exact absurd hafter hbefore
  | freed u _ _ _ _ _ _ hblocks => simp [hblocks] at hafter
  | handed u v _ _ _ _ _ _ _ hblocks => rw [hblocks]

theorem recursionCount_step (hs : s.Steady cfg) (hbefore : (s.mutexes.blocks m).owner = some t)
    (hafter : ((step cfg s op).mutexes.blocks m).owner = some t) :
    ((step cfg s op).mutexes.blocks m).recursionCount + unlockedBy cfg m t s op =
      (s.mutexes.blocks m).recursionCount + lockedBy cfg m t s op := by
  have own := hs.good.owners.toOwners
  cases step_mutexStep hs m op with
  | kept hlocks hunlocks hblocks => simp [lockedBy, unlockedBy, hlocks, hunlocks, hblocks]
  | created recursive _ _ hfresh => simp [own.magic m (by simp [hbefore])] at hfresh
  | acquired u _ _ _ _ hfree => simp [hbefore] at hfree
  | again u hruns hlocks hunlocks howner _ _ hblocks =>
    obtain rfl := Option.some.inj (howner.symm.trans hbefore)
    simp [lockedBy, unlockedBy, hlocks, hunlocks, hblocks, hruns.current]
  | nested u hruns hlocks hunlocks howner hmany hblocks =>
    obtain rfl := Option.some.inj (howner.symm.trans hbefore)
    simp only [lockedBy, unlockedBy, hlocks, hunlocks, hblocks, hruns.current, decide_true, Bool.and_true, ↓reduceIte,
      Bool.false_eq_true]
    omega
  | freed u _ _ _ _ _ _ hblocks => simp [hblocks] at hafter
  | handed u v _ _ _ _ _ _ hends hblocks =>
    -- The next owner waits for the mutex, so that it is not the owner already.
    rw [hblocks] at hafter
    obtain rfl := Option.some.inj hafter
    exact absurd hbefore (own.waited v m hends.wait).2

theorem holds_iff {ops : List Op} :
    Holds cfg m t s ops ↔ ∀ n < ops.length + 1, ((exec cfg s (ops.take n)).mutexes.blocks m).owner = some t := by
  constructor
  · intro h n _
    exact h (ops.take n) (ops.drop n) (List.take_append_drop n ops).symm
  · rintro h us vs rfl
    have hlen : us.length < (us ++ vs).length + 1 := by
      rw [List.length_append]
      omega
    have hus := h us.length hlen
    rwa [List.take_left] at hus

instance decidableHolds (cfg : Config) (m : MutexRef) (t : TaskRef) (s : System) (ops : List Op) :
    Decidable (Holds cfg m t s ops) :=
  decidable_of_iff _ holds_iff.symm

theorem Holds.tail {ops : List Op} (h : Holds cfg m t s (op :: ops)) : Holds cfg m t (step cfg s op) ops :=
  fun us vs he => h (op :: us) vs (by rw [he]; rfl)

theorem recursionCount_exec (hs : s.Steady cfg) {ops : List Op} (h : Holds cfg m t s ops) :
    ((exec cfg s ops).mutexes.blocks m).recursionCount + tally cfg (unlockedBy cfg m t) s ops =
      (s.mutexes.blocks m).recursionCount + tally cfg (lockedBy cfg m t) s ops := by
  induction ops generalizing s with
  | nil => rfl
  | cons op ops ih =>
    have hone := recursionCount_step hs (h [] (op :: ops) rfl) (h [op] ops rfl)
    have hrest := ih (hs.step op) h.tail
    rw [show exec cfg s (op :: ops) = exec cfg (step cfg s op) ops from rfl]
    simp only [tally]
    omega

theorem mutexLock_overflow (hs : s.Steady cfg) (hc : canCall s = true) (hcurrent : s.kernel.currentTask = some t)
    (ho : (s.mutexes.blocks m).owner = some t) (hrec : (s.mutexes.blocks m).recursive = true)
    (hmax : (s.mutexes.blocks m).recursionCount = uint32Max) (timeout : Tick) :
    call cfg s false (.mutexLock (some m) timeout) = ⟨s, .returned .overflow, false⟩ := by
  have hruns := (called_of_canCall hs.good hc).runs hs.good t hcurrent
  have hm : (s.mutexes.blocks m).magic = true := hs.good.owners.magic m (by simp [ho])
  have hmt : (s.kernel.tasks t).magic = true :=
    (hs.good.kernel.shape t).magic_of_isReady (by simp [Kernel.view, hruns.running, TaskState.isReady])
  simp [call, outcomeResult, mutexLock, mutexIsValid_eq hs.good.kernel hs.good.owners.toOwners, hm, kernelIsRunning,
    hruns.state, hcurrent, taskIsValid, hmt, ho, hrec, hmax]

theorem linked_iff (own : Owners s.kernel s.mutexes) (m : MutexRef) :
    listNodeIsLinked s.mutexes.owned m = false ↔ (s.mutexes.blocks m).owner = none := by
  rw [← Bool.not_eq_true, listNodeIsLinked_iff, not_not]
  constructor
  · intro hnone
    by_contra ho
    obtain ⟨t, ht⟩ := Option.ne_none_iff_exists'.mp ho
    simp [(own.owner m t).mp ht] at hnone
  · exact own.host_none

end

theorem mutex_ownership {cfg : Config} {s : System} (hr : Reachable cfg s) :
    (∀ m t, m ∈ s.mutexes.owned.seq t ↔ (s.mutexes.blocks m).owner = some t) ∧
    (∀ m t u, m ∈ s.mutexes.owned.seq t → m ∈ s.mutexes.owned.seq u → t = u) ∧
    (∀ t, (s.mutexes.owned.seq t).Nodup ∧ (s.kernel.tasks t).ownedMutexCount = (s.mutexes.owned.seq t).length) ∧
    (∀ m, ((s.mutexes.blocks m).owner = none ↔ (s.mutexes.blocks m).recursionCount = 0) ∧
      ((s.mutexes.blocks m).owner = none ↔ listNodeIsLinked s.mutexes.owned m = false)) ∧
    (∀ m, mutexIsValid s m = true → ∀ ops, mutexIsValid (exec cfg s ops) m = true) ∧
    (∀ m, (s.mutexes.blocks m).recursive = false → (s.mutexes.blocks m).recursionCount ≤ 1) ∧
    (∀ op m, ((step cfg s op).mutexes.blocks m).owner ≠ (s.mutexes.blocks m).owner →
      TakesFree cfg s m op ∨ FinalUnlock cfg s m op) ∧
    (∀ op m t ops, (s.mutexes.blocks m).owner ≠ some t → Holds cfg m t (step cfg s op) ops →
      ((exec cfg (step cfg s op) ops).mutexes.blocks m).recursionCount +
          tally cfg (unlockedBy cfg m t) (step cfg s op) ops =
        1 + tally cfg (lockedBy cfg m t) (step cfg s op) ops) ∧
    (∀ m, (s.mutexes.blocks m).recursionCount ≤ uint32Max) ∧
    ∀ m t timeout, canCall s = true → s.kernel.currentTask = some t → (s.mutexes.blocks m).owner = some t →
      (s.mutexes.blocks m).recursive = true → (s.mutexes.blocks m).recursionCount = uint32Max →
      call cfg s false (.mutexLock (some m) timeout) = ⟨s, .returned .overflow, false⟩ := by
  have hs := reachable_steady hr
  have own := hs.good.owners.toOwners
  have hmem : ∀ m t, m ∈ s.mutexes.owned.seq t ↔ (s.mutexes.blocks m).owner = some t := fun m t => by
    rw [s.mutexes.owned.mem_seq, own.owner]
  have hcounted : ∀ m, Counted (s.mutexes.blocks m) := by
    obtain ⟨ops, rfl⟩ := hr
    intro m
    refine exec_counted (boot_steady cfg) ?_ ops
    have hzero : ((boot cfg).mutexes.blocks m).recursionCount = 0 := by rw [boot_eq]; rfl
    exact ⟨by simp [hzero], fun _ => by simp [hzero]⟩
  refine ⟨hmem, fun m t u ht hu => ?_, fun t => ⟨s.mutexes.owned.nodup t, own.count t⟩,
    fun m => ⟨(own.recursion m).symm, (linked_iff own m).symm⟩, fun m hv ops => ?_, fun m => (hcounted m).plain,
    fun op m => owner_changes hs (hcounted m), fun op m t ops hbefore hholds => ?_, fun m => (hcounted m).bounded,
    fun m t timeout hc hcurrent ho hrec hmax => mutexLock_overflow hs hc hcurrent ho hrec hmax timeout⟩
  · exact Option.some.inj (((hmem m t).mp ht).symm.trans ((hmem m u).mp hu))
  · have hs' := hs.exec ops
    rw [mutexIsValid_eq hs.good.kernel own] at hv
    rw [mutexIsValid_eq hs'.good.kernel hs'.good.owners.toOwners]
    exact exec_mutex_magic hs hv ops
  · rw [recursionCount_exec (hs.step op) hholds, recursionCount_of_acquired hs hbefore (hholds [] ops rfl)]

def reentryRun : List Op := launch 0 1 ++ [.task (.mutexCreateRecursive (some 0)), .start]

def reentryRest : List Op :=
  [.task (.mutexLock (some 0) noWait), .task (.mutexLock (some 0) noWait), .task (.mutexUnlock (some 0))]

theorem mutex_ownership_reentryRun :
    let s := step .standard (exec .standard (boot .standard) reentryRun) (.task (.mutexLock (some 0) noWait))
    tally .standard (lockedBy .standard 0 (.app 0)) s reentryRest = 2 ∧
      tally .standard (unlockedBy .standard 0 (.app 0)) s reentryRest = 1 ∧
      ((exec .standard s reentryRest).mutexes.blocks 0).recursionCount +
          tally .standard (unlockedBy .standard 0 (.app 0)) s reentryRest =
        1 + tally .standard (lockedBy .standard 0 (.app 0)) s reentryRest := by
  obtain ⟨-, -, -, -, -, -, -, hledger, -, -⟩ := @mutex_ownership .standard _ ⟨reentryRun, rfl⟩
  refine ⟨by decide +kernel, by decide +kernel, ?_⟩
  exact hledger (.task (.mutexLock (some 0) noWait)) 0 (.app 0) reentryRest (by decide +kernel) (by decide +kernel)

end Hairtos
