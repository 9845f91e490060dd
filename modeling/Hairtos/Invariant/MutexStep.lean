import Hairtos.Invariant.Run

namespace Hairtos

open Library

def Op.locks (cfg : Config) (s : System) (m : MutexRef) : Op → Bool
  | .task (.mutexLock n timeout) =>
    canCall s && decide (n = some m) && decide ((mutexLock cfg s false n timeout).2 = .returned .ok)
  | _ => false

def Op.unlocks (cfg : Config) (s : System) (m : MutexRef) : Op → Bool
  | .task (.mutexUnlock n) => canCall s && decide (n = some m) && decide ((mutexUnlock cfg s false n).2 = .ok)
  | _ => false

inductive MutexStep (cfg : Config) (s : System) (m : MutexRef) (op : Op) (s' : System) : Prop
  | kept (locks : op.locks cfg s m = false) (unlocks : op.unlocks cfg s m = false)
      (blocks : s'.mutexes.blocks m = s.mutexes.blocks m)
  | created (recursive : Bool) (locks : op.locks cfg s m = false) (unlocks : op.unlocks cfg s m = false)
      (fresh : (s.mutexes.blocks m).magic = false)
      (blocks : s'.mutexes.blocks m = { magic := true, recursive := recursive })
  | acquired (t : TaskRef) (runs : s.kernel.Runs t) (locks : op.locks cfg s m = true)
      (unlocks : op.unlocks cfg s m = false) (magic : (s.mutexes.blocks m).magic = true)
      (free : (s.mutexes.blocks m).owner = none)
      (blocks : s'.mutexes.blocks m = { s.mutexes.blocks m with owner := some t, recursionCount := 1 })
  | again (t : TaskRef) (runs : s.kernel.Runs t) (locks : op.locks cfg s m = true)
      (unlocks : op.unlocks cfg s m = false) (owner : (s.mutexes.blocks m).owner = some t)
      (recursive : (s.mutexes.blocks m).recursive = true)
      (bounded : (s.mutexes.blocks m).recursionCount ≠ uint32Max)
      (blocks : s'.mutexes.blocks m =
        { s.mutexes.blocks m with recursionCount := (s.mutexes.blocks m).recursionCount + 1 })
  | nested (t : TaskRef) (runs : s.kernel.Runs t) (locks : op.locks cfg s m = false)
      (unlocks : op.unlocks cfg s m = true) (owner : (s.mutexes.blocks m).owner = some t)
      (many : 1 < (s.mutexes.blocks m).recursionCount)
      (blocks : s'.mutexes.blocks m =
        { s.mutexes.blocks m with recursionCount := (s.mutexes.blocks m).recursionCount - 1 })
  | freed (t : TaskRef) (runs : s.kernel.Runs t) (locks : op.locks cfg s m = false)
      (unlocks : op.unlocks cfg s m = true) (owner : (s.mutexes.blocks m).owner = some t)
      (final : ¬ ((s.mutexes.blocks m).recursive = true ∧ 1 < (s.mutexes.blocks m).recursionCount))
      (unwanted : waitListPeek s.kernel.waitLists (.mutex m) = none)
      (blocks : s'.mutexes.blocks m = { s.mutexes.blocks m with owner := none, recursionCount := 0 })
  | handed (t u : TaskRef) (runs : s.kernel.Runs t) (locks : op.locks cfg s m = false)
      (unlocks : op.unlocks cfg s m = true) (owner : (s.mutexes.blocks m).owner = some t)
      (final : ¬ ((s.mutexes.blocks m).recursive = true ∧ 1 < (s.mutexes.blocks m).recursionCount))
      (first : waitListPeek s.kernel.waitLists (.mutex m) = some u)
      (ends : WaitEnds s.kernel u (.mutexLock m) .ok s'.kernel)
      (blocks : s'.mutexes.blocks m = { s.mutexes.blocks m with owner := some u, recursionCount := 1 })

section

variable {cfg : Config} {s s' : System} {m : MutexRef}

theorem Bringup.mutexes (h : Relation.ReflTransGen (Bringup cfg) s s') : s'.mutexes = s.mutexes := by
  induction h with
  | refl => rfl
  | tail _ hlast ih => cases hlast <;> exact ih

theorem ServiceEffect.mutexes (h : ServiceEffect cfg s s') : s'.mutexes = s.mutexes := by
  cases h with
  | takes s₁ outcome phase _ _ _ heffect => cases heffect <;> rfl
  | _ => rfl

theorem TimerTick.mutexes {woken : Bool} (h : TimerTick cfg s s' woken) : s'.mutexes = s.mutexes := by
  cases h with
  | silent => rfl
  | signals timers s' woken status heffect => cases heffect <;> rfl

def KeptOrCreated (s s' : System) (m : MutexRef) : Prop :=
  s'.mutexes.blocks m = s.mutexes.blocks m ∨
    (s.mutexes.blocks m).magic = false ∧ ∃ recursive, s'.mutexes.blocks m =
    { magic := true, recursive := recursive }

theorem KeptOrCreated.mutexStep (h : KeptOrCreated s s' m) {op : Op} (hlocks : op.locks cfg s m = false)
    (hunlocks : op.unlocks cfg s m = false) : MutexStep cfg s m op s' := by
  rcases h with hkept | ⟨hfresh, recursive, hblocks⟩
  · exact .kept hlocks hunlocks hkept
  · exact .created recursive hlocks hunlocks hfresh hblocks

theorem CallEffect.keptOrCreated {inIsr : Bool} {c : Call} {r : CallResult} (he : CallEffect cfg s inIsr c r)
    (hlock : inIsr = false → ∀ n timeout, c ≠ .mutexLock n timeout) (hunlock : inIsr = false →
      ∀ n, c ≠ .mutexUnlock n) :
    KeptOrCreated s r.system m := by
  cases he with
  | send q b timeout r _ _ heffect => exact Or.inl (congrArg (·.blocks m) heffect.mutexes)
  | receive q b timeout r _ _ heffect => exact Or.inl (congrArg (·.blocks m) heffect.mutexes)
  | sendFromIsr q b r _ _ heffect => exact Or.inl (congrArg (·.blocks m) heffect.mutexes)
  | receiveFromIsr q b r _ _ heffect => exact Or.inl (congrArg (·.blocks m) heffect.mutexes)
  | take n timeout s₁ outcome _ _ heffect => cases heffect <;> exact Or.inl rfl
  | give n s₁ woken status _ _ heffect => cases heffect <;> exact Or.inl rfl
  | giveFromIsr n s₁ woken status _ _ heffect => cases heffect <;> exact Or.inl rfl
  | createMutex _ n recursive _ hfresh =>
    by_cases hmn : m = n
    · subst hmn
      exact Or.inr ⟨hfresh, recursive, by simp [Mutexes.update]⟩
    · exact Or.inl (by simp [Mutexes.update, hmn])
  | lock n timeout s₁ outcome hisr => exact absurd rfl (hlock hisr _ _)
  | unlock n t s₁ hisr => exact absurd rfl (hunlock hisr _)
  | createTimer t name period autoReload callback s₁ status hpath =>
    exact Or.inl (congrArg (·.blocks m) (Bringup.mutexes hpath))
  | _ => exact Or.inl rfl

theorem mutexLock_again {t : TaskRef} {timeout : Tick} (hruns : s.kernel.Runs t)
    (ho : (s.mutexes.blocks m).owner = some t) (hok : (mutexLock cfg s false (some m) timeout).2 = .returned .ok) :
    (s.mutexes.blocks m).recursive = true ∧ (s.mutexes.blocks m).recursionCount ≠ uint32Max := by
  unfold mutexLock at hok
  simp only [hruns.current, ho, reduceCtorEq, ↓reduceIte] at hok
  split_ifs at hok with hv hk ht hrec hmax
  all_goals first
    | exact ⟨by simpa using hrec, hmax⟩
    | simp at hok

theorem LockEffect.mutexStep {n : MutexRef} {timeout : Tick} {outcome : Outcome}
    (h : LockEffect cfg s n timeout s' outcome) (hc : canCall s = true)
    (he : mutexLock cfg s false (some n) timeout = (s', outcome)) :
    MutexStep cfg s m (.task (.mutexLock (some n) timeout)) s' := by
  have hlocks : (Op.task (.mutexLock (some n) timeout)).locks cfg s m =
      (decide (n = m) && decide (outcome = .returned .ok)) := by
    simp [Op.locks, hc, he]
  by_cases hmn : n = m
  swap
  · have hfalse : (Op.task (.mutexLock (some n) timeout)).locks cfg s m = false := by simp [hlocks, hmn]
    cases h with
    | acquired => exact .kept hfalse rfl (by simp [System.record, Mutexes.attach, Ne.symm hmn])
    | again => exact .kept hfalse rfl (by simp [Mutexes.update, Ne.symm hmn])
    | waits => exact .kept hfalse rfl rfl
    | refused => exact .kept hfalse rfl rfl
  subst hmn
  cases h with
  | acquired t hruns hm hfree =>
    exact .acquired t hruns (by simp [hlocks]) rfl hm hfree (by simp [System.record, Mutexes.attach])
  | again t hruns howner =>
    obtain ⟨hrec, hmax⟩ := mutexLock_again hruns howner (congrArg Prod.snd he)
    exact .again t hruns (by simp [hlocks]) rfl howner hrec hmax (by simp [Mutexes.update])
  | waits => exact .kept (by simp [hlocks]) rfl rfl
  | refused => exact .kept (by simp [hlocks]) rfl rfl

theorem mutexUnlock_nested {t : TaskRef} (hs : s.Steady cfg) (hruns : s.kernel.Runs t)
    (ho : (s.mutexes.blocks m).owner = some t)
    (hmany : (s.mutexes.blocks m).recursive = true ∧ 1 < (s.mutexes.blocks m).recursionCount) :
    ((mutexUnlock cfg s false (some m)).1.mutexes.blocks m).owner = some t := by
  have hm : (s.mutexes.blocks m).magic = true := hs.good.owners.magic m (by simp [ho])
  have hmt : (s.kernel.tasks t).magic = true :=
    (hs.good.kernel.shape t).magic_of_isReady (by simp [Kernel.view, hruns.running, TaskState.isReady])
  simp [mutexUnlock, mutexIsValid_eq hs.good.kernel hs.good.owners.toOwners, hm, hruns.current, taskIsValid, hmt, ho,
    hmany, Mutexes.update]

theorem UnlockEffect.mutexStep {n : MutexRef} {t : TaskRef} (h : UnlockEffect cfg s n t s') (hs : s.Steady cfg)
    (hc : canCall s = true) (hruns : s.kernel.Runs t) (howner : (s.mutexes.blocks n).owner = some t)
    (he : mutexUnlock cfg s false (some n) = (s', .ok)) : MutexStep cfg s m (.task (.mutexUnlock (some n))) s' := by
  have hunlocks : (Op.task (.mutexUnlock (some n))).unlocks cfg s m = decide (n = m) := by
    simp [Op.unlocks, hc, he]
  have hnested := fun hmany => @mutexUnlock_nested cfg s n t hs hruns howner hmany
  rw [he] at hnested
  by_cases hmn : n = m
  swap
  · have hfalse : (Op.task (.mutexUnlock (some n))).unlocks cfg s m = false := by simp [hunlocks, hmn]
    cases h with
    | again => exact .kept rfl hfalse (by simp [Mutexes.update, Ne.symm hmn])
    | freed => exact .kept rfl hfalse (by simp [Mutexes.detach, Ne.symm hmn])
    | handed => exact .kept rfl hfalse (by simp [System.record, Mutexes.attach, Mutexes.detach, Ne.symm hmn])
  subst hmn
  rw [decide_eq_true rfl] at hunlocks
  cases h with
  | again hmany => exact .nested t hruns rfl hunlocks howner hmany (by simp [Mutexes.update])
  | freed k k' hunwanted =>
    refine .freed t hruns rfl hunlocks howner (fun hmany => ?_) ?_ (by simp [Mutexes.detach])
    · simpa [Mutexes.detach] using hnested hmany
    · rw [waitListPeek_eq_none, List.eq_nil_iff_forall_not_mem]
      intro u hu
      have hhost := (s.kernel.waitLists.lists.mem_seq _ u).mp hu
      exact hunwanted u ((hs.good.kernel.shape u).wait_of_waitHost hhost)
  | handed u k k' k'' hfirst hwait hwoken hreprio hcalm =>
    refine .handed t u hruns rfl hunlocks howner (fun hmany => ?_) hfirst
      (handed_waitEnds hwait hwoken hreprio hcalm) (by simp [System.record, Mutexes.attach, Mutexes.detach])
    have hut : u = t := by simpa [System.record, Mutexes.attach, Mutexes.detach] using hnested hmany
    subst hut
    exact (hs.good.owners.waited u n hwait).2 howner

theorem task_mutexStep (hs : s.Steady cfg) (m : MutexRef) {c : Call} {r : CallResult} (hcan : canCall s = true)
    (heq : call cfg s false c = r) (he : CallEffect cfg s false c r) : MutexStep cfg s m (.task c) r.system := by
  by_cases hlock : ∃ n timeout, c = .mutexLock n timeout
  · obtain ⟨n, timeout, rfl⟩ := hlock
    have hsystem : (mutexLock cfg s false n timeout).1 = r.system := congrArg CallResult.system heq
    have houtcome : (mutexLock cfg s false n timeout).2 = r.outcome := congrArg CallResult.outcome heq
    cases he with
    | refused _ status hne => exact .kept (by simp [Op.locks, houtcome, hne]) rfl rfl
    | lock n _ s₁ outcome _ heffect => exact heffect.mutexStep hcan (Prod.ext hsystem houtcome)
    | control => exact .kept (by simp_all [Call.usesTimer]) rfl rfl
    | _ => simp_all
  by_cases hunlock : ∃ n, c = .mutexUnlock n
  · obtain ⟨n, rfl⟩ := hunlock
    have hsystem : (mutexUnlock cfg s false n).1 = r.system := congrArg CallResult.system heq
    have houtcome : Outcome.returned (mutexUnlock cfg s false n).2 = r.outcome := congrArg CallResult.outcome heq
    cases he with
    | refused _ status hne => exact .kept rfl (by simp [Op.unlocks, Outcome.returned.inj houtcome, hne]) rfl
    | unlock n t s₁ _ hruns howner heffect =>
      exact heffect.mutexStep hs hcan hruns howner (Prod.ext hsystem (Outcome.returned.inj houtcome))
    | control => exact .kept rfl (by simp_all [Call.usesTimer]) rfl
    | _ => simp_all
  · have hkept : KeptOrCreated s r.system m :=
      he.keptOrCreated (fun _ n timeout hc => hlock ⟨n, timeout, hc⟩) (fun _ n hc => hunlock ⟨n, hc⟩)
    refine hkept.mutexStep ?_ ?_
    · cases c <;> first | rfl | simp at hlock
    · cases c <;> first | rfl | simp at hunlock

theorem step_mutexStep (hs : s.Steady cfg) (m : MutexRef) (op : Op) : MutexStep cfg s m op (step cfg s op) := by
  have he := step_effect hs.good hs.quiet op
  generalize step cfg s op = s' at he ⊢
  cases he with
  | noTask c hcan =>
    refine .kept ?_ ?_ rfl
    · cases c <;> simp [Op.locks, hcan]
    · cases c <;> simp [Op.unlocks, hcan]
  | task c r hcan heq _ heffect => exact task_mutexStep hs m hcan heq heffect
  | isr c honoured r k _ _ heffect =>
    have hkept : KeptOrCreated s { r.system with kernel := k } m := heffect.keptOrCreated (by simp) (by simp)
    exact hkept.mutexStep rfl rfl
  | service s' _ _ heffect => exact .kept rfl rfl (by rw [heffect.mutexes])
  | tick tl order k s₃ woken c hrun => exact .kept rfl rfl (congrArg (·.blocks m) hrun.timers.mutexes)
  | _ => exact .kept rfl rfl rfl

end

end Hairtos
