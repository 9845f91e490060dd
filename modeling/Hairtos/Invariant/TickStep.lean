import Hairtos.Invariant.Step

namespace Hairtos

open Library

def SameSuspended (k k' : Kernel) : Prop := ∀ t, (k'.tasks t).state = .suspended ↔ (k.tasks t).state = .suspended

section

variable {cfg : Config} {s s' : System} {k k' k'' : Kernel}

theorem TimerTick.kernel_cases {woken : Bool} (h : TimerTick cfg s s' woken) :
    s'.kernel = s.kernel ∧ woken = false ∨
      ∃ u, (s.kernel.tasks u).wait = some (.semaphoreTake .timerSignal) ∧ Granted cfg s.kernel u s'.kernel ∧
        woken = preemptsCurrent s.kernel u s'.kernel := by
  cases h with
  | silent timers => exact Or.inl ⟨rfl, rfl⟩
  | signals timers s' woken status heffect =>
    cases heffect with
    | served u k _ hwait hgranted => exact Or.inr ⟨u, hwait, hgranted, rfl⟩
    | counted => exact Or.inl ⟨rfl, rfl⟩
    | full => exact Or.inl ⟨rfl, rfl⟩

theorem SameSuspended.refl (k : Kernel) : SameSuspended k k := fun _ => Iff.rfl

theorem SameSuspended.trans (h : SameSuspended k k') (h' : SameSuspended k' k'') : SameSuspended k k'' :=
  fun t => (h' t).trans (h t)

theorem SameSuspended.of_states (h : ∀ t, (k'.tasks t).state = (k.tasks t).state) : SameSuspended k k' := by
  intro t
  rw [h t]

theorem Woken.sameSuspended {u : TaskRef} {result : Status} (h : Woken cfg k u result k') : SameSuspended k k' := by
  intro t
  by_cases htu : t = u
  · subst htu
    rw [h.task]
    by_cases hs : (k.tasks t).state = .suspended <;> simp [wokenBlock, hs]
  · rw [h.others t htu]

theorem Expiry.sameSuspended {order : List TaskRef} (h : Expiry cfg s order s') :
    SameSuspended s.kernel s'.kernel := by
  induction h with
  | nil => exact .refl _
  | cons w k first wait woken acts lapses balanced next ih => exact woken.sameSuspended.trans ih

theorem TimerTick.sameSuspended {woken : Bool} (h : TimerTick cfg s s' woken) :
    SameSuspended s.kernel s'.kernel := by
  rcases h.kernel_cases with ⟨hkernel, -⟩ | ⟨u, -, hgranted, -⟩
  · rw [hkernel]
    exact .refl _
  · exact hgranted.woken.sameSuspended

theorem tick_sameSuspended (h : s.Good cfg) (hq : s.kernel.Quiet) (hk : s.kernel.state = .running) :
    SameSuspended s.kernel (kernelTickFromIsr cfg s).kernel := by
  obtain ⟨tl, order, k, s₃, woken, c, hrun, he⟩ := kernelTickFromIsr_run h hq hk
  have hend := (kernelTickEnd_charged cfg s₃.kernel c woken).bookkept.taskState
  rw [he]
  exact (hrun.expiry.sameSuspended.trans hrun.timers.sameSuspended).trans (.of_states hend)

end

end Hairtos
