import Hairtos.Invariant.TickStep
import Hairtos.Invariant.Frame

namespace Hairtos

open Library

variable {timeout : Tick} {n : Nat} {inIsr : Bool} {c : Call}

def Event.concerns (x : SemaphoreRef) : Event → Bool
  | .created y _ => y = x
  | .given y => y = x
  | .taken y _ => y = x
  | _ => false

structure Spared (x : SemaphoreRef) (s s' : System) : Prop where
  semaphore : s'.semaphores x = s.semaphores x
  events : s'.history.filter (Event.concerns x) = s.history.filter (Event.concerns x)

def Call.semaphore : Call → Option Nat
  | .semaphoreCreateCounting x _ _ => x
  | .semaphoreCreateBinary x _ => x
  | .semaphoreTake x _ => x
  | .semaphoreGive x => x
  | .semaphoreGiveFromIsr x => x
  | _ => none

def Call.gives (n : Nat) (inIsr : Bool) : Call → Bool
  | .semaphoreGive x => !inIsr && decide (x = some n)
  | .semaphoreGiveFromIsr x => inIsr && decide (x = some n)
  | _ => false

def Call.takes (n : Nat) (inIsr : Bool) : Call → Bool
  | .semaphoreTake x _ => !inIsr && decide (x = some n)
  | _ => false

def Op.returnsOk (cfg : Config) (s : System) (p : Bool → Call → Bool) : Op → Bool
  | .task c => canCall s && p false c && decide ((call cfg s false c).outcome = .returned .ok)
  | .isr c _ =>
    decide (s.kernel.state ≠ .panic) && p true c && decide ((call cfg s true c).outcome = .returned .ok)
  | _ => false

inductive SemaphoreStep (cfg : Config) (s : System) (n : Nat) (op : Op) : System → Prop
  | spared {s' : System} (spared : Spared (.app n) s s') (gives : op.returnsOk cfg s (Call.gives n) = false)
      (takes : op.returnsOk cfg s (Call.takes n) = false) : SemaphoreStep cfg s n op s'
  | give (s₁ : System) (woken : Bool) (status : Status) (k : Kernel)
    (effect : GiveEffect cfg s (.app n) s₁ woken status)
      (calm : s₁.kernel.Calm k) (gives : op.returnsOk cfg s (Call.gives n) = decide (status = .ok))
      (takes : op.returnsOk cfg s (Call.takes n) = false) : SemaphoreStep cfg s n op { s₁ with kernel := k }
  | take (timeout : Tick) (caller : Option TaskRef) (s₁ : System) (outcome : Outcome)
      (effect : TakeEffect cfg s (.app n) timeout caller s₁ outcome)
      (gives : op.returnsOk cfg s (Call.gives n) = false)
      (takes : op.returnsOk cfg s (Call.takes n) = decide (outcome = .returned .ok)) : SemaphoreStep cfg s n op s₁

section

variable {cfg : Config} {s s' s'' : System} {x : SemaphoreRef}

theorem Spared.refl (x : SemaphoreRef) (s : System) : Spared x s s := ⟨rfl, rfl⟩

theorem Spared.trans (h : Spared x s s') (h' : Spared x s' s'') : Spared x s s'' :=
  ⟨h'.semaphore.trans h.semaphore, h'.events.trans h.events⟩

theorem Spared.of_eq (hsemaphore : s'.semaphores x = s.semaphores x) (hhistory : s'.history = s.history) :
    Spared x s s' :=
  ⟨hsemaphore, by rw [hhistory]⟩

theorem Spared.of_history {events : List Event} (hsemaphore : s'.semaphores x = s.semaphores x)
    (hhistory : s'.history = s.history ++ events) (hevents : events.filter (Event.concerns x) = []) : Spared x s s' :=
  ⟨hsemaphore, by rw [hhistory, List.filter_append, hevents, List.append_nil]⟩

theorem GiveEffect.spared {y : SemaphoreRef} {woken : Bool} {status : Status} (h : GiveEffect cfg s y s' woken status)
    (hne : y ≠ x) : Spared x s s' := by
  cases h with
  | served u k => exact .of_history rfl rfl (by simp [Event.concerns, hne])
  | counted => exact .of_history (Function.update_of_ne hne.symm ..) rfl (by simp [Event.concerns, hne])
  | full => exact .refl x s

theorem TakeEffect.spared {y : SemaphoreRef} {caller : Option TaskRef} {outcome : Outcome}
    (h : TakeEffect cfg s y timeout caller s' outcome) (hne : y ≠ x) : Spared x s s' := by
  cases h with
  | counted => exact .of_history (Function.update_of_ne hne.symm ..) rfl (by simp [Event.concerns, hne])
  | waits t => exact .of_eq rfl rfl

theorem SendEffect.spared {q : QueueRef} {item : BufferRef} {sender : Option TaskRef}
    {r : QueueResult} (h : SendEffect cfg s q item timeout sender r) : Spared x s r.system := by
  cases h with
  | served u b k => exact .of_history rfl rfl (by simp [Event.concerns])
  | stored => exact .of_history rfl rfl (by simp [Event.concerns])
  | waits t => exact .of_eq rfl rfl
  | full => exact .refl x s

theorem ReceiveEffect.spared {q : QueueRef} {item : BufferRef} {receiver : Option TaskRef}
    {r : QueueResult} (h : ReceiveEffect cfg s q item timeout receiver r) : Spared x s r.system := by
  cases h with
  | taken => exact .of_history rfl rfl (by simp [Event.concerns])
  | refilled u b k => exact .of_history rfl (List.append_assoc ..) (by simp [Event.concerns])
  | direct u b k => exact .of_history rfl rfl (by simp [Event.concerns])
  | waits t => exact .of_eq rfl rfl
  | empty => exact .refl x s

theorem LockEffect.spared {m : MutexRef} {outcome : Outcome}
    (h : LockEffect cfg s m timeout s' outcome) : Spared x s s' := by
  cases h with
  | acquired => exact .of_history rfl rfl (by simp [Event.concerns])
  | _ => exact .of_eq rfl rfl

theorem UnlockEffect.spared {m : MutexRef} {t : TaskRef} (h : UnlockEffect cfg s m t s') : Spared x s s' := by
  cases h with
  | handed => exact .of_history rfl rfl (by simp [Event.concerns])
  | _ => exact .of_eq rfl rfl

theorem TimerTick.spared {woken : Bool} (h : TimerTick cfg s s' woken) : Spared (.app n) s s' := by
  cases h with
  | silent timers => exact .of_eq rfl rfl
  | signals timers _ _ status effect =>
    have hgive : Spared (.app n) { s with timers := timers } s' := effect.spared (by simp)
    exact ⟨hgive.semaphore, hgive.events⟩

theorem Bringup.spared (n : Nat) (h : Relation.ReflTransGen (Bringup cfg) s s') : Spared (.app n) s s' := by
  induction h with
  | refl => exact .refl _ s
  | tail _ hlast ih =>
    refine ih.trans ?_
    cases hlast with
    | signal =>
      exact .of_history (by simp [System.signalled, System.record, System.updateSemaphore]) rfl
        (by simp [Event.concerns])
    | _ => exact .of_eq rfl rfl

theorem CallEffect.spared {r : CallResult} (he : CallEffect cfg s inIsr c r)
    (hc : c.semaphore ≠ some n) : Spared (.app n) s r.system := by
  have hname : ∀ {m : Nat}, c.semaphore = some m → SemaphoreRef.app m ≠ .app n := by
    rintro m hm ⟨⟩
    exact hc hm
  cases he with
  | send q b timeout r _ _ heffect => exact heffect.spared.trans (.of_eq rfl rfl)
  | receive q b timeout r _ _ heffect => exact heffect.spared.trans (.of_eq rfl rfl)
  | sendFromIsr q b r _ _ heffect => exact heffect.spared
  | receiveFromIsr q b r _ _ heffect => exact heffect.spared
  | createSemaphore _ m count maxCount hcall =>
    have hne : SemaphoreRef.app m ≠ .app n := hname (by rcases hcall with rfl | ⟨_, rfl⟩ <;> rfl)
    exact .of_history (Function.update_of_ne hne.symm ..) rfl (by simp [Event.concerns, hne])
  | take m timeout s₁ outcome _ _ heffect => exact heffect.spared (hname rfl)
  | give m s₁ woken status _ _ heffect => exact (heffect.spared (hname rfl)).trans (.of_eq rfl rfl)
  | giveFromIsr m s₁ woken status _ _ heffect => exact heffect.spared (hname rfl)
  | lock m timeout s₁ outcome _ heffect => exact heffect.spared
  | unlock m t s₁ _ _ _ heffect => exact heffect.spared
  | createTimer t name period autoReload callback s₁ status hpath => exact Bringup.spared n hpath
  | _ => exact .of_eq rfl rfl

theorem ServiceEffect.spared (he : ServiceEffect cfg s s') (n : Nat) : Spared (.app n) s s' := by
  cases he with
  | takes s₁ outcome phase _ _ _ heffect =>
    have htake : Spared (.app n) s s₁ := heffect.spared (by simp)
    exact htake.trans (.of_eq rfl rfl)
  | _ => exact .of_eq rfl rfl

def Op.semaphore : Op → Option Nat
  | .task c => c.semaphore
  | .isr c _ => c.semaphore
  | _ => none

theorem step_spared (hs : s.Steady cfg) {op : Op} (hop : op.semaphore ≠ some n) :
    Spared (.app n) s (step cfg s op) := by
  have he := step_effect hs.good hs.quiet op
  generalize step cfg s op = s' at he ⊢
  cases he with
  | task c r _ _ _ heffect => exact heffect.spared hop
  | isr c honoured r k _ _ heffect => exact (heffect.spared hop).trans (.of_eq rfl rfl)
  | service s' _ _ heffect => exact heffect.spared n
  | tick tl order k s₃ woken c hrun =>
    have htimers : Spared (.app n) { s with kernel := k } s₃ := hrun.timers.spared
    exact ⟨htimers.semaphore, htimers.events⟩
  | _ => exact .of_eq rfl rfl

theorem call_gives (hs : s.Steady cfg) (hc : c.gives n inIsr = true)
    (hv : semaphoreIsValid s (.app n) = true) :
    ∃ s₁ woken status k, GiveEffect cfg s (.app n) s₁ woken status ∧ s₁.kernel.Calm k ∧
      (call cfg s inIsr c).outcome = .returned status ∧ (call cfg s inIsr c).system = { s₁ with kernel := k } := by
  have heffect := (semaphoreGiveLocked_effect hs.good.kernel (.app n) (fresh_of_quiet hs.quiet _)).1
  cases c with
  | semaphoreGive y =>
    obtain ⟨rfl, rfl⟩ : inIsr = false ∧ y = some n := by simpa [Call.gives] using hc
    have heq : call cfg s false (.semaphoreGive (some n)) =
        ⟨{ (semaphoreGiveLocked cfg s (.app n)).1 with
            kernel := if (semaphoreGiveLocked cfg s (.app n)).2.1 then
              requestContextSwitch (semaphoreGiveLocked cfg s (.app n)).1.kernel
              else (semaphoreGiveLocked cfg s (.app n)).1.kernel },
          .returned (semaphoreGiveLocked cfg s (.app n)).2.2, false⟩ := by
      simp only [call, statusResult, Option.map_some, semaphoreGive, hv]
      cases (semaphoreGiveLocked cfg s (.app n)).2.1 <;> rfl
    rw [heq]
    exact ⟨_, _, _, _, heffect, Kernel.calm_ite _ _, rfl, rfl⟩
  | semaphoreGiveFromIsr y =>
    obtain ⟨rfl, rfl⟩ : inIsr = true ∧ y = some n := by simpa [Call.gives] using hc
    have heq : call cfg s true (.semaphoreGiveFromIsr (some n)) =
        ⟨(semaphoreGiveLocked cfg s (.app n)).1, .returned (semaphoreGiveLocked cfg s (.app n)).2.2,
          (semaphoreGiveLocked cfg s (.app n)).2.1⟩ := by
      simp only [call, wokenResult, Option.map_some, semaphoreGiveFromIsr, hv]
      rfl
    rw [heq]
    exact ⟨_, _, _, _, heffect, Kernel.Calm.refl _, rfl, rfl⟩
  | _ => simp [Call.gives] at hc

theorem Op.returnsOk_eq_false {p : Bool → Call → Bool} {op : Op}
    (hp : ∀ inIsr c, p inIsr c = true → c.semaphore = some n) (hop : op.semaphore ≠ some n) :
    op.returnsOk cfg s p = false := by
  have hcall : ∀ inIsr c, c.semaphore ≠ some n → p inIsr c = false :=
    fun inIsr c hc => Bool.eq_false_iff.mpr (fun h => hc (hp inIsr c h))
  cases op with
  | task c => simp [Op.returnsOk, hcall false c hop]
  | isr c honoured => simp [Op.returnsOk, hcall true c hop]
  | _ => rfl

theorem Call.semaphore_of_gives (inIsr : Bool) (c : Call) (h : c.gives n inIsr = true) :
    c.semaphore = some n := by
  cases c <;> simp_all [Call.gives, Call.semaphore]

theorem Call.semaphore_of_takes (inIsr : Bool) (c : Call) (h : c.takes n inIsr = true) :
    c.semaphore = some n := by
  cases c <;> simp_all [Call.takes, Call.semaphore]

theorem CallEffect.refused_of_valid {r : CallResult}
    (he : CallEffect cfg s inIsr c r) (hv : semaphoreIsValid s (.app n) = true) (hc : c.semaphore = some n)
    (hgives : c.gives n inIsr = false) (htakes : c.takes n inIsr = false) : r.system = s ∧ r.woken = false := by
  have hm := semaphore_magic_of_valid hv
  cases he with
  | refused => exact ⟨rfl, rfl⟩
  | createSemaphore _ m count maxCount hcall hfresh =>
    obtain rfl : m = n := by rcases hcall with rfl | ⟨_, rfl⟩ <;> exact Option.some.inj hc
    simp [hm] at hfresh
  | control _ timers status _ hcall => cases c <;> simp [Call.semaphore, Call.usesTimer] at hc hcall
  | _ => grind [Call.semaphore, Call.gives, Call.takes]

theorem Call.gives_takes (h : c.gives n inIsr = true) : c.takes n inIsr = false := by
  cases c <;> simp_all [Call.gives, Call.takes]

theorem task_semaphoreStep (hs : s.Steady cfg) (hv : semaphoreIsValid s (.app n) = true)
    (hc : c.semaphore = some n) (hcan : canCall s = true) (he : CallEffect cfg s false c (call cfg s false c)) :
    SemaphoreStep cfg s n (.task c) (call cfg s false c).system := by
  cases hgives : c.gives n false with
  | true =>
    obtain ⟨s₁, woken, status, k, heffect, hcalm, houtcome, hsystem⟩ := call_gives hs hgives hv
    rw [hsystem]
    exact .give s₁ woken status k heffect hcalm (by simp [Op.returnsOk, hcan, hgives, houtcome])
      (by simp [Op.returnsOk, Call.gives_takes hgives])
  | false =>
    have hgave : Op.returnsOk cfg s (Call.gives n) (.task c) = false := by simp [Op.returnsOk, hgives]
    cases htakes : c.takes n false with
    | false =>
      rw [(he.refused_of_valid hv hc hgives htakes).1]
      exact .spared (.refl _ s) hgave (by simp [Op.returnsOk, htakes])
    | true =>
      have htook : Op.returnsOk cfg s (Call.takes n) (.task c) =
          decide ((call cfg s false c).outcome = .returned .ok) := by simp [Op.returnsOk, hcan, htakes]
      generalize call cfg s false c = r at he htook ⊢
      cases he with
      | refused _ status hne => exact .spared (.refl _ s) hgave (by simpa [hne] using htook)
      | take m timeout s₁ outcome _ _ heffect =>
        obtain rfl := Option.some.inj hc
        exact .take timeout _ _ _ heffect hgave htook
      | control => cases c <;> simp_all [Call.takes, Call.usesTimer]
      | _ => grind [Call.takes]

theorem isr_semaphoreStep (hs : s.Steady cfg) {honoured : Bool} {k : Kernel}
    (hv : semaphoreIsValid s (.app n) = true) (hc : c.semaphore = some n) (hp : s.kernel.state ≠ .panic)
    (he : CallEffect cfg s true c (call cfg s true c)) (hcalm : (call cfg s true c).system.kernel.Calm k)
    (hk : k = if honoured then yieldFromIsr (call cfg s true c).system.kernel (call cfg s true c).woken
      else (call cfg s true c).system.kernel) :
    SemaphoreStep cfg s n (.isr c honoured) { (call cfg s true c).system with kernel := k } := by
  have htakes : c.takes n true = false := by cases c <;> simp [Call.takes]
  have htook : Op.returnsOk cfg s (Call.takes n) (.isr c honoured) = false := by simp [Op.returnsOk, htakes]
  cases hgives : c.gives n true with
  | true =>
    obtain ⟨s₁, woken, status, k₁, heffect, hcalm₁, houtcome, hsystem⟩ := call_gives hs hgives hv
    rw [hsystem] at hcalm ⊢
    exact .give s₁ woken status k heffect (hcalm₁.trans hcalm) (by simp [Op.returnsOk, hp, hgives, houtcome]) htook
  | false =>
    obtain ⟨hsystem, hwoken⟩ := he.refused_of_valid hv hc hgives htakes
    have hkernel : k = s.kernel := by simp [hk, hsystem, hwoken, yieldFromIsr]
    rw [hsystem, hkernel]
    exact .spared (.refl _ s) (by simp [Op.returnsOk, hgives]) htook

theorem step_semaphoreStep (hs : s.Steady cfg) (hv : semaphoreIsValid s (.app n) = true) (op : Op) :
    SemaphoreStep cfg s n op (step cfg s op) := by
  by_cases hop : op.semaphore = some n
  swap
  · exact .spared (step_spared hs hop) (Op.returnsOk_eq_false Call.semaphore_of_gives hop)
      (Op.returnsOk_eq_false Call.semaphore_of_takes hop)
  have he := step_effect hs.good hs.quiet op
  generalize step cfg s op = s' at he ⊢
  cases he with
  | noTask c hcan => exact .spared (.refl _ s) (by simp [Op.returnsOk, hcan]) (by simp [Op.returnsOk, hcan])
  | task c r hcan heq _ heffect =>
    subst heq
    exact task_semaphoreStep hs hv hop hcan heffect
  | isr c honoured r k hp heq heffect hcalm hk =>
    subst heq
    exact isr_semaphoreStep hs hv hop hp heffect hcalm hk
  | _ => simp [Op.semaphore] at hop

end

end Hairtos
