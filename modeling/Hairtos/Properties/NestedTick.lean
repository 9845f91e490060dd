import Hairtos.Properties.Fifo
import Hairtos.Properties.Wakeup

namespace Hairtos

open Library

variable {ops : List TickOp} {t : TaskRef}

def Call.nests : Call → Bool
  | .semaphoreGiveFromIsr _ => true
  | .queueSendFromIsr _ _ => true
  | .queueReceiveFromIsr _ _ => true
  | _ => false

inductive TickOp
  | op (o : Op)
  | advance
  | wake
  | call (c : Call) (honoured : Bool)
  | finish

structure TickState where
  system : System
  inTick : Bool := false

/-- A tick starts with the advance of the timeout list, goes on with rounds of its wake loop and nested
calls in any order, and is finished when the loop has nothing left to do. -/
def tickStep (cfg : Config) (x : TickState) : TickOp → TickState
  | .op o => if x.inTick then x else { x with system := step cfg x.system o }
  | .advance =>
    if x.inTick || x.system.kernel.state ≠ .running then x
    else ⟨{ x.system with kernel := kernelTickAdvance x.system.kernel }, true⟩
  | .wake =>
    if !x.inTick || x.system.kernel.state = .panic then x
    else { x with system :=
      { x.system with kernel := kernelTickWake cfg x.system.mutexes x.system.kernel } }
  | .call c honoured =>
    if !x.inTick || !c.nests || x.system.kernel.state = .panic then x
    else { x with system := isrStep cfg x.system c honoured }
  | .finish =>
    if !x.inTick || !listIsEmpty x.system.kernel.timeoutList.lists .expired || x.system.kernel.state = .panic then x
    else ⟨kernelTickFinish cfg x.system, false⟩

def tickExec (cfg : Config) (x : TickState) (ops : List TickOp) : TickState := ops.foldl (tickStep cfg) x

def tickRun (cfg : Config) (ops : List TickOp) : TickState := tickExec cfg ⟨boot cfg, false⟩ ops

def TickOp.Fresh (s : System) : TickOp → Prop
  | .call c _ => c.ServesFresh s true
  | _ => True

def Undisturbed (cfg : Config) (x : TickState) (ops : List TickOp) : Prop :=
  ∀ us o vs, ops = us ++ o :: vs → o.Fresh (tickExec cfg x us).system

instance decidableFresh (s : System) (l : WaitListRef) : Decidable (Hairtos.Fresh s l) :=
  decidable_of_iff (∀ u ∈ waitListPeek s.kernel.waitLists l, s.kernel.timeoutList.lists.host u ≠ some .expired)
    Iff.rfl

instance TickOp.decidableFresh (s : System) : (o : TickOp) → Decidable (o.Fresh s)
  | .call c _ => decidable_of_iff (∀ l ∈ c.serving s true, Hairtos.Fresh s l) Iff.rfl
  | .op _ => isTrue trivial
  | .advance => isTrue trivial
  | .wake => isTrue trivial
  | .finish => isTrue trivial

theorem undisturbed_iff {cfg : Config} {x : TickState} :
    Undisturbed cfg x ops ↔ ∀ i : Fin ops.length, (ops.get i).Fresh (tickExec cfg x (ops.take i)).system := by
  constructor
  · intro h i
    exact h (ops.take i) (ops.get i) (ops.drop (i + 1)) (by simp)
  · rintro h us o vs rfl
    have hx := h ⟨us.length, by simp⟩
    simpa using hx

instance decidableUndisturbed (cfg : Config) (x : TickState) (ops : List TickOp) : Decidable (Undisturbed cfg x ops) :=
  decidable_of_iff _ undisturbed_iff.symm

def Event.tokenIn (x : SemaphoreRef) : Event → Nat
  | .created y count => if y = x then count else 0
  | .given y => if y = x then 1 else 0
  | _ => 0

def Event.tokenOut (x : SemaphoreRef) : Event → Nat
  | .taken y _ => if y = x then 1 else 0
  | _ => 0

def tokensIn (x : SemaphoreRef) (events : List Event) : Nat := (events.map (Event.tokenIn x)).sum

def tokensOut (x : SemaphoreRef) (events : List Event) : Nat := (events.map (Event.tokenOut x)).sum

structure Tokens (s : System) (x : SemaphoreRef) : Prop where
  balance : tokensIn x s.history = (s.semaphores x).count + tokensOut x s.history
  empty : (s.semaphores x).magic = false → (s.semaphores x).count = 0

structure TickEnds (cfg : Config) (t : TaskRef) (w : Wait) (x : TickState) (xs : List TickOp) (o : TickOp)
    (ys : List TickOp) (result : Status) : Prop where
  pending : ∀ us vs, xs = us ++ vs → ((tickExec cfg x us).system.kernel.tasks t).wait = some w
  after : ∀ us vs, ys = us ++ vs → (tickExec cfg x (xs ++ o :: us)).system.Over t result
  either : result = .ok ∨ result = .timeout

section

variable {cfg : Config} {s s' : System}

theorem tokensIn_append (x : SemaphoreRef) (es es' : List Event) :
    tokensIn x (es ++ es') = tokensIn x es + tokensIn x es' := by simp [tokensIn]

theorem tokensOut_append (x : SemaphoreRef) (es es' : List Event) :
    tokensOut x (es ++ es') = tokensOut x es + tokensOut x es' := by simp [tokensOut]

theorem Tokens.of_history {x : SemaphoreRef} {events : List Event} (h : Tokens s x)
    (hsemaphores : s'.semaphores x = s.semaphores x) (hhistory : s'.history = s.history ++ events)
    (hevents : tokensIn x events = tokensOut x events) : Tokens s' x := by
  have hbalance := h.balance
  refine ⟨?_, ?_⟩
  · rw [hsemaphores, hhistory, tokensIn_append, tokensOut_append]
    omega
  · rw [hsemaphores]
    exact h.empty

theorem Tokens.of_same {x : SemaphoreRef} (h : Tokens s x) (hsemaphores : s'.semaphores x = s.semaphores x)
    (hhistory : s'.history = s.history) : Tokens s' x :=
  h.of_history hsemaphores (hhistory.trans (List.append_nil _).symm) rfl

theorem Tokens.update {x : SemaphoreRef} {events : List Event} {cb : SemaphoreControlBlock} (h : Tokens s x)
    (hsemaphores : s'.semaphores x = cb) (hm : cb.magic = true) (hhistory : s'.history = s.history ++ events)
    (hevents : (s.semaphores x).count + tokensIn x events = cb.count + tokensOut x events) : Tokens s' x := by
  have hbalance := h.balance
  refine ⟨?_, ?_⟩
  · rw [hsemaphores, hhistory, tokensIn_append, tokensOut_append]
    omega
  · rw [hsemaphores, hm]
    simp

theorem GiveEffect.tokens {y x : SemaphoreRef} {woken : Bool} {status : Status}
    (he : GiveEffect cfg s y s' woken status)
    (hm : (s.semaphores y).magic = true) (h : Tokens s x) : Tokens s' x := by
  cases he with
  | served u k => exact h.of_history rfl rfl (by simp [tokensIn, tokensOut, Event.tokenIn, Event.tokenOut])
  | counted =>
    by_cases hxy : x = y
    · subst hxy
      refine h.update (Function.update_self ..) hm rfl ?_
      simp [tokensIn, tokensOut, Event.tokenIn, Event.tokenOut]
    · exact h.of_history (Function.update_of_ne hxy ..) rfl
        (by simp [tokensIn, tokensOut, Event.tokenIn, Event.tokenOut, Ne.symm hxy])
  | full => exact h

theorem TakeEffect.tokens {y x : SemaphoreRef} {timeout : Tick} {caller : Option TaskRef} {outcome : Outcome}
    (he : TakeEffect cfg s y timeout caller s' outcome) (hm : (s.semaphores y).magic = true) (h : Tokens s x) :
    Tokens s' x := by
  cases he with
  | counted havailable =>
    by_cases hxy : x = y
    · subst hxy
      refine h.update (Function.update_self ..) hm rfl ?_
      simp [tokensIn, tokensOut, Event.tokenIn, Event.tokenOut]
      omega
    · exact h.of_history (Function.update_of_ne hxy ..) rfl
        (by simp [tokensIn, tokensOut, Event.tokenIn, Event.tokenOut, Ne.symm hxy])
  | waits t => exact h.of_same rfl rfl

theorem Action.tokens {owed : Bool} (ha : Action cfg s owed s') {x : SemaphoreRef} (h : Tokens s x) : Tokens s' x := by
  cases ha with
  | createSemaphore y count maxCount hfresh =>
    by_cases hxy : x = y
    · subst hxy
      refine h.update (Function.update_self ..) rfl rfl ?_
      simp [tokensIn, tokensOut, Event.tokenIn, Event.tokenOut, h.empty hfresh]
    · exact h.of_history (Function.update_of_ne hxy ..) rfl
        (by simp [tokensIn, tokensOut, Event.tokenIn, Event.tokenOut, Ne.symm hxy])
  | give y s₁ woken status k owed hv heffect => exact (heffect.tokens (semaphore_magic_of_valid hv) h).of_same rfl rfl
  | take y timeout s₁ outcome hcaller hv heffect => exact heffect.tokens (semaphore_magic_of_valid hv) h
  | send q item timeout sender r k owed hcaller hv heffect =>
    cases heffect with
    | served => exact h.of_history rfl rfl rfl
    | stored => exact h.of_history rfl rfl rfl
    | waits t => exact h.of_same rfl rfl
    | full => exact h.of_same rfl rfl
  | receive q item timeout receiver r k owed hcaller hv heffect =>
    cases heffect with
    | taken => exact h.of_history rfl rfl rfl
    | refilled => exact h.of_history rfl (List.append_assoc ..) rfl
    | direct => exact h.of_history rfl rfl rfl
    | waits t => exact h.of_same rfl rfl
    | empty => exact h.of_same rfl rfl
  | unlock m t s₁ hruns howner heffect =>
    cases heffect with
    | handed => exact h.of_history rfl rfl rfl
    | _ => exact h.of_same rfl rfl
  | _ => exact h.of_same rfl rfl

theorem Move.tokens (hm : Move cfg s s') {x : SemaphoreRef} (h : Tokens s x) : Tokens s' x := by
  cases hm with
  | act hacts => exact hacts.action.tokens h
  | lock m timeout s' outcome heffect =>
    cases heffect with
    | acquired => exact h.of_history rfl rfl rfl
    | _ => exact h.of_same rfl rfl
  | _ => exact h.of_same rfl rfl

structure TickState.Good (cfg : Config) (x : TickState) : Prop where
  system : x.system.Good cfg
  quiet : x.inTick = false → x.system.kernel.Quiet
  running : x.inTick = true → x.system.kernel.state = .running
  orderly : x.system.Orderly
  tokens : ∀ y, Tokens x.system y

structure TickMoves (cfg : Config) (s s' : System) : Prop where
  moves : Relation.ReflTransGen (Move cfg) s s'
  turn : ∀ t, (s.kernel.tasks t).magic = true → (s.kernel.tasks t).state ≠ .running → ∃ n, Turn t n s s'

theorem TickMoves.refl (cfg : Config) (s : System) : TickMoves cfg s s :=
  ⟨.refl, fun t _ _ => ⟨0, Unmoved.turn ⟨rfl, rfl, rfl⟩ rfl (.refl t s)⟩⟩

theorem step_tickMoves (hs : s.Steady cfg) (op : Op) : TickMoves cfg s (step cfg s op) := by
  refine ⟨(hs.stepped op).moves, fun t hm hnot => ?_⟩
  by_cases hk : s.kernel.state = .running
  · exact ⟨_, step_turn hs hk hm hnot op⟩
  · by_cases hop : op = .tick
    · subst hop
      have hsame : step cfg s .tick = s := by simp [step, kernelTickFromIsr, hk]
      rw [hsame]
      exact (TickMoves.refl cfg s).turn t hm hnot
    · exact ⟨0, (hs.stepped op).turn hs.good hop hm hnot⟩

theorem advance_tickMoves (g : s.Good cfg) (hq : s.kernel.Quiet) :
    TickMoves cfg s { s with kernel := kernelTickAdvance s.kernel } := by
  obtain ⟨tl, he, hticked, g'⟩ := kernelTickAdvance_spec g.kernel hq
  have hgood : (s.ticked tl).Good cfg := by
    refine ⟨?_, ?_, g.queues.congr rfl, g.semaphores.congr rfl⟩
    · rw [he] at g'
      exact g'
    · exact g.owners.update (fun _ hr => hr) (fun _ => rfl) (fun _ _ hw => hw)
  rw [he]
  exact ⟨.single (.advance tl hticked hgood), fun t _ _ => ⟨1, Turn.advance g hq hticked⟩⟩

theorem wake_tickMoves (g : s.Good cfg) :
    TickMoves cfg s { s with kernel := kernelTickWake cfg s.mutexes s.kernel } := by
  cases hx : s.kernel.timeoutList.lists.seq .expired with
  | nil =>
    rw [kernelTickWake_nil hx]
    exact .refl cfg s
  | cons t rest =>
    obtain ⟨w, hw, hwoken, g', hbal, -⟩ := kernelTickWake_spec g.kernel g.owners hx
    have hacts : Acts cfg s true { s with kernel := kernelTickWake cfg s.mutexes s.kernel } :=
      g.acts (.expire t w _ (s.kernel.timeoutList.lists.host_of_head hx) hw hwoken hbal) g' (hwoken.ownership g.owners)
    exact ⟨.single (.act hacts), fun u hm hnot => ⟨0, hacts.action.turn g hm hnot⟩⟩

theorem call_tickMoves (g : s.Good cfg) (c : Call) (honoured : Bool) (hfresh : c.ServesFresh s true) :
    TickMoves cfg s (isrStep cfg s c honoured) := by
  have hstepped := (isrStep_effect g c honoured hfresh).stepped g
  exact ⟨hstepped.moves, fun t hm hnot => ⟨0, hstepped.turn g (by simp) hm hnot⟩⟩

theorem finish_tickMoves (g : s.Good cfg) (hq : s.kernel.Quiet) (hk : s.kernel.state = .running) :
    TickMoves cfg s (kernelTickFinish cfg s) ∧ (kernelTickFinish cfg s).kernel.Quiet := by
  obtain ⟨current, hc, hfinish⟩ := kernelTickFinish_eq g hk hq
  obtain ⟨owed, htimers⟩ := timerTickFromIsr_trace g hq s.kernel.tick
  rw [hfinish]
  refine ⟨⟨htimers.moves.tail (.charge _ (kernelTickEnd_charged _ _ _ _)), fun t hm hnot => ⟨0, ?_⟩⟩,
    (kernelTickEnd_charged _ _ _ _).quiet (htimers.quiet g hq)⟩
  exact (htimers.turn g hm hnot).trans (kernelTickEnd_charged _ _ _ _).unmoved.setKernel

variable {x : TickState}

theorem TickState.Good.not_panic (h : x.Good cfg) : x.system.kernel.state ≠ .panic := by
  rcases h.system.kernel.booted with hb | hb <;> simp [hb]

theorem tickStep_moves (h : x.Good cfg) {o : TickOp} (hfresh : o.Fresh x.system) :
    TickMoves cfg x.system (tickStep cfg x o).system ∧
      ((tickStep cfg x o).inTick = false → (tickStep cfg x o).system.kernel.Quiet) ∧
      ((tickStep cfg x o).inTick = true → x.system.kernel.state = .running) := by
  have hsame : ∀ y, y = x → TickMoves cfg x.system y.system ∧ (y.inTick = false → y.system.kernel.Quiet) ∧
      (y.inTick = true → x.system.kernel.state = .running) := by
    rintro y rfl
    exact ⟨.refl cfg _, h.quiet, h.running⟩
  cases o with
  | op o =>
    cases hi : x.inTick with
    | true => exact hsame _ (by simp [tickStep, hi])
    | false =>
      have hs : x.system.Steady cfg := ⟨h.system, h.quiet hi⟩
      simp only [tickStep, hi, Bool.false_eq_true, ↓reduceIte]
      exact ⟨step_tickMoves hs o, fun _ => (hs.step o).quiet, by simp⟩
  | advance =>
    by_cases hi : x.inTick || x.system.kernel.state ≠ .running
    · exact hsame _ (by simp only [tickStep, hi, ↓reduceIte])
    · simp only [tickStep, hi]
      simp only [ne_eq, decide_not, Bool.or_eq_true, Bool.not_eq_eq_eq_not, Bool.not_true, decide_eq_false_iff_not,
        not_or, Bool.not_eq_true, not_not] at hi
      exact ⟨advance_tickMoves h.system (h.quiet hi.1), by simp, fun _ => hi.2⟩
  | wake =>
    by_cases hi : !x.inTick || x.system.kernel.state = .panic
    · exact hsame _ (by simp only [tickStep, hi, ↓reduceIte])
    · simp only [tickStep, hi]
      simp only [Bool.or_eq_true, Bool.not_eq_eq_eq_not, Bool.not_true, decide_eq_true_eq, not_or,
        Bool.not_eq_false] at hi
      exact ⟨wake_tickMoves h.system, by simp [hi.1], h.running⟩
  | call c honoured =>
    by_cases hi : !x.inTick || !c.nests || x.system.kernel.state = .panic
    · exact hsame _ (by simp only [tickStep, hi, ↓reduceIte])
    · simp only [tickStep, hi]
      simp only [Bool.or_eq_true, Bool.not_eq_eq_eq_not, Bool.not_true, decide_eq_true_eq, not_or,
        Bool.not_eq_false] at hi
      exact ⟨call_tickMoves h.system c honoured hfresh, by simp [hi.1.1], h.running⟩
  | finish =>
    by_cases hi : !x.inTick || !listIsEmpty x.system.kernel.timeoutList.lists .expired ||
        x.system.kernel.state = .panic
    · exact hsame _ (by simp only [tickStep, hi, ↓reduceIte])
    · simp only [tickStep, hi]
      simp only [listIsEmpty, Bool.or_eq_true, Bool.not_eq_eq_eq_not, Bool.not_true, decide_eq_true_eq, not_or,
        Bool.not_eq_false, List.isEmpty_iff] at hi
      obtain ⟨hmoves, hq⟩ := finish_tickMoves h.system hi.1.2 (h.running hi.1.1)
      exact ⟨hmoves, fun _ => hq, by simp⟩

theorem tickStep_good (h : x.Good cfg) {o : TickOp} (hfresh : o.Fresh x.system) : (tickStep cfg x o).Good cfg := by
  obtain ⟨hmoves, hquiet, hrunning⟩ := tickStep_moves h hfresh
  exact ⟨moves_good hmoves.moves h.system, hquiet,
    fun hi => (moves_keep hmoves.moves (fun _ _ _ hm => hm.started) h.system (hrunning hi)).2,
    (moves_keep hmoves.moves (fun _ _ g hm => hm.orderly g) h.system h.orderly).2,
    fun y => (moves_keep hmoves.moves (fun _ _ _ hm => hm.tokens) h.system (h.tokens y)).2⟩

theorem tickExec_append (cfg : Config) (x : TickState) (xs ys : List TickOp) :
    tickExec cfg x (xs ++ ys) = tickExec cfg (tickExec cfg x xs) ys := List.foldl_append

theorem Undisturbed.append {xs ys : List TickOp} (h : Undisturbed cfg x (xs ++ ys)) :
    Undisturbed cfg x xs ∧ Undisturbed cfg (tickExec cfg x xs) ys := by
  refine ⟨fun us o vs he => h us o (vs ++ ys) (by simp [he]), fun us o vs he => ?_⟩
  rw [← tickExec_append]
  exact h (xs ++ us) o vs (by simp [he])

theorem tickExec_good (h : x.Good cfg) (hops : Undisturbed cfg x ops) : (tickExec cfg x ops).Good cfg := by
  induction ops generalizing x with
  | nil => exact h
  | cons o ops ih =>
    exact ih (tickStep_good h (hops [] o ops rfl)) (fun us a vs he => hops (o :: us) a vs (by simp [he]))

theorem boot_tickGood (cfg : Config) : TickState.Good cfg ⟨boot cfg, false⟩ where
  system := (boot_steady cfg).good
  quiet := fun _ => (boot_steady cfg).quiet
  running := by simp
  orderly := boot_orderly cfg
  tokens := fun y => by constructor <;> simp [boot_eq, System.reset, tokensIn, tokensOut]

theorem nested_call_status (g : s.Good cfg) {c : Call} (hc : c.nests = true)
    (hfresh : c.ServesFresh s true) :
    ∃ status, (call cfg s true c).outcome = .returned status ∧ status ≠ .invalidState ∧
      status ≠ .internal := by
  cases c with
  | semaphoreGiveFromIsr x =>
    refine ⟨_, rfl, ?_⟩
    cases x with
    | none => simp [semaphoreGiveFromIsr]
    | some n =>
      cases hv : semaphoreIsValid s (.app n) with
      | false => simp [semaphoreGiveFromIsr, hv]
      | true =>
        obtain ⟨heffect, -⟩ := semaphoreGiveLocked_effect g.kernel (.app n)
          (hfresh.of_passes (by simp [Call.passes, hv]) rfl)
        have heq : semaphoreGiveFromIsr cfg s true (some (.app n)) = semaphoreGiveLocked cfg s (.app n) := by
          simp [semaphoreGiveFromIsr, hv]
        simp only [Option.map_some, heq]
        generalize semaphoreGiveLocked cfg s (.app n) = r at heffect
        obtain ⟨s₁, woken, status⟩ := r
        dsimp only at heffect
        cases heffect <;> simp
  | queueSendFromIsr q b =>
    rcases queueCallFromIsr_cases (queueSendLocked cfg) s true q b with ⟨status, -, hstatus, he⟩ |
      ⟨q, b, rfl, rfl, -, hv, he⟩
    · exact ⟨status, by simp [call, wokenResult, queueSendFromIsr, he], by simp [hstatus rfl]⟩
    · refine ⟨_, by simp only [call, wokenResult, queueSendFromIsr, he]; rfl, ?_⟩
      have heffect := (queueSendLocked_effect g.kernel (magic_of_valid hv) b noWait false (fun h0 => absurd rfl h0)
        (hfresh.of_passes (by simp [Call.passes, hv]) rfl) none).1
      generalize queueSendLocked cfg s q b noWait false none = r at heffect ⊢
      cases heffect <;> simp
  | queueReceiveFromIsr q b =>
    rcases queueCallFromIsr_cases (queueReceiveLocked cfg) s true q b with
      ⟨status, -, hstatus, he⟩ | ⟨q, b, rfl, rfl, -, hv, he⟩
    · exact ⟨status, by simp [call, wokenResult, queueReceiveFromIsr, he], by simp [hstatus rfl]⟩
    · refine ⟨_, by simp only [call, wokenResult, queueReceiveFromIsr, he]; rfl, ?_⟩
      have heffect := (queueReceiveLocked_effect g.kernel hv b noWait false (fun h0 => absurd rfl h0)
        (hfresh.of_passes (by simp [Call.passes, hv]) rfl) none).1
      generalize queueReceiveLocked cfg s q b noWait false none = r at heffect ⊢
      cases heffect <;> simp
  | _ => simp [Call.nests] at hc

def TickAbsent (cfg : Config) (t : TaskRef) (x : TickState) (ops : List TickOp) : Prop :=
  ∀ us o vs, ops = us ++ o :: vs → ((tickExec cfg x us).system.kernel.tasks t).state ≠ .running

theorem TickAbsent.append {xs ys : List TickOp} (h : TickAbsent cfg t x (xs ++ ys)) :
    TickAbsent cfg t x xs ∧ TickAbsent cfg t (tickExec cfg x xs) ys := by
  refine ⟨fun us o vs he => h us o (vs ++ ys) (by simp [he]), fun us o vs he => ?_⟩
  rw [← tickExec_append]
  exact h (xs ++ us) o vs (by simp [he])

theorem tickExec_turn (h : x.Good cfg) (hr : (x.system.kernel.view t).registered = true)
    (hops : Undisturbed cfg x ops) (habsent : TickAbsent cfg t x ops) :
    ∃ n, Turn t n x.system (tickExec cfg x ops).system := by
  induction ops generalizing x with
  | nil => exact ⟨0, Unmoved.turn ⟨rfl, rfl, rfl⟩ rfl (.refl t x.system)⟩
  | cons o ops ih =>
    obtain ⟨hmoves, -, -⟩ := tickStep_moves h (hops [] o ops rfl)
    have hm : (x.system.kernel.tasks t).magic = true := (h.system.kernel.shape t).magic_of_registered hr
    obtain ⟨n, hturn⟩ := hmoves.turn t hm (habsent [] o ops rfl)
    obtain ⟨m, hrest⟩ := ih (tickStep_good h (hops [] o ops rfl))
      (moves_keep hmoves.moves (fun _ _ _ hm => hm.registered) h.system hr).2
      (fun us a vs he => hops (o :: us) a vs (by simp [he])) (fun us a vs he => habsent (o :: us) a vs (by simp [he]))
    exact ⟨n + m, hturn.trans hrest⟩

theorem Turn.result {n : Nat} {w : Wait} (h : Turn t n s s') (hw : (s.kernel.tasks t).wait = some w)
    (hdone : (s'.kernel.tasks t).wait = none) :
    (s'.kernel.tasks t).waitResult = .ok ∨ (s'.kernel.tasks t).waitResult = .timeout := by
  cases h with
  | idle before => simp [hw] at before
  | kept v before after => simp [hdone] at after
  | granted v e before after result => exact Or.inl result
  | expired v m before after result =>
    rw [result]
    cases v <;> simp [Wait.deadlineResult]

theorem tickExec_concat (cfg : Config) (x : TickState) (xs : List TickOp) (o : TickOp) :
    tickExec cfg x (xs ++ [o]) = tickStep cfg (tickExec cfg x xs) o := tickExec_append cfg x xs [o]

theorem tickExec_registered (h : x.Good cfg) (hr : (x.system.kernel.view t).registered = true)
    (hops : Undisturbed cfg x ops) :
    ((tickExec cfg x ops).system.kernel.view t).registered = true := by
  induction ops generalizing x with
  | nil => exact hr
  | cons o ops ih =>
    have hmoves := (tickStep_moves h (hops [] o ops rfl)).1.moves
    exact ih (tickStep_good h (hops [] o ops rfl)) (moves_keep hmoves (fun _ _ _ hm => hm.registered) h.system hr).2
      (fun us a vs he => hops (o :: us) a vs (by simp [he]))

theorem tick_wait_ends (h : x.Good cfg) {w : Wait} (hw : (x.system.kernel.tasks t).wait = some w)
    (hops : Undisturbed cfg x ops) (habsent : TickAbsent cfg t x ops) :
    ((tickExec cfg x ops).system.kernel.tasks t).wait = some w ∨
      ∃ xs o ys result, ops = xs ++ o :: ys ∧ TickEnds cfg t w x xs o ys result := by
  have hr := (h.system.kernel.shape t).registered_of_wait (by simp [Kernel.view, hw])
  have hpending : ∀ us vs, ops = us ++ vs → ((tickExec cfg x us).system.kernel.tasks t).wait ≠ none →
      ((tickExec cfg x us).system.kernel.tasks t).wait = some w := by
    rintro us vs rfl hne
    obtain ⟨n, hturn⟩ := tickExec_turn h hr hops.append.1 habsent.append.1
    exact (hturn.of_waiting hw hne).1
  by_cases hend : ((tickExec cfg x ops).system.kernel.tasks t).wait = none
  · right
    obtain ⟨xs, o, ys, rfl, hxs, hdone⟩ := exists_first_failure
      (fun us => ((tickExec cfg x us).system.kernel.tasks t).wait ≠ none) ops (by simp [tickExec, hw])
        (not_not.mpr hend)
    have hops' := List.append_cons xs o ys ▸ hops
    have habsent' := List.append_cons xs o ys ▸ habsent
    have hgood := tickExec_good h hops'.append.1
    have hr' := tickExec_registered h hr hops'.append.1
    rw [not_not] at hdone
    have hwaits : ((tickExec cfg x xs).system.kernel.tasks t).wait = some w :=
      hpending xs (o :: ys) rfl (hxs xs [] (List.append_nil xs).symm)
    have hresult : ((tickExec cfg x (xs ++ [o])).system.kernel.tasks t).waitResult = .ok ∨
        ((tickExec cfg x (xs ++ [o])).system.kernel.tasks t).waitResult = .timeout := by
      have hbefore := tickExec_good h hops.append.1
      have hm := (hbefore.system.kernel.shape t).magic_of_wait (by simp [Kernel.view, hwaits])
      obtain ⟨n, hturn⟩ := (tickStep_moves hbefore (hops xs o ys rfl)).1.turn t hm (habsent xs o ys rfl)
      rw [tickExec_concat] at hdone ⊢
      exact hturn.result hwaits hdone
    refine ⟨xs, o, ys, _, rfl, ⟨?_, ?_, hresult⟩⟩
    · rintro us vs rfl
      exact hpending us (vs ++ o :: ys) (by simp) (hxs us vs rfl)
    · intro us vs he
      rw [List.append_cons, tickExec_append]
      have hsub : Undisturbed cfg (tickExec cfg x (xs ++ [o])) us := (he ▸ hops'.append.2).append.1
      obtain ⟨n, hturn⟩ := tickExec_turn hgood hr' hsub (he ▸ habsent'.append.2).append.1
      obtain ⟨hdone', hsame, -, -⟩ := hturn.of_done hdone
      rw [← hsame]
      exact (tickExec_good hgood hsub).system.isOver hdone'
  · exact Or.inl (hpending ops [] (List.append_nil ops).symm hend)

end

/-- In every run whose nested calls all are fresh, and in every state of it: the kernel does not panic, the
tokens of the semaphores and the items of the queues are all there, a fresh nested call is refused for
its arguments or for lack of room at most, no deadline that has come is left behind by a tick, and each
wait ends at most once before its task runs, granted or by its deadline. -/
theorem nested_tick_tolerated (cfg : Config) (ops : List TickOp) (hops : Undisturbed cfg ⟨boot cfg, false⟩ ops) :
    let x := tickRun cfg ops
    x.system.kernel.state ≠ .panic ∧
    (∀ y, tokensIn y x.system.history = (x.system.semaphores y).count + tokensOut y x.system.history) ∧
    (∀ q, x.system.accepted q = x.system.delivered q ++ queueContents (x.system.queues q)) ∧
    (∀ c honoured, c.nests = true → (TickOp.call c honoured).Fresh x.system →
      ∃ status, (call cfg x.system true c).outcome = .returned status ∧ status ≠ .invalidState ∧
        status ≠ .internal) ∧
    (x.inTick = false → ∀ t n, x.system.kernel.timeoutList.left t = some n → 0 < n) ∧
    ∀ t w more, (x.system.kernel.tasks t).wait = some w → Undisturbed cfg x more → TickAbsent cfg t x more →
      ((tickExec cfg x more).system.kernel.tasks t).wait = some w ∨
        ∃ xs o ys result, more = xs ++ o :: ys ∧ TickEnds cfg t w x xs o ys result := by
  intro x
  have h : x.Good cfg := tickExec_good (boot_tickGood cfg) hops
  refine ⟨h.not_panic, fun y => (h.tokens y).balance, fun q => (h.orderly.2 q).balance,
    fun c honoured hc hfresh => nested_call_status h.system hc hfresh, fun hi t n hleft => ?_,
    fun t w more hw hmore habsent => tick_wait_ends h hw hmore habsent⟩
  have hs : x.system.Steady cfg := ⟨h.system, h.quiet hi⟩
  exact hs.left_pos hleft

def nestedRun (timeout : Tick) : List TickOp :=
  ((launch 0 1 ++ launch 1 2 ++ ([.task (.semaphoreCreateCounting (some 0) 0 1), .start,
    .task (.semaphoreTake (some 0) timeout), .pendsv] : List Op)).map TickOp.op) ++ [.advance]

theorem nested_tick_tolerated_nestedRun :
    let x := tickRun .standard (nestedRun 2#32 ++ [.call (.semaphoreGiveFromIsr (some 0)) true, .finish])
    x.system.kernel.state ≠ .panic ∧ tokensIn (.app 0) x.system.history =
      (x.system.semaphores (.app 0)).count + tokensOut (.app 0) x.system.history := by
  have h := nested_tick_tolerated .standard (nestedRun 2#32 ++ [.call (.semaphoreGiveFromIsr (some 0)) true, .finish])
    (by decide +kernel)
  exact ⟨h.1, h.2.1 (.app 0)⟩

/-- The waiter of the semaphore is in the expired list when a nested handler gives: the call fails, and
the next round of the wake loop panics. -/
theorem nested_give_fails :
    (call .standard (tickRun .standard (nestedRun 1#32)).system true (.semaphoreGiveFromIsr (some 0))).outcome =
        .returned .invalidState ∧
      (tickRun .standard (nestedRun 1#32 ++ [.call (.semaphoreGiveFromIsr (some 0)) true, .wake])).system.kernel.state =
        .panic := by
  decide +kernel

end Hairtos
