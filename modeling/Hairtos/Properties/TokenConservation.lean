import Hairtos.Invariant.SemaphoreStep
import Hairtos.Properties.Fifo

namespace Hairtos

open Library

instance decidableServed (s s' : System) (u : TaskRef) (w : Wait) : Decidable (Served s s' u w) :=
  inferInstanceAs (Decidable (_ ∧ _ ∧ _))

def System.waitersOf (s : System) (n : Nat) : List TaskRef := s.kernel.waitLists.lists.seq (.semaphore (.app n))

def givenBy (cfg : Config) (n : Nat) (s : System) (op : Op) : Nat :=
  if op.returnsOk cfg s (Call.gives n) then 1 else 0

def takenBy (cfg : Config) (n : Nat) (s : System) (op : Op) : Nat :=
  (if op.returnsOk cfg s (Call.takes n) then 1 else 0) +
    (s.waitersOf n).countP (fun u => Served s (step cfg s op) u (.semaphoreTake (.app n)))

section

variable {cfg : Config} {s s' : System} {n : Nat} {u : TaskRef}

theorem mem_waitersOf (g : s.kernel.Sound cfg) :
    u ∈ s.waitersOf n ↔ (s.kernel.tasks u).wait = some (.semaphoreTake (.app n)) := by
  rw [System.waitersOf, s.kernel.waitLists.lists.mem_seq]
  constructor
  · exact (g.shape u).wait_of_semaphore
  · intro hw
    have hhost : s.kernel.waitLists.lists.host u = (s.kernel.tasks u).wait.bind Wait.waitList := (g.shape u).waitHost_eq
    rw [hhost, hw]
    rfl

theorem Spared.not_served (hs : s.Steady cfg) {op : Op} {x : SemaphoreRef} (h : Spared x s (step cfg s op)) :
    ¬ Served s (step cfg s op) u (.semaphoreTake x) := by
  rintro ⟨hw, hdone, hok⟩
  obtain ⟨i, hturn⟩ := hs.turn hw op
  cases hturn with
  | idle before => simp [hw] at before
  | kept v before after => simp [hdone] at after
  | granted v e before after result grants events =>
    obtain rfl : Wait.semaphoreTake x = v := Option.some.inj (hw.symm.trans before)
    obtain rfl : e = .taken x (some u) := grants
    have hsame : ((step cfg s op).eventsOf u).filter (Event.concerns x) = (s.eventsOf u).filter (Event.concerns x) := by
      rw [System.eventsOf, System.eventsOf, List.filter_comm, h.events, List.filter_comm]
    rw [events, List.filter_append] at hsame
    simp [Event.concerns] at hsame
  | expired v m before after result =>
    obtain rfl : Wait.semaphoreTake x = v := Option.some.inj (hw.symm.trans before)
    rw [hok] at result
    cases result

theorem not_served_updateSemaphore (x : SemaphoreRef) (f : SemaphoreControlBlock → SemaphoreControlBlock)
    (events : List Event) {w : Wait} : ¬ Served s ((s.updateSemaphore x f).record events) u w :=
  not_served_of_wait rfl

theorem countP_served_eq_zero (h : ∀ u, ¬ Served s s' u (.semaphoreTake (.app n))) :
    (s.waitersOf n).countP (fun u => Served s s' u (.semaphoreTake (.app n))) = 0 :=
  List.countP_eq_zero.mpr (fun u _ => by simpa using h u)

theorem countP_served_eq_one (h : WaitEnds s.kernel u (.semaphoreTake (.app n)) .ok s'.kernel)
    (hu : u ∈ s.waitersOf n) : (s.waitersOf n).countP (fun v => Served s s' v (.semaphoreTake (.app n))) = 1 := by
  have honly : ∀ v ∈ s.waitersOf n, decide (Served s s' v (.semaphoreTake (.app n))) = (v == u) := by
    intro v _
    by_cases hv : v = u <;> simp [h.served, hv]
  have hnodup : (s.waitersOf n).Nodup := s.kernel.waitLists.lists.nodup _
  rw [List.countP_congr (fun v hv => by rw [honly v hv])]
  exact List.count_eq_one_of_mem hnodup hu

theorem step_tokens (hs : s.Steady cfg) (hm : (s.semaphores (.app n)).magic = true) (op : Op) :
    ((step cfg s op).semaphores (.app n)).count + takenBy cfg n s op =
        (s.semaphores (.app n)).count + givenBy cfg n s op ∧
      ((step cfg s op).semaphores (.app n)).magic = true ∧
      ((step cfg s op).semaphores (.app n)).maxCount = (s.semaphores (.app n)).maxCount := by
  have hstep := step_semaphoreStep hs (hs.good.semaphores _ hm) op
  have hspared := fun (h : Spared (.app n) s (step cfg s op)) u => h.not_served hs (u := u)
  unfold takenBy givenBy
  generalize step cfg s op = s' at hstep hspared
  cases hstep with
  | spared h hgives htakes =>
    rw [hgives, htakes, countP_served_eq_zero (hspared h), h.semaphore]
    exact ⟨rfl, hm, rfl⟩
  | give s₁ woken status k heffect hcalm hgives htakes =>
    rw [hgives, htakes]
    cases heffect with
    | served v k' hfirst hwait hgranted =>
      have hends := (hgranted.woken.waitEnds hwait).aside hcalm.bookkept.aside
      rw [countP_served_eq_one hends ((mem_waitersOf hs.good.kernel.toSound).mpr hwait)]
      exact ⟨rfl, hm, rfl⟩
    | counted =>
      rw [countP_served_eq_zero (fun v => not_served_of_wait (hcalm.bookkept.aside.sameWaits.wait v))]
      simp [System.record, System.updateSemaphore, hm]
    | full =>
      rw [countP_served_eq_zero (fun v => not_served_of_wait (hcalm.bookkept.aside.sameWaits.wait v))]
      exact ⟨rfl, hm, rfl⟩
  | take timeout caller _ outcome heffect hgives htakes =>
    rw [hgives, htakes]
    cases heffect with
    | counted havailable =>
      rw [countP_served_eq_zero (fun v => not_served_updateSemaphore (.app n) _ _)]
      simp only [System.record, System.updateSemaphore, Function.update_self, hm, decide_true, ↓reduceIte,
        Bool.false_eq_true]
      exact ⟨by omega, trivial, trivial⟩
    | waits t hruns _ _ hfinite =>
      have hstarts := (Kernel.startWait_starts cfg (.semaphoreTake (.app n)) hruns
        (timeoutTicks_spec hfinite)).aside (Kernel.calm_requestContextSwitch _).bookkept.aside
      rw [countP_served_eq_zero (fun v => WaitStarts.not_served hstarts hs.good)]
      exact ⟨rfl, hm, rfl⟩

theorem exec_tokens (hs : s.Steady cfg) (hm : (s.semaphores (.app n)).magic = true) (ops : List Op) :
    ((exec cfg s ops).semaphores (.app n)).count + tally cfg (takenBy cfg n) s ops =
        (s.semaphores (.app n)).count + tally cfg (givenBy cfg n) s ops ∧
      ((exec cfg s ops).semaphores (.app n)).magic = true ∧
      ((exec cfg s ops).semaphores (.app n)).maxCount = (s.semaphores (.app n)).maxCount := by
  induction ops generalizing s with
  | nil => exact ⟨rfl, hm, rfl⟩
  | cons op ops ih =>
    obtain ⟨hone, hm', hmax⟩ := step_tokens hs hm op
    obtain ⟨hrest, hmagic, hmax'⟩ := ih (hs.step op) hm'
    rw [hmax] at hmax'
    simp only [tally]
    exact ⟨by rw [show exec cfg s (op :: ops) = exec cfg (step cfg s op) ops from rfl]; omega, hmagic, hmax'⟩

theorem peek_eq_none_iff (g : s.kernel.Sound cfg) :
    waitListPeek s.kernel.waitLists (.semaphore (.app n)) = none ↔
      ∀ u, (s.kernel.tasks u).wait ≠ some (.semaphoreTake (.app n)) := by
  constructor
  · intro h u hu
    exact not_waiting_of_peek g h hu rfl
  · intro h
    by_contra hne
    obtain ⟨u, hu⟩ := Option.ne_none_iff_exists'.mp hne
    exact h u ((g.shape u).wait_of_semaphore (waitListPeek_host _ hu))

theorem GiveEffect.full_iff {woken : Bool} {status : Status} (h : GiveEffect cfg s (.app n) s' woken status)
    (g : s.Good cfg) (hm : (s.semaphores (.app n)).magic = true) :
    status = .semaphoreFull ↔ (∀ u, (s.kernel.tasks u).wait ≠ some (.semaphoreTake (.app n))) ∧
      (s.semaphores (.app n)).count = (s.semaphores (.app n)).maxCount := by
  rw [← peek_eq_none_iff g.kernel.toSound]
  have hbound := (g.semaphores.bounds hm).2
  cases h with
  | served u k hfirst => simp [hfirst]
  | counted hnone hspace =>
    simp only [reduceCtorEq, false_iff, not_and]
    intro _
    omega
  | full hnone hspace =>
    simp only [true_iff]
    exact ⟨hnone, by omega⟩

theorem GiveEffect.wakes_one {woken : Bool} {status : Status} (h : GiveEffect cfg s (.app n) s' woken status)
    {k : Kernel} (hcalm : s'.kernel.Calm k) {u v : TaskRef} (hu : (k.tasks u).wait ≠ (s.kernel.tasks u).wait)
    (hv : (k.tasks v).wait ≠ (s.kernel.tasks v).wait) : u = v := by
  have hsame := hcalm.bookkept.aside.sameWaits.wait
  cases h with
  | served w k' hfirst hwait hgranted =>
    have hends := (hgranted.woken.waitEnds hwait).aside hcalm.bookkept.aside
    have honly : ∀ x, (k.tasks x).wait ≠ (s.kernel.tasks x).wait → x = w := by
      intro x hx
      by_contra hne
      exact hx (hends.others x hne)
    exact (honly u hu).trans (honly v hv).symm
  | counted => exact absurd (hsame u) hu
  | full => exact absurd (hsame u) hu

theorem not_waiting_of_takes (hs : s.Steady cfg) (hun : s.Unserved) (hm : (s.semaphores (.app n)).magic = true)
    {op : Op}
    (htakes : op.returnsOk cfg s (Call.takes n) = true) (u : TaskRef) :
    (s.kernel.tasks u).wait ≠ some (.semaphoreTake (.app n)) := by
  intro hw
  have hzero : (s.semaphores (.app n)).count = 0 := (hun u _ hw).2
  have hstep := step_semaphoreStep hs (hs.good.semaphores _ hm) op
  generalize step cfg s op = s' at hstep
  cases hstep with
  | spared _ _ h => simp [h] at htakes
  | give _ _ _ _ _ _ _ h => simp [h] at htakes
  | take timeout caller _ outcome heffect _ h =>
    cases heffect with
    | counted havailable => omega
    | waits t => simp [h] at htakes

end

theorem semaphore_tokens_conserved (cfg : Config) (before ops : List Op) (n initialCount maxCount : Nat)
    (hpositive : 1 ≤ maxCount) (hinitial : initialCount ≤ maxCount)
    (hfresh : semaphoreIsValid (exec cfg (boot cfg) before) (.app n) = false) :
    let created := semaphoreCreateCounting (exec cfg (boot cfg) before) (some (.app n)) initialCount maxCount
    let s := exec cfg created.1 ops
    created.2 = .ok ∧
    (s.semaphores (.app n)).count + tally cfg (takenBy cfg n) created.1 ops =
      initialCount + tally cfg (givenBy cfg n) created.1 ops ∧
    (s.semaphores (.app n)).count ≤ maxCount ∧
    (∀ u, u ∈ s.waitersOf n ↔ (s.kernel.tasks u).wait = some (.semaphoreTake (.app n))) ∧
    (∀ inIsr c, c.gives n inIsr = true →
      ((call cfg s inIsr c).outcome = .returned .semaphoreFull ↔
        (∀ u, (s.kernel.tasks u).wait ≠ some (.semaphoreTake (.app n))) ∧ (s.semaphores (.app n)).count =
          maxCount)) ∧
    (∀ inIsr c, c.gives n inIsr = true → ∀ u v,
      ((call cfg s inIsr c).system.kernel.tasks u).wait ≠ (s.kernel.tasks u).wait →
      ((call cfg s inIsr c).system.kernel.tasks v).wait ≠ (s.kernel.tasks v).wait → u = v) ∧
    ∀ op : Op, op.returnsOk cfg s (Call.takes n) = true →
      ∀ u, (s.kernel.tasks u).wait ≠ some (.semaphoreTake (.app n)) := by
  intro created s
  have hs₀ : (exec cfg (boot cfg) before).Steady cfg := reachable_steady ⟨before, rfl⟩
  have hcreated : created =
      (((exec cfg (boot cfg) before).updateSemaphore (.app n) (fun _ =>
        { magic := true, count := initialCount, maxCount := maxCount })).record [.created (.app n) initialCount],
          .ok) := by
    have hguard : (maxCount = 0 || maxCount < initialCount : Bool) = false := by
      simp only [Bool.or_eq_false_iff, decide_eq_false_iff_not]
      omega
    simp only [created, semaphoreCreateCounting, hguard, hfresh, Bool.false_eq_true, ↓reduceIte]
  have hstep : created.1 =
      step cfg (exec cfg (boot cfg) before) (.isr (.semaphoreCreateCounting (some n) initialCount maxCount) false) := by
    have hp : (exec cfg (boot cfg) before).kernel.state ≠ .panic := by
      rcases hs₀.good.kernel.booted with hb | hb <;> simp [hb]
    simp only [step, hp, ↓reduceIte]
    rfl
  have hblock : created.1.semaphores (.app n) = { magic := true, count := initialCount, maxCount := maxCount } := by
    rw [hcreated]
    exact Function.update_self ..
  have hs₁ : created.1.Steady cfg := hstep ▸ hs₀.step _
  have hun : s.Unserved := by
    have hrun : s = exec cfg (boot cfg)
        (before ++ .isr (.semaphoreCreateCounting (some n) initialCount maxCount) false :: ops) := by
      simp only [s, hstep, exec, List.foldl_append, List.foldl_cons]
    rw [hrun]
    exact exec_unserved cfg _
  obtain ⟨hbalance, hm, hmax⟩ := exec_tokens hs₁ (n := n) (by rw [hblock]) ops
  rw [hblock] at hbalance
  replace hmax : (s.semaphores (.app n)).maxCount = maxCount := hmax.trans (by rw [hblock])
  have hs : s.Steady cfg := hs₁.exec ops
  have hv := hs.good.semaphores _ hm
  refine ⟨by rw [hcreated], hbalance, ?_, fun u => mem_waitersOf hs.good.kernel.toSound, ?_, ?_,
    fun op htakes => not_waiting_of_takes hs hun hm htakes⟩
  · rw [← hmax]
    exact (hs.good.semaphores.bounds hm).2
  · intro inIsr c hc
    obtain ⟨s₁, woken, status, k, heffect, -, houtcome, -⟩ := call_gives hs hc hv
    rw [houtcome, Outcome.returned.injEq, heffect.full_iff hs.good hm, hmax]
  · intro inIsr c hc u v hu hv'
    obtain ⟨s₁, woken, status, k, heffect, hcalm, -, hsystem⟩ := call_gives hs hc hv
    rw [hsystem] at hu hv'
    exact heffect.wakes_one hcalm hu hv'

def tokenRun : List Op :=
  [.start, .task (.semaphoreTake (some 0) waitForever), .task (.semaphoreTake (some 0) waitForever), .pendsv,
    .task (.semaphoreGive (some 0)), .tick, .isr (.semaphoreGiveFromIsr (some 0)) true,
    .task (.semaphoreGive (some 0)), .task (.semaphoreGive (some 0))]

theorem semaphore_tokens_conserved_tokenRun :
    let created := semaphoreCreateCounting (exec .standard (boot .standard) (launch 0 1 ++ launch 1 2))
      (some (.app 0)) 1 2
    let s := exec .standard created.1 tokenRun
    (s.semaphores (.app 0)).count + tally .standard (takenBy .standard 0) created.1 tokenRun =
        1 + tally .standard (givenBy .standard 0) created.1 tokenRun ∧
      (s.semaphores (.app 0)).count = 2 ∧ tally .standard (takenBy .standard 0) created.1 tokenRun = 2 ∧
      tally .standard (givenBy .standard 0) created.1 tokenRun = 3 ∧
      (call .standard s false (.semaphoreGive (some 0))).outcome = .returned .semaphoreFull := by
  have h := semaphore_tokens_conserved .standard (launch 0 1 ++ launch 1 2) tokenRun 0 1 2 (by decide) (by decide)
    (by decide +kernel)
  exact ⟨h.2.1, by decide +kernel, by decide +kernel, by decide +kernel, by decide +kernel⟩

end Hairtos
