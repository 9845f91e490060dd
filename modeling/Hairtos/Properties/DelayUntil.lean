import Hairtos.Invariant.TickStep
import Hairtos.Properties.Timeouts
import Hairtos.Properties.Timers

namespace Hairtos

open Library

def Call.delaysOn (a : Nat) : Call → Option Tick
  | .taskDelayUntil (some b) period => if b = a then some period else none
  | _ => none

def Outcome.succeeds : Outcome → Bool
  | .returned status => status = .ok
  | .blocked => true

def delaysUntil (cfg : Config) (a : Nat) (s : System) : Op → Nat
  | .task c => if canCall s && (c.delaysOn a).isSome && (call cfg s false c).outcome.succeeds then 1 else 0
  | .isr c _ =>
    if s.kernel.state ≠ .panic && (c.delaysOn a).isSome && (call cfg s true c).outcome.succeeds then 1 else 0
  | _ => 0

def Op.Paces (a : Nat) (p : Tick) : Op → Prop
  | .task c => ∀ q, c.delaysOn a = some q → q = p
  | .isr c _ => ∀ q, c.delaysOn a = some q → q = p
  | .writeAnchor b _ => b ≠ a
  | _ => True

structure ReleasedAt (cfg : Config) (t : TaskRef) (deadline : Tick) (s : System) : Prop where
  waits : ∀ after, ticksIn after < (deadline - s.kernel.tick).toNat →
    ((exec cfg s after).kernel.tasks t).isWaiting = true ∧ (exec cfg s after).kernel.tick ≠ deadline
  released : ∀ after, ticksIn after + 1 = (deadline - s.kernel.tick).toNat →
    (exec cfg s (after ++ [.tick])).kernel.tick = deadline ∧
      ((exec cfg s (after ++ [.tick])).kernel.tasks t).wait = none ∧
      ((exec cfg s (after ++ [.tick])).kernel.tasks t).waitResult = .ok ∧
      (((exec cfg s after).kernel.tasks t).state ≠ .suspended →
        ((exec cfg s (after ++ [.tick])).kernel.tasks t).state = .ready) ∧
      (((exec cfg s after).kernel.tasks t).state = .suspended →
        ((exec cfg s (after ++ [.tick])).kernel.tasks t).state = .suspended ∧
          ((exec cfg s (after ++ [.tick])).kernel.tasks t).suspendedResumeState = .ready)

section

variable {cfg : Config} {s : System} {t : TaskRef} {a : Nat} {p : Tick}

theorem taskDelayUntil_anchor (k : Kernel) (inIsr : Bool) (lastWakeTick period : Tick) :
    (taskDelayUntil cfg k inIsr lastWakeTick period).2.1 =
      if (taskDelayUntil cfg k inIsr lastWakeTick period).2.2.succeeds then lastWakeTick + period else
        lastWakeTick := by
  unfold taskDelayUntil
  split
  · rfl
  split
  · rfl
  dsimp only
  split
  · split
    · rfl
    · next hne => simp [Outcome.succeeds, hne]
  · rfl

theorem Bringup.anchors {s' : System} (h : Relation.ReflTransGen (Bringup cfg) s s') : s'.anchors = s.anchors := by
  induction h with
  | refl => rfl
  | tail _ hlast ih => cases hlast <;> exact ih

theorem CallEffect.anchors {inIsr : Bool} {c : Call} {r : CallResult} (he : CallEffect cfg s inIsr c r)
    (hc : c.delaysOn a = none) : r.system.anchors a = s.anchors a := by
  cases he with
  | delayUntil t b | missed b =>
    refine Function.update_of_ne ?_ _ _
    rintro rfl
    simp [Call.delaysOn] at hc
  | send q b timeout r _ _ heffect => cases heffect <;> rfl
  | receive q b timeout r _ _ heffect => cases heffect <;> rfl
  | sendFromIsr q b r _ _ heffect => cases heffect <;> rfl
  | receiveFromIsr q b r _ _ heffect => cases heffect <;> rfl
  | take n timeout s₁ outcome _ _ heffect => cases heffect <;> rfl
  | give n s₁ woken status _ _ heffect => cases heffect <;> rfl
  | giveFromIsr n s₁ woken status _ _ heffect => cases heffect <;> rfl
  | lock m timeout s₁ outcome _ heffect => cases heffect <;> rfl
  | unlock m t s₁ _ _ _ heffect => cases heffect <;> rfl
  | createTimer t name period autoReload callback s₁ status hpath => exact congrFun (Bringup.anchors hpath) a
  | _ => rfl

theorem call_delaysOn (s : System) (inIsr : Bool) {c : Call} (hc : c.delaysOn a = some p) :
    (call cfg s inIsr c).system.anchors a =
      if (call cfg s inIsr c).outcome.succeeds then s.anchors a + p else s.anchors a := by
  cases c with
  | taskDelayUntil anchor period =>
    cases anchor with
    | none => simp [Call.delaysOn] at hc
    | some b =>
      obtain ⟨rfl, rfl⟩ : b = a ∧ period = p := by simpa [Call.delaysOn] using hc
      simp only [call, callDelayUntil, Function.update_self]
      exact taskDelayUntil_anchor s.kernel inIsr (s.anchors b) period
  | _ => simp [Call.delaysOn] at hc

theorem CallEffect.paces {inIsr : Bool} {c : Call} {r : CallResult} (he : CallEffect cfg s inIsr c r)
    (heq : call cfg s inIsr c = r) (hc : ∀ q, c.delaysOn a = some q → q = p) :
    r.system.anchors a =
      s.anchors a + BitVec.ofNat 32 (if (c.delaysOn a).isSome && r.outcome.succeeds then 1 else 0) * p := by
  cases hd : c.delaysOn a with
  | none =>
    rw [he.anchors hd]
    simp
  | some q =>
    obtain rfl := hc q hd
    rw [← heq, call_delaysOn s inIsr hd]
    cases (call cfg s inIsr c).outcome.succeeds <;> simp

theorem step_paces (hs : s.Steady cfg) {op : Op} (hop : op.Paces a p) :
    (step cfg s op).anchors a = s.anchors a + BitVec.ofNat 32 (delaysUntil cfg a s op) * p := by
  have hsame : ∀ {s' : System}, s'.anchors = s.anchors → s'.anchors a = s.anchors a + BitVec.ofNat 32 0 * p := by
    rintro s' h
    simp [h]
  have he := step_effect hs.good hs.quiet op
  generalize step cfg s op = s' at he ⊢
  cases he with
  | noTask c hcan => simp [delaysUntil, hcan]
  | task c r hcan heq _ heffect => simpa [delaysUntil, hcan, heq] using heffect.paces heq hop
  | isr c honoured r k hpanic heq heffect => simpa [delaysUntil, hpanic, heq] using heffect.paces heq hop
  | service s' _ _ heffect =>
    refine hsame ?_
    cases heffect with
    | takes s₁ outcome phase _ _ _ heffect => cases heffect <;> rfl
    | _ => rfl
  | tick _ _ _ s₃ _ _ hrun =>
    refine hsame ?_
    cases hrun.timers with
    | silent => rfl
    | signals timers s' woken status heffect => cases heffect <;> rfl
  | writeAnchor b value => simp [delaysUntil, Function.update_of_ne (Ne.symm hop)]
  | _ => exact hsame rfl

theorem exec_paces (hs : s.Steady cfg) {ops : List Op} (hops : ∀ op ∈ ops, op.Paces a p) :
    (exec cfg s ops).anchors a = s.anchors a + BitVec.ofNat 32 (tally cfg (delaysUntil cfg a) s ops) * p := by
  induction ops generalizing s with
  | nil => simp [exec, tally]
  | cons op ops ih =>
    obtain ⟨hop, hops⟩ := List.forall_mem_cons.mp hops
    calc (exec cfg (step cfg s op) ops).anchors a
        = (step cfg s op).anchors a + BitVec.ofNat 32 (tally cfg (delaysUntil cfg a) (step cfg s op) ops) * p :=
          ih (hs.step op) hops
      _ = s.anchors a + (BitVec.ofNat 32 (delaysUntil cfg a s op) +
            BitVec.ofNat 32 (tally cfg (delaysUntil cfg a) (step cfg s op) ops)) * p := by
          rw [step_paces hs hop, BitVec.add_mul, BitVec.add_assoc]
      _ = s.anchors a + BitVec.ofNat 32 (tally cfg (delaysUntil cfg a) s (op :: ops)) * p := by
          rw [tally, BitVec.ofNat_add]

theorem early_iff {now last : Tick} (hp : p.toNat ≤ 2 ^ 31 - 1) (hlate : (now - last).toNat ≤ p.toNat + 2 ^ 31) :
    (last + p - now ≠ 0#32 && !(int32Max < last + p - now) : Bool) = true ↔ now - last < p := by
  have hahead : (last + p - now ≠ 0#32 && !(int32Max < last + p - now) : Bool) = true ↔
      last + p - now ≠ 0#32 ∧ last + p - now ≤ int32Max := by simp
  rw [hahead]
  simp only [int32Max]
  constructor
  · rintro ⟨hne, hle⟩
    bv_omega
  · intro hlt
    constructor
    · intro heq
      bv_omega
    · bv_omega

theorem delayUntil_early (hs : s.Good cfg) (hruns : s.kernel.Runs t) (hlow : 1 ≤ p.toNat)
    (hhigh : p.toNat ≤ 2 ^ 31 - 1)
    (hlate : (s.kernel.tick - s.anchors a).toNat ≤ p.toNat + 2 ^ 31) :
    ((call cfg s false (.taskDelayUntil (some a) p)).outcome = .blocked ↔ s.kernel.tick - s.anchors a < p) ∧
      (¬ s.kernel.tick - s.anchors a < p →
        call cfg s false (.taskDelayUntil (some a) p) =
          ⟨{ s with anchors := Function.update s.anchors a (s.anchors a + p) }, .returned .ok, false⟩) := by
  have hperiod : (p = 0#32 || int32Max < p : Bool) = false := by
    have hzero : p ≠ 0#32 := by
      rintro rfl
      simp at hlow
    have hmax : p ≤ int32Max := by
      simp only [int32Max]
      bv_omega
    simp [hzero, hmax]
  have hearly := early_iff hhigh hlate
  by_cases hlt : s.kernel.tick - s.anchors a < p
  · have hahead := hearly.mpr hlt
    have h0 : s.anchors a + p - s.kernel.tick ≠ 0#32 := by
      simp only [Bool.and_eq_true, decide_eq_true_eq] at hahead
      exact hahead.1
    have hf : s.anchors a + p - s.kernel.tick ≠ waitForever := by
      intro hf
      rw [hf] at hahead
      simp [waitForever, int32Max] at hahead
    have he := kernelDelayCurrent_eq hs.kernel.toSound hruns.state hruns.current hruns.running hruns.idle h0 hf
    refine ⟨iff_of_true ?_ hlt, fun hno => absurd hlt hno⟩
    simp only [call, callDelayUntil, taskDelayUntil, kernelIsRunning, hruns.state, hperiod, hahead, he]
    rfl
  · have hbehind := Bool.eq_false_of_not_eq_true (mt hearly.mp hlt)
    have hcall : call cfg s false (.taskDelayUntil (some a) p) =
        ⟨{ s with anchors := Function.update s.anchors a (s.anchors a + p) }, .returned .ok, false⟩ := by
      simp only [call, callDelayUntil, taskDelayUntil, kernelIsRunning, hruns.state, hperiod, hbehind]
      rfl
    exact ⟨iff_of_false (by simp [hcall]) hlt, fun _ => hcall⟩

theorem tally_ticked (h : Watched cfg t s) (ops : List Op) : tally cfg ticked s ops = ticksIn ops := by
  induction ops generalizing s with
  | nil => rfl
  | cons op ops ih =>
    have hone : ticked s op = op.ticks := by cases op <;> simp [ticked, Op.ticks, h.started]
    rw [tally, ih (h.step op), hone]
    simp [ticksIn]

theorem Watched.exec_tick (h : Watched cfg t s) (ht : s.Timed cfg) (ops : List Op) :
    (Hairtos.exec cfg s ops).kernel.tick = s.kernel.tick + BitVec.ofNat 32 (ticksIn ops) := by
  rw [Hairtos.exec_tick h.steady ht ops, tally_ticked h]

theorem BlocksFor.releasedAt {op : Op} {d : Tick} (h : BlocksFor cfg s op t .delay d) (hs : Reachable cfg s) :
    ReleasedAt cfg t ((step cfg s op).kernel.tick + d) (step cfg s op) := by
  have hsteady := reachable_steady hs
  have hwatched := h.watched hsteady
  have htimed : (step cfg s op).Timed cfg := exec_timed hsteady (reachable_timed hs) [op]
  have hleft : (step cfg s op).kernel.tick + d - (step cfg s op).kernel.tick = d := by bv_omega
  have hwaits := fun after => h.waits_on hsteady (ungranted_delay cfg t (step cfg s op) after)
  refine ⟨?_, ?_⟩
  · intro after hlt
    rw [hleft] at hlt
    have hend := hwatched.exec after
    refine ⟨?_, ?_⟩
    · apply (hend.steady.good.kernel.shape t).waiting.mp
      show (Kernel.view _ t).cb.wait ≠ none
      simp [Kernel.view, (hwaits after hlt).1]
    · rw [hwatched.exec_tick htimed]
      have hd := d.isLt
      intro heq
      bv_omega
  · intro after hdue
    rw [hleft] at hdue
    have hend := hwatched.exec after
    have hstep : exec cfg (step cfg s op) (after ++ [.tick]) = step cfg (exec cfg (step cfg s op) after) .tick :=
      exec_append cfg _ after [.tick]
    obtain ⟨hwait, hone, -⟩ := hwaits after (by omega)
    obtain ⟨hdone, hresult, hstate⟩ := hend.ends hwait (hone.trans (by congr 1; omega))
    have hsuspended := tick_sameSuspended hend.steady.good hend.steady.quiet hend.started t
    have htick := hwatched.exec_tick htimed (after ++ [.tick])
    rw [ticksIn_append] at htick
    refine ⟨?_, ?_⟩
    · rw [htick]
      have hd := d.isLt
      simp only [ticksIn, Op.ticks, List.map_cons, List.map_nil, List.sum_cons, List.sum_nil] at hdue ⊢
      bv_omega
    · rw [hstep]
      refine ⟨hdone, hresult, ?_, ?_⟩
      · intro hnot
        rcases hstate with hready | ⟨hsus, -⟩
        · exact hready
        · exact absurd (hsuspended.mp hsus) hnot
      · intro hsus
        rcases hstate with hready | hboth
        · exact absurd (hready.symm.trans (hsuspended.mpr hsus)) (by simp)
        · exact hboth

/-- Delays on an anchor do not drift: after any number of successful delays with one period the anchor has moved by
that many periods. A call that is at most half the range late blocks exactly if the period has not elapsed, up to the
tick that ends it, and a call that fails leaves the anchor alone. -/
theorem delayUntil_drift_free (hs : Reachable cfg s) (a : Nat) (p : Tick) (hlow : 1 ≤ p.toNat)
    (hhigh : p.toNat ≤ 2 ^ 31 - 1) :
    (∀ ops, (∀ op ∈ ops, op.Paces a p) →
      (exec cfg s ops).anchors a = s.anchors a + BitVec.ofNat 32 (tally cfg (delaysUntil cfg a) s ops) * p) ∧
    (s.kernel.state = .running → canCall s = true →
      (s.kernel.tick - s.anchors a).toNat ≤ p.toNat + 2 ^ 31 →
      ((call cfg s false (.taskDelayUntil (some a) p)).outcome = .blocked ↔ s.kernel.tick - s.anchors a < p) ∧
      (s.kernel.tick - s.anchors a < p → ∀ t, s.kernel.currentTask = some t →
        ReleasedAt cfg t (s.anchors a + p) (step cfg s (.task (.taskDelayUntil (some a) p)))) ∧
      (¬ s.kernel.tick - s.anchors a < p →
        (call cfg s false (.taskDelayUntil (some a) p)).outcome = .returned .ok ∧
          (call cfg s false (.taskDelayUntil (some a) p)).system.kernel = s.kernel)) ∧
    ∀ inIsr anchor period status, (call cfg s inIsr (.taskDelayUntil anchor period)).outcome = .returned status →
      status ≠ .ok → (call cfg s inIsr (.taskDelayUntil anchor period)).system.anchors = s.anchors := by
  have hsteady := reachable_steady hs
  refine ⟨fun ops => exec_paces hsteady, ?_, ?_⟩
  · intro hk hcall hlate
    obtain ⟨t, hruns⟩ := called_of_canCall hsteady.good hcall rfl hk
    obtain ⟨hblocks, hreturns⟩ := delayUntil_early hsteady.good hruns hlow hhigh hlate
    refine ⟨hblocks, ?_, ?_⟩
    · intro hlt u hu
      obtain rfl : u = t := Option.some.inj (hu.symm.trans hruns.current)
      have hblk : (Op.task (.taskDelayUntil (some a) p)).blocks cfg s = true := by
        simp [Op.blocks, hcall, hblocks.mpr hlt]
      have hstate : ((step cfg s (.task (.taskDelayUntil (some a) p))).kernel.tasks u).state = .blocked := by
        obtain ⟨w, ticks, hrequest, hbegins | ⟨m, rfl, -⟩⟩ := step_begins hsteady hu hblk
        · exact hbegins.state
        · simp [Op.request, Call.request] at hrequest
      have hblocksFor : BlocksFor cfg s (.task (.taskDelayUntil (some a) p)) u .delay
          (s.anchors a + p - s.kernel.tick) := ⟨hu, hblk, rfl, hstate⟩
      have hreleased := hblocksFor.releasedAt hs
      have htick : (step cfg s (.task (.taskDelayUntil (some a) p))).kernel.tick = s.kernel.tick :=
        step_tick_of_ne hsteady (by simp)
      rw [htick] at hreleased
      convert hreleased using 1
      bv_omega
    · intro hno
      rw [hreturns hno]
      exact ⟨rfl, rfl⟩
  · intro inIsr anchor period status hreturns hfails
    cases anchor with
    | none => rfl
    | some b =>
      have hanchor := @taskDelayUntil_anchor cfg s.kernel inIsr (s.anchors b) period
      have hfail : (taskDelayUntil cfg s.kernel inIsr (s.anchors b) period).2.2.succeeds = false := by
        have : (taskDelayUntil cfg s.kernel inIsr (s.anchors b) period).2.2 = .returned status := hreturns
        simp [this, Outcome.succeeds, hfails]
      rw [hfail] at hanchor
      simp only [call, callDelayUntil]
      rw [show (taskDelayUntil cfg s.kernel inIsr (s.anchors b) period).2.1 = s.anchors b from hanchor]
      exact Function.update_eq_self b s.anchors

end

def periodRun : List Op :=
  [.task (.taskDelayUntil (some 0) 3#32), .pendsv, .tick, .tick, .tick, .pendsv, .task (.taskDelayUntil (some 0) 3#32)]

theorem delayUntil_drift_free_periodRun :
    (exec .standard (exec .standard (boot .standard) delayRun) periodRun).anchors 0 = 6#32 ∧
      (call .standard (exec .standard (boot .standard) delayRun) false (.taskDelayUntil (some 0) 3#32)).outcome =
        .blocked ∧
      ReleasedAt .standard (.app 0) 3#32
        (step .standard (exec .standard (boot .standard) delayRun) (.task (.taskDelayUntil (some 0) 3#32))) := by
  have hreachable : Reachable .standard (exec .standard (boot .standard) delayRun) := ⟨delayRun, rfl⟩
  obtain ⟨hpaces, hcalls, -⟩ := delayUntil_drift_free hreachable 0 3#32 (by decide) (by decide)
  obtain ⟨hblocks, hreleased, -⟩ := hcalls (by decide +kernel) (by decide +kernel) (by decide +kernel)
  have hearly : (exec .standard (boot .standard) delayRun).kernel.tick -
      (exec .standard (boot .standard) delayRun).anchors 0 < 3#32 := by decide +kernel
  have hperiods : ∀ op ∈ periodRun, op.Paces 0 3#32 := by
    simp [periodRun, Op.Paces, Call.delaysOn]
  exact ⟨(hpaces periodRun hperiods).trans (by decide +kernel), hblocks.mpr hearly,
    hreleased hearly (.app 0) (by decide +kernel)⟩

end Hairtos
