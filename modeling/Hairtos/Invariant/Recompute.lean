import Hairtos.Invariant.Inheritance

namespace Hairtos

open Library

def Mutexes.Owner (ms : Mutexes) (t : TaskRef) : Prop := ∃ m, (ms.blocks m).owner = some t

section

variable {cfg : Config} {k k' : Kernel} {ms : Mutexes} {o : TaskRef}

theorem Inherits.required_isLeast (hi : Inherits cfg k ms) (h : k.Linked cfg) (t : TaskRef) :
    IsLeast (donors k ms t) (mutexRequiredPriority k ms t) :=
  mutexRequiredPriority_isLeast h.sorted ms t (fun m hm => hi.magic m t ((hi.owner m t).mpr hm))

theorem Inherits.balanced_iff (hi : Inherits cfg k ms) (h : k.Linked cfg) (t : TaskRef) :
    Balanced k ms t ↔ mutexRequiredPriority k ms t = (k.tasks t).effectivePriority := by
  constructor
  · intro hb
    exact (hi.required_isLeast h t).unique hb
  · intro he
    rw [Balanced, ← he]
    exact hi.required_isLeast h t

theorem Inherits.waitPriority (hi : Inherits cfg k ms) (h : k.Linked cfg) {u : TaskRef} {m : MutexRef}
    (hu : k.waitLists.lists.host u = some (.mutex m)) : k.waitLists.priority u = (k.tasks u).effectivePriority :=
  (h.agree u (hi.waits u m hu).1).2

theorem Inherits.required_mono (hi : Inherits cfg k ms) (hi' : Inherits cfg k' ms) (h : k.Linked cfg)
    (h' : k'.Linked cfg) (hhost : k'.waitLists.lists.host = k.waitLists.lists.host)
    (hbase : ∀ u, (k'.tasks u).basePriority = (k.tasks u).basePriority)
    (hle : ∀ u, (k'.tasks u).effectivePriority ≤ (k.tasks u).effectivePriority) (t : TaskRef) :
    mutexRequiredPriority k' ms t ≤ mutexRequiredPriority k ms t := by
  have hleast' := hi'.required_isLeast h' t
  rcases (hi.required_isLeast h t).1 with hp | ⟨m, u, ho, hu, hp⟩
  · rw [hp, ← hbase t]
    exact hleast'.2 (Or.inl rfl)
  · have hu' : k'.waitLists.lists.host u = some (.mutex m) := by rw [hhost, hu]
    calc mutexRequiredPriority k' ms t ≤ k'.waitLists.priority u := hleast'.2 (Or.inr ⟨m, u, ho, hu', rfl⟩)
      _ = (k'.tasks u).effectivePriority := hi'.waitPriority h' hu'
      _ ≤ (k.tasks u).effectivePriority := hle u
      _ = mutexRequiredPriority k ms t := by rw [hp, hi.waitPriority h hu]

theorem Inherits.owner_valid (hi : Inherits cfg k ms) (ho : ms.Owner o) :
    (k.tasks o).magic = true ∧ (k.tasks o).basePriority < cfg.idlePriority := by
  obtain ⟨m, ho⟩ := ho
  exact hi.owners m o ho

theorem mutexRecomputeTaskPriority_round (h : k.Linked cfg) (hi : Inherits cfg k ms) (hm : (k.tasks o).magic = true)
    (hb : (k.tasks o).basePriority < cfg.idlePriority) (fuel : Nat) :
    ∃ k1, kernelSetTaskEffectivePriority cfg k o (mutexRequiredPriority k ms o) = (k1, .ok) ∧ k1.Linked cfg ∧
      Inherits cfg k1 ms ∧ Reprio k k1 ∧
      k1.tasks = Function.update k.tasks o { k.tasks o with effectivePriority := mutexRequiredPriority k ms o } ∧
      (mutexNextOwner k ms o = none ∧ mutexRecomputeTaskPriority cfg ms (fuel + 1) k o = (k1, .ok) ∨
        ∃ n, mutexNextOwner k ms o = some n ∧ ms.Owner n ∧
          mutexRecomputeTaskPriority cfg ms (fuel + 1) k o = mutexRecomputeTaskPriority cfg ms fuel k1 n) := by
  obtain ⟨k1, he, h1, hr, htasks, -⟩ := kernelSetTaskEffectivePriority_spec h o _ hm
    ((mutexRequiredPriority_le h hi o).trans_lt hb)
  have hnext := hr.mutexNextOwner ms
  refine ⟨k1, he, h1, hi.reprio hr, hr, htasks, ?_⟩
  cases hn : mutexNextOwner k ms o with
  | none => exact Or.inl ⟨rfl, by simp [mutexRecomputeTaskPriority, he, hnext, hn]⟩
  | some n =>
    exact Or.inr ⟨n, rfl, owner_of_mutexNextOwner hn, by simp [mutexRecomputeTaskPriority, he, hnext, hn]⟩

theorem mutexRecomputeTaskPriority_of_balanced (fuel : Nat) (h : k.Linked cfg) (hi : Inherits cfg k ms)
    (hb : ∀ u, ms.Owner u → Balanced k ms u) (ho : ms.Owner o) :
    (mutexRecomputeTaskPriority cfg ms fuel k o).1 = k := by
  induction fuel generalizing o with
  | zero => rfl
  | succ fuel ih =>
    have hsame := (hi.balanced_iff h o).mp (hb o ho)
    obtain ⟨k1, he, -, -, -, -, hcases⟩ :=
      mutexRecomputeTaskPriority_round h hi (hi.owner_valid ho).1 (hi.owner_valid ho).2 fuel
    obtain rfl : k = k1 := by
      have hkeep : (kernelSetTaskEffectivePriority cfg k o (mutexRequiredPriority k ms o)).1 = k := by
        unfold kernelSetTaskEffectivePriority
        rw [if_pos hsame.symm]
        split_ifs <;> rfl
      rw [← hkeep, he]
    rcases hcases with ⟨-, heq⟩ | ⟨n, -, hn, heq⟩
    · rw [heq]
    · rw [heq, ih hn]

def Kernel.Lagging (k : Kernel) (ms : Mutexes) : Prop :=
  ∀ u, ms.Owner u → mutexRequiredPriority k ms u ≤ (k.tasks u).effectivePriority

theorem effectivePriority_update {p : Nat} (htasks : k'.tasks = Function.update k.tasks o
      { k.tasks o with effectivePriority := p }) (u : TaskRef) :
    (k'.tasks u).effectivePriority = if u = o then p else (k.tasks u).effectivePriority := by
  rw [htasks]
  split_ifs with hu
  · subst hu
    rw [Function.update_self]
  · rw [Function.update_of_ne hu]

theorem Kernel.Lagging.round (hlag : k.Lagging ms) (h : k.Linked cfg) (hi : Inherits cfg k ms) (h' : k'.Linked cfg)
    (hr : Reprio k k') (ho : ms.Owner o)
    (htasks : k'.tasks = Function.update k.tasks o
      { k.tasks o with effectivePriority := mutexRequiredPriority k ms o }) :
    k'.Lagging ms ∧ ∀ u, (k'.tasks u).effectivePriority ≤ (k.tasks u).effectivePriority := by
  have heff := effectivePriority_update htasks
  have hle : ∀ u, (k'.tasks u).effectivePriority ≤ (k.tasks u).effectivePriority := by
    intro u
    rw [heff u]
    split_ifs with hu
    · rw [hu]
      exact hlag o ho
    · exact le_rfl
  refine ⟨?_, hle⟩
  intro u hu
  have hmono := hi.required_mono (hi.reprio hr) h h' hr.waitHost (fun v => by rw [hr.tasks v]) hle u
  rw [heff u]
  split_ifs with huo
  · exact huo ▸ hmono
  · exact hmono.trans (hlag u hu)

theorem mutexRecomputeTaskPriority_le (fuel : Nat) (h : k.Linked cfg) (hi : Inherits cfg k ms) (hlag : k.Lagging ms)
    (ho : ms.Owner o) (u : TaskRef) :
    ((mutexRecomputeTaskPriority cfg ms fuel k o).1.tasks u).effectivePriority ≤ (k.tasks u).effectivePriority := by
  induction fuel generalizing k o with
  | zero => exact le_rfl
  | succ fuel ih =>
    obtain ⟨k1, -, h1, hi1, hr, htasks, hcases⟩ :=
      mutexRecomputeTaskPriority_round h hi (hi.owner_valid ho).1 (hi.owner_valid ho).2 fuel
    obtain ⟨hlag1, hle⟩ := hlag.round h hi h1 hr ho htasks
    rcases hcases with ⟨-, heq⟩ | ⟨n, -, hn, heq⟩
    · rw [heq]
      exact hle u
    · rw [heq]
      exact (ih h1 hi1 hlag1 hn).trans (hle u)

theorem mutexRecomputeTaskPriority_le_required (fuel : Nat) (h : k.Linked cfg) (hi : Inherits cfg k ms)
    (hlag : k.Lagging ms) (ho : ms.Owner o) :
    ((mutexRecomputeTaskPriority cfg ms (fuel + 1) k o).1.tasks o).effectivePriority ≤ mutexRequiredPriority k
    ms o := by
  obtain ⟨k1, -, h1, hi1, hr, htasks, hcases⟩ :=
    mutexRecomputeTaskPriority_round h hi (hi.owner_valid ho).1 (hi.owner_valid ho).2 fuel
  obtain ⟨hlag1, -⟩ := hlag.round h hi h1 hr ho htasks
  have hself : (k1.tasks o).effectivePriority = mutexRequiredPriority k ms o := by
    rw [effectivePriority_update htasks, if_pos rfl]
  rcases hcases with ⟨-, heq⟩ | ⟨n, -, hn, heq⟩
  · rw [heq, hself]
  · rw [heq, ← hself]
    exact mutexRecomputeTaskPriority_le fuel h1 hi1 hlag1 hn o

def Lifts (p a b : Nat) : Prop := a ≤ b ∧ (a = b ∨ a = p)

theorem Lifts.refl (p a : Nat) : Lifts p a a := ⟨le_rfl, Or.inl rfl⟩

theorem Lifts.trans {p a b c : Nat} (h : Lifts p a b) (h' : Lifts p b c) : Lifts p a c := by
  refine ⟨h.1.trans h'.1, ?_⟩
  rcases h.2 with rfl | ha
  · exact h'.2
  · exact Or.inr ha

theorem Inherits.required_lifts {p : Nat} (hi : Inherits cfg k ms) (hi' : Inherits cfg k' ms) (h : k.Linked cfg)
    (h' : k'.Linked cfg) (hbase : ∀ u, (k'.tasks u).basePriority = (k.tasks u).basePriority)
    (hhost : ∀ u m, k'.waitLists.lists.host u = some (.mutex m) → k.waitLists.lists.host u = some (.mutex m))
    (hgone : ∀ u m, k.waitLists.lists.host u = some (.mutex m) →
      k'.waitLists.lists.host u = some (.mutex m) ∨ (k.tasks u).effectivePriority = p)
    (hlift : ∀ u, Lifts p (k.tasks u).effectivePriority (k'.tasks u).effectivePriority) (t : TaskRef) :
    Lifts p (mutexRequiredPriority k ms t) (mutexRequiredPriority k' ms t) := by
  have hleast := hi.required_isLeast h t
  have hleast' := hi'.required_isLeast h' t
  have hle : mutexRequiredPriority k ms t ≤ mutexRequiredPriority k' ms t := by
    rcases hleast'.1 with hp | ⟨m, u, ho, hu, hp⟩
    · rw [hp, hbase t]
      exact hleast.2 (Or.inl rfl)
    · have hdonor := hleast.2 (Or.inr ⟨m, u, ho, hhost u m hu, rfl⟩)
      rw [hi.waitPriority h (hhost u m hu)] at hdonor
      rw [hp, hi'.waitPriority h' hu]
      exact hdonor.trans (hlift u).1
  refine ⟨hle, ?_⟩
  rcases hleast.1 with hp | ⟨m, u, ho, hu, hp⟩
  · left
    apply hle.antisymm
    rw [hp, ← hbase t]
    exact hleast'.2 (Or.inl rfl)
  · rw [hi.waitPriority h hu] at hp
    rcases hgone u m hu with hu' | hu'
    · rcases (hlift u).2 with heq | heq
      · left
        apply hle.antisymm
        rw [hp, heq, ← hi'.waitPriority h' hu']
        exact hleast'.2 (Or.inr ⟨m, u, ho, hu', rfl⟩)
      · exact Or.inr (hp.trans heq)
    · exact Or.inr (hp.trans hu')

def Kernel.Leading (k : Kernel) (ms : Mutexes) (p : Nat) : Prop :=
  ∀ u, ms.Owner u → Lifts p (k.tasks u).effectivePriority (mutexRequiredPriority k ms u)

theorem mutexRecomputeTaskPriority_lifts {p : Nat} (fuel : Nat) (h : k.Linked cfg) (hi : Inherits cfg k ms)
    (hlead : k.Leading ms p) (ho : ms.Owner o) (u : TaskRef) :
    Lifts p (k.tasks u).effectivePriority
      ((mutexRecomputeTaskPriority cfg ms fuel k o).1.tasks u).effectivePriority := by
  induction fuel generalizing k o with
  | zero => exact .refl p _
  | succ fuel ih =>
    obtain ⟨hm, hb⟩ := hi.owner_valid ho
    obtain ⟨k1, -, h1, hi1, hr, htasks, hcases⟩ := mutexRecomputeTaskPriority_round h hi hm hb fuel
    have heff := effectivePriority_update htasks
    have hlift : ∀ v, Lifts p (k.tasks v).effectivePriority (k1.tasks v).effectivePriority := by
      intro v
      rw [heff v]
      split_ifs with hv
      · rw [hv]
        exact hlead o ho
      · exact .refl p _
    have hrequired := hi.required_lifts hi1 h h1 (fun v => by rw [hr.tasks v])
      (fun v m hv => by rwa [hr.waitHost] at hv)
      (fun v m hv => Or.inl (by rwa [hr.waitHost])) hlift
    have hlead1 : k1.Leading ms p := by
      intro v hv
      rw [heff v]
      split_ifs with hvo
      · rw [hvo]
        exact hrequired o
      · exact (hlead v hv).trans (hrequired v)
    rcases hcases with ⟨-, heq⟩ | ⟨n, -, hn, heq⟩
    · rw [heq]
      exact hlift u
    · rw [heq]
      exact (hlift u).trans (ih h1 hi1 hlead1 hn)

theorem mutexRecomputeTaskPriority_unreached (fuel : Nat) (h : k.Linked cfg) (hi : Inherits cfg k ms)
    (ho : ms.Owner o) {t : TaskRef}
    (hno : ¬ Relation.ReflTransGen (fun a b => mutexNextOwner k ms a = some b) o t) :
    (mutexRecomputeTaskPriority cfg ms fuel k o).1.tasks t = k.tasks t := by
  induction fuel generalizing k o with
  | zero => rfl
  | succ fuel ih =>
    obtain ⟨hm, hb⟩ := hi.owner_valid ho
    obtain ⟨k1, -, h1, hi1, hr, htasks, hcases⟩ := mutexRecomputeTaskPriority_round h hi hm hb fuel
    have hto : t ≠ o := by
      rintro rfl
      exact hno .refl
    have hsame : k1.tasks t = k.tasks t := by rw [htasks, Function.update_of_ne hto]
    rcases hcases with ⟨-, heq⟩ | ⟨n, hnext, hn, heq⟩
    · rw [heq, hsame]
    · rw [heq, ih h1 hi1 hn, hsame]
      rw [hr.mutexNextOwner ms]
      exact fun hreach => hno (.head hnext hreach)

end

end Hairtos
