import Hairtos.List
import Mathlib.Order.Nat
import Mathlib.Data.List.TakeWhile

/-!
The timeout list of `hr_timeout.c`: two sorted lists, one for deadlines of the running tick epoch
and one for deadlines behind the next wrap of the tick counter. `wakeTick` collects the `wake_tick`
fields of the nodes, and `expired` is the list local to the caller of an advance.
-/

namespace Hairtos

open Library

variable {N : Type}

inductive TimeoutSlot
  | slot (i : Bool)
  | expired
  deriving DecidableEq, Repr

structure TimeoutList (N : Type) where
  lists : ListFamily TimeoutSlot N
  wakeTick : N → Tick
  current : Bool
  overflow : Bool
  lastTick : Tick
  count : Nat

def timeoutListInit (wakeTick : N → Tick) (startTick : Tick) : TimeoutList N :=
  ⟨.empty, wakeTick, false, true, startTick, 0⟩

def timeoutOrderIsValid (wakeTick : N → Tick) : List N → Bool
  | a :: b :: rest => !(wakeTick b < wakeTick a) && timeoutOrderIsValid wakeTick (b :: rest)
  | _ => true

def TimeoutList.remaining (t : TimeoutList N) (n : N) : Nat := (t.wakeTick n - t.lastTick).toNat

/-- The current list holds deadlines still ahead in this epoch, the other one deadlines that lie
behind the wrap, so that the former is empty whenever the counter wraps. -/
structure TimeoutList.WellFormed (t : TimeoutList N) : Prop where
  swapped : t.overflow = !t.current
  sorted : ∀ i, (t.lists.seq (.slot i)).Pairwise (fun a b => (t.wakeTick a).toNat ≤ (t.wakeTick b).toNat)
  later : ∀ n, t.lists.host n = some (.slot t.current) → t.lastTick.toNat < (t.wakeTick n).toNat
  wrapped : ∀ n, t.lists.host n = some (.slot t.overflow) → (t.wakeTick n).toNat < t.lastTick.toNat
  count : t.count = (t.lists.seq (.slot false)).length + (t.lists.seq (.slot true)).length

def TimeoutList.Waiting (t : TimeoutList N) (n : N) : Prop := ∃ i, t.lists.host n = some (.slot i)

def TimeoutList.left (t : TimeoutList N) (n : N) : Option Nat :=
  match t.lists.host n with
  | none => none
  | some .expired => some 0
  | some (.slot _) => some (t.remaining n)

theorem TimeoutList.WellFormed.init (wakeTick : N → Tick) (startTick : Tick) :
    (timeoutListInit wakeTick startTick).WellFormed where
  swapped := rfl
  sorted := by simp [timeoutListInit]
  later := by simp [timeoutListInit]
  wrapped := by simp [timeoutListInit]
  count := rfl

theorem TimeoutList.WellFormed.host_slot {t : TimeoutList N} (wf : t.WellFormed) (i : Bool) :
    i = t.current ∨ i = t.overflow := by
  rw [wf.swapped]
  cases i <;> cases t.current <;> simp

theorem remaining_eq_one (t : TimeoutList N) (n : N) : t.remaining n = 1 ↔ t.wakeTick n = t.lastTick + 1#32 := by
  unfold TimeoutList.remaining
  constructor
  · intro h
    bv_omega
  · intro h
    rw [h]
    bv_omega

theorem TimeoutList.WellFormed.remaining_pos {t : TimeoutList N} (wf : t.WellFormed) {n : N} (h : t.Waiting n) :
    0 < t.remaining n := by
  obtain ⟨i, hi⟩ := h
  unfold TimeoutList.remaining
  rcases wf.host_slot i with rfl | rfl
  · have := wf.later n hi
    bv_omega
  · have := wf.wrapped n hi
    bv_omega

theorem timeoutOrderIsValid_of_pairwise (wakeTick : N → Tick) (xs : List N)
    (h : xs.Pairwise (fun a b => (wakeTick a).toNat ≤ (wakeTick b).toNat)) :
    timeoutOrderIsValid wakeTick xs = true := by
  induction xs with
  | nil => rfl
  | cons a rest ih =>
    obtain ⟨ha, hrest⟩ := List.pairwise_cons.mp h
    cases rest with
    | nil => rfl
    | cons b rest =>
      have hab : ¬ wakeTick b < wakeTick a := not_lt.mpr (ha b List.mem_cons_self)
      simp only [timeoutOrderIsValid, hab, decide_false, Bool.not_false, Bool.true_and]
      exact ih hrest

variable [DecidableEq N]

def timeoutListInsert (t : TimeoutList N) (n : N) (delayTicks : Tick) : TimeoutList N × Status :=
  if delayTicks = waitForever then (t, .invalidArgument)
  else if hn : t.lists.host n = none then
    let wakeTick := Function.update t.wakeTick n (t.lastTick + delayTicks)
    let target := if t.lastTick + delayTicks < t.lastTick then t.overflow else t.current
    ({ t with
        lists := t.lists.link (.slot target) n _
          (insertSorted_perm (fun m => (wakeTick m).toNat) n (t.lists.seq (.slot target))) hn
        wakeTick := wakeTick
        count := t.count + 1 }, .ok)
  else (t, .invalidState)

def timeoutListRemove (t : TimeoutList N) (n : N) : TimeoutList N × Status :=
  if t.lists.host n ≠ some (.slot t.current) ∧ t.lists.host n ≠ some (.slot t.overflow) then (t, .invalidState)
  else
    let (lists, status) := listRemove t.lists n
    if status ≠ .ok then ({ t with lists := lists }, status)
    else ({ t with lists := lists, count := t.count - 1 }, .ok)

def advanceLoop (now : Tick) : Nat → TimeoutList N → TimeoutList N × Status
  | 0, t => (t, .ok)
  | fuel + 1, t =>
    match listFront t.lists (.slot t.current) with
    | none => (t, .ok)
    | some n =>
      if now < t.wakeTick n then (t, .ok)
      else
        let (lists, status) := listRemove t.lists n
        if status ≠ .ok then ({ t with lists := lists }, .internal)
        else
          let (lists, status) := listPushBack lists .expired n
          if status ≠ .ok then ({ t with lists := lists }, .internal)
          else advanceLoop now fuel { t with lists := lists, count := t.count - 1 }

def timeoutListAdvance (t : TimeoutList N) (now : Tick) : TimeoutList N × Status :=
  if !listIsEmpty t.lists .expired then (t, .invalidState)
  else
    let t := if now < t.lastTick then { t with current := t.overflow, overflow := t.current } else t
    advanceLoop now (listSize t.lists (.slot t.current)) { t with lastTick := now }

def timeoutListValidate (t : TimeoutList N) : Bool :=
  (t.current != t.overflow) &&
    listValidate t.lists (.slot t.current) && listValidate t.lists (.slot t.overflow) &&
    timeoutOrderIsValid t.wakeTick (t.lists.seq (.slot t.current)) &&
    timeoutOrderIsValid t.wakeTick (t.lists.seq (.slot t.overflow)) &&
    (listSize t.lists (.slot t.current) + listSize t.lists (.slot t.overflow) == t.count)

theorem timeoutListInsert_eq (t : TimeoutList N) (n : N) (d : Tick) (hd : d ≠ waitForever)
    (hn : t.lists.host n = none) :
    let wakeTick := Function.update t.wakeTick n (t.lastTick + d)
    let target := if t.lastTick + d < t.lastTick then t.overflow else t.current
    timeoutListInsert t n d =
      ({ t with
          lists := t.lists.link (.slot target) n _
            (insertSorted_perm (fun m => (wakeTick m).toNat) n (t.lists.seq (.slot target))) hn
          wakeTick := wakeTick
          count := t.count + 1 }, .ok) := by
  simp [timeoutListInsert, hd, hn]

theorem timeoutListRemove_eq (t : TimeoutList N) (n : N)
    (hn : t.lists.host n = some (.slot t.current) ∨ t.lists.host n = some (.slot t.overflow)) :
    timeoutListRemove t n = ({ t with lists := t.lists.unlink n, count := t.count - 1 }, .ok) := by
  have hne : t.lists.host n ≠ none := by
    rcases hn with h | h <;> simp [h]
  rcases hn with h | h <;> simp [timeoutListRemove, h, listRemove_ok t.lists n hne]

theorem insert_remaining (a d : Tick) : (a + d - a).toNat = d.toNat := by
  bv_omega

theorem timeoutListInsert_spec {t : TimeoutList N} (wf : t.WellFormed) (n : N) (d : Tick)
    (h0 : d ≠ 0#32) (hd : d ≠ waitForever) (hn : t.lists.host n = none) :
    ∃ t' i, timeoutListInsert t n d = (t', .ok) ∧ t'.WellFormed ∧ t'.lastTick = t.lastTick ∧
      t'.lists.host = Function.update t.lists.host n (some (.slot i)) ∧
      t'.lists.seq = Function.update t.lists.seq (.slot i)
        (insertSorted (fun m => (t'.wakeTick m).toNat) n (t.lists.seq (.slot i))) ∧
      t'.wakeTick = Function.update t.wakeTick n (t.lastTick + d) := by
  refine ⟨_, if t.lastTick + d < t.lastTick then t.overflow else t.current,
    timeoutListInsert_eq t n d hd hn, ⟨wf.swapped, ?_, ?_, ?_, ?_⟩, rfl, rfl, rfl, rfl⟩
  · intro i
    have hold : (t.lists.seq (.slot i)).Pairwise
        (fun a b => (Function.update t.wakeTick n (t.lastTick + d) a).toNat ≤
          (Function.update t.wakeTick n (t.lastTick + d) b).toNat) := by
      apply (wf.sorted i).imp_of_mem
      intro a b ha hb hab
      have hne : ∀ m ∈ t.lists.seq (.slot i), m ≠ n := by
        rintro m hm rfl
        exact t.lists.not_mem_of_host_none hn _ hm
      simpa only [Function.update_of_ne (hne a ha), Function.update_of_ne (hne b hb)] using hab
    simp only [ListFamily.link_seq]
    by_cases hi : i = if t.lastTick + d < t.lastTick then t.overflow else t.current
    · rw [← hi, Function.update_self]
      exact insertSorted_pairwise (fun m => (Function.update t.wakeTick n (t.lastTick + d) m).toNat) n _ hold
    · rw [Function.update_of_ne (by simpa using hi)]
      exact hold
  · intro m hm
    by_cases hmn : m = n
    · subst hmn
      simp only [ListFamily.link_host, Function.update_self, Option.some.injEq, TimeoutSlot.slot.injEq] at hm ⊢
      have hno : ¬ t.lastTick + d < t.lastTick := by
        intro hlt
        rw [if_pos hlt, wf.swapped] at hm
        simp at hm
      have : d.toNat ≠ 0 := by
        intro hz
        exact h0 (BitVec.eq_of_toNat_eq (by simpa using hz))
      bv_omega
    · simp only [ListFamily.link_host, ne_eq, hmn, not_false_eq_true, Function.update_of_ne] at hm ⊢
      exact wf.later m hm
  · intro m hm
    by_cases hmn : m = n
    · subst hmn
      simp only [ListFamily.link_host, Function.update_self, Option.some.injEq, TimeoutSlot.slot.injEq] at hm ⊢
      by_contra hge
      rw [if_neg (by bv_omega), wf.swapped] at hm
      simp at hm
    · simp only [ListFamily.link_host, ne_eq, hmn, not_false_eq_true, Function.update_of_ne] at hm ⊢
      exact wf.wrapped m hm
  · simp only [wf.count, ListFamily.link_seq]
    cases hi : (if t.lastTick + d < t.lastTick then t.overflow else t.current) with
    | false =>
      simp only [Function.update_self, (insertSorted_perm _ _ _).length_eq, List.length_cons, ne_eq,
        TimeoutSlot.slot.injEq, Bool.true_eq_false, not_false_eq_true, Function.update_of_ne]
      omega
    | true =>
      simp only [Function.update_self, (insertSorted_perm _ _ _).length_eq, List.length_cons, ne_eq,
        TimeoutSlot.slot.injEq, Bool.false_eq_true, not_false_eq_true, Function.update_of_ne]
      omega

theorem timeoutListRemove_spec {t : TimeoutList N} (wf : t.WellFormed) (n : N) (hn : t.Waiting n) :
    ∃ t', timeoutListRemove t n = (t', .ok) ∧ t'.WellFormed ∧ t'.lastTick = t.lastTick ∧
      t'.lists = t.lists.unlink n ∧ t'.wakeTick = t.wakeTick := by
  obtain ⟨i, hi⟩ := hn
  have hmem : n ∈ t.lists.seq (.slot i) := (t.lists.mem_seq _ _).mpr hi
  have hold : ∀ m l, (t.lists.unlink n).host m = some l → t.lists.host m = some l := by
    intro m l h
    by_cases hm : m = n
    · simp [hm] at h
    · simpa [hm] using h
  refine ⟨_, timeoutListRemove_eq t n ?_, ⟨wf.swapped, ?_, ?_, ?_, ?_⟩, rfl, rfl, rfl⟩
  · rcases wf.host_slot i with rfl | rfl
    · exact Or.inl hi
    · exact Or.inr hi
  · intro j
    exact (wf.sorted j).sublist List.erase_sublist
  · intro m hm
    exact wf.later m (hold m _ hm)
  · intro m hm
    exact wf.wrapped m (hold m _ hm)
  · have hother : (t.lists.unlink n).seq (.slot !i) = t.lists.seq (.slot !i) := by
      apply ListFamily.unlink_seq_of_ne
      rw [hi]
      simp
    have hsame : ((t.lists.unlink n).seq (.slot i)).length + 1 = (t.lists.seq (.slot i)).length := by
      rw [ListFamily.unlink_seq, List.length_erase_of_mem hmem]
      have := List.length_pos_of_mem hmem
      omega
    have hcount := wf.count
    cases i with
    | false =>
      simp only [Bool.not_false] at hother
      simp only [hother]
      omega
    | true =>
      simp only [Bool.not_true] at hother
      simp only [hother]
      omega

theorem advanceLoop_spec (now : Tick) (fuel : Nat) (t : TimeoutList N) (xs : List N)
    (hx : t.lists.seq (.slot t.current) = xs) (hf : xs.length ≤ fuel) :
    let due := fun m => !decide (now < t.wakeTick m)
    ∃ t', advanceLoop now fuel t = (t', .ok) ∧ t'.current = t.current ∧ t'.overflow = t.overflow ∧
      t'.lastTick = t.lastTick ∧ t'.wakeTick = t.wakeTick ∧ t'.count = t.count - (xs.takeWhile due).length ∧
      t'.lists.seq = Function.update (Function.update t.lists.seq (.slot t.current) (xs.dropWhile due))
        .expired (t.lists.seq .expired ++ xs.takeWhile due) := by
  have hself := Function.update_eq_self (.slot t.current) t.lists.seq
  rw [hx] at hself
  induction fuel generalizing t xs with
  | zero =>
    obtain rfl := List.eq_nil_of_length_eq_zero (Nat.le_zero.mp hf)
    exact ⟨t, rfl, rfl, rfl, rfl, rfl, rfl, by simp [hself]⟩
  | succ fuel ih =>
    cases xs with
    | nil =>
      exact ⟨t, by simp [advanceLoop, listFront, hx], rfl, rfl, rfl, rfl, rfl, by simp [hself]⟩
    | cons n rest =>
      by_cases hlt : now < t.wakeTick n
      · exact ⟨t, by simp [advanceLoop, listFront, hx, hlt], rfl, rfl, rfl, rfl, by simp [hlt],
          by simp [hlt, hself]⟩
      · have hhost := t.lists.host_of_head hx
        have hnone : (t.lists.unlink n).host n = none := by simp
        let lists := (t.lists.unlink n).link .expired n _ (List.perm_append_singleton n _) hnone
        let u : TimeoutList N := { t with lists := lists, count := t.count - 1 }
        have hstep : advanceLoop now (fuel + 1) t = advanceLoop now fuel u := by
          simp [advanceLoop, listFront, hx, hlt, listRemove_ok t.lists n (by simp [hhost]),
            listPushBack_ok _ _ _ hnone, u, lists]
        have hcur : u.lists.seq (.slot u.current) = rest := by
          simp [u, lists, ListFamily.unlink_seq, hx]
        have hexp : u.lists.seq .expired = t.lists.seq .expired ++ [n] := by
          have := ListFamily.unlink_seq_of_ne t.lists (n := n) (k := .expired) (by simp [hhost])
          simp [u, lists, this]
        have hother : ∀ l, l ≠ .slot t.current → l ≠ .expired → u.lists.seq l = t.lists.seq l := by
          intro l hl he
          have := ListFamily.unlink_seq_of_ne t.lists (n := n) (k := l) (by
            rw [hhost]
            exact fun h => hl (Option.some.inj h).symm)
          simp [u, lists, he, this]
        obtain ⟨t', he, h1, h2, h3, h4, h5, h6⟩ :=
          ih u rest hcur (by simpa using hf) (by rw [← hcur, Function.update_eq_self])
        refine ⟨t', hstep.trans he, h1, h2, h3, h4, ?_, ?_⟩
        · rw [h5]
          simp only [u, hlt, decide_false, Bool.not_false, List.takeWhile_cons_of_pos, List.length_cons]
          omega
        · rw [h6]
          funext l
          simp only [hlt, decide_false, Bool.not_false, List.takeWhile_cons_of_pos, List.dropWhile_cons_of_pos,
            hexp, List.append_assoc, List.cons_append, List.nil_append]
          by_cases hl : l = .expired
          · simp [hl, u]
          · rw [Function.update_of_ne hl, Function.update_of_ne hl]
            by_cases hc : l = .slot t.current
            · simp [hc, u]
            · rw [Function.update_of_ne hc, Function.update_of_ne hc]
              exact hother l hc hl

structure TimeoutList.Ticked (t t' : TimeoutList N) : Prop where
  lastTick : t'.lastTick = t.lastTick + 1#32
  wakeTick : t'.wakeTick = t.wakeTick
  expired : ∀ n, t'.lists.host n = some .expired ↔ t.Waiting n ∧ t.remaining n = 1
  kept : ∀ n i, t'.lists.host n = some (.slot i) ↔ t.lists.host n = some (.slot i) ∧ t.remaining n ≠ 1
  order : ∃ i, (t'.lists.seq .expired).Sublist (t.lists.seq (.slot i))
  keptOrder : ∀ i, (t'.lists.seq (.slot i)).Sublist (t.lists.seq (.slot i))

def TimeoutList.due (t : TimeoutList N) (now : Tick) (n : N) : Bool := !decide (now < t.wakeTick n)

structure TimeoutList.Swept (t : TimeoutList N) (now : Tick) (t' : TimeoutList N) : Prop where
  current : t'.current = t.current
  overflow : t'.overflow = t.overflow
  lastTick : t'.lastTick = now
  wakeTick : t'.wakeTick = t.wakeTick
  expired : t'.lists.seq .expired = (t.lists.seq (.slot t.current)).filter (t.due now)
  kept : t'.lists.seq (.slot t.current) = (t.lists.seq (.slot t.current)).filter (fun n => !t.due now n)
  other : t'.lists.seq (.slot !t.current) = t.lists.seq (.slot !t.current)
  count : t'.count = t.count - ((t.lists.seq (.slot t.current)).filter (t.due now)).length

theorem advanceLoop_swept {t : TimeoutList N} (now : Tick) (he : t.lists.seq .expired = [])
    (hmono : (t.lists.seq (.slot t.current)).Pairwise (fun a b => t.due now b = true → t.due now a = true)) :
    ∃ t', advanceLoop now (listSize t.lists (.slot t.current)) { t with lastTick := now } = (t', .ok) ∧
      t.Swept now t' := by
  obtain ⟨t', hrun, hcurrent, hoverflow, hlast, hwake, hcount, hseq⟩ :=
    advanceLoop_spec now (listSize t.lists (.slot t.current)) { t with lastTick := now } _ rfl (le_refl _)
  have htake : (t.lists.seq (.slot t.current)).takeWhile (fun m => !decide (now < t.wakeTick m)) =
      (t.lists.seq (.slot t.current)).filter (t.due now) := takeWhile_eq_filter _ _ hmono
  have hdrop : (t.lists.seq (.slot t.current)).dropWhile (fun m => !decide (now < t.wakeTick m)) =
      (t.lists.seq (.slot t.current)).filter (fun m => !t.due now m) := dropWhile_eq_filter _ _ hmono
  simp only [he, List.nil_append, htake, hdrop] at hcount hseq
  exact ⟨t', hrun, hcurrent, hoverflow, hlast, hwake, by simp [hseq], by simp [hseq], by simp [hseq], hcount⟩

namespace TimeoutList.Swept

variable {t t' : TimeoutList N} {now : Tick}

omit [DecidableEq N] in
theorem wellFormed (h : t.Swept now t') (hswap : t.overflow = !t.current)
    (hsorted : ∀ i, (t.lists.seq (.slot i)).Pairwise (fun a b => (t.wakeTick a).toNat ≤ (t.wakeTick b).toNat))
    (hwrapped : ∀ n ∈ t.lists.seq (.slot !t.current), (t.wakeTick n).toNat < now.toNat)
    (hcount : t.count = (t.lists.seq (.slot false)).length + (t.lists.seq (.slot true)).length) :
    t'.WellFormed := by
  refine ⟨by rw [h.current, h.overflow, hswap], fun i => ?_, fun n hn => ?_, fun n hn => ?_, ?_⟩
  · rw [h.wakeTick]
    by_cases hi : i = t.current
    · rw [hi, h.kept]
      exact (hsorted t.current).sublist List.filter_sublist
    · rw [(Bool.eq_not_of_ne hi : i = !t.current), h.other]
      exact hsorted _
  · rw [h.current, ← t'.lists.mem_seq, h.kept] at hn
    obtain ⟨-, hlater⟩ := List.mem_filter.mp hn
    rw [TimeoutList.due, Bool.not_not, decide_eq_true_eq] at hlater
    rw [h.lastTick, h.wakeTick]
    exact hlater
  · rw [h.overflow, hswap, ← t'.lists.mem_seq, h.other] at hn
    rw [h.lastTick, h.wakeTick]
    exact hwrapped n hn
  · have hsplit := List.length_eq_length_filter_add (l := t.lists.seq (.slot t.current)) (t.due now)
    have hkept := congrArg List.length h.kept
    have hother := congrArg List.length h.other
    rw [h.count, hcount]
    cases hc : t.current with
    | false =>
      simp only [hc, Bool.not_false] at hkept hother hsplit
      omega
    | true =>
      simp only [hc, Bool.not_true] at hkept hother hsplit
      omega

omit [DecidableEq N] in
theorem ticked (h : t.Swept now t') (hnow : now = t.lastTick + 1#32)
    (hlater : ∀ n ∈ t.lists.seq (.slot t.current), now.toNat ≤ (t.wakeTick n).toNat)
    (hwrapped : ∀ n ∈ t.lists.seq (.slot !t.current), (t.wakeTick n).toNat < now.toNat) : t.Ticked t' := by
  have hrem : ∀ n, t.remaining n = 1 ↔ t.wakeTick n = now := by
    intro n
    rw [remaining_eq_one, hnow]
  have hdue : ∀ n ∈ t.lists.seq (.slot t.current), (t.due now n = true ↔ t.wakeTick n = now) := by
    intro n hn
    have := hlater n hn
    rw [TimeoutList.due, Bool.not_eq_true', decide_eq_false_iff_not]
    constructor <;> intro <;> bv_omega
  have hfar : ∀ n ∈ t.lists.seq (.slot !t.current), t.wakeTick n ≠ now :=
    fun n hn heq => (hwrapped n hn).ne (congrArg BitVec.toNat heq)
  refine ⟨h.lastTick.trans hnow, h.wakeTick, fun n => ?_, fun n i => ?_, ⟨t.current, ?_⟩, fun i => ?_⟩
  · rw [← t'.lists.mem_seq, h.expired, List.mem_filter, hrem]
    constructor
    · rintro ⟨hmem, hd⟩
      exact ⟨⟨_, t.lists.host_of_mem hmem⟩, (hdue n hmem).mp hd⟩
    · rintro ⟨⟨i, hi⟩, hw⟩
      have hmem := (t.lists.mem_seq _ _).mpr hi
      obtain rfl : i = t.current := by
        by_contra hne
        rw [(Bool.eq_not_of_ne hne : i = !t.current)] at hmem
        exact hfar n hmem hw
      exact ⟨hmem, (hdue n hmem).mpr hw⟩
  · rw [← t'.lists.mem_seq, ← t.lists.mem_seq, ne_eq, hrem]
    by_cases hi : i = t.current
    · rw [hi, h.kept, List.mem_filter]
      apply and_congr_right
      intro hmem
      rw [← hdue n hmem, Bool.not_eq_true', Bool.not_eq_true]
    · rw [(Bool.eq_not_of_ne hi : i = !t.current), h.other]
      exact ⟨fun hmem => ⟨hmem, hfar n hmem⟩, fun hmem => hmem.1⟩
  · rw [h.expired]
    exact List.filter_sublist
  · by_cases hi : i = t.current
    · rw [hi, h.kept]
      exact List.filter_sublist
    · rw [(Bool.eq_not_of_ne hi : i = !t.current), h.other]

end TimeoutList.Swept

theorem advance_core {t : TimeoutList N} (now : Tick) (hnow : now = t.lastTick + 1#32)
    (hswap : t.overflow = !t.current) (he : t.lists.seq .expired = [])
    (hsorted : ∀ i, (t.lists.seq (.slot i)).Pairwise (fun a b => (t.wakeTick a).toNat ≤ (t.wakeTick b).toNat))
    (hlater : ∀ n ∈ t.lists.seq (.slot t.current), now.toNat ≤ (t.wakeTick n).toNat)
    (hwrapped : ∀ n ∈ t.lists.seq (.slot !t.current), (t.wakeTick n).toNat < now.toNat)
    (hcount : t.count = (t.lists.seq (.slot false)).length + (t.lists.seq (.slot true)).length) :
    ∃ t', advanceLoop now (listSize t.lists (.slot t.current)) { t with lastTick := now } = (t', .ok) ∧
      t'.WellFormed ∧ t.Ticked t' := by
  obtain ⟨t', hrun, hswept⟩ := advanceLoop_swept now he ((hsorted t.current).imp fun {a b} hab hb => by
    simp only [TimeoutList.due, Bool.not_eq_true', decide_eq_false_iff_not] at hb ⊢
    bv_omega)
  exact ⟨t', hrun, hswept.wellFormed hswap hsorted hwrapped hcount, hswept.ticked hnow hlater hwrapped⟩

theorem timeoutListAdvance_spec {t : TimeoutList N} (wf : t.WellFormed) (he : t.lists.seq .expired = []) :
    ∃ t', timeoutListAdvance t (t.lastTick + 1#32) = (t', .ok) ∧ t'.WellFormed ∧ t.Ticked t' := by
  by_cases hwrap : t.lastTick + 1#32 < t.lastTick
  · -- The counter wraps: nothing can be due beyond the largest tick, so the current list is empty.
    have hmax : t.lastTick.toNat = 2 ^ 32 - 1 := by bv_omega
    have hempty : t.lists.seq (.slot t.current) = [] := by
      apply List.eq_nil_iff_forall_not_mem.mpr
      intro n hn
      have := wf.later n (t.lists.host_of_mem hn)
      omega
    have hswap : t.overflow = !t.current := wf.swapped
    obtain ⟨t', hrun, hwf, hticked⟩ := advance_core (t := { t with current := t.overflow, overflow := t.current })
      (t.lastTick + 1#32) rfl (by simp [hswap]) he wf.sorted
      (fun n _ => by
        have : (t.lastTick + 1#32).toNat = 0 := by bv_omega
        omega)
      (fun n hn => by simp [hswap, hempty] at hn) wf.count
    exact ⟨t', by simpa [timeoutListAdvance, listIsEmpty, he, hwrap] using hrun, hwf,
      ⟨hticked.lastTick, hticked.wakeTick, hticked.expired, hticked.kept, hticked.order, hticked.keptOrder⟩⟩
  · have hstep : (t.lastTick + 1#32).toNat = t.lastTick.toNat + 1 := by bv_omega
    obtain ⟨t', hrun, hwf, hticked⟩ := advance_core (t.lastTick + 1#32) rfl wf.swapped he wf.sorted
      (fun n hn => by
        have := wf.later n (t.lists.host_of_mem hn)
        omega)
      (fun n hn => by
        rw [← wf.swapped] at hn
        have := wf.wrapped n (t.lists.host_of_mem hn)
        omega) wf.count
    exact ⟨t', by simpa [timeoutListAdvance, listIsEmpty, he, hwrap] using hrun, hwf, hticked⟩

omit [DecidableEq N] in
theorem TimeoutList.Ticked.waiting {t t' : TimeoutList N} (h : t.Ticked t') {n : N} (hn : t.Waiting n) :
    t'.lists.host n ≠ none := by
  obtain ⟨i, hi⟩ := hn
  by_cases hr : t.remaining n = 1
  · simp [(h.expired n).mpr ⟨⟨i, hi⟩, hr⟩]
  · simp [(h.kept n i).mpr ⟨hi, hr⟩]

omit [DecidableEq N] in
theorem TimeoutList.Ticked.waited {t t' : TimeoutList N} (h : t.Ticked t') {n : N} (hn : t'.lists.host n ≠ none) :
    t.Waiting n := by
  obtain ⟨l, hl⟩ := Option.ne_none_iff_exists'.mp hn
  cases l with
  | slot i => exact ⟨i, ((h.kept n i).mp hl).1⟩
  | expired => exact ((h.expired n).mp hl).1

omit [DecidableEq N] in
theorem TimeoutList.Ticked.remaining {t t' : TimeoutList N} (h : t.Ticked t') (wf : t.WellFormed) {n : N}
    (hn : t.Waiting n) : t'.remaining n + 1 = t.remaining n := by
  have hpos := wf.remaining_pos hn
  unfold TimeoutList.remaining at hpos ⊢
  rw [h.lastTick, h.wakeTick]
  bv_omega

theorem timeoutListInsert_left {t : TimeoutList N} (wf : t.WellFormed) {n : N} {d : Tick} (h0 : d ≠ 0#32)
    (hd : d ≠ waitForever) (hn : t.lists.host n = none) (m : N) :
    (timeoutListInsert t n d).1.left m = if m = n then some d.toNat else t.left m := by
  obtain ⟨t', i, he, -, hlast, hhost, -, hwake⟩ := timeoutListInsert_spec wf n d h0 hd hn
  rw [he]
  by_cases hm : m = n
  · subst hm
    have hr : t'.remaining m = d.toNat := by
      rw [TimeoutList.remaining, hlast, hwake, Function.update_self, insert_remaining]
    simp [TimeoutList.left, hhost, hr]
  · simp [TimeoutList.left, TimeoutList.remaining, hhost, hlast, hwake, hm]

omit [DecidableEq N] in
theorem TimeoutList.left_eq_some {t : TimeoutList N} {n : N} {i : Nat} (h : t.left n = some i)
    (hx : t.lists.host n ≠ some .expired) : t.Waiting n ∧ t.remaining n = i := by
  unfold TimeoutList.left at h
  split at h
  · simp at h
  · exact absurd ‹_› hx
  · exact ⟨⟨_, ‹_›⟩, Option.some.inj h⟩

omit [DecidableEq N] in
theorem TimeoutList.left_eq_none {t : TimeoutList N} {n : N} : t.left n = none ↔ t.lists.host n = none := by
  unfold TimeoutList.left
  split <;> simp_all

omit [DecidableEq N] in
theorem TimeoutList.Waiting.left {t : TimeoutList N} {n : N} (h : t.Waiting n) : t.left n = some (t.remaining n) := by
  obtain ⟨i, hi⟩ := h
  simp [TimeoutList.left, hi]

omit [DecidableEq N] in
theorem TimeoutList.Ticked.left_of_expired {t t' : TimeoutList N} (h : t.Ticked t') {n : N}
    (hn : t'.lists.host n = some .expired) : t.left n = some 1 := by
  obtain ⟨hw, hr⟩ := (h.expired n).mp hn
  rw [hw.left, hr]

omit [DecidableEq N] in
theorem TimeoutList.Ticked.left {t t' : TimeoutList N} (h : t.Ticked t') (wf : t.WellFormed)
    (hquiet : t.lists.seq .expired = []) (n : N) : t.left n = (t'.left n).map (· + 1) := by
  cases hl : t'.lists.host n with
  | none =>
    have hnone : t.lists.host n = none := by
      by_contra hne
      obtain ⟨l, hl'⟩ := Option.ne_none_iff_exists'.mp hne
      cases l with
      | slot i => exact h.waiting ⟨i, hl'⟩ hl
      | expired => simpa [hquiet] using (t.lists.mem_seq _ _).mpr hl'
    simp [TimeoutList.left, hl, hnone]
  | some l =>
    have hw := h.waited (n := n) (by simp [hl])
    rw [hw.left, ← h.remaining wf hw]
    cases l with
    | slot i => simp [TimeoutList.left, hl]
    | expired =>
      have hone := ((h.expired n).mp hl).2
      have := h.remaining wf hw
      simp only [TimeoutList.left, hl, Option.map_some]
      congr 1
      omega

structure TimeoutList.InOrder (a b : N) (t t' : TimeoutList N) : Prop where
  first : ∀ i, t'.lists.host a = some (.slot i) → t.lists.host a = some (.slot i)
  second : ∀ i, t'.lists.host b = some (.slot i) → t.lists.host b = some (.slot i)
  order : ∀ i, [a, b].Sublist (t.lists.seq (.slot i)) → t'.lists.host a = some (.slot i) →
    t'.lists.host b = some (.slot i) → [a, b].Sublist (t'.lists.seq (.slot i))

section

variable {t t' t'' : TimeoutList N} {a b n : N}

omit [DecidableEq N] in
theorem TimeoutList.InOrder.of_lists (h : t'.lists = t.lists) : t.InOrder a b t' := by
  refine ⟨fun i ha => ?_, fun i hb => ?_, fun i hab _ _ => ?_⟩
  · rwa [h] at ha
  · rwa [h] at hb
  · rwa [h]

omit [DecidableEq N] in
theorem TimeoutList.InOrder.trans (h : t.InOrder a b t') (h' : t'.InOrder a b t'') : t.InOrder a b t'' where
  first := fun i ha => h.first i (h'.first i ha)
  second := fun i hb => h.second i (h'.second i hb)
  order := fun i hab ha hb => h'.order i (h.order i hab (h'.first i ha) (h'.second i hb)) ha hb

theorem TimeoutList.InOrder.of_unlink (h : t'.lists = t.lists.unlink n) : t.InOrder a b t' := by
  have hne : ∀ m i, t'.lists.host m = some (.slot i) → n ≠ m ∧ t.lists.host m = some (.slot i) := by
    intro m i hm
    rw [h] at hm
    by_cases hmn : m = n
    · simp [hmn] at hm
    · exact ⟨Ne.symm hmn, by simpa [hmn] using hm⟩
  refine ⟨fun i ha => (hne a i ha).2, fun i hb => (hne b i hb).2, fun i hab ha hb => ?_⟩
  have herase : [a, b].erase n = [a, b] := List.erase_of_not_mem (by simp [(hne a i ha).1, (hne b i hb).1])
  rw [h, ListFamily.unlink_seq, ← herase]
  exact hab.erase n

theorem timeoutListInsert_inOrder (wf : t.WellFormed) {d : Tick} (h0 : d ≠ 0#32) (hd : d ≠ waitForever)
    (hn : t.lists.host n = none) (ha : a ≠ n) (hb : b ≠ n) : t.InOrder a b (timeoutListInsert t n d).1 := by
  obtain ⟨t', j, he, -, -, hhost, hseq, -⟩ := timeoutListInsert_spec wf n d h0 hd hn
  rw [he]
  refine ⟨fun i h => by simpa [hhost, ha] using h, fun i h => by simpa [hhost, hb] using h, fun i hab _ _ => ?_⟩
  rw [hseq]
  by_cases hij : i = j
  · subst hij
    rw [Function.update_self]
    exact hab.trans (sublist_insertSorted _ _ _)
  · rwa [Function.update_of_ne (by simpa using hij)]

omit [DecidableEq N] in
theorem TimeoutList.WellFormed.same_slot (wf : t.WellFormed) (he : t.wakeTick a = t.wakeTick b) {i j : Bool}
    (ha : t.lists.host a = some (.slot i)) (hb : t.lists.host b = some (.slot j)) : i = j := by
  rcases wf.host_slot i with rfl | rfl <;> rcases wf.host_slot j with rfl | rfl
  · rfl
  · have h1 := wf.later a ha
    have h2 := wf.wrapped b hb
    rw [he] at h1
    omega
  · have h1 := wf.wrapped a ha
    have h2 := wf.later b hb
    rw [he] at h1
    omega
  · rfl

theorem timeoutListInsert_behind (wf : t.WellFormed) {d : Tick} (h0 : d ≠ 0#32) (hd : d ≠ waitForever)
    (hn : t.lists.host n = none) (ha : t.left a = some d.toNat) (hquiet : t.lists.seq .expired = []) :
    ∃ i, [a, n].Sublist ((timeoutListInsert t n d).1.lists.seq (.slot i)) := by
  have hx : t.lists.host a ≠ some .expired := by
    intro hx
    simpa [hquiet] using (t.lists.mem_seq _ _).mpr hx
  obtain ⟨⟨j, hj⟩, hleft⟩ := TimeoutList.left_eq_some ha hx
  have han : a ≠ n := by
    rintro rfl
    simp [hn] at hj
  obtain ⟨t', i, he, hwf, hlast, hhost, hseq, hwake⟩ := timeoutListInsert_spec wf n d h0 hd hn
  have hsame : t'.wakeTick a = t'.wakeTick n := by
    rw [hwake, Function.update_self, Function.update_of_ne han]
    unfold TimeoutList.remaining at hleft
    bv_omega
  obtain rfl : j = i := hwf.same_slot hsame (by simpa [hhost, han] using hj) (by simp [hhost])
  refine ⟨j, ?_⟩
  rw [he, hseq, Function.update_self]
  refine insertSorted_behind _ ?_ ((t.lists.mem_seq _ _).mpr hj) (by rw [hsame])
  exact (hwf.sorted j).sublist (by
    rw [hseq, Function.update_self]
    exact sublist_insertSorted _ _ _)

omit [DecidableEq N] in
theorem TimeoutList.Ticked.inOrder (h : t.Ticked t') : t.InOrder a b t' := by
  refine ⟨fun i ha => ((h.kept a i).mp ha).1, fun i hb => ((h.kept b i).mp hb).1, fun i hab ha hb => ?_⟩
  exact pair_sublist (h.keptOrder i) (t.lists.nodup _) hab ((t'.lists.mem_seq _ _).mpr ha)
    ((t'.lists.mem_seq _ _).mpr hb)

omit [DecidableEq N] in
theorem TimeoutList.Ticked.expires_inOrder (h : t.Ticked t') {i : Bool} (hab : [a, b].Sublist (t.lists.seq (.slot i)))
    (ha : t'.lists.host a = some .expired) (hb : t'.lists.host b = some .expired) :
    [a, b].Sublist (t'.lists.seq .expired) := by
  obtain ⟨j, hj⟩ := h.order
  have hmem := (t'.lists.mem_seq _ _).mpr ha
  have hi := t.lists.host_of_mem (hab.subset (List.mem_cons_self))
  have hj' := t.lists.host_of_mem (hj.subset hmem)
  obtain rfl : i = j := by simpa [hi] using hj'
  exact pair_sublist hj (t.lists.nodup _) hab hmem ((t'.lists.mem_seq _ _).mpr hb)

end

theorem TimeoutList.WellFormed.setWakeTick {t : TimeoutList N} (wf : t.WellFormed) {n : N} (d : Tick)
    (hn : t.lists.host n = none) : { t with wakeTick := Function.update t.wakeTick n d }.WellFormed := by
  have hne : ∀ m l, t.lists.host m = some l → m ≠ n := by
    rintro m l hm rfl
    simp [hn] at hm
  refine ⟨wf.swapped, ?_, ?_, ?_, wf.count⟩
  · intro i
    apply (wf.sorted i).imp_of_mem
    intro a b ha hb hab
    simpa only [Function.update_of_ne (hne a _ (t.lists.host_of_mem ha)),
      Function.update_of_ne (hne b _ (t.lists.host_of_mem hb))] using hab
  · intro m hm
    simpa only [Function.update_of_ne (hne m _ hm)] using wf.later m hm
  · intro m hm
    simpa only [Function.update_of_ne (hne m _ hm)] using wf.wrapped m hm

theorem TimeoutList.WellFormed.popExpired {t : TimeoutList N} (wf : t.WellFormed) {n : N}
    (hn : t.lists.host n = some .expired) : { t with lists := t.lists.unlink n }.WellFormed := by
  have hold : ∀ m l, (t.lists.unlink n).host m = some l → t.lists.host m = some l := by
    intro m l h
    by_cases hm : m = n
    · simp [hm] at h
    · simpa [hm] using h
  have hseq : ∀ i, (t.lists.unlink n).seq (.slot i) = t.lists.seq (.slot i) := by
    intro i
    apply ListFamily.unlink_seq_of_ne
    simp [hn]
  refine ⟨wf.swapped, ?_, ?_, ?_, ?_⟩
  · intro i
    rw [hseq]
    exact wf.sorted i
  · exact fun m hm => wf.later m (hold m _ hm)
  · exact fun m hm => wf.wrapped m (hold m _ hm)
  · rw [hseq, hseq]
    exact wf.count

theorem TimeoutList.WellFormed.validate {t : TimeoutList N} (wf : t.WellFormed) : timeoutListValidate t = true := by
  have hcount : (t.lists.seq (.slot t.current)).length + (t.lists.seq (.slot t.overflow)).length = t.count := by
    rw [wf.count, wf.swapped]
    cases t.current with
    | false => rfl
    | true => exact Nat.add_comm _ _
  have hne : (t.current != t.overflow) = true := by
    rw [wf.swapped]
    cases t.current <;> rfl
  simp [timeoutListValidate, hne, listValidate_eq_true, timeoutOrderIsValid_of_pairwise _ _ (wf.sorted _),
    listSize, hcount]

end Hairtos
