import Hairtos.Library.Arrange
import Hairtos.Library.Runs
import Hairtos.Timeout

namespace Hairtos

open Library

variable {N : Type} [DecidableEq N]

inductive TimeoutOp (N : Type)
  | insert (n : N) (delayTicks : Tick)
  | remove (n : N)
  | advance (ticks : Tick)
  | popExpired
  deriving Repr

inductive TimeoutAnswer (N : Type)
  | status (s : Status)
  | node (n : Option N)
  deriving DecidableEq, Repr

def timeoutStep (t : TimeoutList N) : TimeoutOp N → TimeoutList N × TimeoutAnswer N
  | .insert n delayTicks => ((timeoutListInsert t n delayTicks).1, .status (timeoutListInsert t n delayTicks).2)
  | .remove n => ((timeoutListRemove t n).1, .status (timeoutListRemove t n).2)
  | .advance ticks =>
    ((timeoutListAdvance t (t.lastTick + ticks)).1, .status (timeoutListAdvance t (t.lastTick + ticks)).2)
  | .popExpired =>
    ({ t with lists := (listPopFront t.lists .expired).1 }, .node (listPopFront t.lists .expired).2)

structure Schedule (N : Type) where
  time : Nat
  pending : List (N × Nat)
  expired : List N
  deriving DecidableEq, Repr

def byDeadline (entries : List (N × Nat)) : List (N × Nat) := arrange Prod.snd entries

def scheduleStep (s : Schedule N) : TimeoutOp N → Schedule N × TimeoutAnswer N
  | .insert n delayTicks =>
    if delayTicks = waitForever then (s, .status .invalidArgument)
    else if n ∈ s.pending.map Prod.fst ∨ n ∈ s.expired then (s, .status .invalidState)
    else ({ s with pending := s.pending ++ [(n, s.time + delayTicks.toNat)] }, .status .ok)
  | .remove n =>
    if n ∈ s.pending.map Prod.fst then
      ({ s with pending := s.pending.filter (fun e => e.1 ≠ n) }, .status .ok)
    else (s, .status .invalidState)
  | .advance ticks =>
    if s.expired ≠ [] then (s, .status .invalidState)
    else
      ({ time := s.time + ticks.toNat
         pending := s.pending.filter (fun e => s.time + ticks.toNat < e.2)
         expired := (byDeadline (s.pending.filter (fun e => e.2 ≤ s.time + ticks.toNat))).map Prod.fst }, .status .ok)
  | .popExpired => ({ s with expired := s.expired.tail }, .node s.expired.head?)

def SparesCurrent (t : TimeoutList N) : TimeoutOp N → Prop
  | .advance ticks =>
    listIsEmpty t.lists .expired → t.lastTick + ticks < t.lastTick → listIsEmpty t.lists (.slot t.current)
  | _ => True

instance decidableSparesCurrent (t : TimeoutList N) (op : TimeoutOp N) : Decidable (SparesCurrent t op) :=
  match op with
  | .insert _ _ => isTrue trivial
  | .remove _ => isTrue trivial
  | .advance ticks => inferInstanceAs (Decidable (listIsEmpty t.lists .expired = true →
      t.lastTick + ticks < t.lastTick → listIsEmpty t.lists (.slot t.current) = true))
  | .popExpired => isTrue trivial

def inEpoch (time : Nat) (e : N × Nat) : Bool := e.2 / 2 ^ 32 = time / 2 ^ 32

structure TimeoutList.Shows (t : TimeoutList N) (s : Schedule N) : Prop where
  swapped : t.overflow = !t.current
  tick : t.lastTick.toNat = s.time % 2 ^ 32
  wake : ∀ e ∈ s.pending, (t.wakeTick e.1).toNat = e.2 % 2 ^ 32
  ahead : ∀ e ∈ s.pending, s.time ≤ e.2 ∧ e.2 < s.time + 2 ^ 32
  nodup : (s.pending.map Prod.fst).Nodup
  near : t.lists.seq (.slot t.current) = ((byDeadline s.pending).filter (inEpoch s.time)).map Prod.fst
  far : t.lists.seq (.slot t.overflow) = ((byDeadline s.pending).filter (fun e => !inEpoch s.time e)).map Prod.fst
  expired : t.lists.seq .expired = s.expired
  count : t.count = s.pending.length

omit [DecidableEq N] in
theorem map_byDeadline_append (key : N → Nat) (p : N × Nat → Bool) (entries : List (N × Nat)) (x : N × Nat)
    (hkey : ∀ e ∈ entries, p e = true → p x = true → (x.2 < e.2 ↔ key x.1 < key e.1)) :
    ((byDeadline (entries ++ [x])).filter p).map Prod.fst =
      if p x then insertSorted key x.1 (((byDeadline entries).filter p).map Prod.fst)
      else ((byDeadline entries).filter p).map Prod.fst := by
  rw [byDeadline, arrange_append_singleton, filter_insertSorted _ p x _ (arrange_pairwise Prod.snd entries)]
  split_ifs with hx
  · apply map_insertSorted
    intro e he
    obtain ⟨he, hp⟩ := List.mem_filter.mp he
    exact hkey e (mem_arrange.mp he) hp hx
  · rfl

theorem map_filter_ne (entries : List (N × Nat)) (h : (entries.map Prod.fst).Nodup) (n : N) :
    (entries.filter (fun e => e.1 ≠ n)).map Prod.fst = (entries.map Prod.fst).erase n := by
  rw [h.erase_eq_filter, List.filter_map]
  congr 1
  apply List.filter_congr
  intro e _
  by_cases he : e.1 = n <;> simp [he]

namespace TimeoutList.Shows

variable {t : TimeoutList N} {s : Schedule N}

omit [DecidableEq N] in
theorem init (wakeTick : N → Tick) (startTick : Tick) :
    (timeoutListInit wakeTick startTick).Shows ⟨startTick.toNat, [], []⟩ where
  swapped := rfl
  tick := (Nat.mod_eq_of_lt startTick.isLt).symm
  wake := by simp
  ahead := by simp
  nodup := List.nodup_nil
  near := rfl
  far := rfl
  expired := rfl
  count := rfl

omit [DecidableEq N] in
theorem mem_near (h : t.Shows s) {n : N} :
    n ∈ t.lists.seq (.slot t.current) ↔ ∃ e ∈ s.pending, inEpoch s.time e = true ∧ e.1 = n := by
  simp [h.near, byDeadline, mem_arrange, and_assoc]

omit [DecidableEq N] in
theorem mem_far (h : t.Shows s) {n : N} :
    n ∈ t.lists.seq (.slot t.overflow) ↔ ∃ e ∈ s.pending, inEpoch s.time e = false ∧ e.1 = n := by
  simp [h.far, byDeadline, mem_arrange, and_assoc]

omit [DecidableEq N] in
theorem waits_iff (h : t.Shows s) (n : N) :
    n ∈ s.pending.map Prod.fst ↔
      t.lists.host n = some (.slot t.current) ∨ t.lists.host n = some (.slot t.overflow) := by
  rw [← t.lists.mem_seq, ← t.lists.mem_seq, h.mem_near, h.mem_far, List.mem_map]
  constructor
  · rintro ⟨e, he, hn⟩
    cases hin : inEpoch s.time e with
    | true => exact Or.inl ⟨e, he, hin, hn⟩
    | false => exact Or.inr ⟨e, he, hin, hn⟩
  · rintro (⟨e, he, -, hn⟩ | ⟨e, he, -, hn⟩)
    · exact ⟨e, he, hn⟩
    · exact ⟨e, he, hn⟩

omit [DecidableEq N] in
theorem waiting_iff (h : t.Shows s) (n : N) : t.Waiting n ↔ n ∈ s.pending.map Prod.fst := by
  rw [h.waits_iff]
  constructor
  · rintro ⟨i, hi⟩
    by_cases hc : i = t.current
    · exact Or.inl (hc ▸ hi)
    · right
      rw [h.swapped, ← Bool.eq_not_of_ne hc, hi]
  · rintro (hn | hn)
    · exact ⟨_, hn⟩
    · exact ⟨_, hn⟩

omit [DecidableEq N] in
theorem linked_iff (h : t.Shows s) (n : N) :
    n ∈ s.pending.map Prod.fst ∨ n ∈ s.expired ↔ t.lists.host n ≠ none := by
  rw [← h.waiting_iff, ← h.expired, t.lists.mem_seq]
  constructor
  · rintro (⟨i, hi⟩ | hn)
    · simp [hi]
    · simp [hn]
  · intro hn
    obtain ⟨l, hl⟩ := Option.ne_none_iff_exists'.mp hn
    cases l with
    | slot i => exact Or.inl ⟨i, hl⟩
    | expired => exact Or.inr hl

theorem validate (h : t.Shows s) : timeoutListValidate t = true := by
  have hsorted (p : N × Nat → Bool) (epoch : Nat)
      (hp : ∀ e ∈ s.pending, p e = true → e.2 / 2 ^ 32 = epoch) :
      timeoutOrderIsValid t.wakeTick (((byDeadline s.pending).filter p).map Prod.fst) = true := by
    apply timeoutOrderIsValid_of_pairwise
    rw [List.pairwise_map]
    refine ((arrange_pairwise Prod.snd s.pending).sublist List.filter_sublist).imp_of_mem ?_
    intro a b ha hb hab
    obtain ⟨ha, hpa⟩ := List.mem_filter.mp ha
    obtain ⟨hb, hpb⟩ := List.mem_filter.mp hb
    have ha := mem_arrange.mp ha
    have hb := mem_arrange.mp hb
    have hea := hp a ha hpa
    have heb := hp b hb hpb
    rw [h.wake a ha, h.wake b hb]
    omega
  have hnear : timeoutOrderIsValid t.wakeTick (t.lists.seq (.slot t.current)) = true := by
    rw [h.near]
    refine hsorted _ (s.time / 2 ^ 32) ?_
    intro e he hin
    simpa [inEpoch] using hin
  have hfar : timeoutOrderIsValid t.wakeTick (t.lists.seq (.slot t.overflow)) = true := by
    rw [h.far]
    refine hsorted _ (s.time / 2 ^ 32 + 1) ?_
    intro e he hin
    have hne : ¬ e.2 / 2 ^ 32 = s.time / 2 ^ 32 := by simpa [inEpoch] using hin
    have := h.ahead e he
    omega
  have hsize : listSize t.lists (.slot t.current) + listSize t.lists (.slot t.overflow) = t.count := by
    rw [listSize, listSize, h.near, h.far, List.length_map, List.length_map, h.count,
      ← List.length_eq_length_filter_add, byDeadline, (arrange_perm Prod.snd s.pending).length_eq]
  have hslots : t.current ≠ t.overflow := by simp [h.swapped]
  simp [timeoutListValidate, hslots, listValidate_eq_true, hnear, hfar, hsize]

theorem insert_ok (h : t.Shows s) {n : N} {d : Tick} (hn : t.lists.host n = none) :
    let wakeTick := Function.update t.wakeTick n (t.lastTick + d)
    let target := if t.lastTick + d < t.lastTick then t.overflow else t.current
    { t with
      lists := t.lists.link (.slot target) n _
        (insertSorted_perm (fun m => (wakeTick m).toNat) n (t.lists.seq (.slot target))) hn
      wakeTick := wakeTick
      count := t.count + 1 }.Shows { s with pending := s.pending ++ [(n, s.time + d.toNat)] } := by
  intro wakeTick target
  have hpending : n ∉ s.pending.map Prod.fst := fun hmem => (h.linked_iff n).mp (Or.inl hmem) hn
  have hne : ∀ e ∈ s.pending, e.1 ≠ n := fun e he heq => hpending (heq ▸ List.mem_map_of_mem he)
  have hwake : (t.lastTick + d).toNat = (s.time + d.toNat) % 2 ^ 32 := by
    rw [BitVec.toNat_add, h.tick, Nat.mod_add_mod]
  have hd := d.isLt
  have hwrap : t.lastTick + d < t.lastTick ↔ inEpoch s.time (n, s.time + d.toNat) = false := by
    rw [BitVec.lt_def, hwake, h.tick, inEpoch, decide_eq_false_iff_not]
    constructor
    · intro hlt
      omega
    · intro hlt
      omega
  have hold : ∀ e ∈ s.pending, (wakeTick e.1).toNat = e.2 % 2 ^ 32 := by
    intro e he
    simp only [wakeTick, Function.update_of_ne (hne e he), h.wake e he]
  have hself : (wakeTick n).toNat = (s.time + d.toNat) % 2 ^ 32 := by
    simp only [wakeTick, Function.update_self, hwake]
  have hother : t.overflow ≠ t.current := by simp [h.swapped]
  refine ⟨h.swapped, h.tick, ?_, ?_, ?_, ?_, ?_, ?_, ?_⟩
  · intro e he
    rcases List.mem_append.mp he with he | he
    · exact hold e he
    · rw [List.mem_singleton.mp he]
      exact hself
  · intro e he
    rcases List.mem_append.mp he with he | he
    · exact h.ahead e he
    · rw [List.mem_singleton.mp he]
      dsimp only
      omega
  · rw [List.map_append, List.map_singleton, List.nodup_append]
    refine ⟨h.nodup, List.nodup_singleton n, ?_⟩
    intro m hm k hk heq
    have hmn : m = n := heq.trans (List.mem_singleton.mp hk)
    exact hpending (hmn ▸ hm)
  · rw [map_byDeadline_append (fun m => (wakeTick m).toNat), ← h.near]
    · by_cases hlt : t.lastTick + d < t.lastTick
      · simp [target, hlt, hwrap.mp hlt, hother.symm]
      · have hin : inEpoch s.time (n, s.time + d.toNat) = true := by simpa using mt hwrap.mpr hlt
        simp [target, hlt, hin]
    · intro e he hp hx
      simp only [inEpoch, decide_eq_true_eq] at hp hx
      rw [hold e he, hself]
      omega
  · rw [map_byDeadline_append (fun m => (wakeTick m).toNat), ← h.far]
    · by_cases hlt : t.lastTick + d < t.lastTick
      · simp [target, hlt, hwrap.mp hlt]
      · have hin : inEpoch s.time (n, s.time + d.toNat) = true := by simpa using mt hwrap.mpr hlt
        simp [target, hlt, hin, hother]
    · intro e he hp hx
      simp only [inEpoch, Bool.not_eq_true', decide_eq_false_iff_not] at hp hx
      have := h.ahead e he
      rw [hold e he, hself]
      omega
  · simp [target, h.expired]
  · simp [h.count]

theorem remove_ok (h : t.Shows s) (n : N) (hn : n ∈ s.pending.map Prod.fst) :
    { t with lists := t.lists.unlink n, count := t.count - 1 }.Shows
      { s with pending := s.pending.filter (fun e => e.1 ≠ n) } := by
  have herase (p : N × Nat → Bool) :
      (((byDeadline (s.pending.filter (fun e => e.1 ≠ n))).filter p).map Prod.fst) =
        (((byDeadline s.pending).filter p).map Prod.fst).erase n := by
    have hnodup : (((byDeadline s.pending).filter p).map Prod.fst).Nodup := by
      have hall : ((byDeadline s.pending).map Prod.fst).Nodup :=
        ((arrange_perm Prod.snd s.pending).map Prod.fst).nodup_iff.mpr h.nodup
      exact hall.sublist (List.filter_sublist.map Prod.fst)
    rw [← map_filter_ne _ hnodup, byDeadline, ← filter_arrange, List.filter_filter, List.filter_filter]
    congr 2
    funext e
    rw [Bool.and_comm]
  have hexpired : n ∉ t.lists.seq .expired := by
    intro hmem
    have hhost := t.lists.host_of_mem hmem
    rcases (h.waits_iff n).mp hn with hslot | hslot
    all_goals simp [hslot] at hhost
  refine ⟨h.swapped, h.tick, ?_, ?_, ?_, ?_, ?_, ?_, ?_⟩
  · intro e he
    exact h.wake e (List.mem_filter.mp he).1
  · intro e he
    exact h.ahead e (List.mem_filter.mp he).1
  · exact h.nodup.sublist (List.filter_sublist.map Prod.fst)
  · rw [herase, ← h.near]
    rfl
  · rw [herase, ← h.far]
    rfl
  · rw [← h.expired]
    exact List.erase_of_not_mem hexpired
  · have hlen : (s.pending.filter (fun e => e.1 ≠ n)).length = (s.pending.map Prod.fst).length - 1 := by
      rw [← List.length_erase_of_mem hn, ← map_filter_ne _ h.nodup, List.length_map]
    dsimp only
    rw [hlen, h.count, List.length_map]

theorem pop (h : t.Shows s) :
    { t with lists := (listPopFront t.lists .expired).1 }.Shows { s with expired := s.expired.tail } ∧
      (listPopFront t.lists .expired).2 = s.expired.head? := by
  cases hs : t.lists.seq .expired with
  | nil =>
    rw [listPopFront_nil _ _ hs, ← h.expired, hs]
    exact ⟨⟨h.swapped, h.tick, h.wake, h.ahead, h.nodup, h.near, h.far, hs, h.count⟩, rfl⟩
  | cons n rest =>
    have hslot (i : Bool) : (t.lists.unlink n).seq (.slot i) = t.lists.seq (.slot i) := by
      apply ListFamily.unlink_seq_of_ne
      simp [t.lists.host_of_head hs]
    rw [listPopFront_cons _ _ hs, ← h.expired, hs]
    refine ⟨⟨h.swapped, h.tick, h.wake, h.ahead, h.nodup, ?_, ?_, ?_, h.count⟩, rfl⟩
    · rw [← h.near]
      exact hslot t.current
    · rw [← h.far]
      exact hslot t.overflow
    · simp [ListFamily.unlink_seq, hs]

theorem advanceLoop_due {now : Tick} {time : Nat} (hswap : t.overflow = !t.current) (hnow : now.toNat = time % 2 ^ 32)
    (hwake : ∀ e ∈ s.pending, (t.wakeTick e.1).toNat = e.2 % 2 ^ 32)
    (hnodup : (s.pending.map Prod.fst).Nodup)
    (hnear : t.lists.seq (.slot t.current) = ((byDeadline s.pending).filter (inEpoch time)).map Prod.fst)
    (hfar : t.lists.seq (.slot t.overflow) = ((byDeadline s.pending).filter (fun e => !inEpoch time e)).map Prod.fst)
    (hahead : ∀ e ∈ s.pending, inEpoch time e = false → time < e.2)
    (hbound : ∀ e ∈ s.pending, e.2 < time + 2 ^ 32)
    (hexpired : t.lists.seq .expired = []) (hcount : t.count = s.pending.length) :
    ∃ t', advanceLoop now (listSize t.lists (.slot t.current)) { t with lastTick := now } = (t', .ok) ∧
      t'.Shows ⟨time, s.pending.filter (fun e => time < e.2),
        (byDeadline (s.pending.filter (fun e => e.2 ≤ time))).map Prod.fst⟩ := by
  have hdue : ∀ e ∈ s.pending, inEpoch time e = true → t.due now e.1 = decide (e.2 ≤ time) := by
    intro e he hin
    simp only [inEpoch, decide_eq_true_eq] at hin
    simp only [TimeoutList.due, ← decide_not, BitVec.lt_def, hnow, hwake e he]
    exact decide_eq_decide.mpr (by omega)
  have hmono : (t.lists.seq (.slot t.current)).Pairwise (fun a b => t.due now b = true → t.due now a = true) := by
    rw [hnear, List.pairwise_map]
    refine ((arrange_pairwise Prod.snd s.pending).sublist List.filter_sublist).imp_of_mem ?_
    intro a b ha hb hab hb'
    obtain ⟨ha, hina⟩ := List.mem_filter.mp ha
    obtain ⟨hb, hinb⟩ := List.mem_filter.mp hb
    rw [hdue b (mem_arrange.mp hb) hinb, decide_eq_true_eq] at hb'
    rw [hdue a (mem_arrange.mp ha) hina, decide_eq_true_eq]
    exact hab.trans hb'
  have htake : ((t.lists.seq (.slot t.current)).filter (t.due now)) =
      (byDeadline (s.pending.filter (fun e => e.2 ≤ time))).map Prod.fst := by
    rw [hnear, List.filter_map, List.filter_filter, byDeadline, byDeadline, ← filter_arrange]
    congr 1
    apply List.filter_congr
    intro e he
    have he := mem_arrange.mp he
    cases hin : inEpoch time e with
    | true => simp [hdue e he hin]
    | false => simp [hahead e he hin]
  have hdrop : ((t.lists.seq (.slot t.current)).filter (fun m => !t.due now m)) =
      ((byDeadline (s.pending.filter (fun e => time < e.2))).filter (inEpoch time)).map Prod.fst := by
    rw [hnear, List.filter_map, List.filter_filter, byDeadline, byDeadline, ← filter_arrange, List.filter_filter]
    congr 1
    apply List.filter_congr
    intro e he
    have he := mem_arrange.mp he
    cases hin : inEpoch time e with
    | true => simp [hdue e he hin, ← decide_not]
    | false => simp
  obtain ⟨t', hrun, h⟩ := advanceLoop_swept now hexpired hmono
  refine ⟨t', hrun,
    ⟨by rw [h.current, h.overflow, hswap], by rw [h.lastTick, hnow], ?_, ?_, ?_, ?_, ?_, ?_, ?_⟩⟩
  · intro e he
    rw [h.wakeTick, hwake e (List.mem_filter.mp he).1]
  · intro e he
    obtain ⟨he, hlt⟩ := List.mem_filter.mp he
    exact ⟨(of_decide_eq_true hlt).le, hbound e he⟩
  · exact hnodup.sublist (List.filter_sublist.map Prod.fst)
  · rw [h.current, h.kept, hdrop]
  · rw [h.overflow, hswap, h.other, ← hswap, hfar]
    dsimp only
    rw [byDeadline, byDeadline, ← filter_arrange, List.filter_filter]
    congr 1
    apply List.filter_congr
    intro e he
    cases hin : inEpoch time e with
    | true => simp
    | false => simp [hahead e (mem_arrange.mp he) hin]
  · rw [h.expired, htake]
  · have hlen := List.length_eq_length_filter_add (l := s.pending) (fun e => decide (e.2 ≤ time))
    have hnot : s.pending.filter (fun e => !decide (e.2 ≤ time)) = s.pending.filter (fun e => time < e.2) := by
      apply List.filter_congr
      intro e _
      rw [← decide_not]
      exact decide_eq_decide.mpr not_le
    rw [hnot] at hlen
    rw [h.count, htake, hcount, List.length_map, byDeadline, (arrange_perm Prod.snd _).length_eq]
    dsimp only
    omega

theorem advance_ok (h : t.Shows s) {d : Tick} (he : s.expired = []) (hspares : SparesCurrent t (.advance d)) :
    ∃ t', timeoutListAdvance t (t.lastTick + d) = (t', .ok) ∧
      t'.Shows ⟨s.time + d.toNat, s.pending.filter (fun e => s.time + d.toNat < e.2),
        (byDeadline (s.pending.filter (fun e => e.2 ≤ s.time + d.toNat))).map Prod.fst⟩ := by
  have hexpired : t.lists.seq .expired = [] := h.expired.trans he
  have hnow : (t.lastTick + d).toNat = (s.time + d.toNat) % 2 ^ 32 := by
    rw [BitVec.toNat_add, h.tick, Nat.mod_add_mod]
  have hd := d.isLt
  have hbound : ∀ e ∈ s.pending, e.2 < s.time + d.toNat + 2 ^ 32 := by
    intro e hmem
    have := h.ahead e hmem
    omega
  by_cases hwrap : t.lastTick + d < t.lastTick
  · have hnone : t.lists.seq (.slot t.current) = [] := by
      simpa [listIsEmpty] using hspares (by simp [listIsEmpty, hexpired]) hwrap
    have hfar : ∀ e ∈ s.pending, inEpoch s.time e = false := by
      intro e hmem
      by_contra hin
      have hnear : e.1 ∈ t.lists.seq (.slot t.current) := h.mem_near.mpr ⟨e, hmem, by simpa using hin, rfl⟩
      simp [hnone] at hnear
    rw [BitVec.lt_def, hnow, h.tick] at hwrap
    have hepoch : ∀ e ∈ s.pending, inEpoch (s.time + d.toNat) e = true := by
      intro e hmem
      have hne := hfar e hmem
      have := h.ahead e hmem
      simp only [inEpoch, decide_eq_false_iff_not, decide_eq_true_eq] at hne ⊢
      omega
    obtain ⟨t', hrun, hshows⟩ := advanceLoop_due (t := { t with current := t.overflow, overflow := t.current })
      (by simp [h.swapped]) hnow h.wake h.nodup
      (by
        dsimp only
        rw [h.far]
        congr 1
        apply List.filter_congr
        intro e hmem
        have hmem := mem_arrange.mp hmem
        simp [hfar e hmem, hepoch e hmem])
      (by
        dsimp only
        rw [hnone, eq_comm, List.map_eq_nil_iff, List.filter_eq_nil_iff]
        intro e hmem
        simp [hepoch e (mem_arrange.mp hmem)])
      (fun e hmem hin => by simp [hepoch e hmem] at hin) hbound hexpired h.count
    refine ⟨t', ?_, hshows⟩
    have hlt : t.lastTick + d < t.lastTick := by rwa [BitVec.lt_def, hnow, h.tick]
    simpa [timeoutListAdvance, listIsEmpty, hexpired, hlt] using hrun
  · have hepoch : inEpoch (N := N) (s.time + d.toNat) = inEpoch s.time := by
      rw [BitVec.lt_def, hnow, h.tick] at hwrap
      funext e
      simp only [inEpoch]
      exact decide_eq_decide.mpr (by omega)
    obtain ⟨t', hrun, hshows⟩ := advanceLoop_due h.swapped hnow h.wake h.nodup (by rw [h.near, hepoch])
      (by rw [h.far, hepoch])
      (fun e hmem hin => by
        have hlater := h.ahead e hmem
        simp only [inEpoch, decide_eq_false_iff_not] at hin
        rw [BitVec.lt_def, hnow, h.tick] at hwrap
        omega) hbound hexpired h.count
    exact ⟨t', by simpa [timeoutListAdvance, listIsEmpty, hexpired, hwrap] using hrun, hshows⟩

theorem advance_missed (h : t.Shows s) {d : Tick} (he : s.expired = []) (hwrap : t.lastTick + d < t.lastTick)
    (hopen : t.lists.seq (.slot t.current) ≠ []) :
    (timeoutListAdvance t (t.lastTick + d)).1.lists.seq .expired ≠
      (byDeadline (s.pending.filter (fun e => e.2 ≤ s.time + d.toNat))).map Prod.fst := by
  have hexpired : t.lists.seq .expired = [] := h.expired.trans he
  obtain ⟨n, hn⟩ := List.exists_mem_of_ne_nil _ hopen
  obtain ⟨e, hmem, hin, rfl⟩ := h.mem_near.mp hn
  have hdue : e.1 ∈ (byDeadline (s.pending.filter (fun e => e.2 ≤ s.time + d.toNat))).map Prod.fst := by
    refine List.mem_map_of_mem (mem_arrange.mpr (List.mem_filter.mpr ⟨hmem, ?_⟩))
    have hnow : (t.lastTick + d).toNat = (s.time + d.toNat) % 2 ^ 32 := by
      rw [BitVec.toNat_add, h.tick, Nat.mod_add_mod]
    have hd := d.isLt
    rw [BitVec.lt_def, hnow, h.tick] at hwrap
    simp only [inEpoch, decide_eq_true_eq] at hin ⊢
    omega
  intro heq
  rw [← heq] at hdue
  obtain ⟨t', hrun, -, -, -, -, -, hseq⟩ := advanceLoop_spec (t.lastTick + d) (listSize t.lists (.slot t.overflow))
    { t with current := t.overflow, overflow := t.current, lastTick := t.lastTick + d } _ rfl (le_refl _)
  have hadvance : timeoutListAdvance t (t.lastTick + d) = (t', .ok) := by
    simpa [timeoutListAdvance, listIsEmpty, hexpired, hwrap] using hrun
  simp only [hadvance, hseq, hexpired, Function.update_self, List.nil_append] at hdue
  have hfar := t.lists.host_of_mem ((List.takeWhile_sublist _).subset hdue)
  rw [t.lists.host_of_mem hn, h.swapped] at hfar
  simp at hfar

theorem insert (h : t.Shows s) (n : N) (d : Tick) :
    (timeoutStep t (.insert n d)).1.Shows (scheduleStep s (.insert n d)).1 ∧
      (timeoutStep t (.insert n d)).2 = (scheduleStep s (.insert n d)).2 := by
  simp only [timeoutStep, scheduleStep, h.linked_iff]
  by_cases hd : d = waitForever
  · simp only [timeoutListInsert, hd, ↓reduceIte]
    exact ⟨h, trivial⟩
  · by_cases hn : t.lists.host n = none
    · rw [timeoutListInsert_eq t n d hd hn]
      simp only [hd, hn, ne_eq, not_true_eq_false, ↓reduceIte]
      exact ⟨h.insert_ok hn, trivial⟩
    · simp only [timeoutListInsert, hd, hn, ne_eq, not_false_eq_true, ↓reduceIte, ↓reduceDIte]
      exact ⟨h, trivial⟩

theorem remove (h : t.Shows s) (n : N) :
    (timeoutStep t (.remove n)).1.Shows (scheduleStep s (.remove n)).1 ∧
      (timeoutStep t (.remove n)).2 = (scheduleStep s (.remove n)).2 := by
  simp only [timeoutStep, scheduleStep]
  by_cases hn : n ∈ s.pending.map Prod.fst
  · rw [timeoutListRemove_eq t n ((h.waits_iff n).mp hn), if_pos hn]
    exact ⟨h.remove_ok n hn, rfl⟩
  · have hslots := not_or.mp (mt (h.waits_iff n).mpr hn)
    simp only [timeoutListRemove, ne_eq, hslots, not_false_eq_true, and_self, ↓reduceIte, hn]
    exact ⟨h, trivial⟩

theorem advance (h : t.Shows s) (d : Tick) (hspares : SparesCurrent t (.advance d)) :
    (timeoutStep t (.advance d)).1.Shows (scheduleStep s (.advance d)).1 ∧
      (timeoutStep t (.advance d)).2 = (scheduleStep s (.advance d)).2 := by
  simp only [timeoutStep, scheduleStep]
  by_cases he : s.expired = []
  · obtain ⟨t', hadvance, hshows⟩ := h.advance_ok he hspares
    simp only [hadvance, he, ne_eq, not_true_eq_false, ↓reduceIte]
    exact ⟨hshows, trivial⟩
  · have hexpired : listIsEmpty t.lists .expired = false := by
      rw [listIsEmpty, h.expired, List.isEmpty_eq_false_iff]
      exact he
    simp only [timeoutListAdvance, hexpired, Bool.not_false, ↓reduceIte, he, ne_eq, not_false_eq_true]
    exact ⟨h, trivial⟩

theorem step (h : t.Shows s) (op : TimeoutOp N) (hspares : SparesCurrent t op) :
    (timeoutStep t op).1.Shows (scheduleStep s op).1 ∧ (timeoutStep t op).2 = (scheduleStep s op).2 := by
  cases op with
  | insert n d => exact h.insert n d
  | remove n => exact h.remove n
  | advance d => exact h.advance d hspares
  | popExpired => exact ⟨h.pop.1, congrArg TimeoutAnswer.node h.pop.2⟩

theorem expires_iff (h : t.Shows s) (d : Tick) (he : s.expired = []) :
    (timeoutStep t (.advance d)).1.lists.seq .expired = (scheduleStep s (.advance d)).1.expired ↔
      SparesCurrent t (.advance d) := by
  constructor
  · intro heq _ hwrap
    by_contra hopen
    have hne : t.lists.seq (.slot t.current) ≠ [] := by simpa [listIsEmpty] using hopen
    refine h.advance_missed he hwrap hne (heq.trans ?_)
    simp [scheduleStep, he]
  · intro hspares
    exact (h.advance d hspares).1.expired

end TimeoutList.Shows

def timeoutRun (wakeTick : N → Tick) (startTick : Tick) (ops : List (TimeoutOp N)) :
    TimeoutList N × List (TimeoutAnswer N) :=
  answers timeoutStep (timeoutListInit wakeTick startTick) ops

def scheduleRun (startTick : Tick) (ops : List (TimeoutOp N)) : Schedule N × List (TimeoutAnswer N) :=
  answers scheduleStep ⟨startTick.toNat, [], []⟩ ops

/-- As long as no jump wraps the tick counter over an open deadline of the running epoch, the timeout list answers and
hands out nodes as a schedule that counts time without wrapping does. A jump hands out what is due exactly if it is not
of that kind. -/
theorem timeoutList_honours_jumps (wakeTick : N → Tick) (startTick : Tick) (ops : List (TimeoutOp N))
    (h : Meets (fun t op => (timeoutStep t op).1) SparesCurrent (timeoutListInit wakeTick startTick) ops) :
    (timeoutRun wakeTick startTick ops).2 = (scheduleRun startTick ops).2 ∧
      timeoutListValidate (timeoutRun wakeTick startTick ops).1 = true ∧
      (timeoutRun wakeTick startTick ops).1.lists.seq .expired = (scheduleRun startTick ops).1.expired ∧
      (∀ n, (timeoutRun wakeTick startTick ops).1.Waiting n ↔
        n ∈ (scheduleRun startTick ops).1.pending.map Prod.fst) ∧
      ∀ d, (scheduleRun startTick ops).1.expired = [] →
        ((timeoutStep (timeoutRun wakeTick startTick ops).1 (.advance d)).1.lists.seq .expired =
            (scheduleStep (scheduleRun startTick ops).1 (.advance d)).1.expired ↔
          SparesCurrent (timeoutRun wakeTick startTick ops).1 (.advance d)) := by
  obtain ⟨hend, hanswers⟩ := h.answers_simulate TimeoutList.Shows (fun _ _ op hs hop => hs.step op hop)
    (TimeoutList.Shows.init wakeTick startTick)
  exact ⟨hanswers, hend.validate, hend.expired, hend.waiting_iff, hend.expires_iff⟩

theorem timeoutList_honours_jumps_two :
    (timeoutRun (fun _ : Bool => 0#32) 4294967292#32
      [.insert false 2#32, .insert true 6#32, .advance 3#32, .popExpired, .advance 5#32, .popExpired]).2 =
        [.status .ok, .status .ok, .status .ok, .node (some false), .status .ok, .node (some true)] :=
  (timeoutList_honours_jumps (fun _ : Bool => 0#32) 4294967292#32
    [.insert false 2#32, .insert true 6#32, .advance 3#32, .popExpired, .advance 5#32, .popExpired]
    (by decide)).1.trans (by decide)

/-- A jump over the deadline and the wrap hands out nothing, although the deadline has passed. -/
theorem timeoutList_overlooks_deadline :
    (timeoutRun (fun _ : Unit => 0#32) 4294967292#32 [.insert () 2#32, .advance 6#32]).1.lists.seq .expired = [] ∧
      (scheduleRun (N := Unit) 4294967292#32 [.insert () 2#32, .advance 6#32]).1.expired = [()] := by
  decide

end Hairtos
