import Hairtos.Properties.SoftwareDivision
import Hairtos.Library.Rank
import Mathlib.Algebra.Order.Floor.Div
import Mathlib.Algebra.Order.BigOperators.Group.List

namespace Hairtos

open Library

def firstSamples (samples : Nat → Cycles) (n : Nat) : List Cycles := (List.range n).map samples

def benchmarkRecordAll (stats : BenchmarkStats) (xs : List Cycles) : BenchmarkStats :=
  xs.foldl (fun stats x => (benchmarkStatsRecord stats x).1) stats

def acceptedSamples (stats : BenchmarkStats) : List Cycles → List Cycles
  | [] => []
  | x :: xs =>
    let r := benchmarkStatsRecord stats x
    if r.2 then x :: acceptedSamples r.1 xs else acceptedSamples r.1 xs

def nearestRank (percentile : BitVec 32) (n : Nat) : Nat := (min percentile.toNat 100 * n) ⌈/⌉ 100

section

variable {samples : Nat → Cycles} {value : Cycles} {n : Nat}

theorem firstSamples_succ (samples : Nat → Cycles) (n : Nat) :
    firstSamples samples (n + 1) = firstSamples samples n ++ [samples n] := by
  simp [firstSamples, List.range_succ]

theorem firstSamples_update (samples : Nat → Cycles) (value : Cycles) {m : Nat} (h : m ≤ n) :
    firstSamples (Function.update samples n value) m = firstSamples samples m := by
  apply List.map_congr_left
  intro i hi
  rw [Function.update_of_ne]
  have := List.mem_range.mp hi
  omega

theorem benchmarkInsertSample_of_lt {i : Nat} (h : n < i) (samples : Nat → Cycles) :
    benchmarkInsertSample samples value n i = samples i := by
  induction n generalizing samples with
  | zero => rw [benchmarkInsertSample, Function.update_of_ne (by omega)]
  | succ n ih =>
    rw [benchmarkInsertSample]
    split_ifs
    · rw [ih (by omega), Function.update_of_ne (by omega)]
    · rw [Function.update_of_ne (by omega)]

theorem benchmarkInsertSample_perm (samples : Nat → Cycles) (value : Cycles) (n : Nat) :
    (firstSamples (benchmarkInsertSample samples value n) (n + 1)).Perm (value :: firstSamples samples n) := by
  induction n generalizing samples with
  | zero => simp [firstSamples, benchmarkInsertSample]
  | succ n ih =>
    rw [benchmarkInsertSample, firstSamples_succ]
    split_ifs
    · rw [benchmarkInsertSample_of_lt (by omega), Function.update_self]
      refine ((ih _).append_right _).trans ?_
      rw [firstSamples_update _ _ (by omega), firstSamples_succ samples n]
      exact .refl _
    · rw [firstSamples_update _ _ le_rfl, Function.update_self]
      exact List.perm_append_singleton _ _

theorem benchmarkInsertSample_sorted (samples : Nat → Cycles) (value : Cycles) (n : Nat)
    (h : (firstSamples samples n).Pairwise (· ≤ ·)) :
    (firstSamples (benchmarkInsertSample samples value n) (n + 1)).Pairwise (· ≤ ·) := by
  induction n generalizing samples with
  | zero => simp [firstSamples]
  | succ n ih =>
    rw [firstSamples_succ, List.pairwise_append] at h
    obtain ⟨hsorted, -, hlast⟩ := h
    have hle : ∀ x ∈ firstSamples samples n, x ≤ samples n := fun x hx => hlast x hx _ (by simp)
    rw [benchmarkInsertSample, firstSamples_succ]
    split_ifs with hlt
    · rw [benchmarkInsertSample_of_lt (by omega), Function.update_self]
      refine List.pairwise_append.mpr ⟨ih _ ?_, by simp, ?_⟩
      · rwa [firstSamples_update _ _ (by omega)]
      · intro x hx y hy
        rw [List.mem_singleton.mp hy]
        rw [(benchmarkInsertSample_perm _ _ _).mem_iff, firstSamples_update _ _ (by omega)] at hx
        rcases List.mem_cons.mp hx with rfl | hx
        · exact hlt.le
        · exact hle x hx
    · rw [firstSamples_update _ _ le_rfl, Function.update_self, firstSamples_succ]
      refine List.pairwise_append.mpr ⟨List.pairwise_append.mpr ⟨hsorted, by simp, hlast⟩, by simp, ?_⟩
      intro x hx y hy
      rw [List.mem_singleton.mp hy]
      have hbound := not_lt.mp hlt
      rcases List.mem_append.mp hx with hx | hx
      · exact (hle x hx).trans hbound
      · exact (List.mem_singleton.mp hx) ▸ hbound

theorem benchmarkSortSamples_spec (samples : Nat → Cycles) (n : Nat) :
    (firstSamples (benchmarkSortSamples samples n) n).Pairwise (· ≤ ·) ∧
      (firstSamples (benchmarkSortSamples samples n) n).Perm (firstSamples samples n) ∧
      ∀ i, n ≤ i → benchmarkSortSamples samples n i = samples i := by
  induction n with
  | zero => simp [firstSamples, benchmarkSortSamples]
  | succ n ih =>
    obtain ⟨hsorted, hperm, hrest⟩ := ih
    cases n with
    | zero => simp [firstSamples, benchmarkSortSamples]
    | succ n =>
      simp only [benchmarkSortSamples]
      refine ⟨benchmarkInsertSample_sorted _ _ _ hsorted, ?_, ?_⟩
      · refine (benchmarkInsertSample_perm _ _ _).trans ?_
        rw [hrest (n + 1) le_rfl, firstSamples_succ samples (n + 1)]
        exact (hperm.cons _).trans (List.perm_append_singleton _ _).symm
      · intro i hi
        rw [benchmarkInsertSample_of_lt (by omega), hrest i (by omega)]

end

structure BenchmarkStats.Recorded (stats : BenchmarkStats) (xs : List Cycles) : Prop where
  count : stats.sampleCount = xs.length
  fits : xs.length ≤ benchmarkMaxSamples
  values : firstSamples stats.samples xs.length = xs
  total : stats.totalCycles.toNat = (xs.map BitVec.toNat).sum
  least : stats.minimumCycles ∈ lowerBounds { x | x ∈ xs }
  greatest : stats.maximumCycles ∈ upperBounds { x | x ∈ xs }
  extremes : xs = [] ∧ stats.minimumCycles = 0xFFFFFFFF#32 ∧ stats.maximumCycles = 0#32 ∨
    stats.minimumCycles ∈ xs ∧ stats.maximumCycles ∈ xs

section

variable {stats : BenchmarkStats} {xs ys : List Cycles}

theorem benchmarkStatsReset_recorded : benchmarkStatsReset.Recorded [] where
  count := rfl
  fits := Nat.zero_le _
  values := rfl
  total := rfl
  least := by simp [lowerBounds]
  greatest := by simp [upperBounds]
  extremes := Or.inl ⟨rfl, rfl, rfl⟩

theorem sum_toNat_lt (xs : List Cycles) (h : xs.length ≤ benchmarkMaxSamples) :
    (xs.map BitVec.toNat).sum < 2 ^ 38 := by
  have hsum : (xs.map BitVec.toNat).sum ≤ (xs.map BitVec.toNat).length • (2 ^ 32 - 1) := by
    apply List.sum_le_card_nsmul
    intro n hn
    obtain ⟨x, -, rfl⟩ := List.mem_map.mp hn
    have := x.isLt
    omega
  rw [List.length_map, smul_eq_mul] at hsum
  unfold benchmarkMaxSamples at h
  omega

theorem BenchmarkStats.Recorded.record (h : stats.Recorded xs) (x : Cycles) (hroom : xs.length < benchmarkMaxSamples) :
    (benchmarkStatsRecord stats x).1.Recorded (xs ++ [x]) ∧ (benchmarkStatsRecord stats x).2 = true := by
  have hfull : ¬ benchmarkMaxSamples ≤ stats.sampleCount := by
    rw [h.count]
    omega
  rw [benchmarkStatsRecord, if_neg hfull, ← min_def_lt, ← max_def_lt]
  refine ⟨⟨?_, ?_, ?_, ?_, ?_, ?_, ?_⟩, rfl⟩
  · simp [h.count]
  · simp only [List.length_append, List.length_singleton]
    omega
  · rw [List.length_append, List.length_singleton, firstSamples_succ, h.count]
    dsimp only
    rw [firstSamples_update _ _ le_rfl, h.values, Function.update_self]
  · have hsum := sum_toNat_lt xs h.fits
    have hx := x.isLt
    simp only [BitVec.toNat_add, BitVec.toNat_setWidth, h.total, List.map_append, List.map_cons, List.map_nil,
      List.sum_append, List.sum_singleton]
    omega
  · intro y hy
    rcases List.mem_append.mp hy with hy | hy
    · exact (min_le_right _ _).trans (h.least hy)
    · rw [List.mem_singleton.mp hy]
      exact min_le_left _ _
  · intro y hy
    rcases List.mem_append.mp hy with hy | hy
    · exact (h.greatest hy).trans (le_max_left _ _)
    · rw [List.mem_singleton.mp hy]
      exact le_max_right _ _
  · right
    dsimp only
    rw [List.mem_append, List.mem_append, List.mem_singleton, List.mem_singleton]
    rcases h.extremes with ⟨-, hmin, hmax⟩ | ⟨hmin, hmax⟩
    · have hle : x ≤ 0xFFFFFFFF#32 := BitVec.le_def.mpr (Nat.le_of_lt_succ x.isLt)
      have hge : 0#32 ≤ x := BitVec.le_def.mpr (Nat.zero_le _)
      rw [hmin, hmax, min_eq_left hle, max_eq_right hge]
      exact ⟨Or.inr rfl, Or.inr rfl⟩
    · refine ⟨?_, ?_⟩
      · rcases min_choice x stats.minimumCycles with hc | hc
        · exact Or.inr hc
        · exact Or.inl (by rwa [hc])
      · rcases max_choice stats.maximumCycles x with hc | hc
        · exact Or.inl (by rwa [hc])
        · exact Or.inr hc

theorem BenchmarkStats.Recorded.recordAll (h : stats.Recorded xs) (ys : List Cycles) :
    (benchmarkRecordAll stats ys).Recorded (xs ++ acceptedSamples stats ys) := by
  induction ys generalizing stats xs with
  | nil => simpa [benchmarkRecordAll, acceptedSamples] using h
  | cons y ys ih =>
    by_cases hroom : xs.length < benchmarkMaxSamples
    · obtain ⟨hrecord, hok⟩ := h.record y hroom
      simpa [acceptedSamples, hok, benchmarkRecordAll] using ih hrecord
    · have hfull : benchmarkStatsRecord stats y = (stats, false) := by
        rw [benchmarkStatsRecord, if_pos (by rw [h.count]; omega)]
      simpa [acceptedSamples, hfull, benchmarkRecordAll] using ih h

theorem recorded (xs : List Cycles) :
    (benchmarkRecordAll benchmarkStatsReset xs).Recorded (acceptedSamples benchmarkStatsReset xs) :=
  benchmarkStatsReset_recorded.recordAll xs

theorem acceptedSamples_ne_nil (h : xs ≠ []) : acceptedSamples benchmarkStatsReset xs ≠ [] := by
  cases xs with
  | nil => exact absurd rfl h
  | cons x xs =>
    obtain ⟨-, hok⟩ := benchmarkStatsReset_recorded.record x (by decide)
    simp [acceptedSamples, hok]

theorem nearestRank_le (p : BitVec 32) (n : Nat) : nearestRank p n ≤ n := by
  rw [nearestRank, Nat.ceilDiv_eq_add_pred_div]
  have : min p.toNat 100 * n ≤ 100 * n := Nat.mul_le_mul_right n (min_le_right _ _)
  omega

theorem nearestRank_mono {p q : BitVec 32} (h : p ≤ q) (n : Nat) : nearestRank p n ≤ nearestRank q n := by
  have hle : min p.toNat 100 * n ≤ min q.toNat 100 * n :=
    Nat.mul_le_mul_right n (min_le_min (BitVec.le_def.mp h) le_rfl)
  rw [nearestRank, nearestRank, Nat.ceilDiv_eq_add_pred_div, Nat.ceilDiv_eq_add_pred_div]
  omega

theorem benchmarkStatsPercentile_eq (h : stats.Recorded xs) (hne : xs ≠ []) (p : BitVec 32) :
    benchmarkStatsPercentile stats p =
      (stats, benchmarkSortSamples stats.samples xs.length (max 1 (nearestRank p xs.length) - 1)) := by
  have hpos : 0 < xs.length := List.length_pos_iff.mpr hne
  have hle := nearestRank_le p xs.length
  have hclamp : (if 100#32 < p then 100#32 else p).toNat = min p.toNat 100 := by
    rw [← min_def_lt]
    rcases le_total p 100#32 with hp | hp
    · rw [min_eq_right hp]
      exact (min_eq_left (BitVec.le_def.mp hp)).symm
    · rw [min_eq_left hp]
      exact (min_eq_right (BitVec.le_def.mp hp)).symm
  unfold benchmarkStatsPercentile
  rw [h.count, if_neg hpos.ne']
  dsimp only
  by_cases hzero : (if 100#32 < p then 100#32 else p) = 0#32
  · have hrank : nearestRank p xs.length = 0 := by
      rw [nearestRank, ← hclamp, hzero]
      simp
    rw [if_pos hzero, hrank]
    rfl
  · have hp : 0 < min p.toNat 100 := by
      rw [← hclamp]
      exact Nat.pos_of_ne_zero (fun h0 => hzero (BitVec.eq_of_toNat_eq h0))
    have hrank : (min p.toNat 100 * xs.length + 99) / 100 = nearestRank p xs.length := by
      rw [nearestRank, Nat.ceilDiv_eq_add_pred_div]
      rfl
    have hone : 1 ≤ nearestRank p xs.length := by
      have := Nat.mul_pos hp hpos
      omega
    rw [if_neg hzero, hclamp, hrank, if_neg (show ¬ nearestRank p xs.length = 0 by omega),
      if_neg (show ¬ xs.length < nearestRank p xs.length by omega), max_eq_right hone]

theorem getElem_firstSamples (samples : Nat → Cycles) {n i : Nat} (h : i < (firstSamples samples n).length) :
    (firstSamples samples n)[i] = samples i := by
  simp [firstSamples]

theorem length_firstSamples (samples : Nat → Cycles) (n : Nat) : (firstSamples samples n).length = n := by
  simp [firstSamples]

theorem percentile_sorted (h : stats.Recorded xs) (hne : xs ≠ []) :
    ∃ sorted : List Cycles, sorted.Pairwise (· ≤ ·) ∧ sorted.Perm xs ∧ ∀ p, ∃ hi :
      max 1 (nearestRank p xs.length) - 1 <
      sorted.length, benchmarkStatsPercentile stats p = (stats, sorted[max 1 (nearestRank p xs.length) - 1]) := by
  obtain ⟨hsorted, hperm, -⟩ := benchmarkSortSamples_spec stats.samples xs.length
  rw [h.values] at hperm
  refine ⟨_, hsorted, hperm, fun p => ?_⟩
  have hpos : 0 < xs.length := List.length_pos_iff.mpr hne
  have hle := nearestRank_le p xs.length
  refine ⟨by rw [length_firstSamples]; omega, ?_⟩
  rw [benchmarkStatsPercentile_eq h hne, getElem_firstSamples]

theorem percentile_rank (h : stats.Recorded xs) (hne : xs ≠ []) (p : BitVec 32) :
    (benchmarkStatsPercentile stats p).2 ∈ xs ∧
      nearestRank p xs.length ≤ xs.countP (fun x => decide (x ≤ (benchmarkStatsPercentile stats p).2)) ∧
      xs.countP (fun x => decide (x < (benchmarkStatsPercentile stats p).2)) < max 1 (nearestRank p xs.length) := by
  obtain ⟨sorted, hsorted, hperm, hpick⟩ := percentile_sorted h hne
  obtain ⟨hi, hv⟩ := hpick p
  rw [hv]
  dsimp only
  refine ⟨hperm.mem_iff.mp (List.getElem_mem hi), ?_, ?_⟩
  · rw [← hperm.countP_eq]
    have := rank_lt_countP_le hsorted hi
    omega
  · rw [← hperm.countP_eq]
    have := countP_lt_le_rank hsorted hi
    omega

theorem percentile_mono (h : stats.Recorded xs) (hne : xs ≠ []) {p q : BitVec 32} (hpq : p ≤ q) :
    (benchmarkStatsPercentile stats p).2 ≤ (benchmarkStatsPercentile stats q).2 := by
  obtain ⟨sorted, hsorted, -, hpick⟩ := percentile_sorted h hne
  obtain ⟨hi, hp⟩ := hpick p
  obtain ⟨hj, hq⟩ := hpick q
  have hmono := nearestRank_mono hpq xs.length
  rw [hp, hq]
  exact sorted_getElem_mono hsorted (by omega) hj

theorem percentile_perm {stats' : BenchmarkStats} (h : stats.Recorded xs) (h' : stats'.Recorded ys) (hne : xs ≠ [])
    (hperm : ys.Perm xs) (p : BitVec 32) :
    (benchmarkStatsPercentile stats' p).2 = (benchmarkStatsPercentile stats p).2 := by
  obtain ⟨sorted, hsorted, hp, hpick⟩ := percentile_sorted h hne
  have hne' : ys ≠ [] := by
    rintro rfl
    exact hne (hperm.symm.eq_nil)
  obtain ⟨sorted', hsorted', hp', hpick'⟩ := percentile_sorted h' hne'
  obtain rfl := eq_of_perm_of_sorted ((hp'.trans hperm).trans hp.symm) hsorted' hsorted
  obtain ⟨_, hv⟩ := hpick p
  obtain ⟨_, hv'⟩ := hpick' p
  simp only [hv, hv', hperm.length_eq]

theorem benchmarkStatsMin_isLeast (h : stats.Recorded xs) (hne : xs ≠ []) :
    IsLeast { x | x ∈ xs } (benchmarkStatsMin stats) := by
  have hpos : stats.sampleCount ≠ 0 := by simp [h.count, hne]
  rw [benchmarkStatsMin, if_neg hpos]
  rcases h.extremes with ⟨hnil, -⟩ | ⟨hmin, -⟩
  · exact absurd hnil hne
  · exact ⟨hmin, h.least⟩

theorem benchmarkStatsMax_isGreatest (h : stats.Recorded xs) (hne : xs ≠ []) :
    IsGreatest { x | x ∈ xs } (benchmarkStatsMax stats) := by
  have hpos : stats.sampleCount ≠ 0 := by simp [h.count, hne]
  rw [benchmarkStatsMax, if_neg hpos]
  rcases h.extremes with ⟨hnil, -⟩ | ⟨-, hmax⟩
  · exact absurd hnil hne
  · exact ⟨hmax, h.greatest⟩

theorem percentile_zero (h : stats.Recorded xs) (hne : xs ≠ []) :
    (benchmarkStatsPercentile stats 0#32).2 = benchmarkStatsMin stats := by
  obtain ⟨sorted, hsorted, hperm, hpick⟩ := percentile_sorted h hne
  obtain ⟨hi, hv⟩ := hpick 0#32
  have hfirst : max 1 (nearestRank 0#32 xs.length) - 1 = 0 := by simp [nearestRank]
  have hleast := isLeast_getElem_zero hsorted (by omega)
  simp only [hperm.mem_iff] at hleast
  rw [hv]
  simp only [hfirst]
  exact hleast.unique (benchmarkStatsMin_isLeast h hne)

theorem percentile_hundred (h : stats.Recorded xs) (hne : xs ≠ []) {p : BitVec 32} (hp : 100#32 ≤ p) :
    (benchmarkStatsPercentile stats p).2 = benchmarkStatsMax stats := by
  obtain ⟨sorted, hsorted, hperm, hpick⟩ := percentile_sorted h hne
  obtain ⟨hi, hv⟩ := hpick p
  have hpos : 0 < xs.length := List.length_pos_iff.mpr hne
  have hlast : max 1 (nearestRank p xs.length) - 1 = sorted.length - 1 := by
    have hclamp : min p.toNat 100 = 100 := min_eq_right (BitVec.le_def.mp hp)
    have hrank : nearestRank p xs.length = xs.length := by
      rw [nearestRank, hclamp, Nat.ceilDiv_eq_add_pred_div]
      omega
    rw [hrank, hperm.length_eq]
    omega
  have hgreatest := isGreatest_getElem_last hsorted (by omega)
  simp only [hperm.mem_iff] at hgreatest
  rw [hv]
  simp only [hlast]
  exact hgreatest.unique (benchmarkStatsMax_isGreatest h hne)

theorem sum_between (h : stats.Recorded xs) (hne : xs ≠ []) :
    xs.length * (benchmarkStatsMin stats).toNat ≤ (xs.map BitVec.toNat).sum ∧
      (xs.map BitVec.toNat).sum ≤ xs.length * (benchmarkStatsMax stats).toNat := by
  have hleast := (benchmarkStatsMin_isLeast h hne).2
  have hgreatest := (benchmarkStatsMax_isGreatest h hne).2
  constructor
  · have hsum := List.card_nsmul_le_sum (xs.map BitVec.toNat) (benchmarkStatsMin stats).toNat (by
      intro n hn
      obtain ⟨x, hx, rfl⟩ := List.mem_map.mp hn
      exact BitVec.le_def.mp (hleast hx))
    rwa [List.length_map, smul_eq_mul] at hsum
  · have hsum := List.sum_le_card_nsmul (xs.map BitVec.toNat) (benchmarkStatsMax stats).toNat (by
      intro n hn
      obtain ⟨x, hx, rfl⟩ := List.mem_map.mp hn
      exact BitVec.le_def.mp (hgreatest hx))
    rwa [List.length_map, smul_eq_mul] at hsum

theorem benchmarkStatsMean_toNat (h : stats.Recorded xs) (hne : xs ≠ []) :
    (benchmarkStatsMean stats).toNat = (xs.map BitVec.toNat).sum / xs.length := by
  have hpos : 0 < xs.length := List.length_pos_iff.mpr hne
  have hfits := h.fits
  have hcount : (BitVec.ofNat 32 xs.length).toNat = xs.length := by
    unfold benchmarkMaxSamples at hfits
    rw [BitVec.toNat_ofNat, Nat.mod_eq_of_lt (by omega)]
  have hnonzero : BitVec.ofNat 32 xs.length ≠ 0#32 := by
    intro hz
    rw [hz] at hcount
    exact hpos.ne hcount
  have hle : (xs.map BitVec.toNat).sum / xs.length ≤ (benchmarkStatsMax stats).toNat :=
    Nat.div_le_of_le_mul (sum_between h hne).2
  have hlt := (benchmarkStatsMax stats).isLt
  rw [benchmarkStatsMean, h.count, if_neg hpos.ne', BitVec.toNat_setWidth, benchmarkDivideU64ByU32_toNat _ hnonzero,
    h.total, hcount, Nat.mod_eq_of_lt (by omega)]

end

/-- The percentile is a recorded sample of the nearest rank, and follows the percentile asked for. It depends on the
samples only, and reads them only. The mean lies between the extremes. -/
theorem percentile_nearestRank (xs : List Cycles) (hne : xs ≠ []) :
    let stats := benchmarkRecordAll benchmarkStatsReset xs
    let samples := acceptedSamples benchmarkStatsReset xs
    (∀ p : BitVec 32,
      let v := (benchmarkStatsPercentile stats p).2
      v ∈ samples ∧
      nearestRank p samples.length ≤ samples.countP (fun x => decide (x ≤ v)) ∧
      samples.countP (fun x => decide (x < v)) < max 1 (nearestRank p samples.length) ∧
      (∀ q, p ≤ q → v ≤ (benchmarkStatsPercentile stats q).2) ∧
      (p = 0#32 → v = benchmarkStatsMin stats) ∧
      (100#32 ≤ p → v = benchmarkStatsMax stats) ∧
      (∀ ys, (acceptedSamples benchmarkStatsReset ys).Perm samples →
        (benchmarkStatsPercentile (benchmarkRecordAll benchmarkStatsReset ys) p).2 = v) ∧
      (benchmarkStatsPercentile stats p).1 = stats) ∧
    benchmarkStatsMin stats ≤ benchmarkStatsMean stats ∧ benchmarkStatsMean stats ≤ benchmarkStatsMax stats ∧
    (benchmarkStatsMean stats).toNat = (samples.map BitVec.toNat).sum / samples.length := by
  intro stats samples
  have h : stats.Recorded samples := recorded xs
  have hsamples : samples ≠ [] := acceptedSamples_ne_nil hne
  have hpos : 0 < samples.length := List.length_pos_iff.mpr hsamples
  have hmean := benchmarkStatsMean_toNat h hsamples
  obtain ⟨hlow, hhigh⟩ := sum_between h hsamples
  refine ⟨?_, ?_, ?_, hmean⟩
  · intro p v
    obtain ⟨hmem, hle, hlt⟩ := percentile_rank h hsamples p
    refine ⟨hmem, hle, hlt, fun q hpq => percentile_mono h hsamples hpq, ?_, percentile_hundred h hsamples, ?_, ?_⟩
    · rintro rfl
      exact percentile_zero h hsamples
    · intro ys hperm
      exact percentile_perm h (recorded ys) hsamples hperm p
    · rw [benchmarkStatsPercentile_eq h hsamples]
  · rw [BitVec.le_def, hmean, Nat.le_div_iff_mul_le hpos, Nat.mul_comm]
    exact hlow
  · rw [BitVec.le_def, hmean]
    exact Nat.div_le_of_le_mul hhigh

theorem percentile_nearestRank_three :
    (benchmarkStatsPercentile (benchmarkRecordAll benchmarkStatsReset [30#32, 10#32, 20#32]) 50#32).2 ∈
      acceptedSamples benchmarkStatsReset [30#32, 10#32, 20#32] :=
  ((percentile_nearestRank [30#32, 10#32, 20#32] (by decide)).1 50#32).1

end Hairtos
