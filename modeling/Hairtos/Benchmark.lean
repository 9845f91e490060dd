import Hairtos.Types
import Mathlib.Logic.Function.Iterate

namespace Hairtos

abbrev Cycles := BitVec 32

def benchmarkMaxSamples : Nat := 64

structure Division where
  numerator : BitVec 64
  quotient : BitVec 64 := 0#64
  remainder : BitVec 64 := 0#64
  deriving DecidableEq, Repr

def Division.shifted (v : Division) : BitVec 64 := (v.remainder <<< 1) ||| (v.numerator >>> 63)

def Division.step (denominator : BitVec 32) (v : Division) : Division :=
  let remainder := v.shifted
  let numerator := v.numerator <<< 1
  let quotient := v.quotient <<< 1
  if denominator.setWidth 64 ≤ remainder then
    { numerator := numerator, quotient := quotient ||| 1#64, remainder := remainder - denominator.setWidth 64 }
  else { numerator := numerator, quotient := quotient, remainder := remainder }

def benchmarkDivideU64ByU32 (numerator : BitVec 64) (denominator : BitVec 32) : BitVec 64 :=
  if denominator = 0#32 then 0#64 else ((Division.step denominator)^[64] { numerator := numerator }).quotient

structure BenchmarkStats where
  samples : Nat → Cycles
  totalCycles : BitVec 64
  minimumCycles : Cycles
  maximumCycles : Cycles
  sampleCount : Nat

def benchmarkStatsReset : BenchmarkStats where
  samples := fun _ => 0#32
  totalCycles := 0#64
  minimumCycles := 0xFFFFFFFF#32
  maximumCycles := 0#32
  sampleCount := 0

def benchmarkStatsRecord (stats : BenchmarkStats) (cycles : Cycles) : BenchmarkStats × Bool :=
  if benchmarkMaxSamples ≤ stats.sampleCount then (stats, false)
  else
    ({ samples := Function.update stats.samples stats.sampleCount cycles
       totalCycles := stats.totalCycles + cycles.setWidth 64
       minimumCycles := if cycles < stats.minimumCycles then cycles else stats.minimumCycles
       maximumCycles := if stats.maximumCycles < cycles then cycles else stats.maximumCycles
       sampleCount := stats.sampleCount + 1 }, true)

def benchmarkStatsMin (stats : BenchmarkStats) : Cycles := if stats.sampleCount = 0 then 0#32 else stats.minimumCycles

def benchmarkStatsMax (stats : BenchmarkStats) : Cycles := if stats.sampleCount = 0 then 0#32 else stats.maximumCycles

def benchmarkStatsMean (stats : BenchmarkStats) : Cycles :=
  if stats.sampleCount = 0 then 0#32
  else (benchmarkDivideU64ByU32 stats.totalCycles (BitVec.ofNat 32 stats.sampleCount)).setWidth 32

def benchmarkInsertSample (samples : Nat → Cycles) (value : Cycles) : Nat → Nat → Cycles
  | 0 => Function.update samples 0 value
  | position + 1 =>
    if value < samples position then
      benchmarkInsertSample (Function.update samples (position + 1) (samples position)) value position
    else Function.update samples (position + 1) value

def benchmarkSortSamples (samples : Nat → Cycles) : Nat → Nat → Cycles
  | 0 => samples
  | 1 => samples
  | index + 1 =>
    let sorted := benchmarkSortSamples samples index
    benchmarkInsertSample sorted (sorted index) index

/-- The first component is `*stats` after the call. The sort works on a copy. -/
def benchmarkStatsPercentile (stats : BenchmarkStats) (percentile : BitVec 32) : BenchmarkStats × Cycles :=
  if stats.sampleCount = 0 then (stats, 0#32)
  else
    let percentile := if 100#32 < percentile then 100#32 else percentile
    let sorted := benchmarkSortSamples stats.samples stats.sampleCount
    if percentile = 0#32 then (stats, sorted 0)
    else
      let rank := (percentile.toNat * stats.sampleCount + 99) / 100
      let rank := if rank = 0 then 1 else rank
      let rank := if stats.sampleCount < rank then stats.sampleCount else rank
      (stats, sorted (rank - 1))

def benchmarkCyclesToNanoseconds (cycles coreClockHz : BitVec 32) : BitVec 32 :=
  if coreClockHz = 0#32 then 0#32
  else
    let nanoseconds := benchmarkDivideU64ByU32 (cycles.setWidth 64 * 1000000000#64) coreClockHz
    if 0xFFFFFFFF#64 < nanoseconds then 0xFFFFFFFF#32 else nanoseconds.setWidth 32

end Hairtos
