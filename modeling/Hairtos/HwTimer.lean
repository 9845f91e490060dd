import Hairtos.Types

/-!
The millisecond timer of `hr_hw_timer_stm32f1.c`. `unsigned long` has 32 bits. The SysTick registers are only
written here.
-/

namespace Hairtos

def systickLoadReloadMask : BitVec 32 := 0x00FFFFFF#32

structure HwTimer where
  millisecondTick : BitVec 32 := 0#32
  tickRateHz : BitVec 32 := 0#32
  deriving DecidableEq, Repr

def hwTimerInit (systemCoreClock : BitVec 32) (timer : HwTimer) (tickRateHz : BitVec 32) : HwTimer × Bool :=
  if tickRateHz = 0#32 || systemCoreClock < tickRateHz then (timer, false)
  else
    let reload := systemCoreClock / tickRateHz - 1#32
    if systickLoadReloadMask < reload then (timer, false)
    else ({ millisecondTick := 0#32, tickRateHz := tickRateHz }, true)

def hwTimerMillis (timer : HwTimer) : BitVec 32 :=
  if timer.tickRateHz = 0#32 then 0#32 else timer.millisecondTick * 1000#32 / timer.tickRateHz

def hwTimerTickIsr (timer : HwTimer) : HwTimer := { timer with millisecondTick := timer.millisecondTick + 1#32 }

/-- The loop of `hr_hw_timer_delay_ms`, with the number of ticks counted since the call. The list has the ticks that
come before each evaluation of the condition; the loop has not ended when the list is used up. -/
def hwTimerDelayLoop (timer : HwTimer) (start milliseconds : BitVec 32) (counted : Nat) : List Nat → Option Nat
  | [] => none
  | ticks :: rest =>
    let timer := hwTimerTickIsr^[ticks] timer
    if hwTimerMillis timer - start < milliseconds then
      hwTimerDelayLoop timer start milliseconds (counted + ticks) rest
    else some (counted + ticks)

def hwTimerDelayMs (timer : HwTimer) (milliseconds : BitVec 32) (ticks : List Nat) : Option Nat :=
  hwTimerDelayLoop timer (hwTimerMillis timer) milliseconds 0 ticks

end Hairtos
