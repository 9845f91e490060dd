import Hairtos.Target
import Hairtos.Types

namespace Hairtos

def sigNone : Nat := 0

def sigEntry : Nat := 1

def sigExit : Nat := 2

def sigInit : Nat := 3

def sigUser : Nat := 32

def uint16Max : Nat := 2 ^ 16 - 1

def eventMagic : Nat := 0x48454556

def eventFlagStatic : Nat := 1

def eventFlagDynamic : Nat := 2

@[ext] structure HeEvent where
  pool : Nat
  magic : Nat
  size : Nat
  referenceCount : Nat
  signal : Nat
  flags : Nat
  deriving DecidableEq, Repr

def eventInitStatic (t : Target) (event : HeEvent) (signal eventSize : Nat) : HeEvent × Status :=
  if signal = sigNone ∨ eventSize < t.eventBytes ∨ eventSize > uint16Max then (event, .invalidArgument)
  else
    ({ pool := 0, magic := eventMagic, size := eventSize, referenceCount := 0, signal := signal,
       flags := eventFlagStatic }, .ok)

def HeEvent.isValid (t : Target) (poolIsValid : Nat → Bool) (event : HeEvent) : Bool :=
  if event.magic ≠ eventMagic ∨ event.signal = sigNone ∨ event.size < t.eventBytes then false
  else if event.flags = eventFlagStatic then event.pool == 0 && event.referenceCount == 0
  else if event.flags = eventFlagDynamic then
    event.pool != 0 && decide (event.referenceCount > 0) && poolIsValid event.pool
  else false

def HeEvent.isDynamic (t : Target) (poolIsValid : Nat → Bool) (event : HeEvent) : Bool :=
  event.isValid t poolIsValid && event.flags == eventFlagDynamic

end Hairtos
