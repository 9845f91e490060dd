import Hairtos.Event.Event

/-!
The subscription table of `he_pubsub.c`: an array of pointers to active objects, `maxSubscribers` slots for each
signal. `none` is `NULL`.
-/

namespace Hairtos

variable {A : Type} [DecidableEq A]

def pubsubMagic : Nat := 0x48455053

def maxActiveObjects : Nat := 8

def maxSignals : Nat := 64

/-- `subscribers` is the address of the array and `slots` what it holds. -/
structure PubSub (A : Type) where
  subscribers : Nat
  slots : Nat → Option A
  signalCount : Nat
  maxSubscribers : Nat
  magic : Nat

def PubSub.isValid (p : PubSub A) : Bool :=
  p.magic == pubsubMagic && p.subscribers != 0 && decide (p.signalCount > sigUser) && decide (p.maxSubscribers > 0) &&
    decide (p.maxSubscribers ≤ maxActiveObjects)

def pubsubInit (p : PubSub A) (storage : Nat) (array : Nat → Option A) (signalCount maxSubscribersPerSignal : Nat) :
    PubSub A × Status :=
  if storage = 0 ∨ signalCount ≤ sigUser ∨ signalCount > maxSignals ∨ maxSubscribersPerSignal = 0 ∨
      maxSubscribersPerSignal > maxActiveObjects then (p, .invalidArgument)
  else if p.isValid then (p, .invalidState)
  else
    ({ subscribers := storage
       slots := fun i => if i < signalCount * maxSubscribersPerSignal then none else array i
       signalCount := signalCount
       maxSubscribers := maxSubscribersPerSignal
       magic := pubsubMagic }, .ok)

def PubSub.signalSlots (p : PubSub A) (signal : Nat) : Nat := signal * p.maxSubscribers

def PubSub.findSlot (p : PubSub A) (signal : Nat) (content : Option A) : Option Nat :=
  (List.range p.maxSubscribers).find? (fun index => p.slots (p.signalSlots signal + index) == content)

def PubSub.rejects (p : PubSub A) (activeIsValid : A → Bool) (signal : Nat) (subscriber : A) : Prop :=
  p.isValid = false ∨ activeIsValid subscriber = false ∨ signal < sigUser ∨ signal ≥ p.signalCount

instance PubSub.decidableRejects (p : PubSub A) (activeIsValid : A → Bool) (signal : Nat) (subscriber : A) :
    Decidable (p.rejects activeIsValid signal subscriber) :=
  inferInstanceAs (Decidable (p.isValid = false ∨ activeIsValid subscriber = false ∨ signal < sigUser ∨
    signal ≥ p.signalCount))

def pubsubSubscribe (p : PubSub A) (activeIsValid : A → Bool) (signal : Nat) (subscriber : Option A) :
    PubSub A × Status :=
  match subscriber with
  | none => (p, .invalidArgument)
  | some a =>
    if p.rejects activeIsValid signal a then (p, .invalidArgument)
    else
      match p.findSlot signal (some a), p.findSlot signal none with
      | some _, _ => (p, .invalidState)
      | none, some index => ({ p with slots := Function.update p.slots (p.signalSlots signal + index) (some a) }, .ok)
      | none, none => (p, .noMemory)

def shiftSlots (slots : Nat → Option A) (base index count : Nat) : Nat → Option A :=
  (List.range' index count).foldl (fun slots i => Function.update slots (base + i) (slots (base + i + 1))) slots

def pubsubUnsubscribe (p : PubSub A) (activeIsValid : A → Bool) (signal : Nat) (subscriber : Option A) :
    PubSub A × Status :=
  match subscriber with
  | none => (p, .invalidArgument)
  | some a =>
    if p.rejects activeIsValid signal a then (p, .invalidArgument)
    else
      match p.findSlot signal (some a) with
      | some index =>
        let slots := shiftSlots p.slots (p.signalSlots signal) index (p.maxSubscribers - 1 - index)
        ({ p with slots := Function.update slots (p.signalSlots signal + (p.maxSubscribers - 1)) none }, .ok)
      | none => (p, .invalidState)

def pubsubGetSubscriberCount (p : PubSub A) (signal : Nat) : Nat :=
  if p.isValid = false ∨ signal ≥ p.signalCount then 0
  else (List.range p.maxSubscribers).countP (fun index => (p.slots (p.signalSlots signal + index)).isSome)

def PubSub.snapshot (p : PubSub A) (signal : Nat) : List A :=
  (List.range p.maxSubscribers).filterMap (fun index => p.slots (p.signalSlots signal + index))

end Hairtos
