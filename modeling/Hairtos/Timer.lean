import Hairtos.Mutex

/-!
The software timers of `hr_timer.c`. Without `softwareTimer` the functions are the stubs at the end
of that file.
-/

namespace Hairtos

open Library

def timerIsValid (s : System) (t : TimerRef) : Bool :=
  let cb := s.timers.blocks t
  cb.magic && cb.name.isSome && cb.callback.isSome && cb.periodTicks ≠ 0#32 && cb.periodTicks ≠ waitForever

def timerValidateInternal (s : System) (t : TimerRef) : Bool :=
  let cb := s.timers.blocks t
  timerIsValid s t && cb.active == listNodeIsLinked s.timers.timeouts.lists t &&
    (cb.pendingCount == 0) == !listNodeIsLinked s.timers.pending t

def TimerSystem.update (ts : TimerSystem) (t : TimerRef) (f : TimerControlBlock → TimerControlBlock) : TimerSystem :=
  { ts with blocks := Function.update ts.blocks t (f (ts.blocks t)) }

def timerTaskParameters (cfg : Config) : TaskParameters where
  name := some "timer-service"
  entry := some 1
  stack := some 1
  stackWords := timerTaskStackWords
  priority := cfg.timerTaskPriority

def timerSystemEnsureInitialized (cfg : Config) (s : System) : System × Status :=
  if !cfg.softwareTimer then (s, .notSupported)
  else if s.timers.initialized then (s, .ok)
  else if s.kernel.state ≠ .initialized then (s, .invalidState)
  else
    let s := { s with
      timers := { s.timers with
        timeouts := timeoutListInit s.timers.timeouts.wakeTick s.kernel.tick
        pending := .empty } }
    let (s, status) := semaphoreCreateBinary s (some .timerSignal) false
    if status ≠ .ok then (s, status)
    else
      let (k, status) := taskCreateStatic cfg s.kernel (some .timerService) (timerTaskParameters cfg)
      if status ≠ .ok then ({ s with kernel := k }, status)
      else
        let (k, status) := taskStart cfg k (some .timerService)
        let s := { s with kernel := k }
        if status ≠ .ok then (s, status)
        else ({ s with timers := { s.timers with initialized := true } }, .ok)

def timerCreateStatic (cfg : Config) (s : System) (inIsr : Bool) (timer : Option TimerRef) (name : Option String)
    (periodTicks : Tick) (autoReload : Bool) (callback : Option Nat) : System × Status :=
  if !cfg.softwareTimer then (s, .notSupported)
  else
    match timer with
    | none => (s, .invalidArgument)
    | some t =>
      if name = none || callback = none || periodTicks = 0#32 || periodTicks = waitForever then (s, .invalidArgument)
      else if inIsr then (s, .fromIsr)
      else if timerIsValid s t then (s, .invalidState)
      else
        let (s, status) := timerSystemEnsureInitialized cfg s
        if status ≠ .ok then (s, status)
        else
          let timers := s.timers.update t (fun _ =>
            { magic := true, name := name, callback := callback, periodTicks := periodTicks,
              autoReload := autoReload })
          let timeouts := { timers.timeouts with wakeTick := Function.update timers.timeouts.wakeTick t 0#32 }
          ({ s with timers := { timers with timeouts := timeouts } }, .ok)

def timerClearPendingLocked (ts : TimerSystem) (t : TimerRef) : TimerSystem :=
  let pending := if listNodeIsLinked ts.pending t then (listRemove ts.pending t).1 else ts.pending
  { ts with pending := pending }.update t (fun cb => { cb with pendingCount := 0 })

def timerArmLocked (ts : TimerSystem) (t : TimerRef) : TimerSystem × Status :=
  let (timeouts, status) := timeoutListInsert ts.timeouts t (ts.blocks t).periodTicks
  let ts := { ts with timeouts := timeouts }
  if status = .ok then (ts.update t (fun cb => { cb with active := true }), .ok) else (ts, status)

def timerDisarmLocked (ts : TimerSystem) (t : TimerRef) : TimerSystem × Status :=
  if !(ts.blocks t).active then (ts, .ok)
  else
    let (timeouts, status) := timeoutListRemove ts.timeouts t
    let ts := { ts with timeouts := timeouts }
    if status = .ok then (ts.update t (fun cb => { cb with active := false }), .ok) else (ts, status)

def timerCall (cfg : Config) (s : System) (inIsr : Bool) (timer : Option TimerRef)
    (f : TimerSystem → TimerRef → TimerSystem × Status) : System × Status :=
  if !cfg.softwareTimer then (s, .notSupported)
  else
    match timer with
    | none => (s, .invalidArgument)
    | some t =>
      if !timerIsValid s t then (s, .invalidArgument)
      else if inIsr then (s, .fromIsr)
      else
        let (timers, status) := f s.timers t
        ({ s with timers := timers }, status)

def timerStart (cfg : Config) (s : System) (inIsr : Bool) (timer : Option TimerRef) : System × Status :=
  timerCall cfg s inIsr timer (fun ts t =>
    if (ts.blocks t).active then (ts, .invalidState) else timerArmLocked (timerClearPendingLocked ts t) t)

def timerStop (cfg : Config) (s : System) (inIsr : Bool) (timer : Option TimerRef) : System × Status :=
  timerCall cfg s inIsr timer (fun ts t =>
    let (ts, status) := timerDisarmLocked ts t
    (timerClearPendingLocked ts t, status))

def timerReset (cfg : Config) (s : System) (inIsr : Bool) (timer : Option TimerRef) : System × Status :=
  timerCall cfg s inIsr timer (fun ts t =>
    let (ts, status) := timerDisarmLocked ts t
    if status ≠ .ok then (ts, status) else timerArmLocked (timerClearPendingLocked ts t) t)

def timerChangePeriod (cfg : Config) (s : System) (inIsr : Bool) (timer : Option TimerRef) (newPeriodTicks : Tick) :
    System × Status :=
  if cfg.softwareTimer && (newPeriodTicks = 0#32 || newPeriodTicks = waitForever) then (s, .invalidArgument)
  else
    timerCall cfg s inIsr timer (fun ts t =>
      let (ts, status) := timerDisarmLocked ts t
      if status ≠ .ok then (ts, status)
      else
        let ts := ts.update t (fun cb => { cb with periodTicks := newPeriodTicks })
        timerArmLocked (timerClearPendingLocked ts t) t)

def timerExpire (s : System) (t : TimerRef) : System × Bool :=
  if !timerIsValid s t || !(s.timers.blocks t).active then (s, false)
  else
    let timers := s.timers.update t (fun cb =>
      { cb with
        active := false
        pendingCount := if cb.pendingCount < uint32Max then cb.pendingCount + 1 else cb.pendingCount })
    let pending := if !listNodeIsLinked timers.pending t then (listPushBack timers.pending () t).1 else timers.pending
    let timers := { timers with pending := pending }
    if (timers.blocks t).autoReload then
      let (timers, status) := timerArmLocked timers t
      ({ s with timers := timers }, status = .ok)
    else ({ s with timers := timers }, true)

/-- The loop over the expired timers. The second component is `signal_required`, absent after an
early return. -/
def timerExpireLoop : Nat → System → Bool → System × Option Bool
  | 0, s, signal => (s, some signal)
  | fuel + 1, s, signal =>
    match listPopFront s.timers.timeouts.lists .expired with
    | (_, none) => (s, some signal)
    | (lists, some t) =>
      let timeouts := { s.timers.timeouts with lists := lists }
      match timerExpire { s with timers := { s.timers with timeouts := timeouts } } t with
      | (s, true) => timerExpireLoop fuel s true
      | (s, false) => (s, none)

/-- The second component is `*switch_required`. -/
def timerTickFromIsr (cfg : Config) (s : System) (now : Tick) : System × Bool :=
  if !cfg.softwareTimer || !s.timers.initialized then (s, false)
  else
    let (timeouts, status) := timeoutListAdvance s.timers.timeouts now
    let s := { s with timers := { s.timers with timeouts := timeouts } }
    if status ≠ .ok then (s, false)
    else
      match timerExpireLoop (listSize s.timers.timeouts.lists .expired) s false with
      | (s, none) => (s, false)
      | (s, some false) => (s, false)
      | (s, some true) =>
        let (s, woken, status) := semaphoreGiveFromIsr cfg s true (some .timerSignal)
        (s, (status = .ok || status = .semaphoreFull) && woken)

def timerBeginPending (s : System) : System × Option TimerRef :=
  if !s.timers.initialized then (s, none)
  else
    match listPopFront s.timers.pending () with
    | (_, none) => (s, none)
    | (pending, some t) =>
      let s := { s with timers := { s.timers with pending := pending } }
      if !timerIsValid s t || (s.timers.blocks t).pendingCount = 0 then (s, none)
      else
        let timers := s.timers.update t (fun cb =>
          { cb with pendingCount := cb.pendingCount - 1, callbackRunning := true })
        let pending :=
          if 0 < (timers.blocks t).pendingCount then (listPushBack timers.pending () t).1 else timers.pending
        ({ s with timers := { timers with pending := pending } }, some t)

def timerEndPending (s : System) (t : TimerRef) : System :=
  { s with timers := s.timers.update t (fun cb => { cb with callbackRunning := false }) }

end Hairtos
