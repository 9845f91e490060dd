import Hairtos.Properties.MutualExclusion
import Hairtos.Properties.Structure
import Hairtos.Properties.ServiceOrder
import Hairtos.Properties.LabInit
import Hairtos.Properties.EventPool
import Hairtos.Properties.PublishSubscribe
import Hairtos.Properties.ReadySet
import Hairtos.Properties.TimeJumps
import Hairtos.Properties.DelayUntil
import Hairtos.Properties.TransitionChains
import Hairtos.Properties.TokenConservation
import Hairtos.Properties.ListValidation
import Hairtos.Properties.BenchmarkStats
import Hairtos.Properties.MillisecondDelay
import Hairtos.Properties.FailedCalls
import Hairtos.Properties.RefusedLock
import Hairtos.Properties.RoundRobin
import Hairtos.Properties.ContextSwitch
import Hairtos.Properties.PriorityInversion
import Hairtos.Properties.ActiveQueue
import Hairtos.Properties.ObjectValidity
import Hairtos.Properties.PanicJournal
