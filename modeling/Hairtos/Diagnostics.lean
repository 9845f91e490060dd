import Hairtos.Types

/-!
The panic record of `hr_diagnostics.c`. It lies in `.noinit` and survives a reset, other than the flag that tells
whether the diagnostics have been initialised since. A string is the bytes before its NUL.
-/

namespace Hairtos

inductive PanicReason
  | none
  | assert
  | kernelInvariant
  | stackOverflow
  | nmi
  | hardfault
  | memmanage
  | busfault
  | usagefault
  | user
  -- a value outside the enumeration
  | other (value : Nat)
  deriving DecidableEq, Repr

abbrev FaultContext := Fin 17 → BitVec 32

def diagnosticsTaskNameLength : Nat := 24

structure PanicRecord where
  signature : BitVec 32
  version : BitVec 32
  bootCount : BitVec 32
  sequence : BitVec 32
  reason : PanicReason
  tick : Tick
  taskAddress : Nat
  taskName : Fin diagnosticsTaskNameLength → UInt8
  sourceLine : BitVec 32
  sourceHash : BitVec 32
  fault : FaultContext

def PanicRecord.zero : PanicRecord := ⟨0, 0, 0, 0, .none, 0, 0, fun _ => 0, 0, 0, fun _ => 0⟩

def diagnosticsSignature : BitVec 32 := 0x48524447#32

def diagnosticsRecordVersion : BitVec 32 := 1#32

def diagnosticsHashString : Option (List UInt8) → BitVec 32
  | none => 0
  | some text => text.foldl (fun hash c => (hash ^^^ BitVec.ofNat 32 c.toNat) * 16777619#32) 2166136261#32

section

variable {n : Nat}

def setByte (destination : Fin n → UInt8) (index : Nat) (c : UInt8) : Fin n → UInt8 := fun i =>
  if i = index then c else destination i

def copyNameLoop (destination : Fin n → UInt8) (index : Nat) : List UInt8 → (Fin n → UInt8) × Nat
  | [] => (destination, index)
  | c :: source =>
    if index + 1 < n then copyNameLoop (setByte destination index c) (index + 1) source else (destination, index)

def clearNameLoop (destination : Fin n → UInt8) (index : Nat) : Nat → Fin n → UInt8
  | 0 => destination
  | left + 1 => clearNameLoop (setByte destination index 0) (index + 1) left

def diagnosticsCopyName (destination : Fin n → UInt8) (source : Option (List UInt8)) : Fin n → UInt8 :=
  if n = 0 then destination
  else
    let r := copyNameLoop destination 0 (source.getD [])
    clearNameLoop (setByte r.1 r.2 0) (r.2 + 1) (n - (r.2 + 1))

end

structure PanicSite where
  tick : Tick
  taskAddress : Nat
  taskName : Option (List UInt8)

structure Diagnostics where
  record : PanicRecord
  initialized : Bool

def diagnosticsRecordHeaderValid (d : Diagnostics) : Bool :=
  d.record.signature = diagnosticsSignature && d.record.version = diagnosticsRecordVersion

def diagnosticsInitialize (d : Diagnostics) : Diagnostics :=
  if d.initialized then d
  else
    let record := if diagnosticsRecordHeaderValid d then d.record
      else { PanicRecord.zero with signature := diagnosticsSignature, version := diagnosticsRecordVersion }
    ⟨{ record with bootCount := record.bootCount + 1 }, true⟩

def diagnosticsGetLastPanic (d : Diagnostics) : Diagnostics × Option PanicRecord :=
  let d := diagnosticsInitialize d
  (d, if diagnosticsRecordHeaderValid d && d.record.reason ≠ .none then some d.record else none)

def diagnosticsClearLastPanic (d : Diagnostics) : Diagnostics :=
  let d := diagnosticsInitialize d
  { d with
    record :=
      { PanicRecord.zero with
        signature := diagnosticsSignature
        version := diagnosticsRecordVersion
        bootCount := d.record.bootCount
        sequence := d.record.sequence } }

def diagnosticsPrepareRecord (record : PanicRecord) (site : PanicSite) (reason : PanicReason) : PanicRecord :=
  { record with
    signature := diagnosticsSignature
    version := diagnosticsRecordVersion
    sequence := record.sequence + 1
    reason := reason
    tick := site.tick
    taskAddress := site.taskAddress
    taskName := diagnosticsCopyName record.taskName site.taskName }

def diagnosticsRecordPanic (d : Diagnostics) (site : PanicSite) (reason : PanicReason)
    (sourceFile : Option (List UInt8))
    (sourceLine : BitVec 32) : Diagnostics × PanicRecord :=
  let d := diagnosticsInitialize d
  let record :=
    { diagnosticsPrepareRecord d.record site reason with
      sourceLine := sourceLine, sourceHash := diagnosticsHashString sourceFile, fault := fun _ => 0 }
  ({ d with record := record }, record)

def diagnosticsRecordFault (d : Diagnostics) (site : PanicSite) (reason : PanicReason) (fault : Option FaultContext) :
    Diagnostics × PanicRecord :=
  let d := diagnosticsInitialize d
  let record :=
    { diagnosticsPrepareRecord d.record site reason with
      sourceLine := 0, sourceHash := 0, fault := fault.getD (fun _ => 0) }
  ({ d with record := record }, record)

inductive DiagnosticsOp
  | start
  | getLastPanic
  | clearLastPanic
  | recordPanic (site : PanicSite) (reason : PanicReason) (sourceFile : Option (List UInt8)) (sourceLine : BitVec 32)
  | recordFault (site : PanicSite) (reason : PanicReason) (fault : Option FaultContext)
  -- `Reset_Handler` clears `.bss`
  | reset

def Diagnostics.step (d : Diagnostics) : DiagnosticsOp → Diagnostics × Option PanicRecord
  | .start => (diagnosticsInitialize d, none)
  | .getLastPanic => diagnosticsGetLastPanic d
  | .clearLastPanic => (diagnosticsClearLastPanic d, none)
  | .recordPanic site reason sourceFile sourceLine =>
    (diagnosticsRecordPanic d site reason sourceFile sourceLine).map id some
  | .recordFault site reason fault => (diagnosticsRecordFault d site reason fault).map id some
  | .reset => ({ d with initialized := false }, none)

end Hairtos
