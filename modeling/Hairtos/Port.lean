import Hairtos.Target
import Mathlib.Data.Fin.VecNotation
import Mathlib.Logic.Function.Basic

/-!
The Cortex-M3 port: the stack of a task (`hr_port_stack.c` and the stack functions of `hr_task.c`) and the context
switch (`hr_portasm.S`). Memory is addressed in bytes and holds a word at each multiple of four.
-/

namespace Hairtos

abbrev Words := Nat → BitVec 32

namespace Words

def store {n : Nat} (m : Words) (a : Nat) (ws : Fin n → BitVec 32) : Words := fun x =>
  if h : a ≤ x ∧ x < a + 4 * n ∧ (x - a) % 4 = 0 then ws ⟨(x - a) / 4, by omega⟩ else m x

def load (m : Words) (a n : Nat) : Fin n → BitVec 32 := fun i => m (a + 4 * i)

variable {n : Nat} {m m' : Words} {a x : Nat} {ws : Fin n → BitVec 32}

theorem store_apply_of_not_mem (h : x < a ∨ a + 4 * n ≤ x) : m.store a ws x = m x := dif_neg (by omega)

theorem load_store : (m.store a ws).load a n = ws := by
  funext i
  have hi := i.isLt
  have hx : a ≤ a + 4 * (i : Nat) ∧ a + 4 * (i : Nat) < a + 4 * n ∧ (a + 4 * (i : Nat) - a) % 4 = 0 := by omega
  rw [load, store, dif_pos hx]
  congr 1
  apply Fin.ext
  simp

theorem load_congr (h : ∀ x, a ≤ x → x < a + 4 * n → m' x = m x) : m'.load a n = m.load a n := by
  funext i
  have hi := i.isLt
  exact h _ (by omega) (by omega)

end Words

def stackFillWord : BitVec 32 := 0xA5A5A5A5#32

def stackGuardValue : BitVec 32 := 0xDEADBEEF#32

def taskFillStack (m : Words) (stack stackWords : Nat) : Words :=
  Function.update (m.store stack (fun _ : Fin stackWords => stackFillWord)) stack stackGuardValue

def portAlignDown (value alignment : Nat) : Nat :=
  value &&& Target.cortexM3.complement (Target.cortexM3.sub alignment 1)

def portInitialFrameWords : Nat := 16

def portInitialFrame (entry argument exit : BitVec 32) : Fin 16 → BitVec 32 :=
  ![0x44444444#32, 0x55555555#32, 0x66666666#32, 0x77777777#32, 0x88888888#32, 0x99999999#32, 0xAAAAAAAA#32,
    0xBBBBBBBB#32, argument, 0x11111111#32, 0x22222222#32, 0x33333333#32, 0x12121212#32, exit ||| 1#32,
    entry &&& 0xFFFFFFFE#32, 0x01000000#32]

def portInitializeStackRaw (m : Words) (stackLow stackWords : Nat) (entry argument exit : BitVec 32) :
    Words × Option Nat :=
  if stackLow = 0 || stackWords < portInitialFrameWords then (m, none)
  else
    let top := Target.cortexM3.add stackLow (4 * stackWords)
    let alignedTop := portAlignDown top 8
    if alignedTop ≤ stackLow then (m, none)
    else if Target.cortexM3.sub alignedTop stackLow / 4 < portInitialFrameWords then (m, none)
    else
      let stackPointer := Target.cortexM3.sub alignedTop (4 * portInitialFrameWords)
      (m.store stackPointer (portInitialFrame entry argument exit), some stackPointer)

def stackFreeLoop (m : Words) (stackLow : Nat) : Nat → Nat → Nat
  | 0, _ => 0
  | left + 1, index =>
    if m (stackLow + 4 * index) ≠ stackFillWord then 0 else stackFreeLoop m stackLow left (index + 1) + 1

def taskGetStackHighWatermark (m : Words) (stackLow stackWords : Nat) : Nat :=
  stackFreeLoop m stackLow (stackWords - 1) 1

def taskStackGuardIsValid (m : Words) (stackLow : Nat) : Bool := m stackLow = stackGuardValue

/-- The registers of a thread: R4 to R11, the ones an exception stacks in their order, and the stack pointer. -/
structure Context where
  callee : Fin 8 → BitVec 32
  caller : Fin 8 → BitVec 32
  sp : Nat

structure Machine (T : Type) where
  memory : Words
  cpu : Context
  -- The first field of each task control block.
  stackPointer : T → Nat
  current : T

/-- With `STKALIGN` the frame is aligned to eight bytes; bit 9 of the stacked xPSR tells whether a word was skipped. -/
def exceptionFrame (sp : Nat) : Nat := if sp % 8 = 4 then sp - 36 else sp - 32

def stackedRegisters (c : Context) : Fin 8 → BitVec 32 :=
  Function.update c.caller 7 ((c.caller 7 &&& ~~~0x200#32) ||| if c.sp % 8 = 4 then 0x200#32 else 0#32)

def exceptionReturn (m : Words) (callee : Fin 8 → BitVec 32) (psp : Nat) : Context :=
  let stacked := m.load psp 8
  { callee := callee
    caller := Function.update stacked 7 (stacked 7 &&& ~~~0x200#32)
    sp := if (stacked 7).getLsbD 9 then psp + 36 else psp + 32 }

def resumeContext (m : Words) (r0 : Nat) : Context := exceptionReturn m (m.load r0 8) (r0 + 32)

variable {T : Type} [DecidableEq T]

def svcHandler (m : Machine T) : Machine T := { m with cpu := resumeContext m.memory (m.stackPointer m.current) }

/-- `next` is the task that `hr_kernel_select_next_from_pendsv` leaves as the current one. -/
def pendSvHandler (m : Machine T) (next : T) : Machine T :=
  let psp := exceptionFrame m.cpu.sp
  let memory := m.memory.store psp (stackedRegisters m.cpu)
  let r0 := psp - 32
  let memory := memory.store r0 m.cpu.callee
  let stackPointer := Function.update m.stackPointer m.current r0
  { memory := memory
    cpu := resumeContext memory (stackPointer next)
    stackPointer := stackPointer
    current := next }

inductive PortOp (T : Type)
  | run (code : Context → Words → Context × Words)
  | pendsv (next : T)

def Machine.step (m : Machine T) : PortOp T → Machine T
  | .run code => { m with cpu := (code m.cpu m.memory).1, memory := (code m.cpu m.memory).2 }
  | .pendsv next => pendSvHandler m next

end Hairtos
