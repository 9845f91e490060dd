import Hairtos.Port
import Hairtos.Library.Runs

namespace Hairtos

open Library

structure Stacks (T : Type) where
  low : T → Nat
  words : T → Nat
  low_pos : ∀ t, 0 < low t
  aligned : ∀ t, low t % 4 = 0
  enough : ∀ t, 18 ≤ words t
  inside : ∀ t, low t + 4 * words t < 2 ^ 32
  apart : ∀ t u, t ≠ u → low t + 4 * words t ≤ low u ∨ low u + 4 * words u ≤ low t

namespace Stacks

variable {T : Type} (st : Stacks T)

def top (t : T) : Nat := (st.low t + 4 * st.words t) / 8 * 8

structure Fits (t : T) (c : Context) : Prop where
  aligned : c.sp % 4 = 0
  room : st.low t + 36 ≤ exceptionFrame c.sp
  below : c.sp ≤ st.low t + 4 * st.words t
  reserved : (c.caller 7).getLsbD 9 = false

end Stacks

structure Image (T : Type) where
  entry : T → BitVec 32
  argument : T → BitVec 32
  exit : BitVec 32

def Image.context {T : Type} (image : Image T) (st : Stacks T) (t : T) : Context where
  callee i := portInitialFrame (image.entry t) (image.argument t) image.exit (Fin.castAdd 8 i)
  caller i := portInitialFrame (image.entry t) (image.argument t) image.exit (Fin.natAdd 8 i)
  sp := st.top t

section

variable {T : Type} [DecidableEq T]

def Machine.create (st : Stacks T) (image : Image T) (m : Machine T) (t : T) : Machine T :=
  let r := portInitializeStackRaw (taskFillStack m.memory (st.low t) (st.words t)) (st.low t) (st.words t)
    (image.entry t) (image.argument t) image.exit
  { m with memory := r.1, stackPointer := r.2.elim m.stackPointer (Function.update m.stackPointer t) }

def Machine.boot (st : Stacks T) (image : Image T) (m : Machine T) (ts : List T) (first : T) : Machine T :=
  svcHandler { ts.foldl (Machine.create st image) m with current := first }

def Machine.context (m : Machine T) (t : T) : Context :=
  if t = m.current then m.cpu else resumeContext m.memory (m.stackPointer t)

def Stacks.Confines (st : Stacks T) (m : Machine T) : PortOp T → Prop
  | .run code =>
    st.Fits m.current (code m.cpu m.memory).1 ∧
      ∀ t x, t ≠ m.current → m.stackPointer t ≤ x → x < st.low t + 4 * st.words t →
        (code m.cpu m.memory).2 x = m.memory x
  | .pendsv _ => True

structure Virtual (T : Type) where
  contexts : T → Context
  memory : Words
  current : T

def Machine.virtual (m : Machine T) : Virtual T := ⟨m.context, m.memory, m.current⟩

/-- The words below the stack pointer of a task may be overwritten at any time. -/
inductive Virtual.Step (st : Stacks T) (v : Virtual T) : PortOp T → Virtual T → Prop
  | run (code) :
      Virtual.Step st v (.run code)
        { v with
          contexts := Function.update v.contexts v.current (code (v.contexts v.current) v.memory).1
          memory := (code (v.contexts v.current) v.memory).2 }
  | pendsv (next) (memory : Words)
      (live : ∀ x, (∀ t, st.low t ≤ x → (v.contexts t).sp ≤ x) → memory x = v.memory x) :
      Virtual.Step st v (.pendsv next) { v with memory := memory, current := next }

def Virtual.Runs (st : Stacks T) : Virtual T → List (PortOp T) → Virtual T → Prop
  | v, [], v' => v' = v
  | v, op :: ops, v' => ∃ v₁, v.Step st op v₁ ∧ Virtual.Runs st v₁ ops v'

end

section Frame

theorem clear_skipped {w : BitVec 32} (h : w.getLsbD 9 = false) (p : Prop) [Decidable p] :
    (((w &&& ~~~0x200#32) ||| if p then 0x200#32 else 0#32) &&& ~~~0x200#32) = w ∧
      (((w &&& ~~~0x200#32) ||| if p then 0x200#32 else 0#32).getLsbD 9 = decide p) := by
  have hbit : (0x200#32 : BitVec 32) = BitVec.twoPow 32 9 := rfl
  constructor
  · apply BitVec.eq_of_getLsbD_eq
    intro i hi
    by_cases h9 : i = 9
    · subst h9
      simpa [hbit] using h
    · by_cases hp : p
      · simp [hbit, hp, hi, h9]
      · simp [hbit, hp, hi, h9]
  · by_cases hp : p <;> simp [hbit, hp]

theorem resumeContext_congr {m m' : Words} {r0 : Nat} (h : ∀ x, r0 ≤ x → x < r0 + 64 → m' x = m x) :
    resumeContext m' r0 = resumeContext m r0 := by
  have hcallee : m'.load r0 8 = m.load r0 8 := Words.load_congr (fun x hx hlt => h x hx (by omega))
  have hcaller : m'.load (r0 + 32) 8 = m.load (r0 + 32) 8 :=
    Words.load_congr (fun x hx hlt => h x (by omega) (by omega))
  simp only [resumeContext, exceptionReturn, hcallee, hcaller]

theorem resumeContext_sp (m : Words) (r0 : Nat) :
    (resumeContext m r0).sp = r0 + 64 ∨ (resumeContext m r0).sp = r0 + 68 := by
  simp only [resumeContext, exceptionReturn]
  split
  · exact Or.inr rfl
  · exact Or.inl rfl

theorem exceptionFrame_add {sp : Nat} (hlow : 36 ≤ exceptionFrame sp) :
    (sp % 8 = 4 → exceptionFrame sp + 36 = sp) ∧ (sp % 8 ≠ 4 → exceptionFrame sp + 32 = sp) := by
  unfold exceptionFrame at *
  split at hlow <;> constructor <;> intro <;> simp_all <;> omega

theorem resumeContext_saved (m : Words) {c : Context} (hframe : 36 ≤ exceptionFrame c.sp)
    (hreserved : (c.caller 7).getLsbD 9 = false) :
    resumeContext ((m.store (exceptionFrame c.sp) (stackedRegisters c)).store (exceptionFrame c.sp - 32) c.callee)
      (exceptionFrame c.sp - 32) = c := by
  have hback : exceptionFrame c.sp - 32 + 32 = exceptionFrame c.sp := by omega
  have hstacked : ((m.store (exceptionFrame c.sp) (stackedRegisters c)).store (exceptionFrame c.sp - 32) c.callee).load
      (exceptionFrame c.sp) 8 = stackedRegisters c := by
    rw [Words.load_congr (m := m.store (exceptionFrame c.sp) (stackedRegisters c))]
    · exact Words.load_store
    · intro x hx _
      exact Words.store_apply_of_not_mem (Or.inr (by omega))
  obtain ⟨hclear, hskipped⟩ := clear_skipped hreserved (c.sp % 8 = 4)
  obtain ⟨hodd, heven⟩ := exceptionFrame_add hframe
  unfold resumeContext exceptionReturn
  rw [hback, hstacked, Words.load_store]
  obtain ⟨callee, caller, sp⟩ := c
  dsimp only at *
  simp only [stackedRegisters, Function.update_self, Function.update_idem, hclear, hskipped, Function.update_eq_self,
    decide_eq_true_eq, Context.mk.injEq, true_and]
  split
  next h => exact hodd h
  next h => exact heven h

end Frame

section Switch

variable {T : Type} [DecidableEq T] {st : Stacks T} {m : Machine T} {t : T}

def Machine.Sound (st : Stacks T) (m : Machine T) : Prop := ∀ t, st.Fits t (m.context t)

theorem Machine.context_current (m : Machine T) : m.context m.current = m.cpu := if_pos rfl

theorem Machine.context_of_ne (h : t ≠ m.current) : m.context t = resumeContext m.memory (m.stackPointer t) :=
  if_neg h

theorem Machine.Sound.cpu (h : m.Sound st) : st.Fits m.current m.cpu := m.context_current ▸ h m.current

theorem Machine.Sound.saved (h : m.Sound st) (ht : t ≠ m.current) :
    st.low t ≤ m.stackPointer t ∧ m.stackPointer t + 64 ≤ st.low t + 4 * st.words t := by
  have hroom := (h t).room
  have hbelow := (h t).below
  obtain ⟨hodd, heven⟩ := exceptionFrame_add (by omega : 36 ≤ exceptionFrame (m.context t).sp)
  rw [m.context_of_ne ht] at *
  rcases resumeContext_sp m.memory (m.stackPointer t) with hsp | hsp <;> omega

theorem Machine.Sound.resume_congr (h : m.Sound st) (ht : t ≠ m.current) {memory : Words}
    (hsame : ∀ x, m.stackPointer t ≤ x → x < st.low t + 4 * st.words t → memory x = m.memory x) :
    resumeContext memory (m.stackPointer t) = m.context t := by
  have htop := (h.saved ht).2
  rw [m.context_of_ne ht]
  exact resumeContext_congr (fun x hx hlt => hsame x hx (by omega))

theorem Machine.Sound.run (h : m.Sound st) {code : Context → Words → Context × Words}
    (hc : st.Confines m (.run code)) :
    (m.step (.run code)).context = Function.update m.context m.current (code m.cpu m.memory).1 := by
  funext t
  by_cases ht : t = m.current
  · subst ht
    simp [Machine.context, Machine.step]
  · rw [Function.update_of_ne ht]
    exact (if_neg ht).trans (h.resume_congr ht (fun x hx hlt => hc.2 t x ht hx hlt))

theorem pendSvHandler_memory (h : st.Fits m.current m.cpu) (next : T) {x : Nat}
    (hx : x < exceptionFrame m.cpu.sp - 32 ∨ m.cpu.sp ≤ x) : (pendSvHandler m next).memory x = m.memory x := by
  have hroom := h.room
  obtain ⟨hodd, heven⟩ := exceptionFrame_add (by omega : 36 ≤ exceptionFrame m.cpu.sp)
  have hin : exceptionFrame m.cpu.sp + 32 ≤ m.cpu.sp := by
    by_cases hs : m.cpu.sp % 8 = 4
    · have := hodd hs
      omega
    · exact (heven hs).le
  simp only [pendSvHandler]
  rw [Words.store_apply_of_not_mem (by omega), Words.store_apply_of_not_mem (by omega)]

theorem Machine.Sound.pendsv (h : m.Sound st) (next : T) : (pendSvHandler m next).context = m.context := by
  have hfits := h.cpu
  have hroom := hfits.room
  have hbelow := hfits.below
  -- The resumed context does not depend on who is current.
  have hresume : ∀ t, resumeContext (pendSvHandler m next).memory ((pendSvHandler m next).stackPointer t) =
      m.context t := by
    intro t
    by_cases ht : t = m.current
    · subst ht
      rw [m.context_current]
      simp only [pendSvHandler, Function.update_self]
      exact resumeContext_saved m.memory (by omega) hfits.reserved
    · have hptr : (pendSvHandler m next).stackPointer t = m.stackPointer t := Function.update_of_ne ht _ _
      rw [hptr]
      refine h.resume_congr ht (fun x hx hlt => pendSvHandler_memory hfits next ?_)
      have := (h.saved ht).1
      have := st.apart t m.current ht
      omega
  funext t
  by_cases ht : t = next
  · subst ht
    exact (if_pos rfl).trans (hresume t)
  · exact (if_neg ht).trans (hresume t)

theorem Machine.Sound.step (h : m.Sound st) {op : PortOp T} (hop : st.Confines m op) :
    (m.step op).Sound st ∧ m.virtual.Step st op (m.step op).virtual := by
  cases op with
  | run code =>
    have hrun := h.run hop
    refine ⟨fun t => ?_, ?_⟩
    · rw [hrun]
      by_cases ht : t = m.current
      · subst ht
        rw [Function.update_self]
        exact hop.1
      · rw [Function.update_of_ne ht]
        exact h t
    · have hstep := @Virtual.Step.run T _ st m.virtual code
      simp only [Machine.virtual, m.context_current, ← hrun] at hstep
      exact hstep
  | pendsv next =>
    have hfits := h.cpu
    refine ⟨fun t => ?_, ?_⟩
    · rw [Machine.step, h.pendsv next]
      exact h t
    · have hvirtual : (pendSvHandler m next).virtual =
          { m.virtual with memory := (pendSvHandler m next).memory, current := next } := by
        simp only [Machine.virtual, h.pendsv next]
        rfl
      rw [Machine.step, hvirtual]
      refine .pendsv next _ (fun x hx => pendSvHandler_memory hfits next ?_)
      have hcur := hx m.current
      have hroom := hfits.room
      simp only [Machine.virtual, m.context_current] at hcur
      omega

theorem Machine.Sound.runs {ops : List (PortOp T)} (h : m.Sound st) (hops : Meets Machine.step st.Confines m ops) :
    Virtual.Runs st m.virtual ops (ops.foldl Machine.step m).virtual := by
  induction ops generalizing m with
  | nil => rfl
  | cons op ops ih =>
    obtain ⟨hsound, hstep⟩ := h.step hops.1
    exact ⟨_, hstep, ih hsound hops.2⟩

end Switch

section Boot

variable {T : Type} [DecidableEq T] {st : Stacks T} {image : Image T} {m : Machine T} {t u : T}

omit [DecidableEq T]

theorem Stacks.top_spec (st : Stacks T) (t : T) :
    st.top t % 8 = 0 ∧ st.low t + 68 ≤ st.top t ∧ st.top t ≤ st.low t + 4 * st.words t := by
  have := st.enough t
  have := st.aligned t
  unfold Stacks.top
  omega

theorem portInitializeStackRaw_eq (st : Stacks T) (t : T) (m : Words) (entry argument exit : BitVec 32) :
    portInitializeStackRaw m (st.low t) (st.words t) entry argument exit =
      (m.store (st.top t - 64) (portInitialFrame entry argument exit), some (st.top t - 64)) := by
  have hpos := st.low_pos t
  have henough := st.enough t
  have hinside := st.inside t
  obtain ⟨-, hlow, htop⟩ := st.top_spec t
  have hend : Target.cortexM3.add (st.low t) (4 * st.words t) = st.low t + 4 * st.words t := Target.add_eq hinside
  have halign : portAlignDown (st.low t + 4 * st.words t) 8 = st.top t :=
    (congrArg _ (congrArg _ (Target.mask_eq (t := .cortexM3)))).trans
      (Target.and_complement_mask (t := .cortexM3) hinside)
  have hwidth : Target.cortexM3.width = 32 := rfl
  have hsize : Target.cortexM3.sub (st.top t) (st.low t) = st.top t - st.low t :=
    Target.sub_eq (by omega) (by rw [hwidth]; omega)
  have hptr : Target.cortexM3.sub (st.top t) (4 * portInitialFrameWords) = st.top t - 64 :=
    Target.sub_eq (by simp only [portInitialFrameWords]; omega) (by rw [hwidth]; omega)
  have hargs : (decide (st.low t = 0) || decide (st.words t < portInitialFrameWords)) = false := by
    simp only [portInitialFrameWords, Bool.or_eq_false_iff, decide_eq_false_iff_not]
    exact ⟨hpos.ne', decide_eq_false (by omega)⟩
  have hroom : ¬ (st.top t - st.low t) / 4 < portInitialFrameWords := by
    have : 68 ≤ st.top t - st.low t := by omega
    rw [portInitialFrameWords]
    omega
  simp only [portInitializeStackRaw, hargs, hend, halign, hsize, hptr, if_neg hroom, Bool.false_eq_true, ↓reduceIte]
  rw [if_neg (by omega)]

theorem Image.context_fits (image : Image T) (st : Stacks T) (t : T) : st.Fits t (image.context st t) := by
  obtain ⟨haligned, hlow, htop⟩ := st.top_spec t
  have hsp : (image.context st t).sp = st.top t := rfl
  refine ⟨by omega, ?_, htop, (by decide : (0x01000000#32 : BitVec 32).getLsbD 9 = false)⟩
  rw [exceptionFrame, if_neg (by omega)]
  omega

variable [DecidableEq T]

theorem Machine.create_eq (st : Stacks T) (image : Image T) (m : Machine T) (t : T) :
    m.create st image t =
      { m with
        memory := (taskFillStack m.memory (st.low t) (st.words t)).store (st.top t - 64)
          (portInitialFrame (image.entry t) (image.argument t) image.exit)
        stackPointer := Function.update m.stackPointer t (st.top t - 64) } := by
  rw [Machine.create, portInitializeStackRaw_eq]
  rfl

theorem Machine.create_memory {x : Nat} (hx : x < st.low t ∨ st.low t + 4 * st.words t ≤ x) :
    (m.create st image t).memory x = m.memory x := by
  obtain ⟨-, hlow, htop⟩ := st.top_spec t
  have hne : x ≠ st.low t := by
    have := st.enough t
    omega
  rw [Machine.create_eq]
  dsimp only
  rw [Words.store_apply_of_not_mem (by omega), taskFillStack, Function.update_of_ne hne,
    Words.store_apply_of_not_mem (by omega)]

structure Machine.Ready (st : Stacks T) (image : Image T) (m : Machine T) (t : T) : Prop where
  pointer : m.stackPointer t = st.top t - 64
  frame : resumeContext m.memory (st.top t - 64) = image.context st t
  fill : ∀ i, st.low t + 4 * i < st.top t - 64 →
    m.memory (st.low t + 4 * i) = if i = 0 then stackGuardValue else stackFillWord

theorem taskFillStack_apply (m : Words) (low : Nat) {words i : Nat} (hi : i < words) :
    taskFillStack m low words (low + 4 * i) = if i = 0 then stackGuardValue else stackFillWord := by
  by_cases h0 : i = 0
  · simp [taskFillStack, h0]
  · rw [taskFillStack, Function.update_of_ne (by omega), if_neg h0, Words.store, dif_pos (by omega)]

theorem Machine.create_ready (st : Stacks T) (image : Image T) (m : Machine T) (t : T) :
    (m.create st image t).Ready st image t := by
  obtain ⟨-, hlow, htop⟩ := st.top_spec t
  rw [Machine.create_eq]
  refine ⟨Function.update_self .., ?_, fun i hi => ?_⟩
  swap
  · exact (Words.store_apply_of_not_mem (Or.inl hi)).trans (taskFillStack_apply _ _ (by omega))
  generalize taskFillStack m.memory (st.low t) (st.words t) = memory
  have hload : ∀ i : Fin 16, memory.store (st.top t - 64)
      (portInitialFrame (image.entry t) (image.argument t) image.exit) (st.top t - 64 + 4 * i) =
      portInitialFrame (image.entry t) (image.argument t) image.exit i := congrFun Words.load_store
  have hcallee : (memory.store (st.top t - 64)
      (portInitialFrame (image.entry t) (image.argument t) image.exit)).load (st.top t - 64) 8 =
      (image.context st t).callee := funext fun i => hload (Fin.castAdd 8 i)
  have hcaller : (memory.store (st.top t - 64)
      (portInitialFrame (image.entry t) (image.argument t) image.exit)).load (st.top t - 64 + 32) 8 =
      (image.context st t).caller := by
    funext i
    refine Eq.trans ?_ (hload (Fin.natAdd 8 i))
    rw [Words.load, Fin.val_natAdd, Nat.mul_add, Nat.add_assoc]
  have hxpsr : (image.context st t).caller 7 = 0x01000000#32 := rfl
  have hframe : st.top t - 64 + 32 + 32 = st.top t := by omega
  dsimp only
  simp only [resumeContext, exceptionReturn, hcallee, hcaller, hxpsr, hframe]
  have hupdate : Function.update (image.context st t).caller 7 (0x01000000#32 &&& ~~~0x200#32) =
      (image.context st t).caller := Function.update_eq_self 7 _
  rw [hupdate]
  rfl

theorem Machine.Ready.create (h : m.Ready st image t) (u : T) : (m.create st image u).Ready st image t := by
  by_cases htu : t = u
  · subst htu
    exact m.create_ready st image t
  · obtain ⟨-, hlow, htop⟩ := st.top_spec t
    have hapart := st.apart t u htu
    refine ⟨?_, ?_, fun i hi => ?_⟩
    · rw [Machine.create_eq]
      exact (Function.update_of_ne htu _ _).trans h.pointer
    · rw [← h.frame]
      exact resumeContext_congr (fun x hx hlt => Machine.create_memory (by omega))
    · exact (Machine.create_memory (by omega)).trans (h.fill i hi)

theorem Machine.ready_of_mem (st : Stacks T) (image : Image T) (m : Machine T) {ts : List T} (ht : t ∈ ts) :
    (ts.foldl (Machine.create st image) m).Ready st image t := by
  induction ts generalizing m with
  | nil => cases ht
  | cons u ts ih =>
    rw [List.foldl_cons]
    rcases List.mem_cons.mp ht with rfl | hmem
    · exact foldl_keeps (I := fun m => Machine.Ready st image m t) (fun _ u h => h.create u)
        (m.create_ready st image t)
    · exact ih _ hmem

theorem Machine.boot_context (st : Stacks T) (image : Image T) (m : Machine T) {ts : List T} (hts : ∀ t, t ∈ ts)
    (first : T) :
    (m.boot st image ts first).context = image.context st := by
  funext t
  have hready := m.ready_of_mem st image (hts t)
  rw [← hready.frame, ← hready.pointer]
  by_cases ht : t = first
  · subst ht
    exact if_pos rfl
  · exact if_neg ht

theorem Machine.boot_sound (st : Stacks T) (image : Image T) (m : Machine T) {ts : List T} (hts : ∀ t, t ∈ ts)
    (first : T) : (m.boot st image ts first).Sound st := by
  intro t
  rw [m.boot_context st image hts first]
  exact image.context_fits st t

end Boot

theorem context_switch_transparent {T : Type} [DecidableEq T] (st : Stacks T) (image : Image T) (m : Machine T)
    (ts : List T) (hts : ∀ t, t ∈ ts) (first : T) (ops : List (PortOp T))
    (hops : Meets Machine.step st.Confines (m.boot st image ts first) ops) :
    (m.boot st image ts first).virtual.contexts = image.context st ∧
      Virtual.Runs st (m.boot st image ts first).virtual ops
        (ops.foldl Machine.step (m.boot st image ts first)).virtual :=
  ⟨m.boot_context st image hts first, (m.boot_sound st image hts first).runs hops⟩

def boardStacks : Stacks Bool where
  low t := if t then 0x20000048 else 0x20000000
  words _ := 18
  low_pos := by decide
  aligned := by decide
  enough _ := le_refl _
  inside := by decide
  apart := by decide

def boardImage : Image Bool := ⟨fun _ => 0x08000101#32, fun _ => 0#32, 0x08000201#32⟩

def boardReset : Machine Bool := ⟨fun _ => 0, ⟨fun _ => 0, fun _ => 0, 0⟩, fun _ => 0, true⟩

def boardMachine : Machine Bool := boardReset.boot boardStacks boardImage [false, true] false

def boardOps : List (PortOp Bool) :=
  [.run (fun c m => ({ c with callee := fun _ => 0 }, m)), .pendsv true, .pendsv false]

theorem boardMachine_fits : boardStacks.Fits false { boardMachine.cpu with callee := fun _ => 0 } := by
  have hfits := boardReset.boot_sound boardStacks boardImage (by decide : ∀ t, t ∈ [false, true]) false false
  exact ⟨hfits.aligned, hfits.room, hfits.below, hfits.reserved⟩

theorem context_switch_transparent_board :
    boardMachine.virtual.contexts = boardImage.context boardStacks ∧
      Virtual.Runs boardStacks boardMachine.virtual boardOps (boardOps.foldl Machine.step boardMachine).virtual :=
  context_switch_transparent boardStacks boardImage boardReset [false, true] (by decide) false boardOps
    ⟨⟨boardMachine_fits, fun _ _ _ _ _ => rfl⟩, trivial, trivial, trivial⟩

def Stacks.Above {T : Type} (st : Stacks T) (t : T) (b : Nat) (m : Machine T) : PortOp T → Prop
  | .run code => ∀ x, st.low t ≤ x → x < b → (code m.cpu m.memory).2 x = m.memory x
  | .pendsv _ => m.current = t → b + 32 ≤ exceptionFrame m.cpu.sp

section Watermark

variable {T : Type} [DecidableEq T] {st : Stacks T} {image : Image T} {m : Machine T} {t : T} {b : Nat}

theorem stackFreeLoop_ge {memory : Words} {low k left index : Nat} (hk : k ≤ left)
    (h : ∀ i, index ≤ i → i < index + k → memory (low + 4 * i) = stackFillWord) :
    k ≤ stackFreeLoop memory low left index ∧
      (memory (low + 4 * (index + k)) ≠ stackFillWord → stackFreeLoop memory low left index = k) := by
  induction k generalizing left index with
  | zero =>
    refine ⟨Nat.zero_le _, fun hne => ?_⟩
    cases left with
    | zero => rfl
    | succ left => exact if_pos hne
  | succ k ih =>
    obtain ⟨left, rfl⟩ : ∃ n, left = n + 1 := ⟨left - 1, by omega⟩
    have hloop : stackFreeLoop memory low (left + 1) index = stackFreeLoop memory low left (index + 1) + 1 :=
      if_neg (not_not_intro (h index (le_refl _) (by omega)))
    obtain ⟨hge, heq⟩ := @ih left (index + 1) (by omega) (fun i hi hlt => h i (by omega) (by omega))
    rw [hloop]
    refine ⟨by omega, fun hne => ?_⟩
    rw [heq (by rwa [Nat.add_right_comm])]

theorem Machine.Sound.step_above (h : m.Sound st) {op : PortOp T} (habove : st.Above t b m op)
    (hb : b ≤ st.low t + 4 * st.words t) {x : Nat} (hlow : st.low t ≤ x) (hx : x < b) :
    (m.step op).memory x = m.memory x := by
  cases op with
  | run code => exact habove x hlow hx
  | pendsv next =>
    have hfits := h.cpu
    have hroom := hfits.room
    have hbelow := hfits.below
    refine pendSvHandler_memory hfits next ?_
    by_cases ht : m.current = t
    · have := habove ht
      omega
    · have := st.apart m.current t ht
      omega

end Watermark

/-- The words of a stack that nobody has written are reported as free, and the guard stays. If the word above them has
been written with anything but the fill word, no others are reported. -/
theorem stack_watermark_exact {T : Type} [DecidableEq T] (st : Stacks T) (image : Image T) (m : Machine T) (ts : List T)
    (hts : ∀ t, t ∈ ts) (first : T) (ops : List (PortOp T)) (t : T) (n : Nat)
    (hn : st.low t + 4 * (n + 1) + 64 ≤ st.top t)
    (hops : Meets Machine.step (fun m op => st.Confines m op ∧ st.Above t (st.low t + 4 * (n + 1)) m op)
      (m.boot st image ts first) ops) :
    let memory := (ops.foldl Machine.step (m.boot st image ts first)).memory
    taskStackGuardIsValid memory (st.low t) = true ∧
      n ≤ taskGetStackHighWatermark memory (st.low t) (st.words t) ∧
      (memory (st.low t + 4 * (n + 1)) ≠ stackFillWord →
        taskGetStackHighWatermark memory (st.low t) (st.words t) = n) := by
  have hready := m.ready_of_mem st image (hts t)
  have htop := st.top_spec t
  have hsound := m.boot_sound st image hts first
  have hkept := (Meets.keeps (I := fun m' => m'.Sound st ∧ ∀ x, st.low t ≤ x → x < st.low t + 4 * (n + 1) →
    m'.memory x = (m.boot st image ts first).memory x) ?_ hops ⟨hsound, fun _ _ _ => rfl⟩).2
  · have hwords : ∀ i, i < n + 1 → (ops.foldl Machine.step (m.boot st image ts first)).memory (st.low t + 4 * i) =
        if i = 0 then stackGuardValue else stackFillWord := by
      intro i hi
      rw [hkept _ (by omega) (by omega)]
      exact hready.fill i (by omega)
    have hfree := @stackFreeLoop_ge (ops.foldl Machine.step (m.boot st image ts first)).memory (st.low t) n
      (st.words t - 1) 1 (by omega) (fun i hi hlt => (hwords i (by omega)).trans (if_neg (by omega)))
    rw [Nat.add_comm 1 n] at hfree
    exact ⟨decide_eq_true (hwords 0 (by omega)), hfree⟩
  · rintro m' op ⟨hs, hsame⟩ ⟨hconf, habove⟩
    exact ⟨(hs.step hconf).1, fun x hlow hx => (hs.step_above habove (by omega) hlow hx).trans (hsame x hlow hx)⟩

theorem stack_watermark_exact_board :
    taskStackGuardIsValid (boardOps.foldl Machine.step boardMachine).memory 0x20000048 = true ∧
      1 ≤ taskGetStackHighWatermark (boardOps.foldl Machine.step boardMachine).memory 0x20000048 18 ∧
      ((boardOps.foldl Machine.step boardMachine).memory 0x20000050 ≠ stackFillWord →
        taskGetStackHighWatermark (boardOps.foldl Machine.step boardMachine).memory 0x20000048 18 = 1) :=
  stack_watermark_exact boardStacks boardImage boardReset [false, true] (by decide) false boardOps true 1 (by decide)
    ⟨⟨⟨boardMachine_fits, fun _ _ _ _ _ => rfl⟩, fun _ _ _ => rfl⟩, ⟨trivial, fun h => by cases h⟩,
      ⟨trivial, fun _ => by decide +kernel⟩, trivial⟩

end Hairtos
