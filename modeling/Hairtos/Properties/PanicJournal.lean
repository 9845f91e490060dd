import Hairtos.Diagnostics
import Hairtos.Library.Runs

namespace Hairtos

open Library

structure Journal where
  boots : BitVec 32
  entries : BitVec 32
  last : Option PanicRecord
  inUse : Bool

def shortName (name : Option (List UInt8)) : Fin diagnosticsTaskNameLength → UInt8 := fun i =>
  if i + 1 < diagnosticsTaskNameLength then (name.getD []).getD i 0 else 0

namespace Journal

def begin (j : Journal) : Journal := if j.inUse then j else { j with boots := j.boots + 1, inUse := true }

def report (j : Journal) (e : PanicRecord) : PanicRecord :=
  { e with
    signature := diagnosticsSignature
    version := diagnosticsRecordVersion
    bootCount := j.boots
    sequence := j.entries }

def enter (j : Journal) (e : PanicRecord) : Journal × Option PanicRecord :=
  let j := { j.begin with entries := j.begin.entries + 1, last := if e.reason = .none then none else some e }
  (j, some (j.report e))

def step (j : Journal) : DiagnosticsOp → Journal × Option PanicRecord
  | .start => (j.begin, none)
  | .getLastPanic => (j.begin, j.begin.last.map j.begin.report)
  | .clearLastPanic => ({ j.begin with last := none }, none)
  | .recordPanic site reason sourceFile sourceLine =>
    j.enter ⟨0, 0, 0, 0, reason, site.tick, site.taskAddress, shortName site.taskName, sourceLine,
      diagnosticsHashString sourceFile, fun _ => 0⟩
  | .recordFault site reason fault =>
    j.enter ⟨0, 0, 0, 0, reason, site.tick, site.taskAddress, shortName site.taskName, 0, 0, fault.getD
      (fun _ => 0)⟩
  | .reset => ({ j with inUse := false }, none)

end Journal

def PanicRecord.entry (r : PanicRecord) : Option PanicRecord :=
  if r.reason = .none then none else some { r with signature := 0, version := 0, bootCount := 0, sequence := 0 }

def Diagnostics.journal (d : Diagnostics) : Journal :=
  if diagnosticsRecordHeaderValid d then ⟨d.record.bootCount, d.record.sequence, d.record.entry, d.initialized⟩
  else ⟨0, 0, none, d.initialized⟩

section Name

variable {n : Nat}

theorem clearNameLoop_apply (destination : Fin n → UInt8) (index left : Nat) (i : Fin n) :
    clearNameLoop destination index left i = if index ≤ i ∧ i < index + left then 0 else destination i := by
  induction left generalizing destination index with
  | zero => exact (if_neg (by omega)).symm
  | succ left ih =>
    rw [clearNameLoop, ih, setByte]
    grind

theorem copyNameLoop_apply (destination : Fin n → UInt8) (index : Nat) (source : List UInt8) (hindex : index < n)
    (i : Fin n) :
    let r := copyNameLoop destination index source
    clearNameLoop (setByte r.1 r.2 0) (r.2 + 1) (n - (r.2 + 1)) i =
      if i < index then destination i else if i + 1 < n then source.getD (i - index) 0 else 0 := by
  induction source generalizing destination index with
  | nil =>
    have hi := i.isLt
    simp only [copyNameLoop, clearNameLoop_apply, setByte, List.getD_nil, ite_self]
    split_ifs <;> first | rfl | omega
  | cons c source ih =>
    rw [copyNameLoop]
    split
    · next hroom =>
      refine (ih (setByte destination index c) (index + 1) hroom).trans ?_
      rw [setByte]
      by_cases hlt : (i : Nat) < index
      · rw [if_pos (by omega), if_neg hlt.ne, if_pos hlt]
      · by_cases heq : (i : Nat) = index
        · rw [if_pos (by omega), if_pos heq, if_neg hlt, if_pos (by omega), heq, Nat.sub_self]
          rfl
        · obtain ⟨k, hk⟩ : ∃ k, (i : Nat) = index + 1 + k := ⟨i - (index + 1), by omega⟩
          rw [if_neg (by omega), if_neg hlt, hk, Nat.add_sub_cancel_left, Nat.add_assoc index, Nat.add_sub_cancel_left,
            Nat.add_comm 1 k, List.getD_cons_succ]
    · have hi := i.isLt
      simp only [clearNameLoop_apply, setByte]
      split_ifs <;> first | rfl | omega

theorem diagnosticsCopyName_eq (destination : Fin diagnosticsTaskNameLength → UInt8) (name : Option (List UInt8)) :
    diagnosticsCopyName destination name = shortName name := by
  funext i
  rw [diagnosticsCopyName, if_neg (by decide)]
  exact copyNameLoop_apply destination 0 (name.getD []) (by decide) i

end Name

structure Diagnostics.Keeps (d : Diagnostics) (j : Journal) : Prop where
  journal : d.journal = j
  valid : d.initialized = true → diagnosticsRecordHeaderValid d = true

section

variable {d : Diagnostics} {j : Journal}

theorem Diagnostics.journal_of_valid (h : diagnosticsRecordHeaderValid d = true) :
    d.journal = ⟨d.record.bootCount, d.record.sequence, d.record.entry, d.initialized⟩ := if_pos h

theorem Diagnostics.Keeps.begin (h : d.Keeps j) :
    (diagnosticsInitialize d).initialized = true ∧ (diagnosticsInitialize d).Keeps j.begin := by
  obtain ⟨rfl, hvalid⟩ := h
  cases hi : d.initialized with
  | true =>
    have hsame : diagnosticsInitialize d = d := if_pos hi
    have hjournal : d.journal.begin = d.journal := by
      rw [Diagnostics.journal_of_valid (hvalid hi)]
      exact if_pos hi
    rw [hsame, hjournal]
    exact ⟨hi, rfl, hvalid⟩
  | false =>
    cases hv : diagnosticsRecordHeaderValid d with
    | true =>
      have he : diagnosticsInitialize d = ⟨{ d.record with bootCount := d.record.bootCount + 1 }, true⟩ := by
        simp [diagnosticsInitialize, hi, hv]
      have hv' : diagnosticsRecordHeaderValid ⟨{ d.record with bootCount := d.record.bootCount + 1 }, true⟩ =
        true := hv
      rw [he]
      refine ⟨rfl, ?_, fun _ => hv'⟩
      rw [Diagnostics.journal_of_valid hv, Diagnostics.journal_of_valid hv', hi]
      rfl
    | false =>
      have hjournal : d.journal = ⟨0, 0, none, false⟩ := by simp [Diagnostics.journal, hv, hi]
      rw [hjournal, diagnosticsInitialize, hi, hv]
      exact ⟨rfl, rfl, fun _ => rfl⟩

theorem Diagnostics.Keeps.enter (h : d.Keeps j) (e : PanicRecord)
    (he : e = { e with signature := 0, version := 0, bootCount := 0, sequence := 0 }) {record : PanicRecord}
    (hrecord : record = { j.begin with entries := j.begin.entries + 1 }.report e) :
    Diagnostics.Keeps { diagnosticsInitialize d with record := record } (j.enter e).1 ∧
      some record = (j.enter e).2 := by
  obtain ⟨hi, hbegin⟩ := h.begin
  have hinUse : j.begin.inUse = true := by
    rw [← hbegin.journal, Diagnostics.journal_of_valid (hbegin.valid hi)]
    exact hi
  subst hrecord
  refine ⟨⟨?_, fun _ => rfl⟩, rfl⟩
  rw [Diagnostics.journal_of_valid rfl, hi, ← hinUse, he]
  rfl

theorem Diagnostics.Keeps.step (h : d.Keeps j) (op : DiagnosticsOp) :
    (d.step op).1.Keeps (j.step op).1 ∧ (d.step op).2 = (j.step op).2 := by
  obtain ⟨hi, hbegin⟩ := h.begin
  have hv := hbegin.valid hi
  have hjournal := hbegin.journal
  rw [Diagnostics.journal_of_valid hv] at hjournal
  cases op with
  | start => exact ⟨hbegin, rfl⟩
  | getLastPanic =>
    refine ⟨hbegin, ?_⟩
    simp only [Diagnostics.step, diagnosticsGetLastPanic, Journal.step, hv, ← hjournal, PanicRecord.entry]
    simp only [diagnosticsRecordHeaderValid, Bool.and_eq_true, decide_eq_true_eq] at hv
    by_cases hreason : (diagnosticsInitialize d).record.reason = .none
    · simp [hreason]
    · simp [hreason, Journal.report, ← hv.1, ← hv.2]
  | clearLastPanic =>
    refine ⟨⟨?_, fun _ => rfl⟩, rfl⟩
    rw [Diagnostics.journal_of_valid rfl, Journal.step, ← hjournal]
    rfl
  | recordPanic site reason sourceFile sourceLine =>
    refine h.enter _ rfl ?_
    rw [← hjournal, diagnosticsPrepareRecord, diagnosticsCopyName_eq]
    rfl
  | recordFault site reason fault =>
    refine h.enter _ rfl ?_
    rw [← hjournal, diagnosticsPrepareRecord, diagnosticsCopyName_eq]
    rfl
  | reset =>
    obtain ⟨rfl, -⟩ := h
    refine ⟨⟨?_, by simp [Diagnostics.step]⟩, rfl⟩
    have hsame : diagnosticsRecordHeaderValid { d with initialized := false } = diagnosticsRecordHeaderValid d := rfl
    simp only [Diagnostics.step, Diagnostics.journal, Journal.step, hsame]
    cases diagnosticsRecordHeaderValid d <;> rfl

end

theorem panic_journal_refined (record : PanicRecord) (ops : List DiagnosticsOp) :
    (answers Diagnostics.step ⟨record, false⟩ ops).2 =
      (answers Journal.step (Diagnostics.journal ⟨record, false⟩) ops).2 :=
  (answers_simulate Diagnostics.Keeps (fun _ _ op h => h.step op) ⟨rfl, by simp⟩ ops).2

end Hairtos
