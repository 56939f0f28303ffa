import Chip8.Proofs.Cycle.Subroutines
import Chip8.Proofs.Cycle.Failures
import Chip8.Proofs.Text.Messages

/-!
# The log of a run

A cycle makes its records in two places.  The first is between the decoder and the execution: there an
instruction is recorded before it has done anything, so it is recorded whether it succeeds or not.  The
second is in a return, once the address has been taken off the call stack.  Nothing else records
anything, and a cycle that has no instruction to execute is silent.

So the log tells what a run has done.  Each record of an instruction stands for a cycle that decoded one,
and the records of calls and returns follow the depth of the call stack: a call always succeeds and pushes
one address, and a return is recorded if and only if it takes one.

## What is here

* `Machine.Decodes`, `Machine.transcript`, `Machine.log_cycle` — the records of a cycle.
* `Machine.afterCycles`, `Machine.logAfter` — machine and log after any number of cycles.
* `Machine.traces_logAfter`, `Machine.calls_logAfter` — what can be counted in a log.
* `Machine.lines_logAfter_inj` — what is recorded can be read in the lines of a log.
* `Machine.log_is_transcript` — the log of a run.
-/

set_option autoImplicit false

namespace Chip8

open Numeral

namespace Record

/-- Whether a record is about an instruction `2NNN`. -/
def isCall : Record → Bool
  | running _ w _ => w.kind == 2
  | _ => false

/-- Whether a record is about a return. -/
def isReturn : Record → Bool
  | returned _ => true
  | _ => false

/-- Whether a record is one of the finest level. -/
def isTrace (r : Record) : Bool := r.level = .trace

/-- The line of a log that shows a record. -/
def line (r : Record) : Level × String := (r.level, r.message)

theorem line_injective : Function.Injective line := by
  intro r s h
  exact message_inj.1 (congrArg Prod.snd h)

end Record

namespace Machine

variable {m : Machine} {i : Instruction} {w : Opcode}

/-! ## The records of a cycle -/

/-- A return records where it goes, if there is a call to leave. -/
theorem log_leave (m : Machine) : m.leave.log = m.memory.calls.head?.toList.map .returned := by
  rw [leave, Memory.pop]
  cases m.memory.calls <;> rfl

/-- **Only a return records anything while it runs.** -/
theorem log_execute (m : Machine) (i : Instruction) :
    (m.execute i).log = if i = .ret then m.memory.calls.head?.toList.map .returned else [] := by
  cases i with
  | ret => exact m.log_leave
  | awaitKey x =>
    change (m.takeKey x).log = []
    rw [takeKey]
    split <;> rfl
  | storeDecimal x | storeRegisters x | fillRegisters x =>
    change (afterTransfer _ _).log = []
    rw [afterTransfer]
    split <;> rfl
  | _ => rfl

theorem log_perform (m : Machine) (i : Instruction) : (m.perform i).log = m.performLog i := by
  rcases h : (m.execute i).result with f | ⟨step, s⟩
  · rw [perform_of_error h]
  · rw [perform_of_ok h]

/-- **The next cycle decodes an instruction.** -/
def Decodes (m : Machine) : Prop := ∃ w i, m.fetch = .ok w ∧ Instruction.decode w = .ok i

theorem decodes_iff : m.Decodes ↔ m.next?.isSome := by
  constructor
  · rintro ⟨w, i, hw, hi⟩
    rw [next?_of_fetch hw, Instruction.decode_eq_ok_iff.1 hi]
    rfl
  · intro h
    obtain ⟨i, hi⟩ := Option.isSome_iff_exists.1 h
    obtain ⟨hpc, hi⟩ := (Option.ite_none_right_eq_some).1 hi
    exact ⟨_, i, fetch_eq_ok_iff.2 ⟨Nat.lt_of_succ_lt_succ hpc, rfl⟩,
      Instruction.decode_eq_ok_iff.2 hi⟩

instance (m : Machine) : Decidable m.Decodes := decidable_of_iff _ decodes_iff.symm

/-- The words of the only instruction that records anything while it runs. -/
theorem toNat_eq_iff (hi : Instruction.ofOpcode? w = some i) : w.toNat = 0x00EE ↔ i = .ret := by
  rw [← Instruction.ofOpcode?_eq_ret_iff, hi, Option.some.injEq]

/-- The records of a cycle that executes the instruction of a word. -/
def transcript (m : Machine) (w : Opcode) (i : Instruction) : List Record :=
  .running m.pc w i ::
    if w.toNat = 0x00EE ∧ m.memory.calls ≠ [] then [.returned m.cycle.state.pc] else []

/-- **The records of a cycle** that decodes an instruction: that instruction, and where it returned to
if it did. -/
theorem log_cycle (hw : m.fetch = .ok w) (hi : Instruction.ofOpcode? w = some i) :
    m.cycle.log = m.transcript w i := by
  rw [cycle_eq_perform hw hi, log_perform, performLog, log_execute, transcript]
  refine congrArg (List.cons _) ?_
  simp only [toNat_eq_iff hi]
  by_cases hret : i = .ret
  · subst hret
    cases hcalls : m.memory.calls with
    | nil => simp [fetched, hcalls]
    | cons a outer => simp [fetched, hcalls, (returns_of_ret hw hi hcalls).pc]
  · rw [if_neg hret, if_neg fun h => hret h.1]

/-- **A cycle that decodes nothing is silent**, and leaves the call stack alone. -/
theorem cycle_of_not_decodes (h : ¬ m.Decodes) :
    m.cycle.log = [] ∧ m.cycle.state.memory = m.memory := by
  refine cycle_cases (P := fun o => o.log = [] ∧ o.state.memory = m.memory) m
    (fun _ _ => ⟨rfl, rfl⟩) (fun _ _ _ => ⟨rfl, rfl⟩) (fun w i hw hi => ?_)
  exact absurd ⟨w, i, hw, Instruction.decode_eq_ok_iff.2 hi⟩ h

/-! ## What can be counted in a cycle -/

theorem traces_cycle (m : Machine) :
    m.cycle.log.countP Record.isTrace = if m.Decodes then 1 else 0 := by
  by_cases h : m.Decodes
  · obtain ⟨w, i, hw, hi⟩ := h
    rw [if_pos ⟨w, i, hw, hi⟩, log_cycle hw (Instruction.decode_eq_ok_iff.1 hi), transcript]
    split <;> rfl
  · rw [if_neg h, (cycle_of_not_decodes h).1]
    rfl

/-- The words `2NNN` are those of calls. -/
theorem kind_eq_two_iff (hi : Instruction.ofOpcode? w = some i) :
    w.kind = 2 ↔ ∃ nnn, i = .call nnn := by
  constructor
  · intro h
    rw [Instruction.ofOpcode?, h] at hi
    exact ⟨_, (Option.some.inj hi).symm⟩
  · rintro ⟨nnn, rfl⟩
    obtain ⟨hfits, hcode⟩ := Instruction.code_of_ofOpcode? hi
    have hlt : nnn.toNat < 4096 := hfits
    have hword : 0x2000 + nnn.toNat = w.toNat := hcode
    rw [Opcode.kind]
    omega

theorem countP_isCall_transcript (m : Machine) (w : Opcode) (i : Instruction) :
    (m.transcript w i).countP Record.isCall = if w.kind = 2 then 1 else 0 := by
  have hreturn : (if w.toNat = 0x00EE ∧ m.memory.calls ≠ [] then
      [Record.returned m.cycle.state.pc] else []).countP Record.isCall = 0 := by
    split <;> rfl
  rw [transcript, List.countP_cons, hreturn, Nat.zero_add]
  simp only [Record.isCall, beq_iff_eq]

theorem countP_isReturn_transcript (m : Machine) (w : Opcode) (i : Instruction) :
    (m.transcript w i).countP Record.isReturn =
      if w.toNat = 0x00EE ∧ m.memory.calls ≠ [] then 1 else 0 := by
  rw [transcript, List.countP_cons_of_neg (by exact Bool.false_ne_true)]
  split <;> rfl

/-- **Calls and returns in the log of a cycle** are what the depth of the call stack changes by. -/
theorem calls_cycle (m : Machine) :
    m.cycle.log.countP Record.isCall + m.memory.depth =
      m.cycle.log.countP Record.isReturn + m.cycle.state.memory.depth := by
  by_cases h : m.Decodes
  · obtain ⟨w, i, hw, hi⟩ := h
    have hi := Instruction.decode_eq_ok_iff.1 hi
    have hdepth : m.cycle.state.memory.depth = ((m.fetched w).callsAfter i).length := by
      rw [cycle_eq_perform hw hi, Memory.depth, calls_perform]
    have hcall (hne : ∀ nnn, i ≠ .call nnn) : w.kind ≠ 2 := fun h =>
      ((kind_eq_two_iff hi).1 h).elim hne
    have hreturn (hne : i ≠ .ret) : ¬ (w.toNat = 0x00EE ∧ m.memory.calls ≠ []) := fun h =>
      hne ((toNat_eq_iff hi).1 h.1)
    rw [log_cycle hw hi, hdepth, countP_isCall_transcript, countP_isReturn_transcript, Memory.depth]
    cases i with
    | call nnn =>
      rw [if_pos ((kind_eq_two_iff hi).2 ⟨nnn, rfl⟩), if_neg (hreturn (by simp)), Nat.zero_add]
      exact Nat.add_comm 1 _
    | ret =>
      have hword : w.toNat = 0x00EE := (toNat_eq_iff hi).2 rfl
      have htail : (m.fetched w).callsAfter .ret = m.memory.calls.tail := rfl
      rw [if_neg (hcall (by simp)), htail]
      cases hcalls : m.memory.calls with
      | nil => rw [if_neg fun h => h.2 rfl]; rfl
      | cons a outer =>
        rw [if_pos ⟨hword, List.cons_ne_nil a outer⟩, List.length_cons, List.tail_cons]
        omega
    | _ =>
      rw [if_neg (hcall (by simp)), if_neg (hreturn (by simp))]
      rfl
  · rw [(cycle_of_not_decodes h).1, (cycle_of_not_decodes h).2]
    rfl

/-! ## Any number of cycles -/

/-- The machine after a number of cycles, whether they succeed, wait or fail. -/
def afterCycles (m : Machine) (n : Nat) : Machine := (m.run (List.replicate n .cycle)).state

/-- The log of a number of cycles. -/
def logAfter (m : Machine) (n : Nat) : List Record := (m.run (List.replicate n .cycle)).log

theorem logAfter_succ (m : Machine) (n : Nat) :
    m.logAfter (n + 1) = m.cycle.log ++ m.cycle.state.logAfter n :=
  rfl

/-- **The log of a run** puts the logs of its cycles together. -/
theorem logAfter_eq (m : Machine) (n : Nat) :
    m.logAfter n = (List.range n).flatMap fun k => (m.afterCycles k).cycle.log := by
  induction n generalizing m with
  | zero => rfl
  | succ n ih =>
    rw [logAfter_succ, ih, List.range_succ_eq_map, List.flatMap_cons, List.flatMap_map]
    rfl

/-- **The instructions in a log** are as many as the cycles that decoded one. -/
theorem traces_logAfter (m : Machine) (n : Nat) :
    (m.logAfter n).countP Record.isTrace =
      (List.range n).countP fun k => (m.afterCycles k).Decodes := by
  induction n generalizing m with
  | zero => rfl
  | succ n ih =>
    rw [logAfter_succ, List.countP_append, ih, traces_cycle, List.range_succ_eq_map, List.countP_cons,
      List.countP_map, Nat.add_comm]
    simp only [decide_eq_true_eq]
    rfl

/-- **Calls and returns in a log** are what the depth of the call stack changed by. -/
theorem calls_logAfter (m : Machine) (n : Nat) :
    (m.logAfter n).countP Record.isCall + m.memory.depth =
      (m.logAfter n).countP Record.isReturn + (m.afterCycles n).memory.depth := by
  induction n generalizing m with
  | zero => rfl
  | succ n ih =>
    have hfirst := m.calls_cycle
    have hrest := ih m.cycle.state
    have hafter : m.afterCycles (n + 1) = m.cycle.state.afterCycles n := rfl
    rw [logAfter_succ, List.countP_append, List.countP_append, hafter]
    omega

/-- **The lines of a log are all there is to it**: program counters, words, instructions and the
targets of returns can be read in them. -/
theorem lines_logAfter_inj {m m' : Machine} {n n' : Nat} :
    (m.logAfter n).map Record.line = (m'.logAfter n').map Record.line ↔
      m.logAfter n = m'.logAfter n' :=
  (List.map_injective_iff.2 Record.line_injective).eq_iff

/-- **The log is a faithful transcript of a run.**  A cycle that fetches and decodes an instruction
records it first, with the program counter from before, the word and its text.  If the word is `00EE` and
the program is in a call, there is a second record, with the program counter from behind the cycle.  There
is no other record, and a cycle that decodes nothing makes none.  The log of any number of cycles, whether
they succeed, wait or fail, is made of the logs of these cycles.  So it has as many records of
instructions as there were cycles that decoded one, and the calls among these exceed the returns by what
the call stack has grown. -/
theorem log_is_transcript (m : Machine) :
    (∀ w i, m.fetch = .ok w → Instruction.decode w = .ok i →
      m.cycle.log.map Record.line =
        (.trace, markedHexString 4 m.pc.toNat ++ ": " ++ markedHexString 4 w.toNat ++ " " ++ i.text) ::
          if w.toNat = 0x00EE ∧ m.memory.calls ≠ [] then
            [(.debug, "return to " ++ markedHexString 4 m.cycle.state.pc.toNat)]
          else []) ∧
    (¬ m.Decodes → m.cycle.log = []) ∧
    ∀ n, m.logAfter n = (List.range n).flatMap (fun k => (m.afterCycles k).cycle.log) ∧
      (m.logAfter n).countP Record.isTrace =
        (List.range n).countP (fun k => (m.afterCycles k).Decodes) ∧
      ((m.logAfter n).countP Record.isCall : Int) - (m.logAfter n).countP Record.isReturn =
        (m.afterCycles n).memory.depth - m.memory.depth := by
  refine ⟨fun w i hw hi => ?cycle, fun h => (cycle_of_not_decodes h).1,
    fun n => ⟨m.logAfter_eq n, m.traces_logAfter n, ?depth⟩⟩
  case cycle =>
    rw [log_cycle hw (Instruction.decode_eq_ok_iff.1 hi), transcript, List.map_cons]
    refine congrArg (List.cons _) ?_
    split <;> rfl
  case depth =>
    have hcalls := m.calls_logAfter n
    omega

/-- A subroutine that calls another one, from the first call to the last return. -/
example :
    nesting.logAfter 4 =
      [.running 0x200 ⟨0x2206⟩ (.call 0x206), .running 0x206 ⟨0x220A⟩ (.call 0x20A),
        .running 0x20A ⟨0x00EE⟩ .ret, .returned 0x208, .running 0x208 ⟨0x00EE⟩ .ret,
        .returned 0x202] := by
  decide +kernel

end Machine
end Chip8
