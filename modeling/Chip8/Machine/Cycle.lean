import Chip8.Instruction.Decode
import Chip8.Machine.Execute

/-!
# Cycles

A cycle fetches the word at the program counter, decodes it and executes the instruction.  A cycle
that fails leaves the program counter at the instruction that failed.

## What is here

* `Machine.fetch` — the word at the program counter.
* `Machine.cycle` — one cycle.
* `Machine.cycles` — several cycles, up to the first that fails.
-/

namespace Chip8
namespace Machine

/-- The word at the program counter. -/
def fetch (m : Machine) : Except Fault Opcode :=
  match m.memory.read m.pc.toNat with
  | .error f => .error f
  | .ok high =>
    match m.memory.read (m.pc + 1).toNat with
    | .error f => .error f
    | .ok low => .ok (.ofBytes high low)

/-- Moves the program counter after an instruction; one that failed stays where it is.  The decoded
instruction is recorded before anything it recorded itself. -/
def conclude (m : Machine) (instruction : Instruction) (done : Outcome Machine Verdict) :
    Outcome Machine (Except Fault Signal) :=
  let log := .running m.pc m.opcode instruction :: done.log
  match done.result with
  | .error f => ⟨done.state, .error f, log⟩
  | .ok (step, signal) => ⟨{ done.state with pc := step.target m.following }, .ok signal, log⟩

/-- Executes an instruction and moves the program counter. -/
def perform (m : Machine) (instruction : Instruction) : Outcome Machine (Except Fault Signal) :=
  m.conclude instruction (m.execute instruction)

/-- **One cycle**: fetch, decode, execute. -/
def cycle (m : Machine) : Outcome Machine (Except Fault Signal) :=
  match m.fetch with
  | .error f => ⟨m, .error f, []⟩
  | .ok w =>
    let fetched := { m with opcode := w }
    match Instruction.decode w with
    | .error f => ⟨fetched, .error f, []⟩
    | .ok instruction => fetched.perform instruction

/-- Runs `n` cycles, up to the first that fails: the state after each with its result. -/
def cycles (m : Machine) : Nat → Outcome Machine (List (Machine × Except Fault Signal))
  | 0 => ⟨m, [], []⟩
  | n + 1 =>
    let first := m.cycle
    match first.result with
    | .error f => ⟨first.state, [(first.state, .error f)], first.log⟩
    | .ok signal =>
      let rest := first.state.cycles n
      ⟨rest.state, (first.state, .ok signal) :: rest.result, first.log ++ rest.log⟩

end Machine
end Chip8
