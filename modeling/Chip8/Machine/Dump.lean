import Chip8.Machine.Basic

/-!
# Dumps

The state of a machine as a text to read.  Memory is shown as words, eight to a line; lines that
hold nothing but zeros are left out, and a mark stands for each stretch of them.

## What is here

* `Dump.Line`, `Dump.lines` — the lines of a memory.
* `Dump.memoryChars` — their text.
* `Machine.dump` — the text of a whole machine.
-/

namespace Chip8

open Numeral

namespace Dump

/-! ## Memory -/

/-- The number of bytes on a line. -/
def lineSize : Nat := 16

/-- A line of a memory dump. -/
inductive Line
  /-- One line or more of zeros. -/
  | zeros
  /-- The first and the last address of a line, and its words. -/
  | words (first last : Nat) (words : List Opcode)
deriving DecidableEq

/-- The words of a line; a byte that is left over is the high byte of the last word. -/
def wordsOf : List UInt8 → List Opcode
  | [] => []
  | [high] => [.ofBytes high 0]
  | high :: low :: rest => .ofBytes high low :: wordsOf rest

/-- The lines for pieces of memory from an address on; `inZeros` tells that the line before was a
line of zeros, which covers further ones. -/
def linesFrom (address : Nat) (inZeros : Bool) : List (List UInt8) → List Line
  | [] => []
  | piece :: rest =>
    if piece.all (· == 0) then
      if inZeros then linesFrom (address + piece.length) true rest
      else .zeros :: linesFrom (address + piece.length) true rest
    else
      .words address (address + piece.length - 1) (wordsOf piece)
        :: linesFrom (address + piece.length) false rest

/-- The lines of a memory. -/
def lines (bytes : List UInt8) : List Line := linesFrom 0 false (chunks lineSize bytes)

/-- The text of a line. -/
def Line.chars : Line → List Char
  | zeros => ['\t', '.', '.', '.', '\n']
  | words first last ws =>
    '\t' :: markedHex 4 first ++ ' ' :: '-' :: ' ' :: markedHex 4 last ++ ' ' :: ':'
      :: ws.flatMap (fun w => ' ' :: markedHex 4 w.toNat) ++ ['\n']

/-- The text of a memory. -/
def memoryChars (bytes : List UInt8) : List Char := (lines bytes).flatMap Line.chars

/-! ## Registers and calls -/

/-- The number of registers on a line. -/
def registersPerLine : Nat := 8

/-- The text of a register. -/
def registerChars (k : Nat) (b : UInt8) : List Char :=
  'V' :: hex k ++ ':' :: ' ' :: markedHex 2 b.toNat ++ [' ']

/-- The text of the registers, a line for each eight of them. -/
def registersChars (r : Registers) : List Char :=
  (chunks registersPerLine (List.range Registers.count)).flatMap fun line =>
    '\t' :: line.flatMap (fun k => registerChars k (r.get k)) ++ ['\n']

/-- The text of the return addresses, the outermost call first. -/
def callsChars (addresses : List UInt16) : List Char :=
  addresses.flatMap fun address => ' ' :: markedHex 4 address.toNat

end Dump

/-- **The dump** of a machine: counters, timers, registers, calls, memory. -/
def Machine.dumpChars (m : Machine) : List Char :=
  "PC: ".toList ++ markedHex 4 m.pc.toNat ++ " I: ".toList ++ markedHex 4 m.i.toNat
    ++ " OP: ".toList ++ markedHex 4 m.opcode.toNat
    ++ "\nDT: ".toList ++ markedHex 2 m.delay.value.toNat
    ++ " ST: ".toList ++ markedHex 2 m.sound.value.toNat
    ++ "\nRegisters:\n".toList ++ Dump.registersChars m.v
    ++ "Stack:".toList ++ Dump.callsChars m.memory.returnAddresses
    ++ "\nMemory:\n".toList ++ Dump.memoryChars m.memory.toList

/-- The dump as a string. -/
def Machine.dump (m : Machine) : String := String.ofList m.dumpChars

end Chip8
