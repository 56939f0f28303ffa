import Chip8.Proofs.Cycle.Devices

/-!
# What a successful cycle changes

Each part of the machine is the business of a few instructions only.  Here stand those instructions
for each part, and that all others leave it alone: the bytes of memory, the calls, the registers,
the index register, the screen, the devices.

The program counter is different, as every instruction moves it.  `Machine.place` says where to,
counted in natural numbers, and a cycle that succeeds goes there.

## What is here

* `Instruction.stored`, `Instruction.Sets`, `Instruction.MovesIndex`, `Instruction.Redraws` — what an
  instruction may change.
* `Machine.Framed`, `Machine.framed_execute` — all else stays.
* `Machine.place`, `Machine.place_execute` — where the program goes on.
* `Machine.frame_of_ok` — both, for a cycle that succeeds.
-/

set_option autoImplicit false

namespace Chip8

/-! ## What an instruction may change -/

namespace Instruction

/-- The number of bytes from the index register on that an instruction may write. -/
def stored : Instruction → Nat
  | storeDecimal _ => 3
  | storeRegisters x => x + 1
  | _ => 0

/-- Whether an instruction may write register `k`. -/
def Sets (k : Nat) : Instruction → Prop
  | load x _ | add x _ | random x _ | readDelay x | awaitKey x => k = x
  | arithmetic op x _ => k = x ∨ op ≠ .assign ∧ k = Registers.flag
  | draw _ _ _ => k = Registers.flag
  | fillRegisters x => k ≤ x
  | _ => False

/-- Whether an instruction may move the index register. -/
def MovesIndex : Instruction → Prop
  | loadIndex _ | addIndex _ | selectGlyph _ | storeRegisters _ | fillRegisters _ => True
  | _ => False

/-- Whether an instruction may change the screen. -/
def Redraws : Instruction → Prop
  | clear | draw _ _ _ => True
  | _ => False

end Instruction

/-- An operation writes its result and, but for `8XY0`, the flag. -/
theorem Registers.get_arithmetic (r : Registers) (source : ShiftSource) (op : ArithmeticOp)
    (x y : Nat) {k : Nat} (hx : k ≠ x) (hflag : op ≠ .assign → k ≠ flag) :
    (r.arithmetic source op x y).get k = r.get k := by
  have hset : ∀ b, (r.set x b).get k = r.get k := fun b => by
    rw [get_set, if_neg fun h => hx h.1]
  cases op with
  | assign => exact hset _
  | _ =>
    change ((r.set x _).set flag _).get k = _
    rw [get_set, if_neg fun h => hflag (by simp) h.1]
    exact hset _

namespace Machine

variable {m m' : Machine} {i : Instruction}

/-- **All that an instruction must not change**: what is left of a machine `m'` of the machine `m`
that it was before. -/
structure Framed (m : Machine) (i : Instruction) (m' : Machine) : Prop where
  bytes : ∀ a, ¬ (m.i.toNat ≤ a ∧ a < m.i.toNat + i.stored) →
    m'.memory.bytes[a]? = m.memory.bytes[a]?
  calls : m'.memory.calls = m.callsAfter i
  registers : ∀ k, ¬ i.Sets k → m'.v.get k = m.v.get k
  index : ¬ i.MovesIndex → m'.i = m.i
  screen : ¬ i.Redraws → m'.screen = m.screen
  devices : m'.devices = m.devicesAfter (some i)

/-! ## The parts of the core -/

theorem leave_bytes (m : Machine) : m.leave.state.memory.bytes = m.memory.bytes := by
  rw [leave, Memory.pop]
  cases m.memory.calls <;> rfl

theorem storeBytes_bytes (m : Machine) (bytes : List UInt8) {a : Nat}
    (ha : ¬ (m.i.toNat ≤ a ∧ a < m.i.toNat + bytes.length)) :
    (m.storeBytes bytes).1.memory.bytes[a]? = m.memory.bytes[a]? :=
  (m.memory.getElem?_writeBlock m.i.toNat bytes a).trans (if_neg fun h => ha ⟨h.1, h.2.1⟩)

/-- Only digits and registers are stored, and only at the index register. -/
theorem bytes_execute (hi : i.Fits) {a : Nat}
    (ha : ¬ (m.i.toNat ≤ a ∧ a < m.i.toNat + i.stored)) :
    (m.execute i).state.memory.bytes[a]? = m.memory.bytes[a]? := by
  cases i with
  | ret => exact congrArg (fun b : Vector UInt8 4096 => b[a]?) m.leave_bytes
  | awaitKey x => exact m.takeKey_state (·.memory.bytes[a]?) x fun _ => rfl
  | storeDecimal x =>
    exact (afterTransfer_state (·.memory.bytes[a]?) _ _ fun _ => rfl).trans
      (m.storeBytes_bytes _ ha)
  | storeRegisters x =>
    have hlength : (m.v.take (x + 1)).length = x + 1 := Registers.length_take _ hi
    exact (afterTransfer_state (·.memory.bytes[a]?) _ (advanceIndex · x) fun _ => rfl).trans
      (m.storeBytes_bytes _ (by rw [hlength]; exact ha))
  | fillRegisters x => exact afterTransfer_state (·.memory.bytes[a]?) _ _ fun _ => rfl
  | _ => rfl

/-- A register is written by the instructions that set it. -/
theorem registers_execute (hi : i.Fits) {k : Nat} (hk : ¬ i.Sets k) :
    (m.execute i).state.v.get k = m.v.get k := by
  cases i with
  | ret => exact m.leave_state (·.v.get k) fun _ => rfl
  | load x | add x | random x | readDelay x =>
    exact (m.v.get_set x k _).trans (if_neg fun h => hk h.1)
  | arithmetic op x y =>
    exact m.v.get_arithmetic _ op x y (fun h => hk (.inl h)) fun hop h => hk (.inr ⟨hop, h⟩)
  | draw x y n => exact (m.v.get_set Registers.flag k _).trans (if_neg fun h => hk h.1)
  | awaitKey x =>
    change (m.takeKey x).state.v.get k = _
    rw [takeKey]
    split
    · exact (m.v.get_set x k _).trans (if_neg fun h => hk h.1)
    · rfl
  | storeDecimal x => exact afterTransfer_state (·.v.get k) _ _ fun _ => rfl
  | storeRegisters x => exact afterTransfer_state (·.v.get k) _ _ fun _ => rfl
  | fillRegisters x =>
    have hx : x + 1 ≤ 16 := hi
    have hfill := m.v.get_fill_readBlock m.memory m.i.toNat (x + 1) k hx
    rw [if_neg fun h => hk (Nat.le_of_lt_succ h.1)] at hfill
    exact (afterTransfer_state (·.v.get k) _ (advanceIndex · x) fun _ => rfl).trans hfill
  | _ => rfl

theorem index_execute (h : ¬ i.MovesIndex) : (m.execute i).state.i = m.i := by
  cases i with
  | ret => exact m.leave_state (·.i) fun _ => rfl
  | awaitKey x => exact m.takeKey_state (·.i) x fun _ => rfl
  | storeDecimal x => exact afterTransfer_state (·.i) _ _ fun _ => rfl
  | loadIndex | addIndex | selectGlyph | storeRegisters | fillRegisters => exact absurd trivial h
  | _ => rfl

theorem screen_execute (h : ¬ i.Redraws) : (m.execute i).state.screen = m.screen := by
  cases i with
  | ret => exact m.leave_state (·.screen) fun _ => rfl
  | awaitKey x => exact m.takeKey_state (·.screen) x fun _ => rfl
  | storeDecimal x => exact afterTransfer_state (·.screen) _ _ fun _ => rfl
  | storeRegisters x => exact afterTransfer_state (·.screen) _ _ fun _ => rfl
  | fillRegisters x => exact afterTransfer_state (·.screen) _ _ fun _ => rfl
  | clear | draw => exact absurd trivial h
  | _ => rfl

theorem opcode_execute (m : Machine) (i : Instruction) :
    (m.execute i).state.opcode = m.opcode := by
  cases i with
  | ret => exact m.leave_state (·.opcode) fun _ => rfl
  | awaitKey x => exact m.takeKey_state (·.opcode) x fun _ => rfl
  | storeDecimal x => exact afterTransfer_state (·.opcode) _ _ fun _ => rfl
  | storeRegisters x => exact afterTransfer_state (·.opcode) _ _ fun _ => rfl
  | fillRegisters x => exact afterTransfer_state (·.opcode) _ _ fun _ => rfl
  | _ => rfl

/-- **An instruction keeps to its business**, whether it succeeds or fails. -/
theorem framed_execute (m : Machine) (hi : i.Fits) : m.Framed i (m.execute i).state where
  bytes _ ha := bytes_execute hi ha
  calls := m.calls_execute i
  registers _ hk := registers_execute hi hk
  index := index_execute
  screen := screen_execute
  devices := m.devices_execute i

/-! ## Where the program goes on -/

/-- Where the program goes on after an instruction that succeeds, counted in natural numbers: two
bytes on, four bytes on where a skip is taken, at the same place while it waits for a key, or
wherever the instruction jumps. -/
def place (m : Machine) : Instruction → Nat
  | .ret => (m.memory.calls.headD 0).toNat
  | .jump nnn | .call nnn => nnn.toNat
  | .jumpOffset nnn => nnn.toNat + (m.v.get 0).toNat
  | .skipEqual x nn => m.pc.toNat + if m.v.get x = nn then 4 else 2
  | .skipNotEqual x nn => m.pc.toNat + if m.v.get x ≠ nn then 4 else 2
  | .skipEqualRegister x y => m.pc.toNat + if m.v.get x = m.v.get y then 4 else 2
  | .skipNotEqualRegister x y => m.pc.toNat + if m.v.get x ≠ m.v.get y then 4 else 2
  | .skipPressed x => m.pc.toNat + if m.keypad.isPressed (m.v.get x) then 4 else 2
  | .skipNotPressed x => m.pc.toNat + if m.keypad.isPressed (m.v.get x) then 2 else 4
  | .awaitKey _ => m.pc.toNat + if m.keypad.anyPressed then 2 else 0
  | _ => m.pc.toNat + 2

theorem place_skipIf (pc : Nat) (c : Bool) :
    (Step.skipIf c).place pc = pc + if c then 4 else 2 := by
  cases c <;> rfl

/-- A return that succeeds takes an address from the call stack and goes there. -/
theorem leave_of_ok {step : Step} {s : Signal} (h : m.leave.result = .ok (step, s)) :
    ∃ a, step = .jump a ∧ m.memory.calls = a :: m.leave.state.memory.calls := by
  rw [leave, Memory.pop] at h ⊢
  cases hc : m.memory.calls with
  | nil =>
    rw [hc] at h
    cases h
  | cons a outer =>
    rw [hc] at h
    cases h
    exact ⟨a, rfl, rfl⟩

/-- **Where an instruction that succeeds leads.** -/
theorem place_execute (hi : i.Fits) {step : Step} {s : Signal}
    (h : (m.execute i).result = .ok (step, s)) : step.place m.pc.toNat = m.place i := by
  cases i with
  | ret =>
    obtain ⟨a, rfl, hcalls⟩ := leave_of_ok h
    rw [place, hcalls]
    rfl
  | jumpOffset nnn =>
    have hn : nnn.toNat < 4096 := hi
    have hb := (m.v.get 0).toNat_lt
    cases h
    rw [Step.place, place, UInt16.toNat_add, UInt8.toNat_toUInt16]
    omega
  | skipEqual | skipNotEqual | skipEqualRegister | skipNotEqualRegister =>
    cases h
    simp [place_skipIf, place]
  | skipPressed x =>
    cases h
    simp [place_skipIf, place]
  | skipNotPressed x =>
    cases h
    rw [place_skipIf, place]
    cases m.keypad.isPressed (m.v.get x) <;> rfl
  | draw x y n =>
    cases eq_of_map_const_eq_ok h
    rfl
  | awaitKey x =>
    change (m.takeKey x).result = _ at h
    rw [takeKey] at h
    rw [place]
    cases hlowest : m.keypad.lowest? with
    | none =>
      rw [hlowest] at h
      cases h
      rw [Keypad.lowest?_eq_none_iff.1 hlowest]
      rfl
    | some code =>
      rw [hlowest] at h
      cases h
      cases hany : m.keypad.anyPressed with
      | false => cases hlowest.symm.trans (Keypad.lowest?_eq_none_iff.2 hany)
      | true => rfl
  | storeDecimal x | storeRegisters x | fillRegisters x =>
    have e := congrArg Outcome.result (afterTransfer_of_ok h)
    rw [show (afterTransfer _ _).result = _ from h] at e
    cases e
    rfl
  | _ =>
    cases h
    rfl

/-! ## Cycles that succeed -/

/-- **The course of a cycle that succeeds**: both bytes of a word are in memory, the word stands for
an instruction, and that is executed. -/
theorem ok_cases {s : Signal} (h : m.cycle.result = .ok s) :
    let w := m.memory.word m.pc.toNat
    m.pc.toNat + 1 < 4096 ∧ ∃ i step, Instruction.ofOpcode? w = some i ∧
      ((m.fetched w).execute i).result = .ok (step, s) ∧
      m.cycle.state = { ((m.fetched w).execute i).state with pc := step.target m.following } := by
  intro w
  revert h
  refine cycle_cases (P := fun o => o.result = .ok s → m.pc.toNat + 1 < 4096 ∧
    ∃ i step, Instruction.ofOpcode? w = some i ∧
      ((m.fetched w).execute i).result = .ok (step, s) ∧
      o.state = { ((m.fetched w).execute i).state with pc := step.target m.following }) m
    (fun _ _ h => ?unfetched) (fun _ _ _ h => ?undecoded) (fun w' i hw hi h => ?performed)
  case unfetched => cases h
  case undecoded => cases h
  case performed =>
    obtain ⟨hpc, rfl⟩ := fetch_eq_ok_iff.1 hw
    rcases hresult : ((m.fetched w).execute i).result with f | ⟨step, s'⟩
    · rw [perform_of_error hresult] at h
      cases h
    · rw [perform_of_ok hresult] at h ⊢
      cases h
      exact ⟨by omega, i, step, hi, hresult, rfl⟩

/-- Only `CXNN` uses random bytes. -/
theorem random_devicesAfter_of_ne (m : Machine) (hi : ∀ x nn, i ≠ .random x nn) :
    (m.devicesAfter (some i)).random = m.random := by
  cases i with
  | random x nn => exact absurd rfl (hi x nn)
  | _ => rfl

/-- **The frame of a successful cycle.**  The word at the program counter is that of an instruction,
and it becomes the word fetched last.  The program goes on where this instruction leads; a return
leads where the call stack says, and takes that address away.  `CXNN` uses one random byte, the next
one, and no other instruction uses any.  Of the rest of the machine nothing changes but what is the
business of the instruction. -/
theorem frame_of_ok {s : Signal} (h : m.cycle.result = .ok s) :
    let w := m.memory.word m.pc.toNat
    let m' := m.cycle.state
    m.pc.toNat + 1 < 4096 ∧ m'.opcode = w ∧
      ∃ i, Instruction.ofOpcode? w = some i ∧ i.Fits ∧ i.code = w.toNat ∧ m.Framed i m' ∧
        m'.pc.toNat = m.place i ∧
        (∀ nnn, i = .call nnn → m'.memory.calls = (m.pc + 2) :: m.memory.calls) ∧
        (i = .ret → m.memory.calls = m'.pc :: m'.memory.calls) ∧
        (∀ x nn, i = .random x nn → m'.random = ⟨m.random.stream, m.random.used + 1⟩ ∧
          m'.v.get x = m.random.stream m.random.used &&& nn) ∧
        ((∀ x nn, i ≠ .random x nn) → m'.random = m.random) := by
  intro w m'
  obtain ⟨hpc, i, step, hi, hresult, hstate⟩ := ok_cases h
  obtain ⟨hfits, hcode⟩ := Instruction.code_of_ofOpcode? hi
  have hframed := framed_execute (m.fetched w) hfits
  have hstep := place_execute hfits hresult
  have hplace : (step.target m.following).toNat = m.place i :=
    (toNat_target (by omega) step).trans hstep
  have hcalls : m'.memory.calls = m.callsAfter i := by
    rw [show m' = _ from hstate]
    exact hframed.calls
  refine ⟨hpc, ?opcode, i, hi, hfits, hcode, ?frame, ?place, ?call, ?ret, ?random, fun hne => ?other⟩
  case opcode =>
    rw [show m' = _ from hstate]
    exact opcode_execute _ i
  case frame =>
    rw [show m' = _ from hstate]
    exact { hframed with }
  case place =>
    rw [show m' = _ from hstate]
    exact hplace
  case call =>
    intro nnn hcall
    rw [hcalls, hcall]
    rfl
  case ret =>
    intro hret
    subst hret
    obtain ⟨a, rfl, hpop⟩ := leave_of_ok hresult
    rw [show m' = _ from hstate]
    exact hpop
  case random =>
    intro x nn hrandom
    subst hrandom
    rw [show m' = _ from hstate]
    exact ⟨rfl, (Registers.get_set _ _ _ _).trans (if_pos ⟨rfl, hfits⟩)⟩
  case other =>
    rw [show m' = _ from hstate]
    have hrandom := congrArg Devices.random hframed.devices
    exact hrandom.trans ((m.fetched w).random_devicesAfter_of_ne hne)

/-- A machine that is about to store three registers at `0x300`. -/
@[irreducible]
def storing : Machine :=
  (((new default default none).load [0x62, 0x07, 0xA3, 0x00, 0xF2, 0x55]).state.cycles 2).state

theorem frame_of_storing :
    (∃ s, storing.cycle.result = .ok s) ∧
      storing.Framed (.storeRegisters 2) storing.cycle.state ∧
      storing.cycle.state.pc.toNat = 0x206 := by
  obtain ⟨s, hok⟩ : ∃ s, storing.cycle.result = .ok s :=
    faultOf?_eq_none_iff.1 (by decide +kernel)
  have hnext : Instruction.ofOpcode? (storing.memory.word storing.pc.toNat) =
      some (.storeRegisters 2) := by decide +kernel
  have hplace : storing.place (.storeRegisters 2) = 0x206 := by decide +kernel
  obtain ⟨-, -, i, hi, -, -, hframed, hpc, -⟩ := frame_of_ok hok
  obtain rfl : Instruction.storeRegisters 2 = i := Option.some.inj (hnext.symm.trans hi)
  exact ⟨⟨s, hok⟩, hframed, hpc.trans hplace⟩

end Machine
end Chip8
