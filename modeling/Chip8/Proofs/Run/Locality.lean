import Chip8.Proofs.Cycle.Frame
import Chip8.Proofs.Run.View

/-!
# Which bytes of memory count

A cycle looks at few bytes: the two at the program counter, the rows of a sprite, and the bytes that
fill registers.  It writes few bytes as well, and what it writes comes from registers.  So two
machines that agree on all but bytes which the cycle does not read cannot be told apart by it.
Afterwards they still agree wherever they did, and at the bytes that were written they agree in any
case.

Over a run, a byte counts if it is read before anything is written over it (`Machine.Exposes`).  This
is a condition on the run of one machine, and a program that rewrites itself is no exception: an
instruction that is overwritten in time does not count.

## What is here

* `Machine.withBytes`, `Machine.SameButBytes` — machines that differ in bytes of memory.
* `Machine.Reads`, `Machine.Writes` — the bytes that a cycle reads, and those it writes.
* `Machine.overlaid_cycle` — memory after a cycle.
* `SameButBytes.cycle`, `SameButBytes.handle`, `SameButBytes.run` — a cycle, an event and a run.
* `Machine.memory_locality` — one cycle, and the runs of programs that rewrite themselves.
-/

set_option autoImplicit false

namespace Chip8

/-! ## What instructions read and write -/

/-- The number of bytes from the index register on that an instruction may read. -/
def Instruction.loaded : Instruction → Nat
  | draw _ _ n => n.toNat
  | fillRegisters x => x + 1
  | _ => 0

namespace Machine

/-- The bytes that an instruction writes from the index register on. -/
def block (m : Machine) : Instruction → List UInt8
  | .storeDecimal x => decimalDigits (m.v.get x)
  | .storeRegisters x => m.v.take (x + 1)
  | _ => []

/-- The next cycle reads a byte of memory. -/
def Reads (m : Machine) (a : Nat) : Prop :=
  a < 4096 ∧ (a = m.pc.toNat ∨ a = m.pc.toNat + 1 ∨
    m.i.toNat ≤ a ∧ a < m.i.toNat + m.next?.elim 0 Instruction.loaded)

/-- The next cycle writes a byte of memory. -/
def Writes (m : Machine) (a : Nat) : Prop :=
  a < 4096 ∧ m.i.toNat ≤ a ∧ a < m.i.toNat + m.next?.elim 0 Instruction.stored

instance (m : Machine) (a : Nat) : Decidable (m.Reads a) := inferInstanceAs (Decidable (_ ∧ _))

instance (m : Machine) (a : Nat) : Decidable (m.Writes a) := inferInstanceAs (Decidable (_ ∧ _))

/-- The same machine with other bytes in memory. -/
def withBytes (m : Machine) (bytes : Vector UInt8 4096) : Machine :=
  { m with memory := { m.memory with bytes } }

/-- Two machines agree on all but the bytes of memory. -/
def SameButBytes (m n : Machine) : Prop := n = m.withBytes n.memory.bytes

/-- Two machines agree on a byte of memory. -/
def AgreeAt (m n : Machine) (a : Nat) : Prop := n.memory.bytes[a]? = m.memory.bytes[a]?

instance (m n : Machine) (a : Nat) : Decidable (m.AgreeAt n a) :=
  inferInstanceAs (Decidable (_ = _))

variable {m n : Machine} {i : Instruction} {b : Vector UInt8 4096}

/-! ## Memory after a cycle -/

theorem fits_of_next? (h : m.next? = some i) : i.Fits := by
  rw [next?] at h
  split at h
  next => exact (Instruction.code_of_ofOpcode? h).1
  next => cases h

theorem length_block (m : Machine) :
    (m.next?.elim [] m.block).length = m.next?.elim 0 Instruction.stored := by
  cases hnext : m.next? with
  | none => rfl
  | some i =>
    cases i with
    | storeRegisters x => exact Registers.length_take _ (fits_of_next? hnext)
    | _ => rfl

/-- Memory after an instruction is memory before it, with the bytes that the instruction writes. -/
theorem overlaid_execute (hi : i.Fits) :
    m.memory.Overlaid m.i.toNat (m.block i) (m.execute i).state.memory := by
  intro a
  cases i with
  | storeDecimal x =>
    exact (afterTransfer_state (·.memory.bytes[a]?) _ _ fun _ => rfl).trans
      (Memory.getElem?_writeBlock _ _ _ _)
  | storeRegisters x =>
    exact (afterTransfer_state (·.memory.bytes[a]?) _ (advanceIndex · x) fun _ => rfl).trans
      (Memory.getElem?_writeBlock _ _ _ _)
  | _ =>
    exact (bytes_execute hi fun h => Nat.not_lt.2 h.1 h.2).trans
      (if_neg fun h => Nat.not_lt.2 h.1 h.2.1).symm

/-- **Memory after a cycle**, whether it succeeds or fails. -/
theorem overlaid_cycle (m : Machine) :
    m.memory.Overlaid m.i.toNat (m.next?.elim [] m.block) m.cycle.state.memory := by
  refine cycle_cases (P := fun o =>
    m.memory.Overlaid m.i.toNat (m.next?.elim [] m.block) o.state.memory) m
    (fun f hf => ?unfetched) (fun w hw hi => ?undecoded) (fun w i hw hi => ?performed)
  case unfetched =>
    rw [next?, if_neg (not_lt_of_fetch hf)]
    exact fun a => (if_neg fun h => Nat.not_lt.2 h.1 h.2.1).symm
  case undecoded =>
    rw [next?_of_fetch hw, hi]
    exact fun a => (if_neg fun h => Nat.not_lt.2 h.1 h.2.1).symm
  case performed =>
    have hperform : ((m.fetched w).perform i).state.memory =
        ((m.fetched w).execute i).state.memory := perform_state memory _ i fun _ _ => rfl
    have hblock : (m.fetched w).block i = m.block i := by cases i <;> rfl
    rw [next?_of_fetch hw, hi, hperform, Option.elim_some, ← hblock]
    exact overlaid_execute (Instruction.code_of_ofOpcode? hi).1

/-! ## Machines that differ in bytes of memory -/

/-- A block that is the same in both memories is read alike. -/
theorem readBlock_withBytes {start k : Nat}
    (h : ∀ a, start ≤ a → a < start + k → b[a]? = m.memory.bytes[a]?) :
    (m.withBytes b).memory.readBlock start k = m.memory.readBlock start k := by
  refine Prod.ext ?_ ?_
  · rw [Memory.readBlock_fst, Memory.readBlock_fst]
    refine List.ext_getElem? fun j => ?_
    simp only [List.getElem?_take, List.getElem?_drop, Memory.toList, Vector.getElem?_toList]
    split
    next hj => exact h _ (Nat.le_add_right _ _) (Nat.add_lt_add_left hj _)
    next => rfl
  · rw [Memory.readBlock_snd, Memory.readBlock_snd]

/-- Transfers that leave machines alike go on alike. -/
theorem matches_afterTransfer {transfer transfer' : Machine × Except Fault Unit}
    (after : Machine → Machine) (hstate : transfer.1.SameButBytes transfer'.1)
    (hresult : transfer.2 = transfer'.2)
    (h : ∀ k : Machine, ∀ b, after (k.withBytes b) = (after k).withBytes b) :
    (afterTransfer transfer after).Matches SameButBytes (afterTransfer transfer' after) := by
  rw [afterTransfer, afterTransfer, ← hresult]
  cases transfer.2 with
  | error f => exact ⟨hstate, rfl, rfl⟩
  | ok =>
    refine ⟨?_, rfl, rfl⟩
    change (after transfer.1).SameButBytes (after transfer'.1)
    rw [hstate, h]
    rfl

/-- Machines that differ in their memories only are the same but for the bytes, if the calls are. -/
theorem sameButBytes_of_calls {memory memory' : Memory} (h : memory.calls = memory'.calls) :
    SameButBytes { m with memory } { m with memory := memory' } := by
  cases memory
  cases memory'
  cases h
  rfl

/-- What is written does not depend on what is written over. -/
theorem matches_storeBytes (m : Machine) (b : Vector UInt8 4096) (bytes : List UInt8) :
    (m.storeBytes bytes).1.SameButBytes ((m.withBytes b).storeBytes bytes).1 ∧
      (m.storeBytes bytes).2 = ((m.withBytes b).storeBytes bytes).2 :=
  ⟨sameButBytes_of_calls ((m.storeBytes_calls bytes).trans
      ((m.withBytes b).storeBytes_calls bytes).symm),
    (m.memory.writeBlock_snd _ _).trans ((m.withBytes b).memory.writeBlock_snd _ _).symm⟩

/-- **An instruction does the same** if the bytes are the same that it reads. -/
theorem execute_withBytes
    (h : ∀ a, m.i.toNat ≤ a → a < m.i.toNat + i.loaded → b[a]? = m.memory.bytes[a]?) :
    (m.execute i).Matches SameButBytes ((m.withBytes b).execute i) := by
  cases i with
  | ret =>
    have hpop : (m.withBytes b).memory.pop =
        m.memory.pop.map fun p => (p.1, { p.2 with bytes := b }) := by
      rw [Memory.pop, Memory.pop, show (m.withBytes b).memory.calls = m.memory.calls from rfl]
      cases m.memory.calls <;> rfl
    change m.leave.Matches SameButBytes (m.withBytes b).leave
    rw [leave, leave, hpop]
    cases m.memory.pop <;> exact ⟨rfl, rfl, rfl⟩
  | draw x y n =>
    have hsprite : (m.withBytes b).memory.readBlock (m.withBytes b).i.toNat n.toNat = _ :=
      readBlock_withBytes h
    change (m.drawSprite x y n.toNat).Matches SameButBytes
      ((m.withBytes b).drawSprite x y n.toNat)
    simp only [drawSprite, hsprite]
    exact ⟨rfl, rfl, rfl⟩
  | awaitKey x =>
    change (m.takeKey x).Matches SameButBytes ((m.withBytes b).takeKey x)
    simp only [takeKey, withBytes]
    cases m.keypad.lowest? <;> exact ⟨rfl, rfl, rfl⟩
  | storeDecimal x =>
    obtain ⟨hstate, hresult⟩ := m.matches_storeBytes b (decimalDigits (m.v.get x))
    exact matches_afterTransfer id hstate hresult fun _ _ => rfl
  | storeRegisters x =>
    obtain ⟨hstate, hresult⟩ := m.matches_storeBytes b (m.v.take (x + 1))
    exact matches_afterTransfer (advanceIndex · x) hstate hresult fun _ _ => rfl
  | fillRegisters x =>
    have hblock : (m.withBytes b).memory.readBlock (m.withBytes b).i.toNat (x + 1) = _ :=
      readBlock_withBytes h
    refine matches_afterTransfer (advanceIndex · x) ?_ ?_ fun _ _ => rfl
    all_goals
      simp only [fillBytes, hblock]
      rfl
  | _ => exact ⟨rfl, rfl, rfl⟩

/-! ## Cycles -/

/-- A word is the same if its bytes are. -/
theorem word_withBytes (h : ∀ a, m.Reads a → b[a]? = m.memory.bytes[a]?)
    (hpc : m.pc.toNat + 1 < 4096) :
    (m.withBytes b).memory.word m.pc.toNat = m.memory.word m.pc.toNat := by
  have hhigh := h _ ⟨Nat.lt_of_succ_lt hpc, .inl rfl⟩
  have hlow := h _ ⟨hpc, .inr (.inl rfl)⟩
  rw [Memory.word, Memory.word]
  exact congr (congrArg Opcode.ofBytes (congrArg (·.getD 0) hhigh)) (congrArg (·.getD 0) hlow)

theorem fetch_withBytes (h : ∀ a, m.Reads a → b[a]? = m.memory.bytes[a]?) :
    (m.withBytes b).fetch = m.fetch := by
  rw [fetch_eq, fetch_eq, show (m.withBytes b).pc = m.pc from rfl]
  split
  · rfl
  · split
    · rfl
    · rw [word_withBytes h (by omega)]

theorem next?_withBytes (h : ∀ a, m.Reads a → b[a]? = m.memory.bytes[a]?) :
    (m.withBytes b).next? = m.next? := by
  rw [next?, next?, show (m.withBytes b).pc = m.pc from rfl]
  split
  next hpc => rw [word_withBytes h hpc]
  next => rfl

theorem matches_conclude {o o' : Outcome Machine Verdict} (h : o.Matches SameButBytes o') :
    (m.conclude i o).Matches SameButBytes ((m.withBytes b).conclude i o') := by
  obtain ⟨hstate, hresult, hlog⟩ := h
  rw [conclude, conclude, ← hresult, ← hlog]
  rcases o.result with f | ⟨step, s⟩
  · exact ⟨hstate, rfl, rfl⟩
  · obtain ⟨c, hc⟩ : ∃ c, o'.state = o.state.withBytes c := ⟨_, hstate⟩
    rw [hc]
    exact ⟨rfl, rfl, rfl⟩

/-- **A cycle of machines that differ in bytes which it does not read.** -/
theorem SameButBytes.cycle (h : m.SameButBytes n) (hreads : ∀ a, m.Reads a → m.AgreeAt n a) :
    m.cycle.Matches SameButBytes n.cycle := by
  rw [h]
  generalize hb : n.memory.bytes = b
  have hbytes : ∀ a, m.Reads a → b[a]? = m.memory.bytes[a]? := fun a ha => hb ▸ hreads a ha
  have hfetch := fetch_withBytes hbytes
  refine cycle_cases (P := fun o => o.Matches SameButBytes (m.withBytes b).cycle) m
    (fun f hf => ?unfetched) (fun w hw hi => ?undecoded) (fun w i hw hi => ?performed)
  case unfetched =>
    rw [Machine.cycle, hfetch, hf]
    exact ⟨rfl, rfl, rfl⟩
  case undecoded =>
    rw [Machine.cycle, hfetch, hw]
    simp only [Instruction.decode, hi]
    exact ⟨rfl, rfl, rfl⟩
  case performed =>
    rw [cycle_eq_perform (hfetch.trans hw) hi]
    refine matches_conclude (m := m.fetched w) (execute_withBytes fun a ha hlt => ?_)
    rcases Nat.lt_or_ge a 4096 with hmem | hmem
    · refine hbytes a ⟨hmem, .inr (.inr ⟨ha, ?_⟩)⟩
      rw [next?_of_fetch hw, hi]
      exact hlt
    · rw [Vector.getElem?_eq_none hmem, Vector.getElem?_eq_none hmem]

/-- Afterwards the machines agree where they did, and at the bytes that were written. -/
theorem SameButBytes.agreeAt_cycle (h : m.SameButBytes n)
    (hreads : ∀ a, m.Reads a → m.AgreeAt n a) {a : Nat} (ha : m.Writes a ∨ m.AgreeAt n a) :
    m.cycle.state.AgreeAt n.cycle.state a := by
  have hblock : n.next?.elim [] n.block = m.next?.elim [] m.block := by
    rw [h, next?_withBytes hreads]
    cases m.next? with
    | none => rfl
    | some i => cases i <;> rfl
  have hindex : n.i = m.i := by rw [h]; rfl
  rw [AgreeAt, m.overlaid_cycle a, n.overlaid_cycle a, hblock, hindex]
  split
  next => rfl
  next hblock =>
    refine ha.resolve_left fun hwrites => hblock ?_
    obtain ⟨hmem, hge, hlt⟩ := hwrites
    exact ⟨hge, by rwa [length_block], hmem⟩

/-! ## Events -/

/-- An event reads a byte of memory; only cycles do. -/
def ReadsIn (m : Machine) (a : Nat) : Event → Prop
  | .cycle => m.Reads a
  | _ => False

/-- An event writes a byte of memory: cycles do, programs that are loaded, if they fit, and the power
switch. -/
def WritesIn (m : Machine) (a : Nat) : Event → Prop
  | .cycle => m.Writes a
  | .load rom =>
    Memory.programStart + rom.length ≤ Memory.size ∧
      Memory.programStart ≤ a ∧ a < Memory.programStart + rom.length
  | .reset => True
  | _ => False

/-- A program is loaded on machines that differ in bytes of memory. -/
theorem SameButBytes.load (h : m.SameButBytes n) (rom : List UInt8) :
    (m.load rom).Matches SameButBytes (n.load rom) ∧
      ∀ a, m.WritesIn a (.load rom) ∨ m.AgreeAt n a →
        (m.load rom).state.AgreeAt (n.load rom).state a := by
  rw [h]
  simp only [Machine.load, Memory.load, Outcome.mapState]
  split
  next hfits =>
    refine ⟨⟨sameButBytes_of_calls ?_, rfl, rfl⟩, fun a ha => ?_⟩
    · rw [Memory.calls_writeBlock, Memory.calls_writeBlock]
      rfl
    · rw [AgreeAt, Memory.getElem?_writeBlock, Memory.getElem?_writeBlock]
      split
      next => rfl
      next hblock =>
        refine ha.resolve_left fun hwrites => hblock ⟨hwrites.2.1, hwrites.2.2, ?_⟩
        exact Nat.lt_of_lt_of_le hwrites.2.2 hfits
  next hfits => exact ⟨⟨rfl, rfl, rfl⟩, fun a ha => ha.resolve_left fun hwrites => hfits hwrites.1⟩

/-- **An event on machines that differ in bytes which it does not read.** -/
theorem SameButBytes.handle (h : m.SameButBytes n) {e : Event}
    (hreads : ∀ a, m.ReadsIn a e → m.AgreeAt n a) :
    (m.handle e).Matches SameButBytes (n.handle e) ∧
      ∀ a, m.WritesIn a e ∨ m.AgreeAt n a → (m.handle e).state.AgreeAt (n.handle e).state a := by
  cases e with
  | cycle =>
    obtain ⟨hstate, hresult, hlog⟩ := h.cycle hreads
    refine ⟨⟨hstate, congrArg (Except.map some) hresult, hlog⟩, fun _ ha => ?_⟩
    exact h.agreeAt_cycle hreads ha
  | load rom =>
    obtain ⟨⟨hstate, hresult, hlog⟩, hagree⟩ := h.load rom
    exact ⟨⟨hstate, congrArg (Except.map fun _ => none) hresult, hlog⟩, hagree⟩
  | reset =>
    rw [h]
    exact ⟨⟨rfl, rfl, rfl⟩, fun _ _ => rfl⟩
  | pollSpeaker age =>
    rw [h]
    simp only [Machine.handle, pollSpeaker, withBytes]
    cases m.speakers[age]? <;> exact ⟨⟨rfl, rfl, rfl⟩, fun _ ha => ha.resolve_left id⟩
  | setKey | setKeys | attach | tickDelay | tickSound =>
    rw [h]
    exact ⟨⟨rfl, rfl, rfl⟩, fun _ ha => ha.resolve_left id⟩

/-! ## Runs -/

/-- **A byte of memory counts for a run**: an event of the run reads it, and no event before has
written it. -/
def Exposes (m : Machine) (a : Nat) : List Event → Prop
  | [] => False
  | e :: es => m.ReadsIn a e ∨ ¬ m.WritesIn a e ∧ (m.handle e).state.Exposes a es

/-- What counts for the beginning of a run counts for the run. -/
theorem exposes_of_isPrefix {a : Nat} {ds es : List Event} (hds : ds <+: es)
    (h : m.Exposes a ds) : m.Exposes a es := by
  induction ds generalizing m es with
  | nil => cases h
  | cons e ds ih =>
    obtain ⟨fs, rfl⟩ := hds
    exact h.imp_right (And.imp_right (ih (List.prefix_append ds fs)))

/-- **A run on machines that differ in bytes which do not count for it.** -/
theorem SameButBytes.run (h : m.SameButBytes n) {es : List Event}
    (hexposed : ∀ a, m.Exposes a es → m.AgreeAt n a) :
    (m.run es).Matches SameButBytes (n.run es) := by
  induction es generalizing m n with
  | nil => exact ⟨h, rfl, rfl⟩
  | cons e es ih =>
    obtain ⟨⟨hstate, hresult, hlog⟩, hagree⟩ := h.handle fun a ha => hexposed a (.inl ha)
    -- what counts for the rest of the run has been written just now, or it counts for the whole run
    have hrest : ∀ a, (m.handle e).state.Exposes a es →
        (m.handle e).state.AgreeAt (n.handle e).state a := by
      intro a ha
      by_cases hwrites : m.WritesIn a e
      · exact hagree a (.inl hwrites)
      · exact hagree a (.inr (hexposed a (.inr ⟨hwrites, ha⟩)))
    obtain ⟨hend, hresults, hlogs⟩ := ih hstate hrest
    refine ⟨hend, ?_, ?_⟩
    · simp only [Machine.run, hresult, hresults]
    · simp only [Machine.run, hlog, hlogs]

/-- **Which bytes of memory count.**  Take two machines that differ in bytes of memory only.  If they
agree on the two bytes at the program counter, on the rows of the sprite if the next instruction
draws one, and on the bytes that the next instruction fills registers from, then a cycle has the same
result on both, whether it succeeds or fails.  Afterwards they again differ in bytes of memory only,
and not where they agreed before, nor where the cycle has written.  So for a run of any length, only
those bytes count that it reads before it writes them: with others in memory, every event has the
same answer, and the same machine is left but for bytes of memory, screen and all, however far the
run has come. -/
theorem memory_locality (m n : Machine) (h : m.SameButBytes n) :
    ((∀ a, m.Reads a → m.AgreeAt n a) →
      m.cycle.Matches SameButBytes n.cycle ∧
        ∀ a, m.Writes a ∨ m.AgreeAt n a → m.cycle.state.AgreeAt n.cycle.state a) ∧
    ∀ es, (∀ a, m.Exposes a es → m.AgreeAt n a) →
      ∀ ds, ds <+: es → (m.run ds).Matches SameButBytes (n.run ds) :=
  ⟨fun hreads => ⟨h.cycle hreads, fun _ ha => h.agreeAt_cycle hreads ha⟩,
    fun _ hexposed _ hds => h.run fun a ha => hexposed a (exposes_of_isPrefix hds ha)⟩

/-- A machine that is about to write the word `0x00E0` behind the instruction that writes it. -/
@[irreducible]
def patching : Machine :=
  (((new default default none).load
    [0x61, 0xE0, 0xA2, 0x06, 0xF1, 0x55, 0x12, 0x06]).state.cycles 2).state

theorem memory_locality_patching :
    let other := patching.withBytes (patching.memory.bytes.set 0x206 0xFF)
    patching.SameButBytes other ∧ ¬ patching.AgreeAt other 0x206 ∧
      patching.cycle.state.AgreeAt other.cycle.state 0x206 ∧
      (patching.run [.cycle, .cycle]).Matches SameButBytes (other.run [.cycle, .cycle]) ∧
      (patching.run [.cycle, .cycle]).state.opcode = ⟨0x00E0⟩ := by
  intro other
  have hreads : ¬ patching.Reads 0x206 := by decide +kernel
  have hwrites : patching.Writes 0x206 := by decide +kernel
  have hexposed : ¬ patching.Exposes 0x206 [.cycle, .cycle] := by
    rintro (hread | ⟨hunwritten, -⟩)
    · exact hreads hread
    · exact hunwritten hwrites
  have hother : ∀ a, a ≠ 0x206 → patching.AgreeAt other a := by
    intro a ha
    exact Vector.getElem?_set_ne (by decide) ha.symm
  obtain ⟨hcycle, hrun⟩ := memory_locality patching other rfl
  refine ⟨rfl, by decide +kernel, ?_, ?_, by decide +kernel⟩
  · refine (hcycle fun a ha => hother a ?_).2 _ (.inl hwrites)
    rintro rfl
    exact hreads ha
  · refine hrun _ (fun a ha => hother a ?_) _ (List.prefix_refl _)
    rintro rfl
    exact hexposed ha

end Machine
end Chip8
