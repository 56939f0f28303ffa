import Chip8.Machine.Event
import Chip8.Proofs.Cycle.Devices

/-!
# Programs that cannot tell dialects apart

A dialect settles which register a shift reads and how far the index register moves behind a
transfer, and nothing else.  So a machine in another dialect goes through the same run, as long as
no shift finds two registers that differ where the dialects read different ones, and no transfer
succeeds that the dialects move the index register differently for.  Transfers that fail do not
count, and neither does the flag of a shift alone, since it comes from `VX` in every dialect.

Both conditions are about the run in one of the dialects.  The run in the other is not looked at: it
is the same run.

## What is here

* `Machine.inDialect` — the same machine in another dialect.
* `Machine.Neutral` — another dialect makes no difference to the next instruction.
* `Neutral.cycle`, `Machine.handle_inDialect`, `Machine.run_inDialect` — one cycle, any other event,
  and a run.
* `Machine.dialect_invisible` — whole runs, and the case of shifts with a single register.
-/

set_option autoImplicit false

namespace Chip8
namespace Machine

/-- The same machine in another dialect. -/
def inDialect (m : Machine) (q : Dialect) : Machine := { m with dialect := q }

variable {m : Machine} {q : Dialect}

/-! ## Instructions -/

/-- **Another dialect makes no difference to the next instruction.** -/
structure Neutral (m : Machine) (q : Dialect) : Prop where
  /-- A shift reads the same, because the registers or the dialects agree. -/
  shift : ∀ op x y, m.next? = some (.arithmetic op x y) → op.IsShift →
    m.v.get x = m.v.get y ∨ m.dialect.shift = q.shift
  /-- The index register moves the same behind a transfer that succeeds. -/
  advance : ∀ i x, m.next? = some i → i.Transfers x → (∃ s, m.cycle.result = .ok s) →
    m.dialect.advance.amount x = q.advance.amount x

/-- A cycle that finds an instruction fails if that instruction does. -/
theorem faultOf?_cycle_of_next? {i : Instruction} (h : m.next? = some i) :
    faultOf? m.cycle.result = m.executeFault? i := by
  rw [next?] at h
  split at h
  next hpc =>
    have hfetch : m.fetch = .ok (m.memory.word m.pc.toNat) := fetch_eq_ok_iff.2 ⟨by omega, rfl⟩
    rw [cycle_eq_perform hfetch h, faultOf?_perform,
      faultOf?_execute _ (Instruction.code_of_ofOpcode? h).1]
    rfl
  next => cases h

/-- A transfer whose bytes are all in memory succeeds. -/
theorem cycle_ok_of_transfers {i : Instruction} {x : Nat} (hi : m.next? = some i)
    (ht : i.Transfers x) (hmemory : m.i.toNat + (x + 1) ≤ 4096) :
    ∃ s, m.cycle.result = .ok s := by
  have hblock : blockFault? m.i.toNat (x + 1) = none := if_neg fun h => Nat.not_lt.2 hmemory h.2
  rw [← faultOf?_eq_none_iff, faultOf?_cycle_of_next? hi]
  rcases ht with rfl | rfl <;> exact hblock

/-- The devices tell the next instruction the same in both dialects. -/
theorem Neutral.sensesAlike (h : m.Neutral q) {i : Instruction} (hi : m.next? = some i) :
    i.SensesAlike m (m.inDialect q) := by
  cases i with
  | arithmetic op x y => exact h.shift op x y hi
  | storeRegisters x =>
    exact fun hmemory => h.advance _ x hi (.inl rfl) (cycle_ok_of_transfers hi (.inl rfl) hmemory)
  | fillRegisters x =>
    exact fun hmemory => h.advance _ x hi (.inr rfl) (cycle_ok_of_transfers hi (.inr rfl) hmemory)
  | skipPressed | skipNotPressed | awaitKey | readDelay | random => rfl
  | _ => trivial

/-! ## Events -/

theorem devicesAfter_inDialect (m : Machine) (q : Dialect) (i : Option Instruction) :
    (m.inDialect q).devicesAfter i = { m.devicesAfter i with dialect := q } := by
  unfold devicesAfter
  split <;> rfl

/-- **A cycle in another dialect** that makes no difference to its instruction. -/
theorem Neutral.cycle (h : m.Neutral q) :
    (m.inDialect q).cycle = m.cycle.mapState (·.inDialect q) := by
  have hcore : m.core = (m.inDialect q).core := rfl
  -- The cores stay the same, as the instruction is told the same; the devices then differ in the
  -- dialect and nothing else, as before.
  obtain ⟨hstate, hresult, hlog⟩ :=
    Outcome.mk.inj (core_cycle hcore fun i hi => h.sensesAlike hi)
  have hdevices : (m.inDialect q).cycle.state.devices =
      (m.cycle.state.inDialect q).devices := by
    rw [devices_cycle, ← next?_congr hcore, devicesAfter_inDialect, ← devices_cycle]
    rfl
  have hmachine : (m.inDialect q).cycle.state = m.cycle.state.inDialect q :=
    ext_parts hstate.symm hdevices
  rw [Outcome.mapState, ← hmachine, hresult, hlog]

/-- **Any other event** is the same in all dialects. -/
theorem handle_inDialect (m : Machine) (q : Dialect) {e : Event} (he : e ≠ .cycle) :
    (m.inDialect q).handle e = (m.handle e).mapState (·.inDialect q) := by
  cases e with
  | reset => simp only [handle, reset, inDialect, Outcome.mapState]
  | pollSpeaker age =>
    simp only [handle, pollSpeaker, inDialect]
    cases m.speakers[age]? <;> rfl
  | cycle => exact absurd rfl he
  | load | setKey | setKeys | attach | tickDelay | tickSound => rfl

/-- Nothing that happens to a machine changes its dialect. -/
theorem dialect_handle (m : Machine) (e : Event) : (m.handle e).state.dialect = m.dialect := by
  cases e with
  | reset => simp only [handle, reset]
  | pollSpeaker age => exact m.pollSpeaker_state (·.dialect) age fun _ _ => rfl
  | cycle => exact m.dialect_cycle
  | load | setKey | setKeys | attach | tickDelay | tickSound => rfl

theorem dialect_run (m : Machine) (es : List Event) : (m.run es).state.dialect = m.dialect := by
  induction es generalizing m with
  | nil => rfl
  | cons e es ih => exact (ih _).trans (m.dialect_handle e)

/-- **A run in another dialect** that makes no difference to the instruction of any cycle. -/
theorem run_inDialect {es : List Event}
    (h : ∀ ds, ds ++ [.cycle] <+: es → (m.run ds).state.Neutral q) :
    (m.inDialect q).run es = (m.run es).mapState (·.inDialect q) := by
  induction es generalizing m with
  | nil => rfl
  | cons e es ih =>
    have hfirst : (m.inDialect q).handle e = (m.handle e).mapState (·.inDialect q) := by
      by_cases he : e = .cycle
      · subst he
        have hneutral : m.Neutral q := h [] ⟨es, rfl⟩
        simp only [handle, hneutral.cycle]
        rfl
      · exact handle_inDialect m q he
    -- Seen from behind the first event, the run that is left meets the same condition.
    have hrest := ih fun ds hds => h (e :: ds) ((List.prefix_cons_inj e).2 hds)
    simp only [run, hfirst, Outcome.mapState] at hrest ⊢
    simp only [hrest]

/-! ## Whole runs -/

/-- **Programs that cannot tell dialects apart.**  If another dialect makes no difference to the
instruction of any cycle of a run, then the machine in that dialect goes through the same run:
however far it has come, every event so far has had the same answer and made the same records, and
the machines agree in everything but the dialect.  This is so if all shifts of the run have a single
register and the dialects differ in what a shift reads only. -/
theorem dialect_invisible (m : Machine) (es : List Event) :
    (∀ q, (∀ ds, ds ++ [.cycle] <+: es → (m.run ds).state.Neutral q) →
      ∀ ds, ds <+: es → (m.inDialect q).run ds = (m.run ds).mapState (·.inDialect q)) ∧
    ∀ source : ShiftSource,
      (∀ ds op x y, ds ++ [.cycle] <+: es →
        (m.run ds).state.next? = some (.arithmetic op x y) → op.IsShift → x = y) →
      ∀ ds, ds <+: es →
        (m.inDialect { m.dialect with shift := source }).run ds =
          (m.run ds).mapState (·.inDialect { m.dialect with shift := source }) := by
  have hbegun : ∀ q, (∀ ds, ds ++ [.cycle] <+: es → (m.run ds).state.Neutral q) →
      ∀ ds, ds <+: es → (m.inDialect q).run ds = (m.run ds).mapState (·.inDialect q) :=
    fun q h ds hds => run_inDialect fun cs hcs => h cs (hcs.trans hds)
  refine ⟨hbegun, fun source h => hbegun _ fun ds hds => ⟨?shift, ?advance⟩⟩
  case shift =>
    intro op x y hnext hop
    rw [h ds op x y hds hnext hop]
    exact .inl rfl
  case advance =>
    intro i x _ _ _
    rw [dialect_run]

/-- A machine that is about to halve a register in place and to store `V0`. -/
@[irreducible]
def halving : Machine :=
  (((new ⟨.vy, .byCount⟩ default none).load
    [0x61, 0x05, 0x81, 0x16, 0xF0, 0x55]).state.cycles 1).state

theorem dialect_invisible_halving :
    let es := [Event.cycle, .cycle]
    let q : Dialect := ⟨.vx, .byOne⟩
    halving.dialect ≠ q ∧
      (∀ ds, ds ++ [.cycle] <+: es → (halving.run ds).state.Neutral q) ∧
      (halving.inDialect q).run es = (halving.run es).mapState (·.inDialect q) ∧
      (halving.run es).state.v.get 1 = 2 ∧ (halving.run es).state.i = 1 := by
  intro es q
  have hdialect : halving.dialect = ⟨.vy, .byCount⟩ := by decide +kernel
  have hfirst : halving.next? = some (.arithmetic .shiftRight 1 1) := by decide +kernel
  have hsecond : (halving.run [.cycle]).state.next? = some (.storeRegisters 0) := by
    decide +kernel
  have hneutral : ∀ ds, ds ++ [.cycle] <+: es → (halving.run ds).state.Neutral q := by
    rintro ds ⟨fs, hfs⟩
    match ds, hfs with
    | [], _ =>
      refine ⟨fun op x y hnext _ => ?_, fun i x hnext ht _ => ?_⟩
      · cases hfirst.symm.trans hnext
        exact .inl rfl
      · cases hfirst.symm.trans hnext
        rcases ht with ht | ht <;> cases ht
    | [e], hfs =>
      obtain rfl : e = .cycle := (List.cons.inj hfs).1
      refine ⟨fun op x y hnext _ => ?_, fun i x hnext ht _ => ?_⟩
      · cases hsecond.symm.trans hnext
      · cases hsecond.symm.trans hnext
        rw [dialect_run, hdialect]
        rcases ht with ht | ht <;> cases ht
        rfl
    | _ :: _ :: ds, hfs =>
      have hlength := congrArg List.length hfs
      simp [es] at hlength
  refine ⟨by decide +kernel, hneutral, ?_, by decide +kernel⟩
  exact (dialect_invisible halving es).1 q hneutral es (List.prefix_refl es)

end Machine
end Chip8
