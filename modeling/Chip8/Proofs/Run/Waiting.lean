import Chip8.Proofs.Cycle.Frame
import Chip8.Proofs.Encoding
import Chip8.Proofs.Keypad
import Chip8.Proofs.Run.Background

/-!
# Waiting for a key

`FX0A` runs again and again until a key is down.  None of the cycles that wait leaves a trace in the
machine but the word that was fetched last, and the next cycle, which stands at the same instruction,
fetches that word once more.  So it makes no difference how often a program has waited: once a key is
down, the machine goes on as if it had just arrived.

The background does not wait.  Timers tick and keys move between the cycles, but they leave the core of
the machine alone and do not look at the word that was fetched last (`Machine.handle_fetched`).

## What is here

* `Machine.AtAwaitKey` — the program is at `FX0A`.
* `Machine.cycle_of_released`, `Machine.cycle_of_lowest` — the two ways in which such a cycle ends.
* `Machine.awaitKey_cycle_iff` — which cycles wait.
* `Machine.Waits`, `Machine.waits_of_released` — cycles that find no key, with events between them.
* `Machine.fetched_run` — a wait of any length, up to the word that was fetched last.
* `Machine.waiting_stutters` — a wait of any length, and its end.
-/

set_option autoImplicit false

namespace Chip8
namespace Machine

variable {m : Machine} {x : Nat} {w : Opcode} {c : UInt8} {e : Event} {p : Peripheral}

/-! ## Cycles that wait -/

/-- **The program is at `FX0A`**: this is the word at the program counter, and both of its bytes are
in memory. -/
def AtAwaitKey (m : Machine) (x : Nat) : Prop :=
  m.pc.toNat + 1 < 4096 ∧ x < 16 ∧ (m.memory.word m.pc.toNat).toNat = 0xF00A + x * 256

theorem atAwaitKey_iff : m.AtAwaitKey x ↔ m.next? = some (.awaitKey x) := by
  have hword (w : Opcode) :
      Instruction.ofOpcode? w = some (.awaitKey x) ↔ x < 16 ∧ w.toNat = 0xF00A + x * 256 := by
    rw [Instruction.ofOpcode?_eq_some_iff]
    exact and_congr_left fun _ => ⟨fun h => h.fits, fun h => ⟨h, by simp, by simp⟩⟩
  rw [AtAwaitKey, next?, ← hword]
  by_cases hpc : m.pc.toNat + 1 < 4096
  · rw [if_pos hpc]
    exact ⟨fun h => h.2, fun h => ⟨hpc, h⟩⟩
  · rw [if_neg hpc]
    exact iff_of_false (fun h => hpc h.1) (Option.some_ne_none _).symm

theorem cycle_of_atAwaitKey (h : m.AtAwaitKey x) :
    m.cycle = (m.fetched (m.memory.word m.pc.toNat)).perform (.awaitKey x) := by
  have hfetch : m.fetch = .ok (m.memory.word m.pc.toNat) :=
    fetch_eq_ok_iff.2 ⟨Nat.lt_of_succ_lt_succ h.1, rfl⟩
  exact cycle_eq_perform hfetch ((next?_of_fetch hfetch).symm.trans (atAwaitKey_iff.1 h))

/-- Back to where the instruction stands, even across the end of the addresses. -/
theorem target_again (m : Machine) : Step.again.target m.following = m.pc :=
  UInt16.add_sub_cancel _ _

theorem takeKey_of_released (x : Nat) (h : m.keypad.lowest? = none) :
    m.takeKey x = ⟨m, .ok (.again, .awaitKey), []⟩ := by
  rw [takeKey, h]

theorem takeKey_of_lowest (x : Nat) (h : m.keypad.lowest? = some c) :
    m.takeKey x = goOn { m with v := m.v.set x c } := by
  rw [takeKey, h]

/-- **A cycle that waits** leaves nothing behind but the word that it fetched. -/
theorem cycle_of_released (h : m.AtAwaitKey x) (hkeys : m.keypad.lowest? = none) :
    m.cycle.result = .ok .awaitKey ∧ m.cycle.state = m.fetched (m.memory.word m.pc.toNat) := by
  have hexecute : (m.fetched (m.memory.word m.pc.toNat)).execute (.awaitKey x) = _ :=
    takeKey_of_released x hkeys
  rw [cycle_of_atAwaitKey h, perform_of_ok (congrArg Outcome.result hexecute), hexecute]
  refine ⟨rfl, ?_⟩
  change { m.fetched _ with pc := Step.again.target m.following } = m.fetched _
  rw [target_again]
  rfl

/-- **A cycle that finds a key** takes the lowest one. -/
theorem cycle_of_lowest (h : m.AtAwaitKey x) (hkeys : m.keypad.lowest? = some c) :
    m.cycle.result = .ok .proceed ∧
      m.cycle.state =
        { m with opcode := m.memory.word m.pc.toNat, v := m.v.set x c, pc := m.following } := by
  have hexecute : (m.fetched (m.memory.word m.pc.toNat)).execute (.awaitKey x) = _ :=
    takeKey_of_lowest x hkeys
  rw [cycle_of_atAwaitKey h, perform_of_ok (congrArg Outcome.result hexecute), hexecute]
  exact ⟨rfl, rfl⟩

/-- Only one instruction asks for a key. -/
theorem execute_eq_awaitKey {i : Instruction} {step : Step}
    (h : (m.execute i).result = .ok (step, .awaitKey)) :
    (∃ x, i = .awaitKey x) ∧ m.keypad.lowest? = none := by
  cases i with
  | awaitKey x =>
    refine ⟨⟨x, rfl⟩, Option.eq_none_iff_forall_ne_some.2 fun c hc => ?_⟩
    change (m.takeKey x).result = _ at h
    rw [takeKey_of_lowest x hc] at h
    cases h
  | ret =>
    change m.leave.result = _ at h
    rw [leave] at h
    split at h <;> cases h
  | draw x y n => cases eq_of_map_const_eq_ok h
  | storeDecimal x | storeRegisters x | fillRegisters x =>
    have hdone := congrArg Outcome.result (afterTransfer_of_ok h)
    rw [show (afterTransfer _ _).result = _ from h] at hdone
    cases hdone
  | _ => cases h

/-- **Which cycles wait**: those at `FX0A` while no key is down. -/
theorem awaitKey_cycle_iff :
    m.cycle.result = .ok .awaitKey ↔ (∃ x, m.AtAwaitKey x) ∧ m.keypad.lowest? = none := by
  constructor
  · intro h
    obtain ⟨hpc, i, step, hi, hresult, -⟩ := ok_cases h
    obtain ⟨⟨x, rfl⟩, hkeys⟩ := execute_eq_awaitKey hresult
    exact ⟨⟨x, atAwaitKey_iff.2 ((if_pos hpc).trans hi)⟩, hkeys⟩
  · rintro ⟨⟨x, hx⟩, hkeys⟩
    exact (cycle_of_released hx hkeys).1

/-! ## The word that was fetched last -/

/-- **Background events do not look at the word that was fetched last.** -/
theorem handle_fetched (he : e.peripheral? = some p) :
    ((m.fetched w).handle e).state = (m.handle e).state.fetched w := by
  cases e with
  | pollSpeaker age =>
    simp only [handle, pollSpeaker_eq]
    rfl
  | tickDelay | tickSound | setKey | setKeys => rfl
  | load | reset | attach | cycle => cases he

/-- A cycle at `FX0A` does not look at it either. -/
theorem cycle_fetched (h : m.AtAwaitKey x) : (m.fetched w).cycle = m.cycle := by
  have hfetched : (m.fetched w).AtAwaitKey x := h
  rw [cycle_of_atAwaitKey h, cycle_of_atAwaitKey hfetched]
  rfl

/-- Whether the program is at `FX0A` is a matter of its core. -/
theorem AtAwaitKey.congr {n : Machine} (h : m.AtAwaitKey x) (hcore : m.core = n.core) :
    n.AtAwaitKey x := by
  rw [eq_withDevices hcore]
  exact h

/-! ## Waits of any length -/

/-- The background events of a list. -/
def background (es : List Event) : List Event := es.filter fun e => e.peripheral?.isSome

theorem run_fetched {es : List Event} (hes : ∀ e ∈ es, e.peripheral?.isSome) :
    ((m.fetched w).run es).state = (m.run es).state.fetched w := by
  induction es generalizing m with
  | nil => rfl
  | cons e es ih =>
    obtain ⟨he, hrest⟩ := List.forall_mem_cons.1 hes
    obtain ⟨p, hp⟩ := Option.isSome_iff_exists.1 he
    change (((m.fetched w).handle e).state.run es).state = _
    rw [handle_fetched hp, ih hrest]
    rfl

/-- What no event of a list changes is not changed by the list. -/
theorem run_keeps {α : Type} {part : Machine → α} {es : List Event}
    (hes : ∀ e ∈ es, ∀ m : Machine, part (m.handle e).state = part m) :
    part (m.run es).state = part m := by
  induction es generalizing m with
  | nil => rfl
  | cons e es ih =>
    obtain ⟨he, hrest⟩ := List.forall_mem_cons.1 hes
    exact (ih hrest).trans (he m)

theorem core_run {es : List Event} (hes : ∀ e ∈ es, e.peripheral?.isSome) :
    (m.run es).state.core = m.core :=
  run_keeps fun e he _ => by
    obtain ⟨p, hp⟩ := Option.isSome_iff_exists.1 (hes e he)
    exact core_handle hp

theorem isSome_of_mem_background {es : List Event} (he : e ∈ background es) :
    e.peripheral?.isSome :=
  (List.mem_filter.1 he).2

/-- **A program waits** through a list of events: they are background events, and cycles at which no
key is down. -/
structure Waits (m : Machine) (es : List Event) : Prop where
  events : ∀ e ∈ es, e = .cycle ∨ e.peripheral?.isSome
  released : ∀ before after, es = before ++ .cycle :: after →
    ∀ c, (m.run before).state.keypad.isPressed c = false

/-- What remains of a wait after its first event. -/
theorem Waits.tail {es : List Event} (h : m.Waits (e :: es)) : (m.handle e).state.Waits es where
  events f hf := h.events f (List.mem_cons_of_mem e hf)
  released before after hes := h.released (e :: before) after (congrArg (List.cons e) hes)

/-- Whether an event moves no key. -/
def Event.LeavesKeys (e : Event) : Prop := e = .cycle ∨ ∃ p, e.peripheral? = some p ∧ p ≠ .keys

theorem keypad_run {es : List Event} (hes : ∀ e ∈ es, e.LeavesKeys) :
    (m.run es).state.keypad = m.keypad :=
  run_keeps fun e he m => by
    obtain rfl | ⟨p, hp, hkeys⟩ := hes e he
    · exact m.keypad_cycle
    · exact keypad_handle hp hkeys

/-- Cycles and timers make up a wait if no key is down at first. -/
theorem waits_of_released {es : List Event} (hkeys : ∀ c, m.keypad.isPressed c = false)
    (hes : ∀ e ∈ es, e.LeavesKeys) : m.Waits es where
  events e he := (hes e he).imp_right fun ⟨p, hp, _⟩ => Option.isSome_iff_exists.2 ⟨p, hp⟩
  released before after hsplit c := by
    rw [keypad_run fun e he => hes e (hsplit ▸ List.mem_append_left _ he)]
    exact hkeys c

/-- **The cycles of a wait can be left out**, up to the word that was fetched last. -/
theorem fetched_run (h : m.AtAwaitKey x) {es : List Event} (hes : m.Waits es) (w : Opcode) :
    (m.run es).state.fetched w = (m.run (background es)).state.fetched w := by
  induction es generalizing m with
  | nil => rfl
  | cons e es ih =>
    obtain rfl | he := hes.events e List.mem_cons_self
    · -- the cycle waits, so what comes after it comes after a mere change of the word fetched last
      have hkeys : m.keypad.lowest? = none :=
        Keypad.lowest?_eq_none_iff_isPressed.2 (hes.released [] es rfl)
      have hstate : (m.handle .cycle).state = _ := (cycle_of_released h hkeys).2
      have hrest := hes.tail
      change ((m.handle .cycle).state.run es).state.fetched w = _
      rw [hstate] at hrest ⊢
      have hbackground : ((m.fetched (m.memory.word m.pc.toNat)).run (background es)).state = _ :=
        run_fetched fun e he => isSome_of_mem_background he
      have hdrop : background (.cycle :: es) = background es := rfl
      have hfetched : (m.fetched (m.memory.word m.pc.toNat)).AtAwaitKey x := h
      rw [ih hfetched hrest, hbackground, hdrop]
      rfl
    · obtain ⟨p, hp⟩ := Option.isSome_iff_exists.1 he
      have hkeep : background (e :: es) = e :: background es := List.filter_cons_of_pos he
      rw [hkeep]
      exact ih (h.congr (core_handle hp).symm) hes.tail

/-- **Waiting for a key is a stutter.**  A cycle waits if the program is at `FX0A` and no key is down,
and then nothing changes but the word that was fetched last.  Suppose that the program waits through
any number of such cycles, with any background events between them, and that then a key event leaves
some keys down.  The next cycle puts the lowest of these keys into the register, leaves the other
registers alone and goes on behind the instruction; and it does the same, to the same machine, as if
no cycle had waited. -/
theorem waiting_stutters (m : Machine) :
    (m.cycle.result = .ok .awaitKey ↔
      (∃ x, m.AtAwaitKey x) ∧ ∀ c, m.keypad.isPressed c = false) ∧
    (m.cycle.result = .ok .awaitKey →
      m.cycle.state = { m with opcode := m.memory.word m.pc.toNat }) ∧
    ∀ x es key, m.AtAwaitKey x → m.Waits es → key.peripheral? = some .keys →
      let waited := ((m.run es).state.handle key).state
      let ready := ((m.run (background es)).state.handle key).state
      (∃ c, waited.keypad.isPressed c = true) →
        waited.cycle = ready.cycle ∧ waited.cycle.result = .ok .proceed ∧
          waited.cycle.state.pc.toNat = m.pc.toNat + 2 ∧
          ∃ c, waited.keypad.isPressed c = true ∧
            (∀ d, waited.keypad.isPressed d = true → c ≤ d) ∧
            waited.cycle.state.v = m.v.set x c ∧ waited.cycle.state.v.get x = c ∧
            ∀ k, k ≠ x → waited.cycle.state.v.get k = m.v.get k := by
  refine ⟨?iff, fun h => ?keeps, fun x es key hx hes hkey => ?stutter⟩
  case iff => rw [awaitKey_cycle_iff, Keypad.lowest?_eq_none_iff_isPressed]
  case keeps =>
    obtain ⟨⟨x, hx⟩, hkeys⟩ := awaitKey_cycle_iff.1 h
    exact (cycle_of_released hx hkeys).2
  case stutter =>
    intro waited ready hdown
    have hcore : ready.core = m.core :=
      (core_handle hkey).trans (core_run fun e he => isSome_of_mem_background he)
    have hready : ready.AtAwaitKey x := hx.congr hcore.symm
    -- the two machines differ in the word that was fetched last, which the next cycle replaces
    have hfetched : waited.fetched default = ready.fetched default := by
      rw [← handle_fetched hkey, fetched_run hx hes, handle_fetched hkey]
    have hwaited : waited.AtAwaitKey x := by
      have hat : (ready.fetched default).AtAwaitKey x := hready
      rw [← hfetched] at hat
      exact hat
    have hsame : waited.cycle = ready.cycle := by
      rw [← cycle_fetched hwaited, hfetched, cycle_fetched hready]
    have hkeypad : waited.keypad = ready.keypad := by
      have h := congrArg Machine.keypad hfetched
      exact h
    obtain ⟨c, hc⟩ : ∃ c, ready.keypad.lowest? = some c := by
      rw [← Option.isSome_iff_exists, Option.isSome_iff_ne_none, ne_eq,
        Keypad.lowest?_eq_none_iff_isPressed, ← hkeypad]
      obtain ⟨c, hc⟩ := hdown
      exact fun hnone => Bool.false_ne_true ((hnone c).symm.trans hc)
    obtain ⟨hresult, hstate⟩ := cycle_of_lowest hready hc
    obtain ⟨hpressed, hlowest⟩ := Keypad.lowest?_eq_some_iff.1 hc
    obtain ⟨-, hv, -, hpc, -, -⟩ := Core.mk.inj hcore
    have hset : ready.v.set x c = m.v.set x c := congrArg (·.set x c) hv
    rw [hsame, hresult, hstate, hkeypad]
    refine ⟨rfl, rfl, ?pc, c, hpressed, hlowest, hset, ?stored, fun k hk => ?kept⟩
    case pc =>
      change ready.following.toNat = _
      rw [toNat_following (by have := hready.1; omega), hpc]
    case stored => exact (Registers.get_set _ _ _ _).trans (if_pos ⟨rfl, hx.2.1⟩)
    case kept =>
      change (ready.v.set x c).get k = _
      rw [hset, Registers.get_set, if_neg fun h => hk h.1]

/-- A machine whose program begins with `F30A`. -/
@[irreducible]
def asking : Machine := ((new default default none).load [0xF3, 0x0A]).state

theorem waiting_stutters_asking :
    let waited := ((asking.run [.cycle, .tickDelay, .cycle]).state.handle (.setKey 7 true)).state
    let ready := ((asking.run [.tickDelay]).state.handle (.setKey 7 true)).state
    asking.AtAwaitKey 3 ∧ asking.Waits [.cycle, .tickDelay, .cycle] ∧
      waited.cycle = ready.cycle ∧ waited.cycle.result = .ok .proceed ∧
      waited.cycle.state.pc.toNat = 0x202 ∧ waited.cycle.state.v.get 3 = 7 := by
  intro waited ready
  have hat : asking.AtAwaitKey 3 := ⟨by decide +kernel, by decide, by decide +kernel⟩
  have hwaits : asking.Waits [.cycle, .tickDelay, .cycle] := by
    refine waits_of_released (Keypad.lowest?_eq_none_iff_isPressed.1 (by decide +kernel)) ?_
    intro e he
    simp only [List.mem_cons, List.not_mem_nil, or_false] at he
    obtain rfl | rfl | rfl := he
    · exact .inl rfl
    · exact .inr ⟨.delay, rfl, by decide⟩
    · exact .inl rfl
  obtain ⟨-, -, hstutter⟩ := waiting_stutters asking
  obtain ⟨hsame, hresult, hpc, -⟩ :=
    hstutter 3 [.cycle, .tickDelay, .cycle] (.setKey 7 true) hat hwaits rfl
      ⟨7, by decide +kernel⟩
  have hstart : asking.pc.toNat + 2 = 0x202 := by decide +kernel
  exact ⟨hat, hwaits, hsame, hresult, hpc.trans hstart, by decide +kernel⟩

end Machine
end Chip8
