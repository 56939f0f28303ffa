import Chip8.Proofs.Cycle.Bounds

/-!
# Subroutines

A call pushes the address behind it, and the return that belongs to it pops that address and goes
there.  In between a program may do what it likes: call on, to any depth, jump out of the
subroutine, overwrite it, wait for a key or fail.  Nothing of that gets below the top of the call
stack, because an event does one of three things to it: it leaves it alone, pushes one address, or
pops one.  So the entries that were there when a subroutine was entered can only be taken from the
top down, and the first event that brings the stack back to its old depth pops the address that the
call left.

## What is here

* `Machine.Returns` — the next cycle is a return that succeeds.
* `Machine.StackMove`, `Machine.stackMove_handle` — what one event does to the call stack.
* `StackMove.suffix`, `Machine.suffix_run` — entries stay as long as the stack is deep enough.
* `StackMove.returns` — the event that takes the last of them is a return.
* `Machine.subroutine_returns` — a call, what follows it, and its return.
-/

set_option autoImplicit false

namespace Chip8

/-- The lowest entries of the call stack, the outermost call first. -/
theorem Memory.take_returnAddresses {m : Memory} {base : List UInt16} (h : base <:+ m.calls) :
    m.returnAddresses.take base.length = base.reverse := by
  have hprefix : base.reverse <+: m.returnAddresses := List.reverse_prefix.2 h
  have htake := List.prefix_iff_eq_take.1 hprefix
  rw [List.length_reverse] at htake
  exact htake.symm

namespace Machine

/-! ## What an event does to the call stack -/

/-- The next cycle returns to `a`: it executes `00EE`, takes `a` from the top of the call stack and
goes there. -/
structure Returns (m : Machine) (a : UInt16) : Prop where
  fetch : m.fetch = .ok ⟨0x00EE⟩
  result : m.cycle.result = .ok .proceed
  pc : m.cycle.state.pc = a
  calls : m.memory.calls = a :: m.cycle.state.memory.calls

/-- What an event does to the call stack. -/
inductive StackMove (m : Machine) (e : Event) : Prop
  /-- The call stack stays as it is. -/
  | keep (h : (m.handle e).state.memory.calls = m.memory.calls)
  /-- One address is pushed. -/
  | enter (a : UInt16) (h : (m.handle e).state.memory.calls = a :: m.memory.calls)
  /-- One address is popped, which is the return of a cycle. -/
  | leave (a : UInt16) (cycle : e = .cycle) (h : m.Returns a)

theorem calls_perform (m : Machine) (i : Instruction) :
    (m.perform i).state.memory.calls = m.callsAfter i :=
  (perform_state (·.memory.calls) m i fun _ _ => rfl).trans (m.calls_execute i)

/-- A return with a call on the stack succeeds. -/
theorem returns_of_ret {m : Machine} {w : Opcode} {a : UInt16} {outer : List UInt16}
    (hw : m.fetch = .ok w) (hi : Instruction.ofOpcode? w = some .ret)
    (hc : m.memory.calls = a :: outer) : m.Returns a := by
  have hword : w = ⟨0x00EE⟩ := Opcode.toNat_inj.1 (Instruction.ofOpcode?_eq_ret_iff.1 hi)
  have hleave : (m.fetched w).execute .ret =
      ⟨{ m.fetched w with memory := { m.memory with calls := outer } },
        .ok (.jump a, .proceed), [.returned a]⟩ := by
    change (m.fetched w).leave = _
    rw [leave, Memory.pop, show (m.fetched w).memory.calls = a :: outer from hc]
    rfl
  have hcycle : m.cycle = _ :=
    (cycle_eq_perform hw hi).trans (perform_of_ok (congrArg Outcome.result hleave))
  rw [hleave] at hcycle
  exact
    { fetch := hword ▸ hw
      result := by rw [hcycle]
      pc := by rw [hcycle]; rfl
      calls := by rw [hcycle]; exact hc }

theorem stackMove_cycle (m : Machine) : m.StackMove .cycle := by
  refine cycle_cases (P := fun o => m.cycle = o → m.StackMove .cycle) m
    (fun f _ h => ?unfetched) (fun w _ _ h => ?undecoded) (fun w i hw hi h => ?performed) rfl
  case unfetched =>
    exact .keep (congrArg (·.state.memory.calls) h)
  case undecoded =>
    exact .keep (congrArg (·.state.memory.calls) h)
  case performed =>
    have hcalls : m.cycle.state.memory.calls = (m.fetched w).callsAfter i := by
      rw [h, calls_perform]
    cases i with
    | call nnn => exact .enter m.following hcalls
    | ret =>
      cases hc : m.memory.calls with
      | nil =>
        -- a return without a call fails, and leaves the stack empty
        refine .keep (hcalls.trans ?_)
        change m.memory.calls.tail = m.memory.calls
        rw [hc, List.tail_nil]
      | cons a outer => exact .leave a rfl (returns_of_ret hw hi hc)
    | _ => exact .keep hcalls

/-- **What an event does to the call stack**, as long as the power stays on. -/
theorem stackMove_handle (m : Machine) {e : Event} (he : e ≠ .reset) : m.StackMove e := by
  cases e with
  | reset => exact absurd rfl he
  | cycle => exact m.stackMove_cycle
  | load rom => exact .keep (m.load_calls rom)
  | pollSpeaker age => exact .keep (m.pollSpeaker_state (·.memory.calls) age fun _ _ => rfl)
  | setKey | setKeys | attach | tickDelay | tickSound => exact .keep rfl

/-! ## Entries that stay -/

variable {m : Machine} {e : Event} {base : List UInt16}

/-- The lowest entries stay if the stack is still as deep as there are of them. -/
theorem StackMove.suffix (h : m.StackMove e) (hbase : base <:+ m.memory.calls)
    (hdeep : base.length ≤ (m.handle e).state.memory.depth) :
    base <:+ (m.handle e).state.memory.calls := by
  cases h with
  | keep h => rwa [h]
  | enter a h =>
    rw [h]
    exact hbase.trans (List.suffix_cons a _)
  | leave a he h =>
    subst he
    rw [h.calls] at hbase
    rcases List.suffix_cons_iff.1 hbase with rfl | hbase
    · exact absurd hdeep (Nat.not_succ_le_self _)
    · exact hbase

/-- If the lowest of the entries goes, it is the return of a cycle that takes it. -/
theorem StackMove.returns {a : UInt16} {outer : List UInt16} (h : m.StackMove e)
    (hbase : a :: outer <:+ m.memory.calls)
    (hdeep : (m.handle e).state.memory.depth ≤ outer.length) :
    e = .cycle ∧ m.Returns a ∧ m.cycle.state.memory.calls = outer := by
  have hle : outer.length + 1 ≤ m.memory.calls.length := hbase.length_le
  rw [Memory.depth] at hdeep
  cases h with
  | keep h => rw [h] at hdeep; omega
  | enter b h => rw [h, List.length_cons] at hdeep; omega
  | leave b he h =>
    subst he
    have hsuffix := hbase
    rw [h.calls] at hsuffix
    -- the stack has just one entry more than is left, so the lowest entries are all of it
    have hall : a :: outer = b :: m.cycle.state.memory.calls :=
      hsuffix.eq_of_length_le (Nat.succ_le_succ hdeep)
    obtain ⟨rfl, rfl⟩ := List.cons.inj hall
    exact ⟨rfl, h, rfl⟩

/-- **Entries stay as long as the stack is deep enough**, whatever happens meanwhile. -/
theorem suffix_run {es : List Event} (hreset : .reset ∉ es) (hbase : base <:+ m.memory.calls)
    (hdeep : ∀ ds, ds <+: es → base.length ≤ (m.run ds).state.memory.depth) :
    base <:+ (m.run es).state.memory.calls := by
  induction es generalizing m with
  | nil => exact hbase
  | cons e es ih =>
    rw [List.mem_cons, not_or] at hreset
    have hmove : m.StackMove e := m.stackMove_handle (Ne.symm hreset.1)
    have hfirst : base <:+ (m.handle e).state.memory.calls :=
      hmove.suffix hbase (hdeep [e] (List.prefix_append [e] es))
    exact ih hreset.2 hfirst fun ds hds => hdeep (e :: ds) ((List.prefix_cons_inj e).2 hds)

/-! ## A call and its return -/

/-- A call pushes the address behind it and goes to the subroutine. -/
theorem cycle_of_call {w : Opcode} {nnn : UInt16} (hw : m.fetch = .ok w)
    (hi : Instruction.ofOpcode? w = some (.call nnn)) :
    m.cycle.result = .ok .proceed ∧ m.cycle.state.pc = nnn ∧
      m.cycle.state.memory.calls = m.following :: m.memory.calls := by
  rw [cycle_eq_perform hw hi]
  exact ⟨rfl, rfl, rfl⟩

/-- **A call returns behind itself.**  The address behind a call lies on the stack, on top of what
was there before, as long as the stack is deeper than it was; this holds after every list of events
that does not switch the machine off: cycles that succeed, wait or fail, callbacks, keys, and even
loads.  The first event that brings the stack back to the old depth is a cycle that executes `00EE`
and succeeds; it goes to the address behind the call, and leaves the stack of before the call. -/
theorem subroutine_returns {w : Opcode} {nnn : UInt16} (hw : m.fetch = .ok w)
    (hi : Instruction.ofOpcode? w = some (.call nnn)) :
    let called := m.cycle.state
    let before := m.memory.returnAddresses
    let back := m.pc + 2
    back.toNat = m.pc.toNat + 2 ∧
      m.cycle.result = .ok .proceed ∧ called.pc = nnn ∧
      called.memory.returnAddresses = before ++ [back] ∧
      ∀ es, .reset ∉ es →
        (∀ ds, ds <+: es → before.length + 1 ≤ (called.run ds).state.memory.depth) →
        let m' := (called.run es).state
        m'.memory.returnAddresses.take (before.length + 1) = before ++ [back] ∧
          ∀ e, e ≠ .reset → (m'.handle e).state.memory.depth ≤ before.length →
            e = .cycle ∧ m'.fetch = .ok ⟨0x00EE⟩ ∧ m'.cycle.result = .ok .proceed ∧
              m'.cycle.state.pc = back ∧ m'.cycle.state.memory.returnAddresses = before := by
  intro called before back
  obtain ⟨hresult, hpc, hcalls⟩ := cycle_of_call hw hi
  have hback : back.toNat = m.pc.toNat + 2 := by
    have hfetched := (fetch_eq_ok_iff.1 hw).1
    exact toNat_following (by omega)
  have hlength : before.length = m.memory.calls.length := List.length_reverse
  have hbefore : before ++ [back] = (back :: m.memory.calls).reverse := by
    rw [List.reverse_cons]
    rfl
  refine ⟨hback, hresult, hpc, ?_, fun es hreset hdeep => ?_⟩
  · rw [hbefore, Memory.returnAddresses, hcalls]
    rfl
  · intro m'
    have hbase : back :: m.memory.calls <:+ m'.memory.calls := by
      refine suffix_run hreset (by rw [hcalls]; exact List.suffix_refl _) fun ds hds => ?_
      rw [List.length_cons, ← hlength]
      exact hdeep ds hds
    refine ⟨?_, fun e he hshallow => ?_⟩
    · rw [hbefore, ← Memory.take_returnAddresses hbase, List.length_cons, hlength]
    · rw [hlength] at hshallow
      obtain ⟨hcycle, hret, houter⟩ := (m'.stackMove_handle he).returns hbase hshallow
      refine ⟨hcycle, hret.fetch, hret.result, hret.pc, ?_⟩
      rw [Memory.returnAddresses, houter]
      rfl

/-- A machine whose program calls a subroutine that calls another one. -/
def nesting : Machine :=
  ((new default default none).load
    [0x22, 0x06, 0x12, 0x02, 0x12, 0x04, 0x22, 0x0A, 0x00, 0xEE, 0x00, 0xEE]).state

/-- That machine in its subroutine, after the inner one has returned. -/
def nestingInside : Machine := (nesting.cycle.state.run [.cycle, .tickDelay, .cycle]).state

theorem subroutine_returns_nesting :
    nesting.fetch = .ok ⟨0x2206⟩ ∧ Instruction.ofOpcode? ⟨0x2206⟩ = some (.call 0x206) ∧
      nestingInside.memory.returnAddresses.take 1 = [0x202] ∧
      nestingInside.cycle.state.pc = 0x202 ∧
      nestingInside.cycle.state.memory.returnAddresses = [] := by
  have hw : nesting.fetch = .ok ⟨0x2206⟩ := fetch_eq_ok_iff.2 (by decide +kernel)
  have hi : Instruction.ofOpcode? ⟨0x2206⟩ = some (.call 0x206) := by decide
  have hbefore : nesting.memory.returnAddresses = [] := by decide +kernel
  have hback : nesting.pc + 2 = 0x202 := by decide +kernel
  have hdeep : ∀ ds, ds <+: [Event.cycle, .tickDelay, .cycle] →
      nesting.memory.returnAddresses.length + 1 ≤
        (nesting.cycle.state.run ds).state.memory.depth := by
    intro ds hds
    simp only [List.prefix_cons_iff, List.prefix_nil] at hds
    obtain rfl | ⟨_, rfl, rfl | ⟨_, rfl, rfl | ⟨_, rfl, rfl⟩⟩⟩ := hds <;> decide +kernel
  obtain ⟨-, -, -, -, hrun⟩ := subroutine_returns hw hi
  obtain ⟨hlowest, hreturn⟩ := hrun [.cycle, .tickDelay, .cycle] (by simp) hdeep
  obtain ⟨-, -, -, hpc, hcalls⟩ := hreturn .cycle (by simp) (by decide +kernel)
  rw [← nestingInside, hbefore, hback] at hlowest
  rw [← nestingInside, hback] at hpc
  rw [← nestingInside, hbefore] at hcalls
  exact ⟨hw, hi, hlowest, hpc, hcalls⟩

end Machine
end Chip8
