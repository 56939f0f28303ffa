import Chip8.Proofs.Cycle.Frame

/-!
# Storing registers and filling them

`FX55` copies the registers up to `VX` to memory, from the index register on, and `FX65` copies them
back.  Both take the same addresses, which are `X + 1` in number, so each undoes the other, up to the
last byte of memory.  How far the index register moves afterwards is a matter of the dialect, and it
only moves if all bytes were copied.

## What is here

* `Machine.afterStore`, `Machine.afterFill` — the machine after a transfer that succeeds, and
  `Machine.perform_store`, `Machine.perform_fill`, which say when it does.
* `Machine.bytes_afterStore`, `Machine.get_afterFill` — what was copied.
* `Machine.perform_of_overrun` — a transfer that fails does not move the index register.
* `Machine.get_afterFill_afterStore`, `Machine.bytes_afterStore_afterFill`,
  `Machine.bytes_afterStore_afterStore` — two transfers, one after the other.
* `Machine.transfers_invert` — what the two instructions do, and that they undo each other.
-/

set_option autoImplicit false

namespace Chip8

theorem Memory.ext_bytes {m m' : Memory} (hcalls : m.calls = m'.calls)
    (h : ∀ a : Nat, m.bytes[a]? = m'.bytes[a]?) : m = m' := by
  have hbytes : m.bytes = m'.bytes := Vector.ext fun a ha => by
    have hsome := h a
    rwa [Vector.getElem?_eq_getElem ha, Vector.getElem?_eq_getElem ha, Option.some_inj] at hsome
  cases m
  cases m'
  cases hcalls
  cases hbytes
  rfl

namespace Machine

variable {m : Machine} {x : Nat} {i : Instruction}

/-! ## Transfers that succeed -/

/-- The machine after an `FX55` that succeeds. -/
def afterStore (m : Machine) (x : Nat) : Machine :=
  { m with
    memory := (m.memory.writeBlock m.i.toNat (m.v.take (x + 1))).1
    i := m.i + m.dialect.advance.amount x
    pc := m.following }

/-- The machine after an `FX65` that succeeds. -/
def afterFill (m : Machine) (x : Nat) : Machine :=
  { m with
    v := m.v.fill (m.memory.readBlock m.i.toNat (x + 1)).1
    i := m.i + m.dialect.advance.amount x
    pc := m.following }

/-- A transfer that is complete moves the index register, and the program goes on. -/
theorem perform_of_complete {transfer : Machine × Except Fault Unit}
    (hexecute : m.execute i = afterTransfer transfer (advanceIndex · x)) (hok : transfer.2 = .ok ()) :
    m.perform i =
      ⟨{ transfer.1.advanceIndex x with pc := m.following }, .ok .proceed, m.performLog i⟩ := by
  rw [afterTransfer_of_ok (afterTransfer_result_of_ok (advanceIndex · x) hok)] at hexecute
  rw [perform_of_ok (congrArg Outcome.result hexecute), hexecute]
  rfl

/-- **Registers are stored** if there are addresses for all of them. -/
theorem perform_store (hx : x < 16) (hin : m.i.toNat + x < 4096) :
    m.perform (.storeRegisters x) =
      ⟨m.afterStore x, .ok .proceed, m.performLog (.storeRegisters x)⟩ := by
  have hlength : (m.v.take (x + 1)).length = x + 1 := Registers.length_take _ hx
  have hstored : (m.storeBytes (m.v.take (x + 1))).2 = .ok () := by
    rw [storeBytes, Memory.writeBlock_snd, hlength, if_pos (.inr hin)]
  exact perform_of_complete rfl hstored

/-- **Registers are filled** if there are bytes for all of them. -/
theorem perform_fill (hin : m.i.toNat + x < 4096) :
    m.perform (.fillRegisters x) =
      ⟨m.afterFill x, .ok .proceed, m.performLog (.fillRegisters x)⟩ := by
  have hfilled : (m.fillBytes (x + 1)).2 = .ok () := by
    rw [fillBytes, Memory.readBlock_snd, if_pos (.inr hin)]
  exact perform_of_complete rfl hfilled

/-- **Memory after registers were stored.** -/
theorem bytes_afterStore (hx : x < 16) (hin : m.i.toNat + x < 4096) (a : Nat) :
    (m.afterStore x).memory.bytes[a]? =
      if m.i.toNat ≤ a ∧ a ≤ m.i.toNat + x then some (m.v.get (a - m.i.toNat))
      else m.memory.bytes[a]? := by
  have hstored := m.bytes_storeBytes_take hx a
  rw [storeBytes] at hstored
  rw [afterStore, hstored]
  by_cases ha : m.i.toNat ≤ a ∧ a ≤ m.i.toNat + x
  · rw [if_pos (by omega), if_pos ha]
  · rw [if_neg (by omega), if_neg ha]

/-- **Registers after they were filled.** -/
theorem get_afterFill (hx : x < 16) (hin : m.i.toNat + x < 4096) (k : Nat) :
    (m.afterFill x).v.get k =
      if k ≤ x then m.memory.bytes[m.i.toNat + k]?.getD 0 else m.v.get k := by
  rw [afterFill, Registers.get_fill_readBlock _ _ _ _ _ hx]
  by_cases hk : k ≤ x
  · rw [if_pos (by omega), if_pos hk]
  · rw [if_neg (by omega), if_neg hk]

/-! ## Transfers that fail -/

/-- **A transfer that runs over the end of memory fails**, and the index register stays. -/
theorem perform_of_overrun (ht : i.Transfers x) (hx : x < 16) (hout : ¬ m.i.toNat + x < 4096) :
    (∀ s, (m.perform i).result ≠ .ok s) ∧ (m.perform i).state.i = m.i := by
  have hret : i ≠ .ret := by rcases ht with rfl | rfl <;> simp
  have hfault : faultOf? (m.execute i).result =
      some (.addressOutOfBounds (max m.i.toNat 4096) 4096) := by
    rw [faultOf?_execute m (ht.fits_iff.2 hx), executeFault?, if_neg fun h => hret h.1, ht.span_eq,
      blockFault?, if_pos (by omega)]
  have herror := faultOf?_eq_some_iff.1 hfault
  rw [perform_of_error herror]
  refine ⟨fun s hs => ?_, (wreck_of_error herror).sameRest.i⟩
  cases hs

/-- Whether it succeeds or fails, a transfer leaves the bytes alone that are not in its block. -/
theorem bytes_of_transfers (ht : i.Transfers x) (hx : x < 16) {a : Nat}
    (ha : ¬ (m.i.toNat ≤ a ∧ a ≤ m.i.toNat + x)) :
    (m.perform i).state.memory.bytes[a]? = m.memory.bytes[a]? := by
  have hstored : i.stored ≤ x + 1 := by
    rcases ht with rfl | rfl
    · exact Nat.le_refl _
    · exact Nat.zero_le _
  have hperform := perform_state (·.memory.bytes[a]?) m i fun _ _ => rfl
  exact hperform.trans (bytes_execute (ht.fits_iff.2 hx) (by omega))

/-! ## There and back -/

/-- Registers that are filled from where they were stored hold what they held before. -/
theorem get_afterFill_afterStore {m' : Machine} (hx : x < 16) (hin : m.i.toNat + x < 4096)
    (hbytes : m'.memory.bytes = (m.afterStore x).memory.bytes) (hi : m'.i = m.i) (k : Nat) :
    (m'.afterFill x).v.get k = if k ≤ x then m.v.get k else m'.v.get k := by
  rw [get_afterFill hx (hi ▸ hin), hbytes, hi, bytes_afterStore hx hin]
  split
  next hk =>
    rw [if_pos (by omega), Nat.add_sub_cancel_left]
    rfl
  next => rfl

/-- Registers that are stored where they were filled from change nothing. -/
theorem bytes_afterStore_afterFill {m' : Machine} (hx : x < 16) (hin : m.i.toNat + x < 4096)
    (hbytes : m'.memory.bytes = m.memory.bytes) (hv : m'.v = (m.afterFill x).v) (hi : m'.i = m.i)
    (a : Nat) : (m'.afterStore x).memory.bytes[a]? = m.memory.bytes[a]? := by
  rw [bytes_afterStore hx (hi ▸ hin), hi, hbytes, hv]
  split
  next ha =>
    rw [get_afterFill hx hin, if_pos (by omega), Nat.add_sub_cancel' ha.1,
      Vector.getElem?_eq_getElem (by omega)]
    rfl
  next => rfl

/-- A second block that is stored behind the first one does not touch it. -/
theorem bytes_afterStore_afterStore {m' : Machine} {y : Nat} (hx : x < 16) (hy : y < 16)
    (hin : m.i.toNat + (x + 1) + y < 4096) (hbytes : m'.memory.bytes = (m.afterStore x).memory.bytes)
    (hi : m'.i.toNat = m.i.toNat + (x + 1)) (a : Nat) :
    (m'.afterStore y).memory.bytes[a]? =
      if m.i.toNat ≤ a ∧ a < m.i.toNat + (x + 1) then some (m.v.get (a - m.i.toNat))
      else if m.i.toNat + (x + 1) ≤ a ∧ a ≤ m.i.toNat + (x + 1) + y then
        some (m'.v.get (a - (m.i.toNat + (x + 1))))
      else m.memory.bytes[a]? := by
  rw [bytes_afterStore hy (by omega), hbytes, bytes_afterStore hx (by omega), hi]
  -- the blocks do not overlap, so it does not matter which of them is asked for first
  by_cases ha : a < m.i.toNat + (x + 1)
  · rw [if_neg (by omega)]
    by_cases hfirst : m.i.toNat ≤ a
    · rw [if_pos (by omega), if_pos ⟨hfirst, ha⟩]
    · rw [if_neg (by omega), if_neg (by omega), if_neg (by omega)]
  · rw [if_neg (show ¬ (m.i.toNat ≤ a ∧ a ≤ m.i.toNat + x) by omega),
      if_neg (show ¬ (m.i.toNat ≤ a ∧ a < m.i.toNat + (x + 1)) by omega)]

/-- **`FX55` and `FX65` undo each other.**  A transfer succeeds if its block lies in memory.  Then the
index register moves as far as the dialect says, and else it stays; bytes behind and before the block
stay in any case.  Registers that were stored come back when they are filled from the same place,
whatever happened to the machine meanwhile, if not to memory; and registers that were filled from
memory can be stored to the same place without a change.  If the index register moves behind the
block, a second block that is stored comes to lie right behind the first one. -/
theorem transfers_invert (m : Machine) {x : Nat} (hx : x < 16) :
    (∀ i : Instruction, i.Transfers x →
      let o := m.perform i
      (o.result = .ok .proceed ↔ m.i.toNat + x < 4096) ∧
        (o.state.i.toNat =
          if m.i.toNat + x < 4096 then m.i.toNat + m.dialect.advance.count x else m.i.toNat) ∧
        ∀ a, ¬ (m.i.toNat ≤ a ∧ a ≤ m.i.toNat + x) →
          o.state.memory.bytes[a]? = m.memory.bytes[a]?) ∧
    (m.i.toNat + x < 4096 →
      ∀ m' : Machine, m'.memory = (m.perform (.storeRegisters x)).state.memory → m'.i = m.i →
        let filled := m'.perform (.fillRegisters x)
        filled.result = .ok .proceed ∧
          ∀ k, filled.state.v.get k = if k ≤ x then m.v.get k else m'.v.get k) ∧
    (m.i.toNat + x < 4096 →
      ∀ m' : Machine, m'.memory = (m.perform (.fillRegisters x)).state.memory →
        m'.v = (m.perform (.fillRegisters x)).state.v → m'.i = m.i →
        let stored := m'.perform (.storeRegisters x)
        stored.result = .ok .proceed ∧ stored.state.memory = m.memory) ∧
    (m.dialect.advance = .byCount → ∀ y < 16, m.i.toNat + (x + 1) + y < 4096 →
      ∀ m' : Machine, m'.memory = (m.perform (.storeRegisters x)).state.memory →
        m'.i = (m.perform (.storeRegisters x)).state.i →
        let second := m'.perform (.storeRegisters y)
        second.result = .ok .proceed ∧
          ∀ a, second.state.memory.bytes[a]? =
            if m.i.toNat ≤ a ∧ a < m.i.toNat + (x + 1) then some (m.v.get (a - m.i.toNat))
            else if m.i.toNat + (x + 1) ≤ a ∧ a ≤ m.i.toNat + (x + 1) + y then
              some (m'.v.get (a - (m.i.toNat + (x + 1))))
            else m.memory.bytes[a]?) := by
  refine ⟨?transfer, ?restore, ?keep, ?adjacent⟩
  case transfer =>
    intro i ht
    refine ⟨?_, ?_, fun a ha => bytes_of_transfers ht hx ha⟩
    · by_cases hin : m.i.toNat + x < 4096
      · simp only [hin, iff_true]
        rcases ht with rfl | rfl
        · rw [perform_store hx hin]
        · rw [perform_fill hin]
      · simp only [hin, iff_false]
        exact (perform_of_overrun ht hx hin).1 _
    · split
      next hin =>
        rw [← toNat_add_amount hx hin]
        rcases ht with rfl | rfl
        · rw [perform_store hx hin, afterStore]
        · rw [perform_fill hin, afterFill]
      next hout => rw [(perform_of_overrun ht hx hout).2]
  case restore =>
    intro hin m' hmemory hi filled
    rw [perform_store hx hin] at hmemory
    have hfilled : filled = _ := perform_fill (hi ▸ hin)
    rw [hfilled]
    exact ⟨rfl, get_afterFill_afterStore hx hin (congrArg Memory.bytes hmemory) hi⟩
  case keep =>
    intro hin m' hmemory hv hi stored
    rw [perform_fill hin] at hmemory hv
    have hstored : stored = _ := perform_store hx (hi ▸ hin)
    rw [hstored]
    refine ⟨rfl, Memory.ext_bytes ?_
      (bytes_afterStore_afterFill hx hin (congrArg Memory.bytes hmemory) hv hi)⟩
    exact (Memory.calls_writeBlock _ _ _).trans (congrArg Memory.calls hmemory)
  case adjacent =>
    intro hcount y hy hin m' hmemory hi second
    rw [perform_store hx (by omega)] at hmemory hi
    have hindex : m'.i.toNat = m.i.toNat + (x + 1) := by
      rw [hi, afterStore, toNat_add_amount hx (by omega), hcount]
      rfl
    have hsecond : second = _ := perform_store hy (by omega)
    rw [hsecond]
    refine ⟨rfl, fun a => ?_⟩
    exact bytes_afterStore_afterStore hx hy hin (congrArg Memory.bytes hmemory) hindex a

/-- A machine with sixteen addresses left, for as many registers. -/
def atTop : Machine :=
  { new default default none with
    v := (Registers.zero.set 0 0xA0).set 15 0xAF
    i := 0xFF0 }

theorem transfers_invert_atTop :
    let stored := (atTop.perform (.storeRegisters 15)).state
    let filled := { stored with v := Registers.zero, i := 0xFF0 }.perform (.fillRegisters 15)
    let half := (atTop.perform (.storeRegisters 7)).state
    let other := { half with v := Registers.zero.set 7 0xB7 }.perform (.storeRegisters 7)
    stored.i.toNat = 0x1000 ∧ filled.result = .ok .proceed ∧ filled.state.v.get 15 = 0xAF ∧
      (atTop.perform (.storeRegisters 7)).result = .ok .proceed ∧
      other.state.memory.bytes[0xFF0]? = some 0xA0 ∧
      other.state.memory.bytes[0xFFF]? = some 0xB7 := by
  intro stored filled half other
  obtain ⟨htransfer, hrestore, -, -⟩ := transfers_invert atTop (show 15 < 16 by decide)
  obtain ⟨-, hindex, -⟩ := htransfer (.storeRegisters 15) (.inl rfl)
  obtain ⟨hresult, hregisters⟩ := hrestore (by decide +kernel)
    { stored with v := Registers.zero, i := 0xFF0 } rfl rfl
  obtain ⟨htransfer', -, -, hadjacent⟩ := transfers_invert atTop (show 7 < 16 by decide)
  obtain ⟨-, hbytes⟩ := hadjacent rfl 7 (by decide) (by decide +kernel)
    { half with v := Registers.zero.set 7 0xB7 } rfl rfl
  refine ⟨?_, hresult, ?_, (htransfer' _ (.inl rfl)).1.2 (by decide +kernel), ?_, ?_⟩
  · exact hindex.trans (by decide +kernel)
  · exact (hregisters 15).trans (by decide +kernel)
  · exact (hbytes 0xFF0).trans (by decide +kernel)
  · exact (hbytes 0xFFF).trans (by decide +kernel)

end Machine
end Chip8
