import Chip8.Proofs.Disassembly
import Chip8.Proofs.Lists
import Chip8.Record

/-!
# No two messages are the same

A log is a list of sentences, and so is what a user sees of a fault.  Nothing is lost by that: no two
causes of failure have the same sentence, and no two records, whatever the values in them are.

Each sentence opens with letters that tell what it is about, and the phrase behind a number never
begins with a digit.  So the numbers in a sentence are found again, one after the other, and the text
of an instruction, which comes last, is read back as in `Chip8.Proofs.Disassembly`.

## What is here

* `append_phrase_inj`, `Numeral.markedHexString_append_inj`, `Numeral.decimalString_append_inj` —
  words and numbers, told apart from the phrase behind them.
* `Fault.message_inj`, `Fault.cycleMessage_inj` — the sentences of faults.
* `Record.message_inj` — the sentences of records.
-/

set_option autoImplicit false

namespace Chip8

open Numeral

/-! ## Numbers in sentences -/

section phrases

variable {phrase t t' : String} {c : Char} {cs : List Char}

/-- Words end where a phrase begins whose first character they do not contain. -/
theorem append_phrase_inj {s s' : String} (hphrase : phrase.toList = c :: cs) (hs : c ∉ s.toList)
    (hs' : c ∉ s'.toList) (h : s ++ (phrase ++ t) = s' ++ (phrase ++ t')) : s = s' ∧ t = t' := by
  have hchars := congrArg String.toList h
  simp only [String.toList_append, hphrase, List.cons_append] at hchars
  obtain ⟨hword, hrest⟩ := Lists.append_cons_inj hs hs' hchars
  exact ⟨String.toList_inj.1 hword, String.toList_inj.1 (List.append_cancel_left hrest)⟩

theorem Numeral.markedHexString_append_inj {width m n : Nat} (hphrase : phrase.toList = c :: cs)
    (hc : ∀ d < 16, digitChar d ≠ c) (hx : c ≠ 'x')
    (h : markedHexString width m ++ (phrase ++ t) = markedHexString width n ++ (phrase ++ t')) :
    m = n ∧ t = t' := by
  have hnumber (k : Nat) : c ∉ (markedHexString width k).toList := by
    rw [markedHexString, String.toList_ofList]
    exact notMem_markedHex hc hx width k
  obtain ⟨hword, hrest⟩ := append_phrase_inj hphrase (hnumber m) (hnumber n) h
  exact ⟨markedHexString_inj.1 hword, hrest⟩

theorem Numeral.decimalString_append_inj {m n : Nat} (hphrase : phrase.toList = c :: cs)
    (hc : ∀ d < 10, digitChar d ≠ c)
    (h : decimalString m ++ (phrase ++ t) = decimalString n ++ (phrase ++ t')) :
    m = n ∧ t = t' := by
  have hnumber (k : Nat) : c ∉ (decimalString k).toList := by
    rw [decimalString, String.toList_ofList]
    exact notMem_decimal hc k
  obtain ⟨hword, hrest⟩ := append_phrase_inj hphrase (hnumber m) (hnumber n) h
  exact ⟨decimalString_inj.1 hword, hrest⟩

end phrases

/-! ## Faults -/

namespace Fault

/-- The first two letters of a sentence. -/
def opening : Fault → List Char
  | invalidOpcode _ => ['A', 'n']
  | stackEmpty => ['S', 't']
  | addressOutOfBounds _ _ => ['A', 'd']
  | romTooLarge _ _ _ => ['A', ' ']
  | pixelOutOfBounds _ _ => ['P', 'i']

theorem take_message (f : Fault) : f.message.toList.take 2 = f.opening := by
  cases f with
  | stackEmpty => rfl
  | _ =>
    unfold message
    simp only [String.toList_append]
    rfl

theorem eq_of_message_invalidOpcode {w w' : Opcode}
    (h : (invalidOpcode w).message = (invalidOpcode w').message) : w = w' := by
  unfold message at h
  simp only [String.append_right_inj, String.append_left_inj] at h
  exact Opcode.toNat_inj.1 (markedHexString_inj.1 h)

theorem eq_of_message_addressOutOfBounds {address size address' size' : Nat}
    (h : (addressOutOfBounds address size).message = (addressOutOfBounds address' size').message) :
    address = address' ∧ size = size' := by
  unfold message at h
  simp only [String.append_assoc, String.append_right_inj] at h
  obtain ⟨haddress, hrest⟩ := markedHexString_append_inj rfl (by decide) (by decide) h
  exact ⟨haddress, decimalString_inj.1 ((String.append_left_inj _).1 hrest)⟩

theorem eq_of_message_romTooLarge {offset length capacity offset' length' capacity' : Nat}
    (h : (romTooLarge offset length capacity).message =
      (romTooLarge offset' length' capacity').message) :
    offset = offset' ∧ length = length' ∧ capacity = capacity' := by
  unfold message at h
  simp only [String.append_assoc, String.append_right_inj] at h
  obtain ⟨hlength, hrest⟩ := decimalString_append_inj rfl (by decide) h
  obtain ⟨hoffset, hlast⟩ := markedHexString_append_inj rfl (by decide) (by decide) hrest
  exact ⟨hoffset, hlength, decimalString_inj.1 ((String.append_left_inj _).1 hlast)⟩

theorem eq_of_message_pixelOutOfBounds {index count index' count' : Nat}
    (h : (pixelOutOfBounds index count).message = (pixelOutOfBounds index' count').message) :
    index = index' ∧ count = count' := by
  unfold message at h
  simp only [String.append_assoc, String.append_right_inj] at h
  obtain ⟨hindex, hrest⟩ := decimalString_append_inj rfl (by decide) h
  exact ⟨hindex, decimalString_inj.1 ((String.append_left_inj _).1 hrest)⟩

/-- **No two causes have the same sentence.** -/
theorem message_inj {f g : Fault} : f.message = g.message ↔ f = g := by
  refine ⟨fun h => ?_, congrArg message⟩
  have hopening : f.opening = g.opening := by rw [← take_message, h, take_message]
  cases f with
  | invalidOpcode w =>
    cases g with
    | invalidOpcode w' => rw [eq_of_message_invalidOpcode h]
    | _ => simp [opening] at hopening
  | stackEmpty =>
    cases g with
    | stackEmpty => rfl
    | _ => simp [opening] at hopening
  | addressOutOfBounds address size =>
    cases g with
    | addressOutOfBounds address' size' =>
      obtain ⟨haddress, hsize⟩ := eq_of_message_addressOutOfBounds h
      rw [haddress, hsize]
    | _ => simp [opening] at hopening
  | romTooLarge offset length capacity =>
    cases g with
    | romTooLarge offset' length' capacity' =>
      obtain ⟨hoffset, hlength, hcapacity⟩ := eq_of_message_romTooLarge h
      rw [hoffset, hlength, hcapacity]
    | _ => simp [opening] at hopening
  | pixelOutOfBounds index count =>
    cases g with
    | pixelOutOfBounds index' count' =>
      obtain ⟨hindex, hcount⟩ := eq_of_message_pixelOutOfBounds h
      rw [hindex, hcount]
    | _ => simp [opening] at hopening

/-- The first nine letters of an introduction tell the area. -/
theorem Area.eq_of_take_introduction {a b : Area}
    (h : a.introduction.toList.take 9 = b.introduction.toList.take 9) : a = b := by
  cases a <;> cases b <;> first | rfl | exact absurd h (by decide)

theorem take_cycleMessage (f : Fault) :
    f.cycleMessage.toList.take 9 = f.area.introduction.toList.take 9 := by
  unfold cycleMessage
  simp only [String.toList_append]
  cases f.area <;> rfl

/-- **No two causes have the same sentence** when it is a whole cycle that fails. -/
theorem cycleMessage_inj {f g : Fault} : f.cycleMessage = g.cycleMessage ↔ f = g := by
  refine ⟨fun h => ?_, congrArg cycleMessage⟩
  have harea : f.area = g.area := by
    refine Area.eq_of_take_introduction ?_
    rw [← take_cycleMessage, h, take_cycleMessage]
  unfold cycleMessage at h
  rw [harea] at h
  simp only [String.append_assoc, String.append_right_inj, String.append_left_inj] at h
  exact message_inj.1 h

end Fault

/-! ## Records -/

namespace Record

/-- The first two letters of a sentence. -/
def opening : Record → List Char
  | loaded _ _ => ['l', 'o']
  | unmappedKey _ => ['i', 'g']
  | running _ _ _ => ['0', 'x']
  | returned _ => ['r', 'e']
  | beep => ['b', 'e']
  | runnerStarted | runnerStopped => ['r', 'u']
  | halted _ _ _ => ['h', 'a']
  | threadPanicked => ['T', 'h']

theorem take_message (r : Record) : r.message.toList.take 2 = r.opening := by
  cases r with
  | beep | runnerStarted | runnerStopped | threadPanicked => rfl
  | running =>
    unfold message
    simp only [String.toList_append, markedHexString, String.toList_ofList]
    rfl
  | _ =>
    unfold message
    simp only [String.toList_append]
    rfl

theorem eq_of_message_loaded {count offset count' offset' : Nat}
    (h : (loaded count offset).message = (loaded count' offset').message) :
    count = count' ∧ offset = offset' := by
  unfold message at h
  simp only [String.append_assoc, String.append_right_inj] at h
  obtain ⟨hcount, hrest⟩ := decimalString_append_inj rfl (by decide) h
  exact ⟨hcount, markedHexString_inj.1 hrest⟩

theorem eq_of_message_unmappedKey {code code' : UInt8}
    (h : (unmappedKey code).message = (unmappedKey code').message) : code = code' := by
  unfold message at h
  simp only [String.append_right_inj] at h
  exact UInt8.toNat_inj.1 (markedHexString_inj.1 h)

/-- The text of an instruction comes last, so it need not be told apart from anything. -/
theorem eq_of_message_running {pc pc' : UInt16} {w w' : Opcode} {i i' : Instruction}
    (h : (running pc w i).message = (running pc' w' i').message) : pc = pc' ∧ w = w' ∧ i = i' := by
  unfold message at h
  simp only [String.append_assoc] at h
  obtain ⟨hpc, hrest⟩ := markedHexString_append_inj rfl (by decide) (by decide) h
  obtain ⟨hword, htext⟩ := markedHexString_append_inj rfl (by decide) (by decide) hrest
  exact ⟨UInt16.toNat_inj.1 hpc, Opcode.toNat_inj.1 hword, Instruction.text_inj.1 htext⟩

theorem eq_of_message_returned {target target' : UInt16}
    (h : (returned target).message = (returned target').message) : target = target' := by
  unfold message at h
  simp only [String.append_right_inj] at h
  exact UInt16.toNat_inj.1 (markedHexString_inj.1 h)

theorem eq_of_message_halted {pc pc' : UInt16} {w w' : Opcode} {f f' : Fault}
    (h : (halted pc w f).message = (halted pc' w' f').message) : pc = pc' ∧ w = w' ∧ f = f' := by
  unfold message at h
  simp only [String.append_assoc, String.append_right_inj] at h
  obtain ⟨hpc, hrest⟩ := markedHexString_append_inj rfl (by decide) (by decide) h
  obtain ⟨hword, hfault⟩ := markedHexString_append_inj rfl (by decide) (by decide) hrest
  exact ⟨UInt16.toNat_inj.1 hpc, Opcode.toNat_inj.1 hword, Fault.cycleMessage_inj.1 hfault⟩

/-- **No two records have the same sentence.** -/
theorem message_inj {r s : Record} : r.message = s.message ↔ r = s := by
  refine ⟨fun h => ?_, congrArg message⟩
  have hopening : r.opening = s.opening := by rw [← take_message, h, take_message]
  cases r with
  | loaded count offset =>
    cases s with
    | loaded count' offset' =>
      obtain ⟨hcount, hoffset⟩ := eq_of_message_loaded h
      rw [hcount, hoffset]
    | _ => simp [opening] at hopening
  | unmappedKey code =>
    cases s with
    | unmappedKey code' => rw [eq_of_message_unmappedKey h]
    | _ => simp [opening] at hopening
  | running pc w i =>
    cases s with
    | running pc' w' i' =>
      obtain ⟨hpc, hword, hinstruction⟩ := eq_of_message_running h
      rw [hpc, hword, hinstruction]
    | _ => simp [opening] at hopening
  | returned target =>
    cases s with
    | returned target' => rw [eq_of_message_returned h]
    | _ => simp [opening] at hopening
  | beep =>
    cases s with
    | beep => rfl
    | _ => simp [opening] at hopening
  | runnerStarted =>
    cases s with
    | runnerStarted => rfl
    | runnerStopped => exact absurd h (by decide)
    | _ => simp [opening] at hopening
  | runnerStopped =>
    cases s with
    | runnerStarted => exact absurd h (by decide)
    | runnerStopped => rfl
    | _ => simp [opening] at hopening
  | halted pc w f =>
    cases s with
    | halted pc' w' f' =>
      obtain ⟨hpc, hword, hfault⟩ := eq_of_message_halted h
      rw [hpc, hword, hfault]
    | _ => simp [opening] at hopening
  | threadPanicked =>
    cases s with
    | threadPanicked => rfl
    | _ => simp [opening] at hopening

end Record
end Chip8
