import Chip8.Proofs.Run.Background

/-!
# The order of background events

When a timer ticks or a key moves is not up to the program, and for the most part it makes no
difference to it.  This file says what part of the order of events does make a difference.  An event
concerns some of the orders that are kept track of (`Entry.concerns`): there is one for each
peripheral, with the events of that peripheral and the cycles that have to do with it, and one more
for everything that is no background event.  Programs that are loaded, the power switch and sound
outputs that are attached concern all of them.

A list of events may be put into any other order that agrees with the first one in each of these
(`Rearranges`).  The machine at the end is the same then, and so is all that is seen of each event.
The condition is about one run alone.  The other run is not looked at: that its cycles fetch the same
words comes out of the proof, which takes the events of the first run one by one and moves each to
its place in the second, past events that it can change places with (`move_behind`).

## What is here

* `Machine.course` — what is seen of each event of a run.
* `Machine.Entry.concerns`, `Machine.Rearranges` — the orders that count.
* `Machine.commute_of_apart` — events that concern no common order.
* `Machine.course_rearranged` — a run in another order.
* `Machine.background_order` — one cycle, and a run.
-/

set_option autoImplicit false

namespace Chip8
namespace Machine

/-! ## The orders that count -/

/-- What is seen of each event of a run. -/
def course (m : Machine) : List Event → List Entry
  | [] => []
  | e :: es => m.entry e :: (m.handle e).state.course es

namespace Entry

/-- Whether an event concerns the order of a peripheral, or (`none`) the order of all that is no
background event.  A cycle concerns a peripheral if its word has to do with it. -/
def concerns (x : Entry) : Option Peripheral → Bool
  | none => x.event.peripheral?.isNone
  | some p =>
    match x.event with
    | .cycle => x.word.any fun w => w.uses p
    | .load _ | .reset | .attach _ => true
    | e => e.peripheral? = some p

/-- Two events concern no common order. -/
def Apart (x y : Entry) : Prop := ∀ g, ¬ (x.concerns g = true ∧ y.concerns g = true)

instance (x y : Entry) : Decidable (x.Apart y) :=
  decidable_of_iff
    (∀ g ∈ [none, some Peripheral.delay, some .sound, some .keys],
      ¬ (x.concerns g = true ∧ y.concerns g = true))
    ⟨fun h g => h g (by rcases g with - | - | - | - <;> simp), fun h g _ => h g⟩

/-- Every event concerns some order. -/
theorem exists_concerns (x : Entry) : ∃ g, x.concerns g = true := by
  cases hx : x.event.peripheral? with
  | none => exact ⟨none, by simp [concerns, hx]⟩
  | some p =>
    refine ⟨some p, ?_⟩
    rw [concerns]
    split
    next hevent => rw [hevent] at hx; cases hx
    next => rfl
    next => rfl
    next => rfl
    next => exact decide_eq_true hx

end Entry

/-- **The entries of one list in another order**, which is the same as far as it counts. -/
def Rearranges (ks ls : List Entry) : Prop :=
  ∀ g, ks.filter (·.concerns g) = ls.filter (·.concerns g)

variable {m : Machine} {e f : Event} {x : Entry} {ks ls : List Entry}

theorem eq_nil_of_rearranges (h : Rearranges ks []) : ks = [] := by
  rw [List.eq_nil_iff_forall_not_mem]
  intro y hy
  obtain ⟨g, hg⟩ := y.exists_concerns
  have hnone : ks.filter (·.concerns g) = [] := h g
  rw [List.filter_eq_nil_iff] at hnone
  exact hnone y hy hg

/-- Events apart from one that concerns an order do not concern it. -/
theorem filter_concerns_of_apart {g : Option Peripheral} (hg : x.concerns g = true)
    (h : ∀ y ∈ ks, x.Apart y) : ks.filter (·.concerns g) = [] := by
  rw [List.filter_eq_nil_iff]
  exact fun y hy hyg => h y hy g ⟨hg, hyg⟩

/-- The first event of a list is found in any other order, behind events that are apart from it. -/
theorem exists_of_rearranges_cons (h : Rearranges ks (x :: ls)) :
    ∃ before behind, ks = before ++ x :: behind ∧ ∀ y ∈ before, x.Apart y := by
  have hbefore : ∀ y ∈ ks.takeWhile (x.Apart ·), x.Apart y := by
    intro y hy
    simpa using List.all_eq_true.1 List.all_takeWhile y hy
  have hks := List.takeWhile_append_dropWhile (p := (x.Apart ·)) (l := ks)
  cases hrest : ks.dropWhile (x.Apart ·) with
  | nil =>
    obtain ⟨g, hg⟩ := x.exists_concerns
    rw [hrest, List.append_nil] at hks
    have hnone := filter_concerns_of_apart hg (hks ▸ hbefore)
    rw [h g] at hnone
    simp [hg] at hnone
  | cons y behind =>
    have hy : ¬ x.Apart y := by
      have := List.head?_dropWhile_not (x.Apart ·) ks
      rw [hrest] at this
      simpa using this
    obtain ⟨g, hg⟩ : ∃ g, x.concerns g = true ∧ y.concerns g = true := by
      simpa [Entry.Apart] using hy
    -- the first event of `ks` that concerns this order can only be `x`
    have hfirst := h g
    rw [← hks, hrest, List.filter_append, filter_concerns_of_apart hg.1 hbefore,
      List.nil_append, List.filter_cons, if_pos hg.2, List.filter_cons, if_pos hg.1] at hfirst
    obtain rfl := (List.cons.inj hfirst).1
    exact ⟨_, behind, by rw [← hrest, hks], hbefore⟩

/-- Without that event the rest is the rest of the other list, in another order. -/
theorem Rearranges.tail {before behind : List Entry}
    (h : Rearranges (before ++ x :: behind) (x :: ls)) (hx : ∀ y ∈ before, x.Apart y) :
    Rearranges (before ++ behind) ls := by
  intro g
  have hg := h g
  rw [List.filter_append] at hg ⊢
  cases hconcerns : x.concerns g with
  | true =>
    rw [filter_concerns_of_apart hconcerns hx] at hg ⊢
    simpa [hconcerns] using hg
  | false => simpa [hconcerns] using hg

/-! ## Moving an event to its place -/

/-- An event of a peripheral concerns its order. -/
theorem concerns_of_peripheral (m : Machine) {p : Peripheral} (he : e.peripheral? = some p) :
    (m.entry e).concerns (some p) = true := by
  cases e with
  | tickDelay | tickSound | pollSpeaker | setKey | setKeys => exact decide_eq_true he
  | load | reset | attach | cycle => cases he

/-- What is no background event is a cycle, unless it concerns every order. -/
theorem eq_cycle_of_not_concerns {p : Peripheral} (he : e.peripheral? = none)
    (h : (m.entry e).concerns (some p) ≠ true) :
    e = .cycle ∧ ∀ w, m.fetch = .ok w → w.uses p = false := by
  cases e with
  | cycle =>
    refine ⟨rfl, fun w hw => ?_⟩
    change ((m.fetch.toOption).any fun w => w.uses p) ≠ true at h
    rw [hw] at h
    exact Bool.eq_false_iff.2 h
  | load | reset | attach => exact absurd rfl h
  | tickDelay | tickSound | pollSpeaker | setKey | setKeys => cases he

/-- **Events that are apart can change places.** -/
theorem commute_of_apart (h : (m.entry e).Apart ((m.handle e).state.entry f)) : m.Commute e f := by
  cases he : e.peripheral? with
  | none =>
    cases hf : f.peripheral? with
    | none => exact absurd ⟨congrArg Option.isNone he, congrArg Option.isNone hf⟩ (h none)
    | some q =>
      have hq : (m.entry e).concerns (some q) ≠ true := fun hq =>
        h (some q) ⟨hq, concerns_of_peripheral _ hf⟩
      obtain ⟨rfl, hw⟩ := eq_cycle_of_not_concerns he hq
      exact (commute_cycle hf hw).symm
  | some p =>
    have hp : ((m.handle e).state.entry f).concerns (some p) ≠ true := fun hp =>
      h (some p) ⟨concerns_of_peripheral _ he, hp⟩
    cases hf : f.peripheral? with
    | none =>
      obtain ⟨rfl, hw⟩ := eq_cycle_of_not_concerns hf hp
      rw [fetch_congr (core_handle he)] at hw
      exact commute_cycle he hw
    | some q =>
      refine commute_background he hf ?_
      rintro rfl
      exact hp (concerns_of_peripheral _ hf)

/-- **An event moves to a later place**, past events that are apart from it. -/
theorem move_behind {before : List Entry} (behind : List Entry)
    (h : ∀ y ∈ before, (m.entry e).Apart y)
    (hcourse : (m.handle e).state.course ((before ++ behind).map Entry.event) = before ++ behind) :
    m.course ((before ++ m.entry e :: behind).map Entry.event) = before ++ m.entry e :: behind ∧
      (m.run ((before ++ m.entry e :: behind).map Entry.event)).state =
        ((m.handle e).state.run ((before ++ behind).map Entry.event)).state := by
  induction before generalizing m with
  | nil =>
    simp only [List.nil_append] at hcourse
    simp only [List.nil_append, List.map_cons, course]
    exact ⟨congrArg _ hcourse, rfl⟩
  | cons y before ih =>
    simp only [List.cons_append, List.map_cons, course, List.cons.injEq] at hcourse ⊢
    obtain ⟨hy, hrest⟩ := hcourse
    have hcommute : m.Commute e y.event := commute_of_apart (hy ▸ h y List.mem_cons_self)
    have hfirst : m.entry y.event = y := hcommute.right.symm.trans hy
    have hlast : (m.handle y.event).state.entry e = m.entry e := hcommute.left
    -- the event goes on moving from behind `y`, where it is seen to do the same
    rw [hcommute.state] at hrest
    obtain ⟨hmoved, hstate⟩ := ih (fun z hz => hlast ▸ h z (List.mem_cons_of_mem y hz)) hrest
    rw [hlast] at hmoved hstate
    refine ⟨⟨hfirst, hmoved⟩, ?_⟩
    change ((m.handle y.event).state.run _).state =
      (((m.handle e).state.handle y.event).state.run _).state
    rw [hcommute.state, hstate]

/-! ## Runs -/

/-- **A run in another order** that is the same as far as it counts: the same is seen of every event,
and the machine is the same in the end. -/
theorem course_rearranged {es : List Event} (h : Rearranges ks (m.course es)) :
    m.course (ks.map Entry.event) = ks ∧
      (m.run (ks.map Entry.event)).state = (m.run es).state := by
  induction es generalizing m ks with
  | nil =>
    obtain rfl := eq_nil_of_rearranges h
    exact ⟨rfl, rfl⟩
  | cons e es ih =>
    obtain ⟨before, behind, rfl, hbefore⟩ := exists_of_rearranges_cons h
    obtain ⟨hcourse, hstate⟩ := ih (h.tail hbefore)
    obtain ⟨hmoved, hsame⟩ := move_behind behind hbefore hcourse
    exact ⟨hmoved, hsame.trans hstate⟩

/-- **The order of background events.**  A tick of a timer, a poll of a speaker or a move of keys can
come before a cycle or after it, whatever the machine is and whether the cycle succeeds or fails,
unless the word that is fetched has to do with the delay timer, with the sound timer or with the keys
in turn: either way the cycle has the same answer, both make the same records, and the same machine
is left.  So for any run, only its order relative to such cycles counts.  Put the events into another
order, in which the background events of each peripheral and the cycles that have to do with it stand
as before, and so does all that is no background event: then every event has the same answer, every
cycle fetches the same word, and the same machine is left. -/
theorem background_order (m : Machine) :
    (∀ e p, e.peripheral? = some p → (∀ w, m.fetch = .ok w → w.uses p = false) →
      m.Commute e .cycle) ∧
    ∀ es ks, Rearranges ks (m.course es) →
      m.course (ks.map Entry.event) = ks ∧
        (m.run (ks.map Entry.event)).state = (m.run es).state :=
  ⟨fun _ _ he hw => commute_cycle he hw, fun _ _ h => course_rearranged h⟩

/-- A machine that is about to point the index register at `0x300` and to read the delay timer, which
stands at five. -/
@[irreducible]
def counting : Machine :=
  (((new default default none).load
    [0x61, 0x05, 0xF1, 0x15, 0xA3, 0x00, 0xF0, 0x07]).state.cycles 2).state

theorem background_order_counting :
    let es := [Event.cycle, .tickDelay, .setKey 16 true, .cycle]
    let fs := [Event.setKey 16 true, .tickDelay, .cycle, .cycle]
    counting.Commute .tickDelay .cycle ∧
      (∃ ks, Rearranges ks (counting.course es) ∧ ks.map Entry.event = fs ∧
        counting.course fs = ks) ∧
      (counting.run fs).state = (counting.run es).state ∧
      (counting.run es).state.v.get 0 = 4 := by
  intro es fs
  obtain ⟨hcycle, hrun⟩ := background_order counting
  let tick := (counting.run [.cycle]).state.entry .tickDelay
  let key := (counting.run [.cycle, .tickDelay]).state.entry (.setKey 16 true)
  let before := (counting.run [.cycle, .tickDelay, .setKey 16 true]).state
  let ks := [key, tick, counting.entry .cycle, before.entry .cycle]
  have hword : counting.fetch.toOption = some ⟨0xA300⟩ := by decide +kernel
  have hlast : before.fetch.toOption = some ⟨0xF007⟩ := by decide +kernel
  have hcommute : counting.Commute .tickDelay .cycle := by
    refine hcycle _ .delay rfl fun w hw => ?_
    rw [hw] at hword
    obtain rfl := Option.some.inj hword
    rfl
  have hks : Rearranges ks (counting.course es) := by
    intro g
    change List.filter _ [key, tick, counting.entry .cycle, before.entry .cycle] =
      List.filter _ [counting.entry .cycle, tick, key, before.entry .cycle]
    rcases g with - | - | - | - <;>
      simp [Entry.concerns, entry, tick, key, hword, hlast, Event.peripheral?, Opcode.uses,
        Opcode.kind, Opcode.nn, Opcode.toNat]
  obtain ⟨hcourse, hstate⟩ := hrun es ks hks
  exact ⟨hcommute, ⟨ks, hks, rfl, hcourse⟩, hstate, by decide +kernel⟩

end Machine
end Chip8
