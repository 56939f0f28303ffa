import Chip8.Timer.Basic
import Mathlib.Algebra.Ring.Nat

/-!
# Values that are polled

A value is set, counted down and polled by parties that know nothing of each other, in any order.
Whoever polls it takes it away, and beeps if there was anything to take.  What the value is at any
time depends on the order of these steps only (`level`), and so does whether a poll beeps: all that
counts is when the value was last set, and what came after that (`Up`).

`Polled` is a system with such a value, whatever else the system does.  The beeps of its runs can be
accounted for (`Polled.accounted`).

## What is here

* `PollStep`, `level`, `Up` — steps on a value, and when it is not zero.
* `Polled`, `Polled.run`, `Polled.steps` — systems with such a value, their runs, and the steps of a
  run.
* `Polled.Accounted`, `Polled.accounted` — which polls of a run beep, and why others do not.
-/

set_option autoImplicit false

namespace Chip8

/-! ## Steps on a value -/

/-- A step on a value that is polled. -/
inductive PollStep
  | set (value : UInt8)
  /-- The value is counted down. -/
  | count
  /-- The value is polled by the speaker with this number. -/
  | poll (speaker : Nat)
deriving DecidableEq

namespace PollStep

/-- The value after a step. -/
def advance (value : UInt8) : PollStep → UInt8
  | set v => v
  | count => countDown value
  | poll _ => 0

/-- How many beeps are due: one if there is anything to take. -/
def due (value : UInt8) : Nat := if value = 0 then 0 else 1

theorem due_le (value : UInt8) : due value ≤ 1 := by
  rw [due]
  split <;> decide

/-- How many beeps a step makes. -/
def beeps (value : UInt8) : PollStep → Nat
  | poll _ => due value
  | _ => 0

def isPoll : PollStep → Bool
  | poll _ => true
  | _ => false

/-- The value is set to something else than zero. -/
def raises : PollStep → Bool
  | set v => v ≠ 0
  | _ => false

/-- A beep takes away what was due, and nothing is due again until the value is raised. -/
theorem beeps_add_due_le (p : PollStep) (value : UInt8) :
    p.beeps value + due (p.advance value) ≤ due value + if p.raises then 1 else 0 := by
  cases p with
  | set v =>
    by_cases hv : v = 0
    · simp [beeps, due, advance, hv]
    · simp [beeps, due, advance, raises, hv]
  | count =>
    by_cases hvalue : value = 0
    · rw [hvalue]
      decide
    · have hdue : due value = 1 := if_neg hvalue
      have hle := due_le (countDown value)
      change 0 + due (countDown value) ≤ due value + 0
      omega
  | poll k => exact Nat.le_refl _

end PollStep

/-- The value after a list of steps. -/
def level (value : UInt8) (steps : List PollStep) : UInt8 := steps.foldl PollStep.advance value

/-- **The value is up** after some steps: since it was last set, nobody has polled it, and it has not
been counted down as often as it was set to. -/
def Up (past : List PollStep) : Prop :=
  ∃ before v since, past = before ++ .set v :: since ∧ (∀ w, .set w ∉ since) ∧
    (∀ k, .poll k ∉ since) ∧ since.count .count < v.toNat

section steps

variable {past steps : List PollStep}

theorem level_append (value : UInt8) (past steps : List PollStep) :
    level value (past ++ steps) = level (level value past) steps :=
  List.foldl_append

/-- Some of a value that is not set again is left, unless it is polled or counted down to zero. -/
theorem level_ne_zero_iff (value : UInt8) (hset : ∀ w, .set w ∉ steps) :
    level value steps ≠ 0 ↔ (∀ k, .poll k ∉ steps) ∧ steps.count .count < value.toNat := by
  induction steps generalizing value with
  | nil =>
    have hzero : value = 0 ↔ value.toNat = 0 := UInt8.toNat_inj.symm
    simp [level, hzero, Nat.pos_iff_ne_zero]
  | cons s steps ih =>
    have hrest : ∀ w, .set w ∉ steps := fun w hw => hset w (List.mem_cons_of_mem s hw)
    cases s with
    | set w => exact absurd List.mem_cons_self (hset w)
    | count =>
      change level (countDown value) steps ≠ 0 ↔ _
      rw [ih _ hrest, toNat_countDown, List.count_cons_self, Nat.lt_sub_iff_add_lt]
      simp
    | poll k =>
      refine iff_of_false (fun h => ?_) fun h => h.1 k List.mem_cons_self
      exact Nat.not_lt_zero _ ((ih _ hrest).1 h).2

/-- Unless a value was never set, there is a last time. -/
theorem exists_last_set (past : List PollStep) :
    (∀ w, .set w ∉ past) ∨
      ∃ before v since, past = before ++ .set v :: since ∧ ∀ w, .set w ∉ since := by
  induction past with
  | nil => exact .inl fun w => List.not_mem_nil
  | cons s past ih =>
    obtain hnone | ⟨before, v, since, rfl, hsince⟩ := ih
    · cases s with
      | set v => exact .inr ⟨[], v, past, rfl, hnone⟩
      | count | poll => exact .inl fun w hw => hnone w (by simpa using hw)
    · exact .inr ⟨s :: before, v, since, rfl, hsince⟩

/-- **When a value that was zero at first is not zero.** -/
theorem level_ne_zero_iff_up : level 0 past ≠ 0 ↔ Up past := by
  constructor
  · intro h
    obtain hnone | ⟨before, v, since, rfl, hset⟩ := exists_last_set past
    · exact absurd ((level_ne_zero_iff 0 hnone).1 h).2 (Nat.not_lt_zero _)
    · rw [level_append] at h
      obtain ⟨hpoll, hcount⟩ := (level_ne_zero_iff v hset).1 h
      exact ⟨before, v, since, rfl, hset, hpoll, hcount⟩
  · rintro ⟨before, v, since, rfl, hset, hpoll, hcount⟩
    rw [level_append]
    exact (level_ne_zero_iff v hset).2 ⟨hpoll, hcount⟩

/-- What is zero stays zero until it is set to something else. -/
theorem level_zero (h : ∀ v, .set v ∈ steps → v = 0) : level 0 steps = 0 := by
  induction steps with
  | nil => rfl
  | cons s steps ih =>
    have hrest := ih fun v hv => h v (List.mem_cons_of_mem s hv)
    cases s with
    | set v =>
      rw [h v List.mem_cons_self]
      exact hrest
    | count | poll => exact hrest

/-- Steps with a poll among them begin with those before the first one. -/
theorem exists_first_poll {k : Nat} (h : .poll k ∈ steps) :
    ∃ j rest, steps = steps.takeWhile (!·.isPoll) ++ .poll j :: rest := by
  induction steps with
  | nil => cases h
  | cons s steps ih =>
    cases s with
    | poll j => exact ⟨j, steps, rfl⟩
    | set | count =>
      obtain ⟨j, rest, heq⟩ := ih (by simpa using h)
      exact ⟨j, rest, congrArg (List.cons _) heq⟩

theorem takeWhile_append_poll {k : Nat} (rest : List PollStep) (h : ∀ j, .poll j ∉ steps) :
    (steps ++ .poll k :: rest).takeWhile (!·.isPoll) = steps := by
  have hsteps : ∀ s ∈ steps, (!s.isPoll) = true := by
    intro s hs
    cases s with
    | poll j => exact absurd hs (h j)
    | set | count => rfl
  rw [List.takeWhile_append_of_pos hsteps, List.takeWhile_cons_of_neg (by simp [PollStep.isPoll]),
    List.append_nil]

theorem not_poll_mem_takeWhile (k : Nat) : .poll k ∉ steps.takeWhile (!·.isPoll) := by
  intro h
  have := List.all_eq_true.1 List.all_takeWhile _ h
  cases this

end steps

/-! ## Systems -/

/-- **A system with a value that speakers poll.**  An event makes at most one step on the value, and
it says which speaker polls. -/
structure Polled (σ ε : Type) where
  handle : σ → ε → σ
  value : σ → UInt8
  /-- How often each speaker has beeped. -/
  beeps : σ → List Nat
  step? : σ → ε → Option PollStep
  value_handle : ∀ s e, value (handle s e) = (step? s e).elim (value s) (·.advance (value s))
  beeps_of_poll : ∀ s e k, step? s e = some (.poll k) → k < (beeps s).length ∧
    beeps (handle s e) = (beeps s).modify k (· + PollStep.due (value s))
  sum_beeps : ∀ s e, (∀ k, step? s e ≠ some (.poll k)) →
    (beeps (handle s e)).sum = (beeps s).sum

namespace Polled

variable {σ ε : Type} (c : Polled σ ε)

/-- What a list of events does. -/
def run (s : σ) (es : List ε) : σ := es.foldl c.handle s

/-- The steps on the value in the course of a run. -/
def steps (s : σ) : List ε → List PollStep
  | [] => []
  | e :: es => (c.step? s e).toList ++ steps (c.handle s e) es

/-- The steps of a run before the first poll. -/
def ahead (s : σ) (es : List ε) : List PollStep := (c.steps s es).takeWhile (!·.isPoll)

/-- How often all speakers together have beeped. -/
def total (s : σ) : Nat := (c.beeps s).sum

/-- An event makes a speaker beep. -/
def Beeps (s : σ) (e : ε) : Prop := c.total s < c.total (c.handle s e)

theorem run_append (s : σ) (ds es : List ε) : c.run s (ds ++ es) = c.run (c.run s ds) es :=
  List.foldl_append

theorem steps_append (s : σ) (ds es : List ε) :
    c.steps s (ds ++ es) = c.steps s ds ++ c.steps (c.run s ds) es := by
  induction ds generalizing s with
  | nil => rfl
  | cons d ds ih =>
    simp only [List.cons_append, steps, ih, List.append_assoc]
    rfl

/-- The value after a run comes from the steps of the run. -/
theorem value_run (s : σ) (es : List ε) :
    c.value (c.run s es) = level (c.value s) (c.steps s es) := by
  induction es generalizing s with
  | nil => rfl
  | cons e es ih =>
    change c.value (c.run (c.handle s e) es) = _
    rw [ih, c.value_handle, steps, level_append]
    cases c.step? s e <;> rfl

/-- Where a step on the value came from. -/
theorem exists_of_steps_eq {s : σ} {fs : List ε} {ahead rest : List PollStep} {p : PollStep}
    (h : c.steps s fs = ahead ++ p :: rest) :
    ∃ gs e hs, fs = gs ++ e :: hs ∧ c.steps s gs = ahead ∧ c.step? (c.run s gs) e = some p := by
  induction fs generalizing s ahead with
  | nil => exact absurd h (by simp [steps])
  | cons f fs ih =>
    have hgoOn : ∀ {ahead}, c.steps (c.handle s f) fs = ahead ++ p :: rest →
        ∃ gs e hs, f :: fs = gs ++ e :: hs ∧ c.steps s gs = (c.step? s f).toList ++ ahead ∧
          c.step? (c.run s gs) e = some p := by
      intro ahead h
      obtain ⟨gs, e, hs, rfl, hsteps, hstep⟩ := ih h
      exact ⟨f :: gs, e, hs, rfl, congrArg _ hsteps, hstep⟩
    rw [steps] at h
    cases hf : c.step? s f with
    | none =>
      rw [hf] at h hgoOn
      exact hgoOn h
    | some q =>
      rw [hf] at h hgoOn
      cases ahead with
      | nil =>
        obtain rfl : q = p := (List.cons.inj h).1
        exact ⟨[], f, fs, rfl, rfl, hf⟩
      | cons a ahead =>
        obtain ⟨rfl, htail⟩ := List.cons.inj h
        exact hgoOn htail

/-! ## Beeps -/

/-- The beeps that an event makes come from its step on the value. -/
theorem total_handle (s : σ) (e : ε) :
    c.total (c.handle s e) = c.total s + (c.step? s e).elim 0 (·.beeps (c.value s)) := by
  by_cases hpoll : ∃ k, c.step? s e = some (.poll k)
  · obtain ⟨k, hk⟩ := hpoll
    obtain ⟨hlt, hbeeps⟩ := c.beeps_of_poll s e k hk
    obtain ⟨former, n, later, hsplit, -, hmodify⟩ :=
      List.exists_of_modify (· + PollStep.due (c.value s)) hlt
    rw [total, hbeeps, hmodify, total, hsplit, hk]
    simp only [List.sum_append, List.sum_cons, Option.elim_some, PollStep.beeps]
    omega
  · rw [total, c.sum_beeps s e fun k hk => hpoll ⟨k, hk⟩]
    cases hstep : c.step? s e with
    | none => rfl
    | some p =>
      cases p with
      | poll k => exact absurd ⟨k, hstep⟩ hpoll
      | set | count => rfl

/-- **An event beeps if it is a poll and the value is not zero.** -/
theorem beeps_iff {s : σ} {e : ε} :
    c.Beeps s e ↔ (∃ k, c.step? s e = some (.poll k)) ∧ c.value s ≠ 0 := by
  rw [Beeps, total_handle]
  cases c.step? s e with
  | none => simp
  | some p =>
    cases p with
    | poll k =>
      by_cases hvalue : c.value s = 0 <;> simp [PollStep.beeps, PollStep.due, hvalue]
    | set | count => simp [PollStep.beeps]

/-- The last value that was set makes a speaker beep, in the course of a run. -/
def Yields (s : σ) (fs : List ε) : Prop :=
  ∃ gs e hs, fs = gs ++ e :: hs ∧ (∀ w, .set w ∉ c.steps s gs) ∧ c.Beeps (c.run s gs) e

/-- **What becomes of a value depends on what comes before the first poll.** -/
theorem yields_iff {s : σ} {fs : List ε} :
    c.Yields s fs ↔ (∀ w, .set w ∉ c.ahead s fs) ∧
      (c.ahead s fs).count .count < (c.value s).toNat ∧ ∃ k, .poll k ∈ c.steps s fs := by
  constructor
  · rintro ⟨gs, e, hs, rfl, hset, hbeeps⟩
    obtain ⟨⟨k, hk⟩, hvalue⟩ := c.beeps_iff.1 hbeeps
    rw [value_run, level_ne_zero_iff _ hset] at hvalue
    have hsteps : c.steps s (gs ++ e :: hs) =
        c.steps s gs ++ .poll k :: c.steps (c.handle (c.run s gs) e) hs := by
      rw [steps_append, steps, hk]
      rfl
    have hahead : c.ahead s (gs ++ e :: hs) = c.steps s gs := by
      rw [ahead, hsteps]
      exact takeWhile_append_poll _ hvalue.1
    rw [hahead, hsteps]
    exact ⟨hset, hvalue.2, k, by simp⟩
  · rintro ⟨hset, hcount, k, hk⟩
    obtain ⟨j, rest, hsteps⟩ := exists_first_poll hk
    obtain ⟨gs, e, hs, rfl, hgs, he⟩ := c.exists_of_steps_eq hsteps
    refine ⟨gs, e, hs, rfl, hgs ▸ hset, c.beeps_iff.2 ⟨⟨j, he⟩, ?_⟩⟩
    rw [value_run, hgs]
    refine (level_ne_zero_iff _ hset).2 ?_
    exact ⟨not_poll_mem_takeWhile, hcount⟩

/-- There are no more beeps than what was due at first, and raised values. -/
theorem total_run_le (s : σ) (es : List ε) :
    c.total (c.run s es) + PollStep.due (c.value (c.run s es)) ≤
      c.total s + PollStep.due (c.value s) + (c.steps s es).countP (·.raises) := by
  induction es generalizing s with
  | nil => exact Nat.le_refl _
  | cons e es ih =>
    refine Nat.le_trans (ih (c.handle s e)) ?_
    rw [total_handle, value_handle, steps, List.countP_append]
    cases c.step? s e with
    | none => exact Nat.le_of_eq (by simp)
    | some p =>
      have hdue := p.beeps_add_due_le (c.value s)
      simp only [Option.elim_some, Option.toList_some, List.countP_singleton]
      omega

/-! ## The account of a run -/

/-- **The beeps of every run are accounted for** that starts with a state. -/
structure Accounted (s : σ) : Prop where
  zero : c.value s = 0
  silent : c.total s = 0
  /-- A poll clears the value.  Its speaker beeps once if the value was up, and else not at all. -/
  poll : ∀ es e k, c.step? (c.run s es) e = some (.poll k) →
    let s' := c.run s es
    c.value (c.handle s' e) = 0 ∧
      (Up (c.steps s es) → c.beeps (c.handle s' e) = (c.beeps s').modify k (· + 1)) ∧
      (¬ Up (c.steps s es) → c.beeps (c.handle s' e) = c.beeps s')
  /-- Nothing else makes a speaker beep. -/
  quiet : ∀ es e, (∀ k, c.step? (c.run s es) e ≠ some (.poll k)) →
    c.total (c.handle (c.run s es) e) = c.total (c.run s es)
  /-- Between two beeps the value is set to something else than zero. -/
  separated : ∀ es e fs f, c.Beeps (c.run s es) e → c.Beeps (c.run s (es ++ e :: fs)) f →
    ∃ v, v ≠ 0 ∧ .set v ∈ c.steps (c.run s (es ++ [e])) fs
  /-- There are no more beeps than values other than zero that were set. -/
  bounded : ∀ es, c.total (c.run s es) ≤ (c.steps s es).countP (·.raises)
  /-- A value other than zero makes no speaker beep if another one is set or it is counted down to
  zero before the next poll, or there is no poll, and only then. -/
  lost : ∀ es e v fs, c.step? (c.run s es) e = some (.set v) → v ≠ 0 →
    let s' := c.run s (es ++ [e])
    ¬ c.Yields s' fs ↔ (∃ w, .set w ∈ c.ahead s' fs) ∨ v.toNat ≤ (c.ahead s' fs).count .count ∨
      ∀ k, .poll k ∉ c.steps s' fs

theorem run_snoc (s : σ) (es : List ε) (e : ε) : c.run s (es ++ [e]) = c.handle (c.run s es) e :=
  c.run_append s es [e]

/-- **The beeps are accounted for** if the value is zero at first and nobody has beeped yet. -/
theorem accounted {s : σ} (h : c.value s = 0) (hsilent : c.total s = 0) : c.Accounted s where
  zero := h
  silent := hsilent
  poll es e k hk := by
    intro s'
    have hvalue : c.value s' ≠ 0 ↔ Up (c.steps s es) := by
      rw [value_run, h]
      exact level_ne_zero_iff_up
    obtain ⟨-, hbeeps⟩ := c.beeps_of_poll s' e k hk
    refine ⟨?_, fun hup => ?_, fun hup => ?_⟩
    · rw [value_handle, hk]
      rfl
    · rw [hbeeps, PollStep.due, if_neg (hvalue.2 hup)]
    · rw [hbeeps, PollStep.due, if_pos (Classical.not_not.1 (mt hvalue.1 hup))]
      exact List.modify_id _ _
  quiet es e hquiet := c.sum_beeps _ e hquiet
  separated es e fs f he hf := by
    obtain ⟨⟨k, hk⟩, -⟩ := c.beeps_iff.1 he
    have hcleared : c.value (c.run s (es ++ [e])) = 0 := by
      rw [run_snoc, value_handle, hk]
      rfl
    have hvalue := (c.beeps_iff.1 hf).2
    rw [show es ++ e :: fs = (es ++ [e]) ++ fs by simp, run_append, value_run, hcleared] at hvalue
    refine Classical.byContradiction fun hnone => hvalue (level_zero fun v hv => ?_)
    exact Classical.byContradiction fun hne => hnone ⟨v, hne, hv⟩
  bounded es := by
    have hle := c.total_run_le s es
    rw [h, hsilent] at hle
    refine Nat.le_trans (Nat.le_add_right _ _) (Nat.le_trans hle (Nat.le_of_eq ?_))
    exact Nat.zero_add _
  lost es e v fs he hv := by
    have hvalue : c.value (c.run s (es ++ [e])) = v := by
      rw [run_snoc, value_handle, he]
      rfl
    intro s'
    rw [yields_iff, hvalue]
    simp only [Classical.not_and_iff_not_or_not, Classical.not_forall, Classical.not_not,
      Nat.not_lt, not_exists]

end Polled
end Chip8
