import Chip8.Proofs.Drawing.Sprites

/-!
# Several sprites

A drawing flips pixels, and which pixels it flips does not depend on the screen.  So the order of
drawings does not matter, and drawing the same things again takes them off the screen.

The flags do depend on the screen.  Of two drawings of one sprite, a pixel that is lit at the first
is dark at the second, and the other way round.  So each covered pixel is counted by just one of the
two flags.

## What is here

* `Screen.flipAll_perm`, `Screen.flipAll_append_self` — flips in another order, and all of them twice.
* `Stroke`, `Machine.paint` — drawings whose coordinates are set before each.
* `Machine.screen_paint`, `Machine.result_paint` — the screen and the results of a list of strokes.
* `Machine.collides_or_iff` — of two drawings of a sprite, whether a flag is raised.
* `Machine.strokes_commute_and_cancel` — any order gives the same screen, and twice gives the old one.
-/

set_option autoImplicit false

namespace Chip8

/-! ## Flips -/

namespace Screen

/-- The order of flips does not matter. -/
theorem flipAll_perm (s : Screen) {cells more : List (Fin 2048)} (h : cells.Perm more) :
    (s.flipAll cells).1 = (s.flipAll more).1 := by
  refine ext_lit fun p => ?_
  rw [lit_flipAll, lit_flipAll, h.count_eq]

/-- Flipping everything twice changes nothing. -/
theorem flipAll_append_self (s : Screen) (cells : List (Fin 2048)) :
    (s.flipAll (cells ++ cells)).1 = s := by
  refine ext_lit fun p => ?_
  have heven : ¬ (cells.count p + cells.count p) % 2 = 1 := by omega
  rw [lit_flipAll, List.count_append, decide_eq_false heven, Bool.xor_false]

end Screen

/-- A row has a pixel if its byte is not zero. -/
theorem Sprite.exists_covers_iff {row : UInt8} : (∃ j, j < 8 ∧ covers row j = true) ↔ row ≠ 0 := by
  constructor
  · rintro ⟨j, -, hbit⟩ rfl
    exact absurd hbit (by simp [covers])
  · intro hrow
    have hnat : row.toNat ≠ 0 := fun h => hrow (UInt8.toNat_inj.1 h)
    obtain ⟨b, hb⟩ := Nat.exists_testBit_of_ne_zero hnat
    have hlt : b < 8 := by
      refine Nat.lt_of_not_le fun hle => ?_
      have hsmall : row.toNat < 2 ^ b :=
        Nat.lt_of_lt_of_le row.toNat_lt (Nat.pow_le_pow_right (by decide) hle)
      rw [Nat.testBit_lt_two_pow hsmall] at hb
      cases hb
    refine ⟨7 - b, by omega, ?_⟩
    rwa [covers, show 7 - (7 - b) = b by omega]

/-! ## Strokes -/

/-- A drawing by `DXYN`, with the values that `VX`, `VY` and the index register are set to before.
If `X` and `Y` are the same register, it holds `top`. -/
structure Stroke where
  x : Fin 16
  y : Fin 16
  n : Fin 16
  left : UInt8
  top : UInt8
  index : UInt16

namespace Stroke

/-- The instruction of a stroke. -/
def instruction (s : Stroke) : Instruction := .draw s.x s.y (UInt8.ofNat s.n)

/-- All rows of the sprite are in memory. -/
def InMemory (s : Stroke) : Prop := s.n.val = 0 ∨ s.index.toNat + s.n.val ≤ 4096

/-- The column of the upper left end. -/
def column (s : Stroke) : UInt8 := if s.x = s.y then s.top else s.left

/-- The pixels that a stroke covers. -/
def cells (memory : Memory) (s : Stroke) : List (Fin 2048) :=
  Sprite.cells s.column.toNat s.top.toNat (memory.readBlock s.index.toNat s.n).1

theorem toNat_n (s : Stroke) : (UInt8.ofNat s.n).toNat = s.n := by
  rw [UInt8.toNat_ofNat']
  omega

/-- What a host is told of a stroke. -/
def result (s : Stroke) : Except Fault Signal :=
  match blockFault? s.index.toNat s.n with
  | some f => .error f
  | none => .ok .redraw

theorem result_eq_ok_iff {s : Stroke} : s.result = .ok .redraw ↔ s.InMemory := by
  rw [result, blockFault?, InMemory]
  split
  next hf =>
    simp only [reduceCtorEq, false_iff]
    grind
  next hf =>
    simp only [true_iff]
    grind

end Stroke

namespace Machine

variable {m : Machine}

/-- The coordinate registers and the index register are set for a stroke. -/
def aim (m : Machine) (s : Stroke) : Machine :=
  { m with v := (m.v.set s.x s.left).set s.y s.top, i := s.index }

/-- One stroke. -/
def stroke (m : Machine) (s : Stroke) : Outcome Machine (Except Fault Signal) :=
  (m.aim s).perform s.instruction

/-- One stroke after the other. -/
def paint (m : Machine) : List Stroke → Outcome Machine (List (Except Fault Signal))
  | [] => ⟨m, [], []⟩
  | s :: ss =>
    let first := m.stroke s
    let rest := first.state.paint ss
    ⟨rest.state, first.result :: rest.result, first.log ++ rest.log⟩

theorem get_aim_y (m : Machine) (s : Stroke) : (m.aim s).v.get s.y = s.top := by
  rw [aim, Registers.get_set, if_pos ⟨rfl, s.y.isLt⟩]

theorem get_aim_x (m : Machine) (s : Stroke) : (m.aim s).v.get s.x = s.column := by
  have hleft : (m.v.set s.x s.left).get s.x = s.left := by
    rw [Registers.get_set, if_pos ⟨rfl, s.x.isLt⟩]
  rw [aim, Stroke.column, Registers.get_set, hleft]
  simp only [Fin.ext_iff, s.y.isLt, and_true]

/-- **A stroke flips its pixels**, also if some of its rows are missing. -/
theorem screen_stroke (m : Machine) (s : Stroke) :
    (m.stroke s).state.screen = (m.screen.flipAll (s.cells m.memory)).1 := by
  rw [stroke, perform_state screen _ _ fun _ _ => rfl]
  change ((m.aim s).drawSprite s.x s.y (UInt8.ofNat s.n).toNat).state.screen = _
  rw [state_drawSprite, s.toNat_n]
  change ((m.aim s).drawn s.x s.y s.n).1 = _
  rw [drawn, get_aim_x, get_aim_y]
  rfl

theorem memory_stroke (m : Machine) (s : Stroke) : (m.stroke s).state.memory = m.memory :=
  perform_state memory _ _ fun _ _ => rfl

theorem result_stroke (m : Machine) (s : Stroke) : (m.stroke s).result = s.result := by
  have hfault : faultOf? (m.stroke s).result = blockFault? s.index.toNat s.n := by
    rw [stroke, faultOf?_perform]
    change faultOf? ((m.aim s).drawSprite s.x s.y (UInt8.ofNat s.n).toNat).result = _
    rw [faultOf?_drawSprite, s.toNat_n]
    exact faultOf?_readBlock _ _ _
  rw [Stroke.result]
  split
  next f hf => exact faultOf?_eq_some_iff.1 (hfault.trans hf)
  next hf =>
    have hin : (UInt8.ofNat s.n).toNat = 0 ∨ (m.aim s).i.toNat + (UInt8.ofNat s.n).toNat ≤ 4096 := by
      rw [s.toNat_n]
      exact Stroke.result_eq_ok_iff.1 (by rw [Stroke.result, hf])
    exact congrArg Outcome.result (perform_draw hin)

/-! ## Lists of strokes -/

theorem memory_paint (m : Machine) (ss : List Stroke) : (m.paint ss).state.memory = m.memory := by
  induction ss generalizing m with
  | nil => rfl
  | cons s ss ih => exact (ih _).trans (m.memory_stroke s)

/-- **Strokes flip the pixels that they cover**, one after the other. -/
theorem screen_paint (m : Machine) (ss : List Stroke) :
    (m.paint ss).state.screen = (m.screen.flipAll (ss.flatMap (Stroke.cells m.memory))).1 := by
  induction ss generalizing m with
  | nil => rfl
  | cons s ss ih =>
    change ((m.stroke s).state.paint ss).state.screen = _
    rw [ih, screen_stroke, memory_stroke, List.flatMap_cons, Screen.flipAll_append]

theorem result_paint (m : Machine) (ss : List Stroke) :
    (m.paint ss).result = ss.map Stroke.result := by
  induction ss generalizing m with
  | nil => rfl
  | cons s ss ih =>
    change (m.stroke s).result :: ((m.stroke s).state.paint ss).result = _
    rw [ih, result_stroke, List.map_cons]

/-! ## The same sprite twice -/

variable {x y : Nat} {n : UInt8}

/-- A sprite covers something if one of its bytes is not zero. -/
theorem exists_covers_iff {n : Nat} (hn : n ≤ 32) :
    (∃ c r, m.covers x y n c r = true) ↔
      ∃ k, k < n ∧ m.memory.bytes[m.i.toNat + k]?.getD 0 ≠ 0 := by
  simp only [covers, Bool.and_eq_true, decide_eq_true_iff, and_assoc]
  constructor
  · rintro ⟨c, r, hk, hj, hbit⟩
    exact ⟨_, hk, Sprite.exists_covers_iff.1 ⟨_, hj, hbit⟩⟩
  · rintro ⟨k, hk, hbyte⟩
    obtain ⟨j, hj, hbit⟩ := Sprite.exists_covers_iff.2 hbyte
    refine ⟨Fin.ofNat 64 ((m.v.get x).toNat + j), Fin.ofNat 32 ((m.v.get y).toNat + k), ?_⟩
    rw [(Screen.eq_ofNat_add_iff _ (Nat.lt_trans hj (by decide))).1 rfl,
      (Screen.eq_ofNat_add_iff _ (Nat.lt_of_lt_of_le hk hn)).1 rfl]
    exact ⟨hk, hj, hbit⟩

/-- The same sprite covers the same pixels again, if `VF` holds none of its coordinates. -/
theorem covers_afterDraw {n : Nat} (hx : x ≠ Registers.flag) (hy : y ≠ Registers.flag) :
    (m.afterDraw x y n).covers x y n = m.covers x y n := by
  funext c r
  rw [covers, covers, get_afterDraw hx, get_afterDraw hy]
  rfl

/-- The same sprite once more brings back the screen of before. -/
theorem screen_afterDraw_twice {n : Nat} (hx : x ≠ Registers.flag) (hy : y ≠ Registers.flag) :
    ((m.afterDraw x y n).afterDraw x y n).screen = m.screen := by
  change ((m.afterDraw x y n).drawn x y n).1 = _
  rw [drawn, get_afterDraw hx, get_afterDraw hy]
  exact (congrArg Prod.fst (Screen.flipAll_append _ _ _)).symm.trans
    (m.screen.flipAll_append_self _)

/-- **Each covered pixel is lit at one of two drawings**, the first or the second. -/
theorem collides_or_iff {n : Nat} (hn : n ≤ 32) (hx : x ≠ Registers.flag)
    (hy : y ≠ Registers.flag) :
    (m.Collides x y n ∨ (m.afterDraw x y n).Collides x y n) ↔
      ∃ c r, m.covers x y n c r = true := by
  have hcovers := covers_afterDraw (m := m) (n := n) hx hy
  constructor
  · rintro (⟨c, r, hcovered, -⟩ | ⟨c, r, hcovered, -⟩)
    · exact ⟨c, r, hcovered⟩
    · exact ⟨c, r, hcovers ▸ hcovered⟩
  · rintro ⟨c, r, hcovered⟩
    cases hdark : m.screen.lit (Screen.cell c r) with
    | true => exact .inl ⟨c, r, hcovered, hdark⟩
    | false =>
      refine .inr ⟨c, r, hcovers ▸ hcovered, (m.lit_drawn x y hn c r).trans ?_⟩
      rw [hdark, hcovered]
      rfl

theorem flag_afterDraw_eq_one_iff {n : Nat} (hn : n ≤ 32) :
    (m.afterDraw x y n).v.get Registers.flag = 1 ↔ m.Collides x y n := by
  rw [flag_afterDraw hn, flagOf_eq_one_iff, decide_eq_true_iff]

/-- **The order of drawings does not matter, and twice is not at all.**  A list of drawings succeeds
if all of its sprites are in memory.  Whether it does or not, each drawing has the same result in
another order, and the screen in the end is the same; and the whole list once more brings back the
screen of before.  For one sprite that is drawn twice in a row, with coordinates that `VF` does not
hold, one of the two flags is raised, unless the sprite has no pixels. -/
theorem strokes_commute_and_cancel (m : Machine) :
    (∀ ss : List Stroke, (∀ r ∈ (m.paint ss).result, r = .ok .redraw) ↔ ∀ s ∈ ss, s.InMemory) ∧
      (∀ ss ss' : List Stroke, ss.Perm ss' →
        (m.paint ss').state.screen = (m.paint ss).state.screen ∧
          (m.paint ss').state.memory = m.memory ∧
          (m.paint ss').result.Perm (m.paint ss).result) ∧
      (∀ ss : List Stroke, (m.paint (ss ++ ss)).state.screen = m.screen) ∧
      ∀ x y n, (Instruction.draw x y n).Fits → x ≠ Registers.flag → y ≠ Registers.flag →
        (n.toNat = 0 ∨ m.i.toNat + n.toNat ≤ 4096) →
        let first := m.perform (.draw x y n)
        let second := first.state.perform (.draw x y n)
        first.result = .ok .redraw ∧ second.result = .ok .redraw ∧
          second.state.screen = m.screen ∧
          (first.state.v.get Registers.flag = 1 ∨ second.state.v.get Registers.flag = 1 ↔
            ∃ k, k < n.toNat ∧ m.memory.bytes[m.i.toNat + k]?.getD 0 ≠ 0) := by
  refine ⟨fun ss => ?success, fun ss ss' hperm => ⟨?order, m.memory_paint ss', ?results⟩,
    fun ss => ?twice, fun x y n hi hx hy hin => ?flags⟩
  case success =>
    simp only [result_paint, List.forall_mem_map, Stroke.result_eq_ok_iff]
  case order =>
    rw [screen_paint, screen_paint]
    exact m.screen.flipAll_perm (hperm.flatMap_right _).symm
  case results =>
    rw [result_paint, result_paint]
    exact (hperm.map _).symm
  case twice =>
    rw [screen_paint, List.flatMap_append, Screen.flipAll_append_self]
  case flags =>
    intro first second
    have hn : n.toNat ≤ 32 := Nat.le_trans (Nat.le_of_lt hi.2.2) (by decide)
    have hfirst : first = ⟨m.afterDraw x y n.toNat, .ok .redraw, m.performLog (.draw x y n)⟩ :=
      perform_draw hin
    have hsecond : second = ⟨first.state.afterDraw x y n.toNat, .ok .redraw,
        first.state.performLog (.draw x y n)⟩ := by
      refine perform_draw ?_
      rw [hfirst]
      exact hin
    rw [hsecond, hfirst]
    refine ⟨rfl, rfl, screen_afterDraw_twice hx hy, ?_⟩
    rw [flag_afterDraw_eq_one_iff hn, flag_afterDraw_eq_one_iff hn, collides_or_iff hn hx hy,
      exists_covers_iff hn]

/-- A zero over the lower right corner. -/
def zeroStroke : Stroke := ⟨0, 1, 5, 62, 30, 0⟩

/-- A one that covers a part of it, with `VF` for both of its coordinates. -/
def oneStroke : Stroke := ⟨15, 15, 5, 7, 62, 5⟩

theorem strokes_commute_and_cancel_atCorner :
    (∀ r ∈ (atCorner.paint [zeroStroke, oneStroke]).result, r = .ok .redraw) ∧
      (atCorner.paint [zeroStroke, oneStroke]).state.screen.lit (Screen.cell 62 2) = true ∧
      (atCorner.paint [oneStroke, zeroStroke]).state.screen =
        (atCorner.paint [zeroStroke, oneStroke]).state.screen ∧
      (atCorner.paint [zeroStroke, oneStroke, zeroStroke, oneStroke]).state.screen =
        atCorner.screen ∧
      ((atCorner.perform (.draw 0 1 5)).state.v.get Registers.flag = 1 ∨
        ((atCorner.perform (.draw 0 1 5)).state.perform (.draw 0 1 5)).state.v.get
          Registers.flag = 1) := by
  obtain ⟨hsuccess, horder, htwice, hflags⟩ := strokes_commute_and_cancel atCorner
  have hin : ∀ s ∈ [zeroStroke, oneStroke], s.InMemory := by
    simp only [List.forall_mem_cons, List.not_mem_nil, false_implies, implies_true, and_true]
    exact ⟨.inr (by decide), .inr (by decide)⟩
  have hcorner : atCorner.i.toNat + 5 ≤ 4096 := by decide +kernel
  obtain ⟨-, -, -, hraised⟩ := hflags 0 1 5 ⟨by decide, by decide, by decide⟩ (by decide)
    (by decide) (.inr hcorner)
  exact ⟨(hsuccess _).2 hin, by decide +kernel, (horder _ _ (.swap _ _ [])).1,
    htwice [zeroStroke, oneStroke], hraised.2 ⟨0, by decide, by decide +kernel⟩⟩

end Machine
end Chip8
