import Chip8.Machine.Dump
import Chip8.Proofs.Run.View
import Chip8.Proofs.Run.Workers

/-!
# Power cycles

Power on makes a machine as good as new.  What is left of the past is what the host has set up, the
random bytes that were used, the beeps that were heard, and the speakers that were replaced.  None
of it shows: from then on the machine goes through the same run as a new machine with the same
settings and the same random bytes to come.

The two machines are not equal, as one has a past.  `Machine.Twin` is the relation that takes the
place of equality; every event keeps it.  For the polls this depends on the workers: a speaker that
was replaced must not poll any more, and the attached one must poll on both machines.

## What is here

* `Machine.PoweredOn`, `Machine.poweredOn_reset` — what power on does.
* `Machine.renewed` — a new machine with the settings of another one.
* `Machine.Twin`, `Twin.handle`, `Twin.run` — machines that differ in their past, through one event
  and through a run.
* `Machine.reset_is_power_cycle` — both, for every machine that a run has brought about.
-/

set_option autoImplicit false

namespace Chip8

/-! ## Power on -/

/-- The font stands at the bottom of a memory that is empty otherwise. -/
theorem Memory.toList_loadFont_empty :
    Memory.empty.loadFont.toList = Font.bytes ++ List.replicate (4096 - Font.bytes.length) 0 := by
  have hfont : Font.bytes.length = 80 := Font.length_bytes
  refine List.ext_getElem? fun a => ?_
  rw [toList, Vector.getElem?_toList, loadFont, getElem?_writeBlock, List.getElem?_append, hfont,
    Font.location, empty]
  by_cases ha : a < 80
  · rw [if_pos (by omega), if_pos ha]
    rfl
  · rw [if_neg (by omega), if_neg ha, Vector.getElem?_replicate, List.getElem?_replicate]
    by_cases hsize : a < 4096
    · rw [if_pos hsize, if_pos (by omega)]
    · rw [if_neg hsize, if_neg (by omega)]

/-- No register is left with a value. -/
theorem Registers.get_zero (k : Nat) : Registers.zero.get k = 0 := by
  rw [get, zero, Vector.getElem?_replicate]
  split <;> rfl

namespace Machine

/-- **A machine after power on**: the font and zeros in memory, no call, a dark screen, the program
counter at the first instruction, all else zero, and both timers running.  What the host has set up
is as before. -/
structure PoweredOn (m m' : Machine) : Prop where
  memory : m'.memory.toList = Font.bytes ++ List.replicate (4096 - Font.bytes.length) 0
  calls : m'.memory.calls = []
  screen : m'.screen = .dark
  opcode : m'.opcode = ⟨0⟩
  pc : m'.pc = 0x200
  i : m'.i = 0
  v : ∀ k, m'.v.get k = 0
  delay : m'.delay.value = 0 ∧ m'.delay.isRunning = true
  sound : m'.sound.value = 0 ∧ m'.sound.isRunning = true
  keypad : m'.keypad = m.keypad
  dialect : m'.dialect = m.dialect
  random : m'.random = m.random
  speakers : m'.speakers = m.speakers
  cycleDelay : m'.cycleDelay = m.cycleDelay

variable {m n : Machine}

/-- Power on asks nothing of the machine before. -/
theorem poweredOn_reset (m : Machine) : m.PoweredOn m.reset := by
  obtain ⟨hmemory, hv, hi, hpc, hopcode, hscreen⟩ := Core.mk.inj m.core_reset
  exact {
    memory := hmemory ▸ Memory.toList_loadFont_empty
    calls := hmemory ▸ Memory.calls_writeBlock _ _ _
    screen := hscreen
    opcode := hopcode
    pc := hpc
    i := hi
    v := hv ▸ Registers.get_zero
    delay := ⟨rfl, (m.delay.set 0).isRunning_start⟩
    sound := ⟨rfl, (m.sound.set 0).isRunning_start⟩
    keypad := by simp only [reset]
    dialect := by simp only [reset]
    random := by simp only [reset]
    speakers := by simp only [reset]
    cycleDelay := by simp only [reset] }

/-- A new machine with the settings of another one: its dialect, its keys, and its sound output. -/
def renewed (m : Machine) (random : RandomSource) (cycleDelay : Option Nat) : Machine :=
  let fresh := (new m.dialect random cycleDelay).setKeys m.keypad
  match m.speakers with
  | [] => fresh
  | speaker :: _ => fresh.attach speaker.sound

/-! ## Machines that differ in their past -/

/-- **Machines that differ in their past.**  They look the same and sound the same, and the first
has beeped `heard` times more. -/
structure Twin (heard : Nat) (m n : Machine) : Prop extends SameView m n where
  sound : m.sound = n.sound
  /-- The attached speakers beep in the same place; those they replaced are left out. -/
  output : m.speakers.head?.map Speaker.sound = n.speakers.head?.map Speaker.sound
  beeps : m.beeps = heard + n.beeps
  staffed : m.Staffed
  staffed' : n.Staffed

/-- An event that does not only concern the sound leaves the speakers alone. -/
theorem speakers_handle (m : Machine) {e : Event} (he : e.forSound = false) :
    (m.handle e).state.speakers = m.speakers := by
  cases e with
  | reset => simp only [handle, reset]
  | cycle => exact m.speakers_cycle
  | load | setKey | setKeys | tickDelay => rfl
  | attach | tickSound | pollSpeaker => cases he

theorem SameView.sound_handle (h : m.SameView n) (hsound : m.sound = n.sound) {e : Event}
    (he : e.forSound = false) : (m.handle e).state.sound = (n.handle e).state.sound := by
  cases e with
  | reset => simp only [Machine.handle, Machine.reset, hsound]
  | cycle =>
    have hv : m.v = n.v := congrArg Core.v h.core
    exact device_cycle_congr (·.sound) h.core fun i => sound_devicesAfter i hv hsound
  | load | setKey | setKeys | tickDelay => exact hsound
  | attach | tickSound | pollSpeaker => cases he

theorem beeps_cons {s : Speaker} {older : List Speaker} (h : m.speakers = s :: older) :
    m.beeps = s.heard + older.foldr (fun s n => s.heard + n) 0 := by
  rw [beeps, h]
  rfl

/-- A speaker that is attached has not beeped yet. -/
theorem beeps_attach (m : Machine) (sound : Sound) : (m.attach sound).beeps = m.beeps := by
  have hfresh : (Speaker.start sound Timer.standardInterval).heard = 0 := by cases sound <;> rfl
  rw [attach, beeps, beeps]
  cases m.speakers with
  | nil => simpa only [List.foldr_cons, List.foldr_nil, Nat.add_zero] using hfresh
  | cons former older =>
    have hstop : former.stop.heard = former.heard := rfl
    simp only [List.foldr_cons, hfresh, hstop, Nat.zero_add]

/-- What is printed is the core and the timers. -/
theorem dump_congr (hcore : m.core = n.core) (hdelay : m.delay = n.delay)
    (hsound : m.sound = n.sound) : m.dump = n.dump := by
  obtain ⟨hmemory, hv, hi, hpc, hopcode, -⟩ := Core.mk.inj hcore
  unfold dump dumpChars
  rw [hmemory, hv, hi, hpc, hopcode, hdelay, hsound]

namespace Twin

variable {heard : Nat}

theorem view_of_forSound (h : m.Twin heard n) {e : Event} (he : e.forSound = true) :
    (m.handle e).state.SameView (n.handle e).state :=
  ((h.toSameView.of_forSound he).symm.of_forSound he).symm

theorem attach (h : m.Twin heard n) (sound : Sound) :
    (m.attach sound).Twin heard (n.attach sound) where
  toSameView := h.view_of_forSound (e := .attach sound) rfl
  sound := h.sound
  output := by rw [head?_attach, head?_attach]
  beeps := by rw [beeps_attach, beeps_attach, h.beeps]
  staffed := h.staffed.attach sound
  staffed' := h.staffed'.attach sound

/-- The attached speakers beep together, or neither does. -/
theorem pollSpeaker_attached (h : m.Twin heard n) {s t : Speaker} {older newer : List Speaker}
    (hm : m.speakers = s :: older) (hn : n.speakers = t :: newer) :
    (m.pollSpeaker 0).Matches (Twin heard) (n.pollSpeaker 0) := by
  have hsound : s.sound = t.sound := by
    have houtput := h.output
    rw [hm, hn] at houtput
    exact Option.some.inj houtput
  have hstaffed := h.staffed.pollSpeaker 0
  have hstaffed' := h.staffed'.pollSpeaker 0
  rw [h.staffed.pollSpeaker_attached hm] at hstaffed ⊢
  rw [h.staffed'.pollSpeaker_attached hn, ← h.sound] at hstaffed' ⊢
  by_cases hvalue : m.sound.value = 0
  · rw [if_pos hvalue, if_pos hvalue]
    exact ⟨h, rfl, rfl⟩
  · rw [if_neg hvalue] at hstaffed hstaffed' ⊢
    rw [if_neg hvalue]
    refine ⟨⟨{ h.toSameView with }, rfl, ?output, ?beeps, hstaffed, hstaffed'⟩, rfl, ?log⟩
    case output => exact congrArg some hsound
    case beeps =>
      have hheard := h.beeps
      rw [beeps_cons hm, beeps_cons hn] at hheard
      rw [beeps_cons rfl, beeps_cons rfl, Speaker.heard_beep, Speaker.heard_beep, hsound]
      omega
    case log => simp only [Speaker.beep, hsound]

/-- **The callback of a speaker** does the same to both machines, since only attached speakers do
anything. -/
theorem pollSpeaker (h : m.Twin heard n) (age : Nat) :
    (m.pollSpeaker age).Matches (Twin heard) (n.pollSpeaker age) := by
  cases age with
  | succ age =>
    rw [h.staffed.pollSpeaker_former, h.staffed'.pollSpeaker_former]
    exact ⟨h, rfl, rfl⟩
  | zero =>
    -- Either both machines have a speaker attached, or neither has.
    have houtput := h.output
    cases hm : m.speakers with
    | nil =>
      rw [hm] at houtput
      have hn : n.speakers = [] :=
        List.head?_eq_none_iff.1 (Option.map_eq_none_iff.1 houtput.symm)
      rw [pollSpeaker_nil hm, pollSpeaker_nil hn]
      exact ⟨h, rfl, rfl⟩
    | cons s older =>
      obtain ⟨t, newer, hn⟩ : ∃ t newer, n.speakers = t :: newer :=
        List.exists_cons_of_ne_nil fun hn => by simp [hm, hn] at houtput
      exact h.pollSpeaker_attached hm hn

/-- **Every event keeps machines twins**; they give the same answer and make the same records. -/
theorem handle (h : m.Twin heard n) (e : Event) :
    (m.handle e).Matches (Twin heard) (n.handle e) := by
  cases he : e.forSound with
  | false =>
    obtain ⟨hview, hresult, hlog⟩ := h.toSameView.handle he
    have hstaffed := h.staffed.handle e
    have hstaffed' := h.staffed'.handle e
    refine ⟨⟨hview, ?sound, ?output, ?beeps, hstaffed, hstaffed'⟩, hresult, hlog⟩
    case sound => exact h.toSameView.sound_handle h.sound he
    case output => rw [speakers_handle m he, speakers_handle n he, h.output]
    case beeps =>
      rw [Machine.beeps, speakers_handle m he, Machine.beeps, speakers_handle n he]
      exact h.beeps
  | true =>
    cases e with
    | attach sound => exact ⟨h.attach sound, rfl, rfl⟩
    | tickSound =>
      have hsound : m.sound.tick = n.sound.tick := by rw [h.sound]
      have hstate : m.tickSound.Twin heard n.tickSound :=
        { h with
          sound := hsound
          staffed := h.staffed.handle .tickSound
          staffed' := h.staffed'.handle .tickSound }
      exact ⟨hstate, rfl, rfl⟩
    | pollSpeaker age =>
      obtain ⟨hstate, -, hlog⟩ := h.pollSpeaker age
      exact ⟨hstate, rfl, hlog⟩
    | load | reset | setKey | setKeys | tickDelay | cycle => cases he

/-- **So every run does.** -/
theorem run (h : m.Twin heard n) (es : List Event) :
    (m.run es).Matches (Twin heard) (n.run es) := by
  induction es generalizing m n with
  | nil => exact ⟨h, rfl, rfl⟩
  | cons e es ih =>
    obtain ⟨hstate, hresult, hlog⟩ := h.handle e
    obtain ⟨hstates, hresults, hlogs⟩ := ih hstate
    refine ⟨hstates, ?_, ?_⟩
    · simp only [Machine.run, hresult, hresults]
    · simp only [Machine.run, hlog, hlogs]

end Twin

/-! ## Power on and new machines -/

/-- A new machine with its keys set looks like one after power on. -/
theorem sameView_reset_new (h : m.Staffed) {random : RandomSource} (cycleDelay : Option Nat)
    (hrandom : random.remaining = m.random.remaining) :
    m.reset.SameView ((new m.dialect random cycleDelay).setKeys m.keypad) where
  core := m.core_reset
  keypad := by simp only [reset, setKeys]
  delay := h.reset.delay.eq_of_value (staffed_new m.dialect random cycleDelay).delay rfl
  dialect := by simp only [reset, setKeys, new]
  remaining := by simp only [reset, setKeys, new, hrandom]

/-- **Power on makes twins**: a machine after power on, and a new one with the same settings. -/
theorem twin_renewed (h : m.Staffed) {random : RandomSource} (cycleDelay : Option Nat)
    (hrandom : random.remaining = m.random.remaining) :
    m.reset.Twin m.beeps (m.renewed random cycleDelay) := by
  have hview := sameView_reset_new h cycleDelay hrandom
  have hstaffed := (staffed_new m.dialect random cycleDelay).handle (.setKeys m.keypad)
  have hsound : m.reset.sound = (new m.dialect random cycleDelay).sound :=
    h.reset.sound.eq_of_value (staffed_new m.dialect random cycleDelay).sound rfl
  have hnone : ((new m.dialect random cycleDelay).setKeys m.keypad).speakers = [] := by
    simp only [setKeys, new, reset]
  have hspeakers : m.reset.speakers = m.speakers := by simp only [reset]
  have hbeeps : m.reset.beeps =
      m.beeps + ((new m.dialect random cycleDelay).setKeys m.keypad).beeps := by
    rw [beeps, hspeakers, beeps, beeps, hnone]
    rfl
  rw [renewed]
  cases hm : m.speakers with
  | nil =>
    have hoff : m.reset.speakers = [] := hspeakers.trans hm
    exact ⟨hview, hsound, by rw [hoff, hnone], hbeeps, h.reset, hstaffed⟩
  | cons speaker older =>
    have hon : m.reset.speakers = speaker :: older := hspeakers.trans hm
    have hattached := (hview.symm.of_forSound (e := .attach speaker.sound) rfl).symm
    refine ⟨hattached, hsound, ?output, ?beeps, h.reset, hstaffed.attach speaker.sound⟩
    case output => rw [hon, head?_attach]; rfl
    case beeps => rw [beeps_attach, hbeeps]

/-- **Power on is a power cycle.**  Take a machine that any run has brought about, and switch it off
and on.  It is then as power on leaves a machine.  Take also a new machine in the same dialect with
the same keys down and the same sound output, for which the same random bytes are still to come.
Whatever happens to both from then on, the answers, the records, the screens and the dumps are the
same, the program sees the same, and the host hears the same number of beeps. -/
theorem reset_is_power_cycle (dialect : Dialect) (random : RandomSource) (cycleDelay : Option Nat)
    (es : List Event) :
    let m := ((new dialect random cycleDelay).run es).state
    m.PoweredOn m.reset ∧
      ∀ random' cycleDelay', random'.remaining = m.random.remaining → ∀ fs,
        let old := m.reset.run fs
        let fresh := (m.renewed random' cycleDelay').run fs
        old.Matches (Twin m.beeps) fresh ∧ old.state.screen = fresh.state.screen ∧
          old.state.dump = fresh.state.dump := by
  intro m
  refine ⟨m.poweredOn_reset, fun random' cycleDelay' hrandom fs => ?_⟩
  have hstaffed : m.Staffed := (staffed_new dialect random cycleDelay).run es
  have hmatches := (twin_renewed hstaffed cycleDelay' hrandom).run fs
  have htwin := hmatches.state
  exact ⟨hmatches, congrArg Core.screen htwin.core,
    dump_congr htwin.core htwin.delay htwin.sound⟩

/-- What happens to a machine that beeps, draws a random byte and fails. -/
def wearing : List Event :=
  [.load [0xC1, 0xFF, 0x61, 0x05, 0xF1, 0x18, 0x00, 0xEE], .attach .host, .setKey 3 true,
    .cycle, .cycle, .cycle, .pollSpeaker 0, .cycle]

/-- A machine with a past. -/
@[irreducible]
def worn : Machine := ((new default default none).run wearing).state

theorem reset_is_power_cycle_worn :
    let fs := [Event.load [0x61, 0x05, 0xF1, 0x18, 0xE2, 0x9E], .cycle, .cycle, .pollSpeaker 0,
      .cycle]
    let old := worn.reset.run fs
    let fresh := (worn.renewed ⟨worn.random.remaining, 0⟩ (some 100)).run fs
    worn.PoweredOn worn.reset ∧ old.result = fresh.result ∧ old.state.dump = fresh.state.dump ∧
      old.state.beeps = 2 ∧ fresh.state.beeps = 1 := by
  intro fs old fresh
  have hworn : ((new default default none).run wearing).state = worn := by unfold worn; rfl
  have hpower := reset_is_power_cycle default default none wearing
  rw [hworn] at hpower
  obtain ⟨hpowered, hfresh⟩ := hpower
  have hrandom : (RandomSource.mk worn.random.remaining 0).remaining = worn.random.remaining := by
    funext k
    exact congrArg worn.random.remaining (Nat.zero_add k)
  obtain ⟨hmatches, -, hdump⟩ := hfresh _ (some 100) hrandom fs
  exact ⟨hpowered, hmatches.result, hdump, by decide +kernel, by decide +kernel⟩

end Machine
end Chip8
