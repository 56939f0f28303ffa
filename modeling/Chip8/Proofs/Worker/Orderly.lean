import Chip8.Proofs.Lists
import Chip8.Worker.Thread

/-!
# Workers on threads stay in order

A worker keeps three things about its threads: whom the host can send to, whom it can join, and how
many references to the mark there are.  They stay in step.  Only the latest thread can be joined, and
no other runs; as long as the host is outside of every call, the thread it can join is the one it can
send to, and nothing was sent to that thread; and there is one reference for each thread that runs,
beside that of the host.

`Stepped` says once what a single step can do to a worker in this order, and everything else is
derived from it: that the order is kept, and that a thread which has ended never changes again.

## What is here

* `ThreadWorker.Move`, `ThreadWorker.Stepped` — what a thread and what a worker can do in one step.
* `ThreadWorker.Orderly` — the invariant; `Orderly.step` and `Orderly.steps` say that it is kept.
* `Orderly.countP_running_le`, `Orderly.isAlive_iff` — at most one thread runs, and the worker is
  alive as long as it does.
* `Orderly.send_possible`, `Orderly.join_possible_or` — sending never waits, and joining waits for a
  thread that is in its callback or about to end.
* `Orderly.step_join` — no thread runs when a call returns.
-/

set_option autoImplicit false

namespace Chip8

namespace Thread

variable {t t' : Thread}

theorem running_iff : t.running = true ↔ t.phase = .waiting ∨ t.phase = .calling := by
  rw [running]
  cases t.phase <;> simp

theorem send?_phase (h : t.send? = some t') : t'.phase = t.phase := by
  rw [send?] at h
  split at h
  · cases h
    rfl
  · split at h
    · cases h
    · cases h
      rfl

end Thread

namespace ThreadWorker

/-! ## What a step can do -/

/-- The thread that takes a step, unless the host does. -/
def Event.thread? : Event → Option Nat
  | .call _ | .send | .join => none
  | .enter k | .return k | .panic k | .finish k => some k

/-- Thread `k` takes a step from `t` to `t'` and gives up `dropped` references.  Only a thread that
runs can do so; it panics by a panic and ends by noticing that it has to. -/
structure Move (e : Event) (k : Nat) (t t' : Thread) (dropped : Nat) : Prop where
  thread : e.thread? = some k
  running : t.running = true
  panicked : t'.phase = .panicked ↔ e = .panic k
  ended : t'.phase = .ended ↔ e = .finish k
  dropped : t'.running.toNat + dropped = 1
  message : t.message = false → t'.message = false
  connected : t'.connected = t.connected

/-- What a single step does to an orderly worker. -/
inductive Stepped (w : ThreadWorker) : Event → ThreadWorker → List Record → Prop
  /-- The host enters a call. -/
  | call {p : Purpose} (host : w.host = .free) :
      Stepped w (.call p) { w with host := .sending p } []
  /-- The host has nobody to send to. -/
  | pass {p : Purpose} (host : w.host = .sending p) (sender : w.sender = none) :
      Stepped w .send { w with sender := none, host := .joining p } []
  /-- The host sends and gives up the sender. -/
  | send {p : Purpose} {k : Nat} {t t' : Thread} (host : w.host = .sending p)
      (sender : w.sender = some k) (thread : w.threads[k]? = some t) (sent : t.send? = some t') :
      Stepped w .send
        { w with threads := w.threads.set k t'.disconnect, sender := none, host := .joining p } []
  /-- The host has nobody to join. -/
  | goOn {p : Purpose} (host : w.host = .joining p) (handle : w.handle = none) :
      Stepped w .join (proceed { w with handle := none } p) []
  /-- The host joins a thread. -/
  | join {p : Purpose} {k : Nat} {t : Thread} (host : w.host = .joining p)
      (handle : w.handle = some k) (thread : w.threads[k]? = some t) (ended : t.running = false) :
      Stepped w .join (proceed { w with handle := none } p)
        (if t.phase = .panicked then [.threadPanicked] else [])
  /-- A thread takes a step. -/
  | move {e : Event} {k dropped : Nat} {t t' : Thread} (thread : w.threads[k]? = some t)
      (move : Move e k t t' dropped) :
      Stepped w e
        { w with threads := w.threads.set k t', references := w.references - dropped } []

/-! ## The invariant -/

namespace Host

/-- The references to the mark that the host holds. -/
def references : Host → Nat
  | .gone => 0
  | .free | .sending _ | .joining _ => 1

/-- The host has not yet given up the sender. -/
def canSend : Host → Bool
  | .free | .sending _ => true
  | .joining _ | .gone => false

end Host

/-- **The worker is in order.** -/
structure Orderly (w : ThreadWorker) : Prop where
  /-- Only the thread that can be joined may run. -/
  running : ∀ k t, w.threads[k]? = some t → t.running = true → w.handle = some k
  /-- That thread is the latest. -/
  latest : ∀ k, w.handle = some k → w.threads.length = k + 1
  /-- The host can send to the thread that it can join, until it has done so. -/
  sender : w.sender = if w.host.canSend then w.handle else none
  /-- Nothing was sent to a thread that the host can send to. -/
  silent : ∀ k t, w.sender = some k → w.threads[k]? = some t → t.message = false
  /-- The thread that the host waits to join has been told to end. -/
  told : ∀ p k t, w.host = .joining p → w.handle = some k → w.threads[k]? = some t →
    t.connected = false
  /-- A host that has given up the worker has nobody to join. -/
  gone : w.host = .gone → w.handle = none
  /-- There is a reference for each thread that runs, beside that of the host. -/
  references : w.references = w.host.references + w.threads.countP Thread.running

variable {w v : ThreadWorker} {e : Event} {o : Outcome ThreadWorker Unit} {log : List Record}

/-- If no entry of a list of threads runs, the count is zero. -/
theorem countP_eq_zero_of_getElem? {l : List Thread}
    (h : ∀ (k : Nat) (t : Thread), l[k]? = some t → t.running = false) :
    l.countP Thread.running = 0 := by
  refine List.countP_eq_zero.2 fun t ht => ?_
  obtain ⟨k, hk⟩ := List.mem_iff_getElem?.1 ht
  exact Bool.eq_false_iff.mp (h k t hk)

/-- A worker without a thread to talk to is in order if none runs. -/
theorem orderly_of_stopped (hsender : w.sender = none) (hhandle : w.handle = none)
    (hstopped : ∀ {k : Nat} {t : Thread}, w.threads[k]? = some t → t.running = false)
    (hreferences : w.references = w.host.references) : w.Orderly where
  running k t ht hrun := absurd hrun (Bool.eq_false_iff.mp (hstopped ht))
  latest k hk := absurd (hhandle.symm.trans hk) nofun
  sender := by rw [hsender, hhandle, ite_self]
  silent k t hk := absurd (hsender.symm.trans hk) nofun
  told p k t _ hk := absurd (hhandle.symm.trans hk) nofun
  gone _ := hhandle
  references := by rw [hreferences, countP_eq_zero_of_getElem? fun _ _ => hstopped, Nat.add_zero]

theorem orderly_new : new.Orderly :=
  orderly_of_stopped rfl rfl (fun ht => absurd ht (by simp [new])) rfl

/-! ## Every step -/

theorem move_of_threadStep? {k dropped : Nat} {move : Thread → Option Thread}
    (hmove : ∀ t t', move t = some t' → Move e k t t' dropped)
    (h : w.threadStep? k move dropped = some o) : Stepped w e o.state o.log := by
  rw [threadStep?] at h
  split at h
  · cases h
  next t ht =>
    obtain ⟨t', ht', rfl⟩ := Option.map_eq_some_iff.1 h
    exact .move ht (hmove t t' ht')

/-- **A thread that moves under a condition** from `t` to `t'`: if the condition says that it runs, the
move gives up a reference just in case it runs no more. -/
theorem move_of_guard {k : Nat} {t t' s : Thread} {p : Prop} [Decidable p]
    (h : (if p then some s else none) = some t') (hthread : e.thread? = some k)
    (hphase : p → t.phase = .waiting ∨ t.phase = .calling)
    (hpanicked : s.phase = .panicked ↔ e = .panic k) (hended : s.phase = .ended ↔ e = .finish k)
    (hmessage : t.message = false → s.message = false) (hconnected : s.connected = t.connected) :
    Move e k t t' (1 - s.running.toNat) := by
  obtain ⟨hp, hs⟩ := Option.ite_none_right_eq_some.1 h
  obtain rfl := Option.some.inj hs
  have hdropped : s.running.toNat + (1 - s.running.toNat) = 1 :=
    Nat.add_sub_cancel' (Bool.toNat_le s.running)
  exact ⟨hthread, Thread.running_iff.2 (hphase hp), hpanicked, hended, hdropped, hmessage, hconnected⟩

namespace Orderly

theorem sender_of_canSend (h : w.Orderly) (hhost : w.host.canSend = true) :
    w.sender = w.handle := by
  rw [h.sender, if_pos hhost]

theorem handle_of_sender (h : w.Orderly) {k : Nat} (hk : w.sender = some k) :
    w.handle = some k := by
  rw [h.sender] at hk
  split at hk
  · exact hk
  · cases hk

/-- The thread that can be joined exists. -/
theorem exists_thread (h : w.Orderly) {k : Nat} (hk : w.handle = some k) :
    ∃ t, w.threads[k]? = some t := by
  have hlen : w.threads.length = k + 1 := h.latest k hk
  exact ⟨w.threads[k], List.getElem?_eq_getElem (by omega)⟩

/-- **Everything that a step can do.** -/
theorem stepped (h : w.Orderly) (hstep : w.step? e = some o) : Stepped w e o.state o.log := by
  cases e with
  | call p =>
    rw [step?] at hstep
    split at hstep
    next hhost => cases hstep; exact .call hhost
    next => cases hstep
  | send =>
    rw [step?] at hstep
    split at hstep
    next p hhost =>
      rw [sendStep?] at hstep
      split at hstep
      next hsender => cases hstep; exact .pass hhost hsender
      next k hsender =>
        obtain ⟨t, ht⟩ := h.exists_thread (h.handle_of_sender hsender)
        rw [ht] at hstep
        obtain ⟨t', ht', rfl⟩ := Option.map_eq_some_iff.1 hstep
        exact .send hhost hsender ht ht'
    next => cases hstep
  | join =>
    rw [step?] at hstep
    split at hstep
    next p hhost =>
      rw [joinStep?] at hstep
      split at hstep
      next hhandle => cases hstep; exact .goOn hhost hhandle
      next k hhandle =>
        obtain ⟨t, ht⟩ := h.exists_thread hhandle
        rw [ht] at hstep
        have hjoin (hended : t.running = false) := Stepped.join hhost hhandle ht hended
        simp only at hstep
        split at hstep
        next hphase =>
          cases hstep
          simpa [hphase] using hjoin (by rw [Thread.running, hphase])
        next hphase =>
          cases hstep
          simpa [hphase] using hjoin (by rw [Thread.running, hphase])
        next => cases hstep
        next => cases hstep
    next => cases hstep
  | enter k =>
    refine move_of_threadStep? (fun t t' h => ?_) hstep
    exact move_of_guard h rfl .inl (by simp) (by simp) id rfl
  | «return» k =>
    refine move_of_threadStep? (fun t t' h => ?_) hstep
    exact move_of_guard h rfl .inr (by simp) (by simp) id rfl
  | panic k =>
    refine move_of_threadStep? (fun t t' h => ?_) hstep
    exact move_of_guard h rfl .inr (by simp) (by simp) id rfl
  | finish k =>
    refine move_of_threadStep? (fun t t' h => ?_) hstep
    exact move_of_guard h rfl (fun hguard => .inl hguard.1) (by simp) (by simp) (fun _ => rfl) rfl

/-- No thread but the one that can be joined runs. -/
theorem running_eq_false (h : w.Orderly) {k : Nat} {t : Thread} (ht : w.threads[k]? = some t)
    (hk : w.handle ≠ some k) : t.running = false :=
  Bool.eq_false_iff.mpr fun hrun => hk (h.running k t ht hrun)

/-- The host goes on only when no thread runs any more. -/
theorem stopped (h : w.Orderly) (hstepped : Stepped w .join v log) {k : Nat} {t : Thread}
    (ht : w.threads[k]? = some t) : t.running = false := by
  cases hstepped with
  | goOn _ hhandle => exact h.running_eq_false ht (by rw [hhandle]; nofun)
  | @join p j s _ hhandle hs hended =>
    by_cases hk : k = j
    · subst hk
      exact Option.some.inj (hs.symm.trans ht) ▸ hended
    · refine h.running_eq_false ht fun hk' => hk ?_
      exact Option.some.inj (hk'.symm.trans hhandle)
  | move _ hmove => cases hmove.thread

/-- The number of running threads, after one of them was replaced. -/
theorem countP_set_running {l : List Thread} {k : Nat} {t : Thread} (h : l[k]? = some t)
    (t' : Thread) :
    (l.set k t').countP Thread.running + t.running.toNat =
      l.countP Thread.running + t'.running.toNat := by
  have hone (b : Bool) : (if b = true then 1 else 0) = b.toNat := by cases b <;> rfl
  obtain ⟨hk, rfl⟩ := List.getElem?_eq_some_iff.1 h
  have hle : (l[k]).running.toNat ≤ l.countP Thread.running := by
    cases hrun : (l[k]).running with
    | false => exact Nat.zero_le _
    | true => exact List.countP_pos_iff.2 ⟨l[k], List.getElem_mem hk, hrun⟩
  rw [List.countP_set hk, hone, hone]
  omega

/-- **A host that has joined everybody goes on in order.** -/
theorem proceed (h : w.Orderly) {p : Purpose} (hhost : w.host = .joining p)
    (hrunning : ∀ {k : Nat} {t : Thread}, w.threads[k]? = some t → t.running = false) :
    (ThreadWorker.proceed { w with handle := none } p).Orderly := by
  have hcount : w.threads.countP Thread.running = 0 := countP_eq_zero_of_getElem? fun _ _ => hrunning
  have hreferences : w.references = 1 := by
    rw [h.references, hhost, hcount]
    rfl
  have hsender : w.sender = none := by
    rw [h.sender, hhost]
    rfl
  cases p with
  | stop => exact orderly_of_stopped hsender rfl hrunning hreferences
  | drop =>
    refine orderly_of_stopped hsender rfl hrunning ?_
    rw [ThreadWorker.proceed, hreferences]
    rfl
  | start task =>
    have hspawn {k : Nat} {t : Thread} (ht : (w.threads ++ [.spawn task])[k]? = some t) :
        (w.threads[k]? = some t) ∨ (k = w.threads.length ∧ t = .spawn task) := by
      rcases Lists.getElem?_concat w.threads (.spawn task) k with hk | ⟨hk, hlast⟩
      · exact .inl (hk.symm.trans ht)
      · exact .inr ⟨hk, Option.some.inj (ht.symm.trans hlast)⟩
    refine
      { running := fun k t ht hrun => ?_
        latest := fun k hk => ?_
        sender := rfl
        silent := fun k t hk ht => ?_
        told := nofun
        gone := nofun
        references := ?_ }
    · rcases hspawn ht with ht | ⟨rfl, -⟩
      · exact absurd hrun (Bool.eq_false_iff.mp (hrunning ht))
      · rfl
    · cases hk
      exact List.length_append
    · cases hk
      rcases hspawn ht with ht | ⟨-, rfl⟩
      · rw [List.getElem?_eq_none (Nat.le_refl _)] at ht
        cases ht
      · rfl
    · rw [ThreadWorker.proceed, List.countP_append, hcount, hreferences]
      rfl

/-- **Every step keeps the order.** -/
theorem step (h : w.Orderly) (hstep : w.step? e = some o) : o.state.Orderly := by
  have hstepped := h.stepped hstep
  generalize o.state = v, o.log = log at hstepped
  cases hstepped with
  | call hhost =>
    refine { h with sender := ?_, told := nofun, gone := nofun, references := ?_ }
    · exact h.sender_of_canSend (by rw [hhost]; rfl)
    · rw [h.references, hhost]
      rfl
  | pass hhost hsender =>
    have hhandle : w.handle = none := by
      rw [← h.sender_of_canSend (by rw [hhost]; rfl), hsender]
    refine { h with sender := rfl, silent := nofun, told := ?_, gone := nofun, references := ?_ }
    · intro q k t _ hk
      exact absurd (hhandle.symm.trans hk) nofun
    · rw [h.references, hhost]
      rfl
  | @send p k t t' hhost hsender ht hsent =>
    have hphase : t'.disconnect.running = t.running := by
      rw [Thread.running, Thread.running, Thread.disconnect, Thread.send?_phase hsent]
    have hhandle : w.handle = some k := h.handle_of_sender hsender
    refine
      { running := fun j s hs hrun => ?_
        latest := fun j hj => ?_
        sender := rfl
        silent := nofun
        told := fun q j s _ hj hs => ?_
        gone := nofun
        references := ?_ }
    · rcases Lists.getElem?_set_some hs with ⟨rfl, -⟩ | ⟨-, hs⟩
      · exact hhandle
      · exact h.running j s hs hrun
    · rw [List.length_set]
      exact h.latest j hj
    · obtain rfl : k = j := Option.some.inj (hhandle.symm.trans hj)
      rcases Lists.getElem?_set_some hs with ⟨-, rfl⟩ | ⟨hne, -⟩
      · rfl
      · exact absurd rfl hne
    · have hcount := countP_set_running ht t'.disconnect
      rw [hphase] at hcount
      rw [h.references, hhost, Nat.add_right_cancel hcount]
      rfl
  | goOn hhost hhandle => exact h.proceed hhost (h.stopped (.goOn hhost hhandle))
  | join hhost hhandle ht hended =>
    exact h.proceed hhost (h.stopped (.join hhost hhandle ht hended))
  | @move e k dropped t t' ht hmove =>
    have hhandle : w.handle = some k := h.running k t ht hmove.running
    refine
      { running := fun j s hs hrun => ?_
        latest := fun j hj => ?_
        sender := h.sender
        silent := fun j s hj hs => ?_
        told := fun q j s hq hj hs => ?_
        gone := h.gone
        references := ?_ }
    · rcases Lists.getElem?_set_some hs with ⟨rfl, -⟩ | ⟨-, hs⟩
      · exact hhandle
      · exact h.running j s hs hrun
    · rw [List.length_set]
      exact h.latest j hj
    · rcases Lists.getElem?_set_some hs with ⟨rfl, rfl⟩ | ⟨-, hs⟩
      · exact hmove.message (h.silent j t hj ht)
      · exact h.silent j s hj hs
    · rcases Lists.getElem?_set_some hs with ⟨rfl, rfl⟩ | ⟨-, hs⟩
      · exact hmove.connected.trans (h.told q j t hq hj ht)
      · exact h.told q j s hq hj hs
    · have hcount := countP_set_running ht t'
      have hdropped := hmove.dropped
      rw [hmove.running, Bool.toNat_true] at hcount
      have hreferences := h.references
      simp only
      omega

/-! ## Runs -/

theorem steps_cons_of_none (hstep : w.step? e = none) (es : List Event) :
    w.steps (e :: es) = w.steps es := by
  rw [ThreadWorker.steps, hstep]

theorem steps_cons_of_some (hstep : w.step? e = some o) (es : List Event) :
    w.steps (e :: es) = ⟨(o.state.steps es).state, (), o.log ++ (o.state.steps es).log⟩ := by
  rw [ThreadWorker.steps, hstep]

/-- So every run does. -/
theorem steps (h : w.Orderly) (es : List Event) : (w.steps es).state.Orderly := by
  induction es generalizing w with
  | nil => exact h
  | cons e es ih =>
    cases hstep : w.step? e with
    | none =>
      rw [steps_cons_of_none hstep]
      exact ih h
    | some o =>
      rw [steps_cons_of_some hstep]
      exact ih (h.step hstep)

/-! ## What the order gives -/

/-- **At most one thread runs.** -/
theorem countP_running_le (h : w.Orderly) : w.threads.countP Thread.running ≤ 1 := by
  rcases List.eq_nil_or_concat w.threads with hnil | ⟨former, t, hw⟩
  · rw [hnil]
    exact Nat.zero_le 1
  · rw [List.concat_eq_append] at hw
    have hformer : former.countP Thread.running = 0 := by
      refine countP_eq_zero_of_getElem? fun j s hs => ?_
      have hj : j < former.length := (List.getElem?_eq_some_iff.1 hs).1
      refine h.running_eq_false (by rw [hw, List.getElem?_append_left hj]; exact hs) fun hhandle => ?_
      have hlen := h.latest j hhandle
      rw [hw, List.length_append, List.length_singleton] at hlen
      omega
    rw [hw, List.countP_append, hformer, Nat.zero_add]
    exact List.countP_le_length

/-- **The worker is alive as long as a thread runs.** -/
theorem isAlive_iff (h : w.Orderly) :
    w.isAlive = true ↔ ∃ (k : Nat) (t : Thread), w.threads[k]? = some t ∧ t.running = true := by
  have hcount : w.isAlive = true ↔ 0 < w.threads.countP Thread.running := by
    rw [isAlive, decide_eq_true_iff, h.references]
    cases hhost : w.host with
    | gone =>
      have hnone : w.threads.countP Thread.running = 0 :=
        countP_eq_zero_of_getElem? fun k t ht =>
          h.running_eq_false ht (by rw [h.gone hhost]; nofun)
      rw [hnone]
      decide
    | _ => exact Nat.lt_add_right_iff_pos
  rw [hcount, List.countP_pos_iff]
  constructor
  · rintro ⟨t, ht, hrun⟩
    obtain ⟨k, hk⟩ := List.mem_iff_getElem?.1 ht
    exact ⟨k, t, hk, hrun⟩
  · rintro ⟨k, t, hk, hrun⟩
    exact ⟨t, List.mem_of_getElem? hk, hrun⟩

/-- **Sending never waits**: the channel is empty, or its thread is gone. -/
theorem send_possible (h : w.Orderly) {p : Purpose} (hhost : w.host = .sending p) :
    (w.step? .send).isSome = true := by
  rw [step?, hhost]
  simp only [sendStep?]
  cases hsender : w.sender with
  | none => rfl
  | some k =>
    obtain ⟨t, ht⟩ := h.exists_thread (h.handle_of_sender hsender)
    simp only [ht, Option.isSome_map, Thread.send?, h.silent k t hsender ht]
    cases t.running <;> rfl

/-- A host that waits to join a thread does not wait forever for nothing: the thread is in its
callback, or it can end. -/
theorem join_possible_or (h : w.Orderly) {p : Purpose} (hhost : w.host = .joining p) :
    (w.step? .join).isSome = true ∨
      ∃ k, (w.step? (.return k)).isSome = true ∨ (w.step? (.finish k)).isSome = true := by
  cases hhandle : w.handle with
  | none =>
    refine .inl ?_
    rw [step?, hhost]
    simp only [joinStep?, hhandle]
    rfl
  | some k =>
    obtain ⟨t, ht⟩ := h.exists_thread hhandle
    have htold : t.connected = false := h.told p k t hhost hhandle ht
    cases hphase : t.phase with
    | waiting =>
      refine .inr ⟨k, .inr ?_⟩
      simp [step?, threadStep?, ht, Thread.finish?, hphase, htold]
    | calling =>
      refine .inr ⟨k, .inl ?_⟩
      simp [step?, threadStep?, ht, Thread.return?, hphase]
    | ended | panicked =>
      refine .inl ?_
      simp [step?, hhost, joinStep?, hhandle, ht, hphase]

/-- **A call returns once no thread runs any more**, and then the host goes on. -/
theorem step_join (h : w.Orderly) {p : Purpose} (hhost : w.host = .joining p)
    (hstep : w.step? .join = some o) :
    o.state = ThreadWorker.proceed { w with handle := none } p ∧
      ∀ t ∈ w.threads, t.running = false := by
  have hstepped := h.stepped hstep
  constructor
  · generalize o.state = v, o.log = log at hstepped ⊢
    cases hstepped with
    | goOn hhost' | join hhost' => rw [Host.joining.inj (hhost.symm.trans hhost')]
    | move _ hmove => cases hmove.thread
  · intro t ht
    obtain ⟨k, hk⟩ := List.mem_iff_getElem?.1 ht
    exact h.stopped hstepped hk

end Orderly
end ThreadWorker
end Chip8
