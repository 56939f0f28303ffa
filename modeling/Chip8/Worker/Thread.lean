import Chip8.Outcome
import Chip8.Worker.Basic

/-!
# Workers on threads

A worker that keeps a thread of its own.  The thread waits on a channel for one interval at a time:
if nothing arrives it calls back, and a message, or the loss of the only sender, ends it.  A callback
that panics ends it too.  The host holds the sender and the right to join the thread, and gives up
both when it stops the worker.  Host and threads share a mark, each by a reference of its own; the
worker is alive as long as somebody else than the host holds one.

Host and threads take turns in any order, so a worker is described by single steps.

## What is here

* `Thread` — one thread, from its start to its end, with the state of its channel.
* `ThreadWorker` — all threads a worker ever had, and what the host still holds.
* `ThreadWorker.Event`, `ThreadWorker.step?` — the single steps; an impossible one is `none`.
* `ThreadWorker.start`, `ThreadWorker.stop`, `ThreadWorker.replace` — the calls of a host whose
  thread answers at once.
* `ThreadWorker.await` — lets time pass until a condition holds.
-/

namespace Chip8

/-! ## Threads -/

/-- What a worker is asked to do: how long it waits between two calls, how long a call takes (both
in microseconds), and whether the calls end in a panic. -/
structure Task where
  interval : Nat
  work : Nat := 0
  panics : Bool := false
deriving DecidableEq

/-- What a thread is doing. -/
inductive Thread.Phase
  /-- It waits for its interval to elapse or for a message. -/
  | waiting
  /-- It is inside the callback. -/
  | calling
  /-- It ended as it was told to. -/
  | ended
  /-- It died in the callback. -/
  | panicked
deriving DecidableEq

/-- A thread and its channel, which holds at most one message. -/
structure Thread where
  task : Task
  phase : Thread.Phase
  /-- A message waits in the channel. -/
  message : Bool
  /-- Somebody can still send to the channel. -/
  connected : Bool
  /-- How often the callback was entered. -/
  calls : Nat
deriving DecidableEq

namespace Thread

/-- A thread that has just been started. -/
def spawn (task : Task) : Thread := ⟨task, .waiting, false, true, 0⟩

/-- Whether the thread still runs. -/
def running (t : Thread) : Bool :=
  match t.phase with
  | .waiting => true
  | .calling => true
  | .ended => false
  | .panicked => false

/-- The interval elapses and the callback is entered. -/
def enter? (t : Thread) : Option Thread :=
  if t.phase = .waiting then some { t with phase := .calling, calls := t.calls + 1 } else none

/-- The callback returns. -/
def return? (t : Thread) : Option Thread :=
  if t.phase = .calling then some { t with phase := .waiting } else none

/-- The callback panics. -/
def panic? (t : Thread) : Option Thread :=
  if t.phase = .calling then some { t with phase := .panicked } else none

/-- The thread is told to end, by a message or by the loss of the sender. -/
def finish? (t : Thread) : Option Thread :=
  if t.phase = .waiting ∧ (t.message = true ∨ t.connected = false) then
    some { t with phase := .ended, message := false }
  else none

/-- The host puts a message into the channel: it waits while the channel is full, and the message
is lost if the thread is gone. -/
def send? (t : Thread) : Option Thread :=
  if t.running = false then some t
  else if t.message = true then none
  else some { t with message := true }

/-- The host gives up the sender. -/
def disconnect (t : Thread) : Thread := { t with connected := false }

end Thread

/-! ## Workers -/

/-- What the host goes on with once a worker is stopped. -/
inductive ThreadWorker.Purpose
  /-- Nothing. -/
  | stop
  /-- A new thread. -/
  | start (task : Task)
  /-- The worker is given up. -/
  | drop
deriving DecidableEq

/-- Where the host is. -/
inductive ThreadWorker.Host
  /-- Outside of every call. -/
  | free
  /-- In a call, before the message is sent. -/
  | sending (purpose : ThreadWorker.Purpose)
  /-- In a call, before the thread is joined. -/
  | joining (purpose : ThreadWorker.Purpose)
  /-- The worker is gone. -/
  | gone
deriving DecidableEq

/-- A worker: its threads in the order of their start, the number of the thread the host can send
to, the number of the thread it can join, how many references to the mark there are, and where the
host is. -/
structure ThreadWorker where
  threads : List Thread
  sender : Option Nat
  handle : Option Nat
  references : Nat
  host : ThreadWorker.Host
deriving DecidableEq

namespace ThreadWorker

/-- A worker without a thread. -/
def new : ThreadWorker := ⟨[], none, none, 1, .free⟩

instance : Inhabited ThreadWorker := ⟨new⟩

/-- Whether a thread holds a reference to the mark, beside the host. -/
def isAlive (w : ThreadWorker) : Bool := decide (1 < w.references)

/-- How often the latest callback was entered. -/
def calls (w : ThreadWorker) : Nat :=
  match w.threads.getLast? with
  | none => 0
  | some t => t.calls

/-- A single step. -/
inductive Event
  /-- The host enters a call. -/
  | call (purpose : Purpose)
  /-- The host sends the message that ends the thread, and gives up the sender. -/
  | send
  /-- The host joins the thread, and goes on with what it came for. -/
  | join
  /-- Thread `k` enters its callback. -/
  | enter (k : Nat)
  /-- The callback of thread `k` returns. -/
  | return (k : Nat)
  /-- The callback of thread `k` panics. -/
  | panic (k : Nat)
  /-- Thread `k` notices that it has to end. -/
  | finish (k : Nat)
deriving DecidableEq

/-- A step of thread `k` alone, which gives up `dropped` references. -/
def threadStep? (w : ThreadWorker) (k : Nat) (move : Thread → Option Thread) (dropped : Nat) :
    Option (Outcome ThreadWorker Unit) :=
  match w.threads[k]? with
  | none => none
  | some t =>
    (move t).map fun t' =>
      ⟨{ w with threads := w.threads.set k t', references := w.references - dropped }, (), []⟩

/-- The host has no thread any more and goes on with what it came for. -/
def proceed (w : ThreadWorker) : Purpose → ThreadWorker
  | .stop => { w with host := .free }
  | .drop => { w with references := w.references - 1, host := .gone }
  | .start task =>
    ⟨w.threads ++ [.spawn task], some w.threads.length, some w.threads.length,
      w.references + 1, .free⟩

/-- The host sends, if it has a sender. -/
def sendStep? (w : ThreadWorker) (purpose : Purpose) : Option (Outcome ThreadWorker Unit) :=
  let sent : ThreadWorker := { w with sender := none, host := .joining purpose }
  match w.sender with
  | none => some ⟨sent, (), []⟩
  | some k =>
    match w.threads[k]? with
    | none => some ⟨sent, (), []⟩
    | some t =>
      t.send?.map fun t' => ⟨{ sent with threads := w.threads.set k t'.disconnect }, (), []⟩

/-- The host joins, if it has a thread to join; that thread has to be at its end. -/
def joinStep? (w : ThreadWorker) (purpose : Purpose) : Option (Outcome ThreadWorker Unit) :=
  let joined : ThreadWorker := { w with handle := none }
  match w.handle with
  | none => some ⟨joined.proceed purpose, (), []⟩
  | some k =>
    match w.threads[k]? with
    | none => some ⟨joined.proceed purpose, (), []⟩
    | some t =>
      match t.phase with
      | .ended => some ⟨joined.proceed purpose, (), []⟩
      | .panicked => some ⟨joined.proceed purpose, (), [.threadPanicked]⟩
      | .waiting => none
      | .calling => none

/-- **A single step**, if it is possible. -/
def step? (w : ThreadWorker) : Event → Option (Outcome ThreadWorker Unit)
  | .call purpose =>
    if w.host = .free then some ⟨{ w with host := .sending purpose }, (), []⟩ else none
  | .send =>
    match w.host with
    | .sending purpose => w.sendStep? purpose
    | _ => none
  | .join =>
    match w.host with
    | .joining purpose => w.joinStep? purpose
    | _ => none
  | .enter k => w.threadStep? k Thread.enter? 0
  | .return k => w.threadStep? k Thread.return? 0
  | .panic k => w.threadStep? k Thread.panic? 1
  | .finish k => w.threadStep? k Thread.finish? 1

/-- Takes steps one after the other and leaves out those that are impossible. -/
def steps (w : ThreadWorker) : List Event → Outcome ThreadWorker Unit
  | [] => ⟨w, (), []⟩
  | e :: es =>
    match w.step? e with
    | none => w.steps es
    | some o =>
      let rest := o.state.steps es
      ⟨rest.state, (), o.log ++ rest.log⟩

/-! ## Calls -/

/-- The number of the latest thread. -/
def latest (w : ThreadWorker) : Nat := w.threads.length - 1

/-- A call of the host, during which the thread ends as soon as it is told to. -/
def perform (w : ThreadWorker) (purpose : Purpose) : Outcome ThreadWorker Unit :=
  w.steps [.call purpose, .send, .finish w.latest, .join]

/-- Starts a task; an earlier one is stopped first. -/
def start (w : ThreadWorker) (task : Task) : Outcome ThreadWorker Unit := w.perform (.start task)

/-- Stops the worker. -/
def stop (w : ThreadWorker) : Outcome ThreadWorker Unit := w.perform .stop

/-- Gives the worker up for a new one; the threads it had are remembered. -/
def replace (w : ThreadWorker) : Outcome ThreadWorker Unit :=
  (w.perform .drop).mapState fun w =>
    { w with sender := none, handle := none, references := 1, host := .free }

/-! ## Time -/

/-- How a call of the latest thread ends. -/
def callEnd (w : ThreadWorker) : Event :=
  match w.threads.getLast? with
  | none => .return w.latest
  | some t => if t.task.panics then .panic w.latest else .return w.latest

/-- The interval elapses once: the latest thread calls back, unless it has ended. -/
def beat (w : ThreadWorker) : ThreadWorker := (w.steps [.enter w.latest, w.callEnd]).state

/-- The time between two callbacks of the latest thread. -/
def period (w : ThreadWorker) : Nat :=
  match w.threads.getLast? with
  | none => patience
  | some t => max t.task.interval t.task.work

/-- Lets time pass until a condition holds, as long as the patience of the host lasts. -/
def await (w : ThreadWorker) (done : ThreadWorker → Bool) : ThreadWorker :=
  waitUntil w.period (fun _ _ => beat) done w

end ThreadWorker
end Chip8
