import EinkLab.Transition.Run

/-!
# The main-thread resample dispatcher

`MainThreadResampleDispatcher` (`eink_main_thread_resample_dispatcher.cpp`): one request at a time
is handed to the main thread.  Any threads may call `Request`, `Stop` and the posted tasks.

`Request` posts its task outside the lock: between `request` and `postReturned` the task exists, and
`posting` lists the requests that are there.  A task runs at any time from then on, on any thread,
also while the post is still being made, after it has been refused, and again.  `RunPostedTask` runs
the action outside the lock: between `runPostedTask` and `beginAction` it stands in `claimed`.  The
destructor is a `stop`.

Sequences and counters are natural numbers: the source's have 64 bits, and the runs are those that
issue fewer than `2 ^ 64` requests, so that no sequence comes again.
-/

namespace EinkLab

open Transition

namespace MainThreadResampleDispatcher

inductive RequestResult
  | posted | coalesced | rejected | stopped
  deriving DecidableEq, Repr

structure Diagnostics where
  requested : Nat := 0
  posted : Nat := 0
  coalesced : Nat := 0
  rejected : Nat := 0
  dispatched : Nat := 0
  cancelled : Nat := 0
  stoppedRequests : Nat := 0
  deriving DecidableEq, Repr

end MainThreadResampleDispatcher

open MainThreadResampleDispatcher

/-- `State`, with the calls that stand outside the lock, by the sequence they hold. -/
structure MainThreadResampleDispatcher where
  /-- `post_task` and `action` are not null. -/
  postTask : Bool := true
  action : Bool := true
  diagnostics : Diagnostics := {}
  stopped : Bool := false
  outstanding : Bool := false
  sequence : Nat := 0
  posting : List Nat := []
  claimed : List Nat := []
  deriving DecidableEq, Repr

namespace MainThreadResampleDispatcher

inductive Event
  /-- A request has set `outstanding` under this sequence and posts its task. -/
  | issued (sequence : Nat)
  | returned (result : RequestResult)
  /-- How an outstanding request ends. -/
  | dispatched (sequence : Nat)
  | cancelled (sequence : Nat)
  | rejected (sequence : Nat)
  /-- An invocation of the action begins. -/
  | begun (sequence : Nat)
  /-- `Stop` has returned. -/
  | stopped
  deriving DecidableEq, Repr

/-- `Request`, up to the call of `post_task`. -/
def request (s : MainThreadResampleDispatcher) : MainThreadResampleDispatcher × List Event :=
  let d := { s.diagnostics with requested := s.diagnostics.requested + 1 }
  if s.stopped then
    ({ s with diagnostics := { d with stoppedRequests := d.stoppedRequests + 1 } },
      [.returned .stopped])
  else if s.outstanding then
    ({ s with diagnostics := { d with coalesced := d.coalesced + 1 } }, [.returned .coalesced])
  else if !s.postTask then
    ({ s with diagnostics := { d with rejected := d.rejected + 1 } }, [.returned .rejected])
  else
    ({ s with
      diagnostics := d
      outstanding := true
      sequence := s.sequence + 1
      posting := (s.sequence + 1) :: s.posting }, [.issued (s.sequence + 1)])

/-- `post_task` returns, and `Request` takes the lock again. -/
def postReturned (s : MainThreadResampleDispatcher) (sequence : Nat) (accepted : Bool) :
    MainThreadResampleDispatcher × List Event :=
  let s := { s with posting := s.posting.erase sequence }
  if accepted then
    ({ s with diagnostics := { s.diagnostics with posted := s.diagnostics.posted + 1 } },
      [.returned .posted])
  else if s.sequence = sequence && s.outstanding then
    -- the task has not run, nor has the dispatcher been stopped, while the post was made
    ({ s with
      outstanding := false
      diagnostics := { s.diagnostics with rejected := s.diagnostics.rejected + 1 } },
      [.rejected sequence, .returned .rejected])
  else (s, [.returned .rejected])

def stop (s : MainThreadResampleDispatcher) : MainThreadResampleDispatcher × List Event :=
  if s.stopped then (s, [.stopped])
  else if s.outstanding then
    ({ s with
      stopped := true
      outstanding := false
      diagnostics := { s.diagnostics with cancelled := s.diagnostics.cancelled + 1 } },
      [.cancelled s.sequence, .stopped])
  else ({ s with stopped := true }, [.stopped])

/-- `RunPostedTask` under the lock. -/
def runPostedTask (s : MainThreadResampleDispatcher) (sequence : Nat) :
    MainThreadResampleDispatcher × List Event :=
  if s.stopped || !s.outstanding || s.sequence ≠ sequence then (s, [])
  else
    ({ s with
      outstanding := false
      diagnostics := { s.diagnostics with dispatched := s.diagnostics.dispatched + 1 }
      claimed := if s.action then sequence :: s.claimed else s.claimed },
      [.dispatched sequence])

/-- `action()`, after the lock has been dropped. -/
def beginAction (s : MainThreadResampleDispatcher) (sequence : Nat) :
    MainThreadResampleDispatcher × List Event :=
  ({ s with claimed := s.claimed.erase sequence }, [.begun sequence])

inductive Action
  | request
  | postReturned (sequence : Nat) (accepted : Bool)
  | stop
  | runPostedTask (sequence : Nat)
  | beginAction (sequence : Nat)
  deriving DecidableEq, Repr

/-- A task exists once its request has been issued. -/
def step (s : MainThreadResampleDispatcher) :
    Action → Option (MainThreadResampleDispatcher × List Event)
  | .request => some s.request
  | .postReturned sequence accepted =>
    if sequence ∈ s.posting then some (s.postReturned sequence accepted) else none
  | .stop => some s.stop
  | .runPostedTask sequence =>
    if 0 < sequence ∧ sequence ≤ s.sequence then some (s.runPostedTask sequence) else none
  | .beginAction sequence =>
    if sequence ∈ s.claimed then some (s.beginAction sequence) else none

def system : System MainThreadResampleDispatcher Action Event where
  step := step

/-! ### Requests of a log -/

/-- The sequences that have been issued. -/
def issuedSequences (log : List Event) : List Nat :=
  log.filterMap fun
    | .issued sequence => some sequence
    | _ => none

/-- The requests that have been issued and have not ended. -/
def openRequests (log : List Event) : List Nat :=
  log.foldl (fun requests e =>
    match e with
    | .issued sequence => sequence :: requests
    | .dispatched sequence | .cancelled sequence | .rejected sequence => requests.erase sequence
    | _ => requests) []

/-- How often the action has been run for a sequence. -/
def runs (log : List Event) (sequence : Nat) : Nat := log.count (.begun sequence)

end MainThreadResampleDispatcher

end EinkLab
