import ScratchBird.Platform

/-!
# The mode latch

`checked_mode_latch.hpp`. A latch is held in one of eleven modes by any number of
grants that tolerate each other; a call that cannot have its grant at once parks
in a queue. A step below is what one thread does between taking the mutex and
giving it up. `Acquire` has three such stretches: it joins the queue, then makes
a pass of its loop each time it has the mutex back, and after it has left the
queue it takes the mutex once more to end the call. In between it registers its
stop callback, is parked on the condition, or takes the callback back.

A `Grant` record is on the list of holders just as long as its `latch_` is set,
so the list has the records themselves. A record is borrowed by the call it was
given to, which the class asks of its callers. The clock and the stop token are
read afresh at each look, and a wait may end without a notification; the order of
arrival is kept beside the rank, where no call reads it.
-/

namespace ScratchBird.CheckedModeLatch

inductive Mode where
  | none | sharedRead | intentRead | intentWrite | exclusiveWrite | upgrade
  | cleanup | recovery | flush | eviction | publication | verification
  deriving DecidableEq

inductive Result where
  | acquired | busy | invalid | recursive | exhausted | timedOut | cancelled
  | closed | failed | released
  deriving DecidableEq

def valid (mode : Mode) : Bool := 1 ≤ mode.ctorIdx && mode.ctorIdx ≤ 11

def rows : List Nat := [0x487, 0x487, 0x007, 0, 0, 0x020, 0, 0x483, 0, 0, 0x483]

def compatible (requested held : Mode) : Bool :=
  valid requested && valid held && (rows.getD (requested.ctorIdx - 1) 0).testBit (held.ctorIdx - 1)

structure Grant where
  record : Nat
  mode : Mode
  thread : Nat
  owner : Option Uuid := none
  deriving DecidableEq

/-- The arguments of `TryAcquire` and `Acquire`: the grant asked for. -/
structure Request extends Grant where
  deadline : Option Nat := none
  deriving DecidableEq

/-- Where a call stands that is in the queue. -/
inductive Phase where
  | registering | parked | notified
  deriving DecidableEq

structure Node extends Request where
  rank : Nat
  arrival : Nat
  phase : Phase := .registering
  deriving DecidableEq

structure Latch where
  holderLimit : Nat
  waiterLimit : Nat
  holders : List Grant := []
  queue : List Node := []
  holderCount : Nat := 0
  waiters : Nat := 0
  calls : Nat := 0
  closed : Bool := false
  /-- The calls that have left the queue and have not returned. -/
  leaving : List (Node × Result) := []
  arrivals : Nat := 0

/-- What a look at the clock and at the stop token of a call finds. -/
structure Look where
  now : Nat := 0
  stopRequested : Bool := false

namespace Latch

def canGrant (latch : Latch) (mode : Mode) : Bool :=
  latch.holders.all fun holder => compatible mode holder.mode

def isRecursive (latch : Latch) (thread : Nat) : Bool := latch.holders.any (·.thread == thread)

def terminal (latch : Latch) (deadline : Option Nat) (look : Look) : Option Result :=
  if latch.closed then some .closed
  else if look.stopRequested then some .cancelled
  else if deadline.any (· ≤ look.now) then some .timedOut
  else none

def preflight (latch : Latch) (request : Request) (look : Look) : Option Result :=
  if latch.isRecursive request.thread then some .recursive
  else latch.terminal request.deadline look

def notify (latch : Latch) : Latch :=
  { latch with
    queue := latch.queue.map fun node =>
      if node.phase = .parked then { node with phase := .notified } else node }

def commit (latch : Latch) (request : Request) : Latch :=
  { latch with holders := request.toGrant :: latch.holders, holderCount := latch.holderCount + 1 }

def active (latch : Latch) (record : Nat) : Bool := latch.holders.any (·.record == record)

def tryAcquire (latch : Latch) (request : Request) (look : Look) : Result × Latch :=
  if !valid request.mode || latch.active request.record then (.invalid, latch)
  else match latch.preflight request look with
  | some result => (result, latch)
  | none =>
    if latch.holderCount = latch.holderLimit then (.exhausted, latch)
    else if !latch.queue.isEmpty || !latch.canGrant request.mode then
      (.busy, latch)
    else (.acquired, latch.commit request)

def arriving (latch : Latch) (request : Request) (rank : Nat) : Node :=
  { request with rank, arrival := latch.arrivals }

/-- The new node goes before the first one with a larger rank. -/
def enqueue (latch : Latch) (request : Request) (rank : Nat) : Latch :=
  { latch with
    queue := List.orderedInsert (·.rank < ·.rank) (latch.arriving request rank) latch.queue
    waiters := latch.waiters + 1
    calls := latch.calls + 1
    arrivals := latch.arrivals + 1 }

/-- `Acquire` up to where it gives up the mutex; no result means that the call
has joined the queue. -/
def acquire (latch : Latch) (request : Request) (rank : Nat) (look : Look) :
    Option Result × Latch :=
  if !valid request.mode || latch.active request.record then (some .invalid, latch)
  else match latch.preflight request look with
  | some result => (some result, latch)
  | none =>
    if latch.holderLimit = 0 then (some .exhausted, latch)
    else if latch.queue.isEmpty && latch.holderCount < latch.holderLimit &&
        latch.canGrant request.mode then
      (some .acquired, latch.commit request)
    else if latch.waiters = latch.waiterLimit || latch.calls = latch.waiterLimit then
      (some .exhausted, latch)
    else
      (none, latch.enqueue request rank)

/-- What follows the loop of `Acquire`, up to where it gives up the mutex. -/
def leave (latch : Latch) (node : Node) (result : Result) : Latch :=
  notify { latch with
    queue := latch.queue.erase node
    waiters := latch.waiters - 1
    leaving := (node, result) :: latch.leaving }

def park (latch : Latch) (node : Node) : Latch :=
  { latch with
    queue := latch.queue.map fun other =>
      if other = node then { other with phase := .parked } else other }

/-- A pass of the loop of `Acquire`. -/
def pass (latch : Latch) (node : Node) (look : Look) : Latch :=
  match latch.preflight node.toRequest look with
  | some result => latch.leave node result
  | none =>
    if latch.queue.head? = some node && latch.holderCount < latch.holderLimit &&
        latch.canGrant node.mode then
      (latch.commit node.toRequest).leave node .acquired
    else latch.park node

/-- The end of `Acquire`, with its result. -/
def finish (latch : Latch) (call : Node × Result) : Result × Latch :=
  (call.2, { latch with leaving := latch.leaving.erase call, calls := latch.calls - 1 })

def releaseLocked (latch : Latch) (grant : Grant) : Latch :=
  notify { latch with holders := latch.holders.erase grant, holderCount := latch.holderCount - 1 }

/-- The record that `Owned` accepts. -/
def owned (latch : Latch) (thread record : Nat) (owner : Option Uuid) : Option Grant :=
  latch.holders.find? fun holder =>
    holder.record = record && holder.thread = thread && holder.owner = owner

def release (latch : Latch) (thread record : Nat) (owner : Option Uuid) : Bool × Latch :=
  match latch.owned thread record owner with
  | none => (false, latch)
  | some grant => (true, latch.releaseLocked grant)

def releaseIntentForUpgrade (latch : Latch) (thread record : Nat)
    (deadline : Option Nat) (owner : Option Uuid) (look : Look) : Result × Latch :=
  match latch.owned thread record owner with
  | none => (.invalid, latch)
  | some grant =>
    if grant.mode ≠ .intentWrite then (.invalid, latch)
    else if latch.holders.any fun held =>
        held.record != record && held.mode == .intentWrite then (.busy, latch)
    else match latch.terminal deadline look with
    | some result => (result, latch)
    | none => (.released, latch.releaseLocked grant)

def promote (latch : Latch) (grant : Grant) : Latch :=
  { latch with
    holders := latch.holders.map fun held =>
      if held = grant then { held with mode := .exclusiveWrite } else held }

def promoteUpgradeToExclusive (latch : Latch) (thread record : Nat)
    (deadline : Option Nat) (owner : Option Uuid) (look : Look) : Result × Latch :=
  match latch.owned thread record owner with
  | none => (.invalid, latch)
  | some grant =>
    if grant.mode ≠ .upgrade then (.invalid, latch)
    else match latch.terminal deadline look with
    | some result => (result, latch)
    | none => (.acquired, latch.promote grant)

def close (latch : Latch) : Latch := notify { latch with closed := true }

/-- The thread is not inside `Acquire`, and no such call has the record. -/
def free (latch : Latch) (thread record : Nat) : Bool :=
  (latch.queue ++ latch.leaving.map (·.1)).all fun node =>
    node.thread != thread && node.record != record

end Latch

/-- What a thread that has the mutex does until it gives it up. -/
inductive Step where
  | tryAcquire (request : Request) (look : Look)
  | acquire (request : Request) (rank : Nat) (look : Look)
  /-- A call in the queue has the mutex back. -/
  | pass (thread : Nat) (look : Look)
  /-- The same, but the native wait has failed. -/
  | waitFailed (thread : Nat)
  | finish (thread : Nat)
  | release (thread record : Nat) (owner : Option Uuid)
  | releaseIntentForUpgrade (thread record : Nat) (deadline : Option Nat)
      (owner : Option Uuid) (look : Look)
  | promoteUpgradeToExclusive (thread record : Nat) (deadline : Option Nat)
      (owner : Option Uuid) (look : Look)
  | close
  /-- A stop callback runs. -/
  | wake

/-- A step that cannot be taken in the state of its thread is none. -/
def Latch.step (latch : Latch) : Step → Option Latch
  | .tryAcquire request look =>
    if latch.free request.thread request.record then
      some (latch.tryAcquire request look).2
    else none
  | .acquire request rank look =>
    if latch.free request.thread request.record then
      some (latch.acquire request rank look).2
    else none
  | .pass thread look =>
    (latch.queue.find? (·.thread == thread)).map fun node => latch.pass node look
  | .waitFailed thread =>
    (latch.queue.find? fun node => node.thread == thread && node.phase != .registering).map
      fun node => latch.leave node .failed
  | .finish thread =>
    (latch.leaving.find? (·.1.thread == thread)).map fun call => (latch.finish call).2
  | .release thread record owner =>
    if latch.free thread record then some (latch.release thread record owner).2
    else none
  | .releaseIntentForUpgrade thread record deadline owner look =>
    if latch.free thread record then
      some (latch.releaseIntentForUpgrade thread record deadline owner look).2
    else none
  | .promoteUpgradeToExclusive thread record deadline owner look =>
    if latch.free thread record then
      some (latch.promoteUpgradeToExclusive thread record deadline owner look).2
    else none
  | .close => some latch.close
  | .wake => some latch.notify

end ScratchBird.CheckedModeLatch
