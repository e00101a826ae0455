import ScratchBird.Platform.CheckedModeLatch

/-!
# The order of held latches

`held_latch_order.hpp`, and the calls of `retained_mode_latch.hpp` and
`retained_mutex_latch.hpp` that take latches and give them back. Every thread lists
the latches it holds, and a call that would wait for a latch of a lower class than
one on the list is refused before it does.

A step is what one thread does between two points at which others can see it. The
call asks the native latch and waits there; the latch grants or gives up; the thread
then puts its node on its list under the lifetime lock, which is the last stretch of
the call. The order is asked for twice in `Acquire`, and only the second time, after
the memory of the grant is there, is modelled. Which of the calls waiting for it a
latch answers, and when it gives one up, is not determined here. A mutex is a latch
that is held exclusively only. Retirement guards, deadlines, and the count of grants
that closing a latch waits for are left out.
-/

namespace ScratchBird.HeldLatchOrder

open CheckedModeLatch (Mode valid compatible)

inductive LatchClass where
  | unspecified | engineLifecycle | databaseState | transactionInventory | catalogMetadata
  | relationIndexDescriptor | filespaceDescriptor | allocationMap | pageCacheBucket | page
  | recordLineage | archiveDescriptor | temporaryStorage | metricsEvidence
  deriving DecidableEq

inductive Kind where
  | mode | mutex
  deriving DecidableEq

structure Latch where
  kind : Kind
  primitive : Uuid
  generation : Nat
  latchClass : LatchClass
  deriving DecidableEq

structure Grant where
  latch : Latch
  mode : Mode
  thread : Nat
  deriving DecidableEq

/-- Where a thread stands: in no call, in the native call, or back from it with a
grant that is not on the list yet. -/
inductive Phase where
  | running
  | waiting (latch : Latch) (mode : Mode)
  | granted (latch : Latch)

structure Thread where
  held : List Latch := []
  phase : Phase := .running

structure System where
  grants : List Grant := []
  threads : Nat → Thread := fun _ => {}

def heldOrderConflict (held : List Latch) (requested : LatchClass) : Option Latch :=
  held.find? fun latch => requested.ctorIdx < latch.latchClass.ctorIdx

def enter (s : System) (thread : Nat) (latch : Latch) (mode : Mode) : System :=
  { s with
    threads := Function.update s.threads thread
      { s.threads thread with phase := .waiting latch mode } }

/-- `Acquire` of either kind of latch, up to the native call. -/
def acquire (s : System) (thread : Nat) (latch : Latch) (mode : Mode) : System :=
  if !valid mode || latch.kind = .mutex && mode != .exclusiveWrite then s
  else
    match heldOrderConflict (s.threads thread).held latch.latchClass with
    | some _ => s
    | none => enter s thread latch mode

/-- The native release and the unlinking, in one hold of the lifetime lock. -/
def drop (s : System) (thread : Nat) (grant : Grant) : System where
  grants := s.grants.erase grant
  threads := Function.update s.threads thread
    { s.threads thread with held := (s.threads thread).held.erase grant.latch }

def release (s : System) (thread : Nat) (grant : Grant) : System :=
  if grant ∈ s.grants ∧ grant.thread = thread then drop s thread grant else s

def upgradeIntent (s : System) (thread : Nat) (grant : Grant) : System :=
  if grant.latch.kind ≠ .mode ∨ grant.mode ≠ .intentWrite then s
  else
    match heldOrderConflict (s.threads thread).held grant.latch.latchClass with
    | some _ => s
    | none =>
      if grant ∈ s.grants ∧ grant.thread = thread ∧ ∀ other ∈ s.grants,
          other ≠ grant → other.latch = grant.latch → other.mode ≠ .intentWrite then
        enter (drop s thread grant) thread grant.latch .upgrade
      else s

/-- The native latch lets a call have its grant. -/
def commit (s : System) (thread : Nat) (latch : Latch) (mode : Mode) : Option System :=
  if ∀ held ∈ s.grants, held.latch = latch → held.thread ≠ thread ∧ compatible mode held.mode then
    some {
      grants := ⟨latch, mode, thread⟩ :: s.grants
      threads := Function.update s.threads thread
        { s.threads thread with phase := .granted latch } }
  else none

def giveUp (s : System) (thread : Nat) : System :=
  { s with
    threads := Function.update s.threads thread { s.threads thread with phase := .running } }

def link (s : System) (thread : Nat) (latch : Latch) : System :=
  { s with
    threads := Function.update s.threads thread { held := latch :: (s.threads thread).held } }

inductive Step where
  | acquire (latch : Latch) (mode : Mode)
  | upgradeIntent (grant : Grant)
  | commit
  | giveUp
  | link
  | release (grant : Grant)

/-- What a thread can do depends on where it stands. -/
def System.step (s : System) (thread : Nat) (step : Step) : Option System :=
  match (s.threads thread).phase, step with
  | .running, .acquire latch mode => some (acquire s thread latch mode)
  | .running, .upgradeIntent grant => some (upgradeIntent s thread grant)
  | .running, .release grant => some (release s thread grant)
  | .waiting latch mode, .commit => commit s thread latch mode
  | .waiting _ _, .giveUp => some (giveUp s thread)
  | .granted latch, .link => some (link s thread latch)
  | _, _ => none

/-- The threads take their steps in any order. -/
def run (steps : List (Nat × Step)) : Option System :=
  steps.foldlM (fun s step => s.step step.1 step.2) {}

end ScratchBird.HeldLatchOrder
