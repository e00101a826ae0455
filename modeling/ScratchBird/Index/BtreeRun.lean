import Mathlib.Data.Multiset.AddSub
import ScratchBird.Index.BtreeDelete
import ScratchBird.Index.BtreeScan

/-!
# Runs of the ordered index

An index is initialised once and then changed by insertions and deletions. A
tree is reached when every call on the way to it succeeded; `admits` says which
calls a run may make on which tree. What the index holds is the multiset of the
entries that can be reached from its root.
-/

namespace ScratchBird.Btree

open Lib
open Index (Bytes)

/-- What a live cell of a leaf stands for. -/
structure BtreeEntry where
  encodedKey : Bytes
  rowUuid : Uuid
  versionUuid : Uuid
  deriving DecidableEq

def IndexBtreeCell.entry (cell : IndexBtreeCell) : BtreeEntry :=
  { encodedKey := cell.encodedKey
    rowUuid := cell.rowUuid.value
    versionUuid := cell.versionUuid.value }

def reachableEntries (tree : IndexBtreePhysicalTree) :
    Except DiagnosticRecord (Multiset BtreeEntry) :=
  (fun cells => ((cells.map (·.entry) : List BtreeEntry) : Multiset BtreeEntry))
    <$> collectRepairLiveEntries tree

inductive BtreeOperation where
  | insert (cell : IndexBtreeCell)
  | delete (cell : IndexBtreeCell)

def BtreeOperation.perform (op : BtreeOperation) : TreeM Unit :=
  match op with
  | .insert cell => do
      let _ ← insertIndexBtreeCell cell
      pure ()
  | .delete cell => do
      let _ ← deleteIndexBtreeCell cell
      pure ()

/-- The tree a call leaves behind, whether it succeeds or is refused. -/
def BtreeOperation.after (op : BtreeOperation) (tree : IndexBtreePhysicalTree) :
    IndexBtreePhysicalTree :=
  (op.perform.run.run tree).2

inductive Reached (admits : IndexBtreePhysicalTree → BtreeOperation → Prop)
    : IndexBtreePhysicalTree → Prop where
  | initialized {index : TypedUuid} {pageSize : UInt32} {tree : IndexBtreePhysicalTree}
      (h : initializeIndexBtreePhysicalTree index pageSize = .ok tree) : Reached admits tree
  | performed {tree tree' : IndexBtreePhysicalTree} {op : BtreeOperation}
      (before : Reached admits tree) (admitted : admits tree op)
      (h : Returns op.perform tree () tree') : Reached admits tree'

/-- No call is ruled out. -/
def anyCall (_ : IndexBtreePhysicalTree) (_ : BtreeOperation) : Prop := True

/-- A live cell is inserted only while the index does not hold its entry. -/
def insertsNewEntries (tree : IndexBtreePhysicalTree) (op : BtreeOperation) : Prop :=
  match op with
  | .insert cell => cell.deleted = false →
      ∀ entries, reachableEntries tree = .ok entries → cell.entry ∉ entries
  | .delete _ => True

/-- The calls one after the other, until one is refused. -/
def runOperations : List BtreeOperation → IndexBtreePhysicalTree →
    Except DiagnosticRecord IndexBtreePhysicalTree
  | [], tree => .ok tree
  | op :: rest, tree =>
    match op.perform.run.run tree with
    | (.ok (), tree) => runOperations rest tree
    | (.error d, _) => .error d

/-- A run from a new index. -/
def runFrom (index : TypedUuid) (pageSize : UInt32) (ops : List BtreeOperation) :
    Except DiagnosticRecord IndexBtreePhysicalTree := do
  let tree ← initializeIndexBtreePhysicalTree index pageSize
  runOperations ops tree

end ScratchBird.Btree
