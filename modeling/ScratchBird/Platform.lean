import Mathlib.Algebra.Group.Nat.Defs
import Mathlib.Data.List.Sort

/-!
# Platform types

The part of `core/platform` and `core/uuid` that the transaction layer reads.
A UUID is the sixteen canonical bytes; the engine only admits identities that
are version 7 with the RFC variant, and both tests are reads of single bytes,
so the bytes are kept as they are and the length is carried by the type.

Counters are `u64` in the source. They are natural numbers here: every
increment in the modelled code is guarded by a comparison with the largest
`u64`, which `u64Max` names, so no modelled computation wraps.
-/

namespace ScratchBird

def u64Max : Nat := 2 ^ 64 - 1

structure Uuid where
  bytes : List UInt8
  size_eq : bytes.length = 16
  deriving DecidableEq

namespace Uuid

def byteAt (u : Uuid) (i : Fin 16) : UInt8 := u.bytes.get (i.cast u.size_eq.symm)

def nil : Uuid := ⟨List.replicate 16 0, by decide⟩

def isNil (u : Uuid) : Bool := u.bytes.all (· == 0)

end Uuid

def isValidUuidVariant (u : Uuid) : Bool := u.byteAt 8 &&& 0xc0 == 0x80

def uuidVersion (u : Uuid) : UInt8 := (u.byteAt 6 >>> 4) &&& 0x0f

def isEngineIdentityUuid (u : Uuid) : Bool := !u.isNil && isValidUuidVariant u && uuidVersion u == 7

/-- A version 7 UUID of the RFC variant, told apart by its last byte. -/
def engineUuid (last : UInt8) : Uuid :=
  ⟨[0, 0, 0, 0, 0, 0, 0x70, 0, 0x80, 0, 0, 0, 0, 0, 0, last], rfl⟩

inductive UuidKind where
  | database | cluster | filespace | schema | object | row | page
  | transaction | session | principal | unknown
  deriving DecidableEq

structure TypedUuid where
  kind : UuidKind := .unknown
  value : Uuid := Uuid.nil
  deriving DecidableEq

def TypedUuid.valid (u : TypedUuid) : Bool := u.kind != .unknown && !u.value.isNil

inductive Severity where
  | trace | info | warning | error | fatal
  deriving DecidableEq

def severityName : Severity → String
  | .trace => "trace"
  | .info => "info"
  | .warning => "warning"
  | .error => "error"
  | .fatal => "fatal"

/-- `DiagnosticRecord` with its one `detail` argument. Of the status only the
severity is kept: the code and the subsystem repeat what the diagnostic code
says, and a record of severity `info` accompanies a success. -/
structure DiagnosticRecord where
  diagnosticCode : String
  messageKey : String
  detail : String := ""
  sourceComponent : String
  severity : Severity := .error
  deriving DecidableEq

end ScratchBird
