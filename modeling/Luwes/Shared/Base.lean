import Mathlib.Tactic.Common

/-!
# Buffers and enumerations of `shared/base.go`

The values that cross between the host and a filter: byte strings, the `UnsafeEnvoyBuffer` view
of host memory, and the result codes of callouts and streams.

A Go string or byte slice is a list of bytes.  Where the difference between a nil slice and an
empty one is visible to the caller the slice is an `Option Bytes`, with `none` for nil.

The lifetime of the memory behind an `UnsafeEnvoyBuffer` is not part of this module: a buffer
is read here at a moment when it is valid, and stands for the bytes it has at that moment.
-/

namespace Luwes

/-- A Go `[]byte` whose nilness nobody looks at. -/
abbrev Bytes := List UInt8

/-- A Go `string`: any sequence of bytes. -/
abbrev GoString := List UInt8

/-- A string literal of the source, all of whose characters are ASCII. -/
def ascii (s : String) : GoString := s.toList.map fun c => UInt8.ofNat c.toNat

/-- `UnsafeEnvoyBuffer`: a pointer into host memory with a length.  `ptr` is `none` for a nil
pointer and otherwise the bytes the pointer and the length delimit. -/
structure UnsafeEnvoyBuffer where
  ptr : Option Bytes
  deriving DecidableEq, Repr

namespace UnsafeEnvoyBuffer

/-- The field `Len`. -/
def len (b : UnsafeEnvoyBuffer) : ℕ := (b.ptr.getD []).length

/-- The bytes the buffer delimits; none for a nil pointer. -/
def bytes (b : UnsafeEnvoyBuffer) : Bytes := b.ptr.getD []

/-- `ToUnsafeBytes`: nil for a nil pointer and also for a length of zero. -/
def toUnsafeBytes (b : UnsafeEnvoyBuffer) : Option Bytes :=
  match b.ptr with
  | none => none
  | some bs => if bs.length = 0 then none else some bs

/-- `ToString`, and `ToUnsafeString` while the memory is valid. -/
def toString (b : UnsafeEnvoyBuffer) : GoString :=
  match b.ptr with
  | none => []
  | some bs => if bs.length = 0 then [] else bs

/-- The copy has the bytes of the buffer. -/
lemma toString_eq_bytes (b : UnsafeEnvoyBuffer) : b.toString = b.bytes := by
  rcases b with ⟨_ | bs⟩
  · rfl
  · by_cases h : bs = [] <;> simp [toString, bytes, h]

/-- Appending a nil slice appends nothing, so both conversions keep every byte. -/
@[simp] lemma toUnsafeBytes_getD (b : UnsafeEnvoyBuffer) : b.toUnsafeBytes.getD [] = b.bytes := by
  rcases b with ⟨_ | bs⟩
  · rfl
  · by_cases h : bs = [] <;> simp [toUnsafeBytes, bytes, h]

end UnsafeEnvoyBuffer

/-- All the bytes of a list of chunks, in order. -/
def chunkBytes (chunks : List UnsafeEnvoyBuffer) : Bytes := chunks.flatMap (·.bytes)

@[simp] lemma chunkBytes_nil : chunkBytes [] = [] := rfl

@[simp] lemma chunkBytes_cons (c : UnsafeEnvoyBuffer) (cs : List UnsafeEnvoyBuffer) :
    chunkBytes (c :: cs) = c.bytes ++ chunkBytes cs := by
  simp [chunkBytes]

@[simp] lemma chunkBytes_append (xs ys : List UnsafeEnvoyBuffer) :
    chunkBytes (xs ++ ys) = chunkBytes xs ++ chunkBytes ys := by
  simp [chunkBytes]

/-- `HttpCalloutInitResult`. -/
inductive HttpCalloutInitResult
  | success
  | missingRequiredHeaders
  | clusterNotFound
  | duplicateCalloutId
  | cannotCreateRequest
  deriving DecidableEq, Repr

/-- `HttpCalloutResult`. -/
inductive HttpCalloutResult
  | success
  | reset
  | exceedResponseBufferLimit
  deriving DecidableEq, Repr

/-- `HttpStreamResetReason`. -/
inductive HttpStreamResetReason
  | connectionFailure
  | connectionTermination
  | localReset
  | localRefusedStreamReset
  | overflow
  | remoteReset
  | remoteRefusedStreamReset
  | protocolError
  deriving DecidableEq, Repr

/-- A metadata value: `SetMetadata` takes a string, an integer, a float or a bool.  A float is
its bit pattern; the filter layer never computes with it. -/
inductive MetadataValue
  | string (s : GoString)
  | int (i : Int)
  | float (bits : UInt64)
  | bool (b : Bool)
  deriving DecidableEq, Repr

/-- A `HeaderMap` as a reader sees it: `GetOneInto` answers a key with a buffer, or with false
(`none`).  The lookup is the host's. -/
structure HeaderMap where
  getOneInto : GoString → Option UnsafeEnvoyBuffer

/-- The header pairs of a callout or stream event. -/
abbrev HeaderSlice := List (UnsafeEnvoyBuffer × UnsafeEnvoyBuffer)

end Luwes
