import Luwes.Sahl.Request
import Mathlib.Data.List.Basic

/-!
# Reading the host's headers (`dymHeaderMap`, `abi_impl/internal.go`)

The host answers `get_header` with the value of a key at an index and the number of its values; `abi.h`
says what the answers are.  A key and the same key in other letter case have the same values.

The readers of `dymHeaderMap` guard against different things: `getSingleHeader` makes a value of length 0
the nil buffer, `GetOneInto` leaves it as it is, and `Get` goes by the number of values.  As bytes they
all read the values of the key (`get_bytes`, `getOne_bytes`, `getOneInto_bytes`).
-/

namespace Luwes.AbiImpl

open Sahl

/-- What `get_header` returns and writes through its two pointers. -/
structure HostAnswer where
  ret : Bool
  valueView : UnsafeEnvoyBuffer
  valueCount : ℕ

/-- The headers of a host as the ABI describes them: `values` are the values of a key, and `getHeader`
the callback that reads them. -/
structure HostHeaders where
  values : GoString → List Bytes
  getHeader : GoString → ℕ → HostAnswer
  found : ∀ key i v, (values key)[i]? = some v →
    (getHeader key i).ret = true ∧ (getHeader key i).valueView.bytes = v
  missing : ∀ key i, (values key)[i]? = none → (getHeader key i).valueView.ptr = none
  valueCount : ∀ key, (getHeader key 0).valueCount = (values key).length
  caseInsensitive : ∀ key key', lowerBytes key = lowerBytes key' → values key = values key'

namespace HostHeaders

/-- A host that has a list of headers, in the order in which they came. -/
def ofPairs (pairs : List (GoString × Bytes)) : HostHeaders :=
  let values (key : GoString) := (pairs.filter fun p => lowerBytes p.1 = lowerBytes key).map (·.2)
  { values := values
    getHeader key index :=
      { ret := (values key)[index]?.isSome
        valueView := ⟨(values key)[index]?⟩
        valueCount := (values key).length }
    found key index v hv := by simp [hv, UnsafeEnvoyBuffer.bytes]
    missing _ _ hv := hv
    valueCount _ := rfl
    caseInsensitive key key' hkey := by simp only [values, hkey] }

/-- `getSingleHeader`, with the count it is given a pointer for. -/
def getSingleHeader (h : HostHeaders) (key : GoString) (index : ℕ) : UnsafeEnvoyBuffer × ℕ :=
  let answer := h.getHeader key index
  if !answer.ret || answer.valueView.ptr.isNone || answer.valueView.len == 0 then
    (⟨none⟩, answer.valueCount)
  else (answer.valueView, answer.valueCount)

/-- `Get`; the nil slice is the empty one. -/
def get (h : HostHeaders) (key : GoString) : List UnsafeEnvoyBuffer :=
  let (firstValue, valueCount) := h.getSingleHeader key 0
  if valueCount = 0 then []
  else if valueCount = 1 then [firstValue]
  else firstValue :: (List.range' 1 (valueCount - 1)).map fun i => (h.getSingleHeader key i).1

/-- `GetOne`. -/
def getOne (h : HostHeaders) (key : GoString) : UnsafeEnvoyBuffer := (h.getSingleHeader key 0).1

/-- `GetOneInto`: what it returns, and what the host has written into `out`. -/
def getOneInto (h : HostHeaders) (key : GoString) : Bool × UnsafeEnvoyBuffer :=
  let answer := h.getHeader key 0
  (answer.ret && answer.valueView.ptr.isSome, answer.valueView)

/-- The map that a `Header` reads. -/
def headerMap (h : HostHeaders) : HeaderMap where
  getOneInto key := if (h.getOneInto key).1 then some (h.getOneInto key).2 else none

/-- The first value of a key, or the empty string. -/
def first (h : HostHeaders) (key : GoString) : Bytes := (h.values key).headD []

variable {h : HostHeaders}

lemma valueView_bytes (h : HostHeaders) (key : GoString) (index : ℕ) :
    (h.getHeader key index).valueView.bytes = ((h.values key)[index]?).getD [] := by
  cases hv : (h.values key)[index]? with
  | none => simp [UnsafeEnvoyBuffer.bytes, h.missing key index hv]
  | some v => exact (h.found key index v hv).2

lemma getSingleHeader_bytes (h : HostHeaders) (key : GoString) (index : ℕ) :
    (h.getSingleHeader key index).1.bytes = ((h.values key)[index]?).getD [] := by
  rw [← h.valueView_bytes, getSingleHeader]
  cases hv : (h.values key)[index]? with
  | none => simp [h.missing key index hv, UnsafeEnvoyBuffer.bytes]
  | some v =>
      obtain ⟨hret, -⟩ := h.found key index v hv
      rcases hview : (h.getHeader key index).valueView with ⟨_ | bs⟩
      · simp [UnsafeEnvoyBuffer.bytes]
      · by_cases hbs : bs = []
        · simp [UnsafeEnvoyBuffer.bytes, UnsafeEnvoyBuffer.len, hbs]
        · simp [UnsafeEnvoyBuffer.len, hret, hbs]

/-- **`GetOne` returns the first value.** -/
lemma getOne_bytes (h : HostHeaders) (key : GoString) : (h.getOne key).bytes = h.first key := by
  rw [getOne, getSingleHeader_bytes, first, List.headD_eq_head?_getD, List.head?_eq_getElem?]

/-- **`GetOneInto` writes the first value**, and it returns false only for one without bytes. -/
lemma getOneInto_bytes (h : HostHeaders) (key : GoString) :
    (h.getOneInto key).2.bytes = h.first key ∧
      ((h.getOneInto key).1 = false → h.first key = []) := by
  have hbytes : (h.getOneInto key).2.bytes = h.first key := by
    rw [getOneInto, valueView_bytes, first, List.headD_eq_head?_getD, List.head?_eq_getElem?]
  refine ⟨hbytes, fun hfalse => ?_⟩
  cases hv : (h.values key)[0]? with
  | none => rw [first, List.headD_eq_head?_getD, List.head?_eq_getElem?, hv, Option.getD_none]
  | some v =>
      simp only [getOneInto, (h.found key 0 v hv).1, Bool.true_and, Option.isSome_eq_false_iff,
        Option.isNone_iff_eq_none] at hfalse
      rw [← hbytes, getOneInto, UnsafeEnvoyBuffer.bytes, hfalse, Option.getD_none]

/-- **`Get` returns all values, in order.** -/
lemma get_bytes (h : HostHeaders) (key : GoString) : (h.get key).map (·.bytes) = h.values key := by
  have hcount : (h.getSingleHeader key 0).2 = (h.values key).length := by
    rw [← h.valueCount key, getSingleHeader]
    split_ifs <;> rfl
  rw [get]
  simp only [hcount]
  match hvalues : h.values key with
  | [] => rfl
  | [v] => simp [getSingleHeader_bytes, hvalues]
  | v :: w :: vs =>
      have hrest : (List.range' 1 (vs.length + 1)).map
          (fun i => (h.getSingleHeader key i).1.bytes) = w :: vs := by
        refine List.ext_getElem (by simp) fun i hi hi' => ?_
        rw [List.getElem_map, List.getElem_range', getSingleHeader_bytes, hvalues, Nat.one_mul,
          Nat.add_comm 1 i, List.getElem?_cons_succ, List.getElem?_eq_getElem hi', Option.getD_some]
      simpa [getSingleHeader_bytes, hvalues, Function.comp_def] using hrest

end HostHeaders

end Luwes.AbiImpl
