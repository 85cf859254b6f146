import Luwes.Shared.Base

/-!
# The Request (`sahl/request.go`)

A `Request` is what a handler reads: three headers copied when the request starts, and a `Header`
that looks up the others in the host's header map and keeps what `Get` has returned in a cache.
`Get` is the one method that changes the object.

The cache is the list of what has been put into it; a key is put in only when it is not there.
-/

namespace Luwes.Sahl

/-- An upper-case ASCII letter. -/
def isAsciiUpper (c : UInt8) : Bool := c ≥ 65 && c ≤ 90

/-- The inner loop of `asciiToLower`, over the copy from the first upper-case letter on. -/
def lowerBytes : GoString → GoString
  | [] => []
  | c :: s => (if isAsciiUpper c then c + 32 else c) :: lowerBytes s

/-- `asciiToLower`: the string itself up to the first upper-case letter. -/
def asciiToLower : GoString → GoString
  | [] => []
  | c :: s => if isAsciiUpper c then lowerBytes (c :: s) else c :: asciiToLower s

/-- `Header`; `hm` is `none` for a nil map. -/
structure Header where
  hm : Option HeaderMap := none
  cache : List (GoString × GoString) := []

namespace Header

/-- `reset`. -/
def reset (_h : Header) (hm : HeaderMap) : Header where
  hm := some hm
  cache := []

/-- `h.hm.GetOneInto(lower, &buf)` with `buf.Len != 0`. -/
def lookup (h : Header) (lower : GoString) : Option UnsafeEnvoyBuffer :=
  (h.hm.bind fun hm => hm.getOneInto lower).filter fun buf => buf.len ≠ 0

/-- `Get`: the value and the header after it. -/
def get (h : Header) (key : GoString) : GoString × Header :=
  let lower := asciiToLower key
  match h.cache.lookup lower with
  | some v => (v, h)
  | none =>
    match h.lookup lower with
    | none => ([], h)
    | some buf => (buf.toString, { h with cache := (lower, buf.toString) :: h.cache })

/-- `Peek`; `none` is the result `("", false)`. -/
def peek (h : Header) (key : GoString) : Option GoString :=
  let lower := asciiToLower key
  match h.cache.lookup lower with
  | some v => some v
  | none => (h.lookup lower).map (·.bytes)

end Header

/-- `Request`; the handle is named by the number of the request it belongs to. -/
structure Request where
  header : Header := {}
  method : GoString := []
  path : GoString := []
  host : GoString := []
  filterName : GoString := []
  handle : ℕ := 0

namespace Request

/-- A header that `reset` copies: empty when it is absent. -/
def copyHeader (hm : HeaderMap) (key : String) : GoString :=
  match hm.getOneInto (ascii key) with
  | some buf => buf.toString
  | none => []

/-- `reset`. -/
def reset (r : Request) (hm : HeaderMap) (handle : ℕ) (name : GoString) : Request where
  header := r.header.reset hm
  method := copyHeader hm ":method"
  path := copyHeader hm ":path"
  host := copyHeader hm ":authority"
  filterName := name
  handle := handle

/-- `r.Header.Get(key)`, as a change of the object. -/
def headerGet (r : Request) (key : GoString) : Request :=
  { r with header := (r.header.get key).2 }

end Request

end Luwes.Sahl
