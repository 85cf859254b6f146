import Luwes.AbiImpl.HeaderMap

/-!
# The readers of a request's headers (`sahl/request.go`)

`Get` keeps what it has read under the key in lower case, and `Peek` looks there first.  A `Request` is
taken from a pool, so its cache may have been another request's; `reset` empties it and puts in the new
map.  From then on every answer is the one the host would give (`readers_agree`): the cache holds first
values of the map, none of them empty (`CacheSound`), and both methods and `reset` keep it so.
-/

namespace Luwes.Sahl

open AbiImpl

/-! ## Keys -/

lemma lowerBytes_eq_map (s : GoString) :
    lowerBytes s = s.map fun c => if isAsciiUpper c then c + 32 else c := by
  induction s with
  | nil => rfl
  | cons c s ih => rw [lowerBytes, ih, List.map_cons]

/-- The copy that is not made when there is no upper-case letter makes no difference. -/
lemma asciiToLower_eq_lowerBytes (s : GoString) : asciiToLower s = lowerBytes s := by
  induction s with
  | nil => rfl
  | cons c s ih =>
      rw [asciiToLower, lowerBytes, ih]
      split_ifs <;> rfl

/-- A letter that has been lowered is no upper-case letter. -/
lemma not_isAsciiUpper_add {c : UInt8} (hc : isAsciiUpper c = true) :
    isAsciiUpper (c + 32) = false := by
  simp only [isAsciiUpper, ge_iff_le, UInt8.le_iff_toNat_le, UInt8.reduceToNat, Bool.and_eq_true,
    decide_eq_true_eq] at hc
  simp only [isAsciiUpper, ge_iff_le, UInt8.le_iff_toNat_le, UInt8.toNat_add, UInt8.reduceToNat,
    Bool.and_eq_false_iff, decide_eq_false_iff_not]
  omega

lemma lowerBytes_lowerBytes (s : GoString) : lowerBytes (lowerBytes s) = lowerBytes s := by
  rw [lowerBytes_eq_map, lowerBytes_eq_map, List.map_map]
  refine List.map_congr_left fun c _ => ?_
  cases hc : isAsciiUpper c with
  | false => simp [hc]
  | true => simp [hc, not_isAsciiUpper_add hc]

lemma first_asciiToLower (host : HostHeaders) (key : GoString) :
    host.first (asciiToLower key) = host.first key := by
  have hvalues : host.values (lowerBytes key) = host.values key :=
    host.caseInsensitive _ _ (lowerBytes_lowerBytes key)
  rw [asciiToLower_eq_lowerBytes, HostHeaders.first, hvalues, HostHeaders.first]

/-! ## The cache -/

namespace Header

variable {h : Header} {host : HostHeaders}

/-- The header reads the map of this host, and its cache holds first values of it that are not empty. -/
structure CacheSound (h : Header) (host : HostHeaders) : Prop where
  hm : h.hm = some host.headerMap
  cache : ∀ lower v, h.cache.lookup lower = some v → v = host.first lower ∧ v ≠ []

lemma cacheSound_reset (h : Header) (host : HostHeaders) :
    (h.reset host.headerMap).CacheSound host where
  hm := rfl
  cache lower v hv := by simp [reset] at hv

/-- What is not in the cache is looked up: the first value, or nothing if it is empty. -/
lemma CacheSound.lookup (hI : h.CacheSound host) (lower : GoString) :
    (h.lookup lower = none ∧ host.first lower = []) ∨
      ∃ buf, h.lookup lower = some buf ∧ buf.toString = host.first lower ∧
        buf.bytes = host.first lower ∧ host.first lower ≠ [] := by
  obtain ⟨hinto, hfalse⟩ := host.getOneInto_bytes lower
  have hlookup : h.lookup lower =
      (if (host.getOneInto lower).1 then some (host.getOneInto lower).2 else none).filter
        fun buf => buf.len ≠ 0 := by
    rw [Header.lookup, hI.hm]
    rfl
  rw [hlookup]
  generalize host.getOneInto lower = r at hinto hfalse
  obtain ⟨found, ⟨ptr⟩⟩ := r
  cases found with
  | false => exact .inl ⟨rfl, hfalse rfl⟩
  | true =>
      rw [← hinto]
      cases ptr with
      | none => exact .inl ⟨rfl, rfl⟩
      | some bs =>
          by_cases hbs : bs = []
          · exact .inl ⟨by simp [UnsafeEnvoyBuffer.len, hbs], by simp [UnsafeEnvoyBuffer.bytes, hbs]⟩
          · exact .inr ⟨⟨some bs⟩, by simp [UnsafeEnvoyBuffer.len, hbs],
              by simp [UnsafeEnvoyBuffer.toString, UnsafeEnvoyBuffer.bytes, hbs], rfl, hbs⟩

/-- `Get` returns the first value, and keeps it if it is not empty. -/
lemma CacheSound.get (hI : h.CacheSound host) (key : GoString) :
    (h.get key).1 = host.first key ∧ (h.get key).2.CacheSound host := by
  rw [← first_asciiToLower, Header.get]
  cases hcache : h.cache.lookup (asciiToLower key) with
  | some v => exact ⟨(hI.cache _ _ hcache).1, hI⟩
  | none =>
      rcases hI.lookup (asciiToLower key) with ⟨hlookup, hempty⟩ | ⟨buf, hlookup, hvalue, -, hne⟩
      · simp only [hlookup]
        exact ⟨hempty.symm, hI⟩
      · simp only [hlookup]
        refine ⟨hvalue, hI.hm, fun lower v hv => ?_⟩
        by_cases hlower : lower = asciiToLower key
        · subst hlower
          simp only [List.lookup_cons_self, Option.some.injEq] at hv
          exact ⟨hv ▸ hvalue, hv ▸ hvalue ▸ hne⟩
        · rw [List.lookup_cons, beq_false_of_ne hlower] at hv
          exact hI.cache lower v hv

/-- `Peek` returns the first value, if it is not empty. -/
lemma CacheSound.peek (hI : h.CacheSound host) (key : GoString) :
    h.peek key = if host.first key = [] then none else some (host.first key) := by
  rw [← first_asciiToLower, Header.peek]
  cases hcache : h.cache.lookup (asciiToLower key) with
  | some v =>
      obtain ⟨hv, hne⟩ := hI.cache _ _ hcache
      simp [← hv, hne]
  | none =>
      rcases hI.lookup (asciiToLower key) with ⟨hlookup, hempty⟩ | ⟨buf, hlookup, -, hvalue, hne⟩
      · simp [hlookup, hempty]
      · simp [hlookup, hvalue, hne]

end Header

/-! ## Any sequence of calls -/

/-- What is done with the `Header` of a pooled `Request`. -/
inductive HeaderOp
  | get (key : GoString)
  | peek (key : GoString)
  | reset (host : HostHeaders)

/-- What `Get` and `Peek` return. -/
inductive HeaderResult
  | got (value : GoString)
  | peeked (value : Option GoString)
  deriving DecidableEq, Repr

/-- The results of a sequence of calls. -/
def Header.results : Header → List HeaderOp → List HeaderResult
  | _, [] => []
  | h, .get key :: ops => .got (h.get key).1 :: (h.get key).2.results ops
  | h, .peek key :: ops => .peeked (h.peek key) :: h.results ops
  | h, .reset host :: ops => (h.reset host.headerMap).results ops

/-- The results that the host's headers alone give. -/
def firstValues : HostHeaders → List HeaderOp → List HeaderResult
  | _, [] => []
  | host, .get key :: ops => .got (host.first key) :: firstValues host ops
  | host, .peek key :: ops =>
    .peeked (if host.first key = [] then none else some (host.first key)) :: firstValues host ops
  | _, .reset host :: ops => firstValues host ops

/-- With a sound cache, every result is the host's. -/
lemma Header.CacheSound.results {h : Header} {host : HostHeaders} (hI : h.CacheSound host)
    (ops : List HeaderOp) : h.results ops = firstValues host ops := by
  induction ops generalizing h host with
  | nil => rfl
  | cons op ops ih =>
      cases op with
      | get key =>
          obtain ⟨hvalue, hI'⟩ := hI.get key
          rw [Header.results, firstValues, hvalue, ih hI']
      | peek key => rw [Header.results, firstValues, hI.peek key, ih hI]
      | reset host' =>
          rw [Header.results, firstValues]
          exact ih (h.cacheSound_reset host')

/-- **All readers agree.**  After a reset of any `Header`, every sequence of `Get`, `Peek` and `reset`
gets the first values of the map that was put in last; `Get`, `GetOne` and `GetOneInto` of that map read
the same values; and the letter case of a key makes no difference. -/
theorem readers_agree (h : Header) (host : HostHeaders) (ops : List HeaderOp) :
    (h.reset host.headerMap).results ops = firstValues host ops ∧
      (∀ key, (host.get key).map (·.bytes) = host.values key ∧
        (host.getOne key).bytes = ((host.get key).map (·.bytes)).headD [] ∧
        (host.getOneInto key).2.bytes = ((host.get key).map (·.bytes)).headD [] ∧
        ((host.getOneInto key).1 = false → (host.getOneInto key).2.bytes = [])) ∧
      ∀ key key', lowerBytes key = lowerBytes key' → host.first key = host.first key' := by
  refine ⟨(h.cacheSound_reset host).results ops, fun key => ?_, fun key key' hkey => ?_⟩
  · obtain ⟨hinto, hfalse⟩ := host.getOneInto_bytes key
    rw [host.get_bytes, host.getOne_bytes, hinto]
    exact ⟨rfl, rfl, rfl, hfalse⟩
  · rw [HostHeaders.first, host.caseInsensitive key key' hkey, HostHeaders.first]

/-- `Get` and `Peek` in two letter cases, of a key with two values and of one whose value is empty, on a
host with a list of headers. -/
example :
    ({ } : Header).results
        [.reset (.ofPairs [(ascii "X-Tag", [1]), (ascii "x-tag", [2]), (ascii "x-empty", [])]),
          .peek (ascii "X-TAG"), .get (ascii "x-tag"), .get (ascii "X-Empty"),
          .peek (ascii "x-empty")] =
      [.peeked (some [1]), .got [1], .got [], .peeked none] := by
  decide

end Luwes.Sahl
