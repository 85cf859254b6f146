import Luwes.Lib.Arrays
import Luwes.Shared.Strings

/-!
# The in-memory record store (`sahl/examples/request-ui/sink/sink.go`)

`memStore` keeps the last `cap` records in a ring that is overwritten from its oldest slot on, numbers
them, and answers queries from a snapshot that it takes newest first and filters.

What it is for is said by a log that forgets nothing: a query sees the last `cap` records of the log.
Whatever is inserted and asked, in any order, the ring gives the answers of the log
(`MemStore.refines`).

A record is sent to the store once and is written by nobody afterwards, so that the pointers of the
source are values here.  `toLower` is `strings.ToLower`; no result depends on what it does.
-/

namespace Luwes.RequestUi

/-- `Record`, with the fields that the store, its queries and the broadcaster look at. -/
structure Record where
  id : ℕ := 0
  timestamp : GoString := []
  hasError : Bool := false
  requestID : GoString := []
  method : GoString := []
  path : GoString := []
  errorDetails : GoString := []
  responseFlags : GoString := []
  responseCodeDetails : GoString := []
  upstreamFailure : GoString := []
  deriving DecidableEq, Repr

/-- `queryParams`; `handleRequests` passes no limit below 1. -/
structure QueryParams where
  search : GoString := []
  since : ℤ := 0
  errorsOnly : Bool := false
  limit : ℕ := 500
  ascending : Bool := false
  deriving DecidableEq, Repr

/-- What `handleRequests` reads of the URL: the texts `q` and `errors`, what `ParseInt` makes of `since`,
and what `Atoi` makes of `limit` if there is one. -/
structure RequestsQuery where
  q : GoString := []
  since : ℤ := 0
  errors : GoString := []
  limit : Option ℤ := none
  deriving DecidableEq, Repr

/-- The parameters `handleRequests` passes to the store. -/
def RequestsQuery.params (u : RequestsQuery) : QueryParams where
  search := u.q
  since := u.since
  errorsOnly := u.errors = ascii "1"
  limit := match u.limit with
    | some n => if 0 < n ∧ n ≤ 5000 then n.toNat else 500
    | none => 500
  ascending := 0 < u.since

/-- `memStore`. -/
structure MemStore where
  ring : List (Option Record)
  cap : ℕ
  head : ℕ := 0
  size : ℕ := 0
  seq : ℕ := 0
  deriving DecidableEq, Repr

/-- `newMemStore`. -/
def newMemStore (capacity : ℤ) : MemStore :=
  let capacity := if capacity ≤ 0 then 2000 else capacity.toNat
  { ring := List.replicate capacity none, cap := capacity }

/-- A record with its number and, unless it has one, the time. -/
def Record.stamp (r : Record) (now : GoString) (id : ℕ) : Record :=
  { r with id := id, timestamp := if r.timestamp = [] then now else r.timestamp }

namespace MemStore

/-- One round of the loop of `insert`. -/
def insertOne (m : MemStore) (now : GoString) (r : Record) : MemStore :=
  { m with
    seq := m.seq + 1
    ring := m.ring.set m.head (some (r.stamp now (m.seq + 1)))
    head := (m.head + 1) % m.cap
    size := if m.size < m.cap then m.size + 1 else m.size }

/-- `insert`: the store, and the records it returns. -/
def insert (m : MemStore) (now : GoString) : List Record → MemStore × List Record
  | [] => (m, [])
  | r :: batch =>
    let (m', out) := (m.insertOne now r).insert now batch
    (m', r.stamp now (m.seq + 1) :: out)

/-- The loop that takes the snapshot. -/
def snapshot (m : MemStore) : List Record :=
  (List.range m.size).filterMap fun i : ℕ =>
    (m.ring[(((m.head : ℤ) - 1 - i + m.cap).tmod m.cap).toNat]?).join

end MemStore

section

variable (toLower : GoString → GoString)

/-- `recordMatchesSearch`. -/
def recordMatchesSearch (r : Record) (q : GoString) : Bool :=
  let q := toLower q
  contains (toLower r.method) q ||
    contains (toLower r.path) q ||
    contains (toLower r.requestID) q ||
    contains (toLower r.responseFlags) q ||
    contains (toLower r.errorDetails) q ||
    contains (toLower r.responseCodeDetails) q ||
    contains (toLower r.upstreamFailure) q

/-- The filters of `query`, in their order: whether the record is passed over. -/
def QueryParams.skips (p : QueryParams) (r : Record) : Bool :=
  if p.since > 0 && (p.ascending && r.id ≤ p.since || !p.ascending && r.id ≤ p.since) then true
  else if p.errorsOnly && !r.hasError then true
  else p.search != [] && !recordMatchesSearch toLower r p.search

/-- `query`. -/
def MemStore.query (m : MemStore) (p : QueryParams) : List Record :=
  let filtered := m.snapshot.filter fun r => !p.skips toLower r
  let filtered := if p.ascending then filtered.reverseLoop 0 (filtered.length - 1) else filtered
  if filtered.length > p.limit then filtered.take p.limit else filtered

/-! ## The log -/

/-- A batch as it is logged after `n` records. -/
def logged (now : GoString) (n : ℕ) (batch : List Record) : List Record :=
  batch.mapIdx fun i r => r.stamp now (n + i + 1)

/-- What is to be found among the last `cap` records of the log. -/
def logQuery (cap : ℕ) (log : List Record) (p : QueryParams) : List Record :=
  let found := (log.rtake cap).filter fun r => !p.skips toLower r
  (if p.ascending then found else found.reverse).take p.limit

/-- What is done with a store. -/
inductive StoreOp
  | insert (now : GoString) (batch : List Record)
  | query (p : QueryParams)
  deriving DecidableEq, Repr

/-- What the store returns, operation by operation. -/
def MemStore.answers (m : MemStore) : List StoreOp → List (List Record)
  | [] => []
  | .insert now batch :: ops => (m.insert now batch).2 :: (m.insert now batch).1.answers ops
  | .query p :: ops => m.query toLower p :: m.answers ops

/-- What the log returns. -/
def logAnswers (cap : ℕ) (log : List Record) : List StoreOp → List (List Record)
  | [] => []
  | .insert now batch :: ops =>
    logged now log.length batch :: logAnswers cap (log ++ logged now log.length batch) ops
  | .query p :: ops => logQuery toLower cap log p :: logAnswers cap log ops

end

@[simp] lemma logged_nil (now : GoString) (n : ℕ) : logged now n [] = [] := rfl

@[simp] lemma logged_cons (now : GoString) (n : ℕ) (r : Record) (batch : List Record) :
    logged now n (r :: batch) = r.stamp now (n + 1) :: logged now (n + 1) batch := by
  simp only [logged, List.mapIdx_cons, Nat.add_assoc, Nat.add_comm 1]

/-- The second record is the first one as it is inserted. -/
def Record.IsStamped (r r' : Record) : Prop := ∃ now id, r' = r.stamp now id

lemma forall₂_logged (now : GoString) (n : ℕ) (batch : List Record) :
    List.Forall₂ Record.IsStamped batch (logged now n batch) := by
  induction batch generalizing n with
  | nil => exact .nil
  | cons r batch ih =>
      rw [logged_cons]
      exact .cons ⟨now, n + 1, rfl⟩ (ih (n + 1))

lemma map_id_logged (now : GoString) (n : ℕ) (batch : List Record) :
    (logged now n batch).map (·.id) = List.range' (n + 1) batch.length := by
  induction batch generalizing n with
  | nil => rfl
  | cons r batch ih => simp [ih (n + 1), Record.stamp, List.range'_succ]

/-- The records of a log are numbered from 1 on. -/
def Numbered (log : List Record) : Prop := log.map (·.id) = List.range' 1 log.length

lemma Numbered.increasing {log : List Record} (h : Numbered log) :
    (log.map (·.id)).Pairwise (· < ·) :=
  h ▸ List.pairwise_lt_range'

lemma Numbered.append_logged {log : List Record} (h : Numbered log) (now : GoString)
    (batch : List Record) : Numbered (log ++ logged now log.length batch) := by
  have hlen : (logged now log.length batch).length = batch.length :=
    by simp [logged]
  rw [Numbered, List.map_append, h, map_id_logged, List.length_append, hlen, Nat.add_comm log.length 1,
    List.range'_append_1]

namespace MemStore

/-- The store has all it needs of the log. -/
structure Holds (m : MemStore) (log : List Record) : Prop where
  pos : 0 < m.cap
  shows : Cyclic.Shows m.cap log m.ring
  head : m.head = log.length % m.cap
  size : m.size = min m.cap log.length
  seq : m.seq = log.length

variable {m : MemStore} {log : List Record}

lemma holds_new (capacity : ℤ) : (newMemStore capacity).Holds [] where
  pos := by
    simp only [newMemStore]
    split <;> omega
  shows := Cyclic.shows_empty _
  head := by simp [newMemStore]
  size := by simp [newMemStore]
  seq := rfl

lemma Holds.insertOne (h : m.Holds log) (now : GoString) (r : Record) :
    (m.insertOne now r).Holds (log ++ [r.stamp now (m.seq + 1)]) where
  pos := h.pos
  shows := by
    simp only [MemStore.insertOne, h.head]
    exact h.shows.push h.pos _
  head := by simp [MemStore.insertOne, h.head]
  size := by
    simp only [MemStore.insertOne, h.size, List.length_append, List.length_singleton]
    split <;> omega
  seq := by simp [MemStore.insertOne, h.seq]

/-- **`insert`** returns the batch as it is logged. -/
lemma Holds.insert (h : m.Holds log) (now : GoString) (batch : List Record) :
    (m.insert now batch).2 = logged now log.length batch ∧
      (m.insert now batch).1.Holds (log ++ logged now log.length batch) ∧
      (m.insert now batch).1.cap = m.cap := by
  induction batch generalizing m log with
  | nil => exact ⟨rfl, by rwa [logged_nil, List.append_nil], rfl⟩
  | cons r batch ih =>
      obtain ⟨hout, hholds, hcap⟩ := ih (h.insertOne now r)
      simp only [h.seq, List.length_append, List.length_singleton] at hout hholds
      refine ⟨?_, ?_, hcap⟩
      · rw [logged_cons, ← hout, ← h.seq]
        rfl
      · rw [logged_cons, List.append_cons]
        exact hholds

/-- **The snapshot** is the window of the log, newest record first. -/
lemma Holds.snapshot (h : m.Holds log) : m.snapshot = (log.rtake m.cap).reverse := by
  have hindex : ∀ i ∈ List.range (min m.cap log.length),
      (((m.head : ℤ) - 1 - i + m.cap).tmod m.cap).toNat =
        (log.length % m.cap + (m.cap - 1 - i)) % m.cap := by
    intro i hi
    have hlt : i < m.cap := by
      have := List.mem_range.mp hi
      omega
    have hcast : ((m.head : ℤ) - 1 - i + m.cap) = ((m.head + (m.cap - 1 - i) : ℕ) : ℤ) := by omega
    rw [hcast, Int.tmod_eq_emod_of_nonneg (Int.natCast_nonneg _), ← Int.natCast_emod,
      Int.toNat_natCast, h.head]
  have hmap : m.snapshot = ((List.range (min m.cap log.length)).map fun i =>
      m.ring[(log.length % m.cap + (m.cap - 1 - i)) % m.cap]?).filterMap Option.join := by
    rw [MemStore.snapshot, h.size, List.filterMap_map]
    exact List.filterMap_congr fun i hi => by rw [hindex i hi]; rfl
  rw [hmap, h.shows.newestFirst, List.filterMap_map]
  simp

/-- **`query`** finds what is to be found in the log. -/
lemma Holds.query (h : m.Holds log) (toLower : GoString → GoString) (p : QueryParams) :
    m.query toLower p = logQuery toLower m.cap log p := by
  have hlimit : ∀ xs : List Record, (if xs.length > p.limit then xs.take p.limit else xs) =
      xs.take p.limit := by
    intro xs
    split
    next => rfl
    next hle => rw [List.take_of_length_le (Nat.le_of_not_lt hle)]
  simp only [MemStore.query, logQuery, hlimit, h.snapshot, List.filter_reverse,
    List.reverseLoop_eq_reverse, List.reverse_reverse]

end MemStore

/-- **The store refines the log.**  Whatever is inserted and asked, in any order, the ring gives the
answers of a log that forgets nothing and is searched among its last records. -/
theorem MemStore.refines (toLower : GoString → GoString) (capacity : ℤ) (ops : List StoreOp) :
    (newMemStore capacity).answers toLower ops =
      logAnswers toLower (newMemStore capacity).cap [] ops := by
  have hsteps : ∀ (m : MemStore) (log : List Record), m.Holds log →
      m.answers toLower ops = logAnswers toLower m.cap log ops := by
    induction ops with
    | nil => exact fun _ _ _ => rfl
    | cons op ops ih =>
        intro m log h
        cases op with
        | insert now batch =>
            obtain ⟨hout, hholds, hcap⟩ := h.insert now batch
            simp only [MemStore.answers, logAnswers, hout]
            rw [ih _ _ hholds, hcap]
        | query p =>
            simp only [MemStore.answers, logAnswers, h.query toLower p]
            rw [ih _ _ h]
  exact hsteps _ _ (holds_new capacity)

end Luwes.RequestUi
