import Luwes.Lib.Lines
import Luwes.Shared.Strings

/-!
# Token usage from the two ends of an event stream

Three of the example filters count the tokens of an LLM response.  They keep the first kilobytes of the
stream and the last ones, and look through both for the messages that carry a count: `extractUsage`.

Line by line it reads the data messages of the stream, each with the event it stands under, and keeps
the first count that is not zero (`extractUsage_eq`).  What it finds in the two ends is what it would
have found in the whole stream as long as the counts stand in them (`extractUsage_ends`).
-/

namespace Luwes

namespace SseTap

/-! ## The lines -/

/-- `scanLines`: the loop calls `fn` with each line, less the carriage returns at its end; `fn` is a
closure, whose variables are in `s`.  What no newline ends is not a line. -/
def scanLines {σ : Type*} (fn : σ → Bytes → σ) (s : σ) (data : Bytes) : σ :=
  match h : indexByte data 10 with
  | none => s
  | some idx => scanLines fn (fn s (trimRight (data.take idx) 13)) (data.drop (idx + 1))
termination_by data.length
decreasing_by
  have hlt := (indexByte_eq_some h).1
  have hlen := congrArg List.length hlt
  rw [List.length_append, List.length_cons] at hlen
  omega

/-- The lines of a text. -/
def linesOf (data : Bytes) : List Bytes := (Lines.complete 10 data).map (trimRight · 13)

/-- **The loop** is a fold over the lines. -/
lemma scanLines_eq {σ : Type*} (fn : σ → Bytes → σ) (s : σ) (data : Bytes) :
    scanLines fn s data = (linesOf data).foldl fn s := by
  induction s, data using scanLines.induct fn with
  | case1 s data h =>
      rw [scanLines, linesOf, Lines.complete_of_not_mem (indexByte_eq_none h)]
      split
      · rfl
      · next heq => simp [h] at heq
  | case2 s data idx h ih =>
      obtain ⟨hdata, hnot⟩ := indexByte_eq_some h
      have hlines : linesOf data = trimRight (data.take idx) 13 :: linesOf (data.drop (idx + 1)) := by
        conv_lhs => rw [hdata]
        rw [linesOf, Lines.complete_line hnot, List.map_cons, linesOf]
      rw [scanLines, hlines, List.foldl_cons]
      split
      · next heq => simp [h] at heq
      · next heq =>
          obtain rfl := Option.some.inj (h.symm.trans heq)
          exact ih

/-! ## The scanners -/

/-- `TokenUsage`. -/
structure TokenUsage where
  input : UInt32 := 0
  output : UInt32 := 0
  deriving DecidableEq, Repr

/-- The counts under `usage` in a data chunk. -/
structure ChunkUsage where
  promptTokens : UInt32 := 0
  completionTokens : UInt32 := 0
  inputTokens : UInt32 := 0
  outputTokens : UInt32 := 0
  deriving DecidableEq, Repr

/-- `json.Unmarshal` at the structs the scanners pass, with `none` for an error: the count of
`message.usage.input_tokens`, the usage of a chunk (a pointer, which may stay nil), and the count of
`usage.output_tokens`. -/
structure Unmarshal where
  msg : Bytes → Option UInt32
  ck : Bytes → Option (Option ChunkUsage)
  delta : Bytes → Option UInt32

/-- The variables of the closures. -/
structure Scan where
  u : TokenUsage := {}
  curEvent : GoString := []

/-- A line with the name of an event. -/
def isEvent (line : Bytes) : Bool := hasPrefix line (ascii "event: ")

/-- A line with data. -/
def isData (line : Bytes) : Bool := hasPrefix line (ascii "data: ")

variable (json : Unmarshal)

/-- The closure for the head: Anthropic's `message_start`. -/
def headLine (s : Scan) (line : Bytes) : Scan :=
  if isEvent line then { s with curEvent := line.drop 7 }
  else if s.u.input = 0 ∧ s.curEvent = ascii "message_start" ∧ isData line then
    match json.msg (line.drop 6) with
    | some n => if 0 < n then { s with u.input := n } else s
    | none => s
  else s

/-- OpenAI: usage in a data chunk. -/
def chunkUsage (data : Bytes) (s : Scan) : Scan :=
  if s.u.input = 0 ∨ s.u.output = 0 then
    match json.ck data with
    | some (some usage) =>
      let s := if s.u.input = 0 then { s with u.input := usage.promptTokens + usage.inputTokens } else s
      if s.u.output = 0 then { s with u.output := usage.completionTokens + usage.outputTokens } else s
    | _ => s
  else s

/-- Anthropic's `message_delta`. -/
def messageDelta (data : Bytes) (s : Scan) : Scan :=
  if s.curEvent = ascii "message_delta" ∧ s.u.output = 0 then
    match json.delta data with
    | some n => { s with u.output := n }
    | none => s
  else s

/-- The closure for the tail. -/
def tailLine (s : Scan) (line : Bytes) : Scan :=
  if !isData line && !isEvent line then s
  else if isEvent line then { s with curEvent := line.drop 7 }
  else if line.drop 6 = ascii "[DONE]" then s
  else messageDelta json (line.drop 6) (chunkUsage json (line.drop 6) s)

/-- `ExtractUsage`. -/
def extractUsage (head tail : Bytes) : TokenUsage :=
  let s := scanLines (headLine json) {} head
  (scanLines (tailLine json) { s with curEvent := [] } tail).u

end SseTap

namespace LlmProxy

/-- `extractUsage`, "identical logic to sahl/examples/sse-tap ExtractUsage". -/
def extractUsage (json : SseTap.Unmarshal) (head tail : Bytes) : SseTap.TokenUsage :=
  SseTap.extractUsage json head tail

end LlmProxy

namespace Decoder

open SseTap

variable (json : Unmarshal)

/-- The closure for the tail, which looks for an event first. -/
def tailLine (s : Scan) (line : Bytes) : Scan :=
  if isEvent line then { s with curEvent := line.drop 7 }
  else if !isData line then s
  else if line.drop 6 = ascii "[DONE]" then s
  else messageDelta json (line.drop 6) (chunkUsage json (line.drop 6) s)

/-- `extractSSEUsage`. -/
def extractSSEUsage (head tail : Bytes) : TokenUsage :=
  let s := scanLines (headLine json) {} head
  (scanLines (tailLine json) { s with curEvent := [] } tail).u

end Decoder

namespace SseTap

/-! ## The messages of a stream -/

/-- A data line, with the event it stands under. -/
structure Message where
  event : GoString
  data : Bytes

/-- The messages in a list of lines that stand under `ev`. -/
def messages (ev : GoString) : List Bytes → List Message
  | [] => []
  | line :: lines =>
    if isEvent line then messages (line.drop 7) lines
    else if isData line then ⟨ev, line.drop 6⟩ :: messages ev lines
    else messages ev lines

/-- The event that the lines after these stand under. -/
def lastEvent (ev : GoString) : List Bytes → GoString
  | [] => ev
  | line :: lines => lastEvent (if isEvent line then line.drop 7 else ev) lines

lemma messages_append (ev : GoString) (xs ys : List Bytes) :
    messages ev (xs ++ ys) = messages ev xs ++ messages (lastEvent ev xs) ys := by
  induction xs generalizing ev with
  | nil => rfl
  | cons line lines ih =>
      simp only [List.cons_append, messages, lastEvent]
      split_ifs
      · exact ih _
      · rw [ih, List.cons_append]
      · exact ih _

lemma mem_messages {ev : GoString} {lines : List Bytes} {m : Message} (h : m ∈ messages ev lines) :
    ∃ line ∈ lines, ∃ ev', m ∈ messages ev' [line] := by
  induction lines generalizing ev with
  | nil => simp [messages] at h
  | cons line lines ih =>
      rw [← List.singleton_append, messages_append] at h
      rcases List.mem_append.mp h with h | h
      · exact ⟨line, .head _, ev, h⟩
      · obtain ⟨line', hline', hm⟩ := ih h
        exact ⟨line', .tail _ hline', hm⟩

/-! ## What a message counts -/

/-- A count that has been found stays; otherwise the next one is looked at. -/
def orElse (found next : UInt32) : UInt32 := if found = 0 then next else found

@[simp] lemma zero_orElse (n : UInt32) : orElse 0 n = n := rfl

@[simp] lemma orElse_zero (n : UInt32) : orElse n 0 = n := by
  rw [orElse]
  split_ifs with h
  · exact h.symm
  · rfl

lemma orElse_assoc (l m n : UInt32) : orElse (orElse l m) n = orElse l (orElse m n) := by
  simp only [orElse]
  split_ifs <;> simp_all

/-- The first count that is not zero. -/
def firstNonzero (counts : List UInt32) : UInt32 := counts.foldr orElse 0

lemma firstNonzero_append (ms ns : List UInt32) :
    firstNonzero (ms ++ ns) = orElse (firstNonzero ms) (firstNonzero ns) := by
  induction ms with
  | nil => rfl
  | cons m ms ih => exact (congrArg (orElse m) ih).trans (orElse_assoc _ _ _).symm

lemma firstNonzero_eq_zero {ns : List UInt32} (h : ∀ n ∈ ns, n = 0) : firstNonzero ns = 0 := by
  induction ns with
  | nil => rfl
  | cons n ns ih =>
      obtain ⟨rfl, hns⟩ := List.forall_mem_cons.mp h
      exact ih hns

variable (json : Unmarshal)

/-- The usage in a message that has one and is not the end of the stream. -/
def Message.usage (m : Message) : Option ChunkUsage :=
  if m.data = ascii "[DONE]" then none else (json.ck m.data).getD none

/-- The input tokens that `message_start` counts. -/
def startCount (m : Message) : UInt32 :=
  if m.event = ascii "message_start" then (json.msg m.data).getD 0 else 0

/-- The input tokens that a chunk counts. -/
def inputCount (m : Message) : UInt32 :=
  ((m.usage json).map fun usage => usage.promptTokens + usage.inputTokens).getD 0

/-- The output tokens that a `message_delta` counts. -/
def deltaCount (m : Message) : UInt32 :=
  if m.event = ascii "message_delta" ∧ m.data ≠ ascii "[DONE]" then (json.delta m.data).getD 0 else 0

/-- The output tokens that a chunk or, if it counts none, a `message_delta` counts. -/
def outputCount (m : Message) : UInt32 :=
  orElse (((m.usage json).map fun usage => usage.completionTokens + usage.outputTokens).getD 0)
    (deltaCount json m)

/-- The first of these counts in a list of lines that stand under `ev`. -/
def firstCount (count : Message → UInt32) (ev : GoString) (lines : List Bytes) : UInt32 :=
  firstNonzero ((messages ev lines).map count)

lemma firstCount_append (count : Message → UInt32) (ev : GoString) (xs ys : List Bytes) :
    firstCount count ev (xs ++ ys) =
      orElse (firstCount count ev xs) (firstCount count (lastEvent ev xs) ys) := by
  rw [firstCount, messages_append, List.map_append, firstNonzero_append, firstCount, firstCount]

lemma firstCount_eq_zero {count : Message → UInt32} {ev : GoString} {lines : List Bytes}
    (h : ∀ m ∈ messages ev lines, count m = 0) : firstCount count ev lines = 0 :=
  firstNonzero_eq_zero fun n hn => by
    obtain ⟨m, hm, rfl⟩ := List.mem_map.mp hn
    exact h m hm

/-! ## What the scanners find -/

/-- The variables after lines that have been looked through for two counts. -/
def Scan.after (input output : Message → UInt32) (s : Scan) (lines : List Bytes) : Scan where
  u.input := orElse s.u.input (firstCount input s.curEvent lines)
  u.output := orElse s.u.output (firstCount output s.curEvent lines)
  curEvent := lastEvent s.curEvent lines

/-- A closure that looks for two counts in one line looks for them in all. -/
lemma foldl_after {fn : Scan → Bytes → Scan} {input output : Message → UInt32}
    (h : ∀ s line, fn s line = s.after input output [line]) (s : Scan) (lines : List Bytes) :
    lines.foldl fn s = s.after input output lines := by
  induction lines generalizing s with
  | nil => simp [Scan.after, firstCount, messages, firstNonzero, lastEvent]
  | cons line lines ih =>
      have hfirst (count : Message → UInt32) (ev : GoString) : firstCount count ev (line :: lines) =
          orElse (firstCount count ev [line]) (firstCount count (lastEvent ev [line]) lines) :=
        firstCount_append count ev [line] lines
      rw [List.foldl_cons, ih, h, Scan.after, Scan.after, Scan.after, hfirst, hfirst, ← orElse_assoc,
        ← orElse_assoc]
      rfl

@[simp] lemma firstCount_event {count : Message → UInt32} {ev : GoString} {line : Bytes}
    (h : isEvent line) : firstCount count ev [line] = 0 := by
  simp [firstCount, messages, firstNonzero, h]

@[simp] lemma firstCount_data {count : Message → UInt32} {ev : GoString} {line : Bytes}
    (hevent : ¬isEvent line) (h : isData line) : firstCount count ev [line] = count ⟨ev, line.drop 6⟩ := by
  simp [firstCount, messages, firstNonzero, hevent, h]

@[simp] lemma firstCount_other {count : Message → UInt32} {ev : GoString} {line : Bytes}
    (hevent : ¬isEvent line) (h : ¬isData line) : firstCount count ev [line] = 0 := by
  simp [firstCount, messages, firstNonzero, hevent, h]

lemma headLine_eq (s : Scan) (line : Bytes) :
    headLine json s line = s.after (startCount json) (fun _ => 0) [line] := by
  by_cases hevent : isEvent line
  · simp [headLine, Scan.after, lastEvent, hevent]
  by_cases hdata : isData line
  · rw [headLine, if_neg hevent, Scan.after, firstCount_data hevent hdata, firstCount_data hevent hdata,
      startCount, orElse_zero]
    simp only [lastEvent, hevent, hdata, orElse, and_true]
    obtain ⟨⟨input, output⟩, ev⟩ := s
    by_cases hzero : input = 0
    · subst hzero
      by_cases hstart : ev = ascii "message_start"
      · cases json.msg (line.drop 6) with
        | none => simp [hstart]
        | some n => by_cases hn : n = 0 <;> simp [hstart, hn, UInt32.pos_iff_ne_zero]
      · simp [hstart]
    · simp [hzero]
  · simp [headLine, Scan.after, lastEvent, hevent, hdata]

lemma chunkUsage_eq (s : Scan) (ev : GoString) (data : Bytes) (hdone : data ≠ ascii "[DONE]") :
    chunkUsage json data s = { s with
      u.input := orElse s.u.input (inputCount json ⟨ev, data⟩)
      u.output := orElse s.u.output (((Message.usage json ⟨ev, data⟩).map fun usage =>
        usage.completionTokens + usage.outputTokens).getD 0) } := by
  obtain ⟨⟨input, output⟩, curEvent⟩ := s
  simp only [chunkUsage, inputCount, Message.usage, if_neg hdone, orElse]
  cases json.ck data with
  | none => simp
  | some usage =>
      cases usage with
      | none => simp
      | some usage => by_cases hinput : input = 0 <;> by_cases houtput : output = 0 <;> simp [hinput, houtput]

lemma messageDelta_eq (s : Scan) (data : Bytes) (hdone : data ≠ ascii "[DONE]") :
    messageDelta json data s =
      { s with u.output := orElse s.u.output (deltaCount json ⟨s.curEvent, data⟩) } := by
  simp only [messageDelta, deltaCount, and_iff_left hdone, orElse]
  obtain ⟨⟨input, output⟩, ev⟩ := s
  by_cases houtput : output = 0
  · subst houtput
    by_cases hdelta : ev = ascii "message_delta"
    · cases json.delta data <;> simp [hdelta]
    · simp [hdelta]
  · simp [houtput]

lemma tailLine_eq (s : Scan) (line : Bytes) :
    tailLine json s line = s.after (inputCount json) (outputCount json) [line] := by
  by_cases hevent : isEvent line
  · simp [tailLine, Scan.after, lastEvent, hevent]
  by_cases hdata : isData line
  · rw [tailLine, if_neg (by simp [hdata]), if_neg hevent, Scan.after, firstCount_data hevent hdata,
      firstCount_data hevent hdata]
    by_cases hdone : line.drop 6 = ascii "[DONE]"
    · simp [hdone, inputCount, outputCount, deltaCount, Message.usage, lastEvent, hevent]
    · rw [if_neg hdone, chunkUsage_eq json s s.curEvent _ hdone, messageDelta_eq json _ _ hdone,
        outputCount, orElse_assoc, lastEvent, if_neg hevent, lastEvent]
  · simp [tailLine, Scan.after, lastEvent, hevent, hdata]

end SseTap

lemma Decoder.tailLine_eq (json : SseTap.Unmarshal) : tailLine json = SseTap.tailLine json := by
  funext s line
  simp only [tailLine, SseTap.tailLine]
  by_cases hevent : SseTap.isEvent line <;> simp [hevent]

namespace SseTap

/-- **What the scanners find**: all three of them the first `message_start` count of the head and, if it
has none, the first chunk's of the tail, and the first output count of the tail. -/
theorem extractUsage_eq (json : Unmarshal) (head tail : Bytes) :
    extractUsage json head tail =
        { input := orElse (firstCount (startCount json) [] (linesOf head))
            (firstCount (inputCount json) [] (linesOf tail))
          output := firstCount (outputCount json) [] (linesOf tail) } ∧
      LlmProxy.extractUsage json head tail = extractUsage json head tail ∧
      Decoder.extractSSEUsage json head tail = extractUsage json head tail := by
  refine ⟨?_, rfl, ?_⟩
  · have hzero : firstCount (fun _ => 0) [] (linesOf head) = 0 :=
      firstCount_eq_zero fun _ _ => rfl
    simp only [extractUsage, scanLines_eq, foldl_after (headLine_eq json), foldl_after (tailLine_eq json),
      Scan.after, zero_orElse, hzero]
  · rw [Decoder.extractSSEUsage, Decoder.tailLine_eq, extractUsage]

/-! ## The two ends of a stream -/

variable (json : Unmarshal) {n : ℕ} {xs ys data early late old recent : Bytes}

lemma linesOf_append (h : Lines.AtEnd 10 xs) (ys : Bytes) :
    linesOf (xs ++ ys) = linesOf xs ++ linesOf ys := by
  rw [linesOf, Lines.complete_append h, List.map_append, linesOf, linesOf]

lemma linesOf_prefix (h : xs <+: ys) : linesOf xs <+: linesOf ys :=
  (Lines.complete_prefix h).map _

/-- A line of the end of a text is the end of a line. -/
lemma linesOf_suffix (h : xs <:+ ys) : ∀ line ∈ linesOf xs, ∃ line' ∈ linesOf ys, line <:+ line' := by
  intro line hline
  obtain ⟨l, hl, rfl⟩ := List.mem_map.mp hline
  obtain ⟨l', hl', hsuffix⟩ := Lines.complete_of_suffix h l hl
  exact ⟨_, List.mem_map_of_mem hl', trimRight_suffix hsuffix⟩

/-- No message in the lines, whatever event they stand under, has such a count. -/
def Silent (count : Message → UInt32) (lines : List Bytes) : Prop :=
  ∀ ev, ∀ m ∈ messages ev lines, count m = 0

/-- What a chunk counts does not depend on the event. -/
lemma firstCount_input (ev ev' : GoString) (lines : List Bytes) :
    firstCount (inputCount json) ev lines = firstCount (inputCount json) ev' lines := by
  have hmap : (messages ev lines).map (inputCount json) = (messages ev' lines).map (inputCount json) := by
    induction lines generalizing ev ev' with
    | nil => rfl
    | cons line lines ih =>
        rw [messages, messages]
        split_ifs
        · rfl
        · rw [List.map_cons, List.map_cons, ih ev ev']
          rfl
        · exact ih ev ev'
  exact congrArg firstNonzero hmap

/-- The window of the last `n` bytes counts what the messages in it count. -/
lemma firstCount_window {count : Message → UInt32} (hold : Lines.AtEnd 10 old) (hn : recent.length ≤ n)
    (hsilent : ∀ line ∈ linesOf old, ∀ part, part <:+ line → Silent count [part])
    (hfresh : ∀ ev, firstCount count ev (linesOf recent) = firstCount count [] (linesOf recent)) :
    firstCount count [] (linesOf ((old ++ recent).rtake n)) =
      firstCount count [] (linesOf (old ++ recent)) := by
  have hquiet (m : ℕ) : Silent count (linesOf (old.rtake m)) := by
    intro ev msg hmsg
    obtain ⟨line, hline, ev', hmsg⟩ := mem_messages hmsg
    obtain ⟨line', hline', hsuffix⟩ := linesOf_suffix (List.drop_suffix _ _) line hline
    exact hsilent line' hline' line hsuffix ev' msg hmsg
  have hcount (m : ℕ) : firstCount count [] (linesOf (old.rtake m ++ recent)) =
      firstCount count [] (linesOf recent) := by
    rw [linesOf_append (hold.rtake m), firstCount_append, firstCount_eq_zero (hquiet m _), zero_orElse, hfresh]
  rw [List.rtake_append, List.rtake_of_length_le hn, hcount]
  have hall := hcount old.length
  rw [List.rtake_of_length_le le_rfl] at hall
  exact hall.symm

/-- The counts of a stream stand in its two ends.  The first `k` bytes reach beyond a line after which
no `message_start` counts anything.  The last `n` bytes reach back before a line such that nothing in
the lines before it can be taken for a message that counts, not even when it is cut, and such that the
counts after it do not depend on the event that was in force there. -/
structure InEnds (k n : ℕ) (data early late old recent : Bytes) : Prop where
  eq_early : data = early ++ late
  early_atEnd : Lines.AtEnd 10 early
  early_le : early.length ≤ k
  late_silent : ∀ m ∈ messages (lastEvent [] (linesOf early)) (linesOf late), startCount json m = 0
  eq_recent : data = old ++ recent
  old_atEnd : Lines.AtEnd 10 old
  recent_le : recent.length ≤ n
  old_silent : ∀ line ∈ linesOf old, ∀ part, part <:+ line →
    Silent (inputCount json) [part] ∧ Silent (outputCount json) [part]
  fresh : ∀ ev, firstCount (outputCount json) ev (linesOf recent) =
    firstCount (outputCount json) [] (linesOf recent)

/-- **The ends.**  Then they tell as much as the whole stream. -/
theorem extractUsage_ends {k : ℕ} (h : InEnds json k n data early late old recent) :
    extractUsage json (data.take k) (data.rtake n) = extractUsage json data data := by
  have hstart : firstCount (startCount json) [] (linesOf (data.take k)) =
      firstCount (startCount json) [] (linesOf data) := by
    have hcount {late' : Bytes} (hlate' : late' <+: late) :
        firstCount (startCount json) [] (linesOf (early ++ late')) =
          firstCount (startCount json) [] (linesOf early) := by
      obtain ⟨later, hlater⟩ := linesOf_prefix hlate'
      rw [linesOf_append h.early_atEnd, firstCount_append]
      have hzero : firstCount (startCount json) (lastEvent [] (linesOf early)) (linesOf late') = 0 := by
        refine firstCount_eq_zero fun m hm => h.late_silent m ?_
        rw [← hlater, messages_append]
        exact List.mem_append_left _ hm
      rw [hzero, orElse_zero]
    rw [h.eq_early, List.take_append, List.take_of_length_le h.early_le, hcount (List.take_prefix _ _),
      hcount List.prefix_rfl]
  have hinput := firstCount_window h.old_atEnd h.recent_le
    (fun line hline part hpart => (h.old_silent line hline part hpart).1)
    fun ev => firstCount_input json ev [] _
  have houtput := firstCount_window h.old_atEnd h.recent_le
    (fun line hline part hpart => (h.old_silent line hline part hpart).2) h.fresh
  rw [← h.eq_recent] at hinput houtput
  rw [(extractUsage_eq ..).1, (extractUsage_eq ..).1, hstart, hinput, houtput]

/-- Lines that begin with an event do not depend on the one before. -/
lemma firstCount_fresh {line : Bytes} (h : isEvent line) (count : Message → UInt32) (ev ev' : GoString)
    (lines : List Bytes) : firstCount count ev (line :: lines) = firstCount count ev' (line :: lines) := by
  simp [firstCount, messages, h]

/-! ### A short stream -/

/-- The data of a `message_start`. -/
def startData : Bytes := ascii "\x7b\"message\":\x7b\"usage\":\x7b\"input_tokens\":7\x7d\x7d\x7d"

/-- The data of a `message_delta`. -/
def deltaData : Bytes := ascii "\x7b\"usage\":\x7b\"output_tokens\":9\x7d\x7d"

/-- What `json.Unmarshal` makes of the two. -/
def twoMessages : Unmarshal where
  msg data := if data = startData then some 7 else if data = deltaData then some 0 else none
  ck data :=
    if data = deltaData then some (some { outputTokens := 9 })
    else if data = startData then some none else none
  delta data := if data = deltaData then some 9 else if data = startData then some 0 else none

/-- The lines of the first message. -/
def startLines : Bytes := ascii "event: message_start\ndata: " ++ startData ++ ascii "\n\n"

/-- The lines of the second message. -/
def deltaLines : Bytes := ascii "event: message_delta\ndata: " ++ deltaData ++ ascii "\n\n"

lemma twoMessages_silent {ev : GoString} {part : Bytes} (h : part.drop 6 ≠ deltaData) :
    ∀ m ∈ messages ev [part], inputCount twoMessages m = 0 ∧ outputCount twoMessages m = 0 := by
  intro m hm
  obtain rfl : m = ⟨ev, part.drop 6⟩ := by
    rw [messages, messages] at hm
    split_ifs at hm <;> simp_all [messages]
  have hck : twoMessages.ck (part.drop 6) = some none ∨ twoMessages.ck (part.drop 6) = none := by
    simp only [twoMessages, if_neg h]
    split_ifs <;> simp
  have hdelta : (twoMessages.delta (part.drop 6)).getD 0 = 0 := by
    simp only [twoMessages, if_neg h]
    split_ifs <;> rfl
  rcases hck with hck | hck <;> simp [inputCount, outputCount, deltaCount, Message.usage, hck, hdelta]

/-- The two messages of the stream stand in its ends, of which neither is the whole stream. -/
theorem extractUsage_ends_twoMessages :
    extractUsage twoMessages ((startLines ++ deltaLines).take 80) ((startLines ++ deltaLines).rtake 70) =
      extractUsage twoMessages (startLines ++ deltaLines) (startLines ++ deltaLines) :=
  extractUsage_ends twoMessages
    { eq_early := rfl
      early_atEnd := .inr ⟨ascii "event: message_start\ndata: " ++ startData ++ ascii "\n", by decide⟩
      early_le := by decide
      late_silent := by decide
      eq_recent := rfl
      old_atEnd := .inr ⟨ascii "event: message_start\ndata: " ++ startData ++ ascii "\n", by decide⟩
      recent_le := by decide
      old_silent := by
        intro line hline part hpart
        have hnot : ∀ line ∈ linesOf startLines, ¬deltaData <:+ line := by decide
        have hdata (hdrop : part.drop 6 = deltaData) : False :=
          hnot line hline (hdrop ▸ (List.drop_suffix _ _).trans hpart)
        exact ⟨fun ev m hm => (twoMessages_silent hdata m hm).1,
          fun ev m hm => (twoMessages_silent hdata m hm).2⟩
      fresh := fun ev => by
        have hlines : linesOf deltaLines = ascii "event: message_delta" ::
            [ascii "data: " ++ deltaData, []] := by decide
        rw [hlines]
        exact firstCount_fresh (by decide) _ _ _ _ }

end SseTap

end Luwes
