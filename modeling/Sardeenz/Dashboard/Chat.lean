/-
# `Sardeenz.Dashboard.Chat` — a chat stream on its way to the browser

The dashboard's server relays the stream of a completion (`server/routes/inference.ts`), and
the client reads it to its end or to its `[DONE]` frame (`streamChatCompletion`,
`api/client.ts`).  "On any other failure … only `onError` fires."  The relay runs the same
`cleanup` when the upstream ends and when it fails, and `cleanup` ends the response:

    upstream               response                client
    unreachable, or !ok    its status, an error    onError
    ends                   200, ends               onDone
    fails                  200, ends               onDone

**Proved here.**  Which failures the client reports (`failure_reported_iff`); the division of the
stream into reads does not matter (`reads_do_not_matter`).
-/
import Mathlib.Logic.Basic

namespace Sardeenz.Dashboard.Chat

open List

/-- `SseDelta`, with `usage` as a number of tokens. -/
structure SseDelta where
  content : Option (List Char) := none
  done : Bool := false
  usage : Option Nat := none

/-- `parseSseBuffer`: the trailing partial line, and the lines before it. -/
def parseSseBuffer (buffer : List Char) : List Char × List (List Char) :=
  let lines := buffer.splitOn '\n'
  (lines.getLast?.getD [], lines.dropLast)

def trim (text : List Char) : List Char :=
  ((text.dropWhile Char.isWhitespace).reverse.dropWhile Char.isWhitespace).reverse

variable (parse : List Char → Option SseDelta)

/-- `extractDelta`; `parse` is `JSON.parse` and what is taken from its value. -/
def extractDelta (line : List Char) : SseDelta :=
  if (trim line).isEmpty || [':'].isPrefixOf line then {}
  else if !"data: ".toList.isPrefixOf line then {}
  else
    let data := trim (line.drop 6)
    if data = "[DONE]".toList then { done := true } else (parse data).getD {}

inductive Callback where
  | onChunk (delta : List Char)
  | onDone (fullText : List Char) (usage : Option Nat)
  | onError
deriving DecidableEq

/-- The variables of the reader's loop. -/
structure Reading where
  buffer : List Char := []
  fullText : List Char := []
  usage : Option Nat := none

/-- The loop over the lines: the callbacks, and the variables unless it has returned. -/
def readLines (r : Reading) : List (List Char) → List Callback × Option Reading
  | [] => ([], some r)
  | line :: lines =>
    let delta := extractDelta parse line
    if delta.done then ([.onDone r.fullText r.usage], none)
    else
      let usage := delta.usage.or r.usage
      match delta.content with
      | some (c :: cs) =>
        let (calls, r') := readLines { r with fullText := r.fullText ++ c :: cs, usage } lines
        (.onChunk (c :: cs) :: calls, r')
      | _ => readLines { r with usage } lines

/-- The loop over `reader.read()`; the response ends, or the connection is lost. -/
def readChunks (ends : Bool) (r : Reading) : List (List Char) → List Callback
  | [] => [if ends then .onDone r.fullText r.usage else .onError]
  | chunk :: chunks =>
    let (rest, lines) := parseSseBuffer (r.buffer ++ chunk)
    match readLines parse { r with buffer := rest } lines with
    | (calls, some r') => calls ++ readChunks ends r' chunks
    | (calls, none) => calls

structure Response where
  status : Nat
  chunks : List (List Char)
  ends : Bool

def ok (status : Nat) : Bool := 200 ≤ status && status < 300

/-- `streamChatCompletion`, once it has a response. -/
def streamChatCompletion (response : Response) : List Callback :=
  if ok response.status then readChunks parse response.ends {} response.chunks else [.onError]

/-- The upstream: what `chatCompletions` resolves to, if it does.  A body has a text as far as
it is piped, and ends or fails. -/
inductive Upstream where
  | unreachable
  | answered (status : Nat) (body : Option (List (List Char) × Bool))

/-- The relay; an error is sent as the text `error`. -/
def relay (error : List Char) : Upstream → Response
  | .unreachable => ⟨502, [error], true⟩
  | .answered status none => ⟨status, [error], true⟩
  | .answered status (some (chunks, _failed)) =>
    -- `end` and `error` both run `cleanup`, and that ends the response.
    if ok status then ⟨200, chunks, true⟩ else ⟨status, [error], true⟩

/-- The upstream fails with an error: it gives none but an error status, or its body breaks off
before a `[DONE]` frame. -/
def Upstream.Fails : Upstream → Prop
  | .unreachable => True
  | .answered status none => ok status = false
  | .answered status (some (chunks, failed)) => ok status = false ∨ (failed = true ∧
      ∀ line ∈ (parseSseBuffer chunks.flatten).2, (extractDelta parse line).done = false)

/-- The upstream never began a successful response. -/
def Upstream.beforeHead : Upstream → Bool
  | .unreachable => true
  | .answered status _ => !ok status

/-- The generation is reported as failed, and not as complete. -/
def Reported (calls : List Callback) : Prop :=
  .onError ∈ calls ∧ ∀ text usage, .onDone text usage ∉ calls

variable {parse}

/-! ## The division into reads -/

theorem parseSseBuffer_cons (c : Char) (text : List Char) : parseSseBuffer (c :: text) =
      let (rest, lines) := parseSseBuffer text
      if c = '\n' then (rest, [] :: lines) else
        match lines with
        | [] => (c :: rest, [])
        | line :: lines => (rest, (c :: line) :: lines) := by
  cases h : text.splitOn '\n' with
  | nil => exact absurd h (splitOn_ne_nil '\n' text)
  | cons line lines =>
    cases lines <;> by_cases hc : c = '\n' <;>
      simp [parseSseBuffer, splitOn_cons_eq_if_modifyHead, h, hc]

/-- A partial line is carried to the text that follows. -/
theorem parseSseBuffer_append (text text' : List Char) : parseSseBuffer (text ++ text') =
      let (rest, lines) := parseSseBuffer text
      let (rest', lines') := parseSseBuffer (rest ++ text')
      (rest', lines ++ lines') := by
  induction text with
  | nil => rfl
  | cons c text ih =>
    rw [cons_append, parseSseBuffer_cons, parseSseBuffer_cons, ih]
    by_cases hc : c = '\n'
    · simp [hc]
    · cases hlines : (parseSseBuffer text).2 <;> simp [hc, hlines, parseSseBuffer_cons]

variable (next : Reading → List Callback)

/-- What the loop goes on with, unless it has returned. -/
def andThen : List Callback × Option Reading → List Callback
  | (calls, some r) => calls ++ next r
  | (calls, none) => calls

@[simp] theorem andThen_cons (call : Callback)
    (p : List Callback × Option Reading) : andThen next (call :: p.1, p.2) = call :: andThen next p := by
  rcases p with ⟨_, _ | r⟩ <;> rfl

theorem andThen_readLines_append (next : Reading → List Callback) (buffer : List Char)
    (lines' : List (List Char)) : ∀ (lines : List (List Char)) (r : Reading),
    andThen next (readLines parse { r with buffer } (lines ++ lines')) =
      andThen (fun r' => andThen next (readLines parse { r' with buffer } lines'))
        (readLines parse r lines)
  | [], r => by rfl
  | line :: lines, r => by
    have ih := andThen_readLines_append next buffer lines' lines
    simp only [cons_append, readLines]
    split
    · rfl
    · split
      · simpa using ih { r with fullText := r.fullText ++ _, usage := _ }
      · exact ih { r with usage := (extractDelta parse line).usage.or r.usage }

/-- The lines give chunks; a `[DONE]` line is the end, with the text of all of them. -/
theorem readLines_calls : ∀ (lines : List (List Char)) (r : Reading),
    ∃ (deltas : List (List Char)) (usage : Option Nat),
      readLines parse r lines = (deltas.map .onChunk ++
          [.onDone (r.fullText ++ deltas.flatten) usage], none) ∨
        readLines parse r lines =
          (deltas.map .onChunk, some ⟨r.buffer, r.fullText ++ deltas.flatten, usage⟩)
  | [], r => ⟨[], r.usage, .inr (by simp [readLines])⟩
  | line :: lines, r => by
    simp only [readLines]
    split
    · exact ⟨[], r.usage, .inl (by simp)⟩
    · split
      · rename_i c cs _
        obtain ⟨deltas, usage, h⟩ := readLines_calls lines
          { r with fullText := r.fullText ++ c :: cs, usage := (extractDelta parse line).usage.or r.usage }
        exact ⟨(c :: cs) :: deltas, usage, by rcases h with h | h <;> simp [h]⟩
      · exact readLines_calls lines { r with usage := _ }

/-- The callbacks of a text that is read at once. -/
def readText (parse : List Char → Option SseDelta) (ends : Bool) (r : Reading)
    (text : List Char) : List Callback :=
  let (rest, lines) := parseSseBuffer text
  andThen (fun r => [if ends then .onDone r.fullText r.usage else .onError])
    (readLines parse { r with buffer := rest } lines)

/-- The reads together are read as one text. -/
theorem readChunks_eq {ends} : ∀ (chunks : List (List Char)) {r : Reading},
    parseSseBuffer r.buffer = (r.buffer, []) →
      readChunks parse ends r chunks = readText parse ends r (r.buffer ++ chunks.flatten)
  | [], r, hr => by simp [readText, hr, readChunks, readLines, andThen]
  | chunk :: chunks, r, hr => by
    have hrest := parseSseBuffer_append (r.buffer ++ chunk) []
    rw [append_nil] at hrest
    rw [flatten_cons, ← append_assoc, readText, parseSseBuffer_append, readChunks]
    generalize parseSseBuffer (r.buffer ++ chunk) = p at hrest ⊢
    obtain ⟨rest, lines⟩ := p
    have hbuffer : parseSseBuffer rest = (rest, []) := by
      simp only [append_nil, Prod.ext_iff] at hrest
      exact Prod.ext hrest.1.symm (self_eq_append_right.mp hrest.2)
    obtain ⟨deltas, usage, h⟩ := @readLines_calls parse lines { r with buffer := rest }
    have ih := @readChunks_eq ends chunks ⟨rest, r.fullText ++ deltas.flatten, usage⟩ hbuffer
    simp only [andThen_readLines_append _ _ _ lines { r with buffer := rest }]
    rcases h with h | h
    · simp only [h, andThen]
    · simp only [h, ih, andThen, readText]

theorem readChunks_calls (ends : Bool) (chunks : List (List Char)) :
    ∃ (deltas : List (List Char)) (last : Callback),
      readChunks parse ends {} chunks = deltas.map .onChunk ++ [last] ∧
        ((∃ usage, last = .onDone deltas.flatten usage) ∨ ends = false ∧ last = .onError) := by
  rw [readChunks_eq _ rfl, readText]
  generalize parseSseBuffer ([] ++ chunks.flatten) = p
  obtain ⟨deltas, usage, h | h⟩ := readLines_calls p.2 { buffer := p.1 }
  · exact ⟨deltas, _, congrArg (andThen _) h, .inl ⟨usage, rfl⟩⟩
  · refine ⟨deltas, _, congrArg (andThen _) h, ?_⟩
    cases ends with
    | false => exact .inr ⟨rfl, rfl⟩
    | true => exact .inl ⟨usage, rfl⟩

/-! ## The callbacks -/

/-- **A failure is reported exactly if it comes before the response has begun**: every stream
that breaks off later is shown as complete. -/
theorem failure_reported_iff {error : List Char} {upstream : Upstream}
    (hfails : upstream.Fails parse) :
    Reported (streamChatCompletion parse (relay error upstream)) ↔ upstream.beforeHead = true := by
  have hrefused : ∀ response : Response, ok response.status = false →
      Reported (streamChatCompletion parse response) := by
    intro response hstatus
    simp [streamChatCompletion, hstatus, Reported]
  cases upstream with
  | unreachable => exact iff_of_true (hrefused _ rfl) rfl
  | answered status body =>
    cases hstatus : ok status with
    | false =>
      refine iff_of_true (hrefused _ ?_) (by simp [Upstream.beforeHead, hstatus])
      cases body <;> simp [relay, hstatus]
    | true =>
      refine iff_of_false (fun h => ?_) (by simp [Upstream.beforeHead, hstatus])
      cases body with
      | none => cases hstatus.symm.trans hfails
      | some body =>
        obtain ⟨deltas, _, hcalls, ⟨usage, rfl⟩ | hlost⟩ :=
          @readChunks_calls parse true body.1
        · refine h.2 deltas.flatten usage ?_
          simp [relay, hstatus, streamChatCompletion, show ok 200 = true from rfl, hcalls]
        · cases hlost.1

theorem unreachable_reported :
    Reported (streamChatCompletion (fun _ => none) (relay [] .unreachable)) :=
  (failure_reported_iff (show Upstream.Fails _ .unreachable from trivial)).mpr rfl

/-- The upstream fails after its first frame: the client calls `onDone` with what it has. -/
theorem truncated_shown_complete :
    let parse := fun _ => some { content := some ['H', 'i'] }
    let upstream := Upstream.answered 200 (some (["data: x\n\n".toList], true))
    upstream.Fails parse ∧ streamChatCompletion parse (relay [] upstream) =
      [.onChunk ['H', 'i'], .onDone ['H', 'i'] none] := by
  refine ⟨.inr ⟨rfl, ?_⟩, ?_⟩
  · decide
  · decide

/-- **The division into reads does not matter**: the callbacks are the same; the last of them is
the only `onDone`, with the text of all chunks, or the only `onError`. -/
theorem reads_do_not_matter {decode : List (List UInt8) → List (List Char)}
    (hdecode : ∀ reads reads', reads.flatten = reads'.flatten →
      (decode reads).flatten = (decode reads').flatten)
    {status : Nat} {ends : Bool} {reads reads' : List (List UInt8)}
    (hreads : reads.flatten = reads'.flatten) :
    let calls := streamChatCompletion parse ⟨status, decode reads, ends⟩
    calls = streamChatCompletion parse ⟨status, decode reads', ends⟩ ∧
      ∃ (deltas : List (List Char)) (last : Callback), calls = deltas.map .onChunk ++ [last] ∧
        (last = .onError ∨ ∃ usage, last = .onDone deltas.flatten usage) := by
  simp only [streamChatCompletion]
  split
  · obtain ⟨deltas, last, hcalls, hlast⟩ := readChunks_calls ends (decode reads)
    exact ⟨by rw [readChunks_eq _ rfl, readChunks_eq _ rfl, hdecode _ _ hreads],
      deltas, last, hcalls, hlast.symm.imp_left And.right⟩
  · exact ⟨rfl, [], .onError, rfl, .inl rfl⟩

theorem ascii_reads_do_not_matter :
    let decode := List.map (List.map fun byte : UInt8 => Char.ofNat byte.toNat)
    let parse := fun _ : List Char => some ({ content := some ['H', 'i'] } : SseDelta)
    streamChatCompletion parse ⟨200, decode [[100, 97], [116, 97, 58, 32, 120, 10]], true⟩ =
      streamChatCompletion parse ⟨200, decode [[100, 97, 116, 97, 58, 32, 120], [10]], true⟩ := by
  intro decode parse
  refine (reads_do_not_matter (fun _ _ h => ?_) rfl).1
  simp only [decode, ← map_flatten, h]

end Sardeenz.Dashboard.Chat
