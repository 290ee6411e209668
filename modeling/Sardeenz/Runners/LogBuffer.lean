/-
# `Sardeenz.Runners.LogBuffer` — the log of a runner on its worker

The worker keeps the last lines a runner has written, and streams them to the clients
(`runner-log-buffer.ts`, `routes/logs.ts`).  `append` splits every `data` event of the process
on its own, so that an event must end where a line ends.  A client that connects is sent the
buffer, and then subscribes to lines and to the end; one that connects after the end is sent
`end` at once, and its `cleanup` waits for a microtask:

    connect      buffer, [end]   subscribed
    append       lines           to those subscribed
    markEnded    end             to those subscribed, then cleanup
    microtask                    cleanup, after a connect that found the end

**Proved here.**  The lines in the buffer are those of the text, if no event but the last cuts
a line (`lines_captured`); a client receives buffer and lines without a gap and one `end`, if
nothing comes between an ended stream's connect and its microtask (`stream_gapless`).
-/
import Sardeenz.Run
import Mathlib.Data.List.Infix

namespace Sardeenz.LogBuffer

open Interleave List

/-! ## Lines -/

/-- `\s` of a regular expression. -/
def isSpace (c : Char) : Bool :=
  "\t\n\x0b\x0c\r       　﻿".toList.contains c ||
    0x2000 ≤ c.val && c.val ≤ 0x200a

/-- `\s+`. -/
def spaces : List Char → Option (List Char)
  | c :: rest => if isSpace c then some (rest.dropWhile isSpace) else none
  | [] => none

/-- One of the words, and what follows it. -/
def word (words : List String) (text : List Char) : Option (List Char) :=
  (words.find? fun w => w.toList.isPrefixOf text).map fun w => text.drop w.length

/-- `POLL_NOISE_RE` at one place of the line. -/
def pollNoiseAt (text : List Char) : Bool :=
  (word ["-"] text >>= spaces >>= word ["\"GET", "\"POST", "\"HEAD"] >>= spaces >>=
    word ["/health", "/progress", "/memory-report", "/sleep-status", "/capabilities"]).any
      fun rest => !rest.head?.any fun c => c.isAlphanum || c = '_'

def pollNoise (line : List Char) : Bool := line.tails.any pollNoiseAt

/-- The lines of a text; a trailing line break begins none. -/
def lines (content : List Char) : List (List Char) :=
  let lines := content.splitOn '\n'
  if lines.getLast? = some [] then lines.dropLast else lines

/-- The last `cap` lines. -/
def latest {α : Type} (cap : Nat) (buffer : List α) : List α := buffer.drop (buffer.length - cap)

/-- The contents that `append` pushes. -/
def kept (content : List Char) : List (List Char) := (lines content).filter (!pollNoise ·)

def append (cap : Nat) (buffer : List (List Char)) (content : List Char) : List (List Char) :=
  latest cap (buffer ++ kept content)

@[simp] theorem latest_nil {α} (cap : Nat) : latest cap ([] : List α) = [] :=
  drop_nil

theorem latest_append {α} (cap : Nat) (a b : List α) :
    latest cap (latest cap a ++ b) = latest cap (a ++ b) := by
  simp only [latest, drop_append, drop_drop, length_append, length_drop]
  congr 2 <;> omega

theorem lines_append {content content'}
    (h : content = [] ∨ content.getLast? = some '\n') :
    lines (content ++ content') = lines content ++ lines content' := by
  rcases h with rfl | h
  · rfl
  · obtain ⟨_, rfl⟩ := getLast?_eq_some_iff.mp h
    have hne := splitOn_ne_nil '\n' content'
    simp only [lines, append_assoc, singleton_append, splitOn_append_cons_self, getLast?_append_of_ne_nil _ hne]
    split <;> simp

theorem kept_flatten : ∀ {events : List (List Char)},
    (∀ event ∈ events.dropLast, event = [] ∨ event.getLast? = some '\n') →
      kept events.flatten = events.flatMap kept
  | [], _ => rfl
  | [event], _ => by simp
  | event :: _ :: events, h => by
    rw [flatten_cons, kept, lines_append (h event mem_cons_self), filter_append,
      ← kept, ← kept, kept_flatten fun e he => h e (mem_cons_of_mem _ he)]
    rfl

theorem foldl_append (cap : Nat) : ∀ (events buffer : List (List Char)),
    events.foldl (append cap) (latest cap buffer) = latest cap (buffer ++ events.flatMap kept)
  | [], buffer => by simp
  | event :: events, buffer => by
    rw [foldl_cons, append, latest_append, foldl_append cap events, append_assoc,
      ← flatMap_cons]

variable {α : Type}

inductive Frame (α : Type) where
  | log (line : α)
  | «end»
deriving DecidableEq

/-- A connection; `connectedAt` and `endedAt` are how many lines had been appended. -/
structure Client (α : Type) where
  frames : List (Frame α)
  subscribed : Bool := true
  /-- Its `cleanup` is in the queue. -/
  queued : Bool
  connectedAt : Nat
  endedAt : Option Nat

/-- `log` is every line appended so far. -/
structure Stream (α : Type) where
  log : List α := []
  buffer : List α := []
  ended : Bool := false
  clients : List (Client α) := []

inductive Event (α : Type) where
  | append (lines : List α)
  | connect
  | markEnded
  | microtask (client : Nat)

def Client.writeLog (lines : List α) (c : Client α) : Client α :=
  if c.subscribed then { c with frames := c.frames ++ lines.map .log } else c

/-- The listener of `onEnd`: the `end` frame, and `cleanup`. -/
def Client.onEnd (count : Nat) (c : Client α) : Client α :=
  if c.subscribed then
    { c with frames := c.frames ++ [.end], subscribed := false, endedAt := some count }
  else c

def Stream.connect (s : Stream α) : Client α where
  frames := s.buffer.map .log ++ if s.ended then [.end] else []
  queued := s.ended
  connectedAt := s.log.length
  endedAt := if s.ended then some s.log.length else none

def Stream.step (cap : Nat) (s : Stream α) : Event α → Option (Stream α)
  | .append lines => some { s with
      log := s.log ++ lines
      buffer := latest cap (s.buffer ++ lines)
      clients := s.clients.map (·.writeLog lines) }
  | .connect => some { s with clients := s.clients ++ [s.connect] }
  | .markEnded => some { s with ended := true, clients := s.clients.map (·.onEnd s.log.length) }
  | .microtask i => s.clients[i]?.bind fun c =>
      if c.queued then
        some { s with clients := s.clients.set i { c with queued := false, subscribed := false } }
      else none

/-- Nothing is sent while a `cleanup` is in the queue. -/
def promptly (s : Stream α) : Event α → Prop
  | .append _ | .markEnded => ∀ c ∈ s.clients, c.queued = false
  | _ => True

instance (s : Stream α) (e : Event α) : Decidable (promptly s e) := by
  unfold promptly
  split <;> infer_instance

/-- What the client is to receive: the buffer as it connects, the lines that follow until the
stream ends, and `end`. -/
def Client.due (cap : Nat) (log : List α) (c : Client α) : List (Frame α) :=
  (latest cap (log.take c.connectedAt) ++
      (log.take (c.endedAt.getD log.length)).drop c.connectedAt).map .log ++
    if c.endedAt.isSome then [.end] else []

structure Client.Inv (cap : Nat) (log : List α) (c : Client α) : Prop where
  frames : c.frames = c.due cap log
  connected : c.connectedAt ≤ log.length
  ended : ∀ n, c.endedAt = some n → n ≤ log.length
  open_iff : c.subscribed = true ∧ c.queued = false ↔ c.endedAt = none

structure Stream.Inv (cap : Nat) (s : Stream α) : Prop where
  buffer : s.buffer = latest cap s.log
  clients : ∀ c ∈ s.clients, c.Inv cap s.log

theorem Stream.Inv.step {cap s s'} {e : Event α} (hs : s.Inv cap)
    (hok : promptly s e) (h : s.step cap e = some s') : s'.Inv cap := by
  cases e with
  | append =>
    cases h
    refine ⟨by rw [hs.buffer, latest_append], fun c hc => ?_⟩
    obtain ⟨c, hmem, rfl⟩ := mem_map.mp hc
    obtain ⟨hframes, hconnected, hended, hopen⟩ := hs.clients c hmem
    have hq := hok c hmem
    cases hn : c.endedAt with
    | none =>
      have hsub := (hopen.mpr hn).1
      refine ⟨?_, ?_, ?_, ?_⟩ <;> simp [Client.writeLog, Client.due, hsub, hframes,
        hn, hq, take_append_of_le_length, drop_append_of_le_length, hconnected,
        take_length_add_append]
      omega
    | some =>
      have hsub : c.subscribed = false := by grind
      refine ⟨?_, ?_, ?_, ?_⟩ <;> simp [Client.writeLog, Client.due, hsub, hframes]
      all_goals grind
  | connect =>
    cases h
    refine ⟨hs.buffer, fun c hc => ?_⟩
    rcases mem_append.mp hc with hc | hc
    · exact hs.clients c hc
    · cases mem_singleton.mp hc
      cases he : s.ended <;> refine ⟨?_, ?_, ?_, ?_⟩ <;>
        simp [Stream.connect, Client.due, he, hs.buffer]
  | markEnded =>
    cases h
    refine ⟨hs.buffer, fun c hc => ?_⟩
    obtain ⟨c, hmem, rfl⟩ := mem_map.mp hc
    have hinv := hs.clients c hmem
    cases hsub : c.subscribed with
    | false => simpa [Client.onEnd, hsub] using hinv
    | true =>
      have hn := hinv.open_iff.mp ⟨hsub, hok c hmem⟩
      refine ⟨?_, ?_, ?_, ?_⟩ <;>
        simp [Client.onEnd, Client.due, hsub, hinv.frames, hn, hinv.connected]
  | microtask =>
    obtain ⟨c, hi, hc⟩ := Option.bind_eq_some_iff.mp h
    split at hc
    · cases hc
      refine ⟨hs.buffer, fun c' hc' => ?_⟩
      rcases mem_or_eq_of_mem_set hc' with hc' | rfl
      · exact hs.clients c' hc'
      · obtain ⟨hframes, hconnected, hended, hopen⟩ := hs.clients c (mem_of_getElem? hi)
        exact ⟨hframes, hconnected, hended, by grind⟩
    · cases hc

/-- **A client receives its buffer and every later line once and in order until the end**, and
at most one `end`, the last, if nothing is sent while its `cleanup` is in the queue. -/
theorem stream_gapless {cap : Nat} {s : Stream α} {c : Client α}
    (hr : Reach (Stream.step cap) promptly {} s) (hc : c ∈ s.clients) : c.frames = c.due cap s.log :=
  ((hr.inductive_inv ⟨(latest_nil cap).symm, by simp⟩ Stream.Inv.step).clients c hc).frames

theorem two_clients_gapless :
    let s := (exec (guarded (Stream.step 1) promptly) ({} : Stream Nat) [.append [1, 2], .connect,
      .append [3], .markEnded, .connect, .microtask 1, .append [4]]).get (by decide)
    s.clients.map (·.frames) = [[.log 2, .log 3, .end], [.log 3, .end]] ∧
      ∀ c ∈ s.clients, c.frames = c.due 1 s.log := by
  exact ⟨by decide, fun c hc => stream_gapless (reach_get _) hc⟩

/-- The stream of a runner ends again, or a line comes, before the microtask. -/
theorem end_sent_twice :
    (exec (Stream.step 1) ({} : Stream Nat) [.markEnded, .connect, .append [1], .markEnded,
      .microtask 0]).map (·.clients.map (·.frames)) = some [[.end, .log 1, .end]] := by
  decide

end Sardeenz.LogBuffer
