/-
# `Sardeenz.Dashboard.Events` — the event stream of one dashboard client

The route `/api/events` (`server/routes/events.ts`) subscribes to Redis before it takes over the
response, "so failures return a proper error":

    message handler │ await subscribe │ headers, ping timer, close handler │ until the client goes

A message before the headers is written to the response all the same, and a client that goes
before there is a close handler leaves the subscriber and the timer behind.

**Proved here.**  When events are written in time and everything is given back
(`stream_lifecycle`), and two clients for which it is not (`before_the_headers`).
-/
import Sardeenz.Run

namespace Sardeenz.Dashboard.Events

open Interleave

/-- Where the handler is: it awaits `subscribe`, whose result may be in. -/
inductive Phase where
  | subscribing
  | replied (ok : Bool)
  | streaming
  | closed
  | failed
deriving DecidableEq

structure Client where
  phase : Phase := .subscribing
  gone : Bool := false
  headers : Bool := false
  ended : Bool := false
  /-- The connection of the subscriber is open. -/
  subscriber : Bool := true
  pingTimer : Bool := false
  /-- Events written before the headers, and after the end. -/
  early : Nat := 0
  late : Nat := 0
deriving DecidableEq

inductive Event where
  | message (json : Bool)
  | subscribed (ok : Bool)
  /-- The handler goes on after its await. -/
  | resume
  | disconnect

variable (s : Client)

def Client.write : Client :=
  { s with
    early := if s.headers then s.early else s.early + 1
    late := if s.ended then s.late + 1 else s.late }

def Client.cleanup : Client :=
  { s with phase := .closed, pingTimer := false, subscriber := false, ended := true }

def step : Event → Option Client
  | .message json =>
    if s.subscriber then some (if json && !s.ended then s.write else s) else none
  | .subscribed ok => if s.phase = .subscribing then some { s with phase := .replied ok } else none
  | .resume =>
    match s.phase with
    | .replied true => some { s with phase := .streaming, headers := true, pingTimer := true }
    | .replied false =>
      some { s with phase := .failed, subscriber := false, headers := true, ended := true }
    | _ => none
  | .disconnect =>
    let s' := { s with gone := true }
    some (if s.phase = .streaming then s'.cleanup else s')

def Phase.waiting : Phase → Bool
  | .subscribing | .replied _ => true
  | _ => false

/-- No message comes and the client does not go before the handler has gone on. -/
def attended : Event → Prop
  | .message _ | .disconnect => s.phase.waiting = false
  | _ => True

instance (s : Client) (e : Event) : Decidable (attended s e) := by
  unfold attended
  split <;> infer_instance

structure Inv (s : Client) : Prop where
  unwritten : s.early = 0 ∧ s.late = 0
  headers : s.phase.waiting = false → s.headers = true
  closed : s.phase = .closed ∨ s.phase = .failed → s.subscriber = false ∧ s.pingTimer = false
  timer : s.phase.waiting = true → s.pingTimer = false ∧ s.gone = false
  gone : s.gone = true → s.phase ≠ .streaming

theorem Inv.step {s s' e} (hs : Inv s) (hok : attended s e)
    (h : step s e = some s') : Inv s' := by
  obtain ⟨hunwritten, hheaders, hclosed, htimer, hgone⟩ := hs
  cases e with
  | message =>
    obtain ⟨-, h⟩ := Option.ite_none_right_eq_some.mp h
    cases h
    split
    · refine ⟨?_, hheaders, hclosed, htimer, hgone⟩
      simp_all [Client.write, attended]
    · exact ⟨hunwritten, hheaders, hclosed, htimer, hgone⟩
  | subscribed =>
    obtain ⟨hphase, h⟩ := Option.ite_none_right_eq_some.mp h
    cases h
    exact ⟨hunwritten, nofun, nofun, fun _ => htimer (by rw [hphase]; rfl), fun _ => nofun⟩
  | resume =>
    simp only [Events.step] at h
    split at h <;> cases h
    · rename_i hphase
      have := htimer (by rw [hphase]; rfl)
      exact ⟨hunwritten, fun _ => rfl, nofun, nofun, by simp [this.2]⟩
    · rename_i hphase
      have := htimer (by rw [hphase]; rfl)
      exact ⟨hunwritten, fun _ => rfl, fun _ => ⟨rfl, this.1⟩, nofun, fun _ => nofun⟩
  | disconnect =>
    cases h
    split
    · exact ⟨hunwritten, fun _ => hheaders hok, fun _ => ⟨rfl, rfl⟩, nofun, fun _ => nofun⟩
    · rename_i hphase
      exact ⟨hunwritten, hheaders, hclosed, by simp_all [attended], fun _ => hphase⟩

/-- **No event is written before the headers or after the end, and a client that has gone has
neither a subscriber nor a timer**, if no message comes and the client does not go before the
handler has gone on after `subscribe`. -/
theorem stream_lifecycle {s : Client} (hr : Reach step attended {} s) :
    s.early = 0 ∧ s.late = 0 ∧ (s.gone = true → s.subscriber = false ∧ s.pingTimer = false) := by
  have hs : Inv s := hr.inductive_inv
    ⟨⟨rfl, rfl⟩, nofun, by simp, fun _ => ⟨rfl, rfl⟩, nofun⟩ Inv.step
  refine ⟨hs.unwritten.1, hs.unwritten.2, fun hgone => hs.closed ?_⟩
  have hnot := hs.gone hgone
  have hwaiting := hs.timer
  cases hphase : s.phase <;> simp_all [Phase.waiting]

theorem lifecycle_oneEvent :
    ((exec (guarded step attended) {} [.subscribed true, .resume, .message true, .disconnect]).get
      (by decide)).subscriber = false :=
  ((stream_lifecycle (reach_get (by decide))).2.2 (by decide)).1

/-- An event is written before the headers; and a client that goes while the handler subscribes
keeps its subscriber and its timer. -/
theorem before_the_headers :
    (exec step {} [.subscribed true, .message true]).map (fun s => (s.headers, s.early)) =
        some (false, 1) ∧
      (exec step {} [.disconnect, .subscribed true, .resume]).map
        (fun s => (s.gone, s.subscriber, s.pingTimer)) = some (true, true, true) := by
  decide

end Sardeenz.Dashboard.Events
