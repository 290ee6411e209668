/-
# `Sardeenz.Runners.Ports` — the port blocks of the runners

`allocatePorts` keeps the base ports in `usedPorts`.  A stop, a failed start and an exit
take the port of the runner out of it; the first two do so while the process may still
be running.

**Proved here.**  When the blocks of the running processes are apart, in the range and
clear of the worker's own port (`ports_apart`).
-/
import Sardeenz.Runners.Manager

namespace Sardeenz.Runners

open Interleave List

variable {config : Config} {s : System} {n : Nat} {i : Input} {w' : Indexes} {k k' : Call}

/-- The port begins a block of the range that leaves out the worker's own port. -/
def Config.Fits (config : Config) (port : Nat) : Prop :=
  ∃ slot < config.maxRunners, port = config.base slot ∧
    ¬ (port ≤ config.workerPort ∧ config.workerPort ≤ port + portsPerRunner - 1)

theorem nextSlot_spec {used first slot}
    (h : config.nextSlot used first = some slot) :
    config.Fits (config.base slot) ∧ used (config.base slot) = false := by
  have hmem := mem_range.mp (mem_of_mem_drop (mem_of_find?_eq_some h))
  have hfree := find?_some h
  simp only [Bool.and_eq_true, Bool.not_eq_true', decide_eq_false_iff_not] at hfree
  exact ⟨⟨slot, hmem, rfl, hfree.2⟩, hfree.1⟩

namespace Call

def block (k : Call) : List Nat := List.range' k.port portsPerRunner

/-- The port of the call is in `usedPorts`. -/
def holds (k : Call) : Bool := k.allocating || k.present

def occupies (k : Call) : Bool := k.holds || decide (k.process = .running)

end Call

/-- The inputs on which `allocatePorts` looks for a block. -/
def Input.searches : Input → Bool
  | .go | .probed false => true
  | _ => false

/-- A start takes a block only while every running process belongs to a runner that is
pending or live. -/
def BlocksApart (s : System) : Event → Prop
  | .move n i => i.searches = true → ∀ k ∈ s.tasks[n]?, k.stage = .calling ∨ k.allocating = true →
      ∀ b ∈ s.tasks, b.process = .running → b.present = true
  | _ => True

structure PortsHeld (config : Config) (s : System) : Prop where
  used : ∀ (j : Nat) k, s.tasks[j]? = some k → k.holds = true → s.world.usedPorts k.port = true
  fits : ∀ (j : Nat) k, s.tasks[j]? = some k → k.occupies = true → config.Fits k.port
  apart : Pairs (fun a b => a.occupies = true → b.occupies = true → a.port ≠ b.port) s.tasks

theorem PortsHeld.keep (hs : PortsHeld config s) (hk : s.tasks[n]? = some k)
    (hport : k'.port = k.port) (hle : k'.occupies = true → k.occupies = true)
    (hself : k'.holds = true → w'.usedPorts k.port = true)
    (hothers : ∀ (j : Nat) b, s.tasks[j]? = some b → b.holds = true →
      (k.occupies = true → b.port ≠ k.port) → w'.usedPorts b.port = true) :
    PortsHeld config ⟨w', s.tasks.set n k'⟩ := by
  constructor
  · refine (forall_getElem?_set hk).mpr ⟨hport ▸ hself, fun j b hj hb hholds => ?_⟩
    refine hothers j b hb hholds fun hocc => hs.apart j b hb n k hk hj ?_ hocc
    simp [Call.occupies, hholds]
  · grind [hs.fits]
  · refine hs.apart.set (fun a b h ha hb => (h hb ha).symm) hk fun j b hb hj hocc => ?_
    rw [hport]
    exact hs.apart n k hk j b hb hj.symm (hle hocc)

theorem PortsHeld.move (hs : PortsHeld config s) (hok : BlocksApart s (.move n i))
    (hk : s.tasks[n]? = some k) (hsound : Sound k)
    (h : Runners.move config n i s.world k = some (w', k')) :
    PortsHeld config ⟨w', s.tasks.set n k'⟩ := by
  have hused := hs.used n k hk
  have hidle : k.allocating = true ∨ k.stage = .calling →
      k.process ≠ .running ∧ k.live = false := by
    obtain ⟨_, _, _, -, -, -⟩ := hsound
    grind [Call.allocating]
  have hfreed : ∀ (j : Nat) b, s.tasks[j]? = some b → b.holds = true →
      (k.occupies = true → b.port ≠ k.port) → freed s.world k b.port = true := by
    intro j b hb hholds hne
    have := hs.used j b hb hholds
    unfold freed
    split
    next halloc => simp [hne (by simp [Call.occupies, Call.holds, halloc]), this]
    next => exact this
  have heffect : Effect config n i s.world k w' k' := effect_move hsound h
  cases heffect with
  | frame maps port present allocating running =>
    refine hs.keep hk port ?_ ?_ fun j b hb hholds _ => ?_
    · grind [Call.occupies, Call.holds]
    · grind [Call.holds, maps.usedPorts]
    · exact (congrFun maps.usedPorts _).trans (hs.used j b hb hholds)
  | allocates _ stage input _ free maps call =>
    obtain ⟨hfits, _⟩ := nextSlot_spec free
    have hbusy : ∀ b ∈ s.tasks, b.process = .running → b.present = true := by
      exact hok (by rcases input with rfl | rfl <;> rfl) k hk (stage.imp_left And.left)
    have hheld : ∀ (j : Nat) b, s.tasks[j]? = some b → j ≠ n → b.occupies = true →
        freed s.world k b.port = true := by
      intro j b hb hj hocc
      refine hfreed j b hb ?_ fun hk' => hs.apart j b hb n k hk hj hocc hk'
      grind [Call.occupies, Call.holds]
    subst call
    constructor
    · refine (forall_getElem?_set hk).mpr ⟨fun _ => ?_, fun j b hj hb hholds => ?_⟩
      · simp [maps.usedPorts]
      · have := hheld j b hb hj (by simp [Call.occupies, hholds])
        simp [maps.usedPorts, Function.update_apply, this]
    · exact (forall_getElem?_set hk).mpr ⟨fun _ => hfits, fun j b _ hb => hs.fits j b hb⟩
    · grind [hs.apart.set]
  | givesUp stage _ maps call =>
    subst call
    have := hidle stage
    refine hs.keep hk rfl ?_ ?_ fun j b hb hholds hne => ?_
    · simp [Call.occupies, Call.holds, Call.present, Call.pending, Call.allocating, this]
    · simp [Call.holds, Call.present, Call.pending, Call.allocating, this]
    · exact (congrFun maps.usedPorts _).trans (hfreed j b hb hholds hne)
  | reserves stage maps call =>
    subst call
    refine hs.keep hk rfl ?_ ?_ fun j b hb hholds hne => ?_
    · simp [Call.occupies, Call.holds, stage]
    · exact fun _ => (congrFun maps.usedPorts _).trans (hused (by simp [Call.holds, stage]))
    · exact (congrFun maps.usedPorts _).trans (hs.used j b hb hholds)
  | releases present maps gone allocating port process =>
    refine hs.keep hk port ?_ ?_ fun j b hb hholds hne => ?_
    · simp [Call.occupies, Call.holds, present]
    · simp [Call.holds, gone, allocating]
    · refine (congrFun maps.usedPorts _).trans ?_
      have := hne (by simp [Call.occupies, Call.holds, present])
      simp [Indexes.release, this, hs.used j b hb hholds]

theorem portsHeld_of_reach (hr : Reach (step config) BlocksApart start s) : PortsHeld config s := by
  refine (reach_inv ?_ (fun s a hs => ?_) (fun s n i k w _ hs hok hk hsound h => hs.move hok hk hsound h)
    (fun s m hs => ?_) hr).1
  · constructor <;> simp [start, Pairs]
  · constructor
    · exact forall_getElem?_append.mpr ⟨(fun h => by cases h), hs.used⟩
    · exact forall_getElem?_append.mpr ⟨(fun h => by cases h), hs.fits⟩
    · exact hs.apart.append (fun a b h ha hb => (h hb ha).symm) fun b h => by cases h
  · have hsame := sameMaps_getRunnerIdForInstance (w := s.world) (m := m)
    exact ⟨hsame.usedPorts ▸ hs.used, hs.fits, hs.apart⟩

/-- **Port blocks are apart.**  In every run in which a start takes a block only while
every running process belongs to a runner that is pending or live, the blocks of the
running processes are disjoint, lie in the range of the worker and leave out its own
port. -/
theorem ports_apart (hr : Reach (step config) BlocksApart start s) :
    Pairs (fun a b => a.process = .running → b.process = .running → a.block.Disjoint b.block)
      s.tasks ∧
    ∀ k ∈ s.tasks, k.process = .running → ∀ p ∈ k.block, config.runnerPortStart ≤ p ∧
      p < config.runnerPortStart + portsPerRunner * config.maxRunners ∧ p ≠ config.workerPort := by
  have hs := portsHeld_of_reach hr
  have hocc : ∀ k : Call, k.process = .running → k.occupies = true := by
    intro k hk
    simp [Call.occupies, hk]
  refine ⟨fun j a ha j' b hb hj hrun hrun' p hp hp' => ?_, fun k hk hrun p hp => ?_⟩
  · obtain ⟨slot, -, hport, -⟩ := hs.fits j a ha (hocc a hrun)
    obtain ⟨_, -, hport', -⟩ := hs.fits j' b hb (hocc b hrun')
    have hne := hs.apart j a ha j' b hb hj (hocc a hrun) (hocc b hrun')
    simp only [Call.block, mem_range'_1, hport, hport', Config.base, portsPerRunner] at hp hp' hne
    omega
  · obtain ⟨j, hj⟩ := getElem?_of_mem hk
    obtain ⟨slot, _, hport, hworker⟩ := hs.fits j k hj (hocc k hrun)
    simp only [Call.block, mem_range'_1, hport, Config.base, portsPerRunner] at hp hworker ⊢
    omega

instance (s : System) : (e : Event) → Decidable (BlocksApart s e)
  | .move _ _ => inferInstanceAs (Decidable (_ = true → ∀ k ∈ _, _))
  | .arrive _ | .around _ => isTrue trivial

theorem ports_apart_ready :
    let s := (exec (guarded (step exampleConfig) BlocksApart) start
      (starts 0 "i" ++ ready 0 ++ starts 1 "j")).get (by decide +kernel)
    s.tasks.map (·.block) = [[9000, 9001, 9002, 9003], [9004, 9005, 9006, 9007]] ∧
      Pairs (fun a b => a.process = .running → b.process = .running →
        a.block.Disjoint b.block) s.tasks :=
  ⟨rfl, (ports_apart (reach_get (by decide +kernel))).1⟩

/-- **Two processes on one block.**  Runner 0 is stopped, and while its process still
runs the next start is given its ports. -/
theorem shared_block_after_stop : ∃ s, exec (step exampleConfig) start
        (starts 0 "i" ++ ready 0 ++ [.move 0 .stop] ++ starts 1 "j") = some s ∧
      s.tasks.map (·.process) = [.running, .running] ∧ s.tasks.map (·.port) = [9000, 9000] :=
  ⟨_, rfl, rfl, rfl⟩

end Sardeenz.Runners
