/-
# `Sardeenz.Routing.Frame` — what a mutator leaves as it was

A mutator of the routing map names a model, and most of them an endpoint of it:

    setModelState                            the model's state
    removeModel                              the model's entry
    addEndpoint, removeEndpoint, update…,    one endpoint of the model
    cutoverEndpoint

Everything else should stay.  For the other models and the other endpoints it
does.  The protocol of an entry is another matter: the scripts of
`setModelState` and `addEndpoint` write the protocol they are passed, and the
JavaScript around them passes `openai` when its caller has passed none.

    // … Existing entries keep their persisted protocol when callers omit it …
    protocol ?? Protocol.openai,

**Proved here.**  When a mutator call changes only what it names (`mutator_frame_iff`).
-/
import Sardeenz.Routing.Map

namespace Sardeenz

open Mutation

/-! ## What a mutator names -/

def Mutation.modelName : Mutation → String
  | .setModelState modelName _ _ | .removeModel modelName | .addEndpoint modelName _ _
  | .removeEndpoint modelName _ _ | .updateEndpointHealth modelName _ _ _
  | .updateEndpointWeight modelName _ _ _ | .cutoverEndpoint modelName _ _ => modelName

/-- The endpoints of the model that a mutator names: one of them, or with the
model all. -/
def Mutation.addresses : Mutation → String × Nat → Bool
  | .setModelState _ _ _, _ => false
  | .removeModel _, _ => true
  | .addEndpoint _ endpoint _, address => endpoint.address = address
  | .removeEndpoint _ host port, address | .updateEndpointHealth _ host port _, address
  | .updateEndpointWeight _ host port _, address | .cutoverEndpoint _ host port, address =>
    (host, port) = address

def Mutation.suppliedProtocol : Mutation → Option Protocol
  | .setModelState _ _ protocol | .addEndpoint _ _ protocol => protocol
  | .removeModel _ | .removeEndpoint _ _ _ | .updateEndpointHealth _ _ _ _
  | .updateEndpointWeight _ _ _ _ | .cutoverEndpoint _ _ _ => none

def Mutation.spared (mutation : Mutation) (es : List RunnerEndpoint) : List RunnerEndpoint :=
  es.filter fun e => !mutation.addresses e.address

/-- The mutator has changed only what it names. -/
structure Mutation.Framed (mutation : Mutation) (m m' : RoutingMap) : Prop where
  others : ∀ name ≠ mutation.modelName, m'.lookup name = m.lookup name
  endpoints : mutation.spared (endpointsOf m' mutation.modelName) =
    mutation.spared (endpointsOf m mutation.modelName)
  setModelState : ∀ modelName state protocol, mutation = .setModelState modelName state protocol →
    endpointsOf m' modelName = endpointsOf m modelName
  protocol : ∀ entry entry', m.lookup mutation.modelName = some entry →
    m'.lookup mutation.modelName = some entry' → entry'.protocol ≠ entry.protocol →
      mutation.suppliedProtocol = some entry'.protocol

/-- The call does not omit the protocol of an entry that has another one than
`openai`. -/
def Mutation.KeepsProtocol (m : RoutingMap) : Mutation → Prop
  | .setModelState modelName _ none | .addEndpoint modelName _ none =>
    ∀ entry, m.lookup modelName = some entry → entry.protocol = .openai
  | _ => True

/-! ## One lemma for each part of the map -/

section
variable {m m' : RoutingMap} {mutation : Mutation} {now : Nat} {f : RunnerEndpoint → RunnerEndpoint}

variable {host modelName : String} {port : Nat}

theorem updateEndpoint_eq_some (h : updateEndpoint m modelName host port now f = some m') :
    ∃ entry endpoints, m.lookup modelName = some entry ∧
      m' = m.insert modelName { entry with endpoints, updatedAt := now } := by
  unfold updateEndpoint at h
  split at h
  · cases h
  · rename_i entry hentry
    obtain ⟨endpoints, -, rfl⟩ := Option.map_eq_some_iff.mp h
    exact ⟨entry, endpoints, hentry, rfl⟩

theorem lookup_updateEndpoint_ne {name}
    (h : updateEndpoint m modelName host port now f = some m') (hname : name ≠ modelName) :
    m'.lookup name = m.lookup name := by
  grind [updateEndpoint_eq_some, AList.lookup_insert_ne]

/-- **Other models.** -/
theorem lookup_apply_ne {name} (hname : name ≠ mutation.modelName) :
    (mutation.apply m now).lookup name = m.lookup name := by
  cases mutation with
  | setModelState | addEndpoint => exact AList.lookup_insert_ne hname
  | removeModel => exact AList.lookup_erase_ne hname
  | removeEndpoint modelName =>
    simp only [apply, Sardeenz.removeEndpoint]
    cases m.lookup modelName with
    | none => rfl
    | some => exact AList.lookup_insert_ne hname
  | updateEndpointHealth | cutoverEndpoint =>
    exact of_getD_updateEndpoint (P := fun m' => m'.lookup name = m.lookup name) rfl
      fun m' h => lookup_updateEndpoint_ne h hname
  | updateEndpointWeight =>
    exact of_apply_updateEndpointWeight (P := fun m' => m'.lookup name = m.lookup name) rfl
      fun m' h => lookup_updateEndpoint_ne h hname

theorem filter_updateFirst {address} (hf : ∀ e, (f e).address = e.address)
    {es es'} (h : updateFirst address f es = some es') :
    es'.filter (fun e => !decide (address = e.address)) =
      es.filter fun e => !decide (address = e.address) := by
  induction es generalizing es' with
  | nil => cases h
  | cons e es ih =>
    simp only [updateFirst] at h
    by_cases haddr : e.address = address
    · grind
    · rw [if_neg haddr] at h
      obtain ⟨_, hrest, rfl⟩ := Option.map_eq_some_iff.mp h
      rw [List.filter_cons, List.filter_cons, ih hrest]

/-- **Other endpoints.** -/
theorem spared_endpointsOf_apply (mutation : Mutation) (m : RoutingMap) (now : Nat) :
    mutation.spared (endpointsOf (mutation.apply m now) mutation.modelName) =
      mutation.spared (endpointsOf m mutation.modelName) := by
  have hupdate : ∀ {modelName host : String} {port : Nat} {f : RunnerEndpoint → RunnerEndpoint}
      {m' : RoutingMap}, updateEndpoint m modelName host port now f = some m' →
      (∀ e, (f e).address = e.address) →
        (endpointsOf m' modelName).filter (fun e => !decide ((host, port) = e.address)) =
          (endpointsOf m modelName).filter fun e => !decide ((host, port) = e.address) :=
    fun h hf => filter_updateFirst hf (endpointsOf_updateEndpoint h).1
  unfold spared
  cases mutation with
  | setModelState modelName state protocol =>
    exact congrArg _ (endpointsOf_setModelState m modelName modelName state protocol now)
  | removeModel modelName => simp [addresses]
  | addEndpoint modelName endpoint protocol =>
    refine (congrArg _ (endpointsOf_addEndpoint_self m modelName endpoint protocol now)).trans ?_
    simp [addresses, Mutation.modelName, eq_comm]
  | removeEndpoint modelName host port =>
    refine (congrArg _ (endpointsOf_removeEndpoint_self m modelName host port now)).trans ?_
    simp [addresses, Mutation.modelName, eq_comm]
  | updateEndpointHealth modelName host port healthy | cutoverEndpoint modelName host port =>
    exact of_getD_updateEndpoint (P := fun m' => (endpointsOf m' modelName).filter _ = _) rfl
      fun m' h => hupdate h fun _ => rfl
  | updateEndpointWeight modelName host port =>
    exact of_apply_updateEndpointWeight
      (P := fun m' => (endpointsOf m' modelName).filter _ = _) rfl
      fun m' h => hupdate h fun _ => rfl

theorem protocol_updateEndpoint (h : updateEndpoint m modelName host port now f = some m') :
    (m'.lookup modelName).map (·.protocol) = (m.lookup modelName).map (·.protocol) := by
  obtain ⟨_, _, hentry, rfl⟩ := updateEndpoint_eq_some h
  simp [hentry]

/-- The protocol that a mutator leaves: two of them write the one they are
passed, by default `openai`. -/
def Mutation.protocolAfter (m : RoutingMap) : Mutation → Option Protocol
  | .setModelState _ _ protocol | .addEndpoint _ _ protocol => some (protocol.getD .openai)
  | .removeModel _ => none
  | .removeEndpoint modelName _ _ | .updateEndpointHealth modelName _ _ _
  | .updateEndpointWeight modelName _ _ _ | .cutoverEndpoint modelName _ _ =>
    (m.lookup modelName).map (·.protocol)

/-- **The protocol.** -/
theorem protocol_apply (mutation : Mutation) (m : RoutingMap) (now : Nat) :
    ((mutation.apply m now).lookup mutation.modelName).map (·.protocol) =
      mutation.protocolAfter m := by
  cases mutation with
  | setModelState modelName _ protocol =>
    simp [apply, Sardeenz.setModelState, Mutation.modelName, protocolAfter]
  | addEndpoint modelName _ protocol =>
    simp [apply, Sardeenz.addEndpoint, Mutation.modelName, protocolAfter]
  | removeModel modelName =>
    simp [apply, Sardeenz.removeModel, Mutation.modelName, protocolAfter]
  | removeEndpoint modelName host port =>
    simp only [apply, Sardeenz.removeEndpoint, Mutation.modelName, protocolAfter]
    cases hentry : m.lookup modelName with
    | none => simp [hentry]
    | some => simp
  | updateEndpointHealth modelName host port healthy | cutoverEndpoint modelName host port =>
    exact of_getD_updateEndpoint
      (P := fun m' => (m'.lookup modelName).map (·.protocol) = _) rfl
      fun m' h => protocol_updateEndpoint h
  | updateEndpointWeight modelName host port =>
    exact of_apply_updateEndpointWeight
      (P := fun m' => (m'.lookup modelName).map (·.protocol) = _) rfl
      fun m' h => protocol_updateEndpoint h

/-! ## The frame -/

/-- **A mutator changes only what it names, unless it is left to choose the
protocol of an entry that has one.**  For every map and every mutator call: the
entries of other models stay, the endpoints it does not name stay, a change of
the state leaves all endpoints, and the protocol of the entry changes only to
one that the caller has supplied, if and only if the call is not a
`setModelState` or `addEndpoint` without a protocol on an entry whose protocol is
not `openai`. -/
theorem mutator_frame_iff (mutation : Mutation) (m : RoutingMap) (now : Nat) :
    mutation.Framed m (mutation.apply m now) ↔ mutation.KeepsProtocol m := by
  constructor
  · intro hframed
    -- An omitted protocol is written as `openai`; nothing was supplied, so it was that.
    have hopenai : mutation.suppliedProtocol = none →
        mutation.protocolAfter m = some .openai →
        ∀ entry, m.lookup mutation.modelName = some entry → entry.protocol = .openai := by
      intro hnone hafter entry hentry
      obtain ⟨entry', hentry', hprotocol⟩ :=
        Option.map_eq_some_iff.mp ((protocol_apply mutation m now).trans hafter)
      by_contra hne
      have hchanged : entry'.protocol ≠ entry.protocol := fun h => hne (h.symm.trans hprotocol)
      have hsupplied := hframed.protocol entry entry' hentry hentry' hchanged
      rw [hnone] at hsupplied
      cases hsupplied
    cases mutation with
    | setModelState modelName state protocol | addEndpoint modelName endpoint protocol =>
      cases protocol with
      | none => exact hopenai rfl rfl
      | some protocol => exact trivial
    | _ => exact trivial
  · intro hkeeps
    refine ⟨fun _ hname => lookup_apply_ne hname, spared_endpointsOf_apply mutation m now,
      ?_, ?_⟩
    · rintro modelName state protocol rfl
      exact endpointsOf_setModelState m modelName modelName state protocol now
    · intro entry entry' hentry hentry' hne
      have hafter : mutation.protocolAfter m = some entry'.protocol := by
        rw [← protocol_apply mutation m now, hentry']
        rfl
      -- A mutator that writes no protocol leaves the old one.
      have hsame : mutation.protocolAfter m = (m.lookup mutation.modelName).map (·.protocol) →
          mutation.suppliedProtocol = some entry'.protocol := by
        intro h
        rw [h, hentry] at hafter
        exact absurd (Option.some.inj hafter).symm hne
      cases mutation with
      | setModelState modelName state protocol | addEndpoint modelName endpoint protocol =>
        cases protocol with
        | none => exact hsame (by rw [hentry, Option.map_some, hkeeps entry hentry]; rfl)
        | some protocol => exact hafter
      | removeModel modelName => cases hafter
      | removeEndpoint | updateEndpointHealth | updateEndpointWeight | cutoverEndpoint =>
        exact hsame rfl

end

def oipMap : RoutingMap :=
  AList.insert "m" ⟨"m", .active, .oip, [⟨"10.0.0.9", 8009, 1, true, none⟩], 0, none⟩ ∅

/-- **A state change without a protocol.**  The entry has the protocol `oip`; the
caller sets its state and supplies no protocol, and the entry is left with
`openai`. -/
theorem setModelState_resets_protocol : ¬ (Mutation.setModelState "m" .sleeping none).Framed oipMap
        ((Mutation.setModelState "m" .sleeping none).apply oipMap 1) ∧
      ((Mutation.setModelState "m" .sleeping none).apply oipMap 1).lookup "m" =
        some ⟨"m", .sleeping, .openai, [⟨"10.0.0.9", 8009, 1, true, none⟩], 1, none⟩ := by
  refine ⟨fun h => ?_, by decide⟩
  have hsupplied := h.protocol
    ⟨"m", .active, .oip, [⟨"10.0.0.9", 8009, 1, true, none⟩], 0, none⟩
    ⟨"m", .sleeping, .openai, [⟨"10.0.0.9", 8009, 1, true, none⟩], 1, none⟩
    (by decide) (by decide) (by decide)
  cases hsupplied

end Sardeenz
