import Mathlib.Data.List.Induction
import PushDelivery.Proofs.Dispatch.Closing
import PushDelivery.Proofs.Dispatch.Rejection
import PushDelivery.Push

/-!
# Routing by a registry

What a registry leads to is decided by the registrations that made it: for each type the last one,
and for a type that was never registered the rejection of every endpoint. A job that goes through a
registry is therefore either the job of one registered transport or one that fails everything that
it is fed.
-/

namespace PushDelivery

namespace Registry

variable {τ : Type u} {registrations : List (String × τ)} {providerType : String} {transport : τ}

def ofRegistrations (registrations : List (String × τ)) : Registry τ :=
  registrations.foldl (fun r x => r.withTransport x.1 x.2) {}

/-- A type was registered, this being the last time. -/
def RegisteredLast (registrations : List (String × τ)) (providerType : String) (transport : τ) :
    Prop :=
  ∃ before after, registrations = before ++ (providerType, transport) :: after ∧
    providerType ∉ after.map Prod.fst

theorem ofRegistrations_concat (registrations : List (String × τ)) (providerType : String)
    (transport : τ) : ofRegistrations (registrations ++ [(providerType, transport)]) =
      ((ofRegistrations registrations).register providerType transport).2 :=
  List.foldl_append

theorem get?_ofRegistrations (registrations : List (String × τ)) (providerType : String) :
    (ofRegistrations registrations).get? providerType =
      registrations.reverse.lookup providerType := by
  induction registrations using List.reverseRecOn with
  | nil => exact get?_empty providerType
  | append_singleton registrations x ih =>
    obtain ⟨t, transport⟩ := x
    rw [ofRegistrations_concat, ← withTransport, get?_withTransport, ih, List.reverse_append,
      List.reverse_singleton, List.singleton_append, List.lookup_cons]
    by_cases ht : t = providerType
    · simp [ht]
    · rw [if_neg ht, beq_eq_false_iff_ne.mpr (Ne.symm ht)]

theorem notMem_map_fst_iff :
    providerType ∉ registrations.map Prod.fst ↔
      ∀ x ∈ registrations, (providerType != x.1) = true := by
  simp only [List.mem_map, not_exists, not_and, bne_iff_ne]
  exact forall₂_congr fun _ _ => ne_comm

theorem get?_ofRegistrations_eq_some_iff :
    (ofRegistrations registrations).get? providerType = some transport ↔
      RegisteredLast registrations providerType transport := by
  rw [get?_ofRegistrations, List.lookup_eq_some_iff]
  constructor
  · rintro ⟨after, before, hsplit, hnot⟩
    refine ⟨before.reverse, after.reverse, ?_, notMem_map_fst_iff.mpr ?_⟩
    · rw [← List.reverse_reverse registrations, hsplit, List.reverse_append, List.reverse_cons,
        List.append_assoc, List.singleton_append]
    · exact fun x hx => hnot x (List.mem_reverse.mp hx)
  · rintro ⟨before, after, rfl, hnot⟩
    refine ⟨after.reverse, before.reverse, ?_, fun x hx => ?_⟩
    · rw [List.reverse_append, List.reverse_cons, List.append_assoc, List.singleton_append]
    · exact notMem_map_fst_iff.mp hnot x (List.mem_reverse.mp hx)

theorem get?_ofRegistrations_eq_none_iff :
    (ofRegistrations registrations).get? providerType = none ↔
      providerType ∉ registrations.map Prod.fst := by
  rw [get?_ofRegistrations, List.lookup_eq_none_iff, notMem_map_fst_iff]
  simp only [List.mem_reverse]

theorem mem_providerTypes {r : Registry τ} :
    providerType ∈ r.providerTypes ↔ r.get? providerType ≠ none := by
  rw [providerTypes, Std.ExtTreeMap.mem_keys, get?, Std.ExtTreeMap.mem_iff_isSome_getElem?]
  exact Option.isSome_iff_ne_none

theorem nodup_providerTypes (r : Registry τ) : r.providerTypes.Nodup := Std.ExtTreeMap.nodup_keys

end Registry

open Dispatch

def Job.routed (j : Job) (registry : Registry Transport) : Job :=
  { j with transport := registry.route j.provider.providerType }

namespace Registry

variable {registrations : List (String × Transport)} {j : Job}

/-- The transports of a push are those that its registry leads to. -/
theorem routed_of_mem_jobs {plan : PushPlan} {registry : Registry Transport}
    (hj : j ∈ plan.jobs registry.route) : j.routed registry = j := by
  obtain ⟨g, -, rfl⟩ := List.mem_map.mp hj
  rfl

theorem routed_of_registeredLast {transport : Transport}
    (h : RegisteredLast registrations j.provider.providerType transport) :
    j.routed (ofRegistrations registrations) = { j with transport } := by
  rw [Job.routed, route, get?_ofRegistrations_eq_some_iff.mpr h, Option.getD_some]

theorem transport_routed_of_notMem
    (h : j.provider.providerType ∉ registrations.map Prod.fst) :
    (j.routed (ofRegistrations registrations)).transport = .rejecting := by
  rw [Job.routed, route, get?_ofRegistrations_eq_none_iff.mpr h, Option.getD_none]

end Registry

namespace Dispatch

variable {σ : Type} [SubscriptionStore σ] {j : Job}

/-- The results of a job whose provider's type nobody serves. -/
def failures (j : Job) : List DeliveryResult :=
  j.endpoints.map fun e =>
    { provider := j.provider
      destination := e
      messageId := none
      error := some (.unsupportedProviderType j.provider.providerType) }

/-- What is true of a dispatch for whose provider there is no transport. -/
structure Unserved (j : Job) (s : State) (l : Ledger σ) : Prop where
  uncalled : s.history.called = []
  emitted : s.history.emitted <+: failures j
  ending : s.transport = .finished →
    (s.cancelled = true ∧ s.history.emitted.length = s.history.accepted.length) ∨
    (s.raw.receiving = false ∧ s.history.accepted.length = s.history.emitted.length + 1) ∨
    (s.feeder = .finished ∧ s.history.emitted = failures j)
  going : s.transport ≠ .finished →
    (∃ s', step j .transport s l = some (s', l)) ∨ s.raw.queue ≠ [] ∨
      s.cancelled = false ∧ s.feed.queue = [] ∧ ∃ s', step j .feeder s l = some (s', l)

theorem Refuses.unserved {s : State} (h : Refuses j s) (hj : j.transport = .rejecting)
    (l : Ledger σ) : Unserved j s l where
  uncalled := h.called
  emitted := h.emitted_prefix
  ending hs := (h.left (by rw [hs]; rfl)).imp_left fun hcancelled =>
    ⟨hcancelled.1, by rw [hcancelled.2, List.length_map]⟩
  going hs := h.exists_incident hj hs l

theorem Run.incidents {c c' : State × Ledger σ} {labels : List Label} (hrun : Run j c labels c') :
    Relation.ReflTransGen (Incident j) c c' := by
  induction hrun with
  | nil c => exact .refl
  | cons hs _ ih => exact .head (.move hs) ih

end Dispatch

namespace Registry

variable {σ : Type} [SubscriptionStore σ]

/-- Routing is decided by the registrations, whatever their number and order. A job of a served type
is the job of the transport that was registered last for it. A job of any other type calls no sender
and fails each endpoint that it reads, in order, up to the end of the feed, a cancellation or the
first result that finds no reader; it comes to an end. A registration replaces what it finds for its
own type, and the types that are listed are those that were registered, each once. -/
theorem routing_exact (registrations : List (String × Transport)) :
    let registry := ofRegistrations registrations
    (∀ (plan : PushPlan), ∀ j ∈ plan.jobs registry.route, j.routed registry = j) ∧
    (∀ (j : Job) (transport : Transport),
      RegisteredLast registrations j.provider.providerType transport →
        j.routed registry = { j with transport }) ∧
    (∀ j : Job, j.provider.providerType ∉ registrations.map Prod.fst →
      let j := j.routed registry
      (Offered j j.start ∧
        ∀ reading cancelled, Offered j (j.transportStartAlone reading cancelled)) ∧
      (∀ c c' : State × Ledger σ, Offered j c.1 →
        Relation.ReflTransGen (Incident j) c c' → Unserved j c'.1 c'.2) ∧
      (∀ c c' : State × Ledger σ, c.1.cancelled = true →
        Relation.ReflTransGen (Incident j) c c' →
          c'.1.history.accepted = c.1.history.accepted) ∧
      ∀ f : ℕ → State × Ledger σ, ¬ ∀ n, Incident j (f n) (f (n + 1))) ∧
    (∀ (providerType : String) (transport : Transport),
      let replaced := (registry.register providerType transport).1
      let registry' := (registry.register providerType transport).2
      (∀ old, replaced = some old ↔ RegisteredLast registrations providerType old) ∧
      (replaced = none ↔ providerType ∉ registrations.map Prod.fst) ∧
      registry' = ofRegistrations (registrations ++ [(providerType, transport)]) ∧
      registry'.get? providerType = some transport ∧
      ∀ other, other ≠ providerType → registry'.get? other = registry.get? other) ∧
    registry.providerTypes.Nodup ∧
    ∀ providerType, providerType ∈ registry.providerTypes ↔
      providerType ∈ registrations.map Prod.fst := by
  intro registry
  refine ⟨fun _ _ => routed_of_mem_jobs, fun _ _ => routed_of_registeredLast, fun j hj => ?_,
    fun providerType transport => ?_, nodup_providerTypes registry, fun providerType => ?_⟩
  · have hrejecting := transport_routed_of_notMem hj
    refine ⟨⟨.start hrejecting, .startAlone hrejecting⟩, fun c c' hc hi => ?_,
      fun _ _ => accepted_of_cancelled hrejecting,
      not_forall_incident (routed_of_rejecting hrejecting)⟩
    exact ((hc.refuses hrejecting).of_incidents hrejecting hi).unserved hrejecting c'.2
  · refine ⟨fun _ => get?_ofRegistrations_eq_some_iff, get?_ofRegistrations_eq_none_iff,
      (ofRegistrations_concat ..).symm, ?_, fun other hother => ?_⟩
    · exact (get?_withTransport ..).trans (if_pos rfl)
    · exact (get?_withTransport ..).trans (if_neg hother.symm)
  · rw [mem_providerTypes, Ne, get?_ofRegistrations_eq_none_iff, not_not]

/-- With three registrations of two types, the second "gcm" transport serves its type, and both
endpoints of a "web" provider fail. -/
theorem routing_exact_of_replacement :
    let first := Transport.ofLimit .idle 1
    let second := Transport.ofLimit .idle 2
    let registrations := [("gcm", first), ("apns", first), ("gcm", second)]
    let registry := ofRegistrations registrations
    let j : Job := ⟨⟨1, 1, "n", "gcm", ∅⟩, {}, [], .rejecting, fun _ _ => false, ⟨0⟩⟩
    let p : Provider := ⟨2, 1, "w", "web", ∅⟩
    let a : Endpoint := ⟨2, "web", "a", none, ∅⟩
    let b : Endpoint := ⟨2, "web", "b", none, ∅⟩
    let k : Job := ⟨p, {}, [a, b], first, fun _ _ => false, ⟨0⟩⟩
    let l : Ledger MemoryStore := ⟨{}, [], none⟩
    j.routed registry = { j with transport := second } ∧
    (registry.register "gcm" first).1 = some second ∧
    (registry.register "web" first).1 = none ∧
    ∃ labels s l', Run (k.routed registry)
        ((k.routed registry).transportStartAlone true false, l) labels (s, l') ∧
      s.transport = .finished ∧ s.history.called = [] ∧
      s.history.emitted = [⟨p, a, none, some (.unsupportedProviderType "web")⟩,
        ⟨p, b, none, some (.unsupportedProviderType "web")⟩] := by
  intro first second registrations registry j p a b k l
  obtain ⟨-, hserved, hunserved, hregister, -⟩ := @routing_exact MemoryStore _ registrations
  have hweb : "web" ∉ registrations.map Prod.fst := by decide
  have hlast : RegisteredLast registrations "gcm" second :=
    ⟨[("gcm", first), ("apns", first)], [], rfl, List.not_mem_nil⟩
  have hk : k.routed registry = ⟨p, {}, [a, b], .rejecting, fun _ _ => false, ⟨0⟩⟩ :=
    congrArg (fun transport => { k with transport }) (transport_routed_of_notMem (j := k) hweb)
  refine ⟨hserved j second hlast, ((hregister "gcm" first).1 second).mpr hlast,
    (hregister "web" first).2.1.mpr hweb, ?_⟩
  obtain ⟨⟨-, hoffered⟩, hincidents, -⟩ := hunserved k hweb
  specialize hoffered true false
  rw [hk] at hoffered hincidents ⊢
  let alone := Job.transportStartAlone ⟨p, {}, [a, b], .rejecting, fun _ _ => false, ⟨0⟩⟩ true false
  have hfold : ((List.replicate 6 Label.transport).foldlM
      (fun c label => step ⟨p, {}, [a, b], .rejecting, fun _ _ => false, ⟨0⟩⟩ label c.1 c.2)
      (alone, l)).map (fun c => c.1.transport = .finished && !c.1.cancelled &&
        c.1.raw.receiving) = some true := by
    decide +kernel
  obtain ⟨⟨s, l'⟩, hrun, hs⟩ := exists_run_of_foldlM hfold
  simp only [Bool.and_eq_true, decide_eq_true_eq, Bool.not_eq_true'] at hs
  obtain ⟨⟨hfinished, hcancelled⟩, hreceiving⟩ := hs
  have h := hincidents (alone, l) (s, l') hoffered hrun.incidents
  refine ⟨_, s, l', hrun, hfinished, h.uncalled, ?_⟩
  obtain ⟨hc, -⟩ | ⟨hr, -⟩ | ⟨-, hall⟩ := h.ending hfinished
  · rw [hcancelled] at hc
    cases hc
  · rw [hreceiving] at hr
    cases hr
  · exact hall

end Registry

end PushDelivery
