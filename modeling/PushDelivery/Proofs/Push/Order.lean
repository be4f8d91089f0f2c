import PushDelivery.Proofs.Dispatch.Closing
import PushDelivery.Proofs.Dispatch.InOrder
import PushDelivery.Proofs.Push.Sendings

/-!
# The order of a report

The dispatches of a push run side by side, and their streams are read to the end and joined in the
order of the providers' ids. If each transport keeps the order of what it reads, this makes the
report independent of how the dispatches take turns: its results are those of the subscriptions that
were sent to, stably sorted by the id of the provider, and each of its two parts is in this order.

The relation between an endpoint and its raw result is left to the transport, and the one between a
raw result and its report to the ledger, as it may depend on all that the store was asked before.
-/

namespace PushDelivery

open Dispatch

/-- Everything that is registered is a fan-out with one permit. -/
def Registry.SendsSingly (registry : Registry Transport) : Prop :=
  ∀ providerType transport, registry.get? providerType = some transport →
    ∃ send limit, transport = .ofLimit send limit ∧ limit.toNat ≤ 1

def rawThrough (route : String → Transport) (p : Provider) (n : Notification) (e : Endpoint) :
    DeliveryResult :=
  Job.outcome
    { provider := p, notification := n, endpoints := [e], transport := route p.providerType } e

theorem Registry.SendsSingly.inOrder {registry : Registry Transport} (h : registry.SendsSingly)
    (p : Provider) : (registry.route p.providerType).InOrder p
      fun n e r => r = rawThrough registry.route p n e := by
  unfold rawThrough route
  cases ht : registry.get? p.providerType with
  | none => exact .rejecting fun _ _ => rfl
  | some transport =>
    obtain ⟨send, limit, rfl, hlimit⟩ := h p.providerType transport ht
    exact .ofCalls hlimit fun _ _ _ => rfl

/-- The result comes out of the sending: its endpoint is given a raw result, and this is answered by
the result. -/
def Sending.Yields (Gives : Provider → Notification → Endpoint → DeliveryResult → Prop)
    (R : DeliveryResult → DeliveryResult → Prop) (x : Sending) (r : DeliveryResult) : Prop :=
  ∃ raw, Gives x.provider x.notification x.subscription.toEndpoint raw ∧ R raw r

/-- A report lists entries, each of them a sending with its result: the sendings are stably sorted
by the ids of their providers, and deliveries and failures are the results in this order. -/
structure PushReport.Lists (Yields : Sending → DeliveryResult → Prop) (sendings : List Sending)
    (entries : List (Sending × DeliveryResult)) (report : PushReport) : Prop where
  sorted : entries.map Prod.fst = sortByKey (·.provider.id.toInt) sendings
  ids : entries.Pairwise fun a b => a.1.provider.id ≤ b.1.provider.id
  places : ∀ id : Int64, (entries.map Prod.fst).filter (·.provider.id = id) =
    sendings.filter (·.provider.id = id)
  yields : ∀ a ∈ entries, Yields a.1 a.2
  delivered : report.delivered = (entries.filter (!·.2.isError)).map Prod.snd
  failures : report.failures = (entries.filter (·.2.isError)).map Prod.snd
  complete : (report.delivered ++ report.failures).Perm (entries.map Prod.snd)

/-- Sendings and their results, one for each and in one order, are listed by the report of these
results. -/
theorem PushReport.lists_ofResults {Yields : Sending → DeliveryResult → Prop}
    {sendings : List Sending} {results : List DeliveryResult}
    (h : List.Forall₂ Yields (sortByKey (·.provider.id.toInt) sendings) results)
    (notificationId : String) (skipped : List SkippedSubscription) :
    (ofResults notificationId skipped results).Lists Yields sendings
      ((sortByKey (·.provider.id.toInt) sendings).zip results) := by
  obtain ⟨hlength, hyields⟩ := List.forall₂_iff_zip.mp h
  have hfst := List.map_fst_zip (Nat.le_of_eq hlength)
  have hsnd := List.map_snd_zip (Nat.le_of_eq hlength.symm)
  have hpart : ∀ p : DeliveryResult → Bool, results.filter p =
      (((sortByKey (·.provider.id.toInt) sendings).zip results).filter (p ·.2)).map Prod.snd := by
    intro p
    conv_lhs => rw [← hsnd, List.filter_map]
    rfl
  constructor
  case sorted => exact hfst
  case ids =>
    have hsorted := pairwise_sortByKey (·.provider.id.toInt) sendings
    rw [← hfst, List.pairwise_map] at hsorted
    exact hsorted.imp Int64.le_iff_toInt_le.mpr
  case places =>
    intro id
    rw [hfst]
    simpa only [Int64.toInt_inj] using filter_sortByKey (·.provider.id.toInt) sendings id.toInt
  case yields => exact fun a ha => hyields ha
  case delivered => exact hpart (!·.isError)
  case failures => exact hpart (·.isError)
  case complete =>
    rw [hsnd]
    simpa [ofResults] using
      List.perm_append_comm.trans (List.filter_append_perm (·.isError) results)

namespace Push

theorem forall₂_flatMap {α β γ : Type} {S : β → γ → Prop} {as : List α} {f : α → List β}
    {g : α → List γ} (h : ∀ a ∈ as, List.Forall₂ S (f a) (g a)) :
    List.Forall₂ S (as.flatMap f) (as.flatMap g) := by
  have hsame : List.Forall₂ (fun a b => a = b ∧ a ∈ as) as as :=
    List.forall₂_same.mpr fun a ha => ⟨rfl, ha⟩
  refine List.rel_flatMap hsame ?_
  rintro a _ ⟨rfl, ha⟩
  exact h a ha

variable {σ : Type} [SubscriptionStore σ] {R : DeliveryResult → DeliveryResult → Prop}
  {Gives : Provider → Notification → Endpoint → DeliveryResult → Prop} {notificationId : String}
  {service : Service} {subscriptions : List Subscription} {request : PushRequest}
  {route : String → Transport} {l : Ledger σ} {c : Completed σ}

namespace Completes

theorem ordered (hroute : ∀ p, (route p.providerType).InOrder p (Gives p)) (hl : l.Answers R)
    (h : Completes notificationId service subscriptions request route l c) :
    ∀ d ∈ c.dispatches, d.2.cancelled = false ∧
      Ordered (Gives d.1.provider d.1.notification) R d.1 d.2 := by
  obtain ⟨plan, -, -, hreaches⟩ := h.reachable.follows
  have hstart : ∀ j ∈ plan.jobs route,
      (∀ number e, j.cancels number e = false) ∧ j.start.cancelled = false ∧
        Ordered (Gives j.provider j.notification) R j j.start := by
    intro j hj
    obtain ⟨htransport, hcancels⟩ := exists_of_mem_jobs hj
    exact ⟨hcancels, rfl, .start R (htransport ▸ hroute j.provider)⟩
  have hall : c.ledger.Answers R ∧ ∀ d ∈ c.dispatches, (∀ number e, d.1.cancels number e = false) ∧
      d.2.cancelled = false ∧ Ordered (Gives d.1.provider d.1.notification) R d.1 d.2 := by
    refine hreaches.keeps (Q := fun l => l.Answers R)
      (P := fun j s => (∀ number e, j.cancels number e = false) ∧ s.cancelled = false ∧
        Ordered (Gives j.provider j.notification) R j s) ?_ ?_
    · intro j label s l s' l' hordinary hm hl ⟨hcancels, hc, hordered⟩
      have hc' := (hm.cancelled_eq hcancels hordinary).trans hc
      exact ⟨⟨hcancels, hc', hordered.move hl hm hc'⟩, hm.answers hl⟩
    · simpa only [Running.start, List.forall_mem_map] using And.intro hl hstart
  exact fun d hd => (hall.2 d hd).2

/-- The dispatches, one after another, have the endpoints of the sendings in the order of their
providers' ids. -/
theorem endpoints_eq (h : Completes notificationId service subscriptions request route l c) :
    (c.dispatches.flatMap fun d => d.1.endpoints.map fun e =>
      (d.1.provider, d.1.notification, e)) =
      (sortByKey (·.provider.id.toInt) (PushPlan.sendings service request subscriptions)).map
        Sending.call := by
  obtain ⟨plan, hmake, -, hjobs⟩ := h.reachable.exists_plan
  rw [← PushPlan.flatMap_jobs_eq hmake route, ← hjobs, List.flatMap_map]

/-- What is read from the streams, one after another, comes from the sendings in the order of their
providers' ids. -/
theorem taken_yielded (hroute : ∀ p, (route p.providerType).InOrder p (Gives p))
    (hl : l.Answers R) (h : Completes notificationId service subscriptions request route l c) :
    List.Forall₂ (Sending.Yields Gives R)
      (sortByKey (·.provider.id.toInt) (PushPlan.sendings service request subscriptions))
      (c.dispatches.flatMap (·.2.history.taken)) := by
  have hdispatches : List.Forall₂
      (fun (x : Provider × Notification × Endpoint) r => ∃ raw, Gives x.1 x.2.1 x.2.2 raw ∧ R raw r)
      (c.dispatches.flatMap fun d => d.1.endpoints.map fun e =>
        (d.1.provider, d.1.notification, e))
      (c.dispatches.flatMap (·.2.history.taken)) := by
    refine forall₂_flatMap fun d hd => ?_
    obtain ⟨hc, hordered⟩ := h.ordered hroute hl d hd
    rw [List.forall₂_map_left_iff]
    exact hordered.settled hc (h.ended d hd)
  rw [h.endpoints_eq, List.forall₂_map_left_iff] at hdispatches
  exact hdispatches

end Completes

/-- Over transports that keep the order, whatever turns the dispatches and their tasks take, a
completed push dispatches the sendings of its subscriptions and lists their results: sorted by the
ids of the providers as signed words, and those with one id in the order of the subscriptions. Each
of the subscriptions that are sent to is enabled and resolves to a provider of the id that it is
listed under. Fan-outs with a limit of at most one keep the order, and so does rejection. -/
theorem report_in_order (service : Service) (subscriptions : List Subscription)
    (request : PushRequest) (l : Ledger σ) :
    (∀ registry : Registry Transport, registry.SendsSingly → ∀ p,
      (registry.route p.providerType).InOrder p fun n e r => r = rawThrough registry.route p n e) ∧
    ((PushPlan.sendings service request subscriptions).map Sending.subscription).Sublist
      subscriptions ∧
    (∀ x ∈ PushPlan.sendings service request subscriptions, x.subscription.enabled = true ∧
      ∃ p, x.subscription.toEndpoint.resolve service.providers = .ok p ∧ p.id = x.provider.id) ∧
    ∀ (route : String → Transport)
      (Gives : Provider → Notification → Endpoint → DeliveryResult → Prop)
      (R : DeliveryResult → DeliveryResult → Prop) (notificationId : String) (c : Completed σ),
      (∀ p, (route p.providerType).InOrder p (Gives p)) → l.Answers R →
      Completes notificationId service subscriptions request route l c →
      ∃ entries, c.report.Lists (Sending.Yields Gives R)
          (PushPlan.sendings service request subscriptions) entries ∧
        (c.dispatches.flatMap fun d => d.1.endpoints.map fun e =>
          (d.1.provider, d.1.notification, e)) = entries.map (·.1.call) := by
  refine ⟨fun _ hregistry => hregistry.inOrder, PushPlan.sendings_sublist subscriptions,
    fun _ => PushPlan.resolve_of_mem_sendings, ?_⟩
  intro route Gives R notificationId c hroute hl h
  have hreport : ∃ entries, c.report.Lists (Sending.Yields Gives R)
      (PushPlan.sendings service request subscriptions) entries := by
    rw [h.report]
    exact ⟨_, PushReport.lists_ofResults (h.taken_yielded hroute hl) _ _⟩
  obtain ⟨entries, hlists⟩ := hreport
  refine ⟨entries, hlists, ?_⟩
  rw [h.endpoints_eq, ← hlists.sorted, List.map_map]
  rfl

/-- The least id is negative, one id has two subscriptions that are not next to each other, and the
only failure is of a type that nothing is registered for. -/
theorem report_in_order_of_four :
    let providers : List Provider := [⟨5, 1, "a", "gcm", ∅⟩, ⟨-3, 1, "b", "gcm", ∅⟩,
      ⟨0, 1, "w", "wns", ∅⟩]
    let subscriptions : List Subscription := [⟨1, "u", 1, "gcm", "k", some "a", true⟩,
      ⟨2, "u", 1, "wns", "l", none, true⟩, ⟨3, "u", 1, "gcm", "m", some "b", true⟩,
      ⟨4, "u", 1, "gcm", "n", some "a", true⟩]
    let request : PushRequest := ⟨"shop", "u", (Std.ExtTreeMap.empty.insert "gcm"
      (.object [("t", .string "v")])).insert "wns" (.object [("t", .string "v")])⟩
    let registry : Registry Transport := Registry.withTransport {} "gcm" (.ofLimit .idle 0)
    let l : Ledger MemoryStore := ⟨{}, [], none⟩
    ∃ c, run "id" ⟨1, "shop", providers⟩ subscriptions request registry.route l = .ok c ∧
      c.report.delivered.map (·.destination.deviceKey) = ["m", "k", "n"] ∧
      c.report.failures.map (·.destination.deviceKey) = ["l"] ∧
      ∃ entries, c.report.Lists
          (Sending.Yields (fun p n e r => r = rawThrough registry.route p n e)
            fun r r' => r' = (l.reconcile r).1)
          (PushPlan.sendings ⟨1, "shop", providers⟩ request subscriptions) entries ∧
        entries.map (·.1.subscription.id) = [3, 2, 1, 4] := by
  intro providers subscriptions request registry l
  have hget : ∀ providerType transport, registry.get? providerType = some transport →
      transport = .ofLimit .idle 0 :=
    fun _ _ ht => Registry.eq_of_get?_withTransport_empty ht
  have hsingly : registry.SendsSingly := fun _ _ ht => ⟨.idle, 0, hget _ _ ht, by decide⟩
  have hfans : registry.FansOut := fun _ _ ht => ⟨fun _ => .idle, 0, hget _ _ ht, by decide⟩
  have hrun : (run "id" ⟨1, "shop", providers⟩ subscriptions request registry.route l).toOption.map
      (fun c => (c.report.delivered.map (·.destination.deviceKey),
        c.report.failures.map (·.destination.deviceKey))) = some (["m", "k", "n"], ["l"]) := by
    decide +kernel
  obtain ⟨c, hc, hkeys⟩ := exists_of_map_toOption hrun
  obtain ⟨hroute, -, -, hreport⟩ :=
    report_in_order ⟨1, "shop", providers⟩ subscriptions request l
  obtain ⟨entries, hlists, -⟩ := hreport registry.route _ _ "id" c (hroute registry hsingly)
    (l.answers_of_steady (MemoryStore.steady _)) (completes_of_run hfans.routed hc)
  refine ⟨c, hc, (Prod.mk.inj hkeys).1, (Prod.mk.inj hkeys).2, entries, hlists, ?_⟩
  have hids : ([-3, 0, 5] : List Int).Pairwise (· < ·) := by decide
  have hsorted := hlists.sorted
  rw [← flatMap_filter_eq_sortByKey hids (by decide +kernel)] at hsorted
  calc entries.map (·.1.subscription.id)
      = (entries.map Prod.fst).map (·.subscription.id) := by rw [List.map_map]; rfl
    _ = [3, 2, 1, 4] := by rw [hsorted]; decide +kernel

end Push

end PushDelivery
