import PushDelivery.Proofs.Dispatch.Closing
import PushDelivery.Proofs.Push.Schedules

/-!
# Subscriptions do not depend on one another

If an id determines a provider, what a push returns is, up to order, what its subscriptions give one
by one: those that are skipped by themselves, and for each of the others the result that its
endpoint has by itself. The groups, the shared store and the moves of the dispatches change nothing
but the order. So the order of the subscriptions does not matter, and two lists that are pushed
together give what they give apart.

The store is one whose replies no update changes. What it holds at the end is left out: two
subscriptions may write the same entry, and then the last one stands.
-/

namespace PushDelivery

open Dispatch

section Alone

variable {σ : Type} [SubscriptionStore σ] (route : String → Transport) (l : Ledger σ)

/-- The result that comes out for an endpoint that is sent to through a provider. -/
def resultThrough (p : Provider) (n : Notification) (e : Endpoint) : DeliveryResult :=
  (l.reconcile (Job.outcome
    { provider := p, notification := n, endpoints := [e], transport := route p.providerType } e)).1

/-- The result that comes out for an endpoint, if it is sent to. -/
def Classification.result? (e : Endpoint) : Classification → Option DeliveryResult
  | .send p n => some (resultThrough route l p n e)
  | _ => none

/-- The results of the subscriptions that are sent to by themselves. -/
def resultsAlone (service : Service) (request : PushRequest) (subscriptions : List Subscription) :
    List DeliveryResult :=
  subscriptions.filterMap fun s => (s.classify service request).result? route l s.toEndpoint

/-- Only the replies of the store matter. -/
theorem resultsAlone_congr {l' : Ledger σ} (h : l.store = l'.store) (service : Service)
    (request : PushRequest) (subscriptions : List Subscription) :
    resultsAlone route l service request subscriptions =
      resultsAlone route l' service request subscriptions := by
  have hresult : ∀ p n e, resultThrough route l p n e = resultThrough route l' p n e := by
    intro p n e
    apply Ledger.reconcile_congr
    intro id key
    rw [h]
  unfold resultsAlone
  congr 1
  funext s
  cases s.classify service request with
  | send p n => exact congrArg some (hresult p n _)
  | _ => rfl

end Alone

namespace PushPlan

variable {σ : Type} [SubscriptionStore σ] {service : Service} {request : PushRequest}
  {plan plan' : PushPlan} {s : Subscription} {done subscriptions : List Subscription}
  (route : String → Transport) (l : Ledger σ)

/-- The results of a group. -/
def groupResults (g : PushGroup) : List DeliveryResult :=
  g.endpoints.map (resultThrough route l g.provider g.notification)

/-- The results of all groups. -/
def results (plan : PushPlan) : List DeliveryResult :=
  plan.groups.values.flatMap (groupResults route l)

theorem resultsAlone_concat : resultsAlone route l service request (done ++ [s]) =
    resultsAlone route l service request done ++
      ((s.classify service request).result? route l s.toEndpoint).toList := by
  cases h : (s.classify service request).result? route l s.toEndpoint <;> simp [resultsAlone, h]

/-- One more subscription adds its own result to those of the groups. -/
theorem Fits.results_of_add (h : Fits service request plan) (hids : IdsFixProviders service)
    (hadd : add service request plan s = .ok plan') :
    (plan'.results route l).Perm
      (((s.classify service request).result? route l s.toEndpoint).toList ++
        plan.results route l) := by
  cases adds_of_add_eq hadd with
  | disabled he =>
    rw [Subscription.classify_of_disabled request service he]
    exact .refl _
  | unresolved he hr =>
    rw [Subscription.classify_of_unresolved request he hr]
    exact .refl _
  | emptyContent he hr _ hp =>
    rw [Subscription.classify_of_resolved request he hr, hp]
    exact .refl _
  | join he hr hg =>
    rw [h.classify_of_group hids he hr hg]
    apply flatMap_join_perm _ hg
    exact List.map_append
  | send he hr hg hp =>
    rw [Subscription.classify_of_resolved request he hr, hp]
    exact flatMap_setGroup_perm _ hg

/-- The groups of a plan give what the subscriptions give by themselves. -/
theorem results_perm_of_make (hids : IdsFixProviders service)
    (h : make service subscriptions request = .ok plan) :
    (plan.results route l).Perm (resultsAlone route l service request subscriptions) := by
  have hall := make_induction
    (P := fun done plan => Fits service request plan ∧
      (plan.results route l).Perm (resultsAlone route l service request done))
    ⟨.empty, .refl _⟩ ?_ h
  · exact hall.2
  · intro done plan s plan' ⟨hfits, hperm⟩ hadd
    refine ⟨hfits.of_add hadd, ?_⟩
    rw [resultsAlone_concat]
    apply (hfits.results_of_add route l hids hadd).trans
    exact List.perm_append_comm.trans (hperm.append_right _)

end PushPlan

/-- There is something to push to, and no subscription by itself is refused. -/
def Pushable (service : Service) (request : PushRequest) (subscriptions : List Subscription) :
    Prop :=
  subscriptions ≠ [] ∧ ∀ s ∈ subscriptions, (s.classify service request).error? = none

namespace Pushable

variable {service : Service} {request : PushRequest} {xs ys : List Subscription}

theorem perm_iff (h : xs.Perm ys) : Pushable service request xs ↔ Pushable service request ys := by
  have hnil : xs = [] ↔ ys = [] := by
    rw [← List.length_eq_zero_iff, ← List.length_eq_zero_iff, h.length_eq]
  simp only [Pushable, Ne, hnil, h.mem_iff]

theorem append_iff (hxs : xs ≠ []) (hys : ys ≠ []) :
    Pushable service request (xs ++ ys) ↔
      Pushable service request xs ∧ Pushable service request ys := by
  rw [Pushable, Pushable, Pushable, List.forall_mem_append]
  simp [hxs, hys]

/-- A list is pushable exactly if a plan can be made for it. -/
theorem iff_make (hids : PushPlan.IdsFixProviders service) : Pushable service request xs ↔
    ∀ error, PushPlan.make service xs request ≠ .error error := by
  have htypes : PushPlan.IdsFixTypes service :=
    fun p hp q hq hid => congrArg Provider.providerType (hids p hp q hq hid)
  simp only [Ne, PushPlan.make_eq_error_iff htypes, not_or, not_and]
  constructor
  · intro ⟨hne, hall⟩ error
    refine ⟨fun h => (hne h).elim, fun hsome => ?_⟩
    obtain ⟨s, hs, he⟩ := List.exists_of_findSome?_eq_some hsome
    rw [hall s hs] at he
    cases he
  · intro h
    refine ⟨fun hnil => (h _).1 hnil rfl, ?_⟩
    have hnone : xs.findSome? (fun s => (s.classify service request).error?) = none := by
      cases hf : xs.findSome? fun s => (s.classify service request).error? with
      | none => rfl
      | some error => exact ((h error).2 hf).elim
    exact List.findSome?_eq_none_iff.mp hnone

end Pushable

namespace Push

open PushPlan (IdsFixProviders skippedAlone)

/-- What a push returns, up to order, as its subscriptions determine it one by one. -/
inductive ReturnsAlone {σ : Type} [SubscriptionStore σ] (service : Service) (request : PushRequest)
    (route : String → Transport) (l : Ledger σ) (subscriptions : List Subscription) :
    Except PushError PushReport → Prop
  | refused (error : PushError) : ¬ Pushable service request subscriptions →
      ReturnsAlone service request route l subscriptions (.error error)
  | reported {report : PushReport} : Pushable service request subscriptions →
      report.skipped = skippedAlone service request subscriptions →
      report.delivered.Perm
        ((resultsAlone route l service request subscriptions).filter (!·.isError)) →
      report.failures.Perm
        ((resultsAlone route l service request subscriptions).filter (·.isError)) →
      ReturnsAlone service request route l subscriptions (.ok report)

/-- What a push can return that starts with some store, in whatever order its moves are made. -/
def Returns {σ : Type} [SubscriptionStore σ] (service : Service) (request : PushRequest)
    (route : String → Transport) (store : σ) (subscriptions : List Subscription)
    (result : Except PushError PushReport) : Prop :=
  ∃ l r, l.store = store ∧ Ends service subscriptions request route l result r

variable {σ : Type} [SubscriptionStore σ] {service : Service} {request : PushRequest}
  {route : String → Transport} {l : Ledger σ} {subscriptions : List Subscription}
  {result : Except PushError PushReport} {r : Running σ}

theorem Ends.alone (hids : IdsFixProviders service)
    (hroute : ∀ providerType, (route providerType).Routed)
    (hstateless : ∀ providerType, (route providerType).Stateless) (hl : Steady l.store)
    (h : Ends service subscriptions request route l result r) :
    ReturnsAlone service request route l subscriptions result := by
  cases h with
  | @refused error r h =>
    apply ReturnsAlone.refused
    rw [Pushable.iff_make hids]
    exact fun hall => hall error (Course.reachable_refused_iff.mp h).2
  | @completed notificationId c h =>
    obtain ⟨plan, hmake, hskipped, hjobs⟩ := h.reachable.exists_plan
    have hpushable : Pushable service request subscriptions := by
      rw [Pushable.iff_make hids, hmake]
      exact fun _ he => by cases he
    have hresults : (c.dispatches.flatMap (·.2.history.taken)).Perm
        (resultsAlone route l service request subscriptions) := by
      apply (h.results hroute hstateless hl).trans
      rw [hjobs, PushPlan.jobs, List.flatMap_map]
      exact PushPlan.results_perm_of_make route l hids hmake
    refine .reported hpushable ?_ ?_ ?_
    · rw [hskipped]
      exact (PushPlan.represents_of_make hids hmake).skipped
    · rw [h.report]
      exact hresults.filter _
    · rw [h.report]
      exact hresults.filter _

theorem Returns.alone {store : σ} (hids : IdsFixProviders service)
    (hroute : ∀ providerType, (route providerType).Routed)
    (hstateless : ∀ providerType, (route providerType).Stateless) (hstore : Steady store)
    (h : Returns service request route store subscriptions result) :
    ReturnsAlone service request route ⟨store, [], none⟩ subscriptions result := by
  obtain ⟨l, r, rfl, hends⟩ := h
  have hstore' : l.store = (⟨l.store, [], none⟩ : Ledger σ).store := rfl
  have hsame := resultsAlone_congr route l hstore' service request subscriptions
  cases hends.alone hids hroute hstateless hstore with
  | refused error hnot => exact .refused error hnot
  | reported hpushable hskipped hdelivered hfailures =>
    rw [hsame] at hdelivered hfailures
    exact .reported hpushable hskipped hdelivered hfailures

/-- A push that is run returns one of these. -/
theorem returns_run (hroute : ∀ providerType, (route providerType).Routed)
    (notificationId : String) (l : Ledger σ) :
    Returns service request route l.store subscriptions
      ((run notificationId service subscriptions request route l).map (·.report)) := by
  cases hrun : run notificationId service subscriptions request route l with
  | error error =>
    have hmake := run_eq_error_iff.mp hrun
    exact ⟨l, _, rfl, .refused (Course.reachable_refused_iff.mpr ⟨rfl, hmake⟩)⟩
  | ok c => exact ⟨l, _, rfl, .completed (completes_of_run hroute hrun)⟩

/-- Two pushes both fail, or their reports differ at most in their order. -/
inductive SameUpToOrder : Except PushError PushReport → Except PushError PushReport → Prop
  | refused (error error' : PushError) : SameUpToOrder (.error error) (.error error')
  | reported {report report' : PushReport} : report.skipped.Perm report'.skipped →
      report.delivered.Perm report'.delivered → report.failures.Perm report'.failures →
      SameUpToOrder (.ok report) (.ok report')

/-- A push fails exactly if one of two others does; otherwise its report unites theirs. -/
inductive Unites : (first second whole : Except PushError PushReport) → Prop
  | first (error error' : PushError) (second : Except PushError PushReport) :
      Unites (.error error) second (.error error')
  | second (error error' : PushError) (first : Except PushError PushReport) :
      Unites first (.error error) (.error error')
  | reported {first second whole : PushReport} :
      whole.skipped.Perm (first.skipped ++ second.skipped) →
      whole.delivered.Perm (first.delivered ++ second.delivered) →
      whole.failures.Perm (first.failures ++ second.failures) →
      Unites (.ok first) (.ok second) (.ok whole)

namespace ReturnsAlone

variable {xs ys : List Subscription} {first second whole result' : Except PushError PushReport}

theorem sameUpToOrder (h : ReturnsAlone service request route l xs result)
    (h' : ReturnsAlone service request route l ys result') (hperm : xs.Perm ys) :
    SameUpToOrder result result' := by
  have hresults : (resultsAlone route l service request xs).Perm
      (resultsAlone route l service request ys) := hperm.filterMap _
  cases h with
  | refused error hnot =>
    rw [Pushable.perm_iff hperm] at hnot
    cases h' with
    | refused error' => exact .refused error error'
    | reported hpushable => exact (hnot hpushable).elim
  | reported hpushable hskipped hdelivered hfailures =>
    rw [Pushable.perm_iff hperm] at hpushable
    cases h' with
    | refused error' hnot => exact (hnot hpushable).elim
    | reported _ hskipped' hdelivered' hfailures' =>
      refine .reported ?_ ?_ ?_
      · rw [hskipped, hskipped']
        exact hperm.filterMap _
      · exact (hdelivered.trans (hresults.filter _)).trans hdelivered'.symm
      · exact (hfailures.trans (hresults.filter _)).trans hfailures'.symm

theorem unites (hxs : xs ≠ []) (hys : ys ≠ [])
    (h₁ : ReturnsAlone service request route l xs first)
    (h₂ : ReturnsAlone service request route l ys second)
    (h : ReturnsAlone service request route l (xs ++ ys) whole) : Unites first second whole := by
  have hboth : Pushable service request (xs ++ ys) ↔ _ := Pushable.append_iff hxs hys
  have hresults : resultsAlone route l service request (xs ++ ys) =
      resultsAlone route l service request xs ++ resultsAlone route l service request ys :=
    List.filterMap_append
  cases h with
  | refused error' hnot =>
    cases h₁ with
    | refused error => exact .first error error' second
    | reported hfirst =>
      cases h₂ with
      | refused error => exact .second error error' _
      | reported hsecond => exact (hnot (hboth.mpr ⟨hfirst, hsecond⟩)).elim
  | reported hpushable hskipped hdelivered hfailures =>
    obtain ⟨hfirst, hsecond⟩ := hboth.mp hpushable
    rw [hresults, List.filter_append] at hdelivered hfailures
    cases h₁ with
    | refused error hnot => exact (hnot hfirst).elim
    | reported _ hskipped₁ hdelivered₁ hfailures₁ =>
      cases h₂ with
      | refused error hnot => exact (hnot hsecond).elim
      | reported _ hskipped₂ hdelivered₂ hfailures₂ =>
        refine .reported ?_ ?_ ?_
        · rw [hskipped, hskipped₁, hskipped₂]
          exact .of_eq List.filterMap_append
        · exact hdelivered.trans (hdelivered₁.append hdelivered₂).symm
        · exact hfailures.trans (hfailures₁.append hfailures₂).symm

end ReturnsAlone

/-- Over entries held in memory a push returns the same, up to order, for its subscriptions in any
order. Two lists pushed together fail if one of them does by itself, and otherwise return what both
return, each of them from the same entries. -/
theorem independent_of_order_and_company {registry : Registry Transport} (request : PushRequest)
    (hids : IdsFixProviders service) (hregistry : registry.FansOutStateless) (store : MemoryStore) :
    (∀ subscriptions notificationId (l : Ledger MemoryStore), l.store = store →
      Returns service request registry.route store subscriptions
        ((run notificationId service subscriptions request registry.route l).map (·.report))) ∧
    (∀ xs ys, xs.Perm ys → ∀ result result',
      Returns service request registry.route store xs result →
      Returns service request registry.route store ys result' → SameUpToOrder result result') ∧
    (∀ xs ys, xs ≠ [] → ys ≠ [] → ∀ first second whole,
      Returns service request registry.route store xs first →
      Returns service request registry.route store ys second →
      Returns service request registry.route store (xs ++ ys) whole →
        Unites first second whole) := by
  have hroute := hregistry.fansOut.routed
  have halone : ∀ xs result, Returns service request registry.route store xs result →
      ReturnsAlone service request registry.route ⟨store, [], none⟩ xs result :=
    fun xs result h => h.alone hids hroute hregistry.stateless store.steady
  refine ⟨fun xs notificationId l hl => ?_, fun xs ys hperm result result' h h' => ?_,
    fun xs ys hxs hys first second whole h₁ h₂ h => ?_⟩
  · rw [← hl]
    exact returns_run hroute notificationId l
  · exact (halone xs result h).sameUpToOrder (halone ys result' h') hperm
  · exact (halone xs first h₁).unites hxs hys (halone ys second h₂) (halone _ whole h)

/-- Two devices with stale keys are stored under one id, so both write the same entry. -/
theorem independent_of_order_and_company_of_two :
    let p : Provider := ⟨1, 1, "a", "gcm", ∅⟩
    let service : Service := ⟨1, "shop", [p]⟩
    let send : Sender := fun _ _ e =>
      ⟨e.setReplacementKey (e.deviceKey ++ "'"), .refused (.endpointKeyStale "old")⟩
    let s : Subscription := ⟨7, "u", 1, "gcm", "k", none, true⟩
    let t : Subscription := ⟨7, "u", 1, "gcm", "m", none, true⟩
    let request : PushRequest :=
      ⟨"shop", "u", Std.ExtTreeMap.empty.insert "gcm" (.object [("t", .string "v")])⟩
    let registry := Registry.withTransport {} "gcm" (.ofLimit send 2)
    let store := MemoryStore.insert {} 7 "k"
    ∃ a b c d : PushReport,
      Returns service request registry.route store [s] (.ok a) ∧
      Returns service request registry.route store [t] (.ok b) ∧
      Returns service request registry.route store ([s] ++ [t]) (.ok c) ∧
      Returns service request registry.route store [t, s] (.ok d) ∧
      c.failures.length = 2 ∧ c.failures.Perm (a.failures ++ b.failures) ∧
      c.failures.Perm d.failures := by
  intro p service send s t request registry store
  have hids : IdsFixProviders service := by simp [service, IdsFixProviders]
  have hregistry : registry.FansOutStateless := by
    intro providerType transport ht
    exact ⟨send, 2, Registry.eq_of_get?_withTransport_empty ht, by decide⟩
  obtain ⟨hrun, hperm, happend⟩ :=
    independent_of_order_and_company request hids hregistry store
  have hreturns : ∀ xs n, (run "id" service xs request registry.route
      (⟨store, [], none⟩ : Ledger MemoryStore)).toOption.map (·.report.failures.length) = some n →
      ∃ report : PushReport, Returns service request registry.route store xs (.ok report) ∧
        report.failures.length = n := by
    intro xs n hn
    obtain ⟨c, hc, hlength⟩ := exists_of_map_toOption hn
    have := hrun xs "id" ⟨store, [], none⟩ rfl
    rw [hc] at this
    exact ⟨c.report, this, hlength⟩
  obtain ⟨a, ha, -⟩ := hreturns [s] 1 (by decide +kernel)
  obtain ⟨b, hb, -⟩ := hreturns [t] 1 (by decide +kernel)
  obtain ⟨c, hc, hlength⟩ := hreturns ([s] ++ [t]) 2 (by decide +kernel)
  obtain ⟨d, hd, -⟩ := hreturns [t, s] 2 (by decide +kernel)
  cases hperm _ _ (.swap t s []) _ _ hc hd with
  | reported _ _ hsame =>
    cases happend [s] [t] (by simp) (by simp) _ _ _ ha hb hc with
    | reported _ _ hunion => exact ⟨a, b, c, d, ha, hb, hc, hd, hlength, hunion, hsame⟩

end Push

end PushDelivery
