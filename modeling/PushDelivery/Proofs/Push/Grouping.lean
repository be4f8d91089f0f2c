import PushDelivery.Proofs.Push.Course
import PushDelivery.Proofs.Push.Planning

/-!
# Grouping changes nothing

A push handles subscriptions in groups. If an id determines a provider, what it skips and what it
dispatches is what it would for each subscription by itself: one dispatch for each provider that
some subscription is sent through, with the endpoints of all such subscriptions in the caller's
order.
-/

namespace PushDelivery

open Dispatch

variable {service : Service} {request : PushRequest} {route : String → Transport}

/-- The dispatch for a provider, of the subscriptions that are sent through it by themselves. -/
def jobAlone (service : Service) (request : PushRequest) (route : String → Transport)
    (subscriptions : List Subscription) (p : Provider) (n : Notification) : Job where
  provider := p
  notification := n
  endpoints := PushPlan.endpointsAlone service request subscriptions p
  transport := route p.providerType

def PushGroup.job (route : String → Transport) (g : PushGroup) : Job where
  provider := g.provider
  notification := g.notification
  endpoints := g.endpoints
  transport := route g.provider.providerType

/-- What is skipped and what is dispatched agree with the subscriptions taken one by one. -/
structure AgreesAlone (service : Service) (request : PushRequest) (route : String → Transport)
    (subscriptions : List Subscription) (skipped : List SkippedSubscription) (jobs : List Job) :
    Prop where
  skipped : skipped = PushPlan.skippedAlone service request subscriptions
  /-- A provider that a subscription is sent through has exactly one dispatch. -/
  dispatched : ∀ s ∈ subscriptions, ∀ p n, s.classify service request = .send p n →
    jobs.filter (·.provider = p) = [jobAlone service request route subscriptions p n]
  /-- There are no other dispatches. -/
  sent : ∀ j ∈ jobs, ∃ s ∈ subscriptions, ∃ n,
    s.classify service request = .send j.provider n

namespace PushPlan

variable {plan : PushPlan} {subscriptions : List Subscription}

theorem provider?_eq_some_iff {c : Classification} {p : Provider} :
    c.provider? = some p ↔ ∃ n, c = .send p n := by
  cases c <;> simp [Classification.provider?]

theorem eq_of_ofProvider_eq_send {p q : Provider} {n : Notification}
    (h : Classification.ofProvider request q = .send p n) : q = p := by
  unfold Classification.ofProvider at h
  split at h
  next => cases h
  next => cases h
  next =>
    split at h
    next => cases h
    next =>
      cases h
      rfl

theorem send_of_classify {s : Subscription} {p : Provider} {n : Notification}
    (h : s.classify service request = .send p n) :
    p ∈ service.providers ∧ Classification.ofProvider request p = .send p n := by
  unfold Subscription.classify at h
  split at h
  next => cases h
  next =>
    split at h
    next => cases h
    next q hr =>
      have hq := eq_of_ofProvider_eq_send h
      subst hq
      exact ⟨Endpoint.mem_of_resolve hr, h⟩

theorem Represents.agreesAlone (hids : IdsFixProviders service)
    (h : Represents service request subscriptions plan) :
    AgreesAlone service request route subscriptions plan.skipped (plan.jobs route) where
  skipped := h.skipped
  dispatched s hs p n hc := by
    obtain ⟨g, hg⟩ := Option.ne_none_iff_exists'.mp
      (h.covers s hs p (provider?_eq_some_iff.mpr ⟨n, hc⟩))
    have hfits := h.fits p.id g hg
    obtain ⟨hmem, hsend⟩ := send_of_classify hc
    have hp : g.provider = p := hids _ hfits.mem p hmem hfits.id
    have hn : g.notification = n := by
      have := hfits.send
      rw [hp, hsend] at this
      cases this
      rfl
    have hothers : ∀ g' ∈ otherValues plan.groups p.id, g'.provider ≠ p := by
      intro g' hg' heq
      obtain ⟨id, hid, hget⟩ := mem_otherValues_iff.mp hg'
      exact hid ((heq ▸ (h.fits id g' hget).id).symm)
    have hperm := ((values_perm_of_some hg).map (PushGroup.job route)).filter (·.provider = p)
    refine List.perm_singleton.mp (hperm.trans (.of_eq ?_))
    have hkept : decide ((g.job route).provider = p) = true := decide_eq_true hp
    have hdropped : ∀ j ∈ (otherValues plan.groups p.id).map (PushGroup.job route),
        ¬decide (j.provider = p) = true := by
      simpa only [List.forall_mem_map, PushGroup.job, decide_eq_true_eq] using hothers
    rw [List.map_cons, List.filter_cons, if_pos hkept, List.filter_eq_nil_iff.mpr hdropped]
    simp [PushGroup.job, jobAlone, hp, hn, (h.endpoints p.id g hg).1]
  sent j hj := by
    obtain ⟨g, hg, rfl⟩ := List.mem_map.mp hj
    obtain ⟨id, hget⟩ := mem_values_iff.mp hg
    obtain ⟨hends, hne⟩ := h.endpoints id g hget
    rw [hends, Ne, endpointsAlone_eq_nil_iff] at hne
    simp only [not_forall, not_not] at hne
    obtain ⟨s, hs, hp⟩ := hne
    exact ⟨s, hs, provider?_eq_some_iff.mp hp⟩

end PushPlan

namespace Push

open PushPlan (IdsFixProviders)

variable {σ : Type} [SubscriptionStore σ] {subscriptions : List Subscription}

/-- From the moment at which its dispatches start, and in its report, a push agrees with its
subscriptions taken one by one, over any transports. -/
theorem agreesAlone_of_reachable (hids : IdsFixProviders service) (notificationId : String)
    (l : Ledger σ) :
    (∀ skipped r, Course.Reachable service subscriptions request route l
        ⟨.dispatching skipped, r⟩ →
      AgreesAlone service request route subscriptions skipped (r.dispatches.map Prod.fst)) ∧
    (∀ c, run notificationId service subscriptions request route l = .ok c →
      AgreesAlone service request route subscriptions c.report.skipped
        (c.dispatches.map Prod.fst)) := by
  refine ⟨fun skipped r h => ?_, fun c h => ?_⟩
  · obtain ⟨plan, hmake, hskipped, hjobs⟩ := h.exists_plan
    rw [hskipped, hjobs]
    exact (PushPlan.represents_of_make hids hmake).agreesAlone hids
  · obtain ⟨plan, hmake, rfl⟩ := exists_plan_of_run h
    dsimp only
    rw [List.map_fst_zip (Nat.le_of_eq (length_completeInOrder _ l).symm)]
    exact (PushPlan.represents_of_make hids hmake).agreesAlone hids

/-- Of three subscriptions one is disabled; the other two share a dispatch. -/
theorem agreesAlone_of_two :
    let p : Provider := ⟨1, 1, "a", "gcm", ∅⟩
    let s : Subscription := ⟨8, "u", 1, "gcm", "k", none, true⟩
    let t : Subscription := ⟨9, "u", 1, "gcm", "m", none, true⟩
    let request : PushRequest :=
      ⟨"shop", "u", Std.ExtTreeMap.empty.insert "gcm" (.object [("t", .string "v")])⟩
    ∃ c, run "id" ⟨1, "shop", [p]⟩ [s, { s with id := 7, enabled := false }, t] request
        (fun _ => .rejecting) (⟨{}, [], none⟩ : Ledger MemoryStore) = .ok c ∧
      c.report.skipped = [⟨7, .disabled⟩] ∧
      ((c.dispatches.map Prod.fst).filter (·.provider = p)).map Job.endpoints =
        [[s.toEndpoint, t.toEndpoint]] := by
  intro p s t request
  have hids : IdsFixProviders ⟨1, "shop", [p]⟩ := by simp [IdsFixProviders]
  have hok : (run "id" ⟨1, "shop", [p]⟩ [s, { s with id := 7, enabled := false }, t] request
      (fun _ => .rejecting) (⟨{}, [], none⟩ : Ledger MemoryStore)).isOk = true := by
    decide +kernel
  cases hrun : run "id" ⟨1, "shop", [p]⟩ [s, { s with id := 7, enabled := false }, t] request
      (fun _ => .rejecting) (⟨{}, [], none⟩ : Ledger MemoryStore) with
  | error error =>
    rw [hrun] at hok
    cases hok
  | ok c =>
    have h := (agreesAlone_of_reachable hids "id" _).2 c hrun
    have hclass : s.classify ⟨1, "shop", [p]⟩ request =
        .send p ⟨Std.ExtTreeMap.empty.insert "t" "v"⟩ := by decide +kernel
    refine ⟨c, rfl, h.skipped.trans (by decide +kernel), ?_⟩
    rw [h.dispatched s List.mem_cons_self p _ hclass]
    decide +kernel

end Push

end PushDelivery
