import PushDelivery.Proofs.Push.Course
import PushDelivery.Proofs.Push.Planning
import PushDelivery.Transport

/-!
# The provider that an endpoint travels with

A provider is chosen for each endpoint by itself, but a plan knows its groups by the ids of
providers only, and all endpoints of a group travel with the provider that opened it. What holds of
any providers is that an endpoint travels with a provider of the same id as the one chosen for it.
That it travels with what it asked for, a provider of its own service and type and of the name that
it gives, is true of a service exactly if no two of the providers that are ever chosen share an id.
Providers that are never chosen, because another one of the same service, type and name stands
before them, may have any id.
-/

namespace PushDelivery

/-- What a subscription asks of the dispatch that carries its endpoint: a provider of its own
service and type, of the name that it gives if it gives one, and the notification that the request
has for this type. -/
structure Job.Suits (request : PushRequest) (j : Job) (s : Subscription) : Prop where
  serviceId : j.provider.serviceId = s.serviceId
  providerType : j.provider.providerType = s.providerType
  name : ∀ name, s.providerName = some name → j.provider.name = name
  notification : ∃ content, request.contentFor s.providerType = .ok (some content) ∧
    j.notification = .ofContent content

namespace Service

def Chooses (service : Service) (p : Provider) : Prop :=
  ∃ e : Endpoint, e.resolve service.providers = .ok p

/-- No two providers that are ever chosen share an id. -/
def IdsFixChoice (service : Service) : Prop :=
  ∀ p q, service.Chooses p → service.Chooses q → p.id = q.id → p = q

end Service

@[simp] theorem Subscription.providerType_toEndpoint (s : Subscription) :
    s.toEndpoint.providerType = s.providerType := rfl

theorem Classification.exists_content_of_ofProvider {request : PushRequest} {p q : Provider}
    {n : Notification} (h : ofProvider request p = .send q n) :
    ∃ content, request.contentFor p.providerType = .ok (some content) ∧
      n = .ofContent content := by
  unfold ofProvider at h
  split at h
  next => cases h
  next => cases h
  next content hcontent =>
    split at h
    next => cases h
    next =>
      cases h
      exact ⟨content, hcontent, rfl⟩

namespace PushPlan

variable {service : Service} {request : PushRequest} {plan plan' : PushPlan} {s : Subscription}
  {subscriptions done : List Subscription}

/-- The provider of a group is one that is chosen, and so is one of the same id for each of its
endpoints. -/
structure Gathers (service : Service) (done : List Subscription) (id : Int64) (g : PushGroup) :
    Prop where
  provider : service.Chooses g.provider
  endpoints : ∀ e ∈ g.endpoints, ∃ s ∈ done, s.enabled = true ∧ s.toEndpoint = e ∧
    ∃ p, e.resolve service.providers = .ok p ∧ p.id = id

theorem Gathers.snoc {id : Int64} {g : PushGroup} (h : Gathers service done id g)
    (s : Subscription) : Gathers service (done ++ [s]) id g where
  provider := h.provider
  endpoints e he := by
    obtain ⟨s', hs', hs⟩ := h.endpoints e he
    exact ⟨s', List.mem_append_left _ hs', hs⟩

theorem gathers_of_add
    (h : ∀ (id : Int64) (g : PushGroup), plan.groups[id]? = some g → Gathers service done id g)
    (hadd : add service request plan s = .ok plan') (id : Int64) (g : PushGroup)
    (hg : plan'.groups[id]? = some g) : Gathers service (done ++ [s]) id g := by
  have hs : s ∈ done ++ [s] := by simp
  cases adds_of_add_eq hadd with
  | disabled | unresolved | emptyContent => exact (h id g hg).snoc s
  | @join p g₀ he hr hg₀ =>
    rw [getElem?_join] at hg
    split at hg
    next hid =>
      -- The endpoint joins whatever group has the id of its provider.
      cases hg
      have hold := (h p.id g₀ hg₀).snoc s
      refine ⟨hold.provider, fun e hmem => ?_⟩
      rcases List.mem_append.mp hmem with hmem | hmem
      · rw [← hid]
        exact hold.endpoints e hmem
      · rw [List.mem_singleton.mp hmem]
        exact ⟨s, hs, he, rfl, p, hr, hid⟩
    next => exact (h id g hg).snoc s
  | @send p n he hr _ _ =>
    rw [getElem?_setGroup] at hg
    split at hg
    next hid =>
      cases hg
      refine ⟨⟨_, hr⟩, fun e hmem => ?_⟩
      rw [List.mem_singleton.mp hmem]
      exact ⟨s, hs, he, rfl, p, hr, hid⟩
    next => exact (h id g hg).snoc s

theorem gathers_of_make (h : make service subscriptions request = .ok plan) (id : Int64)
    (g : PushGroup) (hg : plan.groups[id]? = some g) : Gathers service subscriptions id g :=
  make_induction
    (P := fun done plan => ∀ (id : Int64) (g : PushGroup),
      plan.groups[id]? = some g → Gathers service done id g)
    (fun _ _ hg => by cases hg) (fun _ _ _ _ h hadd => gathers_of_add h hadd) h id g hg

theorem add_eq_join {p : Provider} {g : PushGroup} (he : s.enabled = true)
    (hr : s.toEndpoint.resolve service.providers = .ok p) (hg : plan.groups[p.id]? = some g) :
    add service request plan s = .ok (plan.join p.id g s.toEndpoint) := by
  simp [add, he, hr, hg]

theorem add_eq_setGroup {p : Provider} {n : Notification} (he : s.enabled = true)
    (hr : s.toEndpoint.resolve service.providers = .ok p) (hg : plan.groups[p.id]? = none)
    (hn : notificationFor request p.providerType = .ok n) (hempty : n.isEmpty = false) :
    add service request plan s = .ok (plan.setGroup ⟨p, n, [s.toEndpoint]⟩) := by
  simp [add, he, hr, hg, hn, hempty]

end PushPlan

namespace Push

variable {σ : Type} [SubscriptionStore σ] {service : Service} {subscriptions : List Subscription}
  {request : PushRequest} {route : String → Transport} {l : Ledger σ}

/-- Each endpoint that the push dispatches is that of an enabled subscription, and the dispatch
suits this subscription. -/
def SuitsAll (subscriptions : List Subscription) (request : PushRequest) (jobs : List Job) : Prop :=
  ∀ j ∈ jobs, ∀ e ∈ j.endpoints, ∃ s ∈ subscriptions,
    s.enabled = true ∧ s.toEndpoint = e ∧ j.Suits request s

theorem suitsAll_of_idsFixChoice (hids : service.IdsFixChoice) {plan : PushPlan}
    (hmake : PushPlan.make service subscriptions request = .ok plan) :
    SuitsAll subscriptions request (plan.jobs route) := by
  intro j hj e he
  obtain ⟨g, hg, rfl⟩ := List.mem_map.mp hj
  obtain ⟨id, hget⟩ := mem_values_iff.mp hg
  have hfits := PushPlan.fits_of_make hmake id g hget
  have hgathers := PushPlan.gathers_of_make hmake id g hget
  obtain ⟨s, hs, henabled, rfl, p, hp, hid⟩ := hgathers.endpoints e he
  have hp' : p = g.provider := hids p g.provider ⟨_, hp⟩ hgathers.provider (hid.trans hfits.id.symm)
  subst hp'
  obtain ⟨hservice, htype⟩ := Endpoint.admits_of_resolve hp
  obtain ⟨content, hcontent, hn⟩ := Classification.exists_content_of_ofProvider hfits.send
  refine ⟨s, hs, henabled, rfl, hservice, htype, fun name => Endpoint.name_of_resolve hp, content,
    ?_, hn⟩
  rw [← hcontent, htype, Subscription.providerType_toEndpoint]

section Shared

variable {p q : Provider}

def subscriptionFor (p : Provider) : Subscription where
  id := 0
  subscriber := ""
  serviceId := p.serviceId
  providerType := p.providerType
  deviceKey := ""
  providerName := some p.name

theorem resolve_subscriptionFor (h : service.Chooses p) :
    (subscriptionFor p).toEndpoint.resolve service.providers = .ok p := by
  obtain ⟨e, he⟩ := h
  exact Endpoint.resolve_of_name he rfl rfl rfl

def someContent : List (String × Json) := [("text", .string "")]

def requestFor (p q : Provider) : PushRequest where
  service := ""
  subscriber := ""
  content := (Std.ExtTreeMap.empty.insert q.providerType (.object someContent)).insert
    p.providerType (.object someContent)

theorem notificationFor_requestFor (p q : Provider) :
    PushPlan.notificationFor (requestFor p q) p.providerType =
      .ok (.ofContent (.ofList someContent)) := by
  simp [PushPlan.notificationFor, PushRequest.contentFor, requestFor, Except.map]

def groupFor (p : Provider) : PushGroup where
  provider := p
  notification := .ofContent (.ofList someContent)
  endpoints := [(subscriptionFor p).toEndpoint]

/-- Of two subscriptions whose providers share an id the second joins the group of the first. -/
theorem make_requestFor (hp : service.Chooses p) (hq : service.Chooses q) (hid : p.id = q.id) :
    PushPlan.make service [subscriptionFor p, subscriptionFor q] (requestFor p q) =
      .ok ((PushPlan.setGroup {} (groupFor p)).join q.id (groupFor p)
        (subscriptionFor q).toEndpoint) := by
  have hempty : (Notification.ofContent (.ofList someContent)).isEmpty = false := by
    decide +kernel
  have hfirst : PushPlan.add service (requestFor p q) {} (subscriptionFor p) =
      .ok (PushPlan.setGroup {} (groupFor p)) :=
    PushPlan.add_eq_setGroup rfl (resolve_subscriptionFor hp) rfl
      (notificationFor_requestFor p q) hempty
  have hopen : (PushPlan.setGroup {} (groupFor p)).groups[q.id]? = some (groupFor p) := by
    rw [PushPlan.getElem?_setGroup, if_pos]
    exact hid
  have hsecond : PushPlan.add service (requestFor p q) (PushPlan.setGroup {} (groupFor p))
      (subscriptionFor q) = .ok ((PushPlan.setGroup {} (groupFor p)).join q.id (groupFor p)
        (subscriptionFor q).toEndpoint) :=
    PushPlan.add_eq_join rfl (resolve_subscriptionFor hq) hopen
  simp [PushPlan.make, hfirst, hsecond, bind, Except.bind, pure, Except.pure]

end Shared

/-- An endpoint that joins a group is dispatched with the group's provider. -/
theorem exists_job_of_join (route : String → Transport) (plan : PushPlan) (id : Int64)
    (g : PushGroup) (e : Endpoint) :
    ∃ j ∈ (plan.join id g e).jobs route, j.provider = g.provider ∧ e ∈ j.endpoints := by
  have hget : (plan.join id g e).groups[id]? =
      some { g with endpoints := g.endpoints ++ [e] } := by
    rw [PushPlan.getElem?_join, if_pos rfl]
  exact ⟨_, List.mem_map_of_mem (mem_values_iff.mpr ⟨id, hget⟩), rfl, by simp⟩

/-- A push serves every subscription as it asks, whatever the subscriptions and the request, exactly
if no two of the providers that are ever chosen share an id. -/
theorem suits_iff_idsFixChoice (service : Service) (route : String → Transport) (l : Ledger σ) :
    (∀ subscriptions request skipped r,
      Course.Reachable service subscriptions request route l ⟨.dispatching skipped, r⟩ →
      SuitsAll subscriptions request (r.dispatches.map Prod.fst)) ↔ service.IdsFixChoice := by
  constructor
  · intro h p q hp hq hid
    -- The endpoint of the second subscription travels with the provider of the first.
    have hmake := make_requestFor hp hq hid
    have hreachable := Course.reachable_of_make service [subscriptionFor p, subscriptionFor q]
      (requestFor p q) route l
    rw [hmake] at hreachable
    have hall := h _ _ _ _ hreachable
    obtain ⟨j, hj, (hprovider : j.provider = p), hmem⟩ := exists_job_of_join route
      (PushPlan.setGroup {} (groupFor p)) q.id (groupFor p) (subscriptionFor q).toEndpoint
    obtain ⟨s, -, -, hs, hsuits⟩ := hall j (by simpa [Running.start] using hj) _ hmem
    have hname : s.providerName = some q.name := congrArg Endpoint.providerName hs
    have hservice : p.serviceId = q.serviceId :=
      (hprovider ▸ hsuits.serviceId).trans (congrArg Endpoint.serviceId hs)
    have htype : p.providerType = q.providerType :=
      (hprovider ▸ hsuits.providerType).trans (congrArg Endpoint.providerType hs)
    have hname' : p.name = q.name := hprovider ▸ hsuits.name q.name hname
    obtain ⟨e, he⟩ := hp
    have hchosen : (subscriptionFor q).toEndpoint.resolve service.providers = .ok p :=
      Endpoint.resolve_of_name he hservice.symm htype.symm (congrArg some hname'.symm)
    exact Except.ok.inj (hchosen.symm.trans (resolve_subscriptionFor hq))
  · intro hids subscriptions request skipped r h
    obtain ⟨plan, hmake, -, hjobs⟩ := h.exists_plan
    rw [hjobs]
    exact suitsAll_of_idsFixChoice hids hmake

/-- Two services have a provider under one id. The endpoint of the second subscription is sent
through the first one's provider, which is of another service and type, with the content for that
type. -/
theorem sent_through_foreign_provider :
    let a : Provider := ⟨1, 1, "android", "gcm", Std.ExtTreeMap.empty.insert "apikey" "secret"⟩
    let b : Provider := ⟨1, 2, "ios", "apns", ∅⟩
    let s : Subscription := ⟨7, "u", 1, "gcm", "k", none, true⟩
    let t : Subscription := ⟨8, "u", 2, "apns", "m", none, true⟩
    let request : PushRequest := ⟨"shop", "u", (Std.ExtTreeMap.empty.insert "gcm"
      (.object [("text", .string "x")])).insert "apns" (.object [("text", .string "y")])⟩
    let registry := Registry.uniform ["gcm", "apns"] (.ofLimit Sender.idle 1)
    t.toEndpoint.resolve [a, b] = .ok b ∧
    ∃ c, run "id" ⟨1, "shop", [a, b]⟩ [s, t] request registry.route
        (⟨{}, [], none⟩ : Ledger MemoryStore) = .ok c ∧
      (c.dispatches.map fun d => (d.1.provider, d.1.notification, d.1.endpoints)) =
        [(a, ⟨Std.ExtTreeMap.empty.insert "text" "x"⟩, [s.toEndpoint, t.toEndpoint])] ∧
      ¬ SuitsAll [s, t] request (c.dispatches.map Prod.fst) := by
  intro a b s t request registry
  refine ⟨by decide +kernel, ?_⟩
  have hrun : (run "id" ⟨1, "shop", [a, b]⟩ [s, t] request registry.route
      (⟨{}, [], none⟩ : Ledger MemoryStore)).toOption.map (fun c =>
        c.dispatches.map fun d => (d.1.provider, d.1.notification, d.1.endpoints)) =
      some [(a, ⟨Std.ExtTreeMap.empty.insert "text" "x"⟩, [s.toEndpoint, t.toEndpoint])] := by
    decide +kernel
  obtain ⟨c, hc, hdispatches⟩ := exists_of_map_toOption hrun
  refine ⟨c, hc, hdispatches, fun hall => ?_⟩
  obtain ⟨d, hd, hd'⟩ := List.map_eq_singleton_iff.mp hdispatches
  rw [Prod.mk.injEq, Prod.mk.injEq] at hd'
  obtain ⟨hprovider, -, hendpoints⟩ := hd'
  obtain ⟨u, -, -, hu, hsuits⟩ := hall d.1 (by simp [hd]) t.toEndpoint (by simp [hendpoints])
  -- Whatever subscription the endpoint is taken for, it is of the second provider's type.
  have htype : u.providerType = "apns" := congrArg Endpoint.providerType hu
  have := hsuits.providerType
  rw [hprovider, htype] at this
  exact absurd this (by decide)

end Push

end PushDelivery
