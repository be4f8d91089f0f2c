import PushDelivery.Proofs.OrderedMap
import PushDelivery.Proofs.Push.Classification
import PushDelivery.Proofs.Resolution

/-!
# Plans

What is kept while a plan is made, one subscription after another. `Fits` holds for any providers:
each group belongs to a provider of the service, under its id, and has the notification that the
request holds for it. Where an id determines the provider's type, the shortcut through an open group
therefore refuses nothing less and nothing more than a look at each subscription by itself; where it
determines the provider, the plan is the one that `Subscription.classify` describes.
-/

namespace PushDelivery.PushPlan

variable {service : Service} {request : PushRequest} {plan plan' : PushPlan} {s : Subscription}
  {done rest : List Subscription}

/-- A property that holds at the start and is kept by each subscription holds of the plan. -/
theorem foldlM_add_induction {P : List Subscription → PushPlan → Prop}
    (hstep : ∀ done plan s plan', P done plan → add service request plan s = .ok plan' →
      P (done ++ [s]) plan')
    (h : P done plan) (hfold : rest.foldlM (add service request) plan = .ok plan') :
    P (done ++ rest) plan' := by
  induction rest generalizing done plan with
  | nil =>
    cases hfold
    simpa using h
  | cons s rest ih =>
    rw [List.foldlM_cons] at hfold
    cases hadd : add service request plan s with
    | error error =>
      rw [hadd] at hfold
      cases hfold
    | ok plan₁ =>
      rw [hadd] at hfold
      have := ih (hstep done plan s plan₁ h hadd) hfold
      simpa using this

/-- The plan of a push is made from the empty one, subscription by subscription. -/
theorem make_induction {P : List Subscription → PushPlan → Prop} {subscriptions : List Subscription}
    (h : P [] {})
    (hstep : ∀ done plan s plan', P done plan → add service request plan s = .ok plan' →
      P (done ++ [s]) plan')
    (hmake : make service subscriptions request = .ok plan) : P subscriptions plan := by
  unfold make at hmake
  split at hmake
  next => cases hmake
  next => exact foldlM_add_induction hstep h hmake

/-! ## The groups -/

theorem getElem?_join (plan : PushPlan) (id id' : Int64) (g : PushGroup) (e : Endpoint) :
    (plan.join id g e).groups[id']? =
      if id = id' then some { g with endpoints := g.endpoints ++ [e] } else plan.groups[id']? := by
  simp [join, Std.ExtTreeMap.getElem?_insert]

theorem getElem?_setGroup (plan : PushPlan) (g : PushGroup) (id : Int64) :
    (plan.setGroup g).groups[id]? = if g.provider.id = id then some g else plan.groups[id]? := by
  simp [setGroup, Std.ExtTreeMap.getElem?_insert]

/-- What a new group has comes to what the others have. -/
theorem flatMap_setGroup_perm {β : Type} (f : PushGroup → List β) {g : PushGroup}
    (h : plan.groups[g.provider.id]? = none) :
    ((plan.setGroup g).groups.values.flatMap f).Perm (f g ++ plan.groups.values.flatMap f) := by
  have hperm := (values_insert_perm plan.groups g.provider.id g).flatMap_right f
  rwa [← values_perm_of_none h, List.flatMap_cons] at hperm

/-- What an endpoint adds to its group it adds to all groups. -/
theorem flatMap_join_perm {β : Type} (f : PushGroup → List β) {id : Int64} {g : PushGroup}
    {e : Endpoint} {bs : List β} (h : plan.groups[id]? = some g)
    (hf : f { g with endpoints := g.endpoints ++ [e] } = f g ++ bs) :
    ((plan.join id g e).groups.values.flatMap f).Perm (bs ++ plan.groups.values.flatMap f) := by
  have hold := (values_perm_of_some h).flatMap_right f
  have hnew := (values_insert_perm plan.groups id
    { g with endpoints := g.endpoints ++ [e] }).flatMap_right f
  rw [List.flatMap_cons] at hold hnew
  rw [hf] at hnew
  apply hnew.trans
  apply (List.perm_append_comm.append_right _).trans
  rw [List.append_assoc]
  exact hold.symm.append_left bs

/-- A group of a provider of the service, under the provider's id and with what is sent to it. -/
structure GroupFits (service : Service) (request : PushRequest) (id : Int64) (g : PushGroup) :
    Prop where
  id : g.provider.id = id
  mem : g.provider ∈ service.providers
  send : Classification.ofProvider request g.provider = .send g.provider g.notification

def Fits (service : Service) (request : PushRequest) (plan : PushPlan) : Prop :=
  ∀ id g, plan.groups[id]? = some g → GroupFits service request id g

theorem Fits.empty : Fits service request {} := by
  intro id g h
  cases h

theorem Fits.of_add (h : Fits service request plan)
    (hadd : add service request plan s = .ok plan') : Fits service request plan' := by
  cases adds_of_add_eq hadd with
  | disabled | unresolved | emptyContent => exact h
  | @join p g _ _ hg =>
    intro id g' hg'
    rw [getElem?_join] at hg'
    split at hg'
    next hid =>
      cases hg'
      have hfits := h p.id g hg
      exact ⟨hfits.id.trans hid, hfits.mem, hfits.send⟩
    next => exact h id g' hg'
  | @send p n _ hr _ hp =>
    intro id g' hg'
    rw [getElem?_setGroup] at hg'
    split at hg'
    next hid =>
      cases hg'
      exact ⟨hid, Endpoint.mem_of_resolve hr, hp⟩
    next => exact h id g' hg'

theorem fits_of_make {subscriptions : List Subscription}
    (h : make service subscriptions request = .ok plan) : Fits service request plan :=
  make_induction (P := fun _ => Fits service request) .empty
    (fun _ _ _ _ h hadd => h.of_add hadd) h

/-! ## Refusals -/

open Classification (error? error?_ofProvider_congr)

/-- An id determines the type of a provider. -/
def IdsFixTypes (service : Service) : Prop :=
  ∀ p ∈ service.providers, ∀ q ∈ service.providers, p.id = q.id → p.providerType = q.providerType

theorem Fits.add_eq_error_iff (h : Fits service request plan) (hids : IdsFixTypes service)
    {error : PushError} :
    add service request plan s = .error error ↔
      (s.classify service request).error? = some error := by
  generalize hadd : add service request plan s = result
  cases adds_of_add_eq hadd with
  | disabled he => simp [Subscription.classify_of_disabled request service he, error?]
  | unresolved he hr => simp [Subscription.classify_of_unresolved request he hr, error?]
  | @join p g he hr hg =>
    -- The group was opened with content of this type, which had the right shape.
    have hfits := h p.id g hg
    have htype := hids p (Endpoint.mem_of_resolve hr) g.provider hfits.mem hfits.id.symm
    rw [Subscription.classify_of_resolved request he hr,
      error?_ofProvider_congr htype, hfits.send]
    simp [error?]
  | invalidContent he hr _ hp | emptyContent he hr _ hp | send he hr _ hp =>
    simp [Subscription.classify_of_resolved request he hr, hp, error?]

/-- The error of a plan is that of the first subscription which has one by itself. -/
theorem Fits.foldlM_add_eq_error_iff (h : Fits service request plan) (hids : IdsFixTypes service)
    {error : PushError} :
    rest.foldlM (add service request) plan = .error error ↔
      rest.findSome? (fun s => (s.classify service request).error?) = some error := by
  induction rest generalizing plan with
  | nil => simp [pure, Except.pure]
  | cons s rest ih =>
    have hs : ∀ error, add service request plan s = .error error ↔
        (s.classify service request).error? = some error := fun _ => h.add_eq_error_iff hids
    rw [List.foldlM_cons, List.findSome?_cons]
    cases hadd : add service request plan s with
    | error error' =>
      rw [(hs error').mp hadd]
      simp [bind, Except.bind]
    | ok plan₁ =>
      cases hc : (s.classify service request).error? with
      | none => exact ih (h.of_add hadd)
      | some error' =>
        have := (hs error').mpr hc
        rw [hadd] at this
        cases this

theorem make_eq_error_iff (hids : IdsFixTypes service) {subscriptions : List Subscription}
    {error : PushError} :
    make service subscriptions request = .error error ↔
      subscriptions = [] ∧ error = .noSubscriptions request.subscriber service.name ∨
      subscriptions.findSome? (fun s => (s.classify service request).error?) = some error := by
  unfold make
  split
  next he =>
    rw [List.isEmpty_iff.mp he]
    simp [eq_comm]
  next he =>
    have hne : subscriptions ≠ [] := by simpa using he
    rw [Fits.empty.foldlM_add_eq_error_iff hids]
    simp [hne]

/-! ## Agreement with the subscriptions taken one by one -/

/-- An id determines a provider. -/
def IdsFixProviders (service : Service) : Prop :=
  ∀ p ∈ service.providers, ∀ q ∈ service.providers, p.id = q.id → p = q

/-- A subscription that joins an open group is sent what the group was opened with, as it would be
by itself. -/
theorem Fits.classify_of_group (h : Fits service request plan) (hids : IdsFixProviders service)
    {p : Provider} {g : PushGroup} (he : s.enabled = true)
    (hr : s.toEndpoint.resolve service.providers = .ok p) (hg : plan.groups[p.id]? = some g) :
    s.classify service request = .send g.provider g.notification := by
  have hg' := h p.id g hg
  have hp : p = g.provider := hids p (Endpoint.mem_of_resolve hr) _ hg'.mem hg'.id.symm
  rw [Subscription.classify_of_resolved request he hr, hp, hg'.send]

/-- The subscriptions that are skipped by themselves. -/
def skippedAlone (service : Service) (request : PushRequest) (subscriptions : List Subscription) :
    List SkippedSubscription :=
  subscriptions.filterMap fun s => (s.classify service request).skipReason?.map (⟨s.id, ·⟩)

/-- The endpoints that are sent to through a provider by themselves. -/
def endpointsAlone (service : Service) (request : PushRequest) (subscriptions : List Subscription)
    (p : Provider) : List Endpoint :=
  (subscriptions.filter fun s => (s.classify service request).provider? = some p).map
    Subscription.toEndpoint

/-- A plan that agrees with the subscriptions taken one by one. -/
structure Represents (service : Service) (request : PushRequest) (done : List Subscription)
    (plan : PushPlan) : Prop where
  fits : Fits service request plan
  skipped : plan.skipped = skippedAlone service request done
  endpoints : ∀ (id : Int64) (g : PushGroup), plan.groups[id]? = some g →
    g.endpoints = endpointsAlone service request done g.provider ∧ g.endpoints ≠ []
  covers : ∀ s ∈ done, ∀ p, (s.classify service request).provider? = some p →
    plan.groups[p.id]? ≠ none

theorem skippedAlone_append_singleton :
    skippedAlone service request (done ++ [s]) = skippedAlone service request done ++
      ((s.classify service request).skipReason?.map (⟨s.id, ·⟩)).toList := by
  cases h : (s.classify service request).skipReason? <;> simp [skippedAlone, h]

theorem endpointsAlone_append_singleton (p : Provider) :
    endpointsAlone service request (done ++ [s]) p = endpointsAlone service request done p ++
      if (s.classify service request).provider? = some p then [s.toEndpoint] else [] := by
  by_cases h : (s.classify service request).provider? = some p <;> simp [endpointsAlone, h]

theorem endpointsAlone_eq_nil_iff {p : Provider} : endpointsAlone service request done p = [] ↔
    ∀ s ∈ done, (s.classify service request).provider? ≠ some p := by
  simp [endpointsAlone, List.filter_eq_nil_iff]

namespace Represents

theorem empty : Represents service request [] {} :=
  ⟨.empty, rfl, fun _ _ h => (by cases h), by simp⟩

/-- A subscription is skipped, by itself as in the plan. -/
theorem skip (h : Represents service request done plan) {reason : SkipReason}
    (hs : (s.classify service request).skipReason? = some reason)
    (hp : (s.classify service request).provider? = none) :
    Represents service request (done ++ [s]) (plan.skip s.id reason) where
  fits := h.fits
  skipped := by
    rw [skippedAlone_append_singleton, hs, ← h.skipped]
    rfl
  endpoints id g hg := by
    rw [endpointsAlone_append_singleton, hp]
    simpa using h.endpoints id g hg
  covers := by
    intro s' hs' p hp'
    rcases List.mem_append.mp hs' with hs' | hs'
    · exact h.covers s' hs' p hp'
    · rw [List.mem_singleton.mp hs', hp] at hp'
      cases hp'

/-- A subscription is sent to, by itself as in the plan: its endpoint comes last in the group of its
provider, which may be a new one. -/
theorem put (h : Represents service request done plan) {g : PushGroup}
    (hs : (s.classify service request).skipReason? = none)
    (hp : (s.classify service request).provider? = some g.provider)
    (hg : g.endpoints = endpointsAlone service request done g.provider ++ [s.toEndpoint])
    (hfits : Fits service request (plan.setGroup g)) :
    Represents service request (done ++ [s]) (plan.setGroup g) where
  fits := hfits
  skipped := by
    rw [skippedAlone_append_singleton, hs, ← h.skipped]
    simp [setGroup]
  endpoints id g' hg' := by
    rw [getElem?_setGroup] at hg'
    split at hg'
    next hid =>
      cases hg'
      simp [endpointsAlone_append_singleton, hp, hg]
    next hid =>
      have hne : g.provider ≠ g'.provider := by
        intro heq
        rw [heq] at hid
        exact hid (h.fits id g' hg').id
      rw [endpointsAlone_append_singleton, hp, if_neg (by simpa using hne), List.append_nil]
      exact h.endpoints id g' hg'
  covers := by
    intro s' hs' p hp'
    rw [getElem?_setGroup]
    split
    next => simp
    next hid =>
      rcases List.mem_append.mp hs' with hs' | hs'
      · exact h.covers s' hs' p hp'
      · rw [List.mem_singleton.mp hs', hp] at hp'
        cases hp'
        exact (hid rfl).elim

/-- A provider without a group has not been sent to. -/
theorem endpointsAlone_eq_nil (h : Represents service request done plan) {p : Provider}
    (hg : plan.groups[p.id]? = none) : endpointsAlone service request done p = [] :=
  endpointsAlone_eq_nil_iff.mpr fun s hs hp => h.covers s hs p hp hg

theorem of_add (h : Represents service request done plan) (hids : IdsFixProviders service)
    (hadd : add service request plan s = .ok plan') :
    Represents service request (done ++ [s]) plan' := by
  have hfits := h.fits.of_add hadd
  cases adds_of_add_eq hadd with
  | disabled he =>
    have hc := Subscription.classify_of_disabled request service he
    exact h.skip (by rw [hc]; rfl) (by rw [hc]; rfl)
  | unresolved he hr =>
    have hc := Subscription.classify_of_unresolved request he hr
    exact h.skip (by rw [hc]; rfl) (by rw [hc]; rfl)
  | @join p g he hr hg =>
    have hc := h.fits.classify_of_group hids he hr hg
    have hjoin : plan.join p.id g s.toEndpoint =
        plan.setGroup { g with endpoints := g.endpoints ++ [s.toEndpoint] } := by
      rw [join, setGroup, (h.fits p.id g hg).id]
    rw [hjoin] at hfits ⊢
    refine h.put (by rw [hc]; rfl) (by rw [hc]; rfl) ?_ hfits
    rw [(h.endpoints p.id g hg).1]
  | emptyContent he hr _ hp =>
    have hc := Subscription.classify_of_resolved request he hr
    rw [hp] at hc
    exact h.skip (by rw [hc]; rfl) (by rw [hc]; rfl)
  | send he hr hg hp =>
    have hc := Subscription.classify_of_resolved request he hr
    rw [hp] at hc
    refine h.put (by rw [hc]; rfl) (by rw [hc]; rfl) ?_ hfits
    rw [h.endpointsAlone_eq_nil hg, List.nil_append]

end Represents

theorem represents_of_make (hids : IdsFixProviders service) {subscriptions : List Subscription}
    (h : make service subscriptions request = .ok plan) :
    Represents service request subscriptions plan :=
  make_induction (P := Represents service request) .empty
    (fun _ _ _ _ h hadd => h.of_add hids hadd) h

end PushDelivery.PushPlan
