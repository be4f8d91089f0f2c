import Mathlib.Data.Int.Order.Basic
import Mathlib.Data.List.Induction
import PushDelivery.Proofs.Push.Grouping
import PushDelivery.Proofs.Push.Rotation
import PushDelivery.Proofs.StableSort

/-!
# What a push sends, in the order of its subscriptions

A group is opened by the first subscription that by itself is sent to through a provider of the
group's id. From then on every subscription whose provider has this id is sent to with the group's
provider and notification. `sendings` says so of a list of subscriptions, without a plan and
whatever the ids of the service's providers are. The groups of a plan are these sendings, the ones
of each id in their order; so its jobs, one after another, are the stable sort of the sendings by
id.
-/

namespace PushDelivery

namespace PushPlan

section Definitions

variable (service : Service) (request : PushRequest)

/-- What the subscription opens the group of an id with, if there is none. -/
def opens? (id : Int64) (s : Subscription) : Option (Provider × Notification) :=
  match s.classify service request with
  | .send p n => if p.id = id then some (p, n) else none
  | _ => none

/-- What the group of an id is opened with. -/
def opening? (id : Int64) (subscriptions : List Subscription) : Option (Provider × Notification) :=
  subscriptions.findSome? (opens? service request id)

/-- How a subscription is sent to, by what has been opened until then. -/
def sending? (upTo : List Subscription) (s : Subscription) : Option Sending :=
  if !s.enabled then none
  else
    match s.toEndpoint.resolve service.providers with
    | .error _ => none
    | .ok p => (opening? service request p.id upTo).map fun o => ⟨o.1, o.2, s⟩

/-- The subscriptions that are sent to, each with its group's provider and notification. -/
def sendings (subscriptions : List Subscription) : List Sending :=
  subscriptions.zipIdx.filterMap fun x =>
    sending? service request (subscriptions.take (x.2 + 1)) x.1

/-- The sendings through providers of an id. -/
def sendingsThrough (id : Int64) (subscriptions : List Subscription) : List Sending :=
  (sendings service request subscriptions).filter (·.provider.id = id)

end Definitions

variable {service : Service} {request : PushRequest} {plan plan' : PushPlan} {s : Subscription}
  {subscriptions done : List Subscription} {id : Int64}

theorem opening?_concat (id : Int64) : opening? service request id (done ++ [s]) =
    (opening? service request id done).or (opens? service request id s) := by
  simp [opening?, List.findSome?_append]

theorem id_of_opening? {o : Provider × Notification}
    (h : opening? service request id subscriptions = some o) : o.1.id = id := by
  obtain ⟨s, -, hs⟩ := List.exists_of_findSome?_eq_some h
  unfold opens? at hs
  split at hs
  next =>
    split at hs
    next hid => cases hs; exact hid
    next => cases hs
  next => cases hs

/-- A subscription opens no group but that of its provider. -/
theorem opens?_eq_none {p : Provider} (he : s.enabled = true)
    (hr : s.toEndpoint.resolve service.providers = .ok p) (hid : p.id ≠ id) :
    opens? service request id s = none := by
  unfold opens?
  rw [Subscription.classify_of_resolved request he hr]
  split
  next q n hq =>
    obtain rfl := eq_of_ofProvider_eq_send hq
    exact if_neg hid
  next => rfl

theorem sendings_concat : sendings service request (done ++ [s]) =
    sendings service request done ++ (sending? service request (done ++ [s]) s).toList := by
  have hdone : ∀ x ∈ done.zipIdx, (done ++ [s]).take (x.2 + 1) = done.take (x.2 + 1) := by
    intro x hx
    have hlt : x.2 < done.length := List.snd_lt_of_mem_zipIdx hx
    exact List.take_append_of_le_length hlt
  have hold : done.zipIdx.filterMap (fun x =>
      sending? service request ((done ++ [s]).take (x.2 + 1)) x.1) =
      sendings service request done :=
    List.filterMap_congr fun x hx => by rw [hdone x hx]
  have hlast : (done ++ [s]).take (done.length + 1) = done ++ [s] :=
    List.take_of_length_le (by simp)
  rw [sendings, List.zipIdx_append, List.filterMap_append, hold]
  cases h : sending? service request (done ++ [s]) s <;> simp [hlast, h]

theorem sending?_of_resolved {p : Provider} (he : s.enabled = true)
    (hr : s.toEndpoint.resolve service.providers = .ok p) :
    sending? service request done s =
      (opening? service request p.id done).map fun o => ⟨o.1, o.2, s⟩ := by
  simp [sending?, he, hr]

theorem resolve_of_sending? {x : Sending} (h : sending? service request subscriptions s = some x) :
    x.subscription = s ∧ s.enabled = true ∧
      ∃ p, s.toEndpoint.resolve service.providers = .ok p ∧ p.id = x.provider.id := by
  unfold sending? at h
  split at h
  next => cases h
  next he =>
    split at h
    next => cases h
    next p hr =>
      obtain ⟨o, ho, rfl⟩ := Option.map_eq_some_iff.mp h
      exact ⟨rfl, by simpa using he, p, hr, (id_of_opening? ho).symm⟩

theorem resolve_of_mem_sendings {x : Sending} (h : x ∈ sendings service request subscriptions) :
    x.subscription.enabled = true ∧
      ∃ p, x.subscription.toEndpoint.resolve service.providers = .ok p ∧
        p.id = x.provider.id := by
  obtain ⟨⟨s, i⟩, -, hs⟩ := List.mem_filterMap.mp h
  obtain ⟨rfl, hresolve⟩ := resolve_of_sending? hs
  exact hresolve

/-- Each subscription is sent to at most once, in the order of the list. -/
theorem sendings_sublist (subscriptions : List Subscription) :
    ((sendings service request subscriptions).map Sending.subscription).Sublist
      subscriptions := by
  induction subscriptions using List.reverseRecOn with
  | nil => exact .slnil
  | append_singleton done s ih =>
    rw [sendings_concat, List.map_append]
    refine ih.append ?_
    cases h : sending? service request (done ++ [s]) s with
    | none => exact List.nil_sublist _
    | some x => simp [(resolve_of_sending? h).1]

/-- The groups of a plan are the sendings of what has been planned. -/
structure Sends (service : Service) (request : PushRequest) (done : List Subscription)
    (plan : PushPlan) : Prop where
  groups : ∀ id, plan.groups[id]? = (opening? service request id done).map fun o =>
    ⟨o.1, o.2, (sendingsThrough service request id done).map (·.subscription.toEndpoint)⟩
  opened : ∀ x ∈ sendings service request done,
    opening? service request x.provider.id done = some (x.provider, x.notification)

namespace Sends

theorem empty : Sends service request [] {} where
  groups _ := rfl
  opened := nofun

/-- A subscription that joins no group and opens none. -/
theorem leave (h : Sends service request done plan)
    (hopens : ∀ id, opening? service request id done = none → opens? service request id s = none)
    (hsending : sending? service request (done ++ [s]) s = none)
    (hgroups : plan'.groups = plan.groups) : Sends service request (done ++ [s]) plan' := by
  have hopening : ∀ id, opening? service request id (done ++ [s]) =
      opening? service request id done := by
    intro id
    rw [opening?_concat]
    cases ho : opening? service request id done with
    | none => exact hopens id ho
    | some o => rfl
  have hsendings : sendings service request (done ++ [s]) = sendings service request done := by
    simp [sendings_concat, hsending]
  constructor
  case groups =>
    intro id
    rw [hgroups, h.groups, hopening, sendingsThrough, sendingsThrough, hsendings]
  case opened =>
    intro x hx
    rw [hsendings] at hx
    rw [hopening]
    exact h.opened x hx

/-- A subscription that opens a group or joins one. -/
theorem put {x : Sending} (h : Sends service request done plan)
    (hopening : ∀ id, opening? service request id (done ++ [s]) =
      if x.provider.id = id then some (x.provider, x.notification)
      else opening? service request id done)
    (hopen : ∀ o, opening? service request x.provider.id done = some o →
      o = (x.provider, x.notification))
    (hsending : sending? service request (done ++ [s]) s = some x)
    (hgroups : ∀ id, plan'.groups[id]? =
      if x.provider.id = id then some ⟨x.provider, x.notification,
        (sendingsThrough service request id done).map (·.subscription.toEndpoint) ++
          [x.subscription.toEndpoint]⟩
      else plan.groups[id]?) : Sends service request (done ++ [s]) plan' := by
  have hsendings : sendings service request (done ++ [s]) =
      sendings service request done ++ [x] := by
    simp [sendings_concat, hsending]
  constructor
  case groups =>
    intro id
    rw [hgroups, hopening, sendingsThrough, sendingsThrough, hsendings, List.filter_append]
    by_cases hid : x.provider.id = id
    · simp [hid]
    · simp [hid, h.groups, sendingsThrough]
  case opened =>
    intro y hy
    rw [hopening]
    rw [hsendings, List.mem_append, List.mem_singleton] at hy
    rcases hy with hy | rfl
    · have hold := h.opened y hy
      split
      next hid => rw [← hopen _ (hid ▸ hold)]
      next => exact hold
    · exact if_pos rfl

theorem join {p : Provider} {g : PushGroup} (h : Sends service request done plan)
    (he : s.enabled = true) (hr : s.toEndpoint.resolve service.providers = .ok p)
    (hg : plan.groups[p.id]? = some g) :
    Sends service request (done ++ [s]) (plan.join p.id g s.toEndpoint) := by
  rw [h.groups] at hg
  obtain ⟨o, ho, rfl⟩ := Option.map_eq_some_iff.mp hg
  have hid : o.1.id = p.id := id_of_opening? ho
  have hopening : ∀ id, opening? service request id (done ++ [s]) =
      if o.1.id = id then some o else opening? service request id done := by
    intro id
    rw [opening?_concat]
    split
    next hid' => rw [← hid', hid, ho, Option.some_or]
    next hid' => rw [opens?_eq_none he hr (hid ▸ hid'), Option.or_none]
  have hsending : sending? service request (done ++ [s]) s = some ⟨o.1, o.2, s⟩ := by
    rw [sending?_of_resolved he hr, hopening, if_pos hid, Option.map_some]
  refine h.put hopening (fun o' ho' => ?_) hsending fun id => ?_
  · exact Option.some.inj (ho'.symm.trans (hid ▸ ho))
  · rw [getElem?_join, hid]
    split
    next hid' => rw [hid']
    next => rfl

theorem setGroup {p : Provider} {n : Notification} (h : Sends service request done plan)
    (he : s.enabled = true) (hr : s.toEndpoint.resolve service.providers = .ok p)
    (hg : plan.groups[p.id]? = none) (hp : Classification.ofProvider request p = .send p n) :
    Sends service request (done ++ [s]) (plan.setGroup ⟨p, n, [s.toEndpoint]⟩) := by
  have hnone : opening? service request p.id done = none := by
    simpa [h.groups] using hg
  have hopening : ∀ id, opening? service request id (done ++ [s]) =
      if p.id = id then some (p, n) else opening? service request id done := by
    intro id
    rw [opening?_concat, opens?, Subscription.classify_of_resolved request he hr, hp]
    dsimp only
    split
    next hid => rw [← hid, hnone, Option.none_or]
    next => rw [Option.or_none]
  have hsending : sending? service request (done ++ [s]) s = some ⟨p, n, s⟩ := by
    rw [sending?_of_resolved he hr, hopening, if_pos rfl, Option.map_some]
  -- Nothing has been sent through this id, since that takes an open group.
  have hfirst : sendingsThrough service request p.id done = [] := by
    refine List.filter_eq_nil_iff.mpr fun x hx hid => ?_
    have hopened := h.opened x hx
    rw [of_decide_eq_true hid, hnone] at hopened
    cases hopened
  refine h.put hopening (fun o ho => ?_) hsending fun id => ?_
  · rw [hnone] at ho
    cases ho
  · rw [getElem?_setGroup]
    split
    next hid => rw [← hid, hfirst]; rfl
    next => rfl

theorem of_add (h : Sends service request done plan)
    (hadd : add service request plan s = .ok plan') :
    Sends service request (done ++ [s]) plan' := by
  cases adds_of_add_eq hadd with
  | disabled he =>
    refine h.leave (fun id _ => ?_) (by simp [sending?, he]) rfl
    rw [opens?, Subscription.classify_of_disabled request service he]
  | unresolved he hr =>
    refine h.leave (fun id _ => ?_) (by simp [sending?, he, hr]) rfl
    rw [opens?, Subscription.classify_of_unresolved request he hr]
  | @emptyContent p he hr hg hp =>
    have hopens : ∀ id, opens? service request id s = none := by
      intro id
      rw [opens?, Subscription.classify_of_resolved request he hr, hp]
    refine h.leave (fun id _ => hopens id) ?_ rfl
    have hnone : opening? service request p.id done = none := by
      simpa [h.groups] using hg
    simp [sending?_of_resolved he hr, opening?_concat, hnone, hopens]
  | join he hr hg => exact h.join he hr hg
  | send he hr hg hp => exact h.setGroup he hr hg hp

end Sends

theorem sends_of_make (h : make service subscriptions request = .ok plan) :
    Sends service request subscriptions plan :=
  make_induction (P := Sends service request) .empty (fun _ _ _ _ h hadd => h.of_add hadd) h

theorem pairwise_ids (plan : PushPlan) :
    (plan.groups.toList.map (·.1.toInt)).Pairwise (· < ·) := by
  rw [List.pairwise_map]
  refine plan.groups.ordered_keys_toList.imp fun {a b} hlt => ?_
  rwa [Std.compare_eq_lt, Int64.lt_iff_toInt_lt] at hlt

/-- The jobs of a plan, one after another, send what the subscriptions give cause for, in the order
of the providers' ids and within one id in that of the subscriptions. -/
theorem flatMap_jobs_eq (h : make service subscriptions request = .ok plan)
    (route : String → Transport) :
    (plan.jobs route).flatMap (fun j => j.endpoints.map fun e => (j.provider, j.notification, e)) =
      (sortByKey (·.provider.id.toInt) (sendings service request subscriptions)).map
        Sending.call := by
  have hsends := sends_of_make h
  have hmem : ∀ x ∈ sendings service request subscriptions,
      x.provider.id.toInt ∈ plan.groups.toList.map (·.1.toInt) := by
    intro x hx
    have hgroup := hsends.groups x.provider.id
    rw [hsends.opened x hx, Option.map_some] at hgroup
    exact List.mem_map.mpr ⟨(_, _), Std.ExtTreeMap.mem_toList_iff_getElem?_eq_some.mpr hgroup, rfl⟩
  rw [← flatMap_filter_eq_sortByKey (pairwise_ids plan) hmem, List.flatMap_map, List.map_flatMap,
    jobs, values_eq_map_toList, List.map_map, List.flatMap_map]
  refine List.flatMap_congr ?_
  rintro ⟨id, g⟩ hg
  rw [Std.ExtTreeMap.mem_toList_iff_getElem?_eq_some, hsends.groups] at hg
  obtain ⟨o, ho, rfl⟩ := Option.map_eq_some_iff.mp hg
  have hthrough : (sendings service request subscriptions).filter
      (·.provider.id.toInt = id.toInt) = sendingsThrough service request id subscriptions := by
    simp only [sendingsThrough, Int64.toInt_inj]
  have hcall : ∀ x ∈ sendingsThrough service request id subscriptions,
      (o.1, o.2, x.subscription.toEndpoint) = x.call := by
    intro x hx
    obtain ⟨hx, hid⟩ := List.mem_filter.mp hx
    have hopened := hsends.opened x hx
    rw [of_decide_eq_true hid, ho] at hopened
    rw [Option.some.inj hopened]
    rfl
  dsimp only [Function.comp_apply]
  rw [hthrough, List.map_map]
  exact List.map_congr_left hcall

end PushPlan

end PushDelivery
