import PushDelivery.Proofs.Push.Running

/-!
# The course of a push

A push plans one subscription after another and starts its dispatches when it has planned the last
one; from then on they move in any order. `Advance` is one step of this, with the ledger and the
dispatches carried along from the start, so that it can be said of any moment, and of a push that
was refused, what has been done to them. `Push.run` takes one of the courses.

Courses in which somebody cancels a dispatch are left out: a push does not let go of its streams.
-/

namespace PushDelivery.Push

open Dispatch

/-- How far a push has come. -/
inductive Phase where
  | planning (plan : PushPlan) (rest : List Subscription)
  | dispatching (skipped : List SkippedSubscription)
  | refused (error : PushError)

/-- A push at some moment, with its dispatches and the ledger. -/
structure Course (σ : Type) where
  phase : Phase
  running : Running σ

variable {σ : Type} [SubscriptionStore σ]

/-- One step of a push. -/
inductive Advance (service : Service) (request : PushRequest) (route : String → Transport) :
    Course σ → Course σ → Prop
  | plan {plan plan' : PushPlan} {s : Subscription} {rest : List Subscription} {r : Running σ} :
      plan.add service request s = .ok plan' →
      Advance service request route ⟨.planning plan (s :: rest), r⟩ ⟨.planning plan' rest, r⟩
  | refuse {plan : PushPlan} {s : Subscription} {rest : List Subscription} {r : Running σ}
      {error : PushError} :
      plan.add service request s = .error error →
      Advance service request route ⟨.planning plan (s :: rest), r⟩ ⟨.refused error, r⟩
  | dispatch {plan : PushPlan} {r : Running σ} :
      Advance service request route ⟨.planning plan [], r⟩
        ⟨.dispatching plan.skipped, .start (plan.jobs route) r.ledger⟩
  | move {skipped : List SkippedSubscription} {r r' : Running σ} : r.Moves r' →
      Advance service request route ⟨.dispatching skipped, r⟩ ⟨.dispatching skipped, r'⟩

namespace Course

/-- A push at its start, about to plan unless there is nothing to push to. -/
def start (service : Service) (subscriptions : List Subscription) (request : PushRequest)
    (l : Ledger σ) : Course σ where
  phase :=
    if subscriptions.isEmpty then .refused (.noSubscriptions request.subscriber service.name)
    else .planning {} subscriptions
  running := ⟨l, []⟩

/-- The push comes from its start to this moment. -/
def Reachable (service : Service) (subscriptions : List Subscription) (request : PushRequest)
    (route : String → Transport) (l : Ledger σ) : Course σ → Prop :=
  Relation.ReflTransGen (Advance service request route) (start service subscriptions request l)

/-- What a push that goes on, or has gone on, has to do with its plan. Before the dispatches start
nothing has been done. -/
def Follows (service : Service) (subscriptions : List Subscription) (request : PushRequest)
    (route : String → Transport) (l : Ledger σ) (c : Course σ) : Prop :=
  match c.phase with
  | .planning plan rest => c.running = ⟨l, []⟩ ∧
      PushPlan.make service subscriptions request = rest.foldlM (PushPlan.add service request) plan
  | .refused error => c.running = ⟨l, []⟩ ∧
      PushPlan.make service subscriptions request = .error error
  | .dispatching skipped => ∃ plan : PushPlan,
      PushPlan.make service subscriptions request = .ok plan ∧ skipped = plan.skipped ∧
        (Running.start (plan.jobs route) l).Reaches c.running

variable {service : Service} {subscriptions : List Subscription} {request : PushRequest}
  {route : String → Transport} {l : Ledger σ} {c c' : Course σ}

theorem Follows.start : Follows service subscriptions request route l
    (Course.start service subscriptions request l) := by
  cases subscriptions with
  | nil => exact ⟨rfl, rfl⟩
  | cons s rest => exact ⟨rfl, rfl⟩

theorem Follows.advance (h : Follows service subscriptions request route l c)
    (ha : Advance service request route c c') :
    Follows service subscriptions request route l c' := by
  cases ha with
  | plan hadd =>
    obtain ⟨hr, hmake⟩ := h
    refine ⟨hr, hmake.trans ?_⟩
    rw [List.foldlM_cons, hadd]
    rfl
  | refuse hadd =>
    obtain ⟨hr, hmake⟩ := h
    refine ⟨hr, hmake.trans ?_⟩
    rw [List.foldlM_cons, hadd]
    rfl
  | dispatch =>
    obtain ⟨hr, hmake⟩ := h
    dsimp only at hr
    subst hr
    exact ⟨_, hmake, rfl, .refl⟩
  | move hm =>
    obtain ⟨plan, hmake, hskipped, hreaches⟩ := h
    exact ⟨plan, hmake, hskipped, hreaches.tail hm⟩

theorem Reachable.follows (h : Reachable service subscriptions request route l c) :
    Follows service subscriptions request route l c := by
  induction h with
  | refl => exact .start
  | tail _ ha ih => exact ih.advance ha

/-- Planning comes to its end, with what the plan says. -/
theorem reachable_of_foldlM {plan : PushPlan} {rest : List Subscription}
    (h : Reachable service subscriptions request route l ⟨.planning plan rest, ⟨l, []⟩⟩) :
    match rest.foldlM (PushPlan.add service request) plan with
    | .error error =>
      Reachable service subscriptions request route l ⟨.refused error, ⟨l, []⟩⟩
    | .ok plan =>
      Reachable service subscriptions request route l
        ⟨.dispatching plan.skipped, .start (plan.jobs route) l⟩ := by
  induction rest generalizing plan with
  | nil => exact h.tail .dispatch
  | cons s rest ih =>
    rw [List.foldlM_cons]
    cases hadd : plan.add service request s with
    | error error => exact h.tail (.refuse hadd)
    | ok plan' => exact ih (h.tail (.plan hadd))

theorem reachable_of_make (service : Service) (subscriptions : List Subscription)
    (request : PushRequest) (route : String → Transport) (l : Ledger σ) :
    match PushPlan.make service subscriptions request with
    | .error error => Reachable service subscriptions request route l ⟨.refused error, ⟨l, []⟩⟩
    | .ok plan =>
      Reachable service subscriptions request route l
        ⟨.dispatching plan.skipped, .start (plan.jobs route) l⟩ := by
  cases subscriptions with
  | nil => exact .refl
  | cons s rest => exact reachable_of_foldlM .refl

theorem Reachable.moves {skipped : List SkippedSubscription} {r r' : Running σ}
    (h : Reachable service subscriptions request route l ⟨.dispatching skipped, r⟩)
    (hr : r.Reaches r') :
    Reachable service subscriptions request route l ⟨.dispatching skipped, r'⟩ := by
  induction hr with
  | refl => exact h
  | tail _ hm ih => exact ih.tail (.move hm)

/-- The refused courses are those of a plan that fails, and they have done nothing. -/
theorem reachable_refused_iff {error : PushError} {r : Running σ} :
    Reachable service subscriptions request route l ⟨.refused error, r⟩ ↔
      r = ⟨l, []⟩ ∧ PushPlan.make service subscriptions request = .error error := by
  refine ⟨fun h => h.follows, fun ⟨hr, hmake⟩ => ?_⟩
  have := reachable_of_make service subscriptions request route l
  rw [hmake] at this
  rw [hr]
  exact this

end Course

/-- A push that has come to its end: all streams have ended, and the report is made of what was read
from them. -/
structure Completes (notificationId : String) (service : Service)
    (subscriptions : List Subscription) (request : PushRequest) (route : String → Transport)
    (l : Ledger σ) (c : Completed σ) : Prop where
  reachable : Course.Reachable service subscriptions request route l
    ⟨.dispatching c.report.skipped, ⟨c.ledger, c.dispatches⟩⟩
  ended : ∀ d ∈ c.dispatches, d.2.ended = true
  report : c.report = .ofResults notificationId c.report.skipped
    (c.dispatches.flatMap (·.2.history.taken))

variable {notificationId : String} {service : Service} {subscriptions : List Subscription}
  {request : PushRequest} {route : String → Transport} {l : Ledger σ} {c : Completed σ}

/-- What is computed of a success holds of it. -/
theorem exists_of_map_toOption {ε α β : Type} {x : Except ε α} {f : α → β} {b : β}
    (h : x.toOption.map f = some b) : ∃ a, x = .ok a ∧ f a = b := by
  cases x with
  | error e => cases h
  | ok a => exact ⟨a, rfl, Option.some.inj h⟩

theorem exists_of_mem_jobs {plan : PushPlan} {j : Job} (h : j ∈ plan.jobs route) :
    j.transport = route j.provider.providerType ∧ ∀ number e, j.cancels number e = false := by
  obtain ⟨g, -, rfl⟩ := List.mem_map.mp h
  exact ⟨rfl, fun _ _ => rfl⟩

theorem run_eq_error_iff {error : PushError} :
    run notificationId service subscriptions request route l = .error error ↔
      PushPlan.make service subscriptions request = .error error := by
  unfold run
  cases PushPlan.make service subscriptions request with
  | error error' => simp [bind, Except.bind]
  | ok plan => simp [bind, Except.bind, pure, Except.pure]

theorem exists_plan_of_run
    (h : run notificationId service subscriptions request route l = .ok c) :
    ∃ plan, PushPlan.make service subscriptions request = .ok plan ∧
      c = {
        report := .ofResults notificationId plan.skipped
          ((completeInOrder (plan.jobs route) l).1.flatMap (·.history.taken))
        dispatches := (plan.jobs route).zip (completeInOrder (plan.jobs route) l).1
        ledger := (completeInOrder (plan.jobs route) l).2 } := by
  unfold run at h
  cases hplan : PushPlan.make service subscriptions request with
  | error error =>
    rw [hplan] at h
    cases h
  | ok plan =>
    rw [hplan] at h
    cases h
    exact ⟨plan, rfl, rfl⟩

/-- The dispatches of a push are those of its plan, from start to end. -/
theorem Course.Reachable.exists_plan {skipped : List SkippedSubscription} {r : Running σ}
    (h : Reachable service subscriptions request route l ⟨.dispatching skipped, r⟩) :
    ∃ plan, PushPlan.make service subscriptions request = .ok plan ∧ skipped = plan.skipped ∧
      r.dispatches.map Prod.fst = plan.jobs route := by
  obtain ⟨plan, hmake, hskipped, hreaches⟩ := h.follows
  refine ⟨plan, hmake, hskipped, hreaches.jobs.trans ?_⟩
  simp [Running.start, Function.comp_def]

theorem Course.Reachable.sound {R : DeliveryResult → DeliveryResult → Prop}
    (hroute : ∀ providerType, (route providerType).Routed) (hl : l.Answers R)
    {skipped : List SkippedSubscription} {r : Running σ}
    (h : Reachable service subscriptions request route l ⟨.dispatching skipped, r⟩) :
    r.Sound R := by
  obtain ⟨plan, -, -, hreaches⟩ := h.follows
  refine hreaches.sound (.start hl (fun j hj => ?_) fun j hj => (exists_of_mem_jobs hj).2)
  rw [(exists_of_mem_jobs hj).1]
  exact hroute _

theorem Completes.transport_eq
    (h : Completes notificationId service subscriptions request route l c) :
    ∀ d ∈ c.dispatches, d.1.transport = route d.1.provider.providerType := by
  intro d hd
  obtain ⟨plan, -, -, hjobs⟩ := h.reachable.exists_plan
  have hd' : d.1 ∈ plan.jobs route := hjobs ▸ List.mem_map_of_mem hd
  exact (exists_of_mem_jobs hd').1

/-- Each dispatch of a completed push is settled. -/
theorem Completes.settled {R : DeliveryResult → DeliveryResult → Prop}
    (hroute : ∀ providerType, (route providerType).Routed) (hl : l.Answers R)
    (h : Completes notificationId service subscriptions request route l c) :
    ∀ d ∈ c.dispatches, Settled R d.1 d.2 := by
  intro d hd
  obtain ⟨hsound, hc⟩ := (h.reachable.sound hroute hl).dispatches d hd
  exact hsound.settled hc (h.ended d hd)

/-- A push that is run completes, over transports that can start. -/
theorem completes_of_run (hroute : ∀ providerType, (route providerType).Routed)
    (h : run notificationId service subscriptions request route l = .ok c) :
    Completes notificationId service subscriptions request route l c := by
  obtain ⟨plan, hplan, rfl⟩ := exists_plan_of_run h
  have hmake := Course.reachable_of_make service subscriptions request route l
  rw [hplan] at hmake
  have hrouted : ∀ j ∈ plan.jobs route, j.transport.Routed := by
    intro j hj
    rw [(exists_of_mem_jobs hj).1]
    exact hroute _
  obtain ⟨hreaches, hended⟩ := reaches_completeInOrder hrouted
    (fun j hj => (exists_of_mem_jobs hj).2) [] l
  refine ⟨hmake.moves hreaches, fun d hd => hended d.2 (List.of_mem_zip hd).2, ?_⟩
  have hsnd := List.map_snd_zip (Nat.le_of_eq (length_completeInOrder (plan.jobs route) l))
  dsimp only
  conv_lhs => rw [← hsnd, List.flatMap_map]
  rfl

end PushDelivery.Push
