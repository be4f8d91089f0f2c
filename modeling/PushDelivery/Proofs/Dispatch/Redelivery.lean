import PushDelivery.Proofs.Dispatch.Reconciling

/-!
# Results that are delivered twice

A reconciler that gets the same raw results again, or the reports that it made of them, over the
store that it left behind, makes the same reports again and leaves the store as it is. For a single
update this is plain. Among several for one subscription the first ones put older keys back, but the
last one is the same as before, and no update is left out that the store has taken.

The store is one that is held in memory. Nothing else may write to it in between.
-/

namespace PushDelivery

open Dispatch

namespace Ledger

variable {σ : Type} [SubscriptionStore σ] {R : DeliveryResult → DeliveryResult → Prop}
  {l l' : Ledger σ}

theorem Answers.reports (h : Answers R l) (rs : List DeliveryResult) :
    List.Forall₂ R rs (l.reports rs) := by
  induction rs generalizing l with
  | nil => exact .nil
  | cons r rs ih => exact .cons (h.reconcile r) (ih (h.of_store (l.store_reconcile r)))

/-- Over a steady store each result is reported by itself. -/
theorem reports_of_steady (h : Steady l.store) (rs : List DeliveryResult) :
    l.reports rs = rs.map fun r => (l.reconcile r).1 := by
  have hanswers := (l.answers_of_steady h).reports rs
  rw [← List.forall₂_eq_eq_eq, List.forall₂_map_right_iff]
  exact hanswers.flip

/-- A result is reported as it is, or as a store failure. -/
theorem reconcile_fst_cases (l : Ledger σ) (r : DeliveryResult) :
    (l.reconcile r).1 = r ∨ ∃ error, (l.reconcile r).1.error = some (.storeFailure error) := by
  unfold reconcile
  split
  next =>
    split
    next => exact .inl rfl
    next error _ _ => exact .inr ⟨error, rfl⟩
  next => exact .inl rfl

/-- A report is reconciled to itself as long as the store replies as it did. -/
theorem reconcile_reconcile
    (h : ∀ id key, (updateKey l'.store id key).1 = (updateKey l.store id key).1)
    (r : DeliveryResult) : (l'.reconcile (l.reconcile r).1).1 = (l.reconcile r).1 := by
  rcases l.reconcile_fst_cases r with hsame | ⟨error, hfailed⟩
  · rw [hsame, reconcile_congr l' r h, hsame]
  · rw [reconcile_of_ne (by simp [hfailed])]

section Memory

variable {l l' : Ledger MemoryStore} {rs : List DeliveryResult}

/-- A report still asks for an update if the store has taken it. -/
theorem request?_reconcile (l : Ledger MemoryStore) (r : DeliveryResult) :
    (l.reconcile r).1.request? = r.request?.filter fun u => u.1 ∈ l.store.entries := by
  rcases r.stale_cases with ⟨detail, he⟩ | he
  · cases hu : r.destination.requestedUpdate with
    | error error =>
      rw [reconcile_of_error he hu, request?_of_eq he, hu]
      exact request?_of_ne (by simp [settle])
    | ok u =>
      have hreply : (updateKey l.store u.1 u.2).1 =
          if u.1 ∈ l.store.entries then .ok () else .error (.subscriptionNotFound u.1) :=
        l.store.update_fst u.1 u.2
      rw [reconcile_of_ok he hu, hreply, request?_of_eq he, hu]
      by_cases hid : u.1 ∈ l.store.entries
      · rw [if_pos hid, settle, request?_of_eq he, hu]
        exact (Option.filter_some_pos (a := u) (decide_eq_true hid)).symm
      · rw [if_neg hid, request?_of_ne (by simp [settle])]
        exact (Option.filter_some_neg (a := u) (decide_eq_false hid)).symm
  · rw [reconcile_of_ne he, request?_of_ne he]
    rfl

theorem filterMap_request?_reports (l : Ledger MemoryStore) (rs : List DeliveryResult) :
    (l.reports rs).filterMap (·.request?) =
      (rs.filterMap (·.request?)).filter fun u => u.1 ∈ l.store.entries := by
  rw [reports_of_steady l.store.steady, List.filterMap_map, List.filter_filterMap]
  exact List.filterMap_congr fun r _ => request?_reconcile l r

section Again

variable (hstore : l'.store = (l.afterResults rs).store)
include hstore

theorem updateKey_fst_again (id : Int64) (key : String) :
    (updateKey l'.store id key).1 = (updateKey l.store id key).1 := by
  rw [hstore, store_afterResults]
  exact l.store.steady _ id key

theorem reports_again : l'.reports rs = l.reports rs := by
  rw [reports_of_steady l'.store.steady, reports_of_steady l.store.steady]
  exact List.map_congr_left fun r _ => l'.reconcile_congr r (updateKey_fst_again hstore)

theorem reports_reports : l'.reports (l.reports rs) = l.reports rs := by
  rw [reports_of_steady l'.store.steady, reports_of_steady l.store.steady,
    List.map_map]
  exact List.map_congr_left fun r _ => reconcile_reconcile (updateKey_fst_again hstore) r

theorem store_afterResults_again : (l'.afterResults rs).store = l'.store := by
  rw [store_afterResults, hstore, store_afterResults]
  exact l.store.afterUpdates_afterUpdates fun _ _ => rfl

theorem store_afterResults_reports : (l'.afterResults (l.reports rs)).store = l'.store := by
  rw [store_afterResults, hstore, store_afterResults, filterMap_request?_reports]
  -- What is left out are updates of subscriptions that are not there.
  refine l.store.afterUpdates_afterUpdates fun id hid => ?_
  rw [List.filter_filter]
  refine List.filter_congr fun u _ => ?_
  by_cases hu : u.1 = id
  · simp [hu, hid]
  · simp [hu]

end Again

end Memory

end Ledger

namespace Dispatch

variable {σ : Type} [SubscriptionStore σ] {j : Job} {results reports : List DeliveryResult}
  {l l' : Ledger σ}

/-- A reconciler goes through some raw results, in any dispatch and at any pace, with nothing to
interrupt it. -/
structure Goes (j : Job) (l : Ledger σ) (results reports : List DeliveryResult) (l' : Ledger σ) :
    Prop where
  run : ∃ s₀ labels s, Run j (s₀, l) labels (s, l') ∧ s₀.reconciler = .receiving ∧
    s₀.history = {} ∧ s₀.raw.queue ++ s.history.emitted = results ∧ s.cancelled = false ∧
    s.report.receiving = true ∧ s.reconciler.hasLeft = true ∧ s.history.reported = reports

/-- A reconciler can go through some raw results, and makes these reports and leaves this store
whenever it does. -/
structure Yields (j : Job) (l : Ledger σ) (results reports : List DeliveryResult) (store : σ) :
    Prop where
  reached : ∃ l', Goes j l results reports l'
  determined : ∀ reports' l', Goes j l results reports' l' → reports' = reports ∧ l'.store = store

theorem Goes.eq (h : Goes j l results reports l') :
    reports = l.reports results ∧ l'.store = (l.afterResults results).store := by
  obtain ⟨s₀, labels, s, hrun, hr, hs, rfl, hc, hreading, hleft, rfl⟩ := h.run
  have hprocessed := (Processed.start l j hr hs).of_events hrun.events
  obtain ⟨hreported, hstore, -⟩ := hprocessed.undisturbed hleft hc hreading
  exact ⟨hreported, hstore⟩

/-- A reconciler to which nothing comes any more, and whose consumer stays. -/
structure Alone (s : State) : Prop where
  transport : s.transport = .finished
  deliveries : s.deliveries = []
  emitted : s.history.emitted = []
  reading : s.report.receiving = false → s.cancelled = true

theorem Alone.move {label : Label} {s s' : State} (h : Alone s) (hm : Move j label s l s' l') :
    Alone s' := by
  have ht := h.transport
  have hd := h.deliveries
  cases hm with
  | exhaust | take | withdraw | offer | stop | collect | drain | reconcile | forsake | report
  | measure | consume => exact { h with }
  | cancel | drop => exact { h with reading := fun _ => rfl }
  | start _ hd' | answer _ hd' | discard _ hd' | emit _ hd' => simp [hd] at hd'
  | abort ht' => simp [ht] at ht'
  | acquire _ ht' | interrupt _ ht' | accept _ ht' | leave _ ht' | wind _ ht' | conclude _ ht'
  | heed _ ht' | fetch _ ht' | miss _ ht' | crash _ ht' | call _ ht' | lose _ ht' | send _ ht'
  | finish _ ht' => simp [ht] at ht'

theorem yields (j : Job) (l : Ledger σ) (results : List DeliveryResult) :
    Yields j l results (l.reports results) (l.afterResults results).store where
  reached := by
    obtain ⟨labels, s, l', hrun, hc, hr, hreported⟩ := exists_run_reconcilerStartAlone j l results
    have halone : Alone s := hrun.keeps (P := fun s _ => Alone s) (fun hm h => h.move hm)
      ⟨rfl, rfl, rfl, nofun⟩
    have hreading : s.report.receiving = true := by
      by_contra hn
      rw [halone.reading (by simpa using hn)] at hc
      cases hc
    refine ⟨l', _, labels, s, hrun, rfl, rfl, ?_, hc, hreading, by rw [hr]; rfl, hreported⟩
    -- All raw results were there from the start.
    rw [halone.emitted]
    exact List.append_nil _
  determined _ _ h := h.eq

/-- Whatever is in the store and whatever the results are, a reconciler makes some reports of them
and leaves some store. Over that store it makes the same reports again and leaves the same store,
both from the raw results and from those reports. -/
theorem redelivery_harmless (j : Job) (l : Ledger MemoryStore) (results : List DeliveryResult) :
    ∃ reports store, Yields j l results reports store ∧
      ∀ j' updates metrics,
        Yields j' ⟨store, updates, metrics⟩ results reports store ∧
        Yields j' ⟨store, updates, metrics⟩ reports reports store := by
  refine ⟨_, _, yields j l results, fun j' updates metrics => ?_⟩
  let l' : Ledger MemoryStore := ⟨(l.afterResults results).store, updates, metrics⟩
  have hstore : l'.store = (l.afterResults results).store := rfl
  have hagain := yields j' l' results
  have hreports := yields j' l' (l.reports results)
  rw [Ledger.reports_again hstore, Ledger.store_afterResults_again hstore] at hagain
  rw [Ledger.reports_reports hstore, Ledger.store_afterResults_reports hstore] at hreports
  exact ⟨hagain, hreports⟩

/-- Two keys for one subscription, and between them one for a subscription that is not there. The
older key is put back for a while, and the failure passes. -/
theorem redelivery_harmless_of_two_keys :
    let p : Provider := ⟨1, 1, "main", "gcm", ∅⟩
    let e (id : Int64) (key : String) : Endpoint :=
      ((⟨1, "gcm", "old", none, ∅⟩ : Endpoint).withSubscriptionId id).setReplacementKey key
    let stale (id : Int64) (key : String) : DeliveryResult :=
      ⟨p, e id key, none, some (.endpointKeyStale "old")⟩
    let missing : DeliveryResult :=
      ⟨p, e 8 "m", none, some (.storeFailure (.subscriptionNotFound 8))⟩
    let results : List DeliveryResult := [stale 7 "k", stale 8 "m", stale 7 "n"]
    let reports : List DeliveryResult := [stale 7 "k", missing, stale 7 "n"]
    let store : MemoryStore := .insert {} 7 "n"
    let j : Job := { provider := p, notification := {}, endpoints := [], transport := .rejecting }
    Yields j ⟨MemoryStore.insert {} 7 "old", [], none⟩ results reports store ∧
      Yields j ⟨store, [], none⟩ results reports store ∧
      Yields j ⟨store, [], none⟩ reports reports store := by
  intro p e stale missing results reports store j
  obtain ⟨reports', store', hfirst, hagain⟩ :=
    redelivery_harmless j ⟨MemoryStore.insert {} 7 "old", [], none⟩ results
  obtain ⟨l', hgoes⟩ := hfirst.reached
  have hreports : reports' = reports := hgoes.eq.1.trans (by decide +kernel)
  have hstore : store' = store := by
    rw [← (hfirst.determined _ _ hgoes).2, hgoes.eq.2]
    decide +kernel
  subst hreports hstore
  exact ⟨hfirst, hagain j [] none⟩

end Dispatch

end PushDelivery
