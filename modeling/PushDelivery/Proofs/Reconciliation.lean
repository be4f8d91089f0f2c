import Mathlib.Data.List.Nodup
import Mathlib.Data.List.Perm.Basic
import PushDelivery.Reconciliation

/-!
# Stores whose replies no update changes

A store is steady if it replies to an update in the same way whatever it was asked before. The three
stores are steady: entries held in memory because updates keep the set of ids, the other two because
they reply alike to everything. Over a steady store a result is reconciled in the same way at any
moment, so the order in which results come to the reconciler does not matter to what it reports.

What is held in memory after some updates does not depend on their order either, as long as they are
of different subscriptions.
-/

namespace PushDelivery

variable {σ : Type} [SubscriptionStore σ]

def afterUpdates (s : σ) (updates : List (Int64 × String)) : σ :=
  updates.foldl (fun s u => (updateKey s u.1 u.2).2) s

theorem afterUpdates_append (s : σ) (updates updates' : List (Int64 × String)) :
    afterUpdates s (updates ++ updates') = afterUpdates (afterUpdates s updates) updates' :=
  List.foldl_append

/-- No updates change what the store replies. -/
def Steady (s : σ) : Prop :=
  ∀ updates id key, (updateKey (afterUpdates s updates) id key).1 = (updateKey s id key).1

/-- It is enough that no single update of any such store changes the replies. -/
theorem steady_of_updateKey {P : σ → Prop} (hP : ∀ s id key, P s → P (updateKey s id key).2)
    (h : ∀ s id key id' key', P s →
      (updateKey (updateKey s id key).2 id' key').1 = (updateKey s id' key').1)
    {s : σ} (hs : P s) : Steady s := by
  intro updates
  induction updates generalizing s with
  | nil => exact fun _ _ => rfl
  | cons u updates ih =>
    intro id key
    exact (ih (hP s u.1 u.2 hs) id key).trans (h s u.1 u.2 id key hs)

namespace MemoryStore

@[simp] theorem mem_update (s : MemoryStore) (id id' : Int64) (key : String) :
    id' ∈ (s.update id key).2.entries ↔ id' ∈ s.entries := by
  unfold update
  split
  next h =>
    rw [insert, Std.ExtTreeMap.mem_insert, or_iff_right_of_imp]
    intro he
    rwa [← Std.LawfulEqOrd.eq_of_compare he]
  next => rfl

theorem update_fst (s : MemoryStore) (id : Int64) (key : String) :
    (s.update id key).1 = if id ∈ s.entries then .ok () else .error (.subscriptionNotFound id) := by
  unfold update
  split <;> rfl

theorem steady (s : MemoryStore) : Steady s := by
  refine steady_of_updateKey (P := fun _ => True) (fun _ _ _ _ => trivial) ?_ trivial
  intro s id key id' key' _
  show (update (update s id key).2 id' key').1 = (update s id' key').1
  simp only [update_fst, mem_update]

@[simp] theorem mem_afterUpdates (s : MemoryStore) (updates : List (Int64 × String)) (id : Int64) :
    id ∈ (afterUpdates s updates).entries ↔ id ∈ s.entries := by
  induction updates generalizing s with
  | nil => exact Iff.rfl
  | cons u updates ih => exact (ih _).trans (mem_update s u.1 id u.2)

theorem getElem?_update (s : MemoryStore) (id id' : Int64) (key : String) :
    (s.update id key).2.entries[id']? =
      if id = id' ∧ id ∈ s.entries then some key else s.entries[id']? := by
  unfold update
  split
  next h => simp [insert, Std.ExtTreeMap.getElem?_insert, h]
  next h => simp [h]

/-- A subscription that the store has ends with the key of its own last update, if there is one. -/
theorem getElem?_afterUpdates (s : MemoryStore) (updates : List (Int64 × String)) (id : Int64) :
    (afterUpdates s updates).entries[id]? = s.entries[id]?.map fun key =>
      ((updates.filter (·.1 = id)).getLast?.map Prod.snd).getD key := by
  induction updates generalizing s with
  | nil => simp [afterUpdates]
  | cons u updates ih =>
    -- What the first update leaves behind is what the others find if none of them is for `id`.
    refine (ih (s.update u.1 u.2).2).trans ?_
    rw [getElem?_update]
    by_cases hid : u.1 = id
    · subst hid
      rw [List.filter_cons_of_pos (by simp), List.getLast?_cons]
      by_cases hmem : u.1 ∈ s.entries
      · rw [if_pos ⟨rfl, hmem⟩, Std.ExtTreeMap.getElem?_eq_some_getElem hmem]
        cases (updates.filter (·.1 = u.1)).getLast? <;> rfl
      · simp [hmem]
    · rw [if_neg (fun h => hid h.1), List.filter_cons_of_neg (by simpa using hid)]

theorem getElem?_afterUpdates_of_notMem (s : MemoryStore) {updates : List (Int64 × String)}
    {id : Int64} (h : id ∉ updates.map Prod.fst) :
    (afterUpdates s updates).entries[id]? = s.entries[id]? := by
  have hnone : updates.filter (·.1 = id) = [] := by
    rw [List.filter_eq_nil_iff]
    intro u hu hid
    exact h (of_decide_eq_true hid ▸ List.mem_map_of_mem hu)
  rw [getElem?_afterUpdates, hnone]
  simp

theorem exists_getElem?_afterUpdates (s : MemoryStore) {updates : List (Int64 × String)}
    {id : Int64} (h : id ∈ updates.map Prod.fst) (hid : id ∈ s.entries) :
    ∃ key, (id, key) ∈ updates ∧ (afterUpdates s updates).entries[id]? = some key := by
  have hne : updates.filter (·.1 = id) ≠ [] := by
    obtain ⟨u, hu, rfl⟩ := List.mem_map.mp h
    exact List.ne_nil_of_mem (List.mem_filter.mpr ⟨hu, decide_eq_true rfl⟩)
  obtain ⟨u, hlast⟩ : ∃ u, (updates.filter (·.1 = id)).getLast? = some u :=
    ⟨_, List.getLast?_eq_some_getLast hne⟩
  obtain ⟨hu, hid'⟩ := List.mem_filter.mp (List.mem_of_getLast? hlast)
  refine ⟨u.2, ?_, ?_⟩
  · rw [← of_decide_eq_true hid']
    exact hu
  · rw [getElem?_afterUpdates, hlast, Std.ExtTreeMap.getElem?_eq_some_getElem hid]
    rfl

/-- Updates leave nothing to do for others that are, for each subscription that the store has, the
same ones in the same order. -/
theorem afterUpdates_afterUpdates (s : MemoryStore) {updates updates' : List (Int64 × String)}
    (h : ∀ id ∈ s.entries, updates'.filter (·.1 = id) = updates.filter (·.1 = id)) :
    afterUpdates (afterUpdates s updates) updates' = afterUpdates s updates := by
  suffices hentries : (afterUpdates (afterUpdates s updates) updates').entries =
      (afterUpdates s updates).entries from congrArg MemoryStore.mk hentries
  ext id : 1
  rw [getElem?_afterUpdates, getElem?_afterUpdates]
  by_cases hid : id ∈ s.entries
  · rw [h id hid, Std.ExtTreeMap.getElem?_eq_some_getElem hid]
    cases (updates.filter (·.1 = id)).getLast? <;> rfl
  · simp [hid]

theorem update_comm (s : MemoryStore) {id id' : Int64} (h : id ≠ id') (key key' : String) :
    ((s.update id key).2.update id' key').2 = ((s.update id' key').2.update id key).2 := by
  suffices hentries : ((s.update id key).2.update id' key').2.entries =
      ((s.update id' key').2.update id key).2.entries from congrArg MemoryStore.mk hentries
  ext x : 1
  simp only [getElem?_update, mem_update]
  by_cases hx : id = x
  · have hx' : id' ≠ x := fun he => h (hx.trans he.symm)
    simp [hx']
  · simp [hx]

/-- Updates of different subscriptions can be made in any order. -/
theorem afterUpdates_perm (s : MemoryStore) {updates updates' : List (Int64 × String)}
    (h : updates.Perm updates') (hids : (updates.map Prod.fst).Nodup) :
    afterUpdates s updates = afterUpdates s updates' := by
  refine h.foldl_eq' (fun u hu u' hu' s => ?_) s
  by_cases he : u = u'
  · rw [he]
  · have hne : u.1 ≠ u'.1 := fun hid => he (List.inj_on_of_nodup_map hids hu hu' hid)
    exact update_comm s hne u.2 u'.2

end MemoryStore

theorem RefusingStore.steady (s : RefusingStore) : Steady s :=
  steady_of_updateKey (P := fun _ => True) (fun _ _ _ _ => trivial) (fun _ _ _ _ _ _ => rfl) trivial

theorem AcceptingStore.steady (s : AcceptingStore) : Steady s :=
  steady_of_updateKey (P := fun _ => True) (fun _ _ _ _ => trivial) (fun _ _ _ _ _ _ => rfl) trivial

end PushDelivery

/-!
## What reconciling a result does

Reconciling a result keeps where it was sent and whether it failed; only the kind of a failure can
change. It asks at most one update of the store, and which one is known from the raw result alone.
Two ledgers whose stores reply alike therefore reconcile alike.
-/

namespace PushDelivery

namespace DeliveryResult

/-- The update that reconciling a raw result asks of the store. -/
def request? (r : DeliveryResult) : Option (Int64 × String) :=
  match r.error with
  | some (.endpointKeyStale _) => r.destination.requestedUpdate.toOption
  | _ => none

/-- Only a stale key is taken to the store. -/
theorem stale_cases (r : DeliveryResult) :
    (∃ detail, r.error = some (.endpointKeyStale detail)) ∨
      ∀ detail, r.error ≠ some (.endpointKeyStale detail) := by
  rw [← not_exists]
  exact em _

/-- Two results of one delivery, which differ at most in the kind of the failure. -/
structure Agrees (r r' : DeliveryResult) : Prop where
  provider : r'.provider = r.provider
  destination : r'.destination = r.destination
  messageId : r'.messageId = r.messageId
  isError : r'.isError = r.isError

theorem Agrees.refl (r : DeliveryResult) : r.Agrees r := ⟨rfl, rfl, rfl, rfl⟩

theorem Agrees.withError {r : DeliveryResult} {e e' : DispatchError} (he : r.error = some e) :
    r.Agrees { r with error := some e' } :=
  ⟨rfl, rfl, rfl, by simp [DeliveryResult.isError, he]⟩

end DeliveryResult

namespace Ledger

variable {σ : Type} [SubscriptionStore σ]

/-- The result after the store's reply, and what is counted. -/
def settle (l : Ledger σ) (r : DeliveryResult) : Except StoreError Unit → DeliveryResult × Ledger σ
  | .ok () => (r, l.observe (·.observeKeyUpdate true))
  | .error error =>
    ({ r with error := some (.storeFailure error) }, l.observe (·.observeKeyUpdate false))

section Cases

variable {l : Ledger σ} {r : DeliveryResult} {detail : String}

theorem reconcile_of_ne (h : ∀ detail, r.error ≠ some (.endpointKeyStale detail)) :
    l.reconcile r = (r, l) := by
  unfold reconcile
  split
  next he => exact (h _ he).elim
  next => rfl

theorem reconcile_of_error {error : StoreError} (he : r.error = some (.endpointKeyStale detail))
    (hu : r.destination.requestedUpdate = .error error) :
    l.reconcile r = l.settle r (.error error) := by
  simp [reconcile, writeBack, he, hu, settle]

theorem reconcile_of_ok {u : Int64 × String} (he : r.error = some (.endpointKeyStale detail))
    (hu : r.destination.requestedUpdate = .ok u) :
    l.reconcile r = (l.update u.1 u.2).2.settle r (updateKey l.store u.1 u.2).1 := by
  simp only [reconcile, writeBack, he, hu, update]
  cases (updateKey l.store u.1 u.2).1 <;> rfl

theorem request?_of_ne (h : ∀ detail, r.error ≠ some (.endpointKeyStale detail)) :
    r.request? = none := by
  unfold DeliveryResult.request?
  split
  next he => exact (h _ he).elim
  next => rfl

theorem request?_of_eq (he : r.error = some (.endpointKeyStale detail)) :
    r.request? = r.destination.requestedUpdate.toOption := by
  simp [DeliveryResult.request?, he]

end Cases

variable (l : Ledger σ) (r : DeliveryResult)

theorem agrees_reconcile : r.Agrees (l.reconcile r).1 := by
  unfold reconcile
  split
  next detail he =>
    split
    · exact .refl r
    · exact .withError he
  next => exact .refl r

theorem store_reconcile : (l.reconcile r).2.store = afterUpdates l.store r.request?.toList := by
  rcases r.stale_cases with ⟨detail, he⟩ | he
  · rw [request?_of_eq he]
    cases hu : r.destination.requestedUpdate with
    | error error =>
      rw [reconcile_of_error he hu]
      rfl
    | ok u =>
      rw [reconcile_of_ok he hu]
      cases (updateKey l.store u.1 u.2).1 <;> rfl
  · rw [reconcile_of_ne he, request?_of_ne he]
    rfl

/-- Stores that reply alike reconcile alike. -/
theorem reconcile_congr {l' : Ledger σ}
    (h : ∀ id key, (updateKey l.store id key).1 = (updateKey l'.store id key).1) :
    (l.reconcile r).1 = (l'.reconcile r).1 := by
  rcases r.stale_cases with ⟨detail, he⟩ | he
  · cases hu : r.destination.requestedUpdate with
    | error error =>
      rw [reconcile_of_error he hu, reconcile_of_error he hu]
      rfl
    | ok u =>
      rw [reconcile_of_ok he hu, reconcile_of_ok he hu, ← h]
      cases (updateKey l.store u.1 u.2).1 <;> rfl
  · rw [reconcile_of_ne he, reconcile_of_ne he]

/-- Whatever updates come first, a result is reconciled as `R` says. -/
def Answers (R : DeliveryResult → DeliveryResult → Prop) (l : Ledger σ) : Prop :=
  ∀ updates (l' : Ledger σ) r, l'.store = afterUpdates l.store updates → R r (l'.reconcile r).1

namespace Answers

variable {R : DeliveryResult → DeliveryResult → Prop} {l l' : Ledger σ}

theorem reconcile (h : Answers R l) (r : DeliveryResult) : R r (l.reconcile r).1 := h [] l r rfl

theorem of_store (h : Answers R l) {updates : List (Int64 × String)}
    (hl : l'.store = afterUpdates l.store updates) : Answers R l' := by
  intro updates' l'' r hl'
  apply h (updates ++ updates') l'' r
  rw [hl', hl, afterUpdates_append]

end Answers

theorem answers_agrees : Answers DeliveryResult.Agrees l := fun _ l' r _ => l'.agrees_reconcile r

/-- Whatever the store replies, a result that is no stale key is left as it is. -/
theorem answers_unless_stale : Answers
    (fun r r' => (∀ detail, r.error ≠ some (.endpointKeyStale detail)) → r' = r) l := by
  intro updates l' r _ hr
  rw [reconcile_of_ne hr]

/-- Over a steady store each result is reconciled as it would be at the start. -/
theorem answers_of_steady (h : Steady l.store) :
    Answers (fun r r' => r' = (l.reconcile r).1) l := by
  intro updates l' r hl
  apply reconcile_congr l' r
  intro id key
  rw [hl, h updates id key]

end Ledger

end PushDelivery
