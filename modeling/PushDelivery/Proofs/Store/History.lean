import Mathlib.Data.List.Induction
import PushDelivery.Proofs.Reconciliation

/-!
# The history of a store

Entries held in memory are a map from subscriptions to keys. An insertion writes an entry whatever
is there, an update only where one is. So the subscriptions that are there after a history are those
that it inserts, each under the key of the last request for it that succeeded. A request sees and
changes the entry of its own subscription only: requests of different subscriptions can be
exchanged, and a request that is repeated at once changes nothing more.
-/

namespace PushDelivery.MemoryStore

/-- What a store can be asked to write. -/
inductive Request where
  | insert (id : Int64) (key : String)
  | update (id : Int64) (key : String)
  deriving DecidableEq

def Request.id : Request → Int64
  | .insert id _ | .update id _ => id

def Request.key : Request → String
  | .insert _ key | .update _ key => key

/-- The reply to a request, and the store after it. An insertion always succeeds. -/
def perform (s : MemoryStore) : Request → Except StoreError Unit × MemoryStore
  | .insert id key => (.ok (), s.insert id key)
  | .update id key => s.update id key

def after (s : MemoryStore) (history : List Request) : MemoryStore :=
  history.foldl (fun s q => (s.perform q).2) s

def replies (s : MemoryStore) : List Request → List (Except StoreError Unit)
  | [] => []
  | q :: history => (s.perform q).1 :: (s.perform q).2.replies history

/-- A history inserts a subscription. -/
def Inserts (history : List Request) (id : Int64) : Prop := ∃ key, .insert id key ∈ history

variable {s s' : MemoryStore} {q q' : Request} {history later : List Request} {id : Int64}

@[simp] theorem after_nil (s : MemoryStore) : s.after [] = s := rfl

@[simp] theorem after_cons (s : MemoryStore) (q : Request) (history : List Request) :
    s.after (q :: history) = (s.perform q).2.after history := rfl

@[simp] theorem after_append (s : MemoryStore) (first second : List Request) :
    s.after (first ++ second) = (s.after first).after second :=
  List.foldl_append

theorem replies_append (s : MemoryStore) (first second : List Request) :
    s.replies (first ++ second) = s.replies first ++ (s.after first).replies second := by
  induction first generalizing s with
  | nil => rfl
  | cons q first ih => simp [replies, ih]

@[simp] theorem length_replies (s : MemoryStore) (history : List Request) :
    (s.replies history).length = history.length := by
  induction history generalizing s with
  | nil => rfl
  | cons q history ih => simp [replies, ih]

theorem ext_getElem? (h : ∀ id : Int64, s.entries[id]? = s'.entries[id]?) : s = s' :=
  congrArg mk (Std.ExtTreeMap.ext_getElem? h)

theorem inserts_append {first second : List Request} :
    Inserts (first ++ second) id ↔ Inserts first id ∨ Inserts second id := by
  simp only [Inserts, List.mem_append, exists_or]

@[simp] theorem not_inserts_nil : ¬ Inserts [] id := nofun

@[simp] theorem inserts_insert {id' : Int64} {key : String} :
    Inserts [.insert id' key] id ↔ id' = id := by
  simp [Inserts, eq_comm]

@[simp] theorem not_inserts_update {id' : Int64} {key : String} :
    ¬ Inserts [.update id' key] id := by
  simp [Inserts]

/-! ## One request -/

/-- A request writes its key, unless it fails, and touches no other entry. -/
theorem getElem?_perform (s : MemoryStore) (q : Request) (id : Int64) :
    (s.perform q).2.entries[id]? =
      if q.id = id ∧ (s.perform q).1 = .ok () then some q.key else s.entries[id]? := by
  cases q with
  | insert id' key =>
    simp [perform, insert, Std.ExtTreeMap.getElem?_insert, Request.id, Request.key]
  | update id' key =>
    rw [perform, getElem?_update, update_fst]
    by_cases h : id' ∈ s.entries <;> simp [h, Request.id, Request.key]

theorem getElem?_perform_of_ne (s : MemoryStore) (h : q.id ≠ id) :
    (s.perform q).2.entries[id]? = s.entries[id]? := by
  rw [getElem?_perform, if_neg fun h' => h h'.1]

theorem mem_perform (s : MemoryStore) (q : Request) (id : Int64) :
    id ∈ (s.perform q).2.entries ↔ id ∈ s.entries ∨ Inserts [q] id := by
  cases q with
  | insert id' key => simp [perform, insert, or_comm]
  | update id' key => simp [perform]

/-- What a request is replied depends on whether its own subscription is there. -/
theorem perform_fst_congr (h : s.entries[q.id]? = s'.entries[q.id]?) :
    (s.perform q).1 = (s'.perform q).1 := by
  cases q with
  | insert id key => rfl
  | update id key =>
    have hmem : id ∈ s.entries ↔ id ∈ s'.entries := by
      rw [Std.ExtTreeMap.mem_iff_isSome_getElem?, Std.ExtTreeMap.mem_iff_isSome_getElem?]
      exact iff_of_eq (congrArg (fun key? => key?.isSome = true) h)
    simp only [perform, update_fst, hmem]

theorem perform_fst_of_mem (h : q.id ∈ s.entries) : (s.perform q).1 = .ok () := by
  cases q with
  | insert id key => rfl
  | update id key => exact (update_fst s id key).trans (if_pos h)

theorem update_eq_of_notMem (h : id ∉ s.entries) (key : String) :
    s.update id key = (.error (.subscriptionNotFound id), s) := if_neg h

/-- A request that is repeated at once gets the same reply and changes nothing more. -/
theorem perform_perform (s : MemoryStore) (q : Request) :
    (s.perform q).2.perform q = s.perform q := by
  have hreply : ((s.perform q).2.perform q).1 = (s.perform q).1 := by
    cases q with
    | insert id key => rfl
    | update id key => simp [perform, update_fst]
  refine Prod.ext hreply (ext_getElem? fun id => ?_)
  rw [getElem?_perform, hreply]
  split
  next h => rw [getElem?_perform, if_pos h]
  next => rfl

theorem perform_comm (s : MemoryStore) (h : q.id ≠ q'.id) :
    ((s.perform q).2.perform q').2 = ((s.perform q').2.perform q).2 := by
  refine ext_getElem? fun id => ?_
  by_cases hid : q.id = id
  · subst hid
    rw [getElem?_perform_of_ne _ h.symm, getElem?_perform, getElem?_perform,
      perform_fst_congr (getElem?_perform_of_ne s h.symm), getElem?_perform_of_ne s h.symm]
  · rw [getElem?_perform_of_ne _ hid, getElem?_perform _ q', getElem?_perform _ q',
      perform_fst_congr (getElem?_perform_of_ne s h), getElem?_perform_of_ne s hid]

/-! ## Many requests -/

theorem mem_after (s : MemoryStore) (history : List Request) (id : Int64) :
    id ∈ (s.after history).entries ↔ id ∈ s.entries ∨ Inserts history id := by
  induction history generalizing s with
  | nil => simp
  | cons q history ih =>
    rw [after_cons, ih, mem_perform, or_assoc, ← inserts_append, List.singleton_append]

theorem mem_after_empty : id ∈ (after {} history).entries ↔ Inserts history id := by
  rw [mem_after]
  exact or_iff_right Std.ExtTreeMap.not_mem_empty

/-- Requests for other subscriptions leave an entry alone. -/
theorem getElem?_after_of_forall_ne (s : MemoryStore) (h : ∀ q ∈ later, q.id ≠ id) :
    (s.after later).entries[id]? = s.entries[id]? := by
  induction later generalizing s with
  | nil => rfl
  | cons q later ih =>
    obtain ⟨hq, hlater⟩ := List.forall_mem_cons.mp h
    rw [after_cons, ih _ hlater, getElem?_perform_of_ne s hq]

/-- The key of a subscription is the one of the last request for it that succeeded. -/
theorem getElem?_after_eq_some_iff {key : String} :
    (after {} history).entries[id]? = some key ↔
      ∃ before q later, history = before ++ q :: later ∧ q.id = id ∧ q.key = key ∧
        ((after {} before).perform q).1 = .ok () ∧ ∀ q' ∈ later, q'.id ≠ id := by
  constructor
  · -- The last request is the one, or the entry was there without it.
    intro h
    induction history using List.reverseRecOn with
    | nil => exact absurd h (by simp)
    | append_singleton history q ih =>
      rw [after_append, after_cons, after_nil, getElem?_perform] at h
      split at h
      next hq => exact ⟨history, q, [], rfl, hq.1, Option.some.inj h, hq.2, nofun⟩
      next hq =>
        obtain ⟨before, q', later, rfl, hid, hkey, hok, hlater⟩ := ih h
        refine ⟨before, q', later ++ [q], by simp, hid, hkey, hok, ?_⟩
        rw [List.forall_mem_append, List.forall_mem_singleton]
        refine ⟨hlater, fun hqid => hq ⟨hqid, perform_fst_of_mem ?_⟩⟩
        rw [hqid]
        exact Std.ExtTreeMap.mem_iff_isSome_getElem?.mpr (Option.isSome_of_eq_some h)
  · rintro ⟨before, q, later, rfl, rfl, rfl, hok, hlater⟩
    rw [after_append, after_cons, getElem?_after_of_forall_ne _ hlater, getElem?_perform,
      if_pos ⟨rfl, hok⟩]

/-- Requests of different subscriptions can be exchanged, and their replies with them. -/
theorem exchange (s : MemoryStore) (h : q.id ≠ q'.id) (history later : List Request) :
    s.after (history ++ q' :: q :: later) = s.after (history ++ q :: q' :: later) ∧
      ∃ first r r' rest, first.length = history.length ∧
        s.replies (history ++ q :: q' :: later) = first ++ r :: r' :: rest ∧
        s.replies (history ++ q' :: q :: later) = first ++ r' :: r :: rest := by
  have hcomm := perform_comm (s.after history) h
  refine ⟨by simp [hcomm], s.replies history, _, _, _, length_replies s history,
    replies_append s history _, (replies_append s history _).trans ?_⟩
  simp only [replies, hcomm, perform_fst_congr (getElem?_perform_of_ne (s.after history) h),
    perform_fst_congr (getElem?_perform_of_ne (s.after history) h.symm)]

/-- A request that is repeated at once only repeats its reply. -/
theorem repetition (s : MemoryStore) (q : Request) (history later : List Request) :
    s.after (history ++ q :: q :: later) = s.after (history ++ q :: later) ∧
      ∃ first r rest, first.length = history.length ∧
        s.replies (history ++ q :: later) = first ++ r :: rest ∧
        s.replies (history ++ q :: q :: later) = first ++ r :: r :: rest := by
  have hagain := perform_perform (s.after history) q
  refine ⟨by simp [hagain], s.replies history, _, _, length_replies s history,
    replies_append s history _, (replies_append s history _).trans ?_⟩
  simp only [replies, hagain]

/-- Over every history, the subscriptions that are held are those that were inserted, each under the
key of the last request for it that succeeded. An update succeeds exactly for those, and one that
fails changes nothing and goes on failing until its subscription is inserted. Requests of different
subscriptions can be exchanged, and any request can be repeated at once. -/
theorem map_over_every_history (history : List Request) :
    (∀ id, id ∈ (after {} history).entries ↔ Inserts history id) ∧
    (∀ id key, (after {} history).deviceKey? id = some key ↔
      ∃ before q later, history = before ++ q :: later ∧ q.id = id ∧ q.key = key ∧
        ((after {} before).perform q).1 = .ok () ∧ ∀ q' ∈ later, q'.id ≠ id) ∧
    (∀ id key, (((after {} history).update id key).1 = .ok () ↔ Inserts history id) ∧
      (¬ Inserts history id → (after {} history).update id key =
        (.error (.subscriptionNotFound id), after {} history))) ∧
    (∀ id key later, ((after {} history).update id key).1 ≠ .ok () → ¬ Inserts later id →
      ∀ key', ((after {} (history ++ .update id key :: later)).update id key').1 =
        .error (.subscriptionNotFound id)) ∧
    (∀ q q' later, q.id ≠ q'.id →
      after {} (history ++ q' :: q :: later) = after {} (history ++ q :: q' :: later) ∧
        ∃ first r r' rest, first.length = history.length ∧
          replies {} (history ++ q :: q' :: later) = first ++ r :: r' :: rest ∧
          replies {} (history ++ q' :: q :: later) = first ++ r' :: r :: rest) ∧
    ∀ q later, after {} (history ++ q :: q :: later) = after {} (history ++ q :: later) ∧
      ∃ first r rest, first.length = history.length ∧
        replies {} (history ++ q :: later) = first ++ r :: rest ∧
        replies {} (history ++ q :: q :: later) = first ++ r :: r :: rest := by
  refine ⟨fun id => mem_after_empty, fun id key => getElem?_after_eq_some_iff, fun id key => ?_,
    fun id key later hfails hlater key' => ?_, fun q q' later h => exchange {} h history later,
    fun q later => repetition {} q history later⟩
  · refine ⟨?_, fun h => update_eq_of_notMem (mt mem_after_empty.mp h) key⟩
    rw [update_fst, ite_eq_left_iff, ← mem_after_empty]
    simp
  · have hmissing : id ∉ (after {} history).entries := by
      intro h
      exact hfails ((update_fst _ id key).trans (if_pos h))
    have hstill : id ∉ (after {} (history ++ .update id key :: later)).entries := by
      rw [mem_after_empty] at hmissing ⊢
      rw [← List.singleton_append, inserts_append, inserts_append]
      exact not_or.mpr ⟨hmissing, not_or.mpr ⟨not_inserts_update, hlater⟩⟩
    rw [update_eq_of_notMem hstill]

/-- An update that comes before its insertion fails and is gone; the one after it stays, and neither
helps another subscription. -/
theorem map_over_every_history_of_one_insertion :
    let history : List Request := [.update 7 "early", .insert 7 "old", .update 7 "new"]
    (after {} history).deviceKey? 7 = some "new" ∧
      (after {} history).update 8 "k" = (.error (.subscriptionNotFound 8), after {} history) ∧
      ((after {} (history ++ [.update 8 "k", .insert 9 "n"])).update 8 "k'").1 =
        .error (.subscriptionNotFound 8) ∧
      after {} (history ++ [.insert 8 "k", .update 7 "k"]) =
        after {} (history ++ [.update 7 "k", .insert 8 "k"]) := by
  intro history
  obtain ⟨-, hkey, hupdate, hstill, hexchange, -⟩ := map_over_every_history history
  have hmissing : ¬ Inserts history 8 := by
    simp [Inserts, history]
  refine ⟨(hkey 7 "new").mpr ?_, (hupdate 8 "k").2 hmissing,
    hstill 8 "k" [.insert 9 "n"] ?_ ?_ "k'",
    (hexchange (.update 7 "k") (.insert 8 "k") [] (by decide)).1⟩
  · exact ⟨[.update 7 "early", .insert 7 "old"], .update 7 "new", [], rfl, rfl, rfl,
      by decide +kernel, nofun⟩
  · exact mt (hupdate 8 "k").1.mp hmissing
  · rw [inserts_insert]
    decide

end PushDelivery.MemoryStore
