import PushDelivery.Proofs.Endpoint

/-!
# The history of an endpoint

The new device key and the subscription's id are kept in one map of texts, under names that are
never the same. Whatever happens to an endpoint, each of the two changes only by what is meant for
it: the id by the changes in `SetsId`, and a key that was set by those in `ReplacesKey`. The latter
depend on the provider type, which decides under which name the key is kept.
-/

namespace PushDelivery.Endpoint

inductive Change where
  | setReplacementKey (key : String)
  | withSubscriptionId (id : Int64)
  | withProviderName (name : String)
  | put (name value : String)
  | remove (name : String)
  | withProviderType (providerType : String)

def change (e : Endpoint) : Change → Endpoint
  | .setReplacementKey key => e.setReplacementKey key
  | .withSubscriptionId id => e.withSubscriptionId id
  | .withProviderName name => e.withProviderName name
  | .put name value => e.put name value
  | .remove name => e.remove name
  | .withProviderType providerType => e.withProviderType providerType

def after (e : Endpoint) (changes : List Change) : Endpoint := changes.foldl change e

/-- The changes that can take a new key from an endpoint: another one, a change of the entry that
holds it, and another provider type, under which it might not be found. -/
inductive Change.ReplacesKey (e : Endpoint) : Change → Prop
  | setReplacementKey (key : String) : ReplacesKey e (.setReplacementKey key)
  | put {name value : String} : name = e.replacementKeyName → ReplacesKey e (.put name value)
  | remove {name : String} : name = e.replacementKeyName → ReplacesKey e (.remove name)
  | withProviderType {providerType : String} : providerType ≠ e.providerType →
      ReplacesKey e (.withProviderType providerType)

inductive Change.SetsId : Change → Prop
  | withSubscriptionId (id : Int64) : SetsId (.withSubscriptionId id)
  | put {name value : String} : name = subscriptionIdName → SetsId (.put name value)
  | remove {name : String} : name = subscriptionIdName → SetsId (.remove name)

variable {e : Endpoint} {c : Change} {changes : List Change} {name key : String}

@[simp] theorem after_append (e : Endpoint) (first second : List Change) :
    e.after (first ++ second) = (e.after first).after second :=
  List.foldl_append

@[simp] theorem after_cons (e : Endpoint) (c : Change) (changes : List Change) :
    e.after (c :: changes) = (e.change c).after changes := rfl

@[simp] theorem after_nil (e : Endpoint) : e.after [] = e := rfl

theorem getElem?_put_of_ne {value : String} {name' : String} (h : name' ≠ name) :
    (e.put name' value).volatileData[name]? = e.volatileData[name]? := by
  simp [put, Std.ExtTreeMap.getElem?_insert, h]

theorem getElem?_remove_of_ne {name' : String} (h : name' ≠ name) :
    (e.remove name').volatileData[name]? = e.volatileData[name]? := by
  simp [remove, Std.ExtTreeMap.getElem?_erase, h]

/-! ## The new key -/

theorem replacementKeyName_eq (e : Endpoint) :
    e.replacementKeyName = if e.providerType = "apns" then "devtoken" else defaultKeyName := by
  unfold replacementKeyName deviceKeyName
  by_cases hgcm : e.providerType = "gcm"
  · simp [hgcm, defaultKeyName]
  · by_cases hapns : e.providerType = "apns" <;> simp [hgcm, hapns]

theorem replacementKey?_ne_empty (e : Endpoint) : e.replacementKey? ≠ some "" := by
  intro h
  cases replacementKey?_eq_some_iff.mp h with
  | own h => exact h.2 rfl
  | default _ h => exact h.2 rfl

/-- The entry under the type's own name comes first. -/
theorem replacementKey?_eq_or (e : Endpoint) : e.replacementKey? =
    (e.volatileData[e.replacementKeyName]?.filter (· ≠ "")).or
      (e.volatileData[defaultKeyName]?.filter (· ≠ "")) := by
  rw [replacementKey?, List.findSome?_cons, List.findSome?_singleton]
  cases e.volatileData[e.replacementKeyName]?.filter (· ≠ "") <;> rfl

theorem keeps_setReplacementKey (h : key ≠ "") :
    (e.setReplacementKey key).Keeps (e.setReplacementKey key).replacementKeyName key :=
  ⟨(e.getElem?_setReplacementKey key _).trans (if_pos rfl), h⟩

/-- An empty key hides whatever was set before, but for the default name's entry where the type has
a name of its own. -/
theorem replacementKey?_setReplacementKey_empty (e : Endpoint) :
    (e.setReplacementKey "").replacementKey? = if e.providerType = "apns"
      then e.volatileData[defaultKeyName]?.filter (· ≠ "") else none := by
  have hname : (e.setReplacementKey "").replacementKeyName = e.replacementKeyName := rfl
  have hown : (some "").filter (· ≠ "") = none := rfl
  rw [replacementKey?_eq_or, hname, getElem?_setReplacementKey, if_pos rfl, hown, Option.none_or,
    getElem?_setReplacementKey, replacementKeyName_eq]
  by_cases hapns : e.providerType = "apns"
  · rw [if_pos hapns, if_pos hapns, if_neg (by decide)]
  · rw [if_neg hapns, if_neg hapns, if_pos rfl, hown]

theorem replacementKey?_withSubscriptionId (e : Endpoint) (id : Int64) :
    (e.withSubscriptionId id).replacementKey? = e.replacementKey? := by
  have hother : ∀ name ≠ subscriptionIdName,
      (e.withSubscriptionId id).volatileData[name]? = e.volatileData[name]? :=
    fun name h => getElem?_put_of_ne h.symm
  have hname : (e.withSubscriptionId id).replacementKeyName = e.replacementKeyName := rfl
  rw [replacementKey?_eq_or, replacementKey?_eq_or, hname,
    hother _ e.replacementKeyName_ne_subscriptionIdName, hother defaultKeyName (by decide)]

theorem Change.ReplacesKey.of_providerType {e' : Endpoint} (h : c.ReplacesKey e')
    (htype : e'.providerType = e.providerType) : c.ReplacesKey e := by
  have hname : e'.replacementKeyName = e.replacementKeyName := by
    rw [replacementKeyName_eq, replacementKeyName_eq, htype]
  cases h with
  | setReplacementKey key => exact .setReplacementKey key
  | put h => exact .put (h.trans hname)
  | remove h => exact .remove (h.trans hname)
  | withProviderType hne => exact .withProviderType (htype ▸ hne)

/-- A change that is not meant for the key leaves it, and the type with it. -/
theorem Keeps.change (h : e.Keeps e.replacementKeyName key) (hc : ¬ c.ReplacesKey e) :
    (e.change c).Keeps (e.change c).replacementKeyName key ∧
      (e.change c).providerType = e.providerType := by
  cases c with
  | setReplacementKey key' => exact (hc (.setReplacementKey key')).elim
  | withSubscriptionId id =>
    refine ⟨⟨?_, h.2⟩, rfl⟩
    exact (getElem?_put_of_ne e.replacementKeyName_ne_subscriptionIdName.symm).trans h.1
  | withProviderName name => exact ⟨h, rfl⟩
  | put name value =>
    have hname : name ≠ e.replacementKeyName := fun h => hc (.put h)
    exact ⟨⟨(getElem?_put_of_ne hname).trans h.1, h.2⟩, rfl⟩
  | remove name =>
    have hname : name ≠ e.replacementKeyName := fun h => hc (.remove h)
    exact ⟨⟨(getElem?_remove_of_ne hname).trans h.1, h.2⟩, rfl⟩
  | withProviderType providerType =>
    have htype : providerType = e.providerType := by
      by_contra hne
      exact hc (.withProviderType hne)
    subst htype
    exact ⟨h, rfl⟩

theorem Keeps.after (h : e.Keeps e.replacementKeyName key)
    (hchanges : ∀ c ∈ changes, ¬ c.ReplacesKey e) :
    (e.after changes).Keeps (e.after changes).replacementKeyName key := by
  induction changes generalizing e with
  | nil => exact h
  | cons c changes ih =>
    obtain ⟨hc, hrest⟩ := List.forall_mem_cons.mp hchanges
    obtain ⟨hkeeps, htype⟩ := h.change hc
    exact ih hkeeps fun c' hc' hreplaces => hrest c' hc' (hreplaces.of_providerType htype)

/-! ## The id of the subscription -/

theorem subscriptionId?_change (hc : ¬ c.SetsId) :
    (e.change c).subscriptionId? = e.subscriptionId? := by
  cases c with
  | setReplacementKey key =>
    exact (e.getElem?_setReplacementKey key _).trans
      (if_neg e.replacementKeyName_ne_subscriptionIdName)
  | withSubscriptionId id => exact (hc (.withSubscriptionId id)).elim
  | withProviderName | withProviderType => rfl
  | put name value => exact getElem?_put_of_ne fun h => hc (.put h)
  | remove name => exact getElem?_remove_of_ne fun h => hc (.remove h)

theorem subscriptionId?_after (hchanges : ∀ c ∈ changes, ¬ c.SetsId) :
    (e.after changes).subscriptionId? = e.subscriptionId? := by
  induction changes generalizing e with
  | nil => rfl
  | cons c changes ih =>
    obtain ⟨hc, hrest⟩ := List.forall_mem_cons.mp hchanges
    rw [after_cons, ih hrest, subscriptionId?_change hc]

/-- Over every history, the new key of an endpoint is never empty, a key that is set stays until
another change is meant for it, an empty one leaves the default entry at most, and the key and the
id of the subscription leave each other alone. -/
theorem key_and_id_apart (e : Endpoint) (history : List Change) :
    (e.after history).replacementKey? ≠ some "" ∧
    (∀ key ≠ "", ∀ later, (∀ c ∈ later, ¬ c.ReplacesKey (e.after history)) →
      (e.after (history ++ .setReplacementKey key :: later)).replacementKey? = some key) ∧
    (e.after (history ++ [.setReplacementKey ""])).replacementKey? =
      (if (e.after history).providerType = "apns" then
        (e.after history).volatileData["regid"]?.filter (· ≠ "") else none) ∧
    (∀ later, (∀ c ∈ later, ¬ c.SetsId) →
      (e.after (history ++ later)).subscriptionId? = (e.after history).subscriptionId?) ∧
    ∀ id, (e.after (history ++ [.withSubscriptionId id])).replacementKey? =
      (e.after history).replacementKey? := by
  simp only [after_append, after_cons, after_nil, change]
  refine ⟨replacementKey?_ne_empty _, fun key hkey later hlater => ?_,
    replacementKey?_setReplacementKey_empty _, fun later => subscriptionId?_after,
    replacementKey?_withSubscriptionId _⟩
  have hkeeps := (keeps_setReplacementKey hkey).after fun c hc hreplaces =>
    hlater c hc (hreplaces.of_providerType rfl)
  exact replacementKey?_eq_some_iff.mpr (.own hkeeps)

/-- The key of an apns device outlives a new id and an entry under the default name, which takes its
place when it is emptied. -/
theorem key_and_id_apart_of_apns :
    let e : Endpoint := { serviceId := 1, providerType := "apns", deviceKey := "k" }
    let later : List Change := [.withSubscriptionId 7, .put "regid" "r", .withProviderType "apns"]
    (e.after (.setReplacementKey "new" :: later)).replacementKey? = some "new" ∧
      (e.after (later ++ [.setReplacementKey ""])).replacementKey? = some "r" ∧
      (e.after (later ++ [.setReplacementKey "new", .remove "regid"])).subscriptionId? =
        some "7" := by
  intro e later
  obtain ⟨-, hkey, -⟩ := key_and_id_apart e []
  obtain ⟨-, -, hempty, hid, -⟩ := key_and_id_apart e later
  have hlater : ∀ c ∈ later, ¬ c.ReplacesKey e := by
    rw [List.forall_mem_cons, List.forall_mem_cons, List.forall_mem_singleton]
    refine ⟨nofun, ?_, ?_⟩
    · rintro (_ | hname)
      exact absurd hname (by decide)
    · rintro (_ | _ | _ | hne)
      exact hne rfl
  have hspared : ∀ c ∈ [Change.setReplacementKey "new", .remove "regid"], ¬ c.SetsId := by
    rw [List.forall_mem_cons, List.forall_mem_singleton]
    refine ⟨nofun, ?_⟩
    rintro (_ | _ | hname)
    exact absurd hname (by decide)
  refine ⟨hkey "new" (by decide) later hlater, ?_, ?_⟩
  · rw [hempty]
    decide +kernel
  · rw [hid _ hspared]
    decide +kernel

end PushDelivery.Endpoint
