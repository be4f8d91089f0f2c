import PushDelivery.Proofs.Endpoint.History

/-!
# The id of a subscription as text

An endpoint carries the id of its subscription as text, and whoever handles the endpoint can put
another text in its place. The text that is written for an id is read as this id, over the whole
range of 64-bit words and whatever else happens to the endpoint. Any other text counts as an id
exactly if it spells an integer in that range. Where it does not, the text itself is reported and
the store is asked for nothing, with or without a new key.
-/

namespace PushDelivery

namespace Numeral

/-- A text that spells an integer in the range of signed 64-bit words. -/
structure SpellsWord (cs : List Char) (n : Int) : Prop where
  spells : Spells cs n
  le : -0x8000000000000000 ≤ n
  lt : n < 0x8000000000000000

theorem spellsWord_toInt_iff {cs : List Char} {id : Int64} :
    SpellsWord cs id.toInt ↔ Spells cs id.toInt :=
  ⟨SpellsWord.spells, fun h => ⟨h, id.le_toInt, id.toInt_lt⟩⟩

theorem SpellsWord.exists_toInt {cs : List Char} {n : Int} (h : SpellsWord cs n) :
    ∃ id : Int64, id.toInt = n :=
  ⟨Int64.ofInt n, Int64.toInt_ofInt_of_le h.le h.lt⟩

end Numeral

namespace Endpoint

open Numeral

variable {e : Endpoint} {id id' : Int64} {changes : List Change}

theorem Names.unique (h : e.Names id) (h' : e.Names id') : id = id' := by
  rw [← readInt64_eq_some_iff_names] at h h'
  exact Option.some.inj (h.symm.trans h')

@[simp] theorem subscriptionText_put (e : Endpoint) (text : String) :
    (e.put subscriptionIdName text).subscriptionText = text := by
  simp [subscriptionText, subscriptionId?, put]

@[simp] theorem subscriptionText_remove (e : Endpoint) :
    (e.remove subscriptionIdName).subscriptionText = "" := by
  simp [subscriptionText, subscriptionId?, remove]

theorem subscriptionText_after (hchanges : ∀ c ∈ changes, ¬ c.SetsId) :
    (e.after changes).subscriptionText = e.subscriptionText := by
  rw [subscriptionText, subscriptionId?_after hchanges, subscriptionText]

/-- An id that is written stays readable as long as nothing is meant for it. -/
theorem names_after_withSubscriptionId (e : Endpoint) (id : Int64)
    (hchanges : ∀ c ∈ changes, ¬ c.SetsId) :
    ((e.withSubscriptionId id).after changes).Names id := by
  rw [← readInt64_eq_some_iff_names, subscriptionText_after hchanges, withSubscriptionId,
    subscriptionText_put, readInt64_signedDecimal]

theorem names_put_iff {text : String} :
    (e.put subscriptionIdName text).Names id ↔ SpellsWord text.toList id.toInt := by
  rw [Names, subscriptionText_put, spellsWord_toInt_iff]

theorem not_names_put_iff {text : String} :
    (∀ id, ¬ (e.put subscriptionIdName text).Names id) ↔ ∀ n, ¬ SpellsWord text.toList n := by
  simp only [names_put_iff]
  constructor
  · intro h n hn
    obtain ⟨id, rfl⟩ := hn.exists_toInt
    exact h id hn
  · exact fun h id => h id.toInt

theorem not_names_remove (e : Endpoint) (id : Int64) :
    ¬ (e.remove subscriptionIdName).Names id := by
  rw [← readInt64_eq_some_iff_names, subscriptionText_remove]
  nofun

end Endpoint

namespace Ledger

open Numeral Endpoint

variable {σ : Type} [SubscriptionStore σ] {l : Ledger σ} {e : Endpoint} {id id' : Int64}
  {key? : Option String} {text : String}

/-- The reply once the subscription is known, and the ledger after it. -/
def writeUnder (l : Ledger σ) (id : Int64) : Option String → Except StoreError Unit × Ledger σ
  | none => (.error (.missingDeviceKey id), l)
  | some key => l.update id key

/-- The text of an endpoint is taken for an id: its new key is written back under this id, and where
there is none, it is missed for this id. -/
def ReadsId (l : Ledger σ) (e : Endpoint) (id : Int64) : Prop :=
  l.writeBack e = l.writeUnder id e.replacementKey?

theorem writeUnder_inj (h : l.writeUnder id key? = l.writeUnder id' key?) : id = id' := by
  cases key? with
  | none => simpa [writeUnder] using h
  | some key =>
    have hupdates := congrArg (fun reply => reply.2.updates) h
    simpa [writeUnder, update] using hupdates

/-- A store may give any reply, so it is the update in the ledger that tells the two apart. -/
theorem writeUnder_ne_invalid :
    l.writeUnder id key? ≠ (.error (.invalidSubscriptionId text), l) := by
  intro h
  cases key? with
  | none => simp [writeUnder] at h
  | some key =>
    have hupdates := congrArg (fun reply => reply.2.updates) h
    simp [writeUnder, update] at hupdates

theorem writeBack_of_names (h : e.Names id) :
    l.writeBack e = l.writeUnder id e.replacementKey? := by
  rw [writeBack, requestedUpdate_of_names h]
  cases e.replacementKey? <;> rfl

theorem writeBack_of_not_names (h : ∀ id, ¬ e.Names id) :
    l.writeBack e = (.error (.invalidSubscriptionId e.subscriptionText), l) := by
  rw [writeBack, (Faulty.id h).requestedUpdate]

theorem writeBack_eq_invalid_iff :
    l.writeBack e = (.error (.invalidSubscriptionId e.subscriptionText), l) ↔
      ∀ id, ¬ e.Names id := by
  refine ⟨fun h id hid => ?_, writeBack_of_not_names⟩
  rw [writeBack_of_names hid] at h
  exact writeUnder_ne_invalid h

theorem readsId_iff_names : l.ReadsId e id ↔ e.Names id := by
  refine ⟨fun h => ?_, writeBack_of_names⟩
  by_cases hnamed : ∃ id', e.Names id'
  · obtain ⟨id', hid'⟩ := hnamed
    exact writeUnder_inj ((writeBack_of_names hid').symm.trans h) ▸ hid'
  · have hinvalid := writeBack_of_not_names (l := l) (not_exists.mp hnamed)
    exact (writeUnder_ne_invalid (h.symm.trans hinvalid)).elim

theorem readsId_after_withSubscriptionId_iff {changes : List Change}
    (hchanges : ∀ c ∈ changes, ¬ c.SetsId) :
    l.ReadsId ((e.withSubscriptionId id).after changes) id' ↔ id' = id := by
  have hnames := names_after_withSubscriptionId e id hchanges
  rw [readsId_iff_names]
  exact ⟨fun h => h.unique hnames, fun h => h ▸ hnames⟩

/-- The text of an id is read as this id alone, for every id and through every change that is not
meant for it, so also in the endpoint of a subscription. A text that is put there is read as an id
exactly if it spells this id in the range of 64-bit words; if it spells none, it is reported as it
stands and the ledger is left as it was. So is the empty text where there is none. -/
theorem id_survives_as_text (l : Ledger σ) (e : Endpoint) :
    (∀ id changes, (∀ c ∈ changes, ¬ c.SetsId) → ∀ id',
      l.ReadsId ((e.withSubscriptionId id).after changes) id' ↔ id' = id) ∧
    (∀ (s : Subscription) changes, (∀ c ∈ changes, ¬ c.SetsId) → ∀ id',
      l.ReadsId (s.toEndpoint.after changes) id' ↔ id' = s.id) ∧
    (∀ text id, l.ReadsId (e.put subscriptionIdName text) id ↔
      SpellsWord text.toList id.toInt) ∧
    (∀ text, l.writeBack (e.put subscriptionIdName text) =
      (.error (.invalidSubscriptionId text), l) ↔ ∀ n, ¬ SpellsWord text.toList n) ∧
    l.writeBack (e.remove subscriptionIdName) = (.error (.invalidSubscriptionId ""), l) := by
  refine ⟨fun id changes hchanges id' => readsId_after_withSubscriptionId_iff hchanges,
    fun s changes hchanges id' => readsId_after_withSubscriptionId_iff hchanges,
    fun text id => readsId_iff_names.trans names_put_iff, fun text => ?_, ?_⟩
  · rw [← not_names_put_iff (e := e), ← writeBack_eq_invalid_iff (l := l), subscriptionText_put]
  · rw [writeBack_of_not_names e.not_names_remove, subscriptionText_remove]

/-- The least id survives a new key. One beyond the greatest is no id. -/
theorem id_survives_as_text_of_least :
    let l : Ledger MemoryStore := { store := ({} : MemoryStore).insert Int64.minValue "old" }
    let s : Subscription :=
      { id := Int64.minValue, subscriber := "u", serviceId := 1, providerType := "gcm"
        deviceKey := "old" }
    let e := s.toEndpoint.after [.setReplacementKey "new"]
    l.writeBack e = l.update Int64.minValue "new" ∧
      l.writeBack (e.put subscriptionIdName "-009") = l.update (-9) "new" ∧
      l.writeBack (e.put subscriptionIdName "9223372036854775808") =
        (.error (.invalidSubscriptionId "9223372036854775808"), l) := by
  intro l s e
  have hchanges : ∀ c ∈ [Change.setReplacementKey "new"], ¬ c.SetsId := by
    rw [List.forall_mem_singleton]
    nofun
  obtain ⟨-, hid, hread, hinvalid, -⟩ := id_survives_as_text l e
  have hleast : l.writeBack e = l.writeUnder Int64.minValue e.replacementKey? :=
    (hid s _ hchanges Int64.minValue).mpr rfl
  have hspells : Spells "-009".toList (-9 : Int64).toInt :=
    readInteger_eq_some_iff.mp (by decide +kernel)
  have hnine : l.writeBack (e.put subscriptionIdName "-009") =
      l.writeUnder (-9) (e.put subscriptionIdName "-009").replacementKey? :=
    (hread "-009" (-9)).mpr (spellsWord_toInt_iff.mpr hspells)
  have hkey : e.replacementKey? = some "new" := by decide +kernel
  have hkey' : (e.put subscriptionIdName "-009").replacementKey? = some "new" := by
    decide +kernel
  rw [hkey] at hleast
  rw [hkey'] at hnine
  refine ⟨hleast, hnine, (hinvalid "9223372036854775808").mpr fun n hn => ?_⟩
  have hvalue : readInteger "9223372036854775808" = some 0x8000000000000000 := by decide +kernel
  have hn' := readInteger_eq_some_iff.mpr hn.spells
  rw [hvalue, Option.some.injEq] at hn'
  exact absurd hn.lt (hn' ▸ Int.lt_irrefl _)

end Ledger

end PushDelivery
