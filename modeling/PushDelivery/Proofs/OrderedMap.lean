import Mathlib.Data.List.Induction
import Mathlib.Data.List.Perm.Basic
import Std.Data.ExtTreeMap

/-!
# The values of an ordered map

The values of a map come in the order of their keys. An insertion puts its value at some place among
them, and the value that it replaces goes; here both are said up to order.
-/

namespace PushDelivery

open Std

universe u v

variable {α : Type u} {β : Type v} [Ord α] [TransOrd α]

theorem values_eq_map_toList (m : ExtTreeMap α β) : m.values = m.toList.map Prod.snd := by
  obtain ⟨⟨m⟩⟩ := m
  induction m using Quotient.ind with
  | _ m =>
    show m.inner.values = (DTreeMap.Internal.Impl.Const.toList m.inner).map Prod.snd
    rw [DTreeMap.Internal.Impl.values_eq_map_snd,
      DTreeMap.Internal.Impl.Const.toList_eq_toListModel_map]
    simp

theorem nodup_toList (m : ExtTreeMap α β) : m.toList.Nodup := by
  refine m.distinct_keys_toList.imp fun {a b} hne hab => hne ?_
  rw [hab]
  exact ReflCmp.compare_self

variable [LawfulEqOrd α] {m : ExtTreeMap α β} {k : α}

theorem mem_values_iff {v : β} : v ∈ m.values ↔ ∃ k : α, m[k]? = some v := by
  simp [values_eq_map_toList, ExtTreeMap.mem_toList_iff_getElem?_eq_some]

/-- Of the entries with one key a map that is made of them has one. -/
theorem mem_of_getElem?_ofList {l : List (α × β)} {v : β}
    (h : (ExtTreeMap.ofList l : ExtTreeMap α β)[k]? = some v) : (k, v) ∈ l := by
  induction l using List.reverseRecOn with
  | nil => simp at h
  | append_singleton l e ih =>
    obtain ⟨k', w⟩ := e
    rw [ExtTreeMap.ofList_eq_insertMany_empty, ExtTreeMap.insertMany_append,
      ← ExtTreeMap.ofList_eq_insertMany_empty, ExtTreeMap.insertMany_list_singleton,
      ExtTreeMap.getElem?_insert] at h
    split at h
    next heq =>
      cases h
      simp [compare_eq_iff_eq.mp heq]
    next => exact List.mem_append_left _ (ih h)

/-- Entries in the order of their keys are those of the map that is made of them. -/
theorem toList_ofList {l : List (α × β)} (h : l.Pairwise fun a b => compare a.1 b.1 = .lt) :
    (ExtTreeMap.ofList l : ExtTreeMap α β).toList = l := by
  have hdistinct : l.Pairwise fun a b => ¬ compare a.1 b.1 = .eq :=
    h.imp fun hlt heq => nomatch hlt.symm.trans heq
  have hnodup : l.Nodup := hdistinct.imp fun {a b} hne hab => by
    rw [hab] at hne
    exact hne ReflCmp.compare_self
  have hperm : (ExtTreeMap.ofList l : ExtTreeMap α β).toList.Perm l :=
    (List.perm_ext_iff_of_nodup (nodup_toList _) hnodup).mpr fun ⟨_, _⟩ =>
      ExtTreeMap.mem_toList_iff_getElem?_eq_some.trans
        ⟨mem_of_getElem?_ofList, ExtTreeMap.getElem?_ofList_of_mem ReflCmp.compare_self hdistinct⟩
  refine hperm.eq_of_pairwise (fun a b _ _ hab hba => ?_) ExtTreeMap.ordered_keys_toList h
  exact nomatch hba.symm.trans (OrientedCmp.gt_of_lt hab)

theorem ofList_toList (m : ExtTreeMap α β) : ExtTreeMap.ofList m.toList = m :=
  ExtTreeMap.toList_inj.mp (toList_ofList ExtTreeMap.ordered_keys_toList)

/-- A map is made again from its entries in any order. -/
theorem ofList_of_perm {l : List (α × β)} (h : l.Perm m.toList) : ExtTreeMap.ofList l = m := by
  have hdistinct : l.Pairwise fun a b => ¬ compare a.1 b.1 = .eq :=
    m.distinct_keys_toList.perm h.symm fun hne heq => hne (OrientedCmp.eq_symm heq)
  refine ExtTreeMap.ext_getElem? fun k => Option.ext fun v => ?_
  have hmem : m[k]? = some v ↔ (k, v) ∈ l :=
    ExtTreeMap.mem_toList_iff_getElem?_eq_some.symm.trans h.mem_iff.symm
  rw [hmem]
  exact ⟨mem_of_getElem?_ofList, ExtTreeMap.getElem?_ofList_of_mem ReflCmp.compare_self hdistinct⟩

variable [DecidableEq α]

/-- A map is made again from its entries, here with other values. -/
theorem getElem?_ofList_map {γ : Type*} (m : ExtTreeMap α β) (f : β → γ) (k : α) :
    (ExtTreeMap.ofList (m.toList.map fun e => (e.1, f e.2)) : ExtTreeMap α γ)[k]? =
      m[k]?.map f := by
  cases h : m[k]? with
  | none =>
    refine ExtTreeMap.getElem?_ofList_of_contains_eq_false ?_
    rw [← Bool.not_eq_true, List.contains_iff_mem]
    simp [ExtTreeMap.mem_toList_iff_getElem?_eq_some, h]
  | some v =>
    refine ExtTreeMap.getElem?_ofList_of_mem ReflCmp.compare_self ?_ ?_
    · exact List.pairwise_map.mpr m.distinct_keys_toList
    · exact List.mem_map_of_mem (ExtTreeMap.mem_toList_iff_getElem?_eq_some.mpr h)

def otherValues (m : ExtTreeMap α β) (k : α) : List β :=
  (m.toList.filter (·.1 ≠ k)).map Prod.snd

theorem mem_otherValues_iff {v : β} :
    v ∈ otherValues m k ↔ ∃ k' : α, k' ≠ k ∧ m[k']? = some v := by
  simp [otherValues, ExtTreeMap.mem_toList_iff_getElem?_eq_some, and_comm]

theorem values_perm_of_some {v : β} (h : m[k]? = some v) :
    m.values.Perm (v :: otherValues m k) := by
  rw [values_eq_map_toList, otherValues, ← List.map_cons (f := Prod.snd) (a := (k, v))]
  refine List.Perm.map _ ((List.perm_ext_iff_of_nodup (nodup_toList m) ?_).mpr ?_)
  · exact List.nodup_cons.mpr ⟨by simp, (nodup_toList m).filter _⟩
  · rintro ⟨a, b⟩
    simp only [ExtTreeMap.mem_toList_iff_getElem?_eq_some, List.mem_cons, List.mem_filter,
      Prod.mk.injEq, decide_eq_true_eq]
    by_cases ha : a = k
    · subst ha
      simp [h, eq_comm]
    · simp [ha]

theorem values_perm_of_none (h : m[k]? = none) : m.values = otherValues m k := by
  rw [values_eq_map_toList, otherValues, List.filter_eq_self.mpr]
  rintro ⟨a, b⟩ hmem
  rw [ExtTreeMap.mem_toList_iff_getElem?_eq_some] at hmem
  have hne : a ≠ k := by
    rintro rfl
    rw [h] at hmem
    cases hmem
  simpa using hne

theorem otherValues_insert (v : β) : (otherValues (m.insert k v) k).Perm (otherValues m k) := by
  refine List.Perm.map _ ((List.perm_ext_iff_of_nodup ((nodup_toList _).filter _)
    ((nodup_toList _).filter _)).mpr ?_)
  rintro ⟨a, b⟩
  simp only [List.mem_filter, ExtTreeMap.mem_toList_iff_getElem?_eq_some,
    ExtTreeMap.getElem?_insert, decide_eq_true_eq, Std.compare_eq_iff_eq]
  refine and_congr_left fun ha => ?_
  rw [if_neg (Ne.symm ha)]

theorem values_insert_perm (m : ExtTreeMap α β) (k : α) (v : β) :
    (m.insert k v).values.Perm (v :: otherValues m k) :=
  (values_perm_of_some (by simp)).trans ((otherValues_insert v).cons v)

end PushDelivery
