import Mathlib.Algebra.GroupWithZero.Nat
import Mathlib.Data.List.Perm.Basic
import PushDelivery.Metrics
import PushDelivery.Proofs.OrderedMap

/-!
# Counting

What the families hold after some observations. A count is read under its label values, and it grows
with every observation under label values of the same digest; that these are the same label values
is not known here.

The first observation of a series names it, so in general the order of the observations shows in the
labels of the series. It does not as long as no two label values in use share a digest.
-/

namespace PushDelivery.Metrics

namespace Family

variable {α : Type} (family : Family α) (labels labels' : List String)

theorem getElem?_observe (start : α) (change : α → α) (k : Digest) :
    (family.observe labels start change)[k]? =
      if digest labels = k then
        some ((family[k]?.map fun series => { series with value := change series.value }).getD
          ⟨labels, change start⟩)
      else family[k]? := by
  rw [observe, Std.ExtTreeMap.getElem?_alter]
  by_cases h : digest labels = k
  · subst h
    rw [if_pos (by simp), if_pos rfl]
    cases family[digest labels]? <;> rfl
  · rw [if_neg (by simpa using h), if_neg h]

theorem value?_observe (start : α) (change : α → α) :
    (family.observe labels start change).value? labels' =
      if digest labels = digest labels' then some (change ((family.value? labels).getD start))
      else family.value? labels' := by
  unfold value?
  rw [getElem?_observe]
  by_cases h : digest labels = digest labels'
  · rw [if_pos h, if_pos h, h]
    cases family[digest labels']? <;> rfl
  · rw [if_neg h, if_neg h]

theorem observe_eq_insert (start : α) (change : α → α) :
    family.observe labels start change = family.insert (digest labels)
      ((family[digest labels]?.map fun series => { series with value := change series.value }).getD
        ⟨labels, change start⟩) := by
  refine Std.ExtTreeMap.ext_getElem? fun k => ?_
  rw [getElem?_observe, Std.ExtTreeMap.getElem?_insert]
  by_cases h : digest labels = k
  · rw [if_pos h, if_pos (by simp [h]), h]
  · rw [if_neg h, if_neg (by simpa using h)]

theorem getD_value?_increment (family : Family Nat) :
    ((family.increment labels).value? labels').getD 0 =
      (family.value? labels').getD 0 + if digest labels = digest labels' then 1 else 0 := by
  rw [increment, value?_observe]
  by_cases h : digest labels = digest labels'
  · have hvalue : family.value? labels = family.value? labels' := by rw [value?, value?, h]
    rw [if_pos h, if_pos h, hvalue, Option.getD_some]
  · rw [if_neg h, if_neg h, Nat.add_zero]

/-- A count grows with every observation of its digest. -/
theorem getD_value?_foldl_increment (used : List (List String)) (family : Family Nat) :
    ((used.foldl increment family).value? labels').getD 0 =
      (family.value? labels').getD 0 + used.countP (digest · = digest labels') := by
  induction used generalizing family with
  | nil => rfl
  | cons labels used ih =>
    rw [List.foldl_cons, ih, getD_value?_increment, List.countP_cons]
    simp only [decide_eq_true_eq]
    omega

/-- What all series of a family of counts hold together. -/
def total (family : Family Nat) : Nat := (family.values.map Series.value).sum

theorem total_insert (family : Family Nat) (k : Digest) (series : Series Nat) :
    total (family.insert k series) =
      series.value + ((otherValues family k).map Series.value).sum := by
  rw [total, ((values_insert_perm family k series).map Series.value).sum_nat]
  rfl

/-- Every observation adds one to some series. -/
theorem total_increment (family : Family Nat) :
    (family.increment labels).total = family.total + 1 := by
  rw [increment, observe_eq_insert, total_insert, total]
  cases hold : family[digest labels]? with
  | none =>
    rw [values_perm_of_none hold]
    exact Nat.add_comm ..
  | some series =>
    rw [((values_perm_of_some hold).map Series.value).sum_nat, List.map_cons, List.sum_cons]
    exact Nat.add_right_comm ..

theorem total_foldl_increment (used : List (List String)) (family : Family Nat) :
    (used.foldl increment family).total = family.total + used.length := by
  induction used generalizing family with
  | nil => rfl
  | cons labels used ih =>
    rw [List.foldl_cons, ih, total_increment, List.length_cons]
    omega

/-- No two label values in use share a digest. -/
def Distinct (used : List (List String)) : Prop :=
  ∀ labels ∈ used, ∀ labels' ∈ used, digest labels = digest labels' → labels = labels'

theorem Distinct.perm {used used' : List (List String)} (h : Distinct used)
    (hperm : used.Perm used') : Distinct used' :=
  fun labels hl labels' hl' => h labels (hperm.mem_iff.mpr hl) labels' (hperm.mem_iff.mpr hl')

variable {labels labels'} in
/-- Two observations can change places unless they would give one series different names. -/
theorem increment_comm (family : Family Nat)
    (h : digest labels = digest labels' → labels = labels') :
    (family.increment labels).increment labels' =
      (family.increment labels').increment labels := by
  by_cases hd : digest labels = digest labels'
  · rw [h hd]
  · refine Std.ExtTreeMap.ext_getElem? fun k => ?_
    simp only [increment, getElem?_observe]
    by_cases hk : digest labels = k
    · have hk' : ¬digest labels' = k := fun hk' => hd (hk.trans hk'.symm)
      rw [if_neg hk', if_pos hk, if_pos hk, if_neg hk']
    · rw [if_neg hk, if_neg hk]

theorem foldl_increment_perm {used used' : List (List String)} (h : used.Perm used')
    (hdistinct : Distinct used) (family : Family Nat) :
    used.foldl increment family = used'.foldl increment family :=
  h.foldl_eq' (fun labels hl labels' hl' family =>
    increment_comm family (hdistinct labels hl labels' hl')) family

/-- The series with the numbers of their observations. -/
def lengths (family : Family (List α)) : Family Nat :=
  family.map fun _ series => { series with value := series.value.length }

theorem lengths_observe (family : Family (List α)) (a : α) :
    (family.observe labels [] (· ++ [a])).lengths = family.lengths.increment labels := by
  refine Std.ExtTreeMap.ext_getElem? fun k => ?_
  rw [lengths, lengths, increment, getElem?_observe, Std.ExtTreeMap.getElem?_map,
    Std.ExtTreeMap.getElem?_map, getElem?_observe]
  by_cases hk : digest labels = k
  · rw [if_pos hk, if_pos hk]
    cases family[k]? <;> simp
  · rw [if_neg hk, if_neg hk]

theorem length_getD_value? (family : Family (List α)) :
    ((family.value? labels).getD []).length = (family.lengths.value? labels).getD 0 := by
  rw [value?, value?, lengths, Std.ExtTreeMap.getElem?_map]
  cases family[digest labels]? <;> rfl

end Family

end PushDelivery.Metrics
