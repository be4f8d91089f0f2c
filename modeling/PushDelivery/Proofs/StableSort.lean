import Mathlib.Data.List.Perm.Basic
import Mathlib.Order.Lattice

/-!
# Stable sorting by a key

The stable sort of a list is in the order of the keys and has, for each key, the same elements in
the same order. These two facts determine it: of two lists that are in the order of their keys and
agree on every key, both begin with the first element that has the least key.
-/

namespace PushDelivery

universe u v

variable {α : Type u} {κ : Type v} [LinearOrder κ]

/-- The stable sort of a list by a key. -/
def sortByKey (key : α → κ) (xs : List α) : List α :=
  xs.mergeSort fun a b => decide (key a ≤ key b)

variable {key : α → κ} {xs ys : List α}

section Comparison

variable (key : α → κ)

theorem decide_key_le_trans (a b c : α) (hab : decide (key a ≤ key b) = true)
    (hbc : decide (key b ≤ key c) = true) : decide (key a ≤ key c) = true :=
  decide_eq_true (le_trans (of_decide_eq_true hab) (of_decide_eq_true hbc))

theorem decide_key_le_total (a b : α) :
    (decide (key a ≤ key b) || decide (key b ≤ key a)) = true := by
  simpa using le_total (key a) (key b)

end Comparison

theorem sortByKey_perm (key : α → κ) (xs : List α) : (sortByKey key xs).Perm xs :=
  List.mergeSort_perm xs _

theorem pairwise_sortByKey (key : α → κ) (xs : List α) :
    (sortByKey key xs).Pairwise fun a b => key a ≤ key b := by
  have h : (sortByKey key xs).Pairwise fun a b => decide (key a ≤ key b) = true :=
    List.pairwise_mergeSort (decide_key_le_trans key) (decide_key_le_total key) xs
  exact h.imp of_decide_eq_true

/-- Elements with one key stay in their order. -/
theorem filter_sortByKey (key : α → κ) (xs : List α) (k : κ) :
    (sortByKey key xs).filter (key · = k) = xs.filter (key · = k) := by
  have hequal : (xs.filter (key · = k)).Pairwise fun a b => decide (key a ≤ key b) = true := by
    refine List.pairwise_of_forall_mem_list fun a ha b hb => ?_
    have hka : key a = k := by simpa using (List.mem_filter.mp ha).2
    have hkb : key b = k := by simpa using (List.mem_filter.mp hb).2
    simp [hka, hkb]
  have hsub : (xs.filter (key · = k)).Sublist (sortByKey key xs) :=
    List.sublist_mergeSort (decide_key_le_trans key) (decide_key_le_total key) hequal
      List.filter_sublist
  have hsub' : (xs.filter (key · = k)).Sublist ((sortByKey key xs).filter (key · = k)) := by
    simpa using hsub.filter (key · = k)
  have hlength := ((sortByKey_perm key xs).filter (key · = k)).length_eq
  exact (hsub'.eq_of_length hlength.symm).symm

theorem eq_of_filter_eq (hxs : xs.Pairwise fun a b => key a ≤ key b)
    (hys : ys.Pairwise fun a b => key a ≤ key b)
    (h : ∀ k, xs.filter (key · = k) = ys.filter (key · = k)) : xs = ys := by
  induction xs generalizing ys with
  | nil =>
    cases ys with
    | nil => rfl
    | cons y ys => simpa using h (key y)
  | cons x xs ih =>
    have hmem : ∀ z, z ∈ x :: xs ↔ z ∈ ys := by
      intro z
      have := congrArg (z ∈ ·) (h (key z))
      simpa using this
    cases ys with
    | nil => simpa using h (key x)
    | cons y ys =>
      rw [List.pairwise_cons] at hxs hys
      have hle : key x ≤ key y := by
        rcases List.mem_cons.mp ((hmem y).mpr List.mem_cons_self) with rfl | hy
        · exact le_rfl
        · exact hxs.1 y hy
      have hge : key y ≤ key x := by
        rcases List.mem_cons.mp ((hmem x).mp List.mem_cons_self) with rfl | hx
        · exact le_rfl
        · exact hys.1 x hx
      have hkey : key y = key x := le_antisymm hge hle
      have hfirst := h (key x)
      rw [List.filter_cons_of_pos (by simp), List.filter_cons_of_pos (by simp [hkey])] at hfirst
      obtain rfl : x = y := (List.cons.inj hfirst).1
      have hrest : xs = ys := by
        refine ih hxs.2 hys.2 fun k => ?_
        have hk := h k
        rw [List.filter_cons, List.filter_cons] at hk
        split at hk
        next => exact (List.cons.inj hk).2
        next => exact hk
      rw [hrest]

/-- A list that is in the order of the keys and agrees with another one on each key is its stable
sort. -/
theorem eq_sortByKey (hys : ys.Pairwise fun a b => key a ≤ key b)
    (h : ∀ k, ys.filter (key · = k) = xs.filter (key · = k)) : ys = sortByKey key xs :=
  eq_of_filter_eq hys (pairwise_sortByKey key xs) fun k =>
    (h k).trans (filter_sortByKey key xs k).symm

theorem flatMap_if_eq {ks : List κ} (hks : ks.Pairwise (· < ·)) (k : κ) :
    ks.flatMap (fun k' => if k' = k then xs else []) = if k ∈ ks then xs else [] := by
  induction ks with
  | nil => rfl
  | cons k' ks ih =>
    rw [List.pairwise_cons] at hks
    rw [List.flatMap_cons, ih hks.2]
    by_cases hk : k' = k
    · have hne : k ∉ ks := fun hmem => (hk ▸ hks.1 k hmem).false
      simp [hk, hne]
    · simp [hk, Ne.symm hk]

/-- The elements of each key, one key after another, make the stable sort. -/
theorem flatMap_filter_eq_sortByKey {ks : List κ} (hks : ks.Pairwise (· < ·))
    (hmem : ∀ x ∈ xs, key x ∈ ks) :
    ks.flatMap (fun k => xs.filter (key · = k)) = sortByKey key xs := by
  have hkey : ∀ k, ∀ a ∈ xs.filter (key · = k), key a = k :=
    fun k a ha => by simpa using (List.mem_filter.mp ha).2
  refine eq_sortByKey (List.pairwise_flatMap.mpr ⟨fun k _ => ?_, hks.imp fun hlt a ha b hb => ?_⟩)
    fun k => ?_
  · refine List.pairwise_of_forall_mem_list fun a ha b hb => ?_
    rw [hkey k a ha, hkey k b hb]
  · rw [hkey _ a ha, hkey _ b hb]
    exact hlt.le
  · have hblock : ∀ k', (xs.filter (key · = k')).filter (key · = k) =
        if k' = k then xs.filter (key · = k) else [] := by
      intro k'
      by_cases hk : k' = k
      · simp [hk]
      · rw [if_neg hk, List.filter_eq_nil_iff]
        intro a ha
        simpa [hkey k' a ha] using hk
    rw [List.filter_flatMap]
    simp only [hblock]
    rw [flatMap_if_eq hks]
    split
    next => rfl
    next hk =>
      symm
      rw [List.filter_eq_nil_iff]
      intro a ha hak
      exact hk (of_decide_eq_true hak ▸ hmem a ha)

end PushDelivery
