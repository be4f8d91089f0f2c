import Mathlib.Data.Nat.Digits.Defs
import Mathlib.Data.Nat.Digits.Lemmas
import PushDelivery.Proofs.Text.Spelling

/-!
# Canonical numerals

Many texts spell one integer. The canonical one has no plus sign, no zero in front that could be
left out and no minus sign before a zero; it is the one that is written. The digits that are written
are those without such a zero, each list for the number that it denotes.
-/

namespace PushDelivery.Numeral

/-! ## Digits -/

/-- Digits of a base, with no zero in front that could be left out. -/
structure IsTrimmed (base : Nat) (ds : List Nat) : Prop where
  ne_nil : ds ≠ []
  lt : ∀ d ∈ ds, d < base
  zero : ds.head? = some 0 → ds.length = 1

theorem digits_eq_reverse {base n : Nat} (hbase : 2 ≤ base) (hn : n ≠ 0) :
    digits base n = (Nat.digits base n).reverse := by
  fun_induction digits base n with
  | case1 n h => rw [Nat.digits_of_lt base n hn (by omega), List.reverse_singleton]
  | case2 n h ih =>
    have hquotient : n / base ≠ 0 := (Nat.div_pos (by omega) (by omega)).ne'
    rw [ih hquotient, Nat.digits_def' (b := base) (n := n) (by omega) (by omega),
      List.reverse_cons]

theorem isTrimmed_digits {base : Nat} (hbase : 2 ≤ base) (n : Nat) :
    IsTrimmed base (digits base n) where
  ne_nil := digits_ne_nil base n
  lt _ := lt_of_mem_digits hbase
  zero h := by
    by_cases hn : n = 0
    · subst hn
      rw [digits, if_pos (.inr (by omega))]
      rfl
    · rw [digits_eq_reverse hbase hn, List.head?_reverse] at h
      have hlast := Nat.getLast_digit_ne_zero base hn
      exact (hlast (Option.some.inj ((List.getLast?_eq_some_getLast _).symm.trans h))).elim

/-- A zero in front is all there is, so the number is zero. -/
theorem IsTrimmed.valueOf_eq_zero {base : Nat} {ds : List Nat} (h : IsTrimmed base ds)
    (hhead : ds.head? = some 0) : valueOf base ds = 0 := by
  obtain ⟨d, rfl⟩ := List.length_eq_one_iff.mp (h.zero hhead)
  have hd : d = 0 := Option.some.inj hhead
  simp [valueOf, hd]

/-- Trimmed digits are the digits of the number that they denote. -/
theorem IsTrimmed.digits_valueOf {base : Nat} {ds : List Nat} (hbase : 2 ≤ base)
    (h : IsTrimmed base ds) : digits base (valueOf base ds) = ds := by
  by_cases hzero : ds.head? = some 0
  · obtain ⟨d, rfl⟩ := List.length_eq_one_iff.mp (h.zero hzero)
    rw [digits, if_pos (.inr (by simpa [valueOf] using h.lt d))]
    simp [valueOf]
  · have hlast : ∀ hne : ds.reverse ≠ [], ds.reverse.getLast hne ≠ 0 := by
      intro hne h0
      rw [List.getLast_reverse] at h0
      exact hzero (by rw [List.head?_eq_some_head h.ne_nil, h0])
    have hdigits : Nat.digits base (valueOf base ds) = ds.reverse := by
      rw [valueOf_eq_ofDigits]
      exact Nat.digits_ofDigits base (by omega) _ (fun d hd => h.lt d (List.mem_reverse.mp hd))
        hlast
    have hvalue : valueOf base ds ≠ 0 := by
      intro h0
      rw [h0, Nat.digits_zero] at hdigits
      exact h.ne_nil (List.reverse_eq_nil_iff.mp hdigits.symm)
    rw [digits_eq_reverse hbase hvalue, hdigits, List.reverse_reverse]

theorem digits_eq_iff {base n : Nat} {ds : List Nat} (hbase : 2 ≤ base) :
    digits base n = ds ↔ IsTrimmed base ds ∧ valueOf base ds = n := by
  constructor
  · rintro rfl
    exact ⟨isTrimmed_digits hbase n, valueOf_digits base n⟩
  · rintro ⟨h, rfl⟩
    exact h.digits_valueOf hbase

/-! ## Texts -/

/-- A run of digits, with no zero in front that could be left out. -/
structure IsTrimmedRun (cs : List Char) (n : Nat) : Prop extends IsRun cs n where
  zero : cs.head? = some '0' → cs.length = 1

/-- The canonical numeral of an integer. -/
inductive IsCanonical : List Char → Int → Prop
  | natural {cs : List Char} {n : Nat} : IsTrimmedRun cs n → IsCanonical cs n
  | negative {cs : List Char} {n : Nat} : IsTrimmedRun cs n → n ≠ 0 → IsCanonical ('-' :: cs) (-n)

theorem IsCanonical.spells {cs : List Char} {n : Int} (h : IsCanonical cs n) : Spells cs n := by
  cases h with
  | natural h => exact .plain h.toIsRun
  | negative h _ => exact .minus h.toIsRun

theorem lt_of_decimalDigit? {c : Char} {d : Nat} (h : decimalDigit? c = some d) : d < 10 := by
  obtain ⟨⟨_, hhigh⟩, rfl⟩ := decimalDigit?_eq_some_iff.mp h
  have hhigh' : c.toNat ≤ '9'.toNat := hhigh
  exact Nat.lt_of_le_of_lt (Nat.sub_le_sub_right hhigh' _) (by decide)

/-- A digit is written as the character that is read as this digit. -/
theorem digitChar_eq_iff {c : Char} {d : Nat} (hd : d < 10) :
    digitChar d = c ↔ IsDigit c ∧ c.toNat - '0'.toNat = d := by
  rw [← decimalDigit?_eq_some_iff]
  constructor
  · rintro rfl
    exact decimalDigit?_digitChar hd
  · intro h
    obtain ⟨⟨hlow, hhigh⟩, rfl⟩ := decimalDigit?_eq_some_iff.mp h
    have hlow' : '0'.toNat ≤ c.toNat := hlow
    rw [digitChar, if_pos hd, Nat.add_sub_cancel' hlow', Char.ofNat_toNat]

theorem map_digitChar_eq_iff {cs : List Char} {ds : List Nat} (hds : ∀ d ∈ ds, d < 10) :
    ds.map digitChar = cs ↔
      (∀ c ∈ cs, IsDigit c) ∧ cs.map (fun c => c.toNat - '0'.toNat) = ds := by
  induction cs generalizing ds with
  | nil => simp [eq_comm]
  | cons c cs ih =>
    cases ds with
    | nil => simp
    | cons d ds =>
      rw [List.forall_mem_cons] at hds
      simp only [List.map_cons, List.cons.injEq, List.forall_mem_cons, ih hds.2,
        digitChar_eq_iff hds.1]
      tauto

theorem isTrimmedRun_map_digitChar {ds : List Nat} {n : Nat} (hds : ∀ d ∈ ds, d < 10) :
    IsTrimmedRun (ds.map digitChar) n ↔ IsTrimmed 10 ds ∧ valueOf 10 ds = n := by
  have hread : readDigits decimalDigit? 10 (ds.map digitChar) = some n ↔
      ds ≠ [] ∧ valueOf 10 ds = n := by
    cases ds with
    | nil => simp [readDigits]
    | cons d ds =>
      have hmap := mapM_digitChar (fun _ => decimalDigit?_digitChar) hds
      rw [List.map_cons] at hmap ⊢
      simp [readDigits, hmap]
  have hhead : (ds.map digitChar).head? = some '0' ↔ ds.head? = some 0 := by
    cases ds with
    | nil => simp
    | cons d ds =>
      have hd : digitChar d = '0' ↔ d = 0 := by
        rw [digitChar_eq_iff (hds d List.mem_cons_self)]
        exact ⟨fun h => h.2.symm, fun h => ⟨by decide, h.symm⟩⟩
      simpa using hd
  have hlength : (ds.map digitChar).length = ds.length := List.length_map _
  constructor
  · intro h
    obtain ⟨hne, hvalue⟩ := hread.mp (readDigits_eq_some_iff.mpr h.toIsRun)
    exact ⟨⟨hne, hds, fun h0 => hlength ▸ h.zero (hhead.mpr h0)⟩, hvalue⟩
  · rintro ⟨h, hvalue⟩
    exact ⟨readDigits_eq_some_iff.mp (hread.mpr ⟨h.ne_nil, hvalue⟩),
      fun h0 => hlength.trans (h.zero (hhead.mp h0))⟩

theorem isTrimmedRun_iff {cs : List Char} {n : Nat} :
    IsTrimmedRun cs n ↔ cs = (decimal n).toList := by
  rw [toList_decimal]
  constructor
  · intro h
    have hds : ∀ d ∈ cs.map fun c => c.toNat - '0'.toNat, d < 10 := by
      intro d hd
      obtain ⟨c, hc, rfl⟩ := List.mem_map.mp hd
      exact lt_of_decimalDigit? (decimalDigit?_eq_some_iff.mpr ⟨h.isDigit c hc, rfl⟩)
    have hcs := (map_digitChar_eq_iff hds).mpr ⟨h.isDigit, rfl⟩
    rw [← hcs, isTrimmedRun_map_digitChar hds, ← digits_eq_iff (by decide)] at h
    rw [decimalDigits, h, hcs]
  · rintro rfl
    rw [isTrimmedRun_map_digitChar fun d => lt_of_mem_decimalDigits, decimalDigits,
      ← digits_eq_iff (by decide)]

theorem toList_signedDecimal_neg {n : Nat} (hn : n ≠ 0) :
    (signedDecimal (-n)).toList = '-' :: (decimal n).toList := by
  obtain ⟨m, rfl⟩ := Nat.exists_eq_succ_of_ne_zero hn
  have hneg : (-(m.succ : Nat) : Int) = .negSucc m := rfl
  rw [hneg, signedDecimal, String.toList_append]
  rfl

/-- The numeral that is written is the canonical one. -/
theorem isCanonical_iff {cs : List Char} {n : Int} :
    IsCanonical cs n ↔ cs = (signedDecimal n).toList := by
  constructor
  · intro h
    cases h with
    | natural h => exact isTrimmedRun_iff.mp h
    | negative h hn => rw [toList_signedDecimal_neg hn, isTrimmedRun_iff.mp h]
  · rintro rfl
    cases n with
    | ofNat n => exact .natural (isTrimmedRun_iff.mpr rfl)
    | negSucc n =>
      have hneg : Int.negSucc n = -(n.succ : Nat) := rfl
      rw [hneg, toList_signedDecimal_neg n.succ_ne_zero]
      exact .negative (isTrimmedRun_iff.mpr rfl) n.succ_ne_zero

end PushDelivery.Numeral
