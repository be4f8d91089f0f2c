import PushDelivery.Json.Reader
import PushDelivery.Proofs.Text.Canonical

/-!
# Numbers that are read as integers

Of the numbers that may stand in a JSON text those are read as integers that are canonical numerals
of an integer in the range of the two words. A point, an exponent, a minus sign before a zero or a
value beyond the range make a double, whatever the number's value is.
-/

namespace PushDelivery.Json

open Numeral

theorem spanDigits_append (cs : List Char) :
    (spanDigits cs).1.map digitChar ++ (spanDigits cs).2 = cs ∧
      ∀ d ∈ (spanDigits cs).1, d < 10 := by
  induction cs with
  | nil => simp [spanDigits]
  | cons c cs ih =>
    unfold spanDigits
    split
    next d hd =>
      have hlt := lt_of_decimalDigit? hd
      have hc := (digitChar_eq_iff hlt).mpr (decimalDigit?_eq_some_iff.mp hd)
      exact ⟨by rw [List.map_cons, hc, List.cons_append, ih.1],
        List.forall_mem_cons.mpr ⟨hlt, ih.2⟩⟩
    next => simp

theorem spanDigits_map_digitChar {ds : List Nat} (hds : ∀ d ∈ ds, d < 10) :
    spanDigits (ds.map digitChar) = (ds, []) := by
  induction ds with
  | nil => rfl
  | cons d ds ih =>
    rw [List.forall_mem_cons] at hds
    simp [spanDigits, decimalDigit?_digitChar hds.1, ih hds.2]

/-! ## Texts without point and exponent -/

/-- Neither a point nor an exponent is written. -/
def NumberText.IsWhole (t : NumberText) : Prop := t.fraction = [] ∧ t.exponent = none

def wholeText (negative : Bool) (whole : List Nat) : List Char :=
  if negative then '-' :: whole.map digitChar else whole.map digitChar

theorem eq_wholeText_of_read {cs : List Char} {t : NumberText} (h : readNumberText cs = some t)
    (ht : t.IsWhole) : IsTrimmed 10 t.whole ∧ cs = wholeText t.negative t.whole := by
  obtain ⟨hfraction, hexponent⟩ := ht
  unfold readNumberText at h
  split at h
  next _ negative magnitude hsign =>
  have hcs : cs = if negative then '-' :: magnitude else magnitude := by
    split at hsign <;> cases hsign <;> rfl
  obtain ⟨hspan, hlt⟩ := spanDigits_append magnitude
  dsimp only at h
  split at h
  next => cases h
  next hwhole =>
  have htrimmed : IsTrimmed 10 (spanDigits magnitude).1 := by
    refine ⟨fun hnil => hwhole (.inl hnil), hlt, fun hzero => ?_⟩
    by_contra hlength
    exact hwhole (.inr ⟨hzero, hlength⟩)
  split at h
  next _ rest _ =>
    -- After a point there is a digit.
    dsimp only at h
    split at h
    next => cases h
    next hpoint =>
      have hdigits : (spanDigits rest).1 ≠ [] := by simpa using hpoint
      split at h
      next => cases h; exact (hdigits hfraction).elim
      next =>
        split at h
        next =>
          obtain ⟨e, _, rfl⟩ := Option.map_eq_some_iff.mp h
          cases hexponent
        next => cases h
  next =>
    split at h
    next => cases h
    next =>
      split at h
      next hend =>
        cases h
        have hend' : (spanDigits magnitude).2 = [] := hend
        rw [hend', List.append_nil] at hspan
        exact ⟨htrimmed, by rw [hcs, wholeText, hspan]⟩
      next =>
        split at h
        next =>
          obtain ⟨e, _, rfl⟩ := Option.map_eq_some_iff.mp h
          cases hexponent
        next => cases h

theorem map_digitChar_ne_minus {ds : List Nat} (hds : ∀ d ∈ ds, d < 10) (rest : List Char) :
    ds.map digitChar ≠ '-' :: rest := by
  cases ds with
  | nil => simp
  | cons d ds =>
    intro h
    exact (digitChar_ne_sign (hds d List.mem_cons_self)).2 (List.cons.inj h).1

theorem read_wholeText (negative : Bool) {ds : List Nat} (hds : IsTrimmed 10 ds) :
    readNumberText (wholeText negative ds) = some ⟨negative, ds, [], none⟩ := by
  have hwhole : ¬ (ds = [] ∨ ds.head? = some 0 ∧ ds.length ≠ 1) := by
    rintro (h | ⟨h, hlength⟩)
    · exact hds.ne_nil h
    · exact hlength (hds.zero h)
  unfold readNumberText
  split
  next _ negative' magnitude hmatch =>
  have hmagnitude : negative' = negative ∧ magnitude = ds.map digitChar := by
    cases negative with
    | true =>
      rw [wholeText, if_pos rfl] at hmatch
      cases hmatch
      exact ⟨rfl, rfl⟩
    | false =>
      rw [wholeText, if_neg (by simp)] at hmatch
      split at hmatch
      next rest h => exact (map_digitChar_ne_minus hds.lt rest h).elim
      next => cases hmatch; exact ⟨rfl, rfl⟩
  obtain ⟨rfl, rfl⟩ := hmagnitude
  simp [spanDigits_map_digitChar hds.lt, hwhole]

/-! ## Integers -/

/-- An integer made of a sign and a magnitude; zero has no minus sign. -/
def Signed (negative : Bool) (magnitude : Nat) (n : Int) : Prop :=
  if negative then magnitude ≠ 0 ∧ n = -magnitude else n = magnitude

theorem isCanonical_wholeText {negative : Bool} {ds : List Nat} {n : Int}
    (hds : IsTrimmed 10 ds) :
    IsCanonical (wholeText negative ds) n ↔ Signed negative (valueOf 10 ds) n := by
  have hrun : ∀ {m : Nat}, IsTrimmedRun (ds.map digitChar) m ↔ valueOf 10 ds = m :=
    (isTrimmedRun_map_digitChar hds.lt).trans (and_iff_right hds)
  cases negative with
  | true =>
    simp only [wholeText, Signed, if_true]
    constructor
    · intro h
      cases h with
      | natural h => exact absurd (h.isDigit '-' List.mem_cons_self) (by decide)
      | negative h hn =>
        rw [hrun.mp h]
        exact ⟨hn, rfl⟩
    · rintro ⟨hn, rfl⟩
      exact .negative (hrun.mpr rfl) hn
  | false =>
    simp only [wholeText, Signed, Bool.false_eq_true, if_false]
    constructor
    · intro h
      generalize hcs : ds.map digitChar = cs at h
      cases h with
      | natural h => rw [hrun.mp (hcs ▸ h)]
      | negative h hn => exact (map_digitChar_ne_minus hds.lt _ hcs).elim
    · rintro rfl
      exact .natural (hrun.mpr rfl)

theorem exists_wholeText_of_isCanonical {cs : List Char} {n : Int} (h : IsCanonical cs n) :
    ∃ negative ds, IsTrimmed 10 ds ∧ cs = wholeText negative ds := by
  cases h with
  | @natural _ n h =>
    exact ⟨false, decimalDigits n, isTrimmed_digits (by decide) n,
      (isTrimmedRun_iff.mp h).trans (toList_decimal n)⟩
  | @negative _ n h =>
    exact ⟨true, decimalDigits n, isTrimmed_digits (by decide) n,
      congrArg ('-' :: ·) ((isTrimmedRun_iff.mp h).trans (toList_decimal n))⟩

theorem ofInt?_eq_some_iff {m n : Int} {lower : -0x8000000000000000 ≤ n}
    {upper : n < 0x10000000000000000} :
    Number.ofInt? m = some (.integer n lower upper) ↔ m = n := by
  unfold Number.ofInt?
  split
  next => simp
  next h =>
    refine ⟨nofun, ?_⟩
    rintro rfl
    exact (h ⟨lower, upper⟩).elim

theorem ofBinary64?_ne_integer (x : Option Binary64) {n : Int} {lower : -0x8000000000000000 ≤ n}
    {upper : n < 0x10000000000000000} :
    x.bind Number.ofBinary64? ≠ some (.integer n lower upper) := by
  intro h
  obtain ⟨x, -, h⟩ := Option.bind_eq_some_iff.mp h
  unfold Number.ofBinary64? at h
  split at h <;> cases h

theorem NumberText.toNumber?_eq_integer_iff {t : NumberText} {n : Int}
    {lower : -0x8000000000000000 ≤ n} {upper : n < 0x10000000000000000} :
    t.toNumber? = some (.integer n lower upper) ↔
      t.IsWhole ∧ Signed t.negative (valueOf 10 t.whole) n := by
  have hreal : t.toBinary64?.bind Number.ofBinary64? ≠ some (.integer n lower upper) :=
    ofBinary64?_ne_integer t.toBinary64?
  have hor (m : Int) : (Number.ofInt? m).or (t.toBinary64?.bind Number.ofBinary64?) =
      some (.integer n lower upper) ↔ n = m := by
    rw [Option.or_eq_some_iff, ofInt?_eq_some_iff, eq_comm]
    exact or_iff_left fun h => hreal h.2
  have hwhole : (t.fraction.isEmpty && t.exponent.isNone) = true ↔ t.IsWhole := by
    simp [IsWhole]
  unfold toNumber? Signed
  dsimp only
  split
  next h =>
    rw [and_iff_right (hwhole.mp h)]
    split
    next =>
      split
      next hzero => simp [hreal, hzero]
      next hzero => rw [hor, and_iff_right hzero]
    next => exact hor _
  next h => exact ⟨fun h' => (hreal h').elim, fun h' => (h (hwhole.mpr h'.1)).elim⟩

/-- A number is read as an integer exactly if it is the integer's canonical numeral. -/
theorem readNumber_eq_integer_iff {cs : List Char} {n : Int} {lower : -0x8000000000000000 ≤ n}
    {upper : n < 0x10000000000000000} :
    (readNumberText cs).bind (·.toNumber?) = some (.integer n lower upper) ↔
      IsCanonical cs n := by
  rw [Option.bind_eq_some_iff]
  constructor
  · rintro ⟨t, hread, ht⟩
    obtain ⟨hwhole, hsigned⟩ := NumberText.toNumber?_eq_integer_iff.mp ht
    obtain ⟨htrimmed, rfl⟩ := eq_wholeText_of_read hread hwhole
    exact (isCanonical_wholeText htrimmed).mpr hsigned
  · intro h
    obtain ⟨negative, ds, hds, rfl⟩ := exists_wholeText_of_isCanonical h
    exact ⟨_, read_wholeText negative hds, NumberText.toNumber?_eq_integer_iff.mpr
      ⟨⟨rfl, rfl⟩, (isCanonical_wholeText hds).mp h⟩⟩

example : (readNumberText "-0".toList).bind (·.toNumber?) =
    some (.real ⟨0x8000000000000000⟩ (by decide)) := by decide +kernel

end PushDelivery.Json
