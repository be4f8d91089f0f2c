import PushDelivery.Text

/-!
# Written numerals are read back

A number written in digits is read as itself, in decimal also with its sign and as a 64-bit word. So
the id of a subscription survives its passage as text.
-/

namespace PushDelivery.Numeral

theorem digits_ne_nil (base n : Nat) : digits base n ≠ [] := by
  unfold digits
  split <;> simp

theorem lt_of_mem_digits {base n d : Nat} (hbase : 2 ≤ base) (h : d ∈ digits base n) :
    d < base := by
  fun_induction digits base n with
  | case1 n hn =>
    have hd := List.mem_singleton.mp h
    omega
  | case2 n hn ih =>
    rcases List.mem_append.mp h with h | h
    · exact ih h
    · rw [List.mem_singleton.mp h]
      exact Nat.mod_lt _ (by omega)

theorem valueOf_append_singleton (base : Nat) (ds : List Nat) (d : Nat) :
    valueOf base (ds ++ [d]) = valueOf base ds * base + d := by
  simp [valueOf]

theorem valueOf_digits (base n : Nat) : valueOf base (digits base n) = n := by
  fun_induction digits base n with
  | case1 n hn => simp [valueOf]
  | case2 n hn ih =>
    rw [valueOf_append_singleton, ih]
    exact Nat.div_add_mod' n base

theorem decimalDigit?_digitChar {d : Nat} (hd : d < 10) : decimalDigit? (digitChar d) = some d := by
  have h : ∀ d < 10, decimalDigit? (digitChar d) = some d := by decide
  exact h d hd

/-- No digit is a sign. -/
theorem digitChar_ne_sign {d : Nat} (hd : d < 10) : digitChar d ≠ '+' ∧ digitChar d ≠ '-' := by
  have h : ∀ d < 10, digitChar d ≠ '+' ∧ digitChar d ≠ '-' := by decide
  exact h d hd

theorem hexDigit?_digitChar {d : Nat} (hd : d < 16) : hexDigit? (digitChar d) = some d := by
  have h : ∀ d < 16, hexDigit? (digitChar d) = some d := by decide
  exact h d hd

section Readers

/-! A reader of digits fits a base if it reads each digit below the base as it is written. -/

variable {digit? : Char → Option Nat} {base : Nat}

theorem mapM_digitChar (hdigit : ∀ d < base, digit? (digitChar d) = some d) {ds : List Nat}
    (hds : ∀ d ∈ ds, d < base) : (ds.map digitChar).mapM digit? = some ds := by
  induction ds with
  | nil => rfl
  | cons d ds ih =>
    rw [List.forall_mem_cons] at hds
    simp [hdigit d hds.1, ih hds.2]

/-- The digits of a number are read as this number. -/
theorem readDigits_digits (hbase : 2 ≤ base) (hdigit : ∀ d < base, digit? (digitChar d) = some d)
    (n : Nat) : readDigits digit? base ((digits base n).map digitChar) = some n := by
  have hmap := mapM_digitChar hdigit fun d (h : d ∈ digits base n) => lt_of_mem_digits hbase h
  have hne : (digits base n).map digitChar ≠ [] := by
    simpa using digits_ne_nil base n
  unfold readDigits
  split
  next h => exact (hne h).elim
  next => rw [hmap, Option.map_some, valueOf_digits]

end Readers

theorem toList_decimal (n : Nat) : (decimal n).toList = (decimalDigits n).map digitChar := by
  simp [decimal]

theorem lt_of_mem_decimalDigits {n d : Nat} (h : d ∈ decimalDigits n) : d < 10 :=
  lt_of_mem_digits (by decide) h

theorem readDigits_decimal (n : Nat) :
    readDigits decimalDigit? 10 (decimal n).toList = some n := by
  rw [toList_decimal]
  exact readDigits_digits (by decide) (fun _ => decimalDigit?_digitChar) n

theorem toList_hexadecimal (n : Nat) : (hexadecimal n).toList = (digits 16 n).map digitChar := by
  simp [hexadecimal]

theorem readDigits_hexadecimal (n : Nat) :
    readDigits hexDigit? 16 (hexadecimal n).toList = some n := by
  rw [toList_hexadecimal]
  exact readDigits_digits (by decide) (fun _ => hexDigit?_digitChar) n

/-- A decimal numeral starts with a digit. -/
theorem toList_decimal_ne_sign (n : Nat) (rest : List Char) :
    (decimal n).toList ≠ '+' :: rest ∧ (decimal n).toList ≠ '-' :: rest := by
  rw [toList_decimal]
  cases hds : decimalDigits n with
  | nil => simp
  | cons d ds =>
    have hd : d < 10 := lt_of_mem_decimalDigits (n := n) (by simp [hds])
    simp [digitChar_ne_sign hd]

theorem readNatural_decimal (n : Nat) : readNatural (decimal n) = some n := by
  unfold readNatural
  split
  next rest h => exact ((toList_decimal_ne_sign n rest).1 h).elim
  next => exact readDigits_decimal n

theorem readInteger_signedDecimal (n : Int) : readInteger (signedDecimal n) = some n := by
  cases n with
  | ofNat n =>
    unfold readInteger signedDecimal
    split
    next rest h => exact ((toList_decimal_ne_sign n rest).1 h).elim
    next rest h => exact ((toList_decimal_ne_sign n rest).2 h).elim
    next => rw [readDigits_decimal, Option.map_some]
  | negSucc n =>
    have h : (signedDecimal (.negSucc n)).toList = '-' :: (decimal (n + 1)).toList := by
      simp [signedDecimal]
    simp only [readInteger, h, readDigits_decimal]
    rfl

/-- The id of a subscription is read back from its numeral. -/
theorem readInt64_signedDecimal (id : Int64) : readInt64 (signedDecimal id.toInt) = some id := by
  have hlow : -0x8000000000000000 ≤ id.toInt := id.le_toInt
  have hhigh : id.toInt < 0x8000000000000000 := id.toInt_lt
  rw [readInt64, readInteger_signedDecimal, Option.bind_some, if_pos ⟨hlow, hhigh⟩,
    Int64.ofInt_toInt]

end PushDelivery.Numeral
