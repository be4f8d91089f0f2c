import PushDelivery.Proofs.Text.Base64
import PushDelivery.Proofs.Text.Canonical
import PushDelivery.Push

/-!
# What a notification id tells

Octets are written in an alphabet that has the hyphen, the very character that parts them from the
seconds. But the seconds are written without one, so the first hyphen is the one between. What is in
front of it is read as the seconds and what is behind it as the octets, so that no two ids have one
text.
-/

namespace PushDelivery

namespace Numeral

def IsLowerHexDigit (x : Char) : Prop := '0' ≤ x ∧ x ≤ '9' ∨ 'a' ≤ x ∧ x ≤ 'f'

instance (x : Char) : Decidable (IsLowerHexDigit x) := inferInstanceAs (Decidable (_ ∨ _))

/-- The hexadecimal numeral of a number in lower case. Only that of zero starts with a zero. -/
structure IsHexadecimal (cs : List Char) (n : Nat) : Prop where
  isLowerHexDigit : ∀ x ∈ cs, IsLowerHexDigit x
  zero : n = 0 → cs = ['0']
  head_ne : n ≠ 0 → cs.head? ≠ some '0'
  reads : readDigits hexDigit? 16 cs = some n

theorem isLowerHexDigit_digitChar {d : Nat} (hd : d < 16) : IsLowerHexDigit (digitChar d) := by
  have h : ∀ d < 16, IsLowerHexDigit (digitChar d) := by decide +kernel
  exact h d hd

theorem digitChar_eq_zero_iff {d : Nat} (hd : d < 16) : digitChar d = '0' ↔ d = 0 := by
  have h : ∀ d < 16, digitChar d = '0' ↔ d = 0 := by decide +kernel
  exact h d hd

theorem isHexadecimal_hexadecimal (n : Nat) : IsHexadecimal (hexadecimal n).toList n where
  isLowerHexDigit := by
    rw [toList_hexadecimal, List.forall_mem_map]
    exact fun d hd => isLowerHexDigit_digitChar (lt_of_mem_digits (by decide) hd)
  zero hn := by
    subst hn
    decide +kernel
  head_ne hn h := by
    rw [toList_hexadecimal, List.head?_map] at h
    obtain ⟨d, hhead, hd⟩ := Option.map_eq_some_iff.mp h
    have hlt : d < 16 := lt_of_mem_digits (by decide) (List.mem_of_mem_head? hhead)
    rw [(digitChar_eq_zero_iff hlt).mp hd] at hhead
    have hzero := (isTrimmed_digits (by decide) n).valueOf_eq_zero hhead
    exact hn ((valueOf_digits 16 n).symm.trans hzero)
  reads := readDigits_hexadecimal n

theorem IsHexadecimal.hyphen_notMem {cs : List Char} {n : Nat} (h : IsHexadecimal cs n) :
    '-' ∉ cs :=
  fun hmem => absurd (h.isLowerHexDigit '-' hmem) (by decide)

end Numeral

namespace NotificationId

open Numeral

theorem toList_text (id : NotificationId) : id.text.toList =
    (hexadecimal id.seconds.toUInt64.toNat).toList ++ '-' :: Base64.encode id.random.toList := by
  simp [text]

theorem splitParts_append {head : List Char} (h : '-' ∉ head) (tail : List Char) :
    splitParts (head ++ '-' :: tail) = (head, tail) := by
  have hhead : ∀ x ∈ head, decide (x ≠ '-') = true :=
    fun x hx => decide_eq_true fun hhyphen => h (hhyphen ▸ hx)
  have htake : (head ++ '-' :: tail).takeWhile (· ≠ '-') = head := by
    rw [List.takeWhile_append_of_pos hhead]
    exact List.append_nil head
  have hdrop : (head ++ '-' :: tail).dropWhile (· ≠ '-') = '-' :: tail := by
    rw [List.dropWhile_append_of_pos hhead]
    rfl
  rw [splitParts, htake, hdrop]
  rfl

theorem splitParts_text (id : NotificationId) : splitParts id.text.toList =
    ((hexadecimal id.seconds.toUInt64.toNat).toList, Base64.encode id.random.toList) := by
  rw [toList_text, splitParts_append (isHexadecimal_hexadecimal _).hyphen_notMem]

/-- The text of an id is read as what the id is made of. -/
theorem read_text (id : NotificationId) :
    read id.text = some (id.seconds.toUInt64.toNat, id.random.toList) := by
  simp only [read, splitParts_text, readDigits_hexadecimal, Base64.decode_encode]
  rfl

theorem toNat_toUInt64_inj {seconds seconds' : Int64}
    (h : seconds.toUInt64.toNat = seconds'.toUInt64.toNat) : seconds = seconds' :=
  Int64.toBitVec_inj.mp (congrArg UInt64.toBitVec (UInt64.toNat_inj.mp h))

theorem text_injective : Function.Injective text := by
  rintro ⟨seconds, random⟩ ⟨seconds', random'⟩ h
  have hread := congrArg read h
  rw [read_text, read_text, Option.some.injEq, Prod.mk.injEq] at hread
  have hseconds : seconds = seconds' := toNat_toUInt64_inj hread.1
  have hrandom : random = random' := Vector.toList_inj.mp hread.2
  rw [hseconds, hrandom]

/-- A time from the epoch on is shown by the number of its seconds. -/
theorem toNat_toUInt64_of_nonneg {seconds : Int64} (h : 0 ≤ seconds.toInt) :
    seconds.toUInt64.toNat = seconds.toInt.toNat :=
  Int64.toNat_toUInt64_of_le (Int64.le_iff_toInt_le.mpr h)

/-- From the epoch on, an id is cut at its first hyphen into the seconds and the octets, each in its
own numerals: lower-case hexadecimal for the seconds, and twenty-four characters of padded Base64
for the octets, which may have more hyphens. Different ids never have one text. -/
theorem parts_unambiguous :
    (∀ id : NotificationId, 0 ≤ id.seconds.toInt → ∃ head tail,
      id.text.toList = head ++ '-' :: tail ∧ '-' ∉ head ∧
      splitParts id.text.toList = (head, tail) ∧
      IsHexadecimal head id.seconds.toInt.toNat ∧
      tail.length = 24 ∧ Base64.Spells id.random.toList tail ∧
      Base64.decode tail = some id.random.toList) ∧
    Function.Injective text := by
  refine ⟨fun id hseconds => ?_, text_injective⟩
  have hhead := isHexadecimal_hexadecimal id.seconds.toUInt64.toNat
  have htail := Base64.spells_encode id.random.toList
  refine ⟨_, _, id.toList_text, hhead.hyphen_notMem, id.splitParts_text, ?_, ?_, htail,
    Base64.decode_encode _⟩
  · rwa [toNat_toUInt64_of_nonneg hseconds] at hhead ⊢
  · rw [htail.length_eq, Vector.length_toList]

/-- The last second, and octets that bring more hyphens. -/
theorem parts_unambiguous_of_hyphens :
    let id : NotificationId := ⟨Int64.maxValue, Vector.replicate 16 0xFB⟩
    id.text = "7fffffffffffffff--_v7-_v7-_v7-_v7-_v7-w==" ∧
      ∃ head tail, splitParts id.text.toList = (head, tail) ∧
        IsHexadecimal head 0x7FFFFFFFFFFFFFFF ∧ tail.length = 24 ∧
        Base64.decode tail = some (List.replicate 16 0xFB) := by
  intro id
  obtain ⟨head, tail, -, -, hsplit, hhead, hlength, -, hdecode⟩ :=
    parts_unambiguous.1 id (by decide)
  have hseconds : id.seconds.toInt.toNat = 0x7FFFFFFFFFFFFFFF := by decide
  have hrandom : id.random.toList = List.replicate 16 0xFB := by decide
  exact ⟨by decide +kernel, head, tail, hsplit, hseconds ▸ hhead, hlength, hrandom ▸ hdecode⟩

end NotificationId

end PushDelivery
