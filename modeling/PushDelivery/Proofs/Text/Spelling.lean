import Mathlib.Data.List.Induction
import Mathlib.Data.Nat.Digits.Defs
import Mathlib.Tactic.Ring
import PushDelivery.Proofs.Text.Numeral

/-!
# What is read as an integer

The reader of integers is compared with a description of the texts that spell one: an optional sign
before a non-empty run of decimal digits, which stands for the sum of its digits by place. The
reader takes exactly these texts, each for the integer that it spells, and the reader of 64-bit
words those that spell an integer in its range. A run may start with zeros, and zero may have a
sign. For the reader of natural numbers the sign can only be a plus.
-/

namespace PushDelivery.Numeral

def IsDigit (c : Char) : Prop := '0' ≤ c ∧ c ≤ '9'

instance (c : Char) : Decidable (IsDigit c) := inferInstanceAs (Decidable (_ ∧ _))

/-- A non-empty run of digits, and the number that it stands for. -/
structure IsRun (cs : List Char) (n : Nat) : Prop where
  ne_nil : cs ≠ []
  isDigit : ∀ c ∈ cs, IsDigit c
  value : n = Nat.ofDigits 10 (cs.reverse.map fun c => c.toNat - '0'.toNat)

/-- A text that spells a natural number. -/
inductive SpellsNatural : List Char → Nat → Prop
  | plain {cs : List Char} {n : Nat} : IsRun cs n → SpellsNatural cs n
  | plus {cs : List Char} {n : Nat} : IsRun cs n → SpellsNatural ('+' :: cs) n

/-- A text that spells an integer. -/
inductive Spells : List Char → Int → Prop
  | plain {cs : List Char} {n : Nat} : IsRun cs n → Spells cs n
  | plus {cs : List Char} {n : Nat} : IsRun cs n → Spells ('+' :: cs) n
  | minus {cs : List Char} {n : Nat} : IsRun cs n → Spells ('-' :: cs) (-n)

theorem valueOf_eq_ofDigits (base : Nat) (ds : List Nat) :
    valueOf base ds = Nat.ofDigits base ds.reverse := by
  induction ds using List.reverseRecOn with
  | nil => rfl
  | append_singleton ds d ih =>
    rw [valueOf_append_singleton, ih, List.reverse_concat, Nat.ofDigits_cons]
    ring

theorem decimalDigit?_eq_some_iff {c : Char} {d : Nat} :
    decimalDigit? c = some d ↔ IsDigit c ∧ c.toNat - '0'.toNat = d := by
  simp [decimalDigit?, IsDigit]

theorem mapM_decimalDigit?_eq_some_iff {cs : List Char} {ds : List Nat} :
    cs.mapM decimalDigit? = some ds ↔
      (∀ c ∈ cs, IsDigit c) ∧ cs.map (fun c => c.toNat - '0'.toNat) = ds := by
  induction cs generalizing ds with
  | nil => simp
  | cons c cs ih =>
    rw [List.mapM_cons, List.forall_mem_cons, List.map_cons]
    constructor
    · intro h
      obtain ⟨d, hd, h⟩ := Option.bind_eq_some_iff.mp h
      obtain ⟨ds', hds, h⟩ := Option.bind_eq_some_iff.mp h
      cases h
      obtain ⟨hdigit, rfl⟩ := decimalDigit?_eq_some_iff.mp hd
      obtain ⟨hdigits, rfl⟩ := ih.mp hds
      exact ⟨⟨hdigit, hdigits⟩, rfl⟩
    · rintro ⟨⟨hdigit, hdigits⟩, rfl⟩
      rw [decimalDigit?_eq_some_iff.mpr ⟨hdigit, rfl⟩, ih.mpr ⟨hdigits, rfl⟩]
      rfl

theorem readDigits_eq_some_iff {cs : List Char} {n : Nat} :
    readDigits decimalDigit? 10 cs = some n ↔ IsRun cs n := by
  cases hcs : cs with
  | nil => exact ⟨nofun, fun h => (h.ne_nil rfl).elim⟩
  | cons c rest =>
    rw [← hcs]
    have hread : readDigits decimalDigit? 10 cs = (cs.mapM decimalDigit?).map (valueOf 10) := by
      rw [hcs]
      rfl
    rw [hread, Option.map_eq_some_iff]
    constructor
    · rintro ⟨ds, hds, rfl⟩
      obtain ⟨hdigits, rfl⟩ := mapM_decimalDigit?_eq_some_iff.mp hds
      exact ⟨by simp [hcs], hdigits, by rw [valueOf_eq_ofDigits, List.map_reverse]⟩
    · intro h
      refine ⟨_, mapM_decimalDigit?_eq_some_iff.mpr ⟨h.isDigit, rfl⟩, ?_⟩
      rw [h.value, valueOf_eq_ofDigits, List.map_reverse]

/-- A run of digits does not start with a sign. -/
theorem IsRun.ne_sign {cs : List Char} {n : Nat} (h : IsRun cs n) (rest : List Char) :
    cs ≠ '+' :: rest ∧ cs ≠ '-' :: rest := by
  constructor
  all_goals
    rintro rfl
    exact absurd (h.isDigit _ List.mem_cons_self) (by decide)

/-- The reader of natural numbers takes exactly the texts that spell one. -/
theorem readNatural_eq_some_iff {s : String} {n : Nat} :
    readNatural s = some n ↔ SpellsNatural s.toList n := by
  unfold readNatural
  constructor
  · intro h
    split at h
    next rest hs => exact hs ▸ .plus (readDigits_eq_some_iff.mp h)
    next => exact .plain (readDigits_eq_some_iff.mp h)
  · intro h
    generalize s.toList = cs at h
    cases h with
    | plain hrun =>
      split
      next rest => exact ((hrun.ne_sign rest).1 rfl).elim
      next => exact readDigits_eq_some_iff.mpr hrun
    | plus hrun => exact readDigits_eq_some_iff.mpr hrun

/-- The reader takes exactly the texts that spell an integer. -/
theorem readInteger_eq_some_iff {s : String} {n : Int} :
    readInteger s = some n ↔ Spells s.toList n := by
  unfold readInteger
  constructor
  · intro h
    split at h
    next rest hs =>
      obtain ⟨m, hm, rfl⟩ := Option.map_eq_some_iff.mp h
      exact hs ▸ .plus (readDigits_eq_some_iff.mp hm)
    next rest hs =>
      obtain ⟨m, hm, rfl⟩ := Option.map_eq_some_iff.mp h
      exact hs ▸ .minus (readDigits_eq_some_iff.mp hm)
    next =>
      obtain ⟨m, hm, rfl⟩ := Option.map_eq_some_iff.mp h
      exact .plain (readDigits_eq_some_iff.mp hm)
  · intro h
    generalize s.toList = cs at h
    cases h with
    | plain hrun =>
      split
      next rest => exact ((hrun.ne_sign rest).1 rfl).elim
      next rest => exact ((hrun.ne_sign rest).2 rfl).elim
      next =>
        rw [readDigits_eq_some_iff.mpr hrun]
        rfl
    | plus hrun | minus hrun =>
      simp only
      rw [readDigits_eq_some_iff.mpr hrun]
      rfl

/-- A text is read as a 64-bit word exactly if it spells the value of that word. -/
theorem readInt64_eq_some_iff {s : String} {id : Int64} :
    readInt64 s = some id ↔ Spells s.toList id.toInt := by
  rw [← readInteger_eq_some_iff, readInt64, Option.bind_eq_some_iff]
  have hlow : -0x8000000000000000 ≤ id.toInt := id.le_toInt
  have hhigh : id.toInt < 0x8000000000000000 := id.toInt_lt
  constructor
  · rintro ⟨n, hn, h⟩
    split at h <;> cases h
    next hrange =>
      have hid : (Int64.ofInt n).toInt = n := Int64.toInt_ofInt_of_le hrange.1 hrange.2
      rw [hn, hid]
  · intro h
    exact ⟨id.toInt, h, by rw [if_pos ⟨hlow, hhigh⟩, Int64.ofInt_toInt]⟩

end PushDelivery.Numeral
