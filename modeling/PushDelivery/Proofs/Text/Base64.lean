import PushDelivery.Proofs.Text.Spelling
import PushDelivery.Text

/-!
# What a Base64 text stands for

A text of the alphabet is a number in base 64, and octets are a number in base 256. The text of some
octets shows their number, moved up by the zero bits that fill its last sextet, two for each equals
sign behind it. The written text is of this form, and it is read as the octets that it was
written for.
-/

namespace PushDelivery.Numeral

theorem valueOf_append (base : Nat) (xs ys : List Nat) :
    valueOf base (xs ++ ys) = valueOf base xs * base ^ ys.length + valueOf base ys := by
  rw [valueOf_eq_ofDigits, List.reverse_append, Nat.ofDigits_append, List.length_reverse,
    ← valueOf_eq_ofDigits, ← valueOf_eq_ofDigits, Nat.mul_comm, Nat.add_comm]

end PushDelivery.Numeral

namespace PushDelivery.Base64

open Numeral

def alphabet : List Char :=
  "ABCDEFGHIJKLMNOPQRSTUVWXYZabcdefghijklmnopqrstuvwxyz0123456789-_".toList

/-- Characters that stand for some octets, in front of a padding. -/
structure IsBody (octets : List UInt8) (body : List Char) (padding : Nat) : Prop where
  mem_alphabet : ∀ x ∈ body, x ∈ alphabet
  lt : padding < 3
  /-- Four places of the text are three of the octets. -/
  groups : ∃ n, body.length + padding = 4 * n ∧ octets.length + padding = 3 * n
  value : valueOf 64 (body.map alphabet.idxOf) =
    valueOf 256 (octets.map UInt8.toNat) * 4 ^ padding

/-- The padded text of some octets. -/
inductive Spells (octets : List UInt8) : List Char → Prop
  | padded {body : List Char} {padding : Nat} : IsBody octets body padding →
      Spells octets (body ++ List.replicate padding '=')

variable {octets : List UInt8} {text : List Char} {n : Nat}

theorem Spells.length_eq (h : Spells octets text) :
    text.length = 4 * ((octets.length + 2) / 3) := by
  obtain ⟨h⟩ := h
  have hlt := h.lt
  obtain ⟨n, hbody, hoctets⟩ := h.groups
  rw [List.length_append, List.length_replicate, hbody]
  omega

/-! ## Sextets -/

theorem alphabet_eq : alphabet = (List.range 64).map sextetChar := by decide +kernel

theorem sextetChar_mem_alphabet (hn : n < 64) : sextetChar n ∈ alphabet := by
  rw [alphabet_eq]
  exact List.mem_map_of_mem (List.mem_range.mpr hn)

theorem idxOf_sextetChar (hn : n < 64) : alphabet.idxOf (sextetChar n) = n := by
  have h : ∀ n < 64, ((List.range 64).map sextetChar).idxOf (sextetChar n) = n := by
    decide +kernel
  rw [alphabet_eq]
  exact h n hn

theorem sextet?_sextetChar (hn : n < 64) : sextet? (sextetChar n) = some n := by
  have h : ∀ n < 64, sextet? (sextetChar n) = some n := by decide +kernel
  exact h n hn

/-- An equals sign is never mistaken for a sextet. -/
theorem sextetChar_ne_padding (hn : n < 64) : sextetChar n ≠ '=' := by
  have h : ∀ n < 64, sextetChar n ≠ '=' := by decide +kernel
  exact h n hn

/-- A number in base 64. -/
structure IsSextets (ns : List Nat) (n : Nat) : Prop where
  lt : ∀ m ∈ ns, m < 64
  value : valueOf 64 ns = n

theorem isSextets_one (hn : n < 64) : IsSextets [n] n where
  lt := List.forall_mem_singleton.mpr hn
  value := by simp [valueOf]

theorem IsSextets.concat {ns : List Nat} (h : IsSextets ns (n / 64)) :
    IsSextets (ns ++ [n % 64]) n where
  lt := by
    rw [List.forall_mem_append, List.forall_mem_singleton]
    exact ⟨h.lt, Nat.mod_lt n (by decide)⟩
  value := by rw [valueOf_append_singleton, h.value, Nat.div_add_mod']

theorem isSextets_two (hn : n < 4096) : IsSextets [n / 64, n % 64] n :=
  (isSextets_one (Nat.div_lt_of_lt_mul hn)).concat

theorem isSextets_three (hn : n < 262144) : IsSextets [n / 4096, n / 64 % 64, n % 64] n := by
  have h : IsSextets [n / 64 / 64, n / 64 % 64] (n / 64) :=
    isSextets_two (Nat.div_lt_of_lt_mul hn)
  rw [Nat.div_div_eq_div_mul] at h
  exact h.concat

theorem isSextets_four (hn : n < 16777216) :
    IsSextets [n / 262144, n / 4096 % 64, n / 64 % 64, n % 64] n := by
  have h : IsSextets [n / 64 / 4096, n / 64 / 64 % 64, n / 64 % 64] (n / 64) :=
    isSextets_three (Nat.div_lt_of_lt_mul hn)
  rw [Nat.div_div_eq_div_mul, Nat.div_div_eq_div_mul] at h
  exact h.concat

/-! ## Writing -/

/-- Sextets and octets that fill the same groups have the same number of bits. -/
theorem pow_length_eq {sextets octets padding n : Nat} (hsextets : sextets + padding = 4 * n)
    (hoctets : octets + padding = 3 * n) : 64 ^ sextets = 256 ^ octets * 4 ^ padding := by
  have h64 : (64 : Nat) = 2 ^ 6 := rfl
  have h256 : (256 : Nat) = 2 ^ 8 := rfl
  have h4 : (4 : Nat) = 2 ^ 2 := rfl
  rw [h64, h256, h4, ← pow_mul, ← pow_mul, ← pow_mul, ← pow_add]
  congr 1
  omega

theorem IsSextets.isBody {ns : List Nat} {padding : Nat} (h : IsSextets ns n) (hlt : padding < 3)
    (hgroups : ∃ n, ns.length + padding = 4 * n ∧ octets.length + padding = 3 * n)
    (hvalue : n = valueOf 256 (octets.map UInt8.toNat) * 4 ^ padding) :
    IsBody octets (ns.map sextetChar) padding where
  mem_alphabet := by
    rw [List.forall_mem_map]
    exact fun n hn => sextetChar_mem_alphabet (h.lt n hn)
  lt := hlt
  groups := by rwa [List.length_map]
  value := by
    have hidx : ns.map (alphabet.idxOf ∘ sextetChar) = ns.map id :=
      List.map_congr_left fun n hn => idxOf_sextetChar (h.lt n hn)
    rw [List.map_map, hidx, List.map_id, h.value, hvalue]

/-- Whole groups can stand in front of others. -/
theorem IsBody.append {first : List UInt8} {front body : List Char} {padding : Nat}
    (hfront : IsBody first front 0) (h : IsBody octets body padding) :
    IsBody (first ++ octets) (front ++ body) padding := by
  obtain ⟨m, hm, hm'⟩ := hfront.groups
  obtain ⟨n, hn, hn'⟩ := h.groups
  refine ⟨List.forall_mem_append.mpr ⟨hfront.mem_alphabet, h.mem_alphabet⟩, h.lt,
    ⟨m + n, by rw [List.length_append]; omega, by rw [List.length_append]; omega⟩, ?_⟩
  have hpow := pow_length_eq hn hn'
  rw [List.map_append, List.map_append, valueOf_append, valueOf_append, hfront.value, h.value,
    List.length_map, List.length_map, hpow]
  ring

theorem Spells.append {first : List UInt8} {front : List Char} (h : Spells octets text)
    (hfront : IsBody first front 0) : Spells (first ++ octets) (front ++ text) := by
  obtain ⟨h⟩ := h
  rw [← List.append_assoc]
  exact .padded (hfront.append h)

/-- The written text stands for its octets. -/
theorem spells_encode (octets : List UInt8) : Spells octets (encode octets) := by
  fun_induction encode octets with
  | case1 =>
    have hsextets : IsSextets [] 0 := ⟨List.forall_mem_nil _, rfl⟩
    have hbody : IsBody [] [] 0 := hsextets.isBody (by decide) ⟨0, rfl, rfl⟩ rfl
    exact .padded hbody
  | case2 a n =>
    have ha : a.toNat < 256 := a.toNat_lt
    have hsextets : IsSextets [n / 64, n % 64] n := isSextets_two (by omega)
    have hbody : IsBody [a] [sextetChar (n / 64), sextetChar (n % 64)] 2 :=
      hsextets.isBody (by decide) ⟨1, rfl, rfl⟩ (by simp [valueOf, n])
    exact .padded hbody
  | case3 a b n =>
    have ha : a.toNat < 256 := a.toNat_lt
    have hb : b.toNat < 256 := b.toNat_lt
    have hsextets : IsSextets [n / 4096, n / 64 % 64, n % 64] n := isSextets_three (by omega)
    have hbody : IsBody [a, b]
        [sextetChar (n / 4096), sextetChar (n / 64 % 64), sextetChar (n % 64)] 1 :=
      hsextets.isBody (by decide) ⟨1, rfl, rfl⟩ (by simp [valueOf, n])
    exact .padded hbody
  | case4 a b c rest n ih =>
    have ha : a.toNat < 256 := a.toNat_lt
    have hb : b.toNat < 256 := b.toNat_lt
    have hc : c.toNat < 256 := c.toNat_lt
    have hsextets : IsSextets [n / 262144, n / 4096 % 64, n / 64 % 64, n % 64] n :=
      isSextets_four (by omega)
    have hfront : IsBody [a, b, c] [sextetChar (n / 262144), sextetChar (n / 4096 % 64),
        sextetChar (n / 64 % 64), sextetChar (n % 64)] 0 :=
      hsextets.isBody (by decide) ⟨1, rfl, rfl⟩ (by simp [valueOf, n])
    exact ih.append hfront

/-! ## Reading -/

section Groups

variable {w x y z : Nat}

theorem IsSextets.sextet?_eq {ns : List Nat} {m : Nat} (h : IsSextets ns n) (hm : m ∈ ns) :
    sextet? (sextetChar m) = some m :=
  sextet?_sextetChar (h.lt m hm)

theorem IsSextets.decode_two (h : IsSextets [w, x] n) (hn : n % 16 = 0) :
    decode [sextetChar w, sextetChar x, '=', '='] = some [UInt8.ofNat (n / 16)] := by
  have hvalue : w * 64 + x = n := by simpa [valueOf] using h.value
  have hw : sextet? (sextetChar w) = some w := h.sextet?_eq (by simp)
  have hx : sextet? (sextetChar x) = some x := h.sextet?_eq (by simp)
  simp [decode, hw, hx, hvalue, hn]

theorem IsSextets.decode_three (h : IsSextets [w, x, y] n) (hn : n % 4 = 0) :
    decode [sextetChar w, sextetChar x, sextetChar y, '='] =
      some [UInt8.ofNat (n / 1024), UInt8.ofNat (n / 4)] := by
  have hvalue : (w * 64 + x) * 64 + y = n := by simpa [valueOf] using h.value
  have hw : sextet? (sextetChar w) = some w := h.sextet?_eq (by simp)
  have hx : sextet? (sextetChar x) = some x := h.sextet?_eq (by simp)
  have hy : sextet? (sextetChar y) = some y := h.sextet?_eq (by simp)
  have hne : sextetChar y ≠ '=' := sextetChar_ne_padding (h.lt y (by simp))
  -- The last sextet is no equals sign, so the group has three characters, not two.
  rw [decode]
  · simp [hw, hx, hy, hvalue, hn]
  · exact hne

theorem IsSextets.decode_four (h : IsSextets [w, x, y, z] n) (rest : List Char) :
    decode (sextetChar w :: sextetChar x :: sextetChar y :: sextetChar z :: rest) =
      (decode rest).map fun octets =>
        UInt8.ofNat (n / 65536) :: UInt8.ofNat (n / 256) :: UInt8.ofNat n :: octets := by
  have hvalue : ((w * 64 + x) * 64 + y) * 64 + z = n := by simpa [valueOf] using h.value
  have hw : sextet? (sextetChar w) = some w := h.sextet?_eq (by simp)
  have hx : sextet? (sextetChar x) = some x := h.sextet?_eq (by simp)
  have hy : sextet? (sextetChar y) = some y := h.sextet?_eq (by simp)
  have hz : sextet? (sextetChar z) = some z := h.sextet?_eq (by simp)
  have hne : sextetChar z ≠ '=' := sextetChar_ne_padding (h.lt z (by simp))
  -- The last character is no equals sign, so this is a whole group wherever it stands.
  rw [decode]
  · simp only [hw, hx, hy, hz, Option.bind_eq_bind, Option.bind_some, hvalue]
    cases decode rest <;> rfl
  · exact fun _ hpadding => absurd hpadding hne
  · exact fun hpadding => absurd hpadding hne

end Groups

theorem ofNat_eq_of_mod {n : Nat} {a : UInt8} (h : n % 256 = a.toNat) : UInt8.ofNat n = a :=
  (UInt8.ofNat_eq_iff_mod_eq_toNat n a).mpr h

/-- The written text is read as its octets. -/
theorem decode_encode (octets : List UInt8) : decode (encode octets) = some octets := by
  fun_induction encode octets with
  | case1 => rfl
  | case2 a n =>
    have ha : a.toNat < 256 := a.toNat_lt
    have hsextets : IsSextets [n / 64, n % 64] n := isSextets_two (by omega)
    rw [hsextets.decode_two (by omega), ofNat_eq_of_mod (a := a) (by omega)]
  | case3 a b n =>
    have ha : a.toNat < 256 := a.toNat_lt
    have hb : b.toNat < 256 := b.toNat_lt
    have hsextets : IsSextets [n / 4096, n / 64 % 64, n % 64] n := isSextets_three (by omega)
    rw [hsextets.decode_three (by omega), ofNat_eq_of_mod (a := a) (by omega),
      ofNat_eq_of_mod (a := b) (by omega)]
  | case4 a b c rest n ih =>
    have ha : a.toNat < 256 := a.toNat_lt
    have hb : b.toNat < 256 := b.toNat_lt
    have hc : c.toNat < 256 := c.toNat_lt
    have hsextets : IsSextets [n / 262144, n / 4096 % 64, n / 64 % 64, n % 64] n :=
      isSextets_four (by omega)
    rw [hsextets.decode_four, ih, ofNat_eq_of_mod (a := a) (by omega),
      ofNat_eq_of_mod (a := b) (by omega), ofNat_eq_of_mod (a := c) (by omega), Option.map_some]

end PushDelivery.Base64
