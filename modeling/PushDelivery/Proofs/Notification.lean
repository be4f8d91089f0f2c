import PushDelivery.Model
import PushDelivery.Proofs.Json.NumberText
import PushDelivery.Proofs.OrderedMap

/-!
# What a notification keeps of its content

A string has itself for its text and an integer its canonical numeral; nothing else has a text. The
notification made from JSON content has exactly the texts of the content's members. A number has a
text just if it was written as that text.
-/

namespace PushDelivery

open Numeral

namespace Json

inductive IsTextual : Json → Prop
  | string (text : String) : IsTextual (.string text)
  | integer (n : Int) (lower : -0x8000000000000000 ≤ n) (upper : n < 0x10000000000000000) :
      IsTextual (.number (.integer n lower upper))

/-- The text of a value: of a string the string, of an integer its canonical numeral. -/
inductive HasText : Json → String → Prop
  | string (text : String) : HasText (.string text) text
  | integer {n : Int} {lower : -0x8000000000000000 ≤ n} {upper : n < 0x10000000000000000}
      {text : String} : IsCanonical text.toList n → HasText (.number (.integer n lower upper)) text

theorem fieldText?_eq_some_iff {v : Json} {text : String} :
    Notification.fieldText? v = some text ↔ v.HasText text := by
  unfold Notification.fieldText?
  constructor
  · intro h
    split at h
    next => cases h; exact .string _
    next => cases h; exact .integer (isCanonical_iff.mpr rfl)
    next => cases h
  · intro h
    cases h with
    | string => rfl
    | integer h => exact congrArg some (String.toList_inj.mp (isCanonical_iff.mp h).symm)

theorem isTextual_iff {v : Json} : v.IsTextual ↔ ∃ text, v.HasText text := by
  constructor
  · intro h
    cases h with
    | string text => exact ⟨text, .string text⟩
    | integer n => exact ⟨signedDecimal n, .integer (isCanonical_iff.mpr rfl)⟩
  · rintro ⟨text, h⟩
    cases h with
    | string => exact .string _
    | integer => exact .integer ..

/-- An integer is read back from its text. -/
theorem HasText.readInteger {n : Int} {lower : -0x8000000000000000 ≤ n}
    {upper : n < 0x10000000000000000} {text : String}
    (h : (number (.integer n lower upper)).HasText text) : readInteger text = some n := by
  cases h with
  | integer h => exact readInteger_eq_some_iff.mpr h.spells

/-- A number contributes the text as which it was written, or nothing. -/
theorem hasText_readNumber {cs : List Char} {number : Number} {text : String}
    (hread : (readNumberText cs).bind (·.toNumber?) = some number) :
    (Json.number number).HasText text ↔ text.toList = cs ∧
      ∃ n : Int, -0x8000000000000000 ≤ n ∧ n < 0x10000000000000000 ∧ IsCanonical cs n := by
  constructor
  · intro h
    cases h with
    | @integer n lower upper _ h =>
      have hcs := readNumber_eq_integer_iff.mp hread
      exact ⟨(isCanonical_iff.mp h).trans (isCanonical_iff.mp hcs).symm, n, lower, upper, hcs⟩
  · rintro ⟨rfl, n, lower, upper, h⟩
    have hinteger : (readNumberText text.toList).bind (·.toNumber?) =
        some (.integer n lower upper) := readNumber_eq_integer_iff.mpr h
    cases hread.symm.trans hinteger
    exact .integer h

end Json

namespace Notification

theorem get?_ofContent {content : StringMap Json} {name text : String} :
    (ofContent content).get? name = some text ↔ ∃ v, content[name]? = some v ∧ v.HasText text := by
  unfold ofContent get?
  rw [Std.ExtTreeMap.getElem?_filterMap', Option.bind_eq_some_iff]
  simp only [Json.fieldText?_eq_some_iff]

/-- Two notifications with the same fields are equal. -/
theorem ext_get? {m n : Notification} (h : ∀ name, m.get? name = n.get? name) : m = n := by
  cases m
  cases n
  rw [mk.injEq]
  exact Std.ExtTreeMap.ext_getElem? h

theorem isEmpty_iff {n : Notification} : n.isEmpty = true ↔ ∀ name, n.get? name = none := by
  unfold isEmpty get?
  rw [Std.ExtTreeMap.isEmpty_iff]
  constructor
  · intro h name
    rw [h, Std.ExtTreeMap.getElem?_empty]
  · intro h
    exact Std.ExtTreeMap.ext_getElem? fun name => (h name).trans Std.ExtTreeMap.getElem?_empty.symm

theorem isEmpty_ofContent {content : StringMap Json} : (ofContent content).isEmpty = true ↔
    ∀ (name : String) (v : Json), content[name]? = some v → ¬ v.IsTextual := by
  rw [isEmpty_iff]
  simp only [Json.isTextual_iff, Option.eq_none_iff_forall_ne_some]
  constructor
  · rintro h name v hv ⟨text, htext⟩
    exact h name text (get?_ofContent.mpr ⟨v, hv, htext⟩)
  · intro h name text hget
    obtain ⟨v, hv, htext⟩ := get?_ofContent.mp hget
    exact h name v hv ⟨text, htext⟩

/-- A notification is made again from the object that has its fields. -/
theorem ofContent_ofTextMap (n : Notification) :
    ∃ members, Json.ofTextMap n.data = .object members ∧ ofContent (.ofList members) = n := by
  refine ⟨_, rfl, ext_get? fun name => Option.ext fun text => ?_⟩
  rw [get?_ofContent, getElem?_ofList_map, get?]
  constructor
  · rintro ⟨v, hv, htext⟩
    obtain ⟨text', htext', rfl⟩ := Option.map_eq_some_iff.mp hv
    cases htext
    exact htext'
  · intro h
    exact ⟨.string text, by rw [h, Option.map_some], .string text⟩

end Notification

end PushDelivery
