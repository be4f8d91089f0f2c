import PushDelivery.Model
import PushDelivery.Proofs.Json.Printing

/-!
# What a complaint tells of the content

The complaint about content that is no object ends with the text of that content. If its numbers are
integers the text has the content's document, and different values have different documents, so two
complaints about one type are the same only if they are about the same value. The value itself is
read back from the text if the text nests no deeper than the reader goes, and unless some object in
it begins with the name that is reserved for embedded texts.
-/

namespace PushDelivery

open Json (IsPart)

namespace Document

mutual

/-- The document of a value shows all of it. -/
theorem ofJson_injective (v w : Json) (h : ofJson v = ofJson w) : v = w := by
  match v with
  | .null | .bool _ | .number _ | .string _ => cases w <;> simp_all [ofJson]
  | .array items =>
    cases w with
    | array items' =>
      rw [ofJson, ofJson, Document.array.injEq] at h
      rw [ofItems_injective items items' h]
    | _ => simp [ofJson] at h
  | .object members =>
    cases w with
    | object members' =>
      rw [ofJson, ofJson, Document.object.injEq] at h
      rw [ofMembers_injective members members' h]
    | _ => simp [ofJson] at h

theorem ofItems_injective (items items' : List Json) (h : ofItems items = ofItems items') :
    items = items' := by
  match items, items' with
  | [], [] => rfl
  | [], _ :: _ | _ :: _, [] => simp [ofItems] at h
  | v :: rest, w :: rest' =>
    rw [ofItems, ofItems, List.cons.injEq] at h
    rw [ofJson_injective v w h.1, ofItems_injective rest rest' h.2]

theorem ofMembers_injective (members members' : List (String × Json))
    (h : ofMembers members = ofMembers members') : members = members' := by
  match members, members' with
  | [], [] => rfl
  | [], _ :: _ | _ :: _, [] => simp [ofMembers] at h
  | (name, v) :: rest, (name', w) :: rest' =>
    rw [ofMembers, ofMembers, List.cons.injEq, Prod.mk.injEq, Option.some.injEq] at h
    rw [h.1.1, ofJson_injective v w h.1.2, ofMembers_injective rest rest' h.2]

end

end Document

namespace Json

/-- The numbers in a value are all integers. -/
def IsWhole (v : Json) : Prop := ∀ x finite, ¬ IsPart (.number (.real x finite)) v

variable {v w : Json}

theorem isWhole_array_iff {items : List Json} :
    (array items).IsWhole ↔ ∀ v ∈ items, v.IsWhole := by
  simp only [IsWhole, isPart_array_iff]
  grind

theorem isWhole_object_iff {members : List (String × Json)} :
    (object members).IsWhole ↔ ∀ m ∈ members, m.2.IsWhole := by
  simp only [IsWhole, isPart_object_iff]
  grind

theorem IsWhole.readsBack (h : v.IsWhole) : v.ReadsBack := by
  intro n hn
  cases n with
  | integer n lower upper => exact Number.readsBack_integer n lower upper
  | real x finite => exact (h x finite hn).elim

theorem eq_of_text_eq (hv : v.ReadsBack) (hw : w.ReadsBack) (h : v.text = w.text) : v = w := by
  have hdocuments := readDocument_text hv
  rw [h, readDocument_text hw] at hdocuments
  exact Document.ofJson_injective v w (Option.some.inj hdocuments).symm

/-- A value is read from its text exactly if its document shows it. -/
theorem read_text_eq_some_iff (hback : v.ReadsBack) (hordered : v.IsOrdered) :
    read v.text = some v ↔ v.EmbedsNothing ∧ v.depth ≤ depthLimit := by
  rw [read_eq_some_iff]
  constructor
  · rintro ⟨d, hd, hshows⟩
    obtain rfl := Option.some.inj (hd.symm.trans (readDocument_text hback))
    exact Document.restorable_of_shows v depthLimit hshows
  · rintro ⟨hembeds, hdepth⟩
    exact ⟨_, readDocument_text hback, Document.shows_ofJson v depthLimit hordered hembeds hdepth⟩

end Json

namespace PushRequest

variable {request : PushRequest} {providerType : String} {v : Json}

theorem contentFor_eq_error (hv : request.content[providerType]? = some v) (hnull : v ≠ .null)
    (hobject : ∀ members, v ≠ .object members) :
    request.contentFor providerType =
      .error (.invalidContent (contentComplaint providerType v)) := by
  unfold contentFor
  rw [hv]
  cases v with
  | null => exact (hnull rfl).elim
  | object members => exact (hobject members rfl).elim
  | _ => rfl

theorem text_eq_of_contentComplaint_eq {w : Json}
    (h : contentComplaint providerType v = contentComplaint providerType w) : v.text = w.text :=
  String.append_right_inj _ |>.mp h

/-- Content without doubles that is neither null nor an object is refused with a complaint that ends
with its text. The text is read back as the content, if it nests less than 127 deep, exactly if no
object in it begins with the reserved name; and no other such content has the same complaint. -/
theorem complaint_tells_content (request : PushRequest) (providerType : String) (v : Json)
    (hv : request.content[providerType]? = some v) (hnull : v ≠ .null)
    (hobject : ∀ members, v ≠ .object members) (hwhole : v.IsWhole) :
    request.contentFor providerType = .error (.invalidContent
      ("content for " ++ providerType ++ " must be an object, got " ++ v.text)) ∧
    (v.IsOrdered → v.depth < 127 → (Json.read v.text = some v ↔ v.EmbedsNothing)) ∧
    ∀ (request' : PushRequest) (v' : Json), request'.content[providerType]? = some v' →
      v' ≠ .null → (∀ members, v' ≠ .object members) → v'.IsWhole → v' ≠ v →
      request'.contentFor providerType ≠ request.contentFor providerType := by
  have herror := contentFor_eq_error hv hnull hobject
  refine ⟨herror, fun hordered hdepth => ?_,
    fun request' v' hv' hnull' hobject' hwhole' hne h => ?_⟩
  · rw [Json.read_text_eq_some_iff hwhole.readsBack hordered]
    exact and_iff_left hdepth.le
  · rw [herror, contentFor_eq_error hv' hnull' hobject'] at h
    have hcomplaint := PushError.invalidContent.inj (Except.error.inj h)
    exact hne (Json.eq_of_text_eq hwhole'.readsBack hwhole.readsBack
      (text_eq_of_contentComplaint_eq hcomplaint))

/-- The two integers at the ends and a string of escaped characters are told, and so is that they
are not an empty array. -/
theorem complaint_tells_content_of_array :
    let v : Json := .array [.number (.integer (-0x8000000000000000) (by decide) (by decide)),
      .number (.integer 0xFFFFFFFFFFFFFFFF (by decide) (by decide)), .string "\"\\\n",
      .object [("a", .null)]]
    let request : PushRequest := ⟨"shop", "u", Std.ExtTreeMap.empty.insert "gcm" v⟩
    let request' : PushRequest := ⟨"shop", "u", Std.ExtTreeMap.empty.insert "gcm" (.array [])⟩
    request.contentFor "gcm" = .error (.invalidContent ("content for gcm must be an object, got " ++
        "[-9223372036854775808,18446744073709551615,\"\\\"\\\\\\n\",\x7b\"a\":null\x7d]")) ∧
      Json.read v.text = some v ∧
      request'.contentFor "gcm" ≠ request.contentFor "gcm" := by
  intro v request request'
  have hempty : (Json.array []).IsWhole := Json.isWhole_array_iff.mpr (List.forall_mem_nil _)
  have hwhole : v.IsWhole := by
    refine Json.isWhole_array_iff.mpr ?_
    simp only [List.forall_mem_cons, Json.isWhole_object_iff]
    refine ⟨?_, ?_, ?_, ⟨?_, List.forall_mem_nil _⟩, List.forall_mem_nil _⟩ <;> rintro _ _ ⟨⟩
  have hordered : v.IsOrdered := by
    refine Json.isOrdered_array_iff.mpr ?_
    simp only [List.forall_mem_cons, Json.isOrdered_object_iff]
    refine ⟨?_, ?_, ?_, ⟨List.pairwise_singleton _ _, ?_, List.forall_mem_nil _⟩,
      List.forall_mem_nil _⟩ <;> rintro _ ⟨⟩
  have hembeds : v.EmbedsNothing := by
    refine Json.embedsNothing_array_iff.mpr ?_
    simp only [List.forall_mem_cons, Json.embedsNothing_object_iff]
    refine ⟨?_, ?_, ?_, ⟨by decide, ?_, List.forall_mem_nil _⟩, List.forall_mem_nil _⟩ <;>
      rintro _ ⟨⟩
  have hnull (items : List Json) : Json.array items ≠ .null := by
    rintro ⟨⟩
  have hobject (items : List Json) : ∀ members, Json.array items ≠ .object members := by
    rintro _ ⟨⟩
  obtain ⟨herror, hread, hother⟩ := complaint_tells_content request "gcm" v
    Std.ExtTreeMap.getElem?_insert_self (hnull _) (hobject _) hwhole
  refine ⟨?_, (hread hordered (by decide +kernel)).mpr hembeds, ?_⟩
  · have htext : v.text =
        "[-9223372036854775808,18446744073709551615,\"\\\"\\\\\\n\",\x7b\"a\":null\x7d]" := by
      decide +kernel
    rw [herror, htext]
    rfl
  · exact hother request' (.array []) Std.ExtTreeMap.getElem?_insert_self (hnull _) (hobject _)
      hempty (by simp [v])

/-- Content that is not told. It is read from a text in which the reserved name comes second, and
written with that name first. -/
theorem content_not_told :
    let v : Json := .array [.object [(Document.embeddedName, .string "7"), ("a", .ofInt64 1)]]
    let request : PushRequest := ⟨"shop", "u", Std.ExtTreeMap.empty.insert "gcm" v⟩
    Json.read "[\x7b\"a\":1,\"$serde_json::private::RawValue\":\"7\"\x7d]" = some v ∧
      v.IsWhole ∧ v.IsOrdered ∧ v.depth < 127 ∧ request.content["gcm"]? = some v ∧
      request.contentFor "gcm" = .error (.invalidContent
        ("content for " ++ "gcm" ++ " must be an object, got " ++ v.text)) ∧
      Json.read v.text ≠ some v := by
  intro v request
  let written : Json := .array [.object [("a", .ofInt64 1), (Document.embeddedName, .string "7")]]
  have hwritten : written.ReadsBack := by
    refine Json.readsBack_array_iff.mpr (List.forall_mem_singleton.mpr ?_)
    simp only [Json.readsBack_object_iff, List.forall_mem_cons]
    refine ⟨Json.readsBack_ofInt64 1, ?_, List.forall_mem_nil _⟩
    rintro _ ⟨⟩
  have hshows : (Document.ofJson written).Shows Json.depthLimit v :=
    .array (.cons (.object rfl (.cons (.number _) (.cons (.string _) .nil))) .nil)
  have hread : Json.read written.text = some v :=
    Json.read_eq_some_iff.mpr ⟨_, Json.readDocument_text hwritten, hshows⟩
  have htext : written.text = "[\x7b\"a\":1,\"$serde_json::private::RawValue\":\"7\"\x7d]" := by
    decide +kernel
  rw [htext] at hread
  have hordered : v.IsOrdered := Document.isOrdered_of_shows hshows
  have hwhole : v.IsWhole := by
    refine Json.isWhole_array_iff.mpr (List.forall_mem_singleton.mpr ?_)
    simp only [Json.isWhole_object_iff, List.forall_mem_cons]
    refine ⟨?_, ?_, List.forall_mem_nil _⟩ <;> rintro _ _ ⟨⟩
  have hv : request.content["gcm"]? = some v := Std.ExtTreeMap.getElem?_insert_self
  refine ⟨hread, hwhole, hordered, by decide, hv, contentFor_eq_error hv nofun nofun, fun h => ?_⟩
  have hembeds := ((Json.read_text_eq_some_iff hwhole.readsBack hordered).mp h).1
  exact hembeds _ (.item List.mem_cons_self .self) rfl

end PushRequest

end PushDelivery
