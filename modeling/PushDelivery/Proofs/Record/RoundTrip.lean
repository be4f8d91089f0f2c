import PushDelivery.Proofs.Json.Printing
import PushDelivery.Proofs.Record.Forms

/-!
# Records that are read as they were written

A record is written as an object with all its fields, or as an array of their values, from which
values at the end may be left out where they are the defaults. Either is read as the record again,
also if the entries of a map of strings are written in another order. Only the content of a push
request can be in the way, which is any JSON: an object in it must not begin with the reserved name,
it must not nest deeper than the reader goes, and in a text its doubles must be read from what is
written of them.
-/

namespace PushDelivery.Record

/-! ## Fields -/

theorem FieldKind.readsBack_json {kind : FieldKind} {v : kind.Value}
    (h : kind.All Json.ReadsBack v) : (kind.json v).ReadsBack := by
  cases kind with
  | integer => exact Json.readsBack_ofInt64 v
  | text | flag => rintro _ ⟨⟩
  | optionalText => cases v <;> rintro _ ⟨⟩
  | textMap =>
    refine Json.readsBack_object_iff.mpr (List.forall_mem_map.mpr fun e _ => ?_)
    rintro _ ⟨⟩
  | valueMap =>
    refine Json.readsBack_object_iff.mpr fun m hm => h m.1 m.2 ?_
    exact Std.ExtTreeMap.mem_toList_iff_getElem?_eq_some.mp hm

theorem FieldKind.readsBack_of_writes {kind : FieldKind} {v : kind.Value} {w : Json}
    (hw : kind.Writes v w) (h : kind.All Json.ReadsBack v) : w.ReadsBack := by
  cases hw with
  | json => exact readsBack_json h
  | textMap =>
    refine Json.readsBack_object_iff.mpr (List.forall_mem_map.mpr fun e _ => ?_)
    rintro _ ⟨⟩

namespace Kind

variable {room : Nat} {k : Kind} {r : k.Carrier} {P : Json → Prop} {written : List Json}

/-- All the JSON values that a record contains have a property. -/
def All (P : Json → Prop) (k : Kind) (r : k.Carrier) : Prop :=
  ∀ field ∈ k.fields, field.kind.All P (field.get r)

/-- Every object in a record lists its members in the order of their names and embeds no text. -/
def IsPlain (k : Kind) (r : k.Carrier) : Prop := k.All Json.IsOrdered r ∧ k.All Json.EmbedsNothing r

def values (k : Kind) (r : k.Carrier) : List Json := k.fields.map fun field => field.json r

/-- A record is read from what is written of its fields. -/
def Restores (room : Nat) (r : k.Carrier) (field : Field k.Carrier) : Prop :=
  field.kind.Shows room (.ofJson (field.json r)) (field.get r)

theorem all_of_default : ∀ field ∈ k.fields, ∀ v, field.default? = some v → field.kind.All P v := by
  cases k <;> simp [fields, FieldKind.All]

theorem all_isOrdered_of_decode {d : Document} (h : k.decode room d = some r) :
    k.All Json.IsOrdered r := by
  obtain ⟨f, -, hread⟩ := decode_eq_some_iff.mp h
  intro field hfield
  have hfits := Field.read_eq_some_iff.mp (hread field hfield)
  cases hf : f field.name with
  | none =>
    rw [hf] at hfits
    exact all_of_default field hfield _ hfits
  | some d =>
    rw [hf] at hfits
    exact FieldKind.all_isOrdered_of_shows hfits

/-! ## Objects -/

theorem ofJson_encode (r : k.Carrier) : Document.ofJson (k.encode r) =
    .ofNamed (k.fields.map fun field => (field.name, .ofJson (field.json r))) := by
  rw [encode_eq, Document.ofJson, Document.ofMembers_eq_map, Document.ofNamed, List.map_map,
    List.map_map]
  rfl

theorem decode_encode_eq_some_iff :
    k.decode room (.ofJson (k.encode r)) = some r ↔ ∀ field ∈ k.fields, Restores room r field := by
  -- Every member that is written is known, and there is one for each field.
  let members := k.fields.map fun field => (field.name, Document.ofJson (field.json r))
  have hnames : members.map Prod.fst = k.names := List.map_map
  have hknown : known k.names members = members := by
    rw [known, List.filter_eq_self, List.forall_mem_map]
    exact fun field hfield => decide_eq_true (mem_names hfield)
  rw [ofJson_encode, decode_ofNamed_eq_some_iff, hknown, hnames, and_iff_right k.nodup_names]
  refine forall₂_congr fun field hfield => ?_
  have hlookup : members.lookup field.name = some (.ofJson (field.json r)) :=
    (lookup_eq_some_iff_mem (hnames ▸ k.nodup_names)).mpr (List.mem_map_of_mem hfield)
  rw [hlookup]
  rfl

/-! ## Arrays -/

theorem decode_array_of_values (n : Nat)
    (h : ∀ field ∈ k.fields.drop n, field.default? = some (field.get r)) :
    k.decode room (.ofJson (.array ((k.values r).take n))) = some r ↔
      ∀ field ∈ k.fields.take n, Restores room r field := by
  have hitem (i : Nat) (field : Field k.Carrier) (hi : k.fields[i]? = some field) :
      (((k.values r).take n).map Document.ofJson)[i]? =
        if i < n then some (.ofJson (field.json r)) else none := by
    rw [List.getElem?_map, List.getElem?_take, values, List.getElem?_map, hi]
    split <;> rfl
  have hlength : (((k.values r).take n).map Document.ofJson).length ≤ k.fields.length := by
    simp [values]
  rw [Document.ofJson, Document.ofItems_eq_map, decode_array_eq_some_iff, and_iff_right hlength]
  constructor
  · intro hfits field hfield
    obtain ⟨i, hi⟩ := List.getElem?_of_mem hfield
    rw [List.getElem?_take] at hi
    split at hi
    next hlt =>
      have hfit := hfits i field hi
      rwa [hitem i field hi, if_pos hlt] at hfit
    next => cases hi
  · intro hrestores i field hi
    rw [hitem i field hi]
    split
    next hlt =>
      refine hrestores field (List.mem_of_getElem? (i := i) ?_)
      rwa [List.getElem?_take, if_pos hlt]
    next hle =>
      refine h field (List.mem_of_getElem? (i := i - n) ?_)
      rwa [List.getElem?_drop, Nat.add_sub_cancel' (Nat.le_of_not_lt hle)]

/-- The values that stand for absent fields contain no JSON value. -/
theorem all_iff_of_default (n : Nat)
    (h : ∀ field ∈ k.fields.drop n, field.default? = some (field.get r)) :
    k.All P r ↔ ∀ field ∈ k.fields.take n, field.kind.All P (field.get r) := by
  have hdrop : ∀ field ∈ k.fields.drop n, field.kind.All P (field.get r) := fun field hfield =>
    all_of_default field (List.mem_of_mem_drop hfield) _ (h field hfield)
  have hsplit : k.All P r ↔
      ∀ field ∈ k.fields.take n ++ k.fields.drop n, field.kind.All P (field.get r) := by
    rw [List.take_append_drop]
    rfl
  rw [hsplit, List.forall_mem_append, and_iff_left hdrop]

theorem decode_array_eq_none_of_length {items : List Document}
    (h : k.fields.length < items.length) : k.decode room (.array items) = none := by
  refine Option.eq_none_iff_forall_ne_some.mpr fun r hr => ?_
  exact Nat.not_le_of_lt h (decode_array_eq_some_iff.mp hr).1

theorem decode_array_eq_none_of_required {items : List Document} {field : Field k.Carrier}
    (hfield : field ∈ k.fields.drop items.length) (hrequired : field.default? = none) :
    k.decode room (.array items) = none := by
  refine Option.eq_none_iff_forall_ne_some.mpr fun r hr => ?_
  obtain ⟨i, hi⟩ := List.getElem?_of_mem hfield
  rw [List.getElem?_drop] at hi
  have hfits := (decode_array_eq_some_iff.mp hr).2 _ field hi
  rw [List.getElem?_eq_none (Nat.le_add_right _ _)] at hfits
  exact nomatch hrequired.symm.trans hfits

/-! ## What is restored -/

theorem forall_restores_iff {fields : List (Field k.Carrier)} :
    (∀ field ∈ fields, Restores room r field) ↔
      ((∀ field ∈ fields, field.kind.All Json.IsOrdered (field.get r)) ∧
        ∀ field ∈ fields, field.kind.All Json.EmbedsNothing (field.get r)) ∧
      ∀ field ∈ fields, (field.json r).depth ≤ room + 1 := by
  simp only [← forall_and, Restores, Field.json, FieldKind.shows_json_iff, and_assoc]

theorem decode_encode_iff : k.decode room (.ofJson (k.encode r)) = some r ↔
    k.IsPlain r ∧ (k.encode r).depth ≤ room + 2 := by
  rw [decode_encode_eq_some_iff, forall_restores_iff, encode_eq, Json.depth, Nat.succ_le_succ_iff,
    Json.membersDepth_le_iff, List.forall_mem_map]
  rfl

theorem decode_array_iff (n : Nat)
    (h : ∀ field ∈ k.fields.drop n, field.default? = some (field.get r)) :
    k.decode room (.ofJson (.array ((k.values r).take n))) = some r ↔
      k.IsPlain r ∧ (Json.array ((k.values r).take n)).depth ≤ room + 2 := by
  rw [decode_array_of_values n h, forall_restores_iff, IsPlain, all_iff_of_default n h,
    all_iff_of_default n h, Json.depth, Nat.succ_le_succ_iff, Json.itemsDepth_le_iff, values,
    ← List.map_take, List.forall_mem_map]

theorem encodeArray_eq_take (r : k.Carrier) :
    k.encodeArray r = .array ((k.values r).take k.fields.length) := by
  rw [encodeArray_eq, List.take_of_length_le (by simp [values]), values]

theorem ofJson?_encode_iff : k.ofJson? (k.encode r) = some r ↔ k.IsPlain r := by
  rw [ofJson?_eq, decode_encode_iff, and_iff_left (Nat.le_add_right _ 2)]

theorem ofJson?_array_iff (n : Nat)
    (h : ∀ field ∈ k.fields.drop n, field.default? = some (field.get r)) :
    k.ofJson? (.array ((k.values r).take n)) = some r ↔ k.IsPlain r := by
  rw [ofJson?_eq, decode_array_iff n h, and_iff_left (Nat.le_add_right _ 2)]

theorem read_text {v : Json} (h : v.ReadsBack) :
    k.read v.text = k.decode (Json.depthLimit - 2) (.ofJson v) := by
  rw [read_eq, Json.readDocument_text h, Option.bind_some]

theorem readsBack_encode (h : k.All Json.ReadsBack r) : (k.encode r).ReadsBack := by
  rw [encode_eq]
  exact Json.readsBack_object_iff.mpr (List.forall_mem_map.mpr fun field hfield =>
    FieldKind.readsBack_json (h field hfield))

theorem readsBack_array (h : k.All Json.ReadsBack r) (n : Nat) :
    (Json.array ((k.values r).take n)).ReadsBack := by
  refine Json.readsBack_array_iff.mpr fun v hv => ?_
  obtain ⟨field, hfield, rfl⟩ := List.mem_map.mp (List.mem_of_mem_take hv)
  exact FieldKind.readsBack_json (h field hfield)

/-! ## Maps in any order -/

/-- The values are written of the fields of a record. -/
structure Writes (k : Kind) (r : k.Carrier) (written : List Json) : Prop where
  length : written.length = k.fields.length
  field : ∀ (i : Nat) field v, k.fields[i]? = some field → written[i]? = some v →
    field.kind.Writes (field.get r) v

theorem length_names (k : Kind) : k.names.length = k.fields.length := List.length_map _

/-- Both forms give the fields the same documents. -/
theorem decode_object_zip (hlength : written.length = k.fields.length) :
    k.decode room (.ofJson (.object (k.names.zip written))) =
      k.decode room (.ofJson (.array written)) := by
  let items := written.map Document.ofJson
  have hdocument : Document.ofJson (.object (k.names.zip written)) =
      .ofNamed (k.names.zip items) := by
    rw [Document.ofJson, Document.ofMembers_eq_map, Document.ofNamed, List.zip_map_right,
      List.map_map]
    rfl
  have hnames : (k.names.zip items).map Prod.fst = k.names :=
    List.map_fst_zip (by simp [items, hlength, length_names])
  have hknown : known k.names (k.names.zip items) = k.names.zip items :=
    List.filter_eq_self.mpr fun m hm => decide_eq_true (List.of_mem_zip hm).1
  refine decode_congr ?_
  rw [hdocument, fields?_ofNamed, hknown, hnames, if_pos k.nodup_names, Document.ofJson,
    Document.ofItems_eq_map, fields?_array, if_pos (by simp [hlength, length_names])]

theorem decode_array_of_writes (h : k.Writes r written) (n : Nat) :
    k.decode room (.ofJson (.array (written.take n))) =
      k.decode room (.ofJson (.array ((k.values r).take n))) := by
  have hlength : ((written.take n).map Document.ofJson).length =
      (((k.values r).take n).map Document.ofJson).length := by
    simp [h.length, values]
  refine Option.ext fun r' => ?_
  simp only [Document.ofJson, Document.ofItems_eq_map, decode_array_eq_some_iff, hlength]
  refine and_congr_right fun _ => forall₃_congr fun i field hi => ?_
  by_cases hlt : i < n
  · have hvalue : i < written.length := h.length ▸ (List.getElem?_eq_some_iff.mp hi).1
    have hwrites := h.field i field _ hi (List.getElem?_eq_getElem hvalue)
    simp [hlt, values, hi, hvalue, Field.Fits, Field.json, ← FieldKind.read_eq_some_iff,
      FieldKind.read_of_writes hwrites]
  · simp [hlt]

theorem encode_eq_zip (r : k.Carrier) : k.encode r = .object (k.names.zip (k.values r)) := by
  rw [encode_eq, names, values, List.zip_map']

theorem Writes.readsBack (h : k.Writes r written) (hreads : k.All Json.ReadsBack r) :
    ∀ v ∈ written, v.ReadsBack := by
  intro v hv
  obtain ⟨i, hi⟩ := List.getElem?_of_mem hv
  have hlt : i < k.fields.length := h.length ▸ (List.getElem?_eq_some_iff.mp hi).1
  have hwrites := h.field i k.fields[i] v (List.getElem?_eq_getElem hlt) hi
  exact FieldKind.readsBack_of_writes hwrites (hreads _ (List.getElem_mem hlt))

/-- In whichever order its maps of strings were written, a text is read as the same record. -/
theorem read_of_writes (h : k.Writes r written) (hreads : k.All Json.ReadsBack r) :
    k.read (Json.object (k.names.zip written)).text = k.read (k.encode r).text ∧
      ∀ n, k.read (Json.array (written.take n)).text =
        k.read (Json.array ((k.values r).take n)).text := by
  have hwritten := h.readsBack hreads
  have hobject : (Json.object (k.names.zip written)).ReadsBack :=
    Json.readsBack_object_iff.mpr fun m hm => hwritten m.2 (List.of_mem_zip hm).2
  have harray (n : Nat) : (Json.array (written.take n)).ReadsBack :=
    Json.readsBack_array_iff.mpr fun v hv => hwritten v (List.mem_of_mem_take hv)
  have hlength : (k.values r).length = k.fields.length := List.length_map _
  constructor
  · rw [read_text hobject, read_text (readsBack_encode hreads), encode_eq_zip,
      decode_object_zip h.length, decode_object_zip hlength]
    rw [← List.take_of_length_le (Nat.le_of_eq h.length), decode_array_of_writes h,
      List.take_of_length_le (Nat.le_of_eq hlength)]
  · intro n
    rw [read_text (harray n), read_text (readsBack_array hreads n), decode_array_of_writes h n]

/-! ## Records without content -/

theorem kind_ne_valueMap (h : k ≠ .pushRequest) : ∀ field ∈ k.fields, field.kind ≠ .valueMap := by
  cases k <;> simp [fields] at h ⊢

theorem all_of_ne (h : k ≠ .pushRequest) : k.All P r :=
  fun field hfield => FieldKind.all_of_ne (kind_ne_valueMap h field hfield)

theorem depth_encode_le (h : k ≠ .pushRequest) : (k.encode r).depth ≤ 2 := by
  rw [encode_eq, Json.depth, Nat.succ_le_succ_iff, Json.membersDepth_le_iff, List.forall_mem_map]
  exact fun field hfield => FieldKind.depth_json_le (kind_ne_valueMap h field hfield)

theorem depth_array_le (h : k ≠ .pushRequest) (n : Nat) :
    (Json.array ((k.values r).take n)).depth ≤ 2 := by
  rw [Json.depth, Nat.succ_le_succ_iff, Json.itemsDepth_le_iff, values, ← List.map_take,
    List.forall_mem_map]
  exact fun field hfield =>
    FieldKind.depth_json_le (kind_ne_valueMap h field (List.mem_of_mem_take hfield))

end Kind

/-- A record is read from the object and from the array of its fields, also from a shorter array
that leaves out defaults, and from the texts of these, in whichever order they list the entries of
maps of strings. A record without content always is. -/
theorem round_trips (k : Kind) (r : k.Carrier) :
    (k.ofJson? (k.encode r) = some r ↔ k.IsPlain r) ∧
    (k.ofJson? (k.encodeArray r) = some r ↔ k.IsPlain r) ∧
    (∀ n, (∀ field ∈ k.fields.drop n, field.default? = some (field.get r)) →
      (k.ofJson? (.array ((k.values r).take n)) = some r ↔ k.IsPlain r)) ∧
    (k.All Json.ReadsBack r →
      (k.read (k.encode r).text = some r ↔
        k.IsPlain r ∧ (k.encode r).depth ≤ Json.depthLimit) ∧
      ∀ n, (∀ field ∈ k.fields.drop n, field.default? = some (field.get r)) →
        (k.read (Json.array ((k.values r).take n)).text = some r ↔
          k.IsPlain r ∧ (Json.array ((k.values r).take n)).depth ≤ Json.depthLimit)) ∧
    (k ≠ .pushRequest → k.IsPlain r ∧ k.All Json.ReadsBack r ∧
      (k.encode r).depth ≤ Json.depthLimit ∧
      ∀ n, (Json.array ((k.values r).take n)).depth ≤ Json.depthLimit) ∧
    (∀ room (items : List Document), k.fields.length < items.length ∨
      (∃ field ∈ k.fields.drop items.length, field.default? = none) →
      k.decode room (.array items) = none) ∧
    (∀ room d, k.decode room d = some r → k.All Json.IsOrdered r) ∧
    ∀ written, k.Writes r written → k.All Json.ReadsBack r →
      k.read (Json.object (k.names.zip written)).text = k.read (k.encode r).text ∧
      ∀ n, k.read (Json.array (written.take n)).text =
        k.read (Json.array ((k.values r).take n)).text := by
  refine ⟨Kind.ofJson?_encode_iff, ?_, Kind.ofJson?_array_iff, fun hreads => ⟨?_, fun n h => ?_⟩,
    fun h => ?_, ?_, fun room d => Kind.all_isOrdered_of_decode, fun written => Kind.read_of_writes⟩
  · rw [Kind.encodeArray_eq_take]
    exact Kind.ofJson?_array_iff k.fields.length (by simp)
  · rw [Kind.read_text (Kind.readsBack_encode hreads)]
    exact Kind.decode_encode_iff
  · rw [Kind.read_text (Kind.readsBack_array hreads n)]
    exact Kind.decode_array_iff n h
  · have hlimit : 2 ≤ Json.depthLimit := by decide
    exact ⟨⟨Kind.all_of_ne h, Kind.all_of_ne h⟩, Kind.all_of_ne h,
      Nat.le_trans (Kind.depth_encode_le h) hlimit,
      fun n => Nat.le_trans (Kind.depth_array_le h n) hlimit⟩
  · rintro room items (hlong | ⟨field, hfield, hrequired⟩)
    · exact Kind.decode_array_eq_none_of_length hlong
    · exact Kind.decode_array_eq_none_of_required hfield hrequired

def shortSubscription : Subscription where
  id := -0x8000000000000000
  subscriber := "ü"
  serviceId := -1
  providerType := "gcm"
  deviceKey := ""

def requestWith (v : Json) : PushRequest where
  service := "s"
  subscriber := "a"
  content := .ofList [("gcm", v)]

theorem getElem?_content_requestWith (v : Json) : (requestWith v).content["gcm"]? = some v := by
  simp [requestWith]

theorem all_requestWith {P : Json → Prop} {v : Json} (h : P v) :
    Kind.pushRequest.All P (requestWith v) := by
  simp only [Kind.All, Kind.fields, List.forall_mem_cons]
  refine ⟨trivial, trivial, fun name w hw => ?_, List.forall_mem_nil _⟩
  cases List.mem_singleton.mp (mem_of_getElem?_ofList hw)
  exact h

def twoTexts : Notification where
  data := .ofList [("a", "x"), ("b", "y")]

/-- The entries of a notification, the last first. -/
def reversedTexts : Json := .object [("b", .string "y"), ("a", .string "x")]

theorem writes_reversedTexts : Kind.notification.Writes twoTexts [reversedTexts] where
  length := rfl
  field i field v hi hv := by
    have hsorted : twoTexts.data.toList = [("a", "x"), ("b", "y")] := toList_ofList (by decide)
    have hperm : [("b", "y"), ("a", "x")].Perm twoTexts.data.toList := hsorted ▸ .swap ..
    cases i with
    | zero =>
      cases hi
      cases hv
      exact .textMap hperm
    | succ => cases hi

def mixedObject : Json := .object [("a", .array [.ofInt64 (-1)]), ("b", .object [])]

theorem round_trips_of_content :
    (∀ field ∈ Kind.subscription.fields.drop 5,
        field.default? = some (field.get shortSubscription)) ∧
      Kind.subscription.read
          (Json.array ((Kind.subscription.values shortSubscription).take 5)).text =
        some shortSubscription ∧
      Kind.notification.read (Json.object [("data", reversedTexts)]).text = some twoTexts ∧
      Kind.pushRequest.read (Kind.pushRequest.encode (requestWith mixedObject)).text =
        some (requestWith mixedObject) := by
  have hdefault : ∀ field ∈ Kind.subscription.fields.drop 5,
      field.default? = some (field.get shortSubscription) := by
    simp [Kind.fields, shortSubscription]
  refine ⟨hdefault, ?_, ?_, ?_⟩
  · obtain ⟨-, -, -, htexts, hplain, -⟩ := round_trips .subscription shortSubscription
    obtain ⟨hplain, hreads, -, hdepth⟩ := hplain (by decide)
    exact ((htexts hreads).2 5 hdefault).mpr ⟨hplain, hdepth 5⟩
  · obtain ⟨-, -, -, htexts, hplain, -, -, horders⟩ := round_trips .notification twoTexts
    obtain ⟨hplain, hreads, hdepth, -⟩ := hplain (by decide)
    have hsorted := (htexts hreads).1.mpr ⟨hplain, hdepth⟩
    exact (horders _ writes_reversedTexts hreads).1.trans hsorted
  · obtain ⟨-, -, -, htexts, -⟩ := round_trips .pushRequest (requestWith mixedObject)
    have hreads : mixedObject.ReadsBack := by
      simp only [mixedObject, Json.readsBack_object_iff, Json.readsBack_array_iff,
        List.forall_mem_cons]
      exact ⟨⟨Json.readsBack_ofInt64 (-1), List.forall_mem_nil _⟩, List.forall_mem_nil _,
        List.forall_mem_nil _⟩
    have hordered : mixedObject.IsOrdered := by
      simp only [mixedObject, Json.isOrdered_object_iff, Json.isOrdered_array_iff,
        List.forall_mem_cons]
      refine ⟨by decide, ⟨?_, List.forall_mem_nil _⟩, ⟨by decide, List.forall_mem_nil _⟩,
        List.forall_mem_nil _⟩
      rintro _ ⟨⟩
    have hembeds : mixedObject.EmbedsNothing := by
      simp only [mixedObject, Json.embedsNothing_object_iff, Json.embedsNothing_array_iff,
        List.forall_mem_cons]
      refine ⟨by decide, ⟨?_, List.forall_mem_nil _⟩, ⟨by decide, List.forall_mem_nil _⟩,
        List.forall_mem_nil _⟩
      rintro _ ⟨⟩
    exact (htexts (all_requestWith hreads)).1.mpr
      ⟨⟨all_requestWith hordered, all_requestWith hembeds⟩, by decide +kernel⟩

def requestDocument (d : Document) : Document :=
  .ofNamed [("service_alias", .string (some "s")), ("subscription_alias", .string (some "a")),
    ("content", .object [(some "gcm", d)])]

theorem shows_of_decode_requestDocument {room : Nat} {d : Document} {v : Json}
    (h : Kind.pushRequest.decode room (requestDocument d) = some (requestWith v)) :
    d.Shows room v := by
  have hfits := (Kind.decode_ofNamed_eq_some_iff.mp h).2
    ⟨"content", .valueMap, some ∅, PushRequest.content⟩ (by simp [Kind.fields])
  have hcontent : valueMap room (.object [(some "gcm", d)]) = some (requestWith v).content :=
    FieldKind.read_eq_some_iff.mpr hfits
  obtain ⟨members, entries, hd, hshows, hentries⟩ := valueMap_eq_some_iff.mp hcontent
  obtain rfl := Document.object.inj hd
  obtain _ | ⟨hv, _ | _⟩ := hshows
  have hget := getElem?_content_requestWith v
  rw [← hentries] at hget
  simp at hget
  exact hget ▸ hv

def nested : Nat → Json
  | 0 => .null
  | n + 1 => .array [nested n]

theorem readsBack_nested (n : Nat) : (nested n).ReadsBack := by
  induction n with
  | zero => rintro _ ⟨⟩
  | succ n ih => exact Json.readsBack_array_iff.mpr (List.forall_mem_singleton.mpr ih)

/-- A double that is written as `1.5e-28`. -/
def writtenDouble : Json := .number (.real ⟨0x3a27c4b90ebc4813⟩ (by decide))

/-- The double that is read from `1.5e-28`. -/
def readDouble : Json.Number := .real ⟨0x3a27c4b90ebc4814⟩ (by decide)

/-- The text of a push request with a double in its content. -/
def doubleText : String :=
  "\x7b\"service_alias\":\"s\",\"subscription_alias\":\"a\",\"content\":\x7b\"gcm\":1.5e-28\x7d\x7d"

theorem readDocument_doubleText :
    Json.readDocument doubleText = some (requestDocument (.number (some readDouble))) := by
  have htokens : Json.tokens doubleText.toList =
      some [.openObject, .string (some "service_alias"), .colon, .string (some "s"), .comma,
        .string (some "subscription_alias"), .colon, .string (some "a"), .comma,
        .string (some "content"), .colon, .openObject, .string (some "gcm"), .colon,
        .number (some readDouble), .closeObject, .closeObject] := by
    decide +kernel
  rw [Json.readDocument, htokens]
  rfl

/-- Requests that are not read as they were written. An object in the content may begin with the
reserved name; no reader takes it. Arrays in it may nest too deep for a text. And a double may be
read from its text as its neighbour. -/
theorem content_not_restored :
    Kind.pushRequest.ofJson? (Kind.pushRequest.encode (requestWith
      (.object [(Document.embeddedName, .string "7"), ("a", .ofInt64 1)]))) ≠
        some (requestWith (.object [(Document.embeddedName, .string "7"), ("a", .ofInt64 1)])) ∧
    Kind.pushRequest.read (Kind.pushRequest.encode (requestWith (nested 126))).text ≠
      some (requestWith (nested 126)) ∧
    Kind.pushRequest.read (Kind.pushRequest.encode (requestWith writtenDouble)).text ≠
      some (requestWith writtenDouble) := by
  refine ⟨fun h => ?_, fun h => ?_, fun h => ?_⟩
  · have hembeds := (Kind.ofJson?_encode_iff.mp h).2
      ⟨"content", .valueMap, some ∅, PushRequest.content⟩ (by simp [Kind.fields]) "gcm" _
      (getElem?_content_requestWith _)
    exact hembeds _ .self rfl
  · rw [Kind.read_text (Kind.readsBack_encode (all_requestWith (readsBack_nested 126)))] at h
    exact absurd (Kind.decode_encode_iff.mp h).2 (by decide +kernel)
  · have htext : (Kind.pushRequest.encode (requestWith writtenDouble)).text = doubleText := by
      decide +kernel
    rw [htext, Kind.read_eq, readDocument_doubleText, Option.bind_some] at h
    -- The document of one double shows no other one.
    cases shows_of_decode_requestDocument h

end PushDelivery.Record
