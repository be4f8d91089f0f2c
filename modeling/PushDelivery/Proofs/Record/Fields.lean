import PushDelivery.Proofs.Json.Restoring
import PushDelivery.Record

/-!
# What the fields of a record may hold

There are six kinds of fields. The documents that show a value of a kind are those that its reader
takes, and the value of a field is restored from what is written of it.
-/

namespace PushDelivery.Record

/-- The kinds of fields. -/
inductive FieldKind where
  | integer
  | text
  | optionalText
  | flag
  | textMap
  | valueMap
  deriving DecidableEq

namespace FieldKind

abbrev Value : FieldKind → Type
  | integer => Int64
  | text => String
  | optionalText => Option String
  | flag => Bool
  | textMap => StringMap String
  | valueMap => StringMap Json

/-- A document shows a value of a kind. The values of a map may nest as far as there is room. -/
inductive Shows (room : Nat) : (kind : FieldKind) → Document → kind.Value → Prop
  | integer (n : Int64) : Shows room .integer (.number (some (.ofInt64 n))) n
  | text (s : String) : Shows room .text (.string (some s)) s
  | noText : Shows room .optionalText .null none
  | someText (s : String) : Shows room .optionalText (.string (some s)) (some s)
  | flag (b : Bool) : Shows room .flag (.bool b) b
  | textMap (entries : List (String × String)) :
      Shows room .textMap (.object (entries.map fun e => (some e.1, .string (some e.2))))
        (.ofList entries)
  | valueMap {members : List (Option String × Document)} {entries : List (String × Json)} :
      Document.ShowsMembers room members entries →
      Shows room .valueMap (.object members) (.ofList entries)

/-- The reader of a kind. -/
def read (room : Nat) : (kind : FieldKind) → Document → Option kind.Value
  | integer => Record.int64
  | text => Record.text
  | optionalText => Record.optionalText
  | flag => Record.flag
  | textMap => Record.textMap
  | valueMap => Record.valueMap room

def json : (kind : FieldKind) → kind.Value → Json
  | integer, n => .ofInt64 n
  | text, s => .string s
  | optionalText, s => .ofOptionalText s
  | flag, b => .bool b
  | textMap, entries => .ofTextMap entries
  | valueMap, entries => .ofMap entries

end FieldKind

variable {room : Nat} {d : Document} {members : List (Option String × Document)}

/-! ## The readers -/

theorem int64_eq_some_iff {n : Int64} : int64 d = some n ↔ d = .number (some (.ofInt64 n)) := by
  constructor
  · intro h
    unfold int64 at h
    split at h
    next m lower upper =>
      split at h
      next hlt =>
        cases h
        have hm : (Int64.ofInt m).toInt = m := Int64.toInt_ofInt_of_le lower hlt
        simp [Json.Number.ofInt64, hm]
      next => cases h
    next => cases h
  · rintro rfl
    exact if_pos (Int64.toInt_lt n) |>.trans (congrArg some (Int64.ofInt_toInt n))

theorem text_eq_some_iff {s : String} : text d = some s ↔ d = .string (some s) := by
  cases d <;> simp [text]

theorem flag_eq_some_iff {b : Bool} : flag d = some b ↔ d = .bool b := by
  cases d <;> simp [flag]

def pairOf? {α : Type} (decode : Document → Option α) (m : Option String × Document) :
    Option (String × α) := do
  return (← m.1, ← decode m.2)

theorem pairOf?_eq_some_iff {α : Type} {decode : Document → Option α}
    {m : Option String × Document} {e : String × α} :
    pairOf? decode m = some e ↔ m.1 = some e.1 ∧ decode m.2 = some e.2 := by
  obtain ⟨name, v⟩ := e
  simp [pairOf?, Option.bind_eq_some_iff]

theorem mapOf_eq_some_iff {α : Type} {decode : Document → Option α} {m : StringMap α} :
    mapOf decode d = some m ↔ ∃ members entries, d = .object members ∧
      members.mapM (pairOf? decode) = some entries ∧ .ofList entries = m := by
  cases d with
  | object members =>
    have h : mapOf decode (.object members) =
        (members.mapM (pairOf? decode)).bind fun entries => some (.ofList entries) := rfl
    simp [h, Option.bind_eq_some_iff]
  | _ => simp [mapOf]

theorem mapM_text_eq_some_iff {entries : List (String × String)} :
    members.mapM (pairOf? text) = some entries ↔
      members = entries.map fun e => (some e.1, .string (some e.2)) := by
  induction members generalizing entries with
  | nil => cases entries <;> simp
  | cons m rest ih =>
    cases entries with
    | nil => simp [Option.bind_eq_some_iff]
    | cons e entries =>
      simp [Option.bind_eq_some_iff, pairOf?_eq_some_iff, text_eq_some_iff, ih, Prod.ext_iff,
        and_assoc]

theorem mapM_value?_eq (members : List (Option String × Document)) :
    members.mapM (pairOf? (·.value? Json.read room)) =
      Document.memberValues? Json.read members room := by
  induction members with
  | nil => rfl
  | cons m rest ih =>
    obtain ⟨name, d⟩ := m
    rw [List.mapM_cons, ih, Document.memberValues?]
    cases name with
    | none => rfl
    | some name => cases h : d.value? Json.read room <;> simp [pairOf?, h]

theorem textMap_eq_some_iff {m : StringMap String} :
    textMap d = some m ↔ ∃ entries : List (String × String),
      d = .object (entries.map fun e => (some e.1, .string (some e.2))) ∧ .ofList entries = m := by
  simp only [textMap, mapOf_eq_some_iff, mapM_text_eq_some_iff]
  constructor
  · rintro ⟨_, entries, rfl, rfl, rfl⟩
    exact ⟨entries, rfl, rfl⟩
  · rintro ⟨entries, rfl, rfl⟩
    exact ⟨_, entries, rfl, rfl, rfl⟩

theorem valueMap_eq_some_iff {m : StringMap Json} :
    valueMap room d = some m ↔ ∃ members entries, d = .object members ∧
      Document.ShowsMembers room members entries ∧ .ofList entries = m := by
  simp only [valueMap, mapOf_eq_some_iff, mapM_value?_eq, Document.memberValues?_eq_some_iff]

namespace FieldKind

theorem read_eq_some_iff {kind : FieldKind} {v : kind.Value} :
    kind.read room d = some v ↔ kind.Shows room d v := by
  constructor
  · intro h
    cases kind with
    | integer =>
      obtain rfl := int64_eq_some_iff.mp h
      exact .integer v
    | text =>
      obtain rfl := text_eq_some_iff.mp h
      exact .text v
    | optionalText =>
      cases d with
      | null =>
        cases h
        exact .noText
      | string s =>
        obtain ⟨s, rfl, rfl⟩ := Option.map_eq_some_iff.mp h
        exact .someText s
      | _ => cases h
    | flag =>
      obtain rfl := flag_eq_some_iff.mp h
      exact .flag v
    | textMap =>
      obtain ⟨entries, rfl, rfl⟩ := textMap_eq_some_iff.mp h
      exact .textMap entries
    | valueMap =>
      obtain ⟨members, entries, rfl, hentries, rfl⟩ := valueMap_eq_some_iff.mp h
      exact .valueMap hentries
  · intro h
    cases h with
    | integer n => exact int64_eq_some_iff.mpr rfl
    | text | noText | someText | flag => rfl
    | textMap entries => exact textMap_eq_some_iff.mpr ⟨entries, rfl, rfl⟩
    | valueMap h => exact valueMap_eq_some_iff.mpr ⟨_, _, rfl, h, rfl⟩

theorem eq_optionalText_of_shows_null {kind : FieldKind} {v : kind.Value}
    (h : kind.Shows room .null v) : kind = .optionalText := by
  cases h
  rfl

theorem shows_integer_iff {x : Option Json.Number} {n : Int64} :
    Shows room .integer (.number x) n ↔ x = some (.ofInt64 n) := by
  rw [← read_eq_some_iff, read, int64_eq_some_iff, Document.number.injEq]

/-! ## What is restored -/

/-- All the JSON values that a value contains have a property. Only maps of values contain any. -/
def All (P : Json → Prop) : (kind : FieldKind) → kind.Value → Prop
  | valueMap, entries => ∀ (name : String) (v : Json), entries[name]? = some v → P v
  | _, _ => True

theorem all_isOrdered_of_shows {kind : FieldKind} {v : kind.Value} (h : kind.Shows room d v) :
    kind.All Json.IsOrdered v := by
  cases h with
  | valueMap h => exact fun name v hv =>
      Document.isOrdered_of_showsMembers h (name, v) (mem_of_getElem?_ofList hv)
  | _ => exact trivial

theorem shows_ofMap_iff {entries : StringMap Json} :
    Shows room .valueMap (.ofJson (.ofMap entries)) entries ↔ All Json.IsOrdered .valueMap entries ∧
      All Json.EmbedsNothing .valueMap entries ∧ (Json.ofMap entries).depth ≤ room + 1 := by
  have hall (P : Json → Prop) : (∀ m ∈ entries.toList, P m.2) ↔ All P .valueMap entries := by
    simp [All, Std.ExtTreeMap.mem_toList_iff_getElem?_eq_some]
  have hshows : Shows room .valueMap (.ofJson (.ofMap entries)) entries ↔
      Document.ShowsMembers room (Document.ofMembers entries.toList) entries.toList := by
    rw [← read_eq_some_iff, read, valueMap_eq_some_iff]
    constructor
    · rintro ⟨members, values, hd, h, hvalues⟩
      obtain rfl := Document.object.inj hd
      have heq := Document.eq_of_showsMembers h (by rw [← hvalues, Json.canonicalMembers])
      rwa [← heq] at h
    · exact fun h => ⟨_, _, rfl, h, ofList_toList entries⟩
  rw [hshows, Document.showsMembers_ofMembers_iff, hall, hall, Json.ofMap, Json.depth,
    Nat.succ_le_succ_iff]

theorem shows_ofTextMap (entries : StringMap String) :
    Shows room .textMap (.ofJson (.ofTextMap entries)) entries := by
  rw [← read_eq_some_iff, read, textMap_eq_some_iff]
  refine ⟨entries.toList, ?_, ofList_toList entries⟩
  rw [Json.ofTextMap, Document.ofJson, Document.ofMembers_eq_map, List.map_map]
  rfl

theorem depth_ofTextMap_le (entries : StringMap String) : (Json.ofTextMap entries).depth ≤ 1 := by
  rw [Json.ofTextMap, Json.depth, Nat.succ_le_succ_iff, Json.membersDepth_le_iff,
    List.forall_mem_map]
  exact fun _ _ => Nat.le_refl 0

/-- Only maps of values contain JSON values. -/
theorem all_of_ne {P : Json → Prop} {kind : FieldKind} {v : kind.Value} (h : kind ≠ .valueMap) :
    kind.All P v := by
  cases kind with
  | valueMap => exact (h rfl).elim
  | _ => exact trivial

theorem depth_json_le {kind : FieldKind} {v : kind.Value} (h : kind ≠ .valueMap) :
    (kind.json v).depth ≤ 1 := by
  cases kind with
  | valueMap => exact (h rfl).elim
  | textMap => exact depth_ofTextMap_le v
  | integer | text | flag => exact Nat.zero_le _
  | optionalText => cases v <;> exact Nat.zero_le _

theorem shows_json_of_ne {kind : FieldKind} {v : kind.Value} (h : kind ≠ .valueMap) :
    kind.Shows room (.ofJson (kind.json v)) v := by
  cases kind with
  | valueMap => exact (h rfl).elim
  | textMap => exact shows_ofTextMap v
  | integer => exact .integer v
  | text => exact .text v
  | flag => exact .flag v
  | optionalText =>
    cases v with
    | none => exact .noText
    | some s => exact .someText s

/-- What is written of a value shows it, if the values in it are shown by their documents. -/
theorem shows_json_iff {kind : FieldKind} {v : kind.Value} :
    kind.Shows room (.ofJson (kind.json v)) v ↔ kind.All Json.IsOrdered v ∧
      kind.All Json.EmbedsNothing v ∧ (kind.json v).depth ≤ room + 1 := by
  by_cases h : kind = .valueMap
  · subst h
    exact shows_ofMap_iff
  · exact iff_of_true (shows_json_of_ne h)
      ⟨all_of_ne h, all_of_ne h, Nat.le_trans (depth_json_le h) (Nat.le_add_left 1 room)⟩

/-- What may be written of a value: a map of strings may list its entries in any order. -/
inductive Writes : (kind : FieldKind) → kind.Value → Json → Prop
  | json (kind : FieldKind) (v : kind.Value) : Writes kind v (kind.json v)
  | textMap {m : StringMap String} {entries : List (String × String)} :
      entries.Perm m.toList → Writes .textMap m (.object (entries.map fun e => (e.1, .string e.2)))

/-- In whichever order a map of strings was written, the same map is read. -/
theorem read_of_writes {kind : FieldKind} {v : kind.Value} {w : Json} (h : kind.Writes v w) :
    kind.read room (.ofJson w) = kind.read room (.ofJson (kind.json v)) := by
  cases h with
  | json => rfl
  | @textMap m entries hperm =>
    have hsorted : textMap.read room (.ofJson (textMap.json m)) = some m :=
      read_eq_some_iff.mpr (shows_ofTextMap m)
    rw [hsorted, read, textMap_eq_some_iff]
    refine ⟨entries, ?_, ofList_of_perm hperm⟩
    rw [Document.ofJson, Document.ofMembers_eq_map, List.map_map]
    rfl

end FieldKind

/-! ## Fields -/

/-- A field of a type of records: its name, what it holds, its value when it is absent, unless it
must be present, and its value in a record. -/
structure Field (ρ : Type) where
  name : String
  kind : FieldKind
  default? : Option kind.Value
  get : ρ → kind.Value

namespace Field

variable {ρ : Type}

def json (field : Field ρ) (r : ρ) : Json := field.kind.json (field.get r)

/-- The value of a field among those that a document shows. -/
def read (room : Nat) (field : Field ρ) (f : Fields) : Option field.kind.Value :=
  match f field.name with
  | none => field.default?
  | some d => field.kind.read room d

/-- A record has the value that a document shows of a field, or the field's own value where there is
no document. -/
def Fits (room : Nat) (field : Field ρ) (d? : Option Document) (r : ρ) : Prop :=
  match d? with
  | none => field.default? = some (field.get r)
  | some d => field.kind.Shows room d (field.get r)

theorem read_eq_some_iff {field : Field ρ} {f : Fields} {r : ρ} :
    field.read room f = some (field.get r) ↔ field.Fits room (f field.name) r := by
  unfold read Fits
  split
  next => rfl
  next => exact FieldKind.read_eq_some_iff

theorem read_eq (field : Field ρ) (f : Fields) : field.read room f =
    match field.default? with
    | none => required f field.name (field.kind.read room)
    | some v => defaulted f field.name v (field.kind.read room) := by
  unfold read required defaulted
  cases f field.name <;> cases field.default? <;> rfl

end Field

end PushDelivery.Record
