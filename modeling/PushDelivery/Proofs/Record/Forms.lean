import Mathlib.Data.List.Nodup
import PushDelivery.Proofs.Record.Kind

/-!
# The two forms of a record

An object gives each field the document of the one member with its name, and an array gives it the
item at its place. A document shows a record exactly if in this way each field is given a document
that shows its value, or none where it is absent and has its default.
-/

namespace PushDelivery

def Document.ofNamed (members : List (String × Document)) : Document :=
  .object (members.map fun m => (some m.1, m.2))

namespace Record

variable {names : List String} {members : List (String × Document)} {items : List Document}
  {f : Fields} {name : String} {d : Document}

/-! ## Objects -/

theorem lookup_eq_some_iff_mem {l : List (String × Document)} (h : (l.map Prod.fst).Nodup) :
    l.lookup name = some d ↔ (name, d) ∈ l := by
  induction l with
  | nil => simp
  | cons e rest ih =>
    obtain ⟨name', d'⟩ := e
    obtain ⟨hnotMem, hrest⟩ := List.nodup_cons.mp h
    by_cases hname : name = name'
    · subst hname
      have hne : (name, d) ∉ rest := fun hmem => hnotMem (List.mem_map.mpr ⟨_, hmem, rfl⟩)
      simp [hne, eq_comm]
    · have hne : (name == name') = false := beq_eq_false_iff_ne.mpr hname
      simp [List.lookup_cons, hname, hne, ih hrest]

/-- The members that have the name of a field. -/
def known (names : List String) (members : List (String × Document)) : List (String × Document) :=
  members.filter fun m => m.1 ∈ names

theorem mem_known_iff (hname : name ∈ names) :
    (name, d) ∈ known names members ↔ (name, d) ∈ members := by
  simp [known, hname]

theorem mapM_named (members : List (String × Document)) :
    (members.map fun m => (some m.1, m.2)).mapM (fun (name, d) => name.map fun name => (name, d)) =
      some members := by
  induction members with
  | nil => rfl
  | cons m rest ih => simp [ih]

theorem fields?_ofNamed (names : List String) (members : List (String × Document)) :
    fields? names (.ofNamed members) =
      if ((known names members).map Prod.fst).Nodup
      then some fun name => (known names members).lookup name else none := by
  rw [Document.ofNamed, fields?, fieldsOfMembers, mapM_named]
  simp only [List.contains_eq_mem]
  rfl

/-- No field is repeated. -/
theorem nodup_known_iff : ((known names members).map Prod.fst).Nodup ↔
    ∀ name ∈ names, (members.map Prod.fst).count name ≤ 1 := by
  have hknown : (known names members).map Prod.fst =
      (members.map Prod.fst).filter fun name => name ∈ names := by
    rw [List.filter_map]
    rfl
  rw [hknown, List.nodup_iff_count_le_one]
  refine forall_congr' fun name => ?_
  by_cases hname : name ∈ names
  · simp [hname, List.count_filter]
  · have hnotMem : name ∉ (members.map Prod.fst).filter fun name => name ∈ names := by
      simp [hname]
    simp [hname, List.count_eq_zero_of_not_mem hnotMem]

/-! ## Arrays -/

theorem lookup_zip {i : Nat} (hnames : names.Nodup) (h : names[i]? = some name) :
    (names.zip items).lookup name = items[i]? := by
  induction names generalizing items i with
  | nil => cases h
  | cons name' rest ih =>
    obtain ⟨hnotMem, hrest⟩ := List.nodup_cons.mp hnames
    cases items with
    | nil => rfl
    | cons d items =>
      cases i with
      | zero =>
        cases h
        simp
      | succ i =>
        have hne : name ≠ name' := fun heq => hnotMem (heq ▸ List.mem_of_getElem? h)
        simpa [List.lookup_cons, beq_eq_false_iff_ne.mpr hne] using ih hrest h

theorem fields?_array (names : List String) (items : List Document) :
    fields? names (.array items) = if items.length ≤ names.length
      then some fun name => (names.zip items).lookup name else none := rfl

/-! ## Records -/

namespace Kind

variable {room : Nat} {k : Kind} {r : k.Carrier}

theorem mem_names {field : Field k.Carrier} (h : field ∈ k.fields) : field.name ∈ k.names :=
  List.mem_map_of_mem h

theorem decode_congr {d' : Document} (h : fields? k.names d = fields? k.names d') :
    k.decode room d = k.decode room d' := by
  refine Option.ext fun r => ?_
  rw [decode_eq_some_iff, decode_eq_some_iff, h]

theorem decode_ofNamed_eq_some_iff : k.decode room (.ofNamed members) = some r ↔
    ((known k.names members).map Prod.fst).Nodup ∧
      ∀ field ∈ k.fields, field.Fits room ((known k.names members).lookup field.name) r := by
  rw [decode_eq_some_iff, fields?_ofNamed]
  simp only [Field.read_eq_some_iff]
  split
  next h => simp [h]
  next h => simp [h]

theorem decode_array_eq_some_iff : k.decode room (.array items) = some r ↔
    items.length ≤ k.fields.length ∧
      ∀ (i : Nat) field, k.fields[i]? = some field → field.Fits room items[i]? r := by
  -- The names of the fields differ, so looking one up by its name finds the item at its place.
  have hlookup (i : Nat) (field : Field k.Carrier) (h : k.fields[i]? = some field) :
      (k.names.zip items).lookup field.name = items[i]? :=
    lookup_zip k.nodup_names (by simp [names, h])
  have hlength : k.names.length = k.fields.length := List.length_map _
  rw [decode_eq_some_iff, fields?_array, hlength]
  simp only [Field.read_eq_some_iff]
  split
  next h =>
    rw [and_iff_right h]
    constructor
    · rintro ⟨f, hf, hfits⟩ i field hi
      cases hf
      rw [← hlookup i field hi]
      exact hfits field (List.mem_of_getElem? hi)
    · intro hfits
      refine ⟨_, rfl, fun field hmem => ?_⟩
      obtain ⟨i, hi⟩ := List.getElem?_of_mem hmem
      rw [hlookup i field hi]
      exact hfits i field hi
  next h => simp [h]

end Kind

end Record

end PushDelivery
