import PushDelivery.Proofs.Json.Showing
import PushDelivery.Proofs.OrderedMap

/-!
# Values that their documents restore

A value is made into a document and the document is given a value again. This gives the same value
exactly if the document has the room to nest that the value takes, every object lists its members in
the order of their names, and no object begins with the name that is reserved for embedded texts.
Every value that any document shows has the first two properties, as far as it was not embedded, but
not the third: the reserved name may come first only when members are put in order.
-/

namespace PushDelivery

namespace Json

/-- A value is part of another one, which may be itself. -/
inductive IsPart (part : Json) : Json → Prop
  | self : IsPart part part
  | item {v : Json} {items : List Json} : v ∈ items → IsPart part v → IsPart part (.array items)
  | member {name : String} {v : Json} {members : List (String × Json)} :
      (name, v) ∈ members → IsPart part v → IsPart part (.object members)

/-- The members of every object are in the order of their names, and no name is repeated. -/
def IsOrdered (v : Json) : Prop := ∀ members, IsPart (.object members) v →
  (members.map Prod.fst).Pairwise fun a b => compare a b = .lt

/-- No object begins with the name that is reserved for embedded texts. -/
def EmbedsNothing (v : Json) : Prop := ∀ members, IsPart (.object members) v →
  members.head?.map Prod.fst ≠ some Document.embeddedName

variable {v : Json} {items : List Json} {members : List (String × Json)}

theorem isPart_array_iff {part : Json} :
    IsPart part (.array items) ↔ part = .array items ∨ ∃ v ∈ items, IsPart part v := by
  constructor
  · rintro (_ | ⟨hmem, h⟩)
    · exact .inl rfl
    · exact .inr ⟨_, hmem, h⟩
  · rintro (rfl | ⟨v, hmem, h⟩)
    · exact .self
    · exact .item hmem h

theorem isPart_object_iff {part : Json} :
    IsPart part (.object members) ↔ part = .object members ∨ ∃ m ∈ members, IsPart part m.2 := by
  constructor
  · rintro (_ | _ | ⟨hmem, h⟩)
    · exact .inl rfl
    · exact .inr ⟨_, hmem, h⟩
  · rintro (rfl | ⟨m, hmem, h⟩)
    · exact .self
    · exact .member hmem h

theorem isOrdered_array_iff : (Json.array items).IsOrdered ↔ ∀ v ∈ items, v.IsOrdered := by
  simp only [IsOrdered, isPart_array_iff]
  grind

theorem isOrdered_object_iff : (Json.object members).IsOrdered ↔
    ((members.map Prod.fst).Pairwise fun a b => compare a b = .lt) ∧
      ∀ m ∈ members, m.2.IsOrdered := by
  simp only [IsOrdered, isPart_object_iff]
  grind

theorem itemsDepth_le_iff {room : Nat} :
    itemsDepth items ≤ room ↔ ∀ v ∈ items, v.depth ≤ room := by
  induction items with
  | nil => simp [itemsDepth]
  | cons v rest ih => rw [itemsDepth, Nat.max_le, ih, List.forall_mem_cons]

theorem membersDepth_le_iff {room : Nat} :
    membersDepth members ≤ room ↔ ∀ m ∈ members, m.2.depth ≤ room := by
  induction members with
  | nil => simp [membersDepth]
  | cons m rest ih => rw [membersDepth, Nat.max_le, ih, List.forall_mem_cons]

theorem embedsNothing_array_iff :
    (Json.array items).EmbedsNothing ↔ ∀ v ∈ items, v.EmbedsNothing := by
  simp only [EmbedsNothing, isPart_array_iff]
  grind

theorem embedsNothing_object_iff : (Json.object members).EmbedsNothing ↔
    members.head?.map Prod.fst ≠ some Document.embeddedName ∧ ∀ m ∈ members, m.2.EmbedsNothing := by
  simp only [EmbedsNothing, isPart_object_iff]
  grind

theorem pairwise_canonicalMembers {α : Type} (members : List (String × α)) :
    ((canonicalMembers members).map Prod.fst).Pairwise fun a b => compare a b = .lt :=
  List.pairwise_map.mpr Std.ExtTreeMap.ordered_keys_toList

theorem canonicalMembers_eq_self {α : Type} {members : List (String × α)}
    (h : (members.map Prod.fst).Pairwise fun a b => compare a b = .lt) :
    canonicalMembers members = members :=
  toList_ofList (List.pairwise_map.mp h)

theorem mem_of_mem_canonicalMembers {α : Type} {members : List (String × α)} {m : String × α}
    (h : m ∈ canonicalMembers members) : m ∈ members := by
  obtain ⟨name, v⟩ := m
  exact mem_of_getElem?_ofList (Std.ExtTreeMap.mem_toList_iff_getElem?_eq_some.mp h)

end Json

namespace Document

open Json

variable {room : Nat} {d : Document} {v : Json} {items : List Json}

/-! ## What can be shown -/

mutual

theorem isOrdered_of_shows {room : Nat} {d : Document} {v : Json} (h : Shows room d v) :
    v.IsOrdered := by
  match h with
  | .null | .bool _ | .number _ | .string _ =>
    rintro _ ⟨⟩
  | .array h => exact isOrdered_array_iff.mpr (isOrdered_of_showsItems h)
  | .object _ h =>
    exact isOrdered_object_iff.mpr ⟨pairwise_canonicalMembers _, fun m hm =>
      isOrdered_of_showsMembers h m (mem_of_mem_canonicalMembers hm)⟩
  | .embedded _ h => exact isOrdered_of_shows h

theorem isOrdered_of_showsItems {room : Nat} {items : List Document} {values : List Json}
    (h : ShowsItems room items values) : ∀ v ∈ values, v.IsOrdered := by
  match h with
  | .nil => exact nofun
  | .cons hd h => exact List.forall_mem_cons.mpr ⟨isOrdered_of_shows hd, isOrdered_of_showsItems h⟩

theorem isOrdered_of_showsMembers {room : Nat} {members : List (Option String × Document)}
    {values : List (String × Json)} (h : ShowsMembers room members values) :
    ∀ m ∈ values, m.2.IsOrdered := by
  match h with
  | .nil => exact nofun
  | .cons hd h =>
    exact List.forall_mem_cons.mpr ⟨isOrdered_of_shows hd, isOrdered_of_showsMembers h⟩

end

/-! ## What is restored -/

theorem ofItems_eq_map (items : List Json) : ofItems items = items.map ofJson := by
  induction items with
  | nil => rfl
  | cons v rest ih => rw [ofItems, ih, List.map_cons]

theorem ofMembers_eq_map (members : List (String × Json)) :
    ofMembers members = members.map fun m => (some m.1, ofJson m.2) := by
  induction members with
  | nil => rfl
  | cons m rest ih => rw [ofMembers, ih, List.map_cons]

theorem names_ofMembers (members : List (String × Json)) :
    (ofMembers members).map Prod.fst = (members.map Prod.fst).map some := by
  simp [ofMembers_eq_map]

theorem embedsText_ofMembers_eq_false_iff {members : List (String × Json)} :
    embedsText (ofMembers members) = false ↔ members.head?.map Prod.fst ≠ some embeddedName := by
  cases members with
  | nil => simp [ofMembers, embedsText]
  | cons m rest => simp [ofMembers, embedsText]

mutual

theorem shows_ofJson (v : Json) (room : Nat) (hordered : v.IsOrdered) (hembeds : v.EmbedsNothing)
    (hdepth : v.depth ≤ room) : Shows room (ofJson v) v := by
  match v, room with
  | .null, _ | .bool _, _ | .number _, _ | .string _, _ =>
    rw [ofJson]
    constructor
  | .array _, 0 | .object _, 0 => simp [depth] at hdepth
  | .array items, room + 1 =>
    rw [ofJson]
    exact .array (showsItems_ofItems items room (isOrdered_array_iff.mp hordered)
      (embedsNothing_array_iff.mp hembeds) (Nat.le_of_succ_le_succ (by simpa [depth] using hdepth)))
  | .object members, room + 1 =>
    obtain ⟨hsorted, hordered⟩ := isOrdered_object_iff.mp hordered
    obtain ⟨hhead, hembeds⟩ := embedsNothing_object_iff.mp hembeds
    have hmembers := showsMembers_ofMembers members room hordered hembeds
      (Nat.le_of_succ_le_succ (by simpa [depth] using hdepth))
    have hshows := Shows.object (embedsText_ofMembers_eq_false_iff.mpr hhead) hmembers
    rwa [canonicalMembers_eq_self hsorted, ← ofJson] at hshows

theorem showsItems_ofItems (items : List Json) (room : Nat) (hordered : ∀ v ∈ items, v.IsOrdered)
    (hembeds : ∀ v ∈ items, v.EmbedsNothing) (hdepth : itemsDepth items ≤ room) :
    ShowsItems room (ofItems items) items := by
  match items with
  | [] =>
    rw [ofItems]
    exact .nil
  | v :: rest =>
    rw [itemsDepth, Nat.max_le] at hdepth
    rw [List.forall_mem_cons] at hordered hembeds
    rw [ofItems]
    exact .cons (shows_ofJson v room hordered.1 hembeds.1 hdepth.1)
      (showsItems_ofItems rest room hordered.2 hembeds.2 hdepth.2)

theorem showsMembers_ofMembers (members : List (String × Json)) (room : Nat)
    (hordered : ∀ m ∈ members, m.2.IsOrdered) (hembeds : ∀ m ∈ members, m.2.EmbedsNothing)
    (hdepth : membersDepth members ≤ room) : ShowsMembers room (ofMembers members) members := by
  match members with
  | [] =>
    rw [ofMembers]
    exact .nil
  | (name, v) :: rest =>
    rw [membersDepth, Nat.max_le] at hdepth
    rw [List.forall_mem_cons] at hordered hembeds
    rw [ofMembers]
    exact .cons (shows_ofJson v room hordered.1 hembeds.1 hdepth.1)
      (showsMembers_ofMembers rest room hordered.2 hembeds.2 hdepth.2)

end

/-- Members whose documents show them in order are shown one by one. -/
theorem eq_of_showsMembers {members values : List (String × Json)}
    (h : ShowsMembers room (ofMembers members) values)
    (hvalues : members = canonicalMembers values) : members = values := by
  have hnames : members.map Prod.fst = values.map Prod.fst :=
    List.map_injective_iff.mpr (fun _ _ => Option.some.inj)
      ((names_ofMembers members).symm.trans (names_eq_of_showsMembers h))
  have hsorted : (values.map Prod.fst).Pairwise fun a b => compare a b = .lt := by
    rw [← hnames, hvalues]
    exact pairwise_canonicalMembers values
  rwa [canonicalMembers_eq_self hsorted] at hvalues

/-- An object that its document shows does not embed a text, and its members show themselves. -/
theorem showsMembers_of_shows {room : Nat} {members : List (String × Json)}
    (h : Shows room (.object (ofMembers members)) (.object members)) :
    members.head?.map Prod.fst ≠ some embeddedName ∧
      ∃ room', room = room' + 1 ∧ ShowsMembers room' (ofMembers members) members := by
  generalize hd : Document.object (ofMembers members) = d at h
  generalize hv : Json.object members = v at h
  cases h with
  | null | bool | number | string | array => cases hd
  | @object room' _ values hembeds h =>
    cases hd
    rw [← eq_of_showsMembers h (Json.object.inj hv)] at h
    exact ⟨embedsText_ofMembers_eq_false_iff.mp hembeds, room', rfl, h⟩
  | @embedded _ text _ _ _ h =>
    -- The value would be the object that embeds it.
    have hmembers := Document.object.inj hd
    match members with
    | [] | _ :: _ :: _ => simp [ofMembers] at hmembers
    | [(name, w)] =>
      have hname : name = embeddedName := by
        simpa [ofMembers] using congrArg (·.map Prod.fst) hmembers
      rw [hname] at hv
      exact (ne_embedding_of_shows h w hv.symm).elim

mutual

theorem restorable_of_shows (v : Json) (room : Nat) (h : Shows room (ofJson v) v) :
    v.EmbedsNothing ∧ v.depth ≤ room := by
  match v with
  | .null | .bool _ | .number _ | .string _ =>
    refine ⟨?_, Nat.zero_le _⟩
    rintro _ ⟨⟩
  | .array items =>
    rw [ofJson] at h
    cases h with
    | array h =>
      obtain ⟨hembeds, hdepth⟩ := restorable_of_showsItems items _ h
      exact ⟨embedsNothing_array_iff.mpr hembeds, Nat.succ_le_succ hdepth⟩
  | .object members =>
    rw [ofJson] at h
    obtain ⟨hhead, room, rfl, hmembers⟩ := showsMembers_of_shows h
    obtain ⟨hembeds, hdepth⟩ := restorable_of_showsMembers members room hmembers
    exact ⟨embedsNothing_object_iff.mpr ⟨hhead, hembeds⟩, Nat.succ_le_succ hdepth⟩

theorem restorable_of_showsItems (items : List Json) (room : Nat)
    (h : ShowsItems room (ofItems items) items) :
    (∀ v ∈ items, v.EmbedsNothing) ∧ itemsDepth items ≤ room := by
  match items with
  | [] => exact ⟨nofun, Nat.zero_le _⟩
  | v :: rest =>
    rw [ofItems] at h
    cases h with
    | cons hv h =>
      obtain ⟨hembeds, hdepth⟩ := restorable_of_shows v room hv
      obtain ⟨hembeds', hdepth'⟩ := restorable_of_showsItems rest room h
      exact ⟨List.forall_mem_cons.mpr ⟨hembeds, hembeds'⟩, Nat.max_le.mpr ⟨hdepth, hdepth'⟩⟩

theorem restorable_of_showsMembers (members : List (String × Json)) (room : Nat)
    (h : ShowsMembers room (ofMembers members) members) :
    (∀ m ∈ members, m.2.EmbedsNothing) ∧ membersDepth members ≤ room := by
  match members with
  | [] => exact ⟨nofun, Nat.zero_le _⟩
  | (name, v) :: rest =>
    rw [ofMembers] at h
    cases h with
    | cons hv h =>
      obtain ⟨hembeds, hdepth⟩ := restorable_of_shows v room hv
      obtain ⟨hembeds', hdepth'⟩ := restorable_of_showsMembers rest room h
      exact ⟨List.forall_mem_cons.mpr ⟨hembeds, hembeds'⟩, Nat.max_le.mpr ⟨hdepth, hdepth'⟩⟩

end

/-- The members of an object that are made into documents show the same members again. -/
theorem showsMembers_ofMembers_iff {members : List (String × Json)} {room : Nat} :
    ShowsMembers room (ofMembers members) members ↔
      (∀ m ∈ members, m.2.IsOrdered) ∧ (∀ m ∈ members, m.2.EmbedsNothing) ∧
        membersDepth members ≤ room :=
  ⟨fun h => ⟨isOrdered_of_showsMembers h, restorable_of_showsMembers members room h⟩,
    fun h => showsMembers_ofMembers members room h.1 h.2.1 h.2.2⟩

end Document

end PushDelivery
