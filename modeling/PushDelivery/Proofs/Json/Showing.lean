import PushDelivery.Proofs.Json.Embedding

/-!
# Which value a document shows

A leaf shows the value that it denotes, an array the array of what its items show, and an object
lists what its members show in the order of their names, a repeated name with its last value. An
object that begins with the reserved name shows nothing but the value of the text that is its only
member. This relation is what giving a value to a document computes.
-/

namespace PushDelivery

namespace Document

mutual

/-- A document shows a value, within the room that is left for arrays and objects to nest. -/
inductive Shows : (room : Nat) → Document → Json → Prop
  | null {room : Nat} : Shows room .null .null
  | bool {room : Nat} (b : Bool) : Shows room (.bool b) (.bool b)
  | number {room : Nat} (n : Json.Number) : Shows room (.number (some n)) (.number n)
  | string {room : Nat} (text : String) : Shows room (.string (some text)) (.string text)
  | array {room : Nat} {items : List Document} {values : List Json} :
      ShowsItems room items values → Shows (room + 1) (.array items) (.array values)
  | object {room : Nat} {members : List (Option String × Document)}
      {values : List (String × Json)} : embedsText members = false →
      ShowsMembers room members values →
      Shows (room + 1) (.object members) (.object (Json.canonicalMembers values))
  | embedded {room : Nat} {text : String} {d : Document} {v : Json} :
      Json.readDocument text = some d → Shows Json.depthLimit d v →
      Shows (room + 1) (.object [(some embeddedName, .string (some text))]) v

inductive ShowsItems : (room : Nat) → List Document → List Json → Prop
  | nil {room : Nat} : ShowsItems room [] []
  | cons {room : Nat} {d : Document} {v : Json} {items : List Document} {values : List Json} :
      Shows room d v → ShowsItems room items values → ShowsItems room (d :: items) (v :: values)

inductive ShowsMembers :
    (room : Nat) → List (Option String × Document) → List (String × Json) → Prop
  | nil {room : Nat} : ShowsMembers room [] []
  | cons {room : Nat} {name : String} {d : Document} {v : Json}
      {members : List (Option String × Document)} {values : List (String × Json)} :
      Shows room d v → ShowsMembers room members values →
      ShowsMembers room ((some name, d) :: members) ((name, v) :: values)

end

mutual

theorem value?_of_shows {room : Nat} {d : Document} {v : Json} (h : Shows room d v) :
    d.value? Json.read room = some v := by
  match h with
  | .null | .bool _ | .number _ | .string _ => simp [value?]
  | .array h => simp [value?, itemValues?_of_showsItems h]
  | .object hembeds h => simp [value?, hembeds, memberValues?_of_showsMembers h]
  | .embedded hd h => simp [value?, embedsText, onlyText?, Json.read_eq, hd, value?_of_shows h]

theorem itemValues?_of_showsItems {room : Nat} {items : List Document} {values : List Json}
    (h : ShowsItems room items values) : itemValues? Json.read items room = some values := by
  match h with
  | .nil => simp [itemValues?]
  | .cons hd h => simp [itemValues?, value?_of_shows hd, itemValues?_of_showsItems h]

theorem memberValues?_of_showsMembers {room : Nat} {members : List (Option String × Document)}
    {entries : List (String × Json)} (h : ShowsMembers room members entries) :
    memberValues? Json.read members room = some entries := by
  match h with
  | .nil => simp [memberValues?]
  | .cons hd h => simp [memberValues?, value?_of_shows hd, memberValues?_of_showsMembers h]

end

/-- A reader of texts gives values that the documents of the texts show. -/
def ReadsShown (f : String → Option Json) : Prop := ∀ text v, f text = some v →
  ∃ d, Json.readDocument text = some d ∧ Shows Json.depthLimit d v

variable {f : String → Option Json}

theorem shows_of_embedded (hf : ReadsShown f) {room : Nat}
    {members : List (Option String × Document)} {v : Json}
    (hembeds : embedsText members = true) (h : (onlyText? members).bind f = some v) :
    Shows (room + 1) (.object members) v := by
  obtain ⟨text, honly, hread⟩ := Option.bind_eq_some_iff.mp h
  obtain ⟨d, hd, hshows⟩ := hf text v hread
  unfold onlyText? at honly
  split at honly
  next name text' =>
    cases honly
    have hname : name = some embeddedName := by simpa [embedsText] using hembeds
    rw [hname]
    exact .embedded hd hshows
  next => cases honly

mutual

theorem shows_of_value? (hf : ReadsShown f) (d : Document) (room : Nat) {v : Json}
    (h : d.value? f room = some v) : Shows room d v := by
  match d, room with
  | .null, _ =>
    rw [value?] at h
    cases h
    exact .null
  | .bool b, _ =>
    rw [value?] at h
    cases h
    exact .bool b
  | .number _, _ =>
    rw [value?] at h
    obtain ⟨n, rfl, rfl⟩ := Option.map_eq_some_iff.mp h
    exact .number n
  | .string _, _ =>
    rw [value?] at h
    obtain ⟨text, rfl, rfl⟩ := Option.map_eq_some_iff.mp h
    exact .string text
  | .array _, 0 | .object _, 0 =>
    rw [value?] at h
    cases h
  | .array items, room + 1 =>
    rw [value?] at h
    obtain ⟨values, hvalues, rfl⟩ := Option.map_eq_some_iff.mp h
    exact .array (showsItems_of_itemValues? hf items room hvalues)
  | .object members, room + 1 =>
    rw [value?] at h
    split at h
    next hembeds => exact shows_of_embedded hf hembeds h
    next hembeds =>
      obtain ⟨values, hvalues, rfl⟩ := Option.map_eq_some_iff.mp h
      exact .object (by simpa using hembeds) (showsMembers_of_memberValues? hf members room hvalues)

theorem showsItems_of_itemValues? (hf : ReadsShown f) (items : List Document) (room : Nat)
    {values : List Json} (h : itemValues? f items room = some values) :
    ShowsItems room items values := by
  match items with
  | [] =>
    rw [itemValues?] at h
    cases h
    exact .nil
  | d :: rest =>
    rw [itemValues?] at h
    obtain ⟨v, hv, h⟩ := Option.bind_eq_some_iff.mp h
    obtain ⟨vs, hvs, h⟩ := Option.bind_eq_some_iff.mp h
    cases h
    exact .cons (shows_of_value? hf d room hv) (showsItems_of_itemValues? hf rest room hvs)

theorem showsMembers_of_memberValues? (hf : ReadsShown f)
    (members : List (Option String × Document)) (room : Nat) {entries : List (String × Json)}
    (h : memberValues? f members room = some entries) : ShowsMembers room members entries := by
  match members with
  | [] =>
    rw [memberValues?] at h
    cases h
    exact .nil
  | (name?, d) :: rest =>
    rw [memberValues?] at h
    obtain ⟨name, rfl, hvalues⟩ := Option.bind_eq_some_iff.mp h
    obtain ⟨v, hv, hvalues⟩ := Option.bind_eq_some_iff.mp hvalues
    obtain ⟨vs, hvs, hvalues⟩ := Option.bind_eq_some_iff.mp hvalues
    cases hvalues
    exact .cons (shows_of_value? hf d room hv) (showsMembers_of_memberValues? hf rest room hvs)

end

theorem readsShown_readWithin (levels : Nat) : ReadsShown (Json.readWithin levels) := by
  induction levels with
  | zero => exact nofun
  | succ levels ih =>
    intro text v h
    obtain ⟨d, hd, h⟩ := Option.bind_eq_some_iff.mp h
    exact ⟨d, hd, shows_of_value? ih d _ h⟩

theorem readsShown_read : ReadsShown Json.read := fun text v => readsShown_readWithin _ text v

theorem value?_eq_some_iff {room : Nat} {d : Document} {v : Json} :
    d.value? Json.read room = some v ↔ Shows room d v :=
  ⟨shows_of_value? readsShown_read d room, value?_of_shows⟩

theorem memberValues?_eq_some_iff {room : Nat} {members : List (Option String × Document)}
    {entries : List (String × Json)} :
    memberValues? Json.read members room = some entries ↔ ShowsMembers room members entries :=
  ⟨showsMembers_of_memberValues? readsShown_read members room, memberValues?_of_showsMembers⟩

/-! ## The names of members -/

theorem names_eq_of_showsMembers {room : Nat} {members : List (Option String × Document)}
    {values : List (String × Json)} (h : ShowsMembers room members values) :
    members.map Prod.fst = (values.map Prod.fst).map some := by
  match h with
  | .nil => rfl
  | .cons _ h => simp [names_eq_of_showsMembers h]

/-- Every name stays when members are put in order. -/
theorem exists_mem_canonicalMembers {α : Type} {members : List (String × α)} {m : String × α}
    (h : m ∈ members) : ∃ v, (m.1, v) ∈ Json.canonicalMembers members := by
  have hname : m.1 ∈ (Std.ExtTreeMap.ofList members : StringMap α) :=
    Std.ExtTreeMap.mem_ofList.mpr (by simpa using ⟨m.2, h⟩)
  obtain ⟨v, hv⟩ := Option.isSome_iff_exists.mp (Std.ExtTreeMap.mem_iff_isSome_getElem?.mp hname)
  exact ⟨v, Std.ExtTreeMap.mem_toList_iff_getElem?_eq_some.mpr hv⟩

theorem canonicalMembers_ne_embedding {room : Nat} {members : List (Option String × Document)}
    {values : List (String × Json)} (hembeds : embedsText members = false)
    (h : ShowsMembers room members values) (w : Json) :
    Json.canonicalMembers values ≠ [(embeddedName, w)] := by
  intro heq
  cases h with
  | nil => cases heq
  | @cons _ name _ v _ values _ _ =>
    obtain ⟨v', hmem⟩ :=
      exists_mem_canonicalMembers (List.mem_cons_self : (name, v) ∈ (name, v) :: values)
    rw [heq, List.mem_singleton] at hmem
    have hname : name = embeddedName := (Prod.mk.inj hmem).1
    simp [embedsText, hname] at hembeds

/-- No document shows an object whose only member has the reserved name. -/
theorem ne_embedding_of_shows {room : Nat} {d : Document} {v : Json} (h : Shows room d v)
    (w : Json) : v ≠ .object [(embeddedName, w)] := by
  match h with
  | .null | .bool _ | .number _ | .string _ | .array _ => rintro ⟨⟩
  | .object hembeds h =>
    exact fun heq => canonicalMembers_ne_embedding hembeds h w (Json.object.inj heq)
  | .embedded _ h => exact ne_embedding_of_shows h w

end Document

/-- A text is read as the value that its document shows. -/
theorem Json.read_eq_some_iff {text : String} {v : Json} :
    read text = some v ↔ ∃ d, readDocument text = some d ∧ d.Shows depthLimit v := by
  rw [read_eq, Option.bind_eq_some_iff]
  simp only [Document.value?_eq_some_iff]

end PushDelivery
