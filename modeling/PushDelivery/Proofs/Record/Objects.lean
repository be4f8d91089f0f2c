import PushDelivery.Proofs.Json.NumberText
import PushDelivery.Proofs.Record.Forms

/-!
# Records that are read from objects

An object shows a record by the members that have the names of fields: none of them may be repeated,
the required ones must be there, and each must hold what its field may hold. Where the members stand
and what else the object has makes no difference.
-/

namespace PushDelivery.Record

namespace Kind

variable {room : Nat} {k : Kind} {members members' : List (String × Document)} {d : Document}
  {name : String} {r : k.Carrier} {field : Field k.Carrier}

/-! ## The members with the names of fields -/

theorem lookup_known_eq_none_iff (hname : name ∈ k.names) :
    (known k.names members).lookup name = none ↔ name ∉ members.map Prod.fst := by
  rw [List.lookup_eq_none_iff, List.mem_map]
  constructor
  · rintro h ⟨m, hmem, rfl⟩
    simpa using h m ((mem_known_iff hname).mpr hmem)
  · intro h m hmem
    have hne : name ≠ m.1 := fun heq => h ⟨m, (List.mem_filter.mp hmem).1, heq.symm⟩
    simpa using hne

theorem lookup_known_eq_some_iff (hnodup : ((known k.names members).map Prod.fst).Nodup)
    (hname : name ∈ k.names) :
    (known k.names members).lookup name = some d ↔ (name, d) ∈ members :=
  (lookup_eq_some_iff_mem hnodup).trans (mem_known_iff hname)

theorem fits_known_iff (hnodup : ((known k.names members).map Prod.fst).Nodup)
    (hfield : field ∈ k.fields) :
    field.Fits room ((known k.names members).lookup field.name) r ↔
      (∀ d, (field.name, d) ∈ members → field.kind.Shows room d (field.get r)) ∧
        (field.name ∉ members.map Prod.fst → field.default? = some (field.get r)) := by
  have hname := mem_names hfield
  cases h : (known k.names members).lookup field.name with
  | none =>
    have habsent := (lookup_known_eq_none_iff hname).mp h
    have hnone : ∀ d, (field.name, d) ∉ members := fun d hmem =>
      habsent (List.mem_map.mpr ⟨_, hmem, rfl⟩)
    simp [Field.Fits, habsent, hnone]
  | some d =>
    have hpresent : field.name ∈ members.map Prod.fst :=
      List.mem_map.mpr ⟨_, (lookup_known_eq_some_iff hnodup hname).mp h, rfl⟩
    have hmem (d' : Document) : (field.name, d') ∈ members ↔ d' = d := by
      rw [← lookup_known_eq_some_iff hnodup hname, h, Option.some.injEq, eq_comm]
    simp [Field.Fits, hpresent, hmem]

theorem fields?_ofNamed_perm (h : (known k.names members).Perm (known k.names members')) :
    fields? k.names (.ofNamed members) = fields? k.names (.ofNamed members') := by
  have hnodup : ((known k.names members).map Prod.fst).Nodup ↔
      ((known k.names members').map Prod.fst).Nodup := (h.map Prod.fst).nodup_iff
  rw [fields?_ofNamed, fields?_ofNamed]
  by_cases hmembers : ((known k.names members).map Prod.fst).Nodup
  · rw [if_pos hmembers, if_pos (hnodup.mp hmembers)]
    refine congrArg some (funext fun name => Option.ext fun d => ?_)
    rw [lookup_eq_some_iff_mem hmembers, lookup_eq_some_iff_mem (hnodup.mp hmembers), h.mem_iff]
  · rw [if_neg hmembers, if_neg (hnodup.not.mp hmembers)]

/-! ## Reading -/

theorem decode_ofNamed_of_repeated (hname : name ∈ k.names)
    (h : 1 < (members.map Prod.fst).count name) : k.decode room (.ofNamed members) = none := by
  refine Option.eq_none_iff_forall_ne_some.mpr fun r hr => ?_
  have hcount := nodup_known_iff.mp (decode_ofNamed_eq_some_iff.mp hr).1 name hname
  omega

theorem fits_of_decode_ofNamed (h : k.decode room (.ofNamed members) = some r)
    (hfield : field ∈ k.fields) :
    (∀ d, (field.name, d) ∈ members → field.kind.Shows room d (field.get r)) ∧
      (field.name ∉ members.map Prod.fst → field.default? = some (field.get r)) := by
  obtain ⟨hnodup, hfits⟩ := decode_ofNamed_eq_some_iff.mp h
  exact (fits_known_iff hnodup hfield).mp (hfits field hfield)

/-- A record is read from an object in which every known member holds what its field may hold and
no required field is missing. -/
theorem exists_decode_ofNamed (hnodup : ((known k.names members).map Prod.fst).Nodup)
    (hrequired : ∀ field ∈ k.fields, field.default? = none → field.name ∈ members.map Prod.fst)
    (hshows : ∀ field ∈ k.fields, ∀ d, (field.name, d) ∈ members →
      ∃ v, field.kind.Shows room d v) : ∃ r, k.decode room (.ofNamed members) = some r := by
  -- Every field is read on its own, from the one member with its name or as its default.
  have hread : ∀ field ∈ k.fields,
      ∃ v, field.read room (fun name => (known k.names members).lookup name) = some v := by
    intro field hfield
    unfold Field.read
    split
    next habsent =>
      have hname := (lookup_known_eq_none_iff (mem_names hfield)).mp habsent
      exact Option.ne_none_iff_exists'.mp (mt (hrequired field hfield) hname)
    next d hd =>
      obtain ⟨v, hv⟩ :=
        hshows field hfield d ((lookup_known_eq_some_iff hnodup (mem_names hfield)).mp hd)
      exact ⟨v, FieldKind.read_eq_some_iff.mpr hv⟩
  obtain ⟨r, hr⟩ := exists_of_forall_read hread
  exact ⟨r, decode_eq_some_iff.mpr ⟨_, by rw [fields?_ofNamed, if_pos hnodup], hr⟩⟩

theorem name_of_optionalText (hfield : field ∈ k.fields) (h : field.kind = .optionalText) :
    field.name = "provider_name" := by
  revert field
  cases k <;> simp [fields]

theorem decode_ofNamed_of_null (hname : name ∈ k.names) (hne : name ≠ "provider_name")
    (h : (name, .null) ∈ members) : k.decode room (.ofNamed members) = none := by
  refine Option.eq_none_iff_forall_ne_some.mpr fun r hr => ?_
  obtain ⟨field, hfield, rfl⟩ := List.mem_map.mp hname
  have hshows := (fits_of_decode_ofNamed hr hfield).1 .null h
  exact hne (name_of_optionalText hfield (FieldKind.eq_optionalText_of_shows_null hshows))

end Kind

/-- A number is taken for an integer if it has neither point nor exponent and its value fits, unless
a minus sign stands before a zero. -/
theorem shows_number_iff {room : Nat} {t : Json.NumberText} {n : Int64} :
    FieldKind.integer.Shows room (.number t.toNumber?) n ↔
      t.IsWhole ∧ Json.Signed t.negative (Numeral.valueOf 10 t.whole) n.toInt := by
  rw [FieldKind.shows_integer_iff, Json.Number.ofInt64, Json.NumberText.toNumber?_eq_integer_iff]

/-- The known members of an object alone decide whether and how it is read as a record. -/
theorem known_members_decide (k : Kind) (room : Nat) (members : List (String × Document)) :
    ((∀ name ∈ k.names, (members.map Prod.fst).count name ≤ 1) →
      ((∃ r, k.decode room (.ofNamed members) = some r) ↔ ∀ field ∈ k.fields,
        (field.default? = none → field.name ∈ members.map Prod.fst) ∧
          ∀ d, (field.name, d) ∈ members → ∃ v, field.kind.Shows room d v)) ∧
      (∀ r, k.decode room (.ofNamed members) = some r → ∀ field ∈ k.fields,
        (∀ d, (field.name, d) ∈ members → field.kind.Shows room d (field.get r)) ∧
          (field.name ∉ members.map Prod.fst → field.default? = some (field.get r))) ∧
      (∀ members', (known k.names members).Perm (known k.names members') →
        k.decode room (.ofNamed members) = k.decode room (.ofNamed members')) ∧
      (∀ name ∈ k.names, 1 < (members.map Prod.fst).count name →
        k.decode room (.ofNamed members) = none) ∧
      (∀ name ∈ k.names, name ≠ "provider_name" → (name, .null) ∈ members →
        k.decode room (.ofNamed members) = none) ∧
      ∀ (t : Json.NumberText) (n : Int64), FieldKind.integer.Shows room (.number t.toNumber?) n ↔
        t.IsWhole ∧ Json.Signed t.negative (Numeral.valueOf 10 t.whole) n.toInt := by
  refine ⟨fun hsingle => ⟨?_, fun h => ?_⟩, fun r hr field hfield =>
    Kind.fits_of_decode_ofNamed hr hfield, fun members' h =>
    Kind.decode_congr (Kind.fields?_ofNamed_perm h), fun name hname =>
    Kind.decode_ofNamed_of_repeated hname, fun name hname hne =>
    Kind.decode_ofNamed_of_null hname hne, fun t n => shows_number_iff⟩
  · rintro ⟨r, hr⟩ field hfield
    obtain ⟨hpresent, habsent⟩ := Kind.fits_of_decode_ofNamed hr hfield
    refine ⟨fun hrequired => ?_, fun d hd => ⟨_, hpresent d hd⟩⟩
    by_contra hname
    exact nomatch hrequired.symm.trans (habsent hname)
  · exact Kind.exists_decode_ofNamed (nodup_known_iff.mpr hsingle)
      (fun field hfield => (h field hfield).1) fun field hfield => (h field hfield).2

/-- The members of a subscription out of order, among unknown ones of which one is repeated. -/
def shuffledMembers : List (String × Document) :=
  [("x", .number none), ("enabled", .bool false), ("device_key", .string (some "k")),
    ("service_id", .number (some (.ofInt64 1))), ("x", .null),
    ("provider_type", .string (some "gcm")), ("id", .number (some (.ofInt64 (-7)))),
    ("alias", .string (some "u"))]

theorem known_members_decide_of_shuffled :
    (∀ name ∈ Kind.subscription.names, (shuffledMembers.map Prod.fst).count name ≤ 1) ∧
      (known Kind.subscription.names shuffledMembers).Perm
        (known Kind.subscription.names shuffledMembers.reverse) ∧
      ∃ r, Kind.subscription.decode 0 (.ofNamed shuffledMembers.reverse) = some r ∧
        r.providerName = none ∧ r.enabled = false := by
  have hsingle : ∀ name ∈ Kind.subscription.names,
      (shuffledMembers.map Prod.fst).count name ≤ 1 := by
    decide
  have hperm : (known Kind.subscription.names shuffledMembers).Perm
      (known Kind.subscription.names shuffledMembers.reverse) := by
    rw [known, known, List.filter_reverse]
    exact (List.reverse_perm _).symm
  obtain ⟨hiff, hfields, hcongr, -⟩ := known_members_decide .subscription 0 shuffledMembers
  have hholds : ∀ field ∈ Kind.subscription.fields,
      (field.default? = none → field.name ∈ shuffledMembers.map Prod.fst) ∧
        ∀ d, (field.name, d) ∈ shuffledMembers → ∃ v, field.kind.Shows 0 d v := by
    simp [Kind.fields, shuffledMembers, -Bool.exists_bool]
    exact ⟨⟨_, .integer _⟩, ⟨_, .text _⟩, ⟨_, .integer _⟩, ⟨_, .text _⟩, ⟨_, .text _⟩, _, .flag _⟩
  obtain ⟨r, hr⟩ := (hiff hsingle).mpr hholds
  have hname := hfields r hr ⟨"provider_name", .optionalText, some none, Subscription.providerName⟩
    (by simp [Kind.fields])
  have henabled := hfields r hr ⟨"enabled", .flag, some true, Subscription.enabled⟩
    (by simp [Kind.fields])
  refine ⟨hsingle, hperm, r, hcongr _ hperm ▸ hr, ?_, ?_⟩
  · exact (Option.some.inj (hname.2 (by decide))).symm
  · have hshows := henabled.1 (.bool false) (by simp [shuffledMembers])
    exact (Option.some.inj (FieldKind.read_eq_some_iff.mpr hshows)).symm

def minusZero : Json.NumberText := ⟨true, [0], [], none⟩

def providerMembers (id : Document) : List (String × Document) :=
  [("id", id), ("service_id", .number (some (.ofInt64 1))), ("name", .string (some "n")),
    ("provider_type", .string (some "t"))]

def requestMembers (v : Document) : List (String × Document) :=
  [("service_alias", .string (some "s")), ("subscription_alias", .string (some "a")),
    ("content", .object [(some "gcm", v)])]

/-- An object can be refused though every required field is there and none is of another type: `-0`
has neither point nor exponent and is no integer, and content may hold an object that begins with
the reserved name and embeds no text, or arrays that nest too deep for a text. -/
theorem well_typed_objects_refused :
    Json.readNumberText ['-', '0'] = some minusZero ∧ minusZero.IsWhole ∧
      Numeral.valueOf 10 minusZero.whole = 0 ∧
      Json.readDocument
          "\x7b\"id\":-0,\"service_id\":1,\"name\":\"n\",\"provider_type\":\"t\"\x7d" =
        some (.ofNamed (providerMembers (.number minusZero.toNumber?))) ∧
      Kind.provider.decode 125 (.ofNamed (providerMembers (.number minusZero.toNumber?))) = none ∧
      Kind.pushRequest.decode 125
        (.ofNamed (requestMembers (.object [(some Document.embeddedName, .null)]))) = none ∧
      Kind.pushRequest.decode 125
        (.ofNamed (requestMembers (Nat.repeat (fun d => .array [d]) 126 .null))) = none := by
  refine ⟨by decide, ⟨rfl, rfl⟩, rfl, ?_, ?_, ?_, ?_⟩
  · have htokens : Json.tokens
        "\x7b\"id\":-0,\"service_id\":1,\"name\":\"n\",\"provider_type\":\"t\"\x7d".toList =
        some [.openObject, .string (some "id"), .colon, .number minusZero.toNumber?, .comma,
          .string (some "service_id"), .colon, .number (some (.ofInt64 1)), .comma,
          .string (some "name"), .colon, .string (some "n"), .comma,
          .string (some "provider_type"), .colon, .string (some "t"), .closeObject] := by
      decide +kernel
    rw [Json.readDocument, htokens]
    rfl
  all_goals exact Option.isNone_iff_eq_none.mp (by decide +kernel)

end PushDelivery.Record
