import PushDelivery.Proofs.Settings.Loading
import PushDelivery.Proofs.Text.CommaList
import PushDelivery.Proofs.Text.Spelling

/-!
# Overriding settings

Five settings can be overridden, each by a variable of its own. `Overridable` names the five, so
that each fact about them is one statement with one reason: an overridden setting has the value that
its variable sets, or else the value that it had. Every text sets a value of the level, the types
and the address; for the two limits a text takes effect if it spells a positive number that fits the
limit's word.

Two overrides therefore come to one, in which the second has the last word wherever it takes effect.
-/

namespace PushDelivery

/-- A setting that a variable can override. -/
inductive Overridable where
  | level
  | maxInFlight
  | providerTypes
  | postgresUrl
  | maxConnections
  deriving DecidableEq

namespace Overridable

def all : List Overridable := [level, maxInFlight, providerTypes, postgresUrl, maxConnections]

def name : Overridable → String
  | .level => "LOG_LEVEL"
  | .maxInFlight => "MAX_IN_FLIGHT"
  | .providerTypes => "PROVIDER_TYPES"
  | .postgresUrl => "POSTGRES_URL"
  | .maxConnections => "POSTGRES_MAX_CONNECTIONS"

def variableName (x : Overridable) : String := overrideVariable x.name

abbrev Value : Overridable → Type
  | .level => String
  | .maxInFlight => UInt64
  | .providerTypes => List String
  | .postgresUrl => Option String
  | .maxConnections => UInt32

/-- What a setting is. -/
def get : (x : Overridable) → Settings → x.Value
  | .level, s => s.logging.level
  | .maxInFlight, s => s.transport.maxInFlight
  | .providerTypes, s => s.transport.providerTypes
  | .postgresUrl, s => s.store.postgresUrl
  | .maxConnections, s => s.store.maxConnections

/-- A text sets a value of a setting. -/
inductive Sets : (x : Overridable) → String → x.Value → Prop
  | level (text : String) : Sets .level text text
  | maxInFlight {text : String} {n : UInt64} : Numeral.SpellsNatural text.toList n.toNat →
      1 ≤ n.toNat → Sets .maxInFlight text n
  | providerTypes (text : String) : Sets .providerTypes text (Text.commaList text)
  | postgresUrl (text : String) : Sets .postgresUrl text (if text = "" then none else some text)
  | maxConnections {text : String} {n : UInt32} : Numeral.SpellsNatural text.toList n.toNat →
      1 ≤ n.toNat → Sets .maxConnections text n

/-- A text takes effect for a setting. -/
def Heeds (x : Overridable) (text : String) : Prop := ∃ v, x.Sets text v

/-- The value that a text sets, if it takes effect. -/
def read? : (x : Overridable) → String → Option x.Value
  | .level, text => some text
  | .maxInFlight, text => (readPositiveBelow UInt64.size text).map UInt64.ofNat
  | .providerTypes, text => some (Text.commaList text)
  | .postgresUrl, text => some (if text = "" then none else some text)
  | .maxConnections, text => (readPositiveBelow UInt32.size text).map UInt32.ofNat

variable {x : Overridable} {s s' : Settings} {environment : Environment} {text : String}

theorem read?_eq_some_iff {v : x.Value} : x.read? text = some v ↔ x.Sets text v := by
  cases x with
  | level | providerTypes | postgresUrl =>
    constructor
    · intro h
      cases h
      constructor
    · intro h
      cases h
      rfl
  | maxInFlight =>
    simp only [read?, Option.map_eq_some_iff, readPositiveBelow_eq_some_iff]
    constructor
    · rintro ⟨n, ⟨hread, hpos, hlt⟩, rfl⟩
      have hn : (UInt64.ofNat n).toNat = n := UInt64.toNat_ofNat_of_lt' hlt
      exact .maxInFlight (by rwa [hn, ← Numeral.readNatural_eq_some_iff]) (by omega)
    · intro h
      cases h with
      | maxInFlight hspells hpos =>
        exact ⟨_, ⟨Numeral.readNatural_eq_some_iff.mpr hspells, hpos, UInt64.toNat_lt_size v⟩,
          UInt64.ofNat_toNat⟩
  | maxConnections =>
    simp only [read?, Option.map_eq_some_iff, readPositiveBelow_eq_some_iff]
    constructor
    · rintro ⟨n, ⟨hread, hpos, hlt⟩, rfl⟩
      have hn : (UInt32.ofNat n).toNat = n := UInt32.toNat_ofNat_of_lt' hlt
      exact .maxConnections (by rwa [hn, ← Numeral.readNatural_eq_some_iff]) (by omega)
    · intro h
      cases h with
      | maxConnections hspells hpos =>
        exact ⟨_, ⟨Numeral.readNatural_eq_some_iff.mpr hspells, hpos, UInt32.toNat_lt_size v⟩,
          UInt32.ofNat_toNat⟩

theorem heeds_iff : x.Heeds text ↔ x.read? text ≠ none := by
  simp only [Heeds, ← read?_eq_some_iff, Option.ne_none_iff_exists']

instance (x : Overridable) (text : String) : Decidable (x.Heeds text) :=
  decidable_of_iff ((x.read? text).isSome = true)
    (by rw [heeds_iff, Option.isSome_iff_ne_none])

/-- An overridden setting has the value that its variable sets, or else the value that it had. -/
theorem get_overriddenBy (x : Overridable) (s : Settings) (environment : Environment) :
    x.get (s.overriddenBy environment) =
      ((environment x.variableName).bind x.read?).getD (x.get s) := by
  unfold variableName name
  cases x with
  | postgresUrl =>
    simp only [get, Settings.overriddenBy]
    cases environment (overrideVariable "POSTGRES_URL") with
    | none => rfl
    | some url => by_cases hurl : url = "" <;> simp [read?, hurl]
  | level | maxInFlight | providerTypes | maxConnections =>
    simp only [get, Settings.overriddenBy]
    generalize environment (overrideVariable _) = value?
    cases value? <;> rfl

theorem get_overriddenBy_of_sets {v : x.Value} (h : environment x.variableName = some text)
    (hv : x.Sets text v) : x.get (s.overriddenBy environment) = v := by
  rw [get_overriddenBy, h, Option.bind_some, read?_eq_some_iff.mpr hv, Option.getD_some]

theorem get_overriddenBy_of_not_heeds
    (h : ∀ text, environment x.variableName = some text → ¬ x.Heeds text) :
    x.get (s.overriddenBy environment) = x.get s := by
  rw [get_overriddenBy]
  cases hvalue : environment x.variableName with
  | none => rfl
  | some text =>
    have hread : x.read? text = none := by
      by_contra hne
      exact h text hvalue (heeds_iff.mpr hne)
    rw [Option.bind_some, hread, Option.getD_none]

/-- Settings that agree in the five and in how the log is written otherwise are the same. -/
theorem ext_of_get (hget : ∀ x : Overridable, x.get s = x.get s')
    (hlogging : s.logging = { s'.logging with level := s.logging.level }) : s = s' := by
  have hlevel : s.logging.level = s'.logging.level := hget .level
  rw [hlevel] at hlogging
  cases s with
  | mk logging transport store =>
    cases s' with
    | mk logging' transport' store' =>
      rw [Settings.mk.injEq]
      refine ⟨hlogging, ?_, ?_⟩
      · cases transport
        cases transport'
        rw [TransportSettings.mk.injEq]
        exact ⟨hget .maxInFlight, hget .providerTypes⟩
      · cases store
        cases store'
        rw [StoreSettings.mk.injEq]
        exact ⟨hget .postgresUrl, hget .maxConnections⟩

theorem name_injective : Function.Injective name := by
  intro x y h
  cases x <;> cases y <;> simp_all [name]

theorem variableName_injective : Function.Injective variableName :=
  fun _ _ h => name_injective ((String.append_right_inj _).mp h)

end Overridable

/-- A text takes effect for the variable of some setting. -/
def TakesEffect (variableName text : String) : Prop :=
  ∃ x ∈ Overridable.all, x.variableName = variableName ∧ x.Heeds text

instance (variableName text : String) : Decidable (TakesEffect variableName text) :=
  inferInstanceAs (Decidable (∃ x ∈ _, _))

/-- The environment in which a second one has the last word wherever it takes effect. -/
def Environment.followedBy (first second : Environment) : Environment := fun name =>
  ((second name).filter fun text => TakesEffect name text).or (first name)

theorem takesEffect_variableName_iff {x : Overridable} {text : String} :
    TakesEffect x.variableName text ↔ x.Heeds text := by
  constructor
  · rintro ⟨y, -, hname, hy⟩
    rwa [← Overridable.variableName_injective hname]
  · intro h
    exact ⟨x, by cases x <;> simp [Overridable.all], rfl, h⟩

/-- A text without effect for a setting might as well not be there. -/
theorem bind_read?_filter (x : Overridable) (value? : Option String) :
    (value?.filter fun text => TakesEffect x.variableName text).bind x.read? =
      value?.bind x.read? := by
  cases value? with
  | none => rfl
  | some text =>
    by_cases h : x.Heeds text
    · rw [Option.filter_some, if_pos (by simpa [takesEffect_variableName_iff] using h)]
    · have hread : x.read? text = none := by simpa [Overridable.heeds_iff] using h
      rw [Option.filter_some, if_neg (by simpa [takesEffect_variableName_iff] using h),
        Option.bind_some, hread, Option.bind_none]

/-- What the two environments set, the second before the first. -/
theorem bind_read?_followedBy (first second : Environment) (x : Overridable) :
    ((first.followedBy second) x.variableName).bind x.read? =
      ((second x.variableName).bind x.read?).or ((first x.variableName).bind x.read?) := by
  rw [Environment.followedBy, ← bind_read?_filter x (second x.variableName)]
  cases hvalue : (second x.variableName).filter fun text => TakesEffect x.variableName text with
  | none => rfl
  | some text =>
    -- A text that is left takes effect, so the first environment is not asked.
    have heffect : x.Heeds text := by
      have := (Option.filter_eq_some_iff.mp hvalue).2
      simpa [takesEffect_variableName_iff] using this
    obtain ⟨v, hv⟩ := heffect
    simp [Overridable.read?_eq_some_iff.mpr hv]

namespace Settings

theorem overriddenBy_followedBy (s : Settings) (first second : Environment) :
    (s.overriddenBy first).overriddenBy second = s.overriddenBy (first.followedBy second) := by
  refine Overridable.ext_of_get (fun x => ?_) rfl
  simp only [Overridable.get_overriddenBy, bind_read?_followedBy, Option.getD_or]

theorem overriddenBy_idem (s : Settings) (environment : Environment) :
    (s.overriddenBy environment).overriddenBy environment = s.overriddenBy environment := by
  refine Overridable.ext_of_get (fun x => ?_) rfl
  simp only [Overridable.get_overriddenBy]
  cases (environment x.variableName).bind x.read? <;> rfl

/-- Overriding twice is overriding once, by what takes effect of the second environment and by the
first one elsewhere. A text that takes effect sets its own setting and one that does not leaves it
alone; nothing else depends on it. -/
theorem overrides_compose (s : Settings) (first second : Environment) :
    (s.overriddenBy first).overriddenBy second = s.overriddenBy (first.followedBy second) ∧
    (s.overriddenBy first).overriddenBy first = s.overriddenBy first ∧
    (∀ (x : Overridable) (text : String) (v : x.Value), first x.variableName = some text →
      x.Sets text v → x.get (s.overriddenBy first) = v) ∧
    (∀ x : Overridable, (∀ text, first x.variableName = some text → ¬ x.Heeds text) →
      x.get (s.overriddenBy first) = x.get s) ∧
    (s.overriddenBy first).logging =
      { s.logging with level := (s.overriddenBy first).logging.level } ∧
    (∀ x : Overridable, (∀ name, name ≠ x.variableName → second name = first name) →
      ∀ y : Overridable, y ≠ x →
        y.get (s.overriddenBy second) = y.get (s.overriddenBy first)) := by
  refine ⟨s.overriddenBy_followedBy first second, s.overriddenBy_idem first, ?_, ?_, rfl, ?_⟩
  · exact fun x text v => Overridable.get_overriddenBy_of_sets
  · exact fun x => Overridable.get_overriddenBy_of_not_heeds
  · intro x hsame y hne
    have hname : y.variableName ≠ x.variableName :=
      fun h => hne (Overridable.variableName_injective h)
    rw [Overridable.get_overriddenBy, Overridable.get_overriddenBy, hsame _ hname]

/-- A number that does not fit leaves what an earlier override has set; zeros before a number do no
harm. -/
theorem overrides_compose_of_overflow :
    let first : Environment := fun name =>
      if name = "FLARE_PUSH_DISPATCH_MAX_IN_FLIGHT" then some "+008" else none
    let second : Environment := fun name =>
      if name = "FLARE_PUSH_DISPATCH_MAX_IN_FLIGHT" then some "18446744073709551616"
      else if name = "FLARE_PUSH_DISPATCH_LOG_LEVEL" then some "debug"
      else none
    let s : Settings := { logging := { withFile := true } }
    (s.overriddenBy first).overriddenBy second = s.overriddenBy (first.followedBy second) ∧
      (s.overriddenBy first).transport.maxInFlight = 8 ∧
      (s.overriddenBy second).transport.maxInFlight = 16 ∧
      (s.overriddenBy (fun _ => none)).store = (s.overriddenBy first).store := by
  intro first second s
  obtain ⟨hcompose, -, hsets, -⟩ := overrides_compose s first second
  obtain ⟨-, -, -, hignored, -⟩ := overrides_compose s second first
  obtain ⟨-, -, -, -, -, hown⟩ := overrides_compose s first fun _ => none
  have height : Overridable.Sets .maxInFlight "+008" 8 :=
    Overridable.read?_eq_some_iff.mp (by decide +kernel)
  have hsame : ∀ name, name ≠ Overridable.variableName .maxInFlight → none = first name :=
    fun _ hname => (if_neg hname).symm
  refine ⟨hcompose, hsets .maxInFlight _ _ rfl height, hignored .maxInFlight fun text ht => ?_, ?_⟩
  · have ht' : text = "18446744073709551616" := (Option.some.inj ht).symm
    rw [ht', Overridable.heeds_iff]
    decide +kernel
  · rw [StoreSettings.mk.injEq]
    exact ⟨hown .maxInFlight hsame .postgresUrl (by decide),
      hown .maxInFlight hsame .maxConnections (by decide)⟩

end Settings

end PushDelivery

/-!
## The list of provider types

The provider types that a variable sets are the entries that its text writes. Reading normalises the
list and loses nothing else: an entry is there as often and in the place as it is written, the list
is read again from its entries, and however a list is written, it is the one that is read.
-/

namespace PushDelivery.Settings

open Text

def typesVariable : String := overrideVariable "PROVIDER_TYPES"

variable {s : Settings} {environment : Environment} {text : String}

theorem providerTypes_overriddenBy (h : environment typesVariable = some text) :
    (s.overriddenBy environment).transport.providerTypes = commaList text :=
  Overridable.get_overriddenBy_of_sets (x := .providerTypes) h (.providerTypes text)

/-- Provider types are read from a text as the entries that it writes: clean, in their order, each
entry of every segment that is not blank. Written again in any way, they are read again. -/
theorem provider_types_faithful (s : Settings) (environment : Environment) (text : String)
    (h : environment typesVariable = some text) :
    (∀ t ∈ (s.overriddenBy environment).transport.providerTypes, IsEntry t) ∧
    Writes (text.toList.splitOn ',') (s.overriddenBy environment).transport.providerTypes ∧
    (∀ t, IsEntry t → (t ∈ (s.overriddenBy environment).transport.providerTypes ↔
      ∃ segment ∈ text.toList.splitOn ',', Pads t.toList segment)) ∧
    (∀ again : Environment, again typesVariable =
        some (",".intercalate (s.overriddenBy environment).transport.providerTypes) →
      ((s.overriddenBy environment).overriddenBy again).transport.providerTypes =
        (s.overriddenBy environment).transport.providerTypes) ∧
    ∀ (entries : List String) (segments : List (List Char)), (∀ t ∈ entries, IsEntry t) →
      Writes segments entries → ∀ other : Environment,
        other typesVariable = some (String.ofList ([','].intercalate segments)) →
          (s.overriddenBy other).transport.providerTypes = entries := by
  have hwrites : ∀ (s : Settings) (entries : List String) (segments : List (List Char)),
      (∀ t ∈ entries, IsEntry t) → Writes segments entries → ∀ other : Environment,
        other typesVariable = some (String.ofList ([','].intercalate segments)) →
          (s.overriddenBy other).transport.providerTypes = entries := by
    intro s entries segments hentries hwrites other hother
    rw [providerTypes_overriddenBy hother]
    exact commaList_of_writes String.toList_ofList hwrites hentries
  rw [providerTypes_overriddenBy h]
  have hentries : ∀ t ∈ commaList text, IsEntry t := fun t => isEntry_of_mem_commaList
  refine ⟨hentries, ?_, fun t ht => ?_, fun again hagain => ?_, hwrites s⟩
  · rw [commaList_eq]
    exact writes_entriesOf _
  · rw [commaList_eq, mem_entriesOf_iff ht.nonempty]
    simp only [trim_eq_iff, and_iff_right ht.trimmed]
  · refine hwrites _ _ ((commaList text).map String.toList) hentries (.of_entries _) again ?_
    have hcomma : ",".toList = [','] := by decide
    rw [hagain, Option.some.injEq, ← String.toList_inj, String.toList_intercalate, hcomma,
      String.toList_ofList]

/-- Blanks outside ASCII are trimmed too, and segments of them are no entries. -/
theorem provider_types_faithful_of_wide_blanks :
    let environment : Environment := fun name =>
      if name = typesVariable then some " gcm,\u3000,web push\u2003,,gcm" else none
    (({} : Settings).overriddenBy environment).transport.providerTypes =
        ["gcm", "web push", "gcm"] ∧
      "push" ∉ (({} : Settings).overriddenBy environment).transport.providerTypes := by
  intro environment
  have htext : environment typesVariable = some " gcm,\u3000,web push\u2003,,gcm" := if_pos rfl
  obtain ⟨-, -, -, -, hread⟩ := provider_types_faithful {} environment _ htext
  have hentries : ∀ t ∈ ["gcm", "web push", "gcm"], IsEntry t := by decide
  have hspace : AllBlank [' '] := by decide
  have hwide : AllBlank ['\u3000'] := by decide
  have hquad : AllBlank ['\u2003'] := by decide
  have hwrites : Writes [[' '] ++ "gcm".toList ++ [], ['\u3000'],
      [] ++ "web push".toList ++ ['\u2003'], [], "gcm".toList] ["gcm", "web push", "gcm"] :=
    .entry (.around hspace nofun) <| .blank hwide <| .entry (.around nofun hquad) <|
      .blank nofun <| .entry (.refl _) .nil
  have htypes := hread _ _ hentries hwrites environment (htext.trans (by decide))
  exact ⟨htypes, by simp [htypes]⟩

end PushDelivery.Settings
