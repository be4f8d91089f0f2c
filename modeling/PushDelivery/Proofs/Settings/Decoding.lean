import Mathlib.Logic.Relation
import PushDelivery.Settings

/-!
# What a document sets

Nine fields can be set, each by one key of one section. The settings that a document gives have the
value under the key of each field that it sets and the default of each other one; there are none if
some value is not of its field's kind. All that a document holds under other names is passed over,
as long as machine numbers can represent it. So documents that differ only in such entries, or in
the order of entries, give the same settings or the same error.
-/

namespace PushDelivery

open Toml (Table)

/-! ## Values -/

inductive SettingKind where
  | text
  | optionalText
  | flag
  | texts
  | word64
  | word32

namespace SettingKind

@[reducible] def Carrier : SettingKind → Type
  | text => String
  | optionalText => Option String
  | flag => Bool
  | texts => List String
  | word64 => UInt64
  | word32 => UInt32

/-- A value in a document stands for a value of a kind. -/
inductive Shows : (kind : SettingKind) → Toml.Value → kind.Carrier → Prop
  | text (s : String) : Shows text (.string s) s
  | optionalText (s : String) : Shows optionalText (.string s) (some s)
  | flag (b : Bool) : Shows flag (.boolean b) b
  | texts (ss : List String) : Shows texts (.array (ss.map .string)) ss
  | word64 (n : UInt64) : Shows word64 (.integer (some n.toNat)) n
  | word32 (n : UInt32) : Shows word32 (.integer (some n.toNat)) n

def decode : (kind : SettingKind) → Toml.Value → Option kind.Carrier
  | text => Toml.Value.text?
  | optionalText => fun v => v.text?.map some
  | flag => Toml.Value.boolean?
  | texts => Toml.Value.texts?
  | word64 => Toml.Value.word64?
  | word32 => Toml.Value.word32?

/-- A field has the value that it is given, or its default if it is given none. -/
inductive Fills (kind : SettingKind) (default : kind.Carrier) :
    Option Toml.Value → kind.Carrier → Prop
  | absent : Fills kind default none default
  | given {v : Toml.Value} {a : kind.Carrier} : kind.Shows v a → Fills kind default (some v) a

variable {kind : SettingKind} {v : Toml.Value} {a default : kind.Carrier} {s : Section}
  {name : String}

theorem fills_iff {given : Option Toml.Value} : kind.Fills default given a ↔
    given = none ∧ a = default ∨ ∃ v, given = some v ∧ kind.Shows v a := by
  constructor
  · rintro (_ | h)
    · exact .inl ⟨rfl, rfl⟩
    · exact .inr ⟨_, rfl, h⟩
  · rintro (⟨rfl, rfl⟩ | ⟨v, rfl, h⟩)
    · exact .absent
    · exact .given h

theorem shows_word64_iff {n : UInt64} : word64.Shows v n ↔ v = .integer (some n.toNat) := by
  constructor
  · rintro ⟨⟩
    rfl
  · rintro rfl
    exact .word64 n

theorem text?_eq_some_iff {t : String} : v.text? = some t ↔ v = .string t := by
  cases v <;> simp [Toml.Value.text?]

theorem mapM_text?_eq_some_iff {items : List Toml.Value} {ts : List String} :
    items.mapM Toml.Value.text? = some ts ↔ items = ts.map .string := by
  induction items generalizing ts with
  | nil => simp [eq_comm]
  | cons v items ih =>
    rw [List.mapM_cons]
    simp only [Option.bind_eq_bind, Option.bind_eq_some_iff, Option.pure_def, Option.some.injEq,
      text?_eq_some_iff, ih]
    constructor
    · rintro ⟨t, rfl, ts, rfl, rfl⟩
      rfl
    · cases ts with
      | nil => exact nofun
      | cons t ts =>
        rintro ⟨⟩
        exact ⟨t, rfl, ts, rfl, rfl⟩

theorem naturalBelow?_eq_some_iff {limit n : Nat} :
    v.naturalBelow? limit = some n ↔ v = .integer (some n) ∧ n < limit := by
  unfold Toml.Value.naturalBelow?
  split
  next m =>
    rw [Toml.Value.integer.injEq, Option.some.injEq]
    split
    next h =>
      rw [Option.some.injEq]
      omega
    next h =>
      simp only [reduceCtorEq, false_iff]
      omega
  next hne =>
    simp only [reduceCtorEq, false_iff]
    rintro ⟨rfl, -⟩
    exact hne _ rfl

theorem decode_eq_some_iff : kind.decode v = some a ↔ kind.Shows v a := by
  constructor
  · intro h
    cases kind with
    | text =>
      obtain rfl := text?_eq_some_iff.mp h
      exact .text a
    | optionalText =>
      obtain ⟨t, ht, rfl⟩ := Option.map_eq_some_iff.mp h
      obtain rfl := text?_eq_some_iff.mp ht
      exact .optionalText t
    | flag =>
      cases v <;> cases h
      exact .flag a
    | texts =>
      cases v with
      | array items =>
        obtain rfl := mapM_text?_eq_some_iff.mp h
        exact .texts a
      | _ => cases h
    | word64 =>
      obtain ⟨n, hn, rfl⟩ := Option.map_eq_some_iff.mp h
      obtain ⟨rfl, hlt⟩ := naturalBelow?_eq_some_iff.mp hn
      have hword := Shows.word64 (UInt64.ofNat n)
      rwa [UInt64.toNat_ofNat_of_lt' hlt] at hword
    | word32 =>
      obtain ⟨n, hn, rfl⟩ := Option.map_eq_some_iff.mp h
      obtain ⟨rfl, hlt⟩ := naturalBelow?_eq_some_iff.mp hn
      have hword := Shows.word32 (UInt32.ofNat n)
      rwa [UInt32.toNat_ofNat_of_lt' hlt] at hword
  · rintro (_ | _ | _ | ss | n | n)
    · rfl
    · rfl
    · rfl
    · exact mapM_text?_eq_some_iff.mpr rfl
    · have hn := naturalBelow?_eq_some_iff.mpr ⟨rfl, n.toNat_lt_size⟩
      rw [decode, Toml.Value.word64?, hn, Option.map_some, UInt64.ofNat_toNat]
    · have hn := naturalBelow?_eq_some_iff.mpr ⟨rfl, n.toNat_lt_size⟩
      rw [decode, Toml.Value.word32?, hn, Option.map_some, UInt32.ofNat_toNat]

theorem read_eq_some_iff : s.read name kind.decode default = some a ↔
    kind.Fills default (s.entries.lookup name) a := by
  unfold Section.read
  constructor
  · intro h
    split at h
    next habsent =>
      obtain rfl := Option.some.inj h
      rw [habsent]
      exact .absent
    next v hv =>
      rw [hv]
      exact .given (decode_eq_some_iff.mp h)
  · generalize s.entries.lookup name = given
    rintro (_ | h)
    · rfl
    · exact decode_eq_some_iff.mpr h

end SettingKind

/-! ## Fields -/

namespace Settings

/-- A field: the section and the key that set it, and where it is kept. -/
structure Field where
  place : String
  key : String
  kind : SettingKind
  get : Settings → kind.Carrier

/-- The fields that a document can set. -/
def fields : List Field :=
  [⟨"logging", "level", .text, (·.logging.level)⟩,
    ⟨"logging", "with_target", .flag, (·.logging.withTarget)⟩,
    ⟨"logging", "with_thread_ids", .flag, (·.logging.withThreadIds)⟩,
    ⟨"logging", "with_file", .flag, (·.logging.withFile)⟩,
    ⟨"logging", "with_line_number", .flag, (·.logging.withLineNumber)⟩,
    ⟨"transport", "max_in_flight", .word64, (·.transport.maxInFlight)⟩,
    ⟨"transport", "provider_types", .texts, (·.transport.providerTypes)⟩,
    ⟨"store", "postgres_url", .optionalText, (·.store.postgresUrl)⟩,
    ⟨"store", "max_connections", .word32, (·.store.maxConnections)⟩]

def keys (place : String) : List String := (fields.filter (·.place = place)).map (·.key)

def entriesAt (document : Table) (place : String) : Table :=
  match document.lookup place with
  | some (.table entries) => entries
  | _ => []

/-- What a document has under a key of a section. -/
def valueAt (document : Table) (place key : String) : Option Toml.Value :=
  (entriesAt document place).lookup key

/-- The sections that a document has are tables. -/
def HasTables (document : Table) : Prop :=
  ∀ place ∈ sectionNames, ∀ v, document.lookup place = some v → ∃ entries, v = .table entries

/-- Machine numbers can represent what a table holds under other names than the given ones. -/
def OthersFit (names : List String) (entries : Table) : Prop :=
  ∀ e ∈ entries, e.1 ∉ names → e.2.isRepresentable = true

/-- Machine numbers can represent what a document holds outside its sections, and in its sections
under names that are no keys. -/
def UnknownFit (document : Table) : Prop :=
  OthersFit sectionNames document ∧
    ∀ place ∈ sectionNames, OthersFit (keys place) (entriesAt document place)

/-- Each value under the key of a field is of the field's kind. -/
def WellTyped (document : Table) : Prop :=
  ∀ f ∈ fields, ∀ v, valueAt document f.place f.key = some v → ∃ a, f.kind.Shows v a

/-- The settings have what the document sets and the defaults of all other fields. -/
def Follows (document : Table) (s : Settings) : Prop :=
  ∀ f ∈ fields, f.kind.Fills (f.get {}) (valueAt document f.place f.key) (f.get s)

variable {document document' : Table} {s : Settings}

theorem canIgnoreOthers_eq_true_iff {names : List String} {entries : Table} :
    Toml.Table.canIgnoreOthers names entries = true ↔ OthersFit names entries := by
  simp [Toml.Table.canIgnoreOthers, OthersFit, Decidable.or_iff_not_imp_left]

theorem of?_eq {place : String} (names : List String)
    (h : ∀ v, document.lookup place = some v → ∃ entries, v = .table entries) :
    Section.of? document place names =
      if Toml.Table.canIgnoreOthers names (entriesAt document place)
        then some ⟨entriesAt document place⟩ else none := by
  unfold Section.of? entriesAt
  cases hv : document.lookup place with
  | none => rfl
  | some v =>
    obtain ⟨entries, rfl⟩ := h v hv
    rfl

theorem ofSection?_logging_iff {part : Section} {l : LoggingSettings} :
    LoggingSettings.ofSection? part = some l ↔
      SettingKind.text.Fills "info" (part.entries.lookup "level") l.level ∧
      SettingKind.flag.Fills true (part.entries.lookup "with_target") l.withTarget ∧
      SettingKind.flag.Fills false (part.entries.lookup "with_thread_ids") l.withThreadIds ∧
      SettingKind.flag.Fills false (part.entries.lookup "with_file") l.withFile ∧
      SettingKind.flag.Fills false (part.entries.lookup "with_line_number") l.withLineNumber := by
  simp only [← SettingKind.read_eq_some_iff, LoggingSettings.ofSection?, Option.bind_eq_bind,
    Option.bind_eq_some_iff]
  constructor
  · rintro ⟨_, hlevel, _, htarget, _, hids, _, hfile, _, hline, ⟨⟩⟩
    exact ⟨hlevel, htarget, hids, hfile, hline⟩
  · rintro ⟨hlevel, htarget, hids, hfile, hline⟩
    exact ⟨_, hlevel, _, htarget, _, hids, _, hfile, _, hline, rfl⟩

theorem ofSection?_transport_iff {part : Section} {l : TransportSettings} :
    TransportSettings.ofSection? part = some l ↔
      SettingKind.word64.Fills 16 (part.entries.lookup "max_in_flight") l.maxInFlight ∧
      SettingKind.texts.Fills ["gcm", "apns"] (part.entries.lookup "provider_types")
        l.providerTypes := by
  simp only [← SettingKind.read_eq_some_iff, TransportSettings.ofSection?, Option.bind_eq_bind,
    Option.bind_eq_some_iff]
  constructor
  · rintro ⟨_, hmax, _, htypes, ⟨⟩⟩
    exact ⟨hmax, htypes⟩
  · rintro ⟨hmax, htypes⟩
    exact ⟨_, hmax, _, htypes, rfl⟩

theorem ofSection?_store_iff {part : Section} {l : StoreSettings} :
    StoreSettings.ofSection? part = some l ↔
      SettingKind.optionalText.Fills none (part.entries.lookup "postgres_url") l.postgresUrl ∧
      SettingKind.word32.Fills 5 (part.entries.lookup "max_connections") l.maxConnections := by
  simp only [← SettingKind.read_eq_some_iff, StoreSettings.ofSection?, Option.bind_eq_bind,
    Option.bind_eq_some_iff]
  constructor
  · rintro ⟨_, hurl, _, hmax, ⟨⟩⟩
    exact ⟨hurl, hmax⟩
  · rintro ⟨hurl, hmax⟩
    exact ⟨_, hurl, _, hmax, rfl⟩

/-- A document whose sections are tables is read as the settings that follow it. -/
theorem ofDocument?_eq_some_iff (h : HasTables document) :
    ofDocument? document = some s ↔ UnknownFit document ∧ Follows document s := by
  have hlogging := of?_eq LoggingSettings.fieldNames (h "logging" (by decide))
  have htransport := of?_eq TransportSettings.fieldNames (h "transport" (by decide))
  have hstore := of?_eq StoreSettings.fieldNames (h "store" (by decide))
  have hkeys : keys "logging" = LoggingSettings.fieldNames ∧
      keys "transport" = TransportSettings.fieldNames ∧
      keys "store" = StoreSettings.fieldNames := by
    decide
  have hfollows : Follows document s ↔
      LoggingSettings.ofSection? ⟨entriesAt document "logging"⟩ = some s.logging ∧
      TransportSettings.ofSection? ⟨entriesAt document "transport"⟩ = some s.transport ∧
      StoreSettings.ofSection? ⟨entriesAt document "store"⟩ = some s.store := by
    simp only [ofSection?_logging_iff, ofSection?_transport_iff, ofSection?_store_iff, Follows,
      fields, List.forall_mem_cons, List.not_mem_nil, and_assoc]
    simp [valueAt]
  have hfit : UnknownFit document ↔
      Toml.Table.canIgnoreOthers sectionNames document = true ∧
      Toml.Table.canIgnoreOthers LoggingSettings.fieldNames (entriesAt document "logging") = true ∧
      Toml.Table.canIgnoreOthers TransportSettings.fieldNames
        (entriesAt document "transport") = true ∧
      Toml.Table.canIgnoreOthers StoreSettings.fieldNames (entriesAt document "store") = true := by
    simp [UnknownFit, sectionNames, hkeys, canIgnoreOthers_eq_true_iff]
  rw [hfollows, hfit]
  simp only [ofDocument?, hlogging, htransport, hstore, Option.bind_eq_bind,
    Option.bind_eq_some_iff, Option.ite_none_right_eq_some, Option.some.injEq]
  constructor
  · rintro ⟨hdocument, _, ⟨hfit, rfl⟩, _, ⟨hfit', rfl⟩, _, ⟨hfit'', rfl⟩, _, hl, _, ht, _, hs, ⟨⟩⟩
    exact ⟨⟨hdocument, hfit, hfit', hfit''⟩, hl, ht, hs⟩
  · rintro ⟨⟨hdocument, hfit, hfit', hfit''⟩, hl, ht, hs⟩
    exact ⟨hdocument, _, ⟨hfit, rfl⟩, _, ⟨hfit', rfl⟩, _, ⟨hfit'', rfl⟩, _, hl, _, ht, _, hs, rfl⟩

theorem exists_follows_iff : (∃ s, Follows document s) ↔ WellTyped document := by
  constructor
  · rintro ⟨s, hs⟩ f hf v hv
    have hfills := hs f hf
    rw [hv] at hfills
    cases hfills with
    | given h => exact ⟨_, h⟩
  · intro h
    have hfills : ∀ f ∈ fields,
        ∃ a, f.kind.Fills (f.get {}) (valueAt document f.place f.key) a := by
      intro f hf
      cases hv : valueAt document f.place f.key with
      | none => exact ⟨_, .absent⟩
      | some v =>
        obtain ⟨a, ha⟩ := h f hf v hv
        exact ⟨a, .given ha⟩
    simp only [fields, List.forall_mem_cons] at hfills
    obtain ⟨⟨level, hlevel⟩, ⟨target, htarget⟩, ⟨ids, hids⟩, ⟨file, hfile⟩, ⟨line, hline⟩,
      ⟨limit, hlimit⟩, ⟨types, htypes⟩, ⟨url, hurl⟩, ⟨connections, hconnections⟩, -⟩ := hfills
    refine ⟨⟨⟨level, target, ids, file, line⟩, ⟨limit, types⟩, ⟨url, connections⟩⟩, ?_⟩
    simp only [Follows, fields, List.forall_mem_cons]
    exact ⟨hlevel, htarget, hids, hfile, hline, hlimit, htypes, hurl, hconnections, nofun⟩

/-- Settings have no concurrency only if the document says so. -/
theorem Follows.maxInFlight_eq_zero_iff (h : Follows document s) : s.transport.maxInFlight = 0 ↔
    valueAt document "transport" "max_in_flight" = some (.integer (some 0)) := by
  have hfills := h ⟨"transport", "max_in_flight", .word64, (·.transport.maxInFlight)⟩
    (by simp [fields])
  rcases SettingKind.fills_iff.mp hfills with ⟨hv, hs⟩ | ⟨v, hv, hs⟩
  · rw [hv, show s.transport.maxInFlight = 16 from hs]
    decide
  · rw [hv, SettingKind.shows_word64_iff.mp hs]
    simp [← UInt64.toNat_inj]

theorem ofDocument_eq_ok_iff (h : HasTables document) : ofDocument document = .ok s ↔
    UnknownFit document ∧ Follows document s ∧
      valueAt document "transport" "max_in_flight" ≠ some (.integer (some 0)) := by
  rw [← and_assoc, ← ofDocument?_eq_some_iff h, ofDocument]
  constructor
  · intro hok
    split at hok
    next => cases hok
    next s' hs' =>
      split at hok
      next => cases hok
      next hne =>
        obtain rfl := Except.ok.inj hok
        refine ⟨hs', fun hzero => hne ?_⟩
        exact ((ofDocument?_eq_some_iff h).mp hs').2.maxInFlight_eq_zero_iff.mpr hzero
  · rintro ⟨hs, hne⟩
    rw [hs]
    refine if_neg fun hzero => hne ?_
    exact ((ofDocument?_eq_some_iff h).mp hs).2.maxInFlight_eq_zero_iff.mp hzero

theorem ofDocument_eq_noConcurrency_iff (h : HasTables document) :
    ofDocument document = .error .noConcurrency ↔ UnknownFit document ∧ WellTyped document ∧
      valueAt document "transport" "max_in_flight" = some (.integer (some 0)) := by
  rw [ofDocument]
  constructor
  · intro herror
    split at herror
    next => cases herror
    next s hs =>
      split at herror
      next hzero =>
        obtain ⟨hfit, hfollows⟩ := (ofDocument?_eq_some_iff h).mp hs
        exact ⟨hfit, exists_follows_iff.mp ⟨s, hfollows⟩, hfollows.maxInFlight_eq_zero_iff.mp hzero⟩
      next => cases herror
  · rintro ⟨hfit, htyped, hzero⟩
    obtain ⟨s, hfollows⟩ := exists_follows_iff.mpr htyped
    rw [(ofDocument?_eq_some_iff h).mpr ⟨hfit, hfollows⟩]
    exact if_pos (hfollows.maxInFlight_eq_zero_iff.mpr hzero)

/-! ## What does not matter -/

/-- A change of a table to which some names matter: an entry of another name is put in, or two
neighbouring entries of different names are exchanged. -/
inductive Edit (names : List String) : Table → Table → Prop
  | insert {before after : Table} {name : String} {v : Toml.Value} :
      name ∉ names → v.isRepresentable = true →
      Edit names (before ++ after) (before ++ (name, v) :: after)
  | swap {before after : Table} {e e' : String × Toml.Value} : e.1 ≠ e'.1 →
      Edit names (before ++ e :: e' :: after) (before ++ e' :: e :: after)

/-- A change of a document that does not matter, outside its sections or inside one of them. -/
inductive DocumentEdit : Table → Table → Prop
  | outside {document document' : Table} : Edit sectionNames document document' →
      DocumentEdit document document'
  | inside {before after entries entries' : Table} {place : String} : place ∈ sectionNames →
      Edit (keys place) entries entries' →
      DocumentEdit (before ++ (place, .table entries) :: after)
        (before ++ (place, .table entries') :: after)

/-- Two documents that are read alike. -/
structure Alike (document document' : Table) : Prop where
  hasTables : HasTables document ↔ HasTables document'
  unknownFit : UnknownFit document ↔ UnknownFit document'
  valueAt : ∀ f ∈ fields, valueAt document f.place f.key = valueAt document' f.place f.key

section Edits

variable {names : List String} {entries entries' : Table} {name place : String}

theorem Edit.lookup_eq (h : Edit names entries entries') (hname : name ∈ names) :
    entries.lookup name = entries'.lookup name := by
  cases h with
  | @insert before after other v hother _ =>
    have hne : (name == other) = false := beq_eq_false_iff_ne.mpr fun he => hother (he ▸ hname)
    rw [List.lookup_append, List.lookup_append, List.lookup_cons, hne]
  | @swap before after e e' hne =>
    obtain ⟨⟨first, v⟩, second, v'⟩ := e, e'
    simp only [List.lookup_append, List.lookup_cons]
    by_cases hfirst : name = first
    · have hsecond : name ≠ second := hfirst.symm ▸ hne
      rw [beq_iff_eq.mpr hfirst, beq_eq_false_iff_ne.mpr hsecond]
    · rw [beq_eq_false_iff_ne.mpr hfirst]

theorem Edit.othersFit_iff (h : Edit names entries entries') :
    OthersFit names entries ↔ OthersFit names entries' := by
  cases h with
  | insert _ hv =>
    simp only [OthersFit, List.forall_mem_append, List.forall_mem_cons, hv, implies_true, true_and]
  | swap => simp only [OthersFit, List.forall_mem_append, List.forall_mem_cons, and_left_comm]

/-- A section stays as it is, or is edited itself. -/
theorem DocumentEdit.lookup (h : DocumentEdit document document') (hplace : place ∈ sectionNames) :
    document.lookup place = document'.lookup place ∨ ∃ entries entries',
      Edit (keys place) entries entries' ∧ document.lookup place = some (.table entries) ∧
        document'.lookup place = some (.table entries') := by
  cases h with
  | outside h => exact .inl (h.lookup_eq hplace)
  | @inside before after entries entries' other _ h =>
    simp only [List.lookup_append, List.lookup_cons]
    cases before.lookup place with
    | some v => exact .inl rfl
    | none =>
      by_cases he : place = other
      · subst he
        exact .inr ⟨entries, entries', h, by simp, by simp⟩
      · rw [beq_eq_false_iff_ne.mpr he]
        exact .inl rfl

theorem DocumentEdit.othersFit_iff (h : DocumentEdit document document') :
    OthersFit sectionNames document ↔ OthersFit sectionNames document' := by
  cases h with
  | outside h => exact h.othersFit_iff
  | inside hplace _ =>
    simp only [OthersFit, List.forall_mem_append, List.forall_mem_cons, hplace, not_true,
      false_implies]

theorem DocumentEdit.alike (h : DocumentEdit document document') : Alike document document' := by
  have hentries : ∀ place ∈ sectionNames, entriesAt document place = entriesAt document' place ∨
      Edit (keys place) (entriesAt document place) (entriesAt document' place) := by
    intro place hplace
    unfold entriesAt
    rcases h.lookup hplace with heq | ⟨entries, entries', hedit, hl, hl'⟩
    · rw [heq]
      exact .inl rfl
    · rw [hl, hl']
      exact .inr hedit
  refine ⟨forall₂_congr fun place hplace => ?_, ?_, ?_⟩
  · rcases h.lookup hplace with heq | ⟨entries, entries', hedit, hl, hl'⟩
    · rw [heq]
    · simp [hl, hl']
  · refine and_congr h.othersFit_iff (forall₂_congr fun place hplace => ?_)
    rcases hentries place hplace with heq | hedit
    · rw [heq]
    · exact hedit.othersFit_iff
  · intro f hf
    have hplace : f.place ∈ sectionNames := by
      revert f
      decide
    have hkey : f.key ∈ keys f.place :=
      List.mem_map.mpr ⟨f, List.mem_filter.mpr ⟨hf, decide_eq_true rfl⟩, rfl⟩
    rcases hentries f.place hplace with heq | hedit
    · rw [Settings.valueAt, heq, Settings.valueAt]
    · exact hedit.lookup_eq hkey

theorem alike_of_eqvGen (h : Relation.EqvGen DocumentEdit document document') :
    Alike document document' := by
  induction h with
  | rel _ _ h => exact h.alike
  | refl => exact ⟨Iff.rfl, Iff.rfl, fun _ _ => rfl⟩
  | symm _ _ _ ih =>
    exact ⟨ih.hasTables.symm, ih.unknownFit.symm, fun f hf => (ih.valueAt f hf).symm⟩
  | trans _ _ _ _ _ ih ih' =>
    exact ⟨ih.hasTables.trans ih'.hasTables, ih.unknownFit.trans ih'.unknownFit,
      fun f hf => (ih.valueAt f hf).trans (ih'.valueAt f hf)⟩

end Edits

/-- Documents that are read alike give the same settings or the same error. -/
theorem Alike.ofDocument_eq (h : Alike document document') (htables : HasTables document) :
    ofDocument document' = ofDocument document := by
  have hfollows (s : Settings) : Follows document' s ↔ Follows document s :=
    forall₂_congr fun f hf => by rw [h.valueAt f hf]
  have heq : ofDocument? document' = ofDocument? document := by
    refine Option.ext fun s => ?_
    rw [ofDocument?_eq_some_iff htables, ofDocument?_eq_some_iff (h.hasTables.mp htables),
      h.unknownFit, hfollows]
  rw [ofDocument, ofDocument, heq]

/-- A document whose sections are tables sets its fields one by one. It gives settings exactly if
each value under a key is of the field's kind, the limit on deliveries is not zero, and all that is
unknown can be represented; the settings follow it then. A limit of zero is the error only if
nothing else is wrong. Putting in, taking out and exchanging entries does not matter, as long as the
unknown ones can be represented. -/
theorem fields_set_one_by_one (document : Table) (h : HasTables document) :
    (∀ text, Toml.read text = some document → parse text = ofDocument document) ∧
    ((∃ s, ofDocument document = .ok s) ↔ UnknownFit document ∧ WellTyped document ∧
      valueAt document "transport" "max_in_flight" ≠ some (.integer (some 0))) ∧
    (∀ s, ofDocument document = .ok s → Follows document s) ∧
    (ofDocument document = .error .noConcurrency ↔ UnknownFit document ∧ WellTyped document ∧
      valueAt document "transport" "max_in_flight" = some (.integer (some 0))) ∧
    ∀ document', Relation.EqvGen DocumentEdit document document' →
      ofDocument document' = ofDocument document := by
  refine ⟨fun text hread => by rw [parse, hread], ?_,
    fun s hs => ((ofDocument_eq_ok_iff h).mp hs).2.1, ofDocument_eq_noConcurrency_iff h,
    fun document' hedits => (alike_of_eqvGen hedits).ofDocument_eq h⟩
  simp only [ofDocument_eq_ok_iff h, exists_and_left, exists_and_right, exists_follows_iff]

/-- A level and a limit, and the same in another order among unknown entries. -/
theorem fields_set_one_by_one_of_two :
    let logging : Table := [("level", .string "debug")]
    let transport : Table := [("max_in_flight", .integer (some 4))]
    let document : Table := [("logging", .table logging), ("transport", .table transport)]
    let document' : Table :=
      [("x", .real true), ("transport", .table (("y", .moment) :: transport)),
        ("logging", .table logging)]
    ∃ s, ofDocument document = .ok s ∧ s.logging.level = "debug" ∧ s.transport.maxInFlight = 4 ∧
      s.transport.providerTypes = ["gcm", "apns"] ∧ ofDocument document' = .ok s := by
  intro logging transport document document'
  have htables : HasTables document := by
    simp [HasTables, sectionNames, document, List.lookup_cons]
  have hread : ofDocument? document = some ⟨{ level := "debug" }, { maxInFlight := 4 }, {}⟩ := by
    decide +kernel
  obtain ⟨hfit, hfollows⟩ := (ofDocument?_eq_some_iff htables).mp hread
  have hlimit := mt hfollows.maxInFlight_eq_zero_iff.mpr (by decide)
  let swapped : Table := [("transport", .table transport), ("logging", .table logging)]
  let extended : Table :=
    [("transport", .table (("y", .moment) :: transport)), ("logging", .table logging)]
  have hswap : DocumentEdit document swapped := .outside (@Edit.swap _ [] [] _ _ (by decide))
  have hinside : DocumentEdit swapped extended :=
    @DocumentEdit.inside [] [("logging", .table logging)] transport (("y", .moment) :: transport) _
      (by decide) (@Edit.insert _ [] _ _ _ (by decide) rfl)
  have houtside : DocumentEdit extended document' :=
    .outside (@Edit.insert _ [] _ _ _ (by decide) rfl)
  have hedits : Relation.EqvGen DocumentEdit document document' :=
    .trans _ _ _ (.rel _ _ hswap) (.trans _ _ _ (.rel _ _ hinside) (.rel _ _ houtside))
  obtain ⟨-, hok, hfields, -, hsame⟩ := fields_set_one_by_one document htables
  obtain ⟨s, hs⟩ := hok.mpr ⟨hfit, exists_follows_iff.mp ⟨_, hfollows⟩, hlimit⟩
  have hread' := (ofDocument?_eq_some_iff htables).mpr ⟨hfit, hfields s hs⟩
  obtain rfl := Option.some.inj (hread'.symm.trans hread)
  exact ⟨_, hs, rfl, rfl, rfl, (hsame document' hedits).trans hs⟩

/-- A number that no machine number represents is refused, although no field has its name. -/
theorem unknown_number_refused :
    let text := "x = 340282366920938463463374607431768211456\n"
    (∃ document, Toml.read text = some document ∧ HasTables document ∧
        ∀ f ∈ fields, valueAt document f.place f.key = none) ∧
      (∀ s, parse text ≠ .ok s) ∧ parse "" = .ok {} := by
  intro text
  have hread : ((Toml.read text).any fun document =>
      sectionNames.all fun place => (document.lookup place).isNone) = true := by
    decide +kernel
  have hparse : (parse text).toOption = none ∧ (parse "").toOption = some {} := by
    decide +kernel
  refine ⟨?_, fun s hs => ?_, ?_⟩
  · obtain ⟨document, hdocument⟩ : ∃ document, Toml.read text = some document := by
      cases hdocument : Toml.read text with
      | none => simp [hdocument] at hread
      | some document => exact ⟨document, rfl⟩
    simp only [hdocument, Option.any_some, List.all_eq_true, Option.isNone_iff_eq_none] at hread
    refine ⟨document, hdocument, fun place hplace v hv => ?_, fun f hf => ?_⟩
    · rw [hread place hplace] at hv
      cases hv
    · have hplace : f.place ∈ sectionNames := by
        revert f
        decide
      rw [valueAt, entriesAt, hread f.place hplace, List.lookup_nil]
  · rw [hs] at hparse
    cases hparse.1
  · cases hempty : parse "" with
    | error e => simp [hempty, Except.toOption] at hparse
    | ok s => simpa [hempty, Except.toOption] using hparse.2

end Settings

end PushDelivery
