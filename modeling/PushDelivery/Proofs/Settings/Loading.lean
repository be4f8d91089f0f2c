import Mathlib.Data.UInt
import PushDelivery.Proofs.Text.CommaList
import PushDelivery.Proofs.Text.Numeral
import PushDelivery.Settings.Loading

/-!
# Where settings come from

The files give the settings of the first path that can be loaded, or the defaults. A file that
cannot be loaded is as good as a missing one, whatever it holds. The variables of the environment
then have the last word: where one takes effect, its field does not depend on the files.

Whatever the files and the variables are, the limit of deliveries is not zero. A file that says so
is rejected as a whole, and a variable that does is ignored.
-/

namespace PushDelivery

/-- The number that a variable sets, if it takes effect. -/
def Environment.positive? (environment : Environment) (setting : String) (limit : Nat) :
    Option Nat :=
  (environment (overrideVariable setting)).bind (readPositiveBelow limit)

/-- A field has a value whatever the files hold and whichever of them is asked for. -/
def Environment.Fixes {α : Type} (environment : Environment) (field : Settings → α) (value : α) :
    Prop :=
  ∀ read path, field (Settings.load read environment path) = value

theorem readPositiveBelow_eq_some_iff {limit n : Nat} {text : String} :
    readPositiveBelow limit text = some n ↔
      Numeral.readNatural text = some n ∧ 0 < n ∧ n < limit := by
  simp only [readPositiveBelow, Numeral.readBelow, Option.filter_eq_some_iff, decide_eq_true_eq]
  exact ⟨fun ⟨⟨h, hlt⟩, hpos⟩ => ⟨h, hpos, hlt⟩, fun ⟨h, hpos, hlt⟩ => ⟨⟨h, hlt⟩, hpos⟩⟩

theorem Environment.positive?_eq_some_iff {environment : Environment} {setting : String}
    {limit n : Nat} : environment.positive? setting limit = some n ↔
      ∃ text, environment (overrideVariable setting) = some text ∧
        Numeral.readNatural text = some n ∧ 0 < n ∧ n < limit := by
  simp only [positive?, Option.bind_eq_some_iff, readPositiveBelow_eq_some_iff]

namespace Settings

section Files

variable {read read' : String → FileReading} {path : String} {paths : List String}

theorem ofFile_congr (h : read' path = read path) : ofFile read' path = ofFile read path := by
  simp only [ofFile, h]

/-- The files give what the first path gives that can be loaded. -/
theorem ofFirst_eq_findSome? (read : String → FileReading) (paths : List String) :
    ofFirst read paths = (paths.findSome? fun p => (ofFile read p).toOption).getD {} := by
  induction paths with
  | nil => rfl
  | cons p paths ih =>
    rw [ofFirst, List.findSome?_cons]
    cases ofFile read p with
    | ok s => rfl
    | error cause => exact ih

/-- Why a path cannot be loaded makes no difference. -/
theorem ofFirst_congr
    (h : ∀ p ∈ paths, (ofFile read' p).toOption = (ofFile read p).toOption) :
    ofFirst read' paths = ofFirst read paths := by
  induction paths with
  | nil => rfl
  | cons p paths ih =>
    rw [List.forall_mem_cons] at h
    rw [ofFirst_eq_findSome?, ofFirst_eq_findSome?] at ih ⊢
    rw [List.findSome?_cons, List.findSome?_cons, h.1]
    cases (ofFile read p).toOption with
    | some s => rfl
    | none => exact ih h.2

end Files

/-- The paths that loading tries. -/
def candidates (path : Option String) : List String := (path.map ([·])).getD usualPaths

/-- The settings that the files give, before any variable overrides them. -/
def fromFiles (read : String → FileReading) (path : Option String) : Settings :=
  ofFirst read (candidates path)

variable {read : String → FileReading} {environment : Environment} {path : Option String}
  {s : Settings}

theorem load_eq : load read environment path = (fromFiles read path).overriddenBy environment :=
  rfl

theorem fromFiles_some (read : String → FileReading) (path : String) :
    fromFiles read (some path) = (ofFile read path).toOption.getD {} := by
  rw [fromFiles, ofFirst_eq_findSome?]
  show (List.findSome? _ [path]).getD _ = _
  rw [List.findSome?_cons]
  cases (ofFile read path).toOption <;> rfl

theorem fromFiles_none (read : String → FileReading) : fromFiles read none =
    ((ofFile read "config/push-dispatch.toml").toOption.or
      (ofFile read "push-dispatch.toml").toOption).getD {} := by
  rw [fromFiles, ofFirst_eq_findSome?]
  show (List.findSome? _ ["config/push-dispatch.toml", "push-dispatch.toml"]).getD _ = _
  rw [List.findSome?_cons, List.findSome?_cons]
  cases (ofFile read "config/push-dispatch.toml").toOption with
  | some s => rfl
  | none => cases (ofFile read "push-dispatch.toml").toOption <;> rfl

/-! ## The limit of deliveries -/

theorem maxInFlight_ne_zero_of_parse {text : String} (h : parse text = .ok s) :
    s.transport.maxInFlight ≠ 0 := by
  unfold parse at h
  split at h
  next => cases h
  next document _ =>
    unfold ofDocument at h
    split at h
    next => cases h
    next =>
      split at h
      next => cases h
      next hne =>
        cases h
        exact hne

theorem maxInFlight_ne_zero_of_ofFile {path : String} (h : ofFile read path = .ok s) :
    s.transport.maxInFlight ≠ 0 := by
  unfold ofFile at h
  split at h
  next => cases h
  next => cases h
  next =>
    split at h
    next hparse =>
      cases h
      exact maxInFlight_ne_zero_of_parse hparse
    next => cases h

theorem maxInFlight_fromFiles_ne_zero (read : String → FileReading) (path : Option String) :
    (fromFiles read path).transport.maxInFlight ≠ 0 := by
  rw [fromFiles]
  induction candidates path with
  | nil =>
    rw [ofFirst]
    decide
  | cons p paths ih =>
    rw [ofFirst]
    cases hfile : ofFile read p with
    | ok s => exact maxInFlight_ne_zero_of_ofFile hfile
    | error cause => exact ih

theorem maxInFlight_overriddenBy (s : Settings) (environment : Environment) :
    (s.overriddenBy environment).transport.maxInFlight =
      ((environment.positive? "MAX_IN_FLIGHT" UInt64.size).map UInt64.ofNat).getD
        s.transport.maxInFlight :=
  rfl

theorem maxConnections_overriddenBy (s : Settings) (environment : Environment) :
    (s.overriddenBy environment).store.maxConnections =
      ((environment.positive? "POSTGRES_MAX_CONNECTIONS" UInt32.size).map UInt32.ofNat).getD
        s.store.maxConnections :=
  rfl

theorem maxInFlight_overriddenBy_ne_zero_iff :
    (s.overriddenBy environment).transport.maxInFlight ≠ 0 ↔
      environment.positive? "MAX_IN_FLIGHT" UInt64.size ≠ none ∨
        s.transport.maxInFlight ≠ 0 := by
  rw [maxInFlight_overriddenBy]
  cases h : environment.positive? "MAX_IN_FLIGHT" UInt64.size with
  | none => simp
  | some n =>
    obtain ⟨-, -, -, hpos, hlt⟩ := Environment.positive?_eq_some_iff.mp h
    have hne : UInt64.ofNat n ≠ 0 := by
      rw [Ne, ← UInt64.toNat_inj, UInt64.toNat_ofNat_of_lt' hlt]
      exact Nat.ne_of_gt hpos
    simp [hne]

theorem maxConnections_overriddenBy_ne_zero_iff :
    (s.overriddenBy environment).store.maxConnections ≠ 0 ↔
      environment.positive? "POSTGRES_MAX_CONNECTIONS" UInt32.size ≠ none ∨
        s.store.maxConnections ≠ 0 := by
  rw [maxConnections_overriddenBy]
  cases h : environment.positive? "POSTGRES_MAX_CONNECTIONS" UInt32.size with
  | none => simp
  | some n =>
    obtain ⟨-, -, -, hpos, hlt⟩ := Environment.positive?_eq_some_iff.mp h
    have hne : UInt32.ofNat n ≠ 0 := by
      rw [Ne, ← UInt32.toNat_inj, UInt32.toNat_ofNat_of_lt' hlt]
      exact Nat.ne_of_gt hpos
    simp [hne]

theorem maxInFlight_load_ne_zero (read : String → FileReading) (environment : Environment)
    (path : Option String) : (load read environment path).transport.maxInFlight ≠ 0 :=
  maxInFlight_overriddenBy_ne_zero_iff.mpr (.inr (maxInFlight_fromFiles_ne_zero read path))

/-! ## Variables that take effect -/

/-- Each variable that takes effect decides its field. -/
structure Decided (environment : Environment) : Prop where
  level {text : String} : environment (overrideVariable "LOG_LEVEL") = some text →
    environment.Fixes (·.logging.level) text
  maxInFlight {text : String} {n : Nat} :
    environment (overrideVariable "MAX_IN_FLIGHT") = some text →
      Numeral.readNatural text = some n → 0 < n → n < UInt64.size →
        environment.Fixes (·.transport.maxInFlight.toNat) n
  providerTypes {text : String} : environment (overrideVariable "PROVIDER_TYPES") = some text →
    environment.Fixes (·.transport.providerTypes) (Text.commaList text)
  postgresUrl {text : String} : environment (overrideVariable "POSTGRES_URL") = some text →
    environment.Fixes (·.store.postgresUrl) (if text = "" then none else some text)
  maxConnections {text : String} {n : Nat} :
    environment (overrideVariable "POSTGRES_MAX_CONNECTIONS") = some text →
      Numeral.readNatural text = some n → 0 < n → n < UInt32.size →
        environment.Fixes (·.store.maxConnections.toNat) n

theorem decided (environment : Environment) : Decided environment := by
  constructor
  case level | providerTypes =>
    intro text h read path
    simp only [load, overriddenBy, h, Option.map_some, Option.getD_some]
  case postgresUrl =>
    intro text h read path
    simp only [load, overriddenBy, h, Option.map_some, Option.getD_some]
    by_cases htext : text = "" <;> simp [htext]
  case maxInFlight =>
    intro text n h hn hpos hlt read path
    have heffect := Environment.positive?_eq_some_iff.mpr ⟨text, h, hn, hpos, hlt⟩
    show (load read environment path).transport.maxInFlight.toNat = n
    rw [load_eq, maxInFlight_overriddenBy, heffect]
    exact UInt64.toNat_ofNat_of_lt' hlt
  case maxConnections =>
    intro text n h hn hpos hlt read path
    have heffect := Environment.positive?_eq_some_iff.mpr ⟨text, h, hn, hpos, hlt⟩
    show (load read environment path).store.maxConnections.toNat = n
    rw [load_eq, maxConnections_overriddenBy, heffect]
    exact UInt32.toNat_ofNat_of_lt' hlt

/-! ## Loading as a whole -/

/-- Loading under an environment asks the files in order, lets the variables decide what they set,
and never gives a limit of zero. -/
structure LoadsInOrder (environment : Environment) : Prop where
  asked (read : String → FileReading) (path : String) : load read environment (some path) =
    ((ofFile read path).toOption.getD {}).overriddenBy environment
  /-- A path that is asked for is the only one that matters. -/
  alone {read read' : String → FileReading} {path : String} : read' path = read path →
    load read' environment (some path) = load read environment (some path)
  usual (read : String → FileReading) : load read environment none =
    (((ofFile read "config/push-dispatch.toml").toOption.or
      (ofFile read "push-dispatch.toml").toOption).getD {}).overriddenBy environment
  /-- The second of the usual paths is not looked at if the first can be loaded. -/
  preferred {read read' : String → FileReading} {s : Settings} :
    ofFile read "config/push-dispatch.toml" = .ok s →
      read' "config/push-dispatch.toml" = read "config/push-dispatch.toml" →
        load read' environment none = load read environment none
  /-- What a file holds that cannot be loaded has no effect. -/
  rejected {read read' : String → FileReading} {path : Option String} :
    (∀ p ∈ candidates path, (ofFile read' p).toOption = (ofFile read p).toOption) →
      load read' environment path = load read environment path
  usable (read : String → FileReading) (path : Option String) :
    1 ≤ (load read environment path).transport.maxInFlight.toNat
  decided : Decided environment

theorem loads_in_order (environment : Environment) : LoadsInOrder environment := by
  constructor
  case asked =>
    intro read path
    rw [load_eq, fromFiles_some]
  case alone =>
    intro read read' path h
    rw [load_eq, load_eq, fromFiles_some, fromFiles_some, ofFile_congr h]
  case usual =>
    intro read
    rw [load_eq, fromFiles_none]
  case preferred =>
    intro read read' s hs h
    have hs' := (ofFile_congr h).trans hs
    rw [load_eq, load_eq, fromFiles_none, fromFiles_none, hs, hs']
    rfl
  case rejected =>
    intro read read' path h
    rw [load_eq, load_eq, fromFiles, fromFiles, ofFirst_congr h]
  case usable =>
    intro read path
    have hne := maxInFlight_load_ne_zero read environment path
    rw [Nat.one_le_iff_ne_zero]
    exact fun h => hne (UInt64.toNat.inj h)
  case decided => exact decided environment

/-- The first of the usual files has a limit of zero and is passed over, as it would be if it could
not be read. In the environment a limit of zero connections is ignored, while `+8` deliveries and
the empty address have the last word. -/
theorem loads_in_order_of_two_files :
    let read : String → FileReading := fun path =>
      if path = "config/push-dispatch.toml" then
        .text "[transport]\nmax_in_flight = 0\nprovider_types = []\n"
      else if path = "push-dispatch.toml" then
        .text "[logging]\nlevel = 'debug'\n[store]\npostgres_url = 'x'\n"
      else .missing
    let unreadable : String → FileReading := fun path =>
      if path = "config/push-dispatch.toml" then .unreadable else read path
    let environment : Environment := fun name =>
      if name = "FLARE_PUSH_DISPATCH_MAX_IN_FLIGHT" then some "+8"
      else if name = "FLARE_PUSH_DISPATCH_POSTGRES_MAX_CONNECTIONS" then some "0"
      else if name = "FLARE_PUSH_DISPATCH_POSTGRES_URL" then some ""
      else none
    load read environment none =
        { logging := { level := "debug" }, transport := { maxInFlight := 8 } } ∧
      load unreadable environment none = load read environment none ∧
      environment.Fixes (·.transport.maxInFlight.toNat) 8 ∧
      environment.Fixes (·.store.postgresUrl) none := by
  intro read unreadable environment
  have h := loads_in_order environment
  have hfirst : (ofFile read "config/push-dispatch.toml").toOption = none := by decide +kernel
  have hsecond : (ofFile read "push-dispatch.toml").toOption =
      some { logging := { level := "debug" }, store := { postgresUrl := some "x" } } := by
    decide +kernel
  have hlimit : environment (overrideVariable "MAX_IN_FLIGHT") = some "+8" := rfl
  have haddress : environment (overrideVariable "POSTGRES_URL") = some "" := rfl
  have height : Numeral.readNatural "+8" = some 8 := by decide +kernel
  refine ⟨?_, ?_, h.decided.maxInFlight hlimit height (by decide) (by decide),
    h.decided.postgresUrl haddress⟩
  · rw [h.usual, hfirst, hsecond]
    rfl
  · apply h.rejected
    intro path hpath
    rcases List.mem_pair.mp hpath with rfl | rfl
    · rw [hfirst]
      rfl
    · rw [ofFile_congr]
      rfl

end Settings

end PushDelivery

/-!
## Limits on settings

Whatever variables set is within limits: neither deliveries nor connections are limited to zero, an
empty address stands for none, and provider types are neither empty nor surrounded by blanks. The
defaults are within the same limits. Of what a file gives, only the limit of deliveries is checked.
The rest goes into the settings as it is, unless a variable takes its place.
-/

namespace PushDelivery.Settings

/-- The limits that variables keep to. -/
structure WithinLimits (s : Settings) : Prop where
  maxInFlight : s.transport.maxInFlight ≠ 0
  maxConnections : s.store.maxConnections ≠ 0
  postgresUrl : s.store.postgresUrl ≠ some ""
  providerTypes : ∀ providerType ∈ s.transport.providerTypes, Text.Tidy providerType

variable {environment : Environment} {s : Settings}

theorem postgresUrl_overriddenBy_ne_iff :
    (s.overriddenBy environment).store.postgresUrl ≠ some "" ↔
      environment (overrideVariable "POSTGRES_URL") ≠ none ∨ s.store.postgresUrl ≠ some "" := by
  simp only [overriddenBy]
  cases environment (overrideVariable "POSTGRES_URL") with
  | none => simp
  | some url => by_cases hurl : url = "" <;> simp [hurl]

theorem providerTypes_overriddenBy_iff :
    (∀ providerType ∈ (s.overriddenBy environment).transport.providerTypes,
        Text.Tidy providerType) ↔
      environment (overrideVariable "PROVIDER_TYPES") ≠ none ∨
        ∀ providerType ∈ s.transport.providerTypes, Text.Tidy providerType := by
  simp only [overriddenBy]
  cases environment (overrideVariable "PROVIDER_TYPES") with
  | none => simp
  | some text =>
    constructor
    · exact fun _ => .inl (by simp)
    · exact fun _ _ => Text.tidy_of_mem_commaList

theorem withinLimits_default : WithinLimits {} := by
  constructor
  case maxInFlight | maxConnections | postgresUrl => decide
  case providerTypes =>
    intro providerType h
    have hlist : Text.commaList "gcm,apns" = ["gcm", "apns"] := by decide +kernel
    exact Text.tidy_of_mem_commaList (hlist ▸ h)

/-- Variables cannot take settings out of the limits. -/
theorem WithinLimits.overriddenBy (h : WithinLimits s) (environment : Environment) :
    WithinLimits (s.overriddenBy environment) where
  maxInFlight := maxInFlight_overriddenBy_ne_zero_iff.mpr (.inr h.maxInFlight)
  maxConnections := maxConnections_overriddenBy_ne_zero_iff.mpr (.inr h.maxConnections)
  postgresUrl := postgresUrl_overriddenBy_ne_iff.mpr (.inr h.postgresUrl)
  providerTypes := providerTypes_overriddenBy_iff.mpr (.inr h.providerTypes)

/-- Deliveries are never limited to zero. The other limits hold exactly where a variable takes the
place of what the files give or that is within the limit by itself. -/
theorem withinLimits_load_iff (read : String → FileReading) (environment : Environment)
    (path : Option String) :
    (load read environment path).transport.maxInFlight ≠ 0 ∧
      (WithinLimits (load read environment path) ↔
        (environment.positive? "POSTGRES_MAX_CONNECTIONS" UInt32.size ≠ none ∨
          (fromFiles read path).store.maxConnections ≠ 0) ∧
        (environment (overrideVariable "POSTGRES_URL") ≠ none ∨
          (fromFiles read path).store.postgresUrl ≠ some "") ∧
        (environment (overrideVariable "PROVIDER_TYPES") ≠ none ∨
          ∀ providerType ∈ (fromFiles read path).transport.providerTypes,
            Text.Tidy providerType)) := by
  have hlimit := maxInFlight_load_ne_zero read environment path
  rw [← maxConnections_overriddenBy_ne_zero_iff, ← postgresUrl_overriddenBy_ne_iff,
    ← providerTypes_overriddenBy_iff]
  refine ⟨hlimit, fun h => ⟨h.maxConnections, h.postgresUrl, h.providerTypes⟩, ?_⟩
  intro ⟨hconnections, hurl, htypes⟩
  exact ⟨hlimit, hconnections, hurl, htypes⟩

/-- A file can allow no connections and name an empty address. -/
theorem not_withinLimits_of_file :
    let read : String → FileReading := fun path =>
      if path = "push-dispatch.toml" then .text "[store]\npostgres_url = ''\nmax_connections = 0\n"
      else .missing
    load read (fun _ => none) none = { store := { postgresUrl := some "", maxConnections := 0 } } ∧
      ¬ WithinLimits (load read (fun _ => none) none) := by
  intro read
  have hfile : (ofFile read "push-dispatch.toml").toOption =
      some { store := { postgresUrl := some "", maxConnections := 0 } } := by decide +kernel
  have hload : load read (fun _ => none) none =
      { store := { postgresUrl := some "", maxConnections := 0 } } := by
    rw [load_eq, fromFiles_none, hfile]
    rfl
  refine ⟨hload, fun h => ?_⟩
  have hne := h.maxConnections
  rw [hload] at hne
  exact hne rfl

end PushDelivery.Settings
