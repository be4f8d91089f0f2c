import PushDelivery.Toml.Reader
import PushDelivery.Transport

/-!
# Settings

What a dispatcher can be configured with: its log, its transports and its subscription store. Each
field has a default of its own.
-/

namespace PushDelivery

structure LoggingSettings where
  level : String := "info"
  withTarget : Bool := true
  withThreadIds : Bool := false
  withFile : Bool := false
  withLineNumber : Bool := false
  deriving DecidableEq

structure TransportSettings where
  maxInFlight : UInt64 := 16
  providerTypes : List String := ["gcm", "apns"]
  deriving DecidableEq

/-- Where subscriptions are kept: in memory unless a database is named. -/
structure StoreSettings where
  postgresUrl : Option String := none
  maxConnections : UInt32 := 5
  deriving DecidableEq

structure Settings where
  logging : LoggingSettings := {}
  transport : TransportSettings := {}
  store : StoreSettings := {}
  deriving DecidableEq

end PushDelivery

/-!
## Settings in TOML

A document gives the settings in three sections. A section is a table, whose entries give fields by
name, or an array, whose items give them in order. A field that its section does not give has its
default. Entries that name no section or field are ignored, except that machine numbers must be able
to represent what they hold; items beyond the last field are not looked at. Only after all fields
are read is it checked that at least one delivery may run at a time.
-/

namespace PushDelivery

/-- Whether the entries of a table that have none of the names can be ignored. -/
def Toml.Table.canIgnoreOthers (names : List String) (entries : Toml.Table) : Bool :=
  entries.all fun (name, v) => names.contains name || v.isRepresentable

structure Section where
  entries : Toml.Table := []

namespace Section

/-- The section with the given fields that a value is, if it is one. A date or time is a section
that gives no field. -/
def ofValue? (fieldNames : List String) : Toml.Value → Option Section
  | .table entries =>
    if Toml.Table.canIgnoreOthers fieldNames entries then some ⟨entries⟩ else none
  | .array items => some ⟨fieldNames.zip items⟩
  | .moment => some {}
  | _ => none

def of? (document : Toml.Table) (name : String) (fieldNames : List String) : Option Section :=
  match document.lookup name with
  | none => some {}
  | some v => ofValue? fieldNames v

/-- The value of a field: its default unless the section gives one, which must then be fit. -/
def read {α : Type} (s : Section) (name : String) (decode : Toml.Value → Option α) (default : α) :
    Option α :=
  match s.entries.lookup name with
  | none => some default
  | some v => decode v

end Section

namespace Toml.Value

def text? : Value → Option String
  | .string s => some s
  | _ => none

def boolean? : Value → Option Bool
  | .boolean b => some b
  | _ => none

/-- The texts of which a value is an array. -/
def texts? : Value → Option (List String)
  | .array items => items.mapM text?
  | _ => none

/-- The natural number below `limit` that a value is. -/
def naturalBelow? (limit : Nat) : Value → Option Nat
  | .integer (some n) => if 0 ≤ n ∧ n < limit then some n.toNat else none
  | _ => none

def word64? (v : Value) : Option UInt64 := (v.naturalBelow? UInt64.size).map UInt64.ofNat

def word32? (v : Value) : Option UInt32 := (v.naturalBelow? UInt32.size).map UInt32.ofNat

end Toml.Value

def LoggingSettings.fieldNames : List String :=
  ["level", "with_target", "with_thread_ids", "with_file", "with_line_number"]

def LoggingSettings.ofSection? (s : Section) : Option LoggingSettings := do
  let default : LoggingSettings := {}
  return {
    level := ← s.read "level" Toml.Value.text? default.level
    withTarget := ← s.read "with_target" Toml.Value.boolean? default.withTarget
    withThreadIds := ← s.read "with_thread_ids" Toml.Value.boolean? default.withThreadIds
    withFile := ← s.read "with_file" Toml.Value.boolean? default.withFile
    withLineNumber := ← s.read "with_line_number" Toml.Value.boolean? default.withLineNumber }

def TransportSettings.fieldNames : List String := ["max_in_flight", "provider_types"]

def TransportSettings.ofSection? (s : Section) : Option TransportSettings := do
  let default : TransportSettings := {}
  return {
    maxInFlight := ← s.read "max_in_flight" Toml.Value.word64? default.maxInFlight
    providerTypes := ← s.read "provider_types" Toml.Value.texts? default.providerTypes }

def StoreSettings.fieldNames : List String := ["postgres_url", "max_connections"]

def StoreSettings.ofSection? (s : Section) : Option StoreSettings := do
  let default : StoreSettings := {}
  return {
    postgresUrl := ← s.read "postgres_url" (fun v => v.text?.map some) default.postgresUrl
    maxConnections := ← s.read "max_connections" Toml.Value.word32? default.maxConnections }

inductive SettingsError where
  /-- The text is no document, a section or field is not of its type or range, or what is ignored
  holds a number that cannot be represented. -/
  | malformed
  /-- No delivery could ever run. -/
  | noConcurrency
  deriving DecidableEq

/-- The message of a settings error, as far as one is fixed. -/
def SettingsError.message? : SettingsError → Option String
  | .malformed => none
  | .noConcurrency => some "transport.max_in_flight must be greater than zero"

namespace Settings

def sectionNames : List String := ["logging", "transport", "store"]

def ofDocument? (document : Toml.Table) : Option Settings :=
  if Toml.Table.canIgnoreOthers sectionNames document then do
    let logging ← Section.of? document "logging" LoggingSettings.fieldNames
    let transport ← Section.of? document "transport" TransportSettings.fieldNames
    let store ← Section.of? document "store" StoreSettings.fieldNames
    return {
      logging := ← LoggingSettings.ofSection? logging
      transport := ← TransportSettings.ofSection? transport
      store := ← StoreSettings.ofSection? store }
  else none

def ofDocument (document : Toml.Table) : Except SettingsError Settings :=
  match ofDocument? document with
  | none => .error .malformed
  | some s => if s.transport.maxInFlight = 0 then .error .noConcurrency else .ok s

/-- The settings that a text gives. -/
def parse (text : String) : Except SettingsError Settings :=
  match Toml.read text with
  | none => .error .malformed
  | some document => ofDocument document

end Settings

end PushDelivery

/-!
## Idle registries

Before any real sender is registered, a dispatcher serves the provider types of its settings with
senders that accept everything and send nothing.
-/

namespace PushDelivery

def TransportSettings.idleRegistry (s : TransportSettings) : Registry Transport :=
  .uniform s.providerTypes (.ofLimit .idle s.maxInFlight)

end PushDelivery
