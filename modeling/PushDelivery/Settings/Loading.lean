import PushDelivery.Settings
import PushDelivery.Text

/-!
# Loading settings

Settings come from a file, and variables of the environment override single ones.
-/

/-!
## File listings

A listing tells which files and directories there are below one directory; each is put into it at a
path. To read, a path is followed through the listing part by part. Every part needs a directory to
start from, even an empty one or a dot. Of what lies outside the listing only the directories above
are known, and no name leads back. A path that is too long leads nowhere.
-/

namespace PushDelivery

inductive FileEntry where
  | directory
  | file (octets : ByteArray)

/-- Files and directories by the names that lead to them. The directories that these names pass
through need no entry of their own. -/
structure FileListing where
  entries : List (List String × FileEntry) := []

/-- A place that a path can reach: inside the listing, or in a directory above it. -/
inductive FilePlace where
  | inside (names : List String)
  | above
  deriving DecidableEq

inductive FileReading where
  /-- Nothing stands there. -/
  | missing
  /-- What stands there is a directory, or is not UTF-8. -/
  | unreadable
  | text (content : String)
  deriving DecidableEq

namespace FileListing

/-- The entries that come about when something is put at a path below the directory with the given
name: the thing itself, and the directories from which the path leads back. -/
def entriesAlong (entry : FileEntry) :
    (names : List String) → (parts : List String) → List (List String × FileEntry)
  | names, [] => [(names, entry)]
  | names, part :: parts =>
    if part = "" ∨ part = "." then entriesAlong entry names parts
    else if part = ".." then (names, .directory) :: entriesAlong entry names.dropLast parts
    else entriesAlong entry (names ++ [part]) parts

/-- The listing with something put at a path, which must lie inside it. What was put last shows. -/
def put (l : FileListing) (path : String) (entry : FileEntry) : FileListing :=
  ⟨entriesAlong entry [] (path.splitOn "/") ++ l.entries⟩

/-- Whether a place is a directory. -/
def isDirectory (l : FileListing) : FilePlace → Bool
  | .above => true
  | .inside [] => true
  | .inside names =>
    l.entries.any fun (names', entry) =>
      if names = names' then entry matches .directory else names.isPrefixOf names'

/-- The place to which one part of a path leads from a directory. -/
def follow (part : String) : FilePlace → Option FilePlace
  | .above => if part = "" ∨ part = "." ∨ part = ".." then some .above else none
  | .inside names =>
    if part = "" ∨ part = "." then some (.inside names)
    else if part = ".." then some (if names = [] then .above else .inside names.dropLast)
    else some (.inside (names ++ [part]))

/-- Follows the parts of a path. -/
def walk (l : FileListing) (place : FilePlace) : List String → Option FilePlace
  | [] => some place
  | part :: parts => if l.isDirectory place then (follow part place).bind (l.walk · parts) else none

/-- The most octets that a path may have in UTF-8. -/
def pathLimit : Nat := 4095

/-- The place that a path names, whether or not something stands there. -/
def place? (l : FileListing) (path : String) : Option FilePlace :=
  if path = "" ∨ pathLimit < path.utf8ByteSize then none
  else l.walk (if path.startsWith "/" then .above else .inside []) (path.splitOn "/")

def read (l : FileListing) (path : String) : FileReading :=
  match l.place? path with
  | none => .missing
  | some place =>
    if l.isDirectory place then .unreadable
    else match place with
      | .above => .unreadable
      | .inside names =>
        match l.entries.lookup names with
        | some (.file octets) => ((String.fromUTF8? octets).map FileReading.text).getD .unreadable
        | _ => .missing

end FileListing

end PushDelivery

/-!
## Overrides

Variables of the environment override single settings. A number that is not positive, does not fit
or is no numeral leaves its setting as it was; every other value takes effect. The list of provider
types is normalised, and an empty database address stands for no database.
-/

namespace PushDelivery

abbrev Environment := String → Option String

/-- The environment whose values are given as octets; one that is not UTF-8 counts as not set. -/
def Environment.ofOctets (values : List (String × ByteArray)) : Environment :=
  fun name => (values.lookup name).bind String.fromUTF8?

def overrideVariable (setting : String) : String := "FLARE_PUSH_DISPATCH_" ++ setting

/-- Reads a number that is positive and below `limit`. -/
def readPositiveBelow (limit : Nat) (text : String) : Option Nat :=
  (Numeral.readBelow limit text).filter (0 < ·)

namespace Settings

/-- The settings with the overrides of an environment. -/
def overriddenBy (s : Settings) (environment : Environment) : Settings :=
  let value? (setting : String) := environment (overrideVariable setting)
  let positive? (setting : String) (limit : Nat) :=
    (value? setting).bind (readPositiveBelow limit)
  { logging := { s.logging with level := (value? "LOG_LEVEL").getD s.logging.level }
    transport := {
      maxInFlight := ((positive? "MAX_IN_FLIGHT" UInt64.size).map UInt64.ofNat).getD
        s.transport.maxInFlight
      providerTypes := ((value? "PROVIDER_TYPES").map Text.commaList).getD
        s.transport.providerTypes }
    store := {
      postgresUrl := ((value? "POSTGRES_URL").map fun url => some url |>.filter (· ≠ "")).getD
        s.store.postgresUrl
      maxConnections := ((positive? "POSTGRES_MAX_CONNECTIONS" UInt32.size).map UInt32.ofNat).getD
        s.store.maxConnections } }

end Settings

end PushDelivery

/-!
## Loading

Settings come from one file: the one that is asked for, or the first of the usual ones that can be
loaded. If there is none, every setting has its default. Overrides apply in every case, so loading
never fails.
-/

namespace PushDelivery

inductive LoadError where
  | missing (path : String)
  | unreadable (path : String)
  | invalid (path : String) (cause : SettingsError)
  deriving DecidableEq

def LoadError.message : LoadError → String
  | .missing path => "configuration path " ++ path ++ " does not exist"
  | .unreadable path => "unable to read config file: " ++ path
  | .invalid path _ => "invalid config format: " ++ path

namespace Settings

/-- The paths that are tried if none is asked for, in this order. -/
def usualPaths : List String := ["config/push-dispatch.toml", "push-dispatch.toml"]

/-- The settings of a file. -/
def ofFile (read : String → FileReading) (path : String) : Except LoadError Settings :=
  match read path with
  | .missing => .error (.missing path)
  | .unreadable => .error (.unreadable path)
  | .text content =>
    match parse content with
    | .ok s => .ok s
    | .error cause => .error (.invalid path cause)

/-- The settings of the first file that can be loaded, or the defaults. -/
def ofFirst (read : String → FileReading) : (paths : List String) → Settings
  | [] => {}
  | path :: paths =>
    match ofFile read path with
    | .ok s => s
    | .error _ => ofFirst read paths

/-- Loads the settings from a path or the usual ones, with the overrides of an environment. -/
def load (read : String → FileReading) (environment : Environment) (path : Option String) :
    Settings :=
  (ofFirst read ((path.map ([·])).getD usualPaths)).overriddenBy environment

end Settings

end PushDelivery
