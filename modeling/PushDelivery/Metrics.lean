import Std.Data.ExtTreeMap
import PushDelivery.Binary64
import PushDelivery.Model

/-!
# Metrics

What is counted and measured, how a series is found by its label values, and the text in which all
of it is published.
-/

/-!
## Digests of texts

A digest has 64 bits and takes up the octets of a text one by one: exclusive or with the octet, then
multiplication by a fixed odd number. Equal texts have equal digests; the converse does not hold in
general.
-/

namespace PushDelivery

abbrev Digest := UInt64

namespace Digest

def empty : Digest := 0xcbf29ce484222325

/-- A digest that takes up one more octet. -/
def absorb (d : Digest) (octet : UInt8) : Digest := (d ^^^ octet.toUInt64) * 0x100000001b3

def ofString (s : String) : Digest := s.toUTF8.data.toList.foldl absorb empty

end Digest

end PushDelivery

/-!
## Families of series

What is counted or measured is kept apart by the values of its labels, one series for each. A family
tells label values apart by their digest only, in which they stand one after another with nothing in
between: label values with one digest share a series, and the first of them name it.
-/

namespace PushDelivery.Metrics

/-- What was observed under some label values. -/
structure Series (α : Type) where
  labels : List String
  value : α

/-- Series by the digest of the label values that they are for. -/
abbrev Family (α : Type) := Std.ExtTreeMap Digest (Series α)

namespace Family

/-- The digest of label values. -/
def digest (labels : List String) : Digest := Digest.ofString (String.join labels)

/-- The family after an observation under some label values, given what a series without any
observation holds and how it changes. -/
def observe (family : Family α) (labels : List String) (start : α) (change : α → α) : Family α :=
  family.alter (digest labels) fun series =>
    match series with
    | none => some ⟨labels, change start⟩
    | some series => some { series with value := change series.value }

/-- The family after counting one more under some label values. -/
def increment (family : Family Nat) (labels : List String) : Family Nat :=
  family.observe labels 0 (· + 1)

/-- What the series for some label values holds, if there is one. -/
def value? (family : Family α) (labels : List String) : Option α :=
  family[digest labels]?.map Series.value

end Family

end PushDelivery.Metrics

/-!
## The three families

Three families are kept: results by provider type and outcome, key updates by outcome, and the
durations of dispatches by provider type.
-/

namespace PushDelivery

structure Metrics where
  /-- Results, by provider type and outcome. -/
  results : Metrics.Family Nat := ∅
  /-- Updates of device keys, by outcome. -/
  keyUpdates : Metrics.Family Nat := ∅
  /-- The durations of dispatches in seconds, by provider type, in the order of observation. -/
  durations : Metrics.Family (List Binary64) := ∅

namespace Metrics

/-- Counts a result. -/
def observeResult (m : Metrics) (r : DeliveryResult) : Metrics :=
  { m with results := m.results.increment [r.provider.providerType, r.outcome] }

/-- Counts an update of a device key. -/
def observeKeyUpdate (m : Metrics) (succeeded : Bool) : Metrics :=
  { m with keyUpdates := m.keyUpdates.increment [if succeeded then "ok" else "failed"] }

/-- Records the duration of a dispatch. -/
def observeDuration (m : Metrics) (providerType : String) (seconds : Binary64) : Metrics :=
  { m with durations := m.durations.observe [providerType] [] (· ++ [seconds]) }

/-- The count of results for a provider type and an outcome. -/
def resultCount (m : Metrics) (providerType outcome : String) : Nat :=
  (m.results.value? [providerType, outcome]).getD 0

def keyUpdateCount (m : Metrics) (outcome : String) : Nat := (m.keyUpdates.value? [outcome]).getD 0

/-- The count of dispatches that were measured for a provider type. -/
def dispatchCount (m : Metrics) (providerType : String) : Nat :=
  ((m.durations.value? [providerType]).getD []).length

end Metrics

end PushDelivery

/-!
## The exposition text

Metrics are published as families of samples. A family begins with its help and its type; its
samples follow in the order of their label values, labels standing in the order of their names. A
family without samples is left out. A histogram shows for each bound how many observations are at
most that bound, then their sum and their number.
-/

namespace PushDelivery.Metrics

/-- A label value as it stands in quotes: the reverse solidus, the quote and the line feed are
escaped. -/
def escapeLabelChar (c : Char) : List Char :=
  if c = '\\' then ['\\', '\\']
  else if c = '\x22' then ['\\', '\x22']
  else if c = '\n' then ['\\', 'n']
  else [c]

def labelText (label : String × String) : String :=
  label.1 ++ "=\x22" ++ String.ofList (label.2.toList.flatMap escapeLabelChar) ++ "\x22"

def sampleLine (name : String) (labels : List (String × String)) (value : String) : String :=
  name ++ "\x7b" ++ ",".intercalate (labels.map labelText) ++ "\x7d " ++ value ++ "\n"

/-- What the series of a family hold with their labels, given the names of these. -/
def labelled (names : List String) (family : Family α) : List (List (String × String) × α) :=
  let rows := family.values.map fun series =>
    ((names.zip series.labels).mergeSort fun a b => (compare a.1 b.1).isLE, series.value)
  rows.mergeSort fun a b => (compare (a.1.map Prod.snd) (b.1.map Prod.snd)).isLE

/-- A family with its header, or nothing if it has no samples. -/
def familyText (name help kind : String) (samples : List String) : String :=
  if samples.isEmpty then ""
  else "# HELP " ++ name ++ " " ++ help ++ "\n# TYPE " ++ name ++ " " ++ kind ++ "\n"
    ++ String.join samples

/-- The upper bounds of the histogram, with the text by which a sample names them. -/
def bounds : List (Binary64 × String) :=
  [(.ofRatio false 1 100, "0.01"), (.ofRatio false 1 20, "0.05"), (.ofRatio false 1 10, "0.1"),
    (.ofRatio false 1 2, "0.5"), (.ofNat 1, "1"), (.ofNat 5, "5"), (.ofNat 30, "30")]

/-- The sum of observations, added up in their order. -/
def sumOf (observations : List Binary64) : Binary64 :=
  observations.foldl Binary64.add (Binary64.ofNat 0)

def histogramLines (name : String) (labels : List (String × String))
    (observations : List Binary64) : List String :=
  let bucket (bound : String) (n : Nat) :=
    sampleLine (name ++ "_bucket") (labels ++ [("le", bound)]) (Numeral.decimal n)
  let buckets := bounds.map fun (bound, text) =>
    bucket text (observations.countP (Binary64.le · bound))
  buckets ++
    [bucket "+Inf" observations.length,
      sampleLine (name ++ "_sum") labels (Binary64.Layout.exposition.text (sumOf observations)),
      sampleLine (name ++ "_count") labels (Numeral.decimal observations.length)]

def durationFamily (m : Metrics) : String :=
  let name := "push_dispatch_duration_seconds"
  familyText name "Dispatch duration in seconds" "histogram"
    ((labelled ["provider_type"] m.durations).flatMap fun (labels, observations) =>
      histogramLines name labels observations)

def keyUpdateFamily (m : Metrics) : String :=
  let name := "push_dispatch_key_updates_total"
  familyText name "Total number of subscription device key updates" "counter"
    ((labelled ["outcome"] m.keyUpdates).map fun (labels, n) =>
      sampleLine name labels (Numeral.decimal n))

def resultFamily (m : Metrics) : String :=
  let name := "push_dispatch_results_total"
  familyText name "Total number of per-endpoint dispatch results" "counter"
    ((labelled ["provider_type", "outcome"] m.results).map fun (labels, n) =>
      sampleLine name labels (Numeral.decimal n))

/-- The exposition of some metrics, families in the order of their names. -/
def exposition (m : Metrics) : String :=
  m.durationFamily ++ m.keyUpdateFamily ++ m.resultFamily

/-- The exposition of several sets of metrics that were created one after another: the names belong
to the first set, so only it is published. -/
def gather : List Metrics → String
  | [] => ""
  | m :: _ => m.exposition

end PushDelivery.Metrics
