/-
  Durations, and the configuration of a client.

  A duration is a number of nanoseconds.  It is written in the largest unit that makes it at least
  one, with as many decimal places as it needs: `1.5s`, `100ms`, `1ns`, and `0ns`.

  Five settings of a client can be made, each any number of times; the last one counts, and a setting
  that was never made has its default.
-/

namespace PlatformClient

/-! ## Durations -/

/-- A length of time. -/
structure Duration where
  nanos : Nat
  deriving DecidableEq, Repr

namespace Duration

/-- Nanoseconds in a second. -/
def perSecond : Nat := 1000000000

/-- Whole seconds, and nanoseconds on top of them. -/
def ofParts (seconds nanos : Nat) : Duration := ⟨seconds * perSecond + nanos⟩

/-- Whole seconds. -/
def ofSeconds (seconds : Nat) : Duration := ofParts seconds 0

/-- The whole seconds of a duration. -/
def seconds (d : Duration) : Nat := d.nanos / perSecond

/-- The nanoseconds of a duration beyond its whole seconds. -/
def subsecond (d : Duration) : Nat := d.nanos % perSecond

/-- The greatest number of 64 bits. -/
def maxMillis : Nat := 0xFFFFFFFFFFFFFFFF

/-- The whole milliseconds of a duration, as a number of 64 bits; a duration too long for that has
    the greatest one. -/
def millis (d : Duration) : Nat := min (d.nanos / 1000000) maxMillis

/-- A unit of time: its number of nanoseconds is a power of ten. -/
structure TimeUnit where
  symbol : String
  places : Nat
  deriving DecidableEq, Repr

/-- The unit in which a duration is written. -/
def unit (d : Duration) : TimeUnit :=
  if 1000000000 ≤ d.nanos then ⟨"s", 9⟩
  else if 1000000 ≤ d.nanos then ⟨"ms", 6⟩
  else if 1000 ≤ d.nanos then ⟨"µs", 3⟩
  else ⟨"ns", 0⟩

/-- Decimal places without the zeros at their end. -/
def trimZeros (ds : List Char) : List Char := (ds.reverse.dropWhile (· = '0')).reverse

/-- A number below `10 ^ places`, as that many decimal digits. -/
def padded (places n : Nat) : List Char :=
  let ds := Nat.toDigits 10 n
  List.replicate (places - ds.length) '0' ++ ds

/-- The written form of a duration. -/
def text (d : Duration) : String :=
  let u := d.unit
  let scale := Nat.pow 10 u.places
  let part := if d.nanos % scale = 0 then [] else '.' :: trimZeros (padded u.places (d.nanos % scale))
  Nat.repr (d.nanos / scale) ++ String.ofList part ++ u.symbol

example : (ofParts 1 500000000).text = "1.5s" := by decide +kernel
example : (ofParts 0 1234567).text = "1.234567ms" := by decide +kernel
example : (ofParts 0 0).text = "0ns" := by decide +kernel
example : (ofParts 1 2999999).millis = 1002 := by decide +kernel

end Duration

/-! ## Settings -/

/-- The configuration of a client (`ClientConfig`). -/
structure Config where
  /-- The time allowed until the headers of a response arrive. -/
  timeout : Duration
  /-- The time allowed for making a connection. -/
  connectTimeout : Duration
  /-- How many idle connections are kept for a host. -/
  poolIdlePerHost : Nat
  /-- How long an idle connection is kept. -/
  poolIdleTimeout : Duration
  /-- The most bytes that are read of a body, if there is a bound. -/
  maxBodySize : Option Nat
  deriving DecidableEq, Repr

/-- The settings made so far (`ClientConfigBuilder`). -/
structure Settings where
  timeout : Option Duration
  connectTimeout : Option Duration
  poolIdlePerHost : Option Nat
  poolIdleTimeout : Option Duration
  maxBodySize : Option Nat
  deriving DecidableEq, Repr

/-- A setting. -/
inductive Setting where
  | timeout (d : Duration)
  | connectTimeout (d : Duration)
  | poolIdlePerHost (n : Nat)
  | poolIdleTimeout (d : Duration)
  | maxBodySize (n : Nat)
  deriving DecidableEq, Repr

/-- The configuration without any setting. -/
def Config.default : Config := ⟨.ofSeconds 30, .ofSeconds 10, 32, .ofSeconds 90, none⟩

/-- No settings. -/
def Settings.none : Settings := ⟨.none, .none, .none, .none, .none⟩

/-- Make a setting. -/
def Settings.set (s : Settings) : Setting → Settings
  | .timeout d => { s with timeout := some d }
  | .connectTimeout d => { s with connectTimeout := some d }
  | .poolIdlePerHost n => { s with poolIdlePerHost := some n }
  | .poolIdleTimeout d => { s with poolIdleTimeout := some d }
  | .maxBodySize n => { s with maxBodySize := some n }

/-- The configuration that the settings make. -/
def Settings.config (s : Settings) : Config where
  timeout := s.timeout.getD Config.default.timeout
  connectTimeout := s.connectTimeout.getD Config.default.connectTimeout
  poolIdlePerHost := s.poolIdlePerHost.getD Config.default.poolIdlePerHost
  poolIdleTimeout := s.poolIdleTimeout.getD Config.default.poolIdleTimeout
  maxBodySize := s.maxBodySize <|> Config.default.maxBodySize

/-! ## Descriptions -/

/-- A record in writing: its name, and its fields with their values. -/
def describeRecord (name : String) (fields : List (String × String)) : String :=
  name ++ " \x7b " ++ ", ".intercalate (fields.map fun (f, v) => f ++ ": " ++ v) ++ " \x7d"

/-- An optional value in writing. -/
def describeOption {α : Type} (describe : α → String) : Option α → String
  | none => "None"
  | some a => "Some(" ++ describe a ++ ")"

/-- A configuration in writing. -/
def Config.describe (c : Config) : String :=
  describeRecord "ClientConfig" [
    ("timeout", c.timeout.text),
    ("connect_timeout", c.connectTimeout.text),
    ("pool_idle_per_host", Nat.repr c.poolIdlePerHost),
    ("pool_idle_timeout", c.poolIdleTimeout.text),
    ("max_body_size", describeOption Nat.repr c.maxBodySize)]

/-- Settings in writing. -/
def Settings.describe (s : Settings) : String :=
  describeRecord "ClientConfigBuilder" [
    ("timeout", describeOption Duration.text s.timeout),
    ("connect_timeout", describeOption Duration.text s.connectTimeout),
    ("pool_idle_per_host", describeOption Nat.repr s.poolIdlePerHost),
    ("pool_idle_timeout", describeOption Duration.text s.poolIdleTimeout),
    ("max_body_size", describeOption Nat.repr s.maxBodySize)]

end PlatformClient
