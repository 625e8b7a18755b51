import PortForwarding.Json.Row

/-! # Settings

The settings of the operator and their JSON form. Whole groups and single settings
may be left out and then have their defaults; the router's endpoint and the secret
with the key have none.
-/

namespace PortForwarding

/-- Where the router's key is kept. -/
structure SecretReference where
  name : String
  «namespace» : String
  key : String
  deriving DecidableEq, Repr, Inhabited

/-- How the router is reached. -/
structure RouterSettings where
  endpoint : String
  site : String
  apiKey : SecretReference
  timeoutSeconds : UInt32
  /-- Certificates to trust beyond the usual ones. -/
  caBundle : Option String
  insecureSkipVerify : Bool
  deriving DecidableEq, Repr, Inhabited

/-- How often drift is looked for, and how many passes may run at once. -/
structure DriftSettings where
  intervalSeconds : UInt32 := 300
  maxConcurrentPasses : UInt32 := 3
  deriving DecidableEq, Repr, Inhabited

/-- The seconds between two passes, at least one. -/
def DriftSettings.interval (s : DriftSettings) : Nat :=
  max s.intervalSeconds.toNat 1

/-- How often and how long a cleanup is tried. -/
structure CleanupSettings where
  maxRetries : UInt32 := 3
  retryIntervalSeconds : UInt32 := 30
  deriving DecidableEq, Repr, Inhabited

/-- What every rule has in common. -/
structure RuleDefaults where
  interface : String := "wan"
  enabled : Bool := true
  deriving DecidableEq, Repr, Inhabited

/-- All settings. -/
structure Settings where
  router : RouterSettings
  drift : DriftSettings := {}
  cleanup : CleanupSettings := {}
  rules : RuleDefaults := {}
  deriving DecidableEq, Repr, Inhabited

/-! ## Reading -/

open Json

/-- The reference to a secret in its JSON form. -/
def SecretReference.ofJson (j : Json) : Option SecretReference :=
  match j.row ["name", "namespace", "key"] with
  | some [name, ns, key] => do
    return {
      name := ← required text? name
      «namespace» := ← required text? ns
      key := ← defaulted "api-key" text? key }
  | _ => none

/-- The router's settings in their JSON form. -/
def RouterSettings.ofJson (j : Json) : Option RouterSettings :=
  match j.row ["endpoint", "site", "apiKeySecretRef", "timeoutSeconds", "caBundle",
    "insecureSkipVerify"] with
  | some [endpoint, site, apiKey, timeout, caBundle, insecure] => do
    return {
      endpoint := ← required text? endpoint
      site := ← defaulted "default" text? site
      apiKey := ← required SecretReference.ofJson apiKey
      timeoutSeconds := ← defaulted 30 word32? timeout
      caBundle := ← optional text? caBundle
      insecureSkipVerify := ← defaulted false bool? insecure }
  | _ => none

def DriftSettings.ofJson (j : Json) : Option DriftSettings :=
  match j.row ["periodicIntervalSeconds", "maxConcurrentPasses"] with
  | some [interval, passes] => do
    return {
      intervalSeconds := ← defaulted 300 word32? interval
      maxConcurrentPasses := ← defaulted 3 word32? passes }
  | _ => none

def CleanupSettings.ofJson (j : Json) : Option CleanupSettings :=
  match j.row ["maxRetries", "retryIntervalSeconds"] with
  | some [retries, interval] => do
    return {
      maxRetries := ← defaulted 3 word32? retries
      retryIntervalSeconds := ← defaulted 30 word32? interval }
  | _ => none

/-- The defaults of rules in their JSON form. -/
def RuleDefaults.ofJson (j : Json) : Option RuleDefaults :=
  match j.row ["interface", "enabled"] with
  | some [interface, enabled] => do
    return {
      interface := ← defaulted "wan" text? interface
      enabled := ← defaulted true bool? enabled }
  | _ => none

def Settings.ofJson (j : Json) : Option Settings :=
  match j.row ["router", "reconcile", "finalizer", "defaults"] with
  | some [router, drift, cleanup, rules] => do
    return {
      router := ← required RouterSettings.ofJson router
      drift := ← defaulted {} DriftSettings.ofJson drift
      cleanup := ← defaulted {} CleanupSettings.ofJson cleanup
      rules := ← defaulted {} RuleDefaults.ofJson rules }
  | _ => none

/-! ## Writing -/

def SecretReference.toJson (r : SecretReference) : Json :=
  .obj [("name", .str r.name), ("namespace", .str r.namespace), ("key", .str r.key)]

def RouterSettings.toJson (s : RouterSettings) : Json :=
  .obj [
    ("endpoint", .str s.endpoint),
    ("site", .str s.site),
    ("apiKeySecretRef", s.apiKey.toJson),
    ("timeoutSeconds", .nat s.timeoutSeconds.toNat),
    ("caBundle", orNull (s.caBundle.map .str)),
    ("insecureSkipVerify", .bool s.insecureSkipVerify)]

def DriftSettings.toJson (s : DriftSettings) : Json :=
  .obj [
    ("periodicIntervalSeconds", .nat s.intervalSeconds.toNat),
    ("maxConcurrentPasses", .nat s.maxConcurrentPasses.toNat)]

def CleanupSettings.toJson (s : CleanupSettings) : Json :=
  .obj [
    ("maxRetries", .nat s.maxRetries.toNat),
    ("retryIntervalSeconds", .nat s.retryIntervalSeconds.toNat)]

def RuleDefaults.toJson (d : RuleDefaults) : Json :=
  .obj [("interface", .str d.interface), ("enabled", .bool d.enabled)]

def Settings.toJson (c : Settings) : Json :=
  .obj [
    ("router", c.router.toJson),
    ("reconcile", c.drift.toJson),
    ("finalizer", c.cleanup.toJson),
    ("defaults", c.rules.toJson)]

end PortForwarding
