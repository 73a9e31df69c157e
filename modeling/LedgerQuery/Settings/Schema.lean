import LedgerQuery.Shape.Basic

namespace LedgerQuery

structure TransportSettings where
  requestTimeout : Int
  connectTimeout : Int
  verifyTls : Bool
deriving DecidableEq

structure HostSettings where
  baseUrl : String
  headers : List (String × String)
  transport : TransportSettings
deriving DecidableEq

structure RetrySettings where
  maxElapsed : Option Float
  maxRetries : Int
  initialInterval : Float
  multiplier : Float
  randomizationFactor : Float
  maxInterval : Float
deriving DecidableEq

structure Settings where
  version : Int
  hosts : List (String × HostSettings)
  retry : RetrySettings
deriving DecidableEq

def TransportSettings.default : TransportSettings := ⟨15, 5, true⟩

def TransportSettings.shape : Shape TransportSettings :=
  .record "TransportConfig" <| TransportSettings.mk
    <$> .withDefault "request_timeout_seconds" .int default.requestTimeout (·.requestTimeout)
    <*> .withDefault "connect_timeout_seconds" .int default.connectTimeout (·.connectTimeout)
    <*> .withDefault "verify_tls" .bool default.verifyTls (·.verifyTls)

def schemes : List String := ["http://", "https://"]

def dropTrailingSlashes (s : String) : String :=
  String.ofList ((s.toList.reverse.dropWhile (· = '/')).reverse)

def checkBaseUrl (s : String) : Except FaultKind String :=
  if schemes.any fun scheme => scheme.toList.isPrefixOf s.toList then .ok (dropTrailingSlashes s)
  else .error .valueError

def HostSettings.shape : Shape HostSettings :=
  .record "HostConfig" <| HostSettings.mk
    <$> .required "base_url" (Shape.text.checked checkBaseUrl) (·.baseUrl)
    <*> .withDefault "headers" Shape.text.map [] (·.headers)
    <*> .withDefault "transport" TransportSettings.shape .default (·.transport)

def RetrySettings.default : RetrySettings := ⟨some 60.0, 5, 0.5, 1.5, 0.5, 10.0⟩

def RetrySettings.shape : Shape RetrySettings :=
  .record "RetryConfig" <| RetrySettings.mk
    <$> .withDefault "max_elapsed_seconds" (Shape.float.atLeast 0).optional default.maxElapsed
      (·.maxElapsed)
    <*> .withDefault "max_retries" (Shape.int.atLeast 0) default.maxRetries (·.maxRetries)
    <*> .withDefault "initial_interval_seconds" (Shape.float.atLeast 0) default.initialInterval
      (·.initialInterval)
    <*> .withDefault "multiplier" (Shape.float.atLeast 1) default.multiplier (·.multiplier)
    <*> .withDefault "randomization_factor" ((Shape.float.atMost 1).atLeast 0)
      default.randomizationFactor (·.randomizationFactor)
    <*> .withDefault "max_interval_seconds" (Shape.float.atLeast 0) default.maxInterval
      (·.maxInterval)

def Settings.shape : Shape Settings :=
  .record "SettingsConfig" <| Settings.mk
    <$> .required "version" .int (·.version)
    <*> .required "hosts" HostSettings.shape.map (·.hosts)
    <*> .withDefault "retry" RetrySettings.shape .default (·.retry)

end LedgerQuery
