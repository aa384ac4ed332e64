/-!
# What the component uses of ESP-IDF

Error codes, handles and the two configuration structs handed to
`esp_https_ota_begin()`, with C's `int` as `Int32`. Only the fields the
component sets or reads are kept; pointers whose target is never looked at are
plain numbers.
-/

namespace OtaApi

/-- `esp_err_t`, an `int`. -/
abbrev EspErr := Int32

def espOk : EspErr := 0
def espFail : EspErr := -1
def espErrNoMem : EspErr := 0x101
def espErrInvalidArg : EspErr := 0x102
def espErrInvalidState : EspErr := 0x103
def espErrNotSupported : EspErr := 0x106
def espErrNotFinished : EspErr := 0x10C
def espErrOtaValidateFailed : EspErr := 0x1503
def espErrHttpsOtaInProgress : EspErr := 0x9001

/-- The build options the sources test, and the defaults they read. -/
structure BuildOptions where
  httpsOtaAllowHttp : Bool
  tlsSkipServerCertVerify : Bool
  mbedtlsCertificateBundle : Bool
  httpsOtaEnablePartialDownload : Bool
  otaApiTaskStackSize : UInt32
  otaApiTaskPriority : UInt32
  otaApiTrialTimeoutS : UInt32
  deriving DecidableEq, Repr

/-- A build with the bundle and without the options that weaken it. -/
def sampleBuild : BuildOptions where
  httpsOtaAllowHttp := false
  tlsSkipServerCertVerify := false
  mbedtlsCertificateBundle := true
  httpsOtaEnablePartialDownload := true
  otaApiTaskStackSize := 8192
  otaApiTaskPriority := 5
  otaApiTrialTimeoutS := 120

abbrev Netif := Nat
abbrev HttpsOtaHandle := Nat

/-- `esp_app_desc_t`: the two fields the update logs. -/
structure EspAppDesc where
  projectName : String
  version : String
  deriving DecidableEq, Repr

/-- The hooks the component ever installs as `crt_bundle_attach`. -/
inductive CrtBundleAttach where
  | skipServerVerifyAttach | espCrtBundleAttach
  deriving DecidableEq, Repr

structure HttpClientConfig where
  url : String
  keepAliveEnable : Bool
  skipCertCommonNameCheck : Bool
  certPem : Option String
  crtBundleAttach : Option CrtBundleAttach
  ifName : Option String
  deriving DecidableEq, Repr

structure HttpsOtaConfig where
  httpConfig : HttpClientConfig
  partialHttpDownload : Bool
  maxHttpRequestSize : Int32
  deriving DecidableEq, Repr

end OtaApi
