import OtaApi.Header

/-!
# HTTP client setup

`ota-api-http.c`: how the server of an update is authenticated and which
interface the connection is bound to. The build options pick the branches the
preprocessor picks in the source.
-/

namespace OtaApi

open Interaction

/-- Scheme names are case-insensitive: `strncasecmp(url, "http://", 7) == 0`. -/
def isPlainHttp (url : String) : Bool :=
  (url.toList.take 7).map Char.toLower == "http://".toList

/-- Where the trust in the server comes from, and the only source of an error. -/
def configureServerTrust (build : BuildOptions) (config : OtaApiConfig)
    (httpConfig : HttpClientConfig) : Except EspErr HttpClientConfig :=
  if isPlainHttp httpConfig.url then
    if build.httpsOtaAllowHttp then .ok httpConfig
    else .error espErrInvalidArg
  else if config.certPem.isSome then
    .ok { httpConfig with certPem := config.certPem }
  else if build.tlsSkipServerCertVerify then
    .ok { httpConfig with
      crtBundleAttach := some .skipServerVerifyAttach
      skipCertCommonNameCheck := true }
  else if build.mbedtlsCertificateBundle then
    .ok { httpConfig with crtBundleAttach := some .espCrtBundleAttach }
  else .error espErrInvalidArg

/-- The settings made before anything can fail. -/
def baseHttpConfig (config : OtaApiConfig) (url : String) : HttpClientConfig where
  url := url
  keepAliveEnable := true
  skipCertCommonNameCheck := config.skipCommonNameCheck
  certPem := none
  crtBundleAttach := none
  ifName := none

/-- The result of `esp_netif_get_netif_impl_name()` is dropped, as in the source:
the name is whatever the call left in the zeroed `ifreq`. -/
def otaApiBuildHttpConfig (build : BuildOptions) (config : OtaApiConfig) (url : String) :
    Program (Except EspErr HttpClientConfig) :=
  match configureServerTrust build config (baseHttpConfig config url) with
  | .error err => pure (.error err)
  | .ok httpConfig =>
    match config.bindNetif with
    | none => pure (.ok httpConfig)
    | some netif => do
      let (_, ifrName) ← ask (.netifGetNetifImplName netif)
      pure (.ok { httpConfig with ifName := some ifrName })

/-- The error of the configuration, which depends on no call. -/
def httpConfigError (build : BuildOptions) (config : OtaApiConfig) (url : String) :
    Option EspErr :=
  match configureServerTrust build config (baseHttpConfig config url) with
  | .error err => some err
  | .ok _ => none

/-- The configuration is refused with one code only. -/
theorem configureServerTrust_error {build : BuildOptions} {config : OtaApiConfig}
    {httpConfig : HttpClientConfig} {err : EspErr}
    (h : configureServerTrust build config httpConfig = .error err) : err = espErrInvalidArg := by
  unfold configureServerTrust at h
  split at h
  · split at h <;> cases h
    rfl
  · split at h
    · cases h
    · split at h
      · cases h
      · split at h <;> cases h
        rfl

theorem httpConfigError_eq {build : BuildOptions} {config : OtaApiConfig} {url : String}
    {err : EspErr} (h : httpConfigError build config url = some err) : err = espErrInvalidArg := by
  unfold httpConfigError at h
  split at h
  · rename_i herr
    cases h
    exact configureServerTrust_error herr
  · cases h

theorem configureServerTrust_error_ne {build : BuildOptions} {config : OtaApiConfig}
    {httpConfig : HttpClientConfig} {err : EspErr}
    (h : configureServerTrust build config httpConfig = .error err) : err ≠ espOk := by
  rw [configureServerTrust_error h]
  decide

end OtaApi
