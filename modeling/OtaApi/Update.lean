import OtaApi.Http
import OtaApi.Report

/-!
# One update, and the task that may own it

`ota-api.c`. An error leaves a function at the place where the source returns;
inside the download loop `Exit` tells a `return` from the `break`.
-/

namespace OtaApi

open Interaction

/-- Read the incoming image header and let the application veto it. -/
def checkIncomingImage (handle : HttpsOtaHandle) (config : OtaApiConfig) : Program EspErr := do
  let (err, newApp) ← ask (.httpsOtaGetImgDesc handle)
  if err ≠ espOk then pure err
  else otaApiDispatchEvent config (.imageDesc newApp)

/-- How the download loop is left: by `return`, or by `break` with what the rest
of the function goes on with. -/
inductive Exit where
  | returned : EspErr → Exit
  | broke : EspErr → Int64 → Exit

/-- The loop body, entered with the answer of `esp_https_ota_perform()`. -/
def downloadChunk (handle : HttpsOtaHandle) (config : OtaApiConfig) (totalBytes : Int32)
    (err : EspErr) (lastReportUs : Int64) : Program (LoopStep Int64 Exit) :=
  if err ≠ espErrHttpsOtaInProgress then pure (.leave (.broke err lastReportUs))
  else do
    let requested ← ask .abortRequested
    if requested then pure (.leave (.returned espErrNotFinished))
    else
      let (err, lastReportUs) ← otaApiReportProgress handle config totalBytes lastReportUs false
      if err ≠ espOk then pure (.leave (.returned err))
      else pure (.again lastReportUs)

/-- What follows the loop; reached by the `break` only. -/
def verifyDownload (handle : HttpsOtaHandle) (config : OtaApiConfig) (totalBytes : Int32)
    (err : EspErr) (lastReportUs : Int64) : Program EspErr :=
  if err ≠ espOk then pure err
  else do
    let complete ← ask (.httpsOtaIsCompleteDataReceived handle)
    if !complete then pure espErrOtaValidateFailed
    else
      let (err, _) ← otaApiReportProgress handle config totalBytes lastReportUs true
      pure err

def downloadImage (handle : HttpsOtaHandle) (config : OtaApiConfig) : Program EspErr := do
  let totalBytes ← ask (.httpsOtaGetImageSize handle)
  let exit ← Prog.whileCall (.httpsOtaPerform handle) (0 : Int64)
    (downloadChunk handle config totalBytes)
  match exit with
  | .returned err => pure err
  | .broke err lastReportUs => verifyDownload handle config totalBytes err lastReportUs

/-- `partial_download` is ignored by a build without ranged downloads. -/
def buildHttpsOtaConfig (build : BuildOptions) (config : OtaApiConfig)
    (httpConfig : HttpClientConfig) : HttpsOtaConfig where
  httpConfig := httpConfig
  partialHttpDownload := build.httpsOtaEnablePartialDownload && config.partialDownload
  maxHttpRequestSize :=
    if build.httpsOtaEnablePartialDownload then config.maxHttpRequestSize.toInt32 else 0

/-- `if (err == ESP_OK) err = f();` -/
def ifOk (err : EspErr) (f : Program EspErr) : Program EspErr :=
  if err = espOk then f else pure err

/-- From a handle to the commit, or to the abort that discards it. -/
def transferImage (handle : HttpsOtaHandle) (config : OtaApiConfig) : Program EspErr := do
  let err ← otaApiDispatchEvent config .started
  let err ← ifOk err (checkIncomingImage handle config)
  let err ← ifOk err (downloadImage handle config)
  if err ≠ espOk then
    let _ ← ask (.httpsOtaAbort handle)
    pure err
  else ask (.httpsOtaFinish handle)

def runUpdate (build : BuildOptions) (config : OtaApiConfig) (url : String) :
    Program EspErr := do
  match ← otaApiBuildHttpConfig build config url with
  | .error err => pure err
  | .ok httpConfig =>
    let (err, handle) ← ask (.httpsOtaBegin (buildHttpsOtaConfig build config httpConfig))
    if err ≠ espOk then pure err
    else transferImage handle config

/-- The event that tells the application how the update ended. -/
def outcomeEvent (err : EspErr) : OtaApiEvent :=
  if err = espOk then .succeeded else .failed err

@[simp] theorem terminal_outcomeEvent (err : EspErr) : (outcomeEvent err).terminal = true := by
  unfold outcomeEvent
  split <;> rfl

def otaApiUpdate (build : BuildOptions) (config : Option OtaApiConfig) : Program EspErr :=
  match config with
  | none => pure espErrInvalidArg
  | some config =>
    match config.url with
    | none => pure espErrInvalidArg
    | some url => do
      let claimed ← ask .claimUpdateSlot
      if !claimed then pure espErrInvalidState
      else
        let err ← runUpdate build config url
        let _ ← ask .releaseUpdateSlot
        let _ ← otaApiDispatchEvent config (outcomeEvent err)
        pure err

/-- Body of the task spawned by `ota_api_start_task()`; never returns. -/
def otaTask (config : OtaApiConfig) : Program EspErr := do
  let _ ← ask .free
  let err ← ask (.otaApiUpdate config)
  if err = espOk then
    let never ← ask .restart
    nomatch never
  else
    let never ← ask .taskDelete
    nomatch never

def otaApiStartTask (build : BuildOptions) (config : Option OtaApiConfig) : Program EspErr :=
  match config with
  | none => pure espErrInvalidArg
  | some config =>
    match config.url with
    | none => pure espErrInvalidArg
    | some _ => do
      let copy ← ask .malloc
      if !copy then pure espErrNoMem
      else
        let stackSize :=
          if config.taskStackSize ≠ 0 then config.taskStackSize else build.otaApiTaskStackSize
        let priority :=
          if config.taskPriority ≠ 0 then config.taskPriority else build.otaApiTaskPriority
        let created ← ask (.taskCreate stackSize priority config)
        if !created then
          let _ ← ask .free
          pure espErrNoMem
        else pure espOk

end OtaApi
