import OtaApi.Header

/-!
# What an update tells the application

`ota-api-report.c`: the one path to `event_cb`, and the throttled progress
report. `last_report_us` is passed in and handed back.
-/

namespace OtaApi

open Interaction

/-- No callback counts as an acceptance. -/
def otaApiDispatchEvent (config : OtaApiConfig) (event : OtaApiEvent) : Program EspErr :=
  match config.eventCb with
  | none => pure espOk
  | some cb => ask (.eventCb cb event config.userCtx)

/-- `(int64_t)config->progress_interval_ms * 1000` -/
def progressWindowUs (config : OtaApiConfig) : Int64 :=
  config.progressIntervalMs.toUInt64.toInt64 * 1000

/-- The payload of a report, with C's conversions between `int`, `int64_t` and
`size_t`. -/
def progressPayload (readBytes totalBytes : Int32) : OtaApiProgress where
  bytesRead := readBytes.toUInt32
  totalBytes := if totalBytes > 0 then totalBytes.toUInt32 else 0
  percent :=
    if totalBytes > 0 then (readBytes.toInt64 * 100 / totalBytes.toInt64).toInt32 else -1

/-- The part of a report after the throttle. -/
def reportLength (handle : HttpsOtaHandle) (config : OtaApiConfig) (totalBytes : Int32)
    (lastReportUs : Int64) : Program (EspErr × Int64) := do
  let readBytes ← ask (.httpsOtaGetImageLenRead handle)
  if readBytes < 0 then pure (espOk, lastReportUs)
  else
    let err ← otaApiDispatchEvent config (.progress (progressPayload readBytes totalBytes))
    pure (err, lastReportUs)

def otaApiReportProgress (handle : HttpsOtaHandle) (config : OtaApiConfig) (totalBytes : Int32)
    (lastReportUs : Int64) (force : Bool) : Program (EspErr × Int64) :=
  if !force && config.progressIntervalMs != 0 then do
    let nowUs ← ask .timerGetTime
    if nowUs - lastReportUs < progressWindowUs config then pure (espOk, lastReportUs)
    else reportLength handle config totalBytes nowUs
  else reportLength handle config totalBytes lastReportUs

end OtaApi
