import OtaApi.Interaction.Program
import OtaApi.EspIdf

/-!
# The public header and the calls of the component

`ota-api.h` without its prototypes, and one name for every function the
component calls that is not its own: ESP-IDF, FreeRTOS, the application's
`event_cb`, and the critical sections of `ota-api-state.c`, each of which is one
atomic step on state shared by all tasks.
-/

namespace OtaApi

/-- `ota_api_progress_t`; `size_t` has 32 bits on the targets. -/
structure OtaApiProgress where
  bytesRead : UInt32
  totalBytes : UInt32
  percent : Int32
  deriving DecidableEq, Repr

/-- `ota_api_event_id_t`, each value with what `data` points to. -/
inductive OtaApiEvent where
  | started : OtaApiEvent
  | imageDesc : EspAppDesc → OtaApiEvent
  | progress : OtaApiProgress → OtaApiEvent
  | succeeded : OtaApiEvent
  | failed : EspErr → OtaApiEvent
  deriving DecidableEq, Repr

/-- The two events that report the outcome. -/
def OtaApiEvent.terminal : OtaApiEvent → Bool
  | .succeeded => true
  | .failed _ => true
  | _ => false

@[simp] theorem terminal_started : OtaApiEvent.started.terminal = false := rfl
@[simp] theorem terminal_imageDesc (d : EspAppDesc) : (OtaApiEvent.imageDesc d).terminal = false := rfl
@[simp] theorem terminal_progress (p : OtaApiProgress) : (OtaApiEvent.progress p).terminal = false := rfl

abbrev EventCb := Nat

/-- `ota_api_config_t`, a `NULL` pointer being `none`. -/
structure OtaApiConfig where
  url : Option String
  certPem : Option String
  skipCommonNameCheck : Bool
  bindNetif : Option Netif
  taskStackSize : UInt32
  taskPriority : UInt32
  eventCb : Option EventCb
  userCtx : Nat
  progressIntervalMs : UInt32
  partialDownload : Bool
  maxHttpRequestSize : UInt32
  deriving DecidableEq, Repr

def otaApiConfigDefault : OtaApiConfig where
  url := none
  certPem := none
  skipCommonNameCheck := false
  bindNetif := none
  taskStackSize := 0
  taskPriority := 0
  eventCb := none
  userCtx := 0
  progressIntervalMs := 0
  partialDownload := false
  maxHttpRequestSize := 0

inductive Call where
  | claimUpdateSlot : Call
  | releaseUpdateSlot : Call
  | abortRequested : Call
  | netifGetNetifImplName : Netif → Call
  | httpsOtaBegin : HttpsOtaConfig → Call
  | httpsOtaGetImgDesc : HttpsOtaHandle → Call
  | httpsOtaGetImageSize : HttpsOtaHandle → Call
  | httpsOtaPerform : HttpsOtaHandle → Call
  | httpsOtaGetImageLenRead : HttpsOtaHandle → Call
  | httpsOtaIsCompleteDataReceived : HttpsOtaHandle → Call
  | httpsOtaFinish : HttpsOtaHandle → Call
  | httpsOtaAbort : HttpsOtaHandle → Call
  | timerGetTime : Call
  | eventCb : EventCb → OtaApiEvent → Nat → Call
  | malloc : Call
  | free : Call
  | taskCreate : UInt32 → UInt32 → OtaApiConfig → Call
  | otaApiUpdate : OtaApiConfig → Call
  | restart : Call
  | taskDelete : Call
  deriving DecidableEq, Repr

/-- What each call returns, out-parameters included; `Empty` does not return. -/
@[reducible] def Answer : Call → Type
  | .claimUpdateSlot => Bool
  | .releaseUpdateSlot => Unit
  | .abortRequested => Bool
  | .netifGetNetifImplName _ => EspErr × String
  | .httpsOtaBegin _ => EspErr × HttpsOtaHandle
  | .httpsOtaGetImgDesc _ => EspErr × EspAppDesc
  | .httpsOtaGetImageSize _ => Int32
  | .httpsOtaPerform _ => EspErr
  | .httpsOtaGetImageLenRead _ => Int32
  | .httpsOtaIsCompleteDataReceived _ => Bool
  | .httpsOtaFinish _ => EspErr
  | .httpsOtaAbort _ => EspErr
  | .timerGetTime => Int64
  | .eventCb _ _ _ => EspErr
  | .malloc => Bool
  | .free => Unit
  | .taskCreate _ _ _ => Bool
  | .otaApiUpdate _ => EspErr
  | .restart => Empty
  | .taskDelete => Empty

instance : (c : Call) → DecidableEq (Answer c)
  | .claimUpdateSlot => inferInstanceAs (DecidableEq Bool)
  | .releaseUpdateSlot => inferInstanceAs (DecidableEq Unit)
  | .abortRequested => inferInstanceAs (DecidableEq Bool)
  | .netifGetNetifImplName _ => inferInstanceAs (DecidableEq (EspErr × String))
  | .httpsOtaBegin _ => inferInstanceAs (DecidableEq (EspErr × HttpsOtaHandle))
  | .httpsOtaGetImgDesc _ => inferInstanceAs (DecidableEq (EspErr × EspAppDesc))
  | .httpsOtaGetImageSize _ => inferInstanceAs (DecidableEq Int32)
  | .httpsOtaPerform _ => inferInstanceAs (DecidableEq EspErr)
  | .httpsOtaGetImageLenRead _ => inferInstanceAs (DecidableEq Int32)
  | .httpsOtaIsCompleteDataReceived _ => inferInstanceAs (DecidableEq Bool)
  | .httpsOtaFinish _ => inferInstanceAs (DecidableEq EspErr)
  | .httpsOtaAbort _ => inferInstanceAs (DecidableEq EspErr)
  | .timerGetTime => inferInstanceAs (DecidableEq Int64)
  | .eventCb _ _ _ => inferInstanceAs (DecidableEq EspErr)
  | .malloc => inferInstanceAs (DecidableEq Bool)
  | .free => inferInstanceAs (DecidableEq Unit)
  | .taskCreate _ _ _ => inferInstanceAs (DecidableEq Bool)
  | .otaApiUpdate _ => inferInstanceAs (DecidableEq EspErr)
  | .restart => inferInstanceAs (DecidableEq Empty)
  | .taskDelete => inferInstanceAs (DecidableEq Empty)

abbrev Program := Interaction.Prog Call Answer
abbrev Event := Interaction.Event Call Answer

/-- Call one of these functions. -/
def ask (c : Call) : Program (Answer c) := Interaction.Prog.ask c

end OtaApi
