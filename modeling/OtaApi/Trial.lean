import OtaApi.Interaction.Execute
import OtaApi.Interaction.Run
import OtaApi.EspIdf

/-!
# The trial run

`ota-api-trial.c`, and what it uses of ESP-IDF: the state of the running image in
`otadata`, and one-shot timers. `s_trial_timer` is passed in and handed back.
-/

namespace OtaApi

open Interaction

/-- `esp_ota_img_states_t` -/
inductive ImgState where
  | new | pendingVerify | valid | invalid | aborted | undefined
  deriving DecidableEq, Repr

abbrev TimerHandle := Nat

inductive TrialCall where
  | otaGetStatePartition : TrialCall
  | timerCreate : TrialCall
  | timerStartOnce : TimerHandle → UInt64 → TrialCall
  | timerStop : TimerHandle → TrialCall
  | otaMarkAppValidCancelRollback : TrialCall
  | otaMarkAppInvalidRollbackAndReboot : TrialCall
  deriving DecidableEq, Repr

@[reducible] def TrialAnswer : TrialCall → Type
  | .otaGetStatePartition => EspErr × ImgState
  | .timerCreate => EspErr × TimerHandle
  | .timerStartOnce _ _ => EspErr
  | .timerStop _ => EspErr
  | .otaMarkAppValidCancelRollback => EspErr
  | .otaMarkAppInvalidRollbackAndReboot => EspErr

abbrev TrialProgram := Prog TrialCall TrialAnswer

def trialAsk (c : TrialCall) : TrialProgram (TrialAnswer c) := Prog.ask c

/-! ## The component -/

def otaApiIsOnTrial : TrialProgram Bool := do
  let (err, state) ← trialAsk .otaGetStatePartition
  if err ≠ espOk then pure false else pure (state == .pendingVerify)

/-- The callback of the timer. -/
def trialTimeout : TrialProgram Unit := do
  let onTrial ← otaApiIsOnTrial
  if !onTrial then pure ()
  else
    let _ ← trialAsk .otaMarkAppInvalidRollbackAndReboot
    pure ()

/-- The last part of `ota_api_trial_begin()`, with a timer. -/
def trialStart (timer : TimerHandle) (timeoutS : UInt32) :
    TrialProgram (EspErr × Option TimerHandle) := do
  let err ← trialAsk (.timerStartOnce timer (timeoutS.toUInt64 * 1000000))
  pure (err, some timer)

def otaApiTrialBegin (build : BuildOptions) (sTrialTimer : Option TimerHandle) (timeoutS : UInt32) :
    TrialProgram (EspErr × Option TimerHandle) := do
  let onTrial ← otaApiIsOnTrial
  if !onTrial then pure (espErrInvalidState, sTrialTimer)
  else
    let timeoutS := if timeoutS = 0 then build.otaApiTrialTimeoutS else timeoutS
    match sTrialTimer with
    | some timer => trialStart timer timeoutS
    | none =>
      let (err, timer) ← trialAsk .timerCreate
      if err ≠ espOk then pure (err, none)
      else trialStart timer timeoutS

def otaApiTrialConfirm (sTrialTimer : Option TimerHandle) : TrialProgram EspErr := do
  let onTrial ← otaApiIsOnTrial
  if !onTrial then pure espErrInvalidState
  else
    match sTrialTimer with
    | some timer =>
      let _ ← trialAsk (.timerStop timer)
      trialAsk .otaMarkAppValidCancelRollback
    | none => trialAsk .otaMarkAppValidCancelRollback

def otaApiTrialReject : TrialProgram EspErr :=
  trialAsk .otaMarkAppInvalidRollbackAndReboot

/-! ## The device -/

/-- The state of the running image, `none` when it is not tracked; the timers that
were created, with the deadline of those that are armed; the clock in
microseconds; and whether the boot is over. -/
structure Device where
  image : Option ImgState
  timers : List (Option Nat)
  now : Nat
  rebooted : Bool
  deriving DecidableEq, Repr

/-- What a call does and answers. `fault` is the error it fails with by itself, or
`ESP_OK`; a rollback that succeeds does not return. -/
def Device.respond (d : Device) (fault : EspErr) : (c : TrialCall) → TrialAnswer c × Device
  | .otaGetStatePartition =>
    if fault = espOk then
      match d.image with
      | some state => ((espOk, state), d)
      | none => ((espErrNotSupported, .undefined), d)
    else ((fault, .undefined), d)
  | .timerCreate =>
    if fault = espOk then ((espOk, d.timers.length), { d with timers := d.timers ++ [none] })
    else ((fault, 0), d)
  | .timerStartOnce timer us =>
    match d.timers[timer]? with
    | some none =>
      if fault = espOk then
        (espOk, { d with timers := d.timers.set timer (some (d.now + us.toNat)) })
      else (fault, d)
    | some (some _) => (espErrInvalidState, d)
    | none => (espErrInvalidArg, d)
  | .timerStop timer =>
    match d.timers[timer]? with
    | some (some _) =>
      if fault = espOk then (espOk, { d with timers := d.timers.set timer none }) else (fault, d)
    | _ => (espErrInvalidState, d)
  | .otaMarkAppValidCancelRollback =>
    if fault = espOk then
      match d.image with
      | some _ => (espOk, { d with image := some .valid })
      | none => (espFail, d)
    else (fault, d)
  | .otaMarkAppInvalidRollbackAndReboot =>
    if fault = espOk then
      match d.image with
      | some _ => (espOk, { d with image := some .invalid, rebooted := true })
      | none => (espFail, d)
    else (fault, d)

/-- A timer whose deadline has come is disarmed and its callback dispatched. -/
def Device.dispatch (d : Device) (timer : TimerHandle) : Option Device :=
  match d.timers[timer]? with
  | some (some deadline) =>
    if deadline ≤ d.now then some { d with timers := d.timers.set timer none } else none
  | _ => none

/-! ## One boot, one operation after the other -/

/-- The error each call fails with by itself while an operation runs; none makes a
call twice. -/
structure Faults where
  getState : EspErr
  create : EspErr
  startOnce : EspErr
  stop : EspErr
  markValid : EspErr
  markInvalid : EspErr
  deriving DecidableEq, Repr

def Faults.of (f : Faults) : TrialCall → EspErr
  | .otaGetStatePartition => f.getState
  | .timerCreate => f.create
  | .timerStartOnce _ _ => f.startOnce
  | .timerStop _ => f.stop
  | .otaMarkAppValidCancelRollback => f.markValid
  | .otaMarkAppInvalidRollbackAndReboot => f.markInvalid

def noFaults : Faults := ⟨espOk, espOk, espOk, espOk, espOk, espOk⟩

structure Trial where
  device : Device
  sTrialTimer : Option TimerHandle
  deriving DecidableEq, Repr

/-- The deadlines that are counting down. -/
def Trial.countdown (t : Trial) : List Nat := t.device.timers.filterMap id

inductive TrialEvent where
  | begin : UInt32 → Faults → TrialEvent
  | confirm : Faults → TrialEvent
  | reject : Faults → TrialEvent
  -- the image is marked directly, past the component
  | markValid : Faults → TrialEvent
  | markInvalid : Faults → TrialEvent
  | expire : TimerHandle → Faults → TrialEvent
  | tick : Nat → TrialEvent
  deriving DecidableEq, Repr

def Device.answer (f : Faults) (d : Device) (c : TrialCall) : TrialAnswer c × Device :=
  d.respond (f.of c) c

/-- An operation alone with the device; none makes more than three calls. -/
def Device.perform {α : Type} (d : Device) (f : Faults) (p : TrialProgram α) :
    Option (Device × Option α) :=
  p.execute (Device.answer f) Device.rebooted 3 d

/-- What is left of a boot after an operation that does not set `s_trial_timer`. -/
def Trial.after (t : Trial) {α : Type} : Option (Device × Option α) → Trial × Option α
  | some (d, r) => ({ t with device := d }, r)
  | none => (t, none)

/-- The next state, and what an operation returned. -/
def Trial.step (build : BuildOptions) (t : Trial) (e : TrialEvent) : Trial × Option EspErr :=
  if t.device.rebooted then (t, none)
  else
    match e with
    | .begin timeoutS f =>
      match t.after (t.device.perform f (otaApiTrialBegin build t.sTrialTimer timeoutS)) with
      | (t', some (err, timer)) => ({ t' with sTrialTimer := timer }, some err)
      | (t', none) => (t', none)
    | .confirm f => t.after (t.device.perform f (otaApiTrialConfirm t.sTrialTimer))
    | .reject f => t.after (t.device.perform f otaApiTrialReject)
    | .markValid f => t.after (t.device.perform f (trialAsk .otaMarkAppValidCancelRollback))
    | .markInvalid f => t.after (t.device.perform f (trialAsk .otaMarkAppInvalidRollbackAndReboot))
    | .expire timer f =>
      match t.device.dispatch timer with
      | some d => ((t.after (d.perform f trialTimeout)).1, none)
      | none => (t, none)
    | .tick us => ({ t with device := { t.device with now := t.device.now + us } }, none)

def Trial.next (build : BuildOptions) (t : Trial) (e : TrialEvent) : Trial := (t.step build e).1

/-- The device as it boots: no timer yet, whatever the image. -/
def Trial.boot (image : Option ImgState) (now : Nat) : Trial where
  device := { image := image, timers := [], now := now, rebooted := false }
  sTrialTimer := none

/-- The boot after a sequence of events. -/
def Trial.run (build : BuildOptions) (image : Option ImgState) (now : Nat)
    (es : List TrialEvent) : Trial :=
  exec (Trial.next build) (.boot image now) es

end OtaApi
