import Mathlib.Logic.Function.Basic
import OtaApi.Interaction.Contract
import OtaApi.Interaction.Succession
import OtaApi.Interaction.Handoff
import OtaApi.Tasks
import OtaApi.Trial

/-!
# The rollback application

`examples/rollback/main/main.c`, boot after boot. `app_main()` runs from the start at
every boot, and the power may fail at any moment. What lasts is the flash: the image in
each partition, and `otadata`. What `otadata` holds, and what the bootloader and the
functions of ESP-IDF make of it, is left open.
-/

namespace OtaApi.Rollback

open Interaction

def espErrNvsNoFreePages : EspErr := 0x110D
def espErrNvsNewVersionFound : EspErr := 0x1110
def espErrOtaRollbackFailed : EspErr := 0x1505

/-! ## The application -/

/-- The calls of `app_main()`; those of the component are among them. `abort` is what
`ESP_ERROR_CHECK()` does about an error. -/
inductive MainCall where
  | nvsFlashInit : MainCall
  | nvsFlashErase : MainCall
  | netifInit : MainCall
  | eventLoopCreateDefault : MainCall
  | exampleConnect : MainCall
  | wifiSetPs : MainCall
  | taskDelay : Nat → MainCall
  | abort : MainCall
  | trial : TrialCall → MainCall
  | ota : Call → MainCall
  deriving DecidableEq, Repr

@[reducible] def MainAnswer : MainCall → Type
  | .nvsFlashInit => EspErr
  | .nvsFlashErase => EspErr
  | .netifInit => EspErr
  | .eventLoopCreateDefault => EspErr
  | .exampleConnect => EspErr
  | .wifiSetPs => EspErr
  | .taskDelay _ => Unit
  | .abort => Empty
  | .trial c => TrialAnswer c
  | .ota c => Answer c

abbrev MainProgram := Prog MainCall MainAnswer

def mainAsk (c : MainCall) : MainProgram (MainAnswer c) := Prog.ask c

def trialCalls : Embedding TrialCall TrialAnswer MainCall MainAnswer := ⟨.trial, fun _ a => a⟩

def otaCalls : Embedding Call Answer MainCall MainAnswer := ⟨.ota, fun _ a => a⟩

/-- The build, with the options of the example's `Kconfig` and of its network helper. -/
structure Options where
  build : BuildOptions
  exampleConnectWifi : Bool
  exampleFirmwareUpgradeUrl : String
  exampleSkipCommonNameCheck : Bool

def Options.otaConfig (o : Options) : OtaApiConfig :=
  { otaApiConfigDefault with
    url := some o.exampleFirmwareUpgradeUrl
    skipCommonNameCheck := o.exampleSkipCommonNameCheck }

/-- `ESP_ERROR_CHECK()` -/
def espErrorCheck (err : EspErr) : MainProgram Unit :=
  if err ≠ espOk then do
    let never ← mainAsk .abort
    nomatch never
  else pure ()

/-- Under any contract: what is checked has gone well, or nothing comes after it. -/
theorem espErrorCheck_rule {S : Type} {K : Contract MainCall MainAnswer S} {pre post : S → Prop}
    {err : EspErr} (hmay : ∀ s, pre s → err ≠ espOk → K.may s .abort)
    (hok : ∀ s, pre s → err = espOk → post s) :
    K.Triple pre (espErrorCheck err) fun _ => post := by
  unfold espErrorCheck
  split
  · rename_i hne
    have habort : K.Triple pre (mainAsk .abort) fun _ _ => False :=
      .ask (fun s hs => hmay s hs hne) fun _ never => nomatch never
    exact habort.bind fun never => nomatch never
  · rename_i herr
    exact .pure fun s hs => hok s hs (not_not.mp herr)

def runDiagnostic (connectErr : EspErr) : Bool := connectErr == espOk

def initializeNvs : MainProgram Unit := do
  let err ← mainAsk .nvsFlashInit
  if err = espErrNvsNoFreePages ∨ err = espErrNvsNewVersionFound then
    espErrorCheck (← mainAsk .nvsFlashErase)
    espErrorCheck (← mainAsk .nvsFlashInit)
  else espErrorCheck err

/-- The verdict, for an image that is on trial. `s_trial_timer` is never set. -/
def judgeTrial (pendingVerify : Bool) (connectErr : EspErr) : MainProgram Unit :=
  if pendingVerify then
    if runDiagnostic connectErr then do
      espErrorCheck (← (otaApiTrialConfirm none).embed trialCalls)
    else do
      let _ ← otaApiTrialReject.embed trialCalls
      pure ()
  else pure ()

/-- Compiled for Wi-Fi only. -/
def setPowerSave (o : Options) : MainProgram Unit :=
  if o.exampleConnectWifi then do
    let _ ← mainAsk .wifiSetPs
    pure ()
  else pure ()

/-- `while (1) vTaskDelay(1000 / portTICK_PERIOD_MS)` -/
def stayRunning : MainProgram Empty :=
  Prog.whileCall (.taskDelay 1000) () fun _ _ => pure (.again ())

/-- `app_main()` from the update on. -/
def updateAndRestart (o : Options) : MainProgram Empty := do
  let err ← (otaApiUpdate o.build (some o.otaConfig)).embed otaCalls
  if err ≠ espOk then stayRunning
  else
    let _ ← mainAsk (.taskDelay 1000)
    mainAsk (.ota .restart)

def appMain (o : Options) : MainProgram Empty := do
  initializeNvs
  let pendingVerify ← otaApiIsOnTrial.embed trialCalls
  espErrorCheck (← mainAsk .netifInit)
  espErrorCheck (← mainAsk .eventLoopCreateDefault)
  let connectErr ← mainAsk .exampleConnect
  judgeTrial pendingVerify connectErr
  espErrorCheck connectErr
  setPowerSave o
  updateAndRestart o

/-! ## The flash -/

section Flash

variable {P D : Type} [DecidableEq P]

/-- What is not in the repository: the partitions for applications, and what ESP-IDF and the
bootloader do with `otadata`. `first` is the one that is flashed over USB, and the bootloader
sees which of them hold a whole image. -/
structure Platform (P D : Type) where
  first : P
  erased : D
  boot : D → (P → Bool) → P × D
  getNextUpdatePartition : P → P
  setBootPartition : D → P → D
  getStatePartition : D → P → Except EspErr ImgState
  markAppValid : D → P → Except EspErr D
  markAppInvalid : D → P → (P → Bool) → Except EspErr D

/-- The device: `otadata`, the partitions that hold a whole image, the partition that is
running, the state of the component, and whether the network is up. -/
structure Board (P D : Type) where
  otadata : D
  whole : P → Bool
  running : P
  runState : RunState
  network : Bool

namespace Board

/-- As it leaves the factory. -/
def initial (E : Platform P D) : Board P D where
  otadata := E.erased
  whole p := p = E.first
  running := E.first
  runState := .initial
  network := false

/-- The bootloader runs. -/
def reset (E : Platform P D) (b : Board P D) : Board P D where
  otadata := (E.boot b.otadata b.whole).2
  whole := b.whole
  running := (E.boot b.otadata b.whole).1
  runState := .initial
  network := false

/-- The running image is on trial. -/
def onTrial (E : Platform P D) (b : Board P D) : Bool :=
  match E.getStatePartition b.otadata b.running with
  | .ok state => state == .pendingVerify
  | .error _ => false

/-- The partition an update writes to. -/
def spare (E : Platform P D) (b : Board P D) : P := E.getNextUpdatePartition b.running

/-- What a call of the component has done to the flash when it returns. A chunk that is
written, or was to be, leaves the next partition without a whole image. -/
def answering (E : Platform P D) (b : Board P D) : Event → Board P D
  | ⟨.httpsOtaPerform _, _⟩ => { b with whole := Function.update b.whole (b.spare E) false }
  | ⟨.httpsOtaFinish _, err⟩ =>
    if err = espOk then
      { b with
        otadata := E.setBootPartition b.otadata (b.spare E)
        whole := Function.update b.whole (b.spare E) true }
    else b
  | _ => b

/-- `example_connect()` has returned. -/
def connected (b : Board P D) (err : EspErr) : Board P D := { b with network := err == espOk }

end Board

/-- A call returns, or the device boots. -/
inductive Response (P D : Type) (c : MainCall) where
  | returned : MainAnswer c → Board P D → Response P D c
  | rebooted : Board P D → Response P D c

/-- The error in a reply. -/
def errorIn : Reply → Option EspErr
  | .err e => some e
  | _ => none

/-- What a call of the trial run does. A fault is an error it fails with before it has
read or written anything. -/
def Board.respondTrial (E : Platform P D) (b : Board P D) :
    (c : TrialCall) → Reply → Option (Response P D (.trial c))
  | .otaGetStatePartition, reply =>
    (errorIn reply).map fun fault =>
      if fault ≠ espOk then .returned (fault, .undefined) b
      else
        match E.getStatePartition b.otadata b.running with
        | .ok state => .returned (espOk, state) b
        | .error err => .returned (err, .undefined) b
  | .otaMarkAppValidCancelRollback, reply =>
    (errorIn reply).map fun fault =>
      if fault ≠ espOk then .returned fault b
      else
        match E.markAppValid b.otadata b.running with
        | .ok otadata => .returned espOk { b with otadata := otadata }
        | .error err => .returned err b
  | .otaMarkAppInvalidRollbackAndReboot, reply =>
    (errorIn reply).map fun fault =>
      if fault ≠ espOk then .returned fault b
      else
        match E.markAppInvalid b.otadata b.running b.whole with
        | .ok otadata => .rebooted ({ b with otadata := otadata }.reset E)
        | .error err => .returned err b
  | .timerCreate, reply => (errorIn reply).map fun e => .returned (e, 0) b
  | .timerStartOnce _ _, reply => (errorIn reply).map fun e => .returned e b
  | .timerStop _, reply => (errorIn reply).map fun e => .returned e b

/-- What a call of the component does. -/
def Board.respondOta (E : Platform P D) (b : Board P D) :
    (c : Call) → Reply → Option (Response P D (.ota c))
  | .restart, _ => some (.rebooted (b.reset E))
  | c, reply =>
    match criticalSection b.runState c with
    | some (answer, runState) => some (.returned answer { b with runState := runState })
    | none => (reply.answer? c).map fun answer => .returned answer (b.answering E ⟨c, answer⟩)

/-- What a call does. The reply says how it goes, as far as the device does not. -/
def Board.respond (E : Platform P D) (b : Board P D) : (c : MainCall) → Reply → Option (Response P D c)
  | .nvsFlashInit, reply => (errorIn reply).map fun e => .returned e b
  | .nvsFlashErase, reply => (errorIn reply).map fun e => .returned e b
  | .netifInit, reply => (errorIn reply).map fun e => .returned e b
  | .eventLoopCreateDefault, reply => (errorIn reply).map fun e => .returned e b
  | .exampleConnect, reply => (errorIn reply).map fun e => .returned e (b.connected e)
  | .wifiSetPs, reply => (errorIn reply).map fun e => .returned e b
  | .taskDelay _, _ => some (.returned () b)
  | .abort, _ => some (.rebooted (b.reset E))
  | .trial c, reply => b.respondTrial E c reply
  | .ota c, reply => b.respondOta E c reply

/-! ## Boot after boot -/

/-- The device, and what is left of `app_main()` in this boot. -/
structure State (P D : Type) where
  board : Board P D
  prog : MainProgram Empty

/-- The call that is under way returns, or the power fails. -/
inductive Label where
  | answer : Reply → Label
  | reset : Label
  deriving DecidableEq, Repr

section Step

variable (E : Platform P D) (o : Options)

def State.initial : State P D := ⟨.initial E, appMain o⟩

def State.step (s : State P D) : Label → State P D
  | .reset => ⟨s.board.reset E, appMain o⟩
  | .answer reply =>
    match s.prog.turn with
    | .done _ => s
    | .call c k =>
      match s.board.respond E c reply with
      | some (.returned a b) => ⟨b, k a⟩
      | some (.rebooted b) => ⟨b, appMain o⟩
      | none => s

/-- The device after one course of events. -/
def run (ls : List Label) : State P D := exec (State.step E o) (.initial E o) ls

/-- This reply does not keep the state of an image that is on trial from being read. -/
def Board.readsTruly (b : Board P D) : MainCall → Reply → Bool
  | .trial .otaGetStatePartition, reply => !b.onTrial E || (errorIn reply).all (· == espOk)
  | _, _ => true

def State.readsTruly (s : State P D) : Label → Bool
  | .reset => true
  | .answer reply =>
    match s.prog.turn with
    | .done _ => true
    | .call c _ => s.board.readsTruly E c reply

/-- Whenever an image is on trial its state can be read. -/
def Readable (ls : List Label) : Prop :=
  Throughout (State.step E o) (fun s l => s.readsTruly E l = true) (.initial E o) ls

instance decidableReadable (ls : List Label) : Decidable (Readable E o ls) :=
  decidableThroughout ls _

/-- What a restart does about a trial. -/
def restarted (b : Board P D) : Turnover P :=
  let b' := b.reset E
  if b'.onTrial E then .tried b'.running
  else if b.onTrial E then .wentBack b'.running
  else .resumed b'.running

/-- What the return of a call shows. -/
def observeAnswer (b : Board P D) (c : MainCall) : Option (Response P D c) → Option (Turnover P)
  | none => none
  | some (.rebooted b') =>
    match c with
    | .trial _ => some (.wentBack b'.running)
    | _ => some (restarted E b)
  | some (.returned a _) =>
    match c, a with
    | .ota (.httpsOtaFinish _), err => if err = espOk then some (.stored (b.spare E)) else none
    | .trial .otaMarkAppValidCancelRollback, err =>
      if err = espOk then some (.confirmed b.running) else none
    | _, _ => none

/-- What a step does to the images. -/
def observe (s : State P D) : Label → Option (Turnover P)
  | .reset => some (restarted E s.board)
  | .answer reply =>
    match s.prog.turn with
    | .done _ => none
    | .call c _ => observeAnswer E s.board c (s.board.respond E c reply)

/-- The images that were stored, tried, confirmed and given up, in order. -/
def events (ls : List Label) : List (Turnover P) :=
  observed (State.step E o) (observe E) (.initial E o) ls

end Step

end Flash

end OtaApi.Rollback
