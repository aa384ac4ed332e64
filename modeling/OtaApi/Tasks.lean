import Mathlib.Logic.Function.Basic
import OtaApi.Interaction.Run
import OtaApi.State
import OtaApi.Update

/-!
# Tasks

Any number of tasks share the update slot and the flash. A task runs functions
of the component, and application code of its own between them and inside
`event_cb`, where it may call the component again. One label is one atomic step
of one task, so a list of labels is one interleaving. A label that is not
possible where it comes changes nothing.

What ESP-IDF does to the flash is what `docs/update_state_machine.md` states:
`esp_https_ota_perform()` writes the next partition, a successful
`esp_https_ota_finish()` completes it and makes it the boot partition, and
nothing else does either.
-/

namespace OtaApi

open Interaction

/-- The partition the firmware runs from, and the one an update is written to. -/
inductive Partition where
  | running | next
  deriving DecidableEq, Repr

/-- What `otadata` points to, and whether the next partition holds the whole,
validated image of a successful update. -/
structure Flash where
  boot : Partition
  nextWhole : Bool
  deriving DecidableEq, Repr

def Flash.initial : Flash := ⟨.running, false⟩

def Flash.write (f : Flash) : Flash := { f with nextWhole := false }

def Flash.commit (_ : Flash) : Flash := ⟨.next, true⟩

/-- What becomes of the flash when a call is entered. -/
def Flash.entering (f : Flash) : Call → Flash
  | .httpsOtaPerform _ => f.write
  | _ => f

/-- What has become of the flash when a call returns. -/
def Flash.answering (f : Flash) : Event → Flash
  | ⟨.httpsOtaFinish _, err⟩ => if err = espOk then f.commit else f
  | _ => f

/-- The device can boot into a whole image. -/
def Flash.WholeBoot (f : Flash) : Prop := f.boot = .running ∨ f.nextWhole = true

instance (f : Flash) : Decidable f.WholeBoot :=
  inferInstanceAs (Decidable (f.boot = .running ∨ f.nextWhole = true))

/-- The functions of the component a task may be running. -/
inductive Routine where
  | otaApiUpdate : Option OtaApiConfig → Routine
  | otaApiStartTask : Option OtaApiConfig → Routine
  | otaTask : OtaApiConfig → Routine
  deriving DecidableEq, Repr

def Routine.program (build : BuildOptions) : Routine → Program EspErr
  | .otaApiUpdate config => OtaApi.otaApiUpdate build config
  | .otaApiStartTask config => OtaApi.otaApiStartTask build config
  | .otaTask config => OtaApi.otaTask config

/-- A moment of an activation: the calls that had returned, and whether the next
one had been entered. -/
structure Moment where
  answered : Nat
  entered : Bool
  deriving DecidableEq, Repr

/-- One activation of a function: what is left of it, whether it is inside its
next call, the calls that have returned, and the moments at which an
`ota_api_abort()` of anybody was accepted. -/
structure Activation where
  routine : Routine
  prog : Program EspErr
  entered : Bool
  trace : List Event
  aborts : List Moment

def Activation.start (build : BuildOptions) (r : Routine) : Activation where
  routine := r
  prog := r.program build
  entered := false
  trace := []
  aborts := []

def Activation.enter (a : Activation) : Activation := { a with entered := true }

def Activation.resume {c : Call} (a : Activation) (k : Answer c → Program EspErr)
    (answer : Answer c) : Activation :=
  { a with prog := k answer, entered := false, trace := a.trace ++ [⟨c, answer⟩] }

def Activation.now (a : Activation) : Moment := ⟨a.trace.length, a.entered⟩

def Activation.notice (a : Activation) : Activation := { a with aborts := a.aborts ++ [a.now] }

/-- The call an activation is inside of, or about to make. -/
def Activation.next? (a : Activation) : Option Call := a.prog.turn.next?

def Activation.result? (a : Activation) : Option EspErr := a.prog.turn.result?

/-- A task of the application, or the one created for an activation of `ota_task()`. -/
inductive Task where
  | app : Nat → Task
  | spawned : Nat → Task
  deriving DecidableEq, Repr

/-- The slot, the flash, every activation there ever was, and for each task the
activations it is inside of, innermost first. -/
structure System where
  slot : RunState
  flash : Flash
  activations : List Activation
  stack : Task → List Nat
  restarted : Bool

def System.initial : System where
  slot := .initial
  flash := .initial
  activations := []
  stack _ := []
  restarted := false

/-- The critical sections of `ota-api-state.c` that an activation goes through. -/
def criticalSection (s : RunState) : (c : Call) → Option (Answer c × RunState)
  | .claimUpdateSlot => some (otaApiClaimUpdateSlot s)
  | .releaseUpdateSlot => some ((), otaApiReleaseUpdateSlot s)
  | .abortRequested => some (otaApiAbortRequested s, s)
  | _ => none

/-- What a call outside the component may come back with. -/
inductive Reply where
  | none : Reply
  | flag : Bool → Reply
  | err : EspErr → Reply
  | int : Int32 → Reply
  | time : Int64 → Reply
  | named : EspErr → String → Reply
  | handle : EspErr → HttpsOtaHandle → Reply
  | appDesc : EspErr → EspAppDesc → Reply
  deriving DecidableEq, Repr

/-- A reply as the answer of a call to the outside. -/
def Reply.answer? : Reply → (c : Call) → Option (Answer c)
  | .named e ifrName, .netifGetNetifImplName _ => some (e, ifrName)
  | .handle e h, .httpsOtaBegin _ => some (e, h)
  | .appDesc e newApp, .httpsOtaGetImgDesc _ => some (e, newApp)
  | .int n, .httpsOtaGetImageSize _ => some n
  | .err e, .httpsOtaPerform _ => some e
  | .int n, .httpsOtaGetImageLenRead _ => some n
  | .flag b, .httpsOtaIsCompleteDataReceived _ => some b
  | .err e, .httpsOtaFinish _ => some e
  | .err e, .httpsOtaAbort _ => some e
  | .time t, .timerGetTime => some t
  | .err e, .eventCb _ _ _ => some e
  | .flag b, .malloc => some b
  | .none, .free => some ()
  | .flag b, .taskCreate _ _ _ => some b
  | _, _ => Option.none

inductive Label where
  | otaApiUpdate : Task → Option OtaApiConfig → Label
  | otaApiStartTask : Task → Option OtaApiConfig → Label
  | otaApiAbort : Task → Label
  | otaApiIsRunning : Task → Label
  | advance : Task → Label
  | answer : Task → Reply → Label

section Step

variable (build : BuildOptions)

def System.put (s : System) (i : Nat) (a : Activation) : System :=
  { s with activations := s.activations.set i a }

/-- A task calls a function of the component. -/
def System.call (s : System) (τ : Task) (r : Routine) : System :=
  { s with
    activations := s.activations ++ [.start build r]
    stack := Function.update s.stack τ (s.activations.length :: s.stack τ) }

/-- A new task starts in `ota_task()`. -/
def System.spawn (s : System) (config : OtaApiConfig) : System :=
  s.call build (.spawned s.activations.length) (.otaTask config)

/-- The activation a task is executing, or waiting in. -/
def System.current? (s : System) (τ : Task) : Option (Nat × Activation) :=
  (s.stack τ).head?.bind fun i => (s.activations[i]?).map fun a => (i, a)

/-- A task executes code of the application: at its top level, or in `event_cb`. -/
def System.inApp (s : System) (τ : Task) : Bool :=
  match s.current? τ with
  | some (_, a) =>
    match a.next? with
    | some (.eventCb _ _ _) => a.entered
    | _ => false
  | none =>
    match τ with
    | .app _ => true
    | .spawned _ => false

/-- A task enters a call to the outside, or of the component itself. -/
def System.entering (s : System) (τ : Task) (c : Call) : System :=
  let s := { s with flash := s.flash.entering c }
  match c with
  | .otaApiUpdate config => s.call build τ (.otaApiUpdate (some config))
  | .restart => { s with restarted := true }
  | _ => s

/-- A call to the outside returns. -/
def System.answering (s : System) (e : Event) : System :=
  let s := { s with flash := s.flash.answering e }
  match e with
  | ⟨.taskCreate _ _ config, created⟩ => if created then s.spawn build config else s
  | _ => s

/-- The innermost activation of a task is over: `r` goes to the activation that
called it, if it was not the application. -/
def System.leave (s : System) (τ : Task) (r : EspErr) : System :=
  let s := { s with stack := Function.update s.stack τ (s.stack τ).tail }
  match s.current? τ with
  | none => s
  | some (i, a) =>
    match a.prog.turn with
    | .call (.otaApiUpdate _) k =>
      if a.entered then s.put i (a.resume k r) else s
    | _ => s

/-- A task goes on by itself: it returns, goes through a critical section, or
enters its next call. -/
def System.advance (s : System) (τ : Task) : System :=
  match s.current? τ with
  | none => s
  | some (i, a) =>
    match a.prog.turn with
    | .done r => s.leave τ r
    | .call c k =>
      if a.entered then s
      else
        match criticalSection s.slot c with
        | some (answer, slot) => { s.put i (a.resume k answer) with slot := slot }
        | none => (s.put i a.enter).entering build τ c

/-- The call a task is inside of returns. -/
def System.answer (s : System) (τ : Task) (reply : Reply) : System :=
  match s.current? τ with
  | none => s
  | some (i, a) =>
    match a.prog.turn with
    | .done _ => s
    | .call c k =>
      if a.entered then
        match reply.answer? c with
        | some answer => (s.put i (a.resume k answer)).answering build ⟨c, answer⟩
        | none => s
      else s

/-- `ota_api_abort()`; an acceptance falls into a moment of every activation. -/
def System.abort (s : System) : System :=
  let (err, slot) := otaApiAbort s.slot
  if err = espOk then { s with slot := slot, activations := s.activations.map Activation.notice }
  else { s with slot := slot }

def System.step (s : System) (l : Label) : System :=
  if s.restarted then s
  else
    match l with
    | .otaApiUpdate τ config => if s.inApp τ then s.call build τ (.otaApiUpdate config) else s
    | .otaApiStartTask τ config => if s.inApp τ then s.call build τ (.otaApiStartTask config) else s
    | .otaApiAbort τ => if s.inApp τ then s.abort else s
    | .otaApiIsRunning _ => s
    | .advance τ => s.advance build τ
    | .answer τ reply => s.answer build τ reply

/-- The system after one interleaving of steps. -/
def System.run (ls : List Label) : System := exec (System.step build) .initial ls

end Step

/-! ## Interleavings to start from

The labels of one task that takes an update through its stages without a
failure. `config` has a callback, a certificate and no throttle, and the server
sends eight bytes.
-/

section Scenario

/-- A call is entered and comes back. -/
def Label.through (τ : Task) (reply : Reply) : List Label := [.advance τ, .answer τ reply]

/-- From the call of `ota_api_update()` to the accepted image. -/
def admission (τ : Task) (config : OtaApiConfig) : List Label :=
  [.otaApiUpdate τ (some config), .advance τ] ++ Label.through τ (.handle espOk 1) ++
    Label.through τ (.err espOk) ++ Label.through τ (.appDesc espOk ⟨"app", "2"⟩) ++
    Label.through τ (.err espOk) ++ Label.through τ (.int 8)

/-- One chunk of four bytes, after which the download goes on. -/
def chunk (τ : Task) : List Label :=
  Label.through τ (.err espErrHttpsOtaInProgress) ++ [.advance τ] ++ Label.through τ (.int 4) ++
    Label.through τ (.err espOk)

/-- The rest of the image, up to the forced report. -/
def lastChunk (τ : Task) : List Label :=
  Label.through τ (.err espOk) ++ Label.through τ (.flag true) ++ Label.through τ (.int 8)

/-- The forced report is accepted, the image committed, the outcome announced, and
the update returns. -/
def conclusion (τ : Task) : List Label :=
  Label.through τ (.err espOk) ++ Label.through τ (.err espOk) ++ [.advance τ] ++
    Label.through τ (.err espOk) ++ [.advance τ]

/-- A whole update that succeeds. -/
def wholeUpdate (τ : Task) (config : OtaApiConfig) : List Label :=
  admission τ config ++ chunk τ ++ lastChunk τ ++ conclusion τ

def sampleConfig : OtaApiConfig :=
  { otaApiConfigDefault with url := some "https://host/app.bin", certPem := some "pem", eventCb := some 0 }

end Scenario

end OtaApi
