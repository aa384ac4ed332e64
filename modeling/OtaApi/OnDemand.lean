import OtaApi.CText
import OtaApi.Interaction.Handoff
import OtaApi.Tasks

/-!
# The on-demand application

`examples/on_demand/main/main.c`: a console task takes the command `ota [url]`, and a
worker task makes the blocking call. They share a buffer for the URL, a flag and a
binary semaphore. Every access to one of these is a step of its own, the buffer being
written byte by byte, and the steps of the two tasks come in any order.
-/

namespace OtaApi.OnDemand

open Interaction CText

/-- `OTA_URL_SIZE` -/
def otaUrlSize : Nat := 256

/-- The build, with the options of the example's `Kconfig`. -/
structure Options where
  build : BuildOptions
  exampleDefaultFirmwareUpgradeUrl : Str
  exampleSkipCommonNameCheck : Bool

/-- The task that runs `ota_worker_task()`; the console is another. -/
def otaWorker : Task := .app 1

/-- Where `ota_worker_task()` is: in `xSemaphoreTake()`, past it, in
`ota_api_update()`, or back from it. -/
inductive Worker where
  | waiting : Worker
  | requested : Worker
  | updating : Worker
  | returned : EspErr → Worker
  deriving DecidableEq, Repr

/-- Where the console is: at its prompt, or in `cmd_ota()` with its `url`, past the look
at the flag, in `snprintf()`, past it, past the `printf()`, or past the store of the flag. -/
inductive Console where
  | prompt : Console
  | admitted : Str → Console
  | copying : Str → Nat → Console
  | copied : Str → Console
  | announced : Str → Console
  | flagged : Str → Console
  deriving DecidableEq, Repr

/-- The variables of the file, what the two tasks are doing, what the console has
printed, and what each command came back with. -/
structure State where
  system : System
  sOtaRequest : Bool
  sOtaUrl : Buffer otaUrlSize
  sOtaRunning : Bool
  worker : Worker
  console : Console
  printed : List String
  codes : List (Str × Int32)
  restarted : Bool

def State.initial : State where
  system := .initial
  sOtaRequest := false
  sOtaUrl := .zeroed otaUrlSize
  sOtaRunning := false
  worker := .waiting
  console := .prompt
  printed := []
  codes := []
  restarted := false

/-- A command line `ota [url]`, one step of the console or of the worker, or the return
of what the update of the worker has called. -/
inductive Label where
  | cmdOta : Option Str → Label
  | console : Label
  | worker : Label
  | answer : Reply → Label

section Step

variable (o : Options)

/-- `ota_config`, whose `url` points to what `s_ota_url` holds. -/
def Options.otaConfig (url : Str) : OtaApiConfig :=
  { otaApiConfigDefault with
    skipCommonNameCheck := o.exampleSkipCommonNameCheck
    url := some url.text }

/-- `cmd_ota()` up to its look at `s_ota_running`. -/
def State.cmdOta (s : State) (url : Str) : State :=
  if s.sOtaRunning then
    { s with
      printed := s.printed ++ ["An update is already running\n"]
      codes := s.codes ++ [(url, 1)] }
  else { s with console := .admitted url }

/-- The rest of `cmd_ota()`, step by step. -/
def State.cmdOtaNext (s : State) : State :=
  match s.console with
  | .prompt => s
  | .admitted url =>
    if otaUrlSize ≤ url.strlen then
      { s with
        console := .prompt
        printed := s.printed ++
          ["URL is longer than the " ++ toString (otaUrlSize - 1) ++ " character limit\n"]
        codes := s.codes ++ [(url, 1)] }
    else { s with console := .copying url 0 }
  | .copying url k =>
    match s.sOtaUrl.snprintfByte url k with
    | (buf, some k') => { s with sOtaUrl := buf, console := .copying url k' }
    | (buf, none) => { s with sOtaUrl := buf, console := .copied url }
  | .copied url =>
    { s with
      console := .announced url
      printed := s.printed ++ ["Requesting update from " ++ s.sOtaUrl.str.text ++ "\n"] }
  | .announced url => { s with console := .flagged url, sOtaRunning := true }
  | .flagged url =>
    { s with
      console := .prompt
      sOtaRequest := true
      codes := s.codes ++ [(url, 0)] }

/-- What the update that the worker is in has come to, if it is at its end. -/
def State.updateResult? (s : State) : Option EspErr :=
  (s.system.current? otaWorker).bind fun (_, a) => a.result?

/-- One step of `ota_worker_task()`. -/
def State.otaWorkerTask (s : State) : State :=
  match s.worker with
  | .waiting => if s.sOtaRequest then { s with sOtaRequest := false, worker := .requested } else s
  | .requested =>
    { s with
      worker := .updating
      system := s.system.step o.build (.otaApiUpdate otaWorker (some (o.otaConfig s.sOtaUrl.str))) }
  | .updating =>
    { s with
      worker := (s.updateResult?.map Worker.returned).getD .updating
      system := s.system.step o.build (.advance otaWorker) }
  | .returned err =>
    if err ≠ espOk then { s with sOtaRunning := false, worker := .waiting }
    else { s with restarted := true }

def State.step (s : State) (l : Label) : State :=
  if s.restarted then s
  else
    match l with
    | .cmdOta arg =>
      if s.console = .prompt then s.cmdOta (arg.getD o.exampleDefaultFirmwareUpgradeUrl) else s
    | .console => s.cmdOtaNext
    | .worker => s.otaWorkerTask o
    | .answer reply =>
      if s.worker = .updating then
        { s with system := s.system.step o.build (.answer otaWorker reply) }
      else s

/-- The application after one interleaving of steps. -/
def run (ls : List Label) : State := exec (State.step o) .initial ls

/-- What a step does to the place in which the URL is handed over. -/
def observe (s : State) (l : Label) : Option (Handover Str) :=
  if s.restarted then none
  else
    match l with
    | .cmdOta _ => if s.console = .prompt ∧ s.sOtaRunning = false then some .opened else none
    | .console =>
      match s.console with
      | .admitted url => if otaUrlSize ≤ url.strlen then some .withdrawn else none
      | .flagged url => some (.offered url)
      | _ => none
    | .worker =>
      match s.worker with
      | .requested => some (.taken s.sOtaUrl.str)
      | .returned err => if err ≠ espOk then some .settled else none
      | _ => none
    | .answer _ => none

/-- The events of a run: the commands let in and turned away, the URLs they were given,
and the URLs the worker called the update with. -/
def events (ls : List Label) : List (Handover Str) := observed (State.step o) observe .initial ls

end Step

end OtaApi.OnDemand
