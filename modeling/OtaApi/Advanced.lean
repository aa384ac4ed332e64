import OtaApi.CText
import OtaApi.Interaction.Handoff
import OtaApi.Tasks

/-!
# The advanced application

`examples/advanced/main/main.c`: the console starts updates in the background, and one
callback does everything else about them. The command `ota`, the tasks of the updates
and the callback on them share a buffer for the URL and two flags. Every access to one
of these is a step of its own, and the callback takes its time between what it does and
its return.
-/

namespace OtaApi.Advanced

open Interaction CText

/-- `OTA_URL_SIZE` -/
def otaUrlSize : Nat := 256

/-- The build, the options of the example's `Kconfig`, and what the running firmware says
of itself. -/
structure Options where
  build : BuildOptions
  exampleDefaultFirmwareUpgradeUrl : Str
  exampleProgressIntervalMs : UInt32
  exampleHttpRequestSize : UInt32
  exampleSkipCommonNameCheck : Bool
  appDescription : EspAppDesc
  espErrToName : EspErr → String

/-- The task of the console. -/
def consoleTask : Task := .app 0

/-- What a command line asks for. -/
abbrev Request := Str × Bool

/-- Where the console is: at its prompt, or in `cmd_ota()`: past `argv`, past
`s_ota_pending`, past `ota_api_is_running()`, in `snprintf()`, past it, past the store of
`s_force_update`, past the store of `s_ota_pending`, in `ota_api_start_task()`, or back
from it. -/
inductive Console where
  | prompt : Console
  | parsed : Request → Console
  | unclaimed : Request → Console
  | admitted : Request → Console
  | copying : Request → Nat → Console
  | copied : Request → Console
  | forced : Request → Console
  | flagged : Request → Console
  | starting : Request → Console
  | started : Request → EspErr → Console
  deriving DecidableEq, Repr

/-- The variables of the file, what the console is doing, for each task created the verdict
its callback is about to return, and what each command came back with. -/
structure State where
  system : System
  sOtaUrl : Buffer otaUrlSize
  sForceUpdate : Bool
  sOtaPending : Bool
  sDownloadStartUs : Int64
  console : Console
  verdict : Nat → Option EspErr
  printed : List String
  codes : List (Request × Int32)

def State.initial : State where
  system := .initial
  sOtaUrl := .zeroed otaUrlSize
  sForceUpdate := false
  sOtaPending := false
  sDownloadStartUs := 0
  console := .prompt
  verdict _ := none
  printed := []
  codes := []

/-- A command line, `argv` without its first entry; one step of the console; what the
console is waiting for comes back; and the same for a task that was created, whose
callback runs and returns by itself. -/
inductive Label where
  | cmdOta : List Str → Label
  | cmdAbort : Label
  | cmdStatus : Bool → Label
  | console : Label
  | consoleAnswer : Reply → Label
  | task : Nat → Label
  | taskAnswer : Nat → Reply → Label
  | callback : Nat → Int64 → Label
  | callbackReturn : Nat → Label

section Step

variable (o : Options)

def force : List Char := ['f', 'o', 'r', 'c', 'e']

/-- One pass of the loop over `argv`; `strcmp()` tells equal strings. -/
def parseArg (r : Request) (arg : Str) : Request :=
  if arg.chars = force then (r.1, true) else (arg, r.2)

def parseArgs (args : List Str) : Request :=
  args.foldl parseArg (o.exampleDefaultFirmwareUpgradeUrl, false)

/-- `ota_config`, whose `url` points to what `s_ota_url` holds. -/
def Options.otaConfig (url : Str) : OtaApiConfig :=
  { otaApiConfigDefault with
    url := some url.text
    eventCb := some 0
    progressIntervalMs := o.exampleProgressIntervalMs
    partialDownload := true
    maxHttpRequestSize := o.exampleHttpRequestSize
    skipCommonNameCheck := o.exampleSkipCommonNameCheck }

/-- What `ota_api_start_task()` has come to, if it is at its end. -/
def State.startResult? (s : State) : Option EspErr :=
  (s.system.current? consoleTask).bind fun (_, a) => a.result?

def State.refuse (s : State) (r : Request) (message : String) : State :=
  { s with
    console := .prompt
    printed := s.printed ++ [message]
    codes := s.codes ++ [(r, 1)] }

/-- `cmd_ota()` after `argv`, step by step. -/
def State.cmdOtaNext (s : State) : State :=
  match s.console with
  | .prompt => s
  | .parsed r =>
    if s.sOtaPending then
      s.refuse r "An update is already running. Use 'abort' to stop it.\n"
    else { s with console := .unclaimed r }
  | .unclaimed r =>
    if otaApiIsRunning s.system.slot then
      s.refuse r "An update is already running. Use 'abort' to stop it.\n"
    else { s with console := .admitted r }
  | .admitted r =>
    if otaUrlSize ≤ r.1.strlen then
      s.refuse r ("URL is longer than the " ++ toString (otaUrlSize - 1) ++ " character limit\n")
    else { s with console := .copying r 0 }
  | .copying r k =>
    match s.sOtaUrl.snprintfByte r.1 k with
    | (buf, some k') => { s with sOtaUrl := buf, console := .copying r k' }
    | (buf, none) => { s with sOtaUrl := buf, console := .copied r }
  | .copied r => { s with sForceUpdate := r.2, console := .forced r }
  | .forced r => { s with sOtaPending := true, console := .flagged r }
  | .flagged r =>
    { s with
      console := .starting r
      system := s.system.step o.build
        (.otaApiStartTask consoleTask (some (o.otaConfig s.sOtaUrl.str))) }
  | .starting r =>
    { s with
      console := (s.startResult?.map (Console.started r)).getD (.starting r)
      system := s.system.step o.build (.advance consoleTask) }
  | .started r err =>
    if err ≠ espOk then
      { s with
        console := .prompt
        sOtaPending := false
        printed := s.printed ++ ["Could not start the update: " ++ o.espErrToName err ++ "\n"]
        codes := s.codes ++ [(r, 1)] }
    else
      { s with
        console := .prompt
        printed := s.printed ++ ["Starting update from " ++ s.sOtaUrl.str.text ++
          (if r.2 then " (forced)" else "") ++ "\n"]
        codes := s.codes ++ [(r, 0)] }

def State.cmdAbort (s : State) : State :=
  { s with
    printed := s.printed ++
      [if (otaApiAbort s.system.slot).1 ≠ espOk then "No update is running\n"
        else "Stop requested, unwinding...\n"]
    system := s.system.step o.build (.otaApiAbort consoleTask) }

def yesNo (b : Bool) : String := if b then "yes" else "no"

/-- What `ota_api_is_on_trial()` says comes from the other half of the component. -/
def State.cmdStatus (s : State) (onTrial : Bool) : State :=
  { s with
    printed := s.printed ++
      ["update running    : " ++ yesNo (otaApiIsRunning s.system.slot) ++ "\n",
        "awaiting confirm  : " ++ yesNo onTrial ++ "\n"] }

/-- The event a task has called `event_cb` with. -/
def State.event? (s : State) (n : Nat) : Option OtaApiEvent :=
  (s.system.current? (.spawned n)).bind fun (_, a) =>
    match a.next? with
    | some (.eventCb _ event _) => if a.entered then some event else none
    | _ => none

/-- The version of the offered image is the one that is running already;
`sizeof(new_app->version)` is 32. -/
def sameVersion (newApp : EspAppDesc) : Bool :=
  strncmp 32 newApp.version.toList o.appDescription.version.toList == 0

/-- What `on_ota_event_cb()` returns. -/
def onOtaEventCbVerdict (sForceUpdate : Bool) : OtaApiEvent → EspErr
  | .imageDesc newApp =>
    if !sForceUpdate && sameVersion o newApp then espErrOtaValidateFailed else espOk
  | _ => espOk

/-- What `on_ota_event_cb()` does before that. The date and the time of an image are not
kept here, nor is the bar that is printed for `OTA_API_EVENT_PROGRESS`. -/
def State.onOtaEventCb (s : State) (n : Nat) (event : OtaApiEvent) (nowUs : Int64) : State :=
  let s := { s with
    verdict := Function.update s.verdict n (some (onOtaEventCbVerdict o s.sForceUpdate event)) }
  match event with
  | .started => { s with sDownloadStartUs := nowUs }
  | .imageDesc newApp =>
    { s with
      printed := s.printed ++
        ["\n  offered : " ++ newApp.projectName ++ " version " ++ newApp.version ++ "\n",
          "  running : " ++ o.appDescription.projectName ++ " version " ++
            o.appDescription.version ++ "\n"] ++
        (if !s.sForceUpdate && sameVersion o newApp then
          ["  same version already running, refusing. Use 'ota <url> force' to install anyway.\n"]
        else []) }
  | .progress _ => s
  | .succeeded =>
    { s with printed := s.printed ++ ["\n  update stored. Rebooting into it for its trial run.\n"] }
  | .failed err =>
    { s with
      sOtaPending := false
      printed := s.printed ++ ["\n  update did not complete: " ++ o.espErrToName err ++ "\n"] }

def State.step (s : State) (l : Label) : State :=
  if s.system.restarted then s
  else
    match l with
    | .cmdOta args => if s.console = .prompt then { s with console := .parsed (parseArgs o args) } else s
    | .cmdAbort => if s.console = .prompt then s.cmdAbort o else s
    | .cmdStatus onTrial => if s.console = .prompt then s.cmdStatus onTrial else s
    | .console => s.cmdOtaNext o
    | .consoleAnswer reply =>
      match s.console with
      | .starting _ => { s with system := s.system.step o.build (.answer consoleTask reply) }
      | _ => s
    | .task n => { s with system := s.system.step o.build (.advance (.spawned n)) }
    | .taskAnswer n reply =>
      match s.event? n with
      | some _ => s
      | none => { s with system := s.system.step o.build (.answer (.spawned n) reply) }
    | .callback n nowUs =>
      match s.event? n, s.verdict n with
      | some event, none => s.onOtaEventCb o n event nowUs
      | _, _ => s
    | .callbackReturn n =>
      match s.verdict n with
      | some v =>
        { s with
          verdict := Function.update s.verdict n none
          system := s.system.step o.build (.answer (.spawned n) (.err v)) }
      | none => s

/-- The application after one interleaving of steps. -/
def run (ls : List Label) : State := exec (State.step o) .initial ls

/-- The console is given the task it has asked for. -/
def State.creates (s : State) (reply : Reply) : Bool :=
  match s.system.current? consoleTask with
  | some (_, a) =>
    match a.next? with
    | some (.taskCreate _ _ _) => a.entered && reply == .flag true
    | _ => false
  | none => false

/-- A task is about to call `ota_api_update()`. -/
def State.calls (s : State) (n : Nat) : Bool :=
  match s.system.current? (.spawned n) with
  | some (_, b) =>
    match b.next? with
    | some (.otaApiUpdate _) => !b.entered
    | _ => false
  | none => false

/-- What a step does to the place in which the request is handed over. An update reads
the URL where its configuration points to, and the callback reads the flag. -/
def observe (s : State) (l : Label) : Option (Handover Request) :=
  if s.system.restarted then none
  else
    match l with
    | .console =>
      match s.console with
      | .unclaimed _ => if otaApiIsRunning s.system.slot then none else some .opened
      | .admitted r => if otaUrlSize ≤ r.1.strlen then some .withdrawn else none
      | .started _ err => if err ≠ espOk then some .withdrawn else none
      | _ => none
    | .consoleAnswer reply =>
      match s.console with
      | .starting r => if s.creates reply then some (.offered r) else none
      | _ => none
    | .task n => if s.calls n then some (.taken (s.sOtaUrl.str, s.sForceUpdate)) else none
    | .callback n _ =>
      match s.event? n, s.verdict n with
      | some (.failed _), none => some .settled
      | _, _ => none
    | _ => none

def events (ls : List Label) : List (Handover Request) := observed (State.step o) observe .initial ls

end Step

/-- The last argument that is not `force` is the URL, and `force` may stand anywhere. -/
theorem parseArgs_eq (o : Options) (args : List Str) :
    parseArgs o args =
      (((args.filter fun arg => arg.chars ≠ force).getLast?).getD o.exampleDefaultFirmwareUpgradeUrl,
        args.any fun arg => arg.chars = force) := by
  have general : ∀ (args : List Str) (r : Request), args.foldl parseArg r =
      (((args.filter fun arg => arg.chars ≠ force).getLast?).getD r.1,
        r.2 || args.any fun arg => arg.chars = force) := by
    intro args
    induction args with
    | nil =>
      intro r
      simp
    | cons arg args ih =>
      intro r
      rw [List.foldl_cons, ih]
      by_cases harg : arg.chars = force
      · simp [parseArg, harg]
      · have hlast : ∀ l : List Str, (arg :: l).getLast?.getD r.1 = l.getLast?.getD arg := by
          intro l
          cases l <;> simp [List.getLast?_cons]
        simp [parseArg, harg, hlast]
  rw [parseArgs, general, Bool.false_or]

end OtaApi.Advanced
