import OtaApi.Trial
import OtaApi.Conversions

/-!
# The trial window

What the trial run is for, without handles and without a list of timers: a window
that is counting down or not, on an image that is on trial or not. Every boot of
the component is a boot of this machine, state by state and result by result.
-/

namespace OtaApi

open Interaction

/-- The seconds a caller asks for, 0 standing for the default. -/
def windowSeconds (build : BuildOptions) (timeoutS : UInt32) : Nat :=
  if timeoutS = 0 then build.otaApiTrialTimeoutS.toNat else timeoutS.toNat

inductive Window where
  | notCreated : Window
  | idle : Window
  | armed : Nat → Window
  deriving DecidableEq, Repr

structure Watch where
  image : Option ImgState
  window : Window
  now : Nat
  rebooted : Bool
  deriving DecidableEq, Repr

namespace Watch

def onTrial (w : Watch) (f : Faults) : Bool :=
  f.getState == espOk && w.image == some .pendingVerify

/-- The window opens, unless the timer does not start. -/
def start (w : Watch) (seconds : Nat) (f : Faults) : Watch × Option EspErr :=
  if f.startOnce = espOk then
    ({ w with window := .armed (w.now + seconds * 1000000) }, some espOk)
  else ({ w with window := .idle }, some f.startOnce)

/-- The window closes, unless the timer does not stop. -/
def stop (w : Watch) (f : Faults) : Watch :=
  match w.window with
  | .armed _ => if f.stop = espOk then { w with window := .idle } else w
  | _ => w

def markValid (w : Watch) (f : Faults) : Watch × Option EspErr :=
  if f.markValid = espOk then
    match w.image with
    | some _ => ({ w with image := some .valid }, some espOk)
    | none => (w, some espFail)
  else (w, some f.markValid)

/-- Nothing is returned when it reboots. -/
def markInvalid (w : Watch) (f : Faults) : Watch × Option EspErr :=
  if f.markInvalid = espOk then
    match w.image with
    | some _ => ({ w with image := some .invalid, rebooted := true }, none)
    | none => (w, some espFail)
  else (w, some f.markInvalid)

def begin (build : BuildOptions) (w : Watch) (timeoutS : UInt32) (f : Faults) :
    Watch × Option EspErr :=
  if w.onTrial f then
    match w.window with
    | .notCreated =>
      if f.create = espOk then w.start (windowSeconds build timeoutS) f else (w, some f.create)
    | .idle => w.start (windowSeconds build timeoutS) f
    | .armed _ => (w, some espErrInvalidState)
  else (w, some espErrInvalidState)

def confirm (w : Watch) (f : Faults) : Watch × Option EspErr :=
  if w.onTrial f then (w.stop f).markValid f else (w, some espErrInvalidState)

def expire (w : Watch) (timer : TimerHandle) (f : Faults) : Watch :=
  match w.window with
  | .armed deadline =>
    if timer = 0 ∧ deadline ≤ w.now then
      if w.onTrial f then ({ w with window := .idle }.markInvalid f).1 else { w with window := .idle }
    else w
  | _ => w

def step (build : BuildOptions) (w : Watch) (e : TrialEvent) : Watch × Option EspErr :=
  if w.rebooted then (w, none)
  else
    match e with
    | .begin timeoutS f => w.begin build timeoutS f
    | .confirm f => w.confirm f
    | .reject f => w.markInvalid f
    | .markValid f => w.markValid f
    | .markInvalid f => w.markInvalid f
    | .expire timer f => (w.expire timer f, none)
    | .tick us => ({ w with now := w.now + us }, none)

def next (build : BuildOptions) (w : Watch) (e : TrialEvent) : Watch := (w.step build e).1

def boot (image : Option ImgState) (now : Nat) : Watch := ⟨image, .notCreated, now, false⟩

def run (build : BuildOptions) (image : Option ImgState) (now : Nat) (es : List TrialEvent) : Watch :=
  exec (Watch.next build) (.boot image now) es

end Watch

/-! ## What one event does -/

def Window.countdown : Window → List Nat
  | .armed deadline => [deadline]
  | _ => []

@[simp] theorem countdown_notCreated : Window.notCreated.countdown = [] := rfl
@[simp] theorem countdown_idle : Window.idle.countdown = [] := rfl
@[simp] theorem countdown_armed (d : Nat) : (Window.armed d).countdown = [d] := rfl

/-- When a begin is accepted. -/
structure Watch.Accepts (w : Watch) (f : Faults) : Prop where
  onTrial : w.onTrial f = true
  quiet : w.window.countdown = []
  created : w.window = .notCreated → f.create = espOk
  started : f.startOnce = espOk

/-- When a timer fires. -/
def Watch.Due (w : Watch) (timer : TimerHandle) : Prop :=
  timer = 0 ∧ ∃ deadline, w.window = .armed deadline ∧ deadline ≤ w.now

/-- Everything an event can do to a boot that is not over, and return. -/
inductive Effect (build : BuildOptions) (w : Watch) : TrialEvent → Watch → Option EspErr → Prop where
  | accepted {timeoutS : UInt32} {f : Faults} (h : w.Accepts f) :
    Effect build w (.begin timeoutS f)
      { w with window := .armed (w.now + windowSeconds build timeoutS * 1000000) } (some espOk)
  | refused {timeoutS : UInt32} {f : Faults} {window : Window} {r : EspErr} (h : ¬ w.Accepts f)
    (hr : r ≠ espOk) (hw : window.countdown = w.window.countdown) :
    Effect build w (.begin timeoutS f) { w with window := window } (some r)
  | confirmed {f : Faults} (h : w.onTrial f = true) (hm : f.markValid = espOk) :
    Effect build w (.confirm f) { w.stop f with image := some .valid } (some espOk)
  | unconfirmed {f : Faults} (h : w.onTrial f = true) (hm : f.markValid ≠ espOk) :
    Effect build w (.confirm f) (w.stop f) (some f.markValid)
  | notOnTrial {f : Faults} (h : w.onTrial f = false) :
    Effect build w (.confirm f) w (some espErrInvalidState)
  | marked {f : Faults} : Effect build w (.markValid f) { w with image := some .valid } (some espOk)
  | markFailed {f : Faults} {r : EspErr} (hr : r ≠ espOk) : Effect build w (.markValid f) w (some r)
  | rejected {f : Faults} :
    Effect build w (.reject f) { w with image := some .invalid, rebooted := true } none
  | rejectFailed {f : Faults} {r : EspErr} (hr : r ≠ espOk) : Effect build w (.reject f) w (some r)
  | invalidated {f : Faults} :
    Effect build w (.markInvalid f) { w with image := some .invalid, rebooted := true } none
  | invalidateFailed {f : Faults} {r : EspErr} (hr : r ≠ espOk) :
    Effect build w (.markInvalid f) w (some r)
  | notDue {timer : TimerHandle} {f : Faults} (h : ¬ w.Due timer) :
    Effect build w (.expire timer f) w none
  | timedOut {timer : TimerHandle} {f : Faults} (h : w.Due timer) :
    Effect build w (.expire timer f) { w with window := .idle } none
  | rolledBack {timer : TimerHandle} {f : Faults} (h : w.Due timer) (ht : w.onTrial f = true) :
    Effect build w (.expire timer f) { w with image := some .invalid, window := .idle, rebooted := true }
      none
  | ticked {us : Nat} : Effect build w (.tick us) { w with now := w.now + us } none

section Effect

variable {build : BuildOptions} {w : Watch} {f : Faults}

theorem begin_effect (timeoutS : UInt32) :
    Effect build w (.begin timeoutS f) (w.begin build timeoutS f).1 (w.begin build timeoutS f).2 := by
  have hinvalid : espErrInvalidState ≠ espOk := by decide
  cases htrial : w.onTrial f with
  | false =>
    simp only [Watch.begin, htrial, Bool.false_eq_true, if_false]
    exact .refused (fun h => by simp [h.onTrial] at htrial) hinvalid rfl
  | true =>
    obtain ⟨image, window, now, rebooted⟩ := w
    cases window with
    | notCreated =>
      by_cases hcreate : f.create = espOk
      · by_cases hstart : f.startOnce = espOk
        · simp only [Watch.begin, htrial, if_true, hcreate, Watch.start, hstart]
          exact .accepted ⟨htrial, rfl, fun _ => hcreate, hstart⟩
        · simp only [Watch.begin, htrial, if_true, hcreate, Watch.start, hstart, if_false]
          exact .refused (fun h => hstart h.started) hstart rfl
      · simp only [Watch.begin, htrial, if_true, hcreate, if_false]
        exact .refused (fun h => hcreate (h.created rfl)) hcreate rfl
    | idle =>
      by_cases hstart : f.startOnce = espOk
      · simp only [Watch.begin, htrial, if_true, Watch.start, hstart]
        exact .accepted ⟨htrial, rfl, nofun, hstart⟩
      · simp only [Watch.begin, htrial, if_true, Watch.start, hstart, if_false]
        exact .refused (fun h => hstart h.started) hstart rfl
    | armed deadline =>
      simp only [Watch.begin, htrial, if_true]
      exact .refused (fun h => nomatch h.quiet) hinvalid rfl

theorem onTrial_iff : w.onTrial f = true ↔ f.getState = espOk ∧ w.image = some .pendingVerify := by
  simp [Watch.onTrial]

@[simp] theorem stop_image : (w.stop f).image = w.image := by
  unfold Watch.stop
  split
  · split <;> rfl
  · rfl

theorem confirm_effect : Effect build w (.confirm f) (w.confirm f).1 (w.confirm f).2 := by
  cases htrial : w.onTrial f with
  | false =>
    simp only [Watch.confirm, htrial, Bool.false_eq_true, if_false]
    exact .notOnTrial htrial
  | true =>
    have himage : (w.stop f).image = some .pendingVerify := by
      rw [stop_image]
      exact (onTrial_iff.mp htrial).2
    by_cases hmark : f.markValid = espOk
    · simp only [Watch.confirm, htrial, if_true, Watch.markValid, hmark, himage]
      exact .confirmed htrial hmark
    · simp only [Watch.confirm, htrial, if_true, Watch.markValid, hmark, if_false]
      exact .unconfirmed htrial hmark

theorem markValid_effect : Effect build w (.markValid f) (w.markValid f).1 (w.markValid f).2 := by
  unfold Watch.markValid
  split
  · split
    · exact .marked
    · exact .markFailed (by decide)
  · rename_i hmark
    exact .markFailed hmark

theorem markInvalid_cases :
    w.markInvalid f = ({ w with image := some .invalid, rebooted := true }, none) ∨
      ∃ r, r ≠ espOk ∧ w.markInvalid f = (w, some r) := by
  unfold Watch.markInvalid
  split
  · split
    · exact .inl rfl
    · exact .inr ⟨espFail, by decide, rfl⟩
  · rename_i hmark
    exact .inr ⟨f.markInvalid, hmark, rfl⟩

theorem expire_effect (timer : TimerHandle) :
    Effect build w (.expire timer f) (w.expire timer f) none := by
  by_cases hdue : w.Due timer
  · obtain ⟨htimer, deadline, hwindow, htime⟩ := id hdue
    simp only [Watch.expire, hwindow, htimer, htime, and_self, if_true]
    cases htrial : w.onTrial f with
    | false => 
      simp only [Bool.false_eq_true, if_false]
      exact .timedOut (htimer ▸ hdue)
    | true =>
      simp only [if_true]
      obtain hmark | ⟨r, _, hmark⟩ := @markInvalid_cases { w with window := .idle } f
      · rw [hmark]
        exact .rolledBack (htimer ▸ hdue) htrial
      · rw [hmark]
        exact .timedOut (htimer ▸ hdue)
  · have hexpire : w.expire timer f = w := by
      unfold Watch.expire
      split
      · rename_i deadline hwindow
        rw [if_neg (fun h => hdue ⟨h.1, deadline, hwindow, h.2⟩)]
      · rfl
    rw [hexpire]
    exact .notDue hdue

theorem step_effect (hlive : w.rebooted = false) (e : TrialEvent) :
    Effect build w e (w.next build e) (w.step build e).2 := by
  unfold Watch.next Watch.step
  rw [if_neg (by simp [hlive])]
  cases e with
  | begin timeoutS f => exact begin_effect timeoutS
  | confirm f => exact confirm_effect
  | reject f =>
    obtain hmark | ⟨r, hr, hmark⟩ := @markInvalid_cases w f
    · simp only [hmark]
      exact .rejected
    · simp only [hmark]
      exact .rejectFailed hr
  | markValid f => exact markValid_effect
  | markInvalid f =>
    obtain hmark | ⟨r, hr, hmark⟩ := @markInvalid_cases w f
    · simp only [hmark]
      exact .invalidated
    · simp only [hmark]
      exact .invalidateFailed hr
  | expire timer f => exact expire_effect timer
  | tick us => exact .ticked

/-- Nothing happens any more once the device has rebooted. -/
theorem step_over (hover : w.rebooted = true) (e : TrialEvent) : w.step build e = (w, none) := by
  unfold Watch.step
  rw [if_pos hover]

end Effect

/-! ## The component is this machine -/

def Window.timers : Window → List (Option Nat)
  | .notCreated => []
  | .idle => [none]
  | .armed deadline => [some deadline]

def Window.handle : Window → Option TimerHandle
  | .notCreated => none
  | .idle => some 0
  | .armed _ => some 0

@[simp] theorem timers_notCreated : Window.notCreated.timers = [] := rfl
@[simp] theorem timers_idle : Window.idle.timers = [none] := rfl
@[simp] theorem timers_armed (d : Nat) : (Window.armed d).timers = [some d] := rfl
@[simp] theorem handle_notCreated : Window.notCreated.handle = none := rfl
@[simp] theorem handle_idle : Window.idle.handle = some 0 := rfl
@[simp] theorem handle_armed (d : Nat) : (Window.armed d).handle = some 0 := rfl

/-- The component and the device in a state of the machine. -/
def Watch.device (w : Watch) : Device where
  image := w.image
  timers := w.window.timers
  now := w.now
  rebooted := w.rebooted

def Watch.trial (w : Watch) : Trial where
  device := w.device
  sTrialTimer := w.window.handle

section Refinement

variable {build : BuildOptions} {w : Watch} {f : Faults} {α : Type} {n : Nat}

/-- The product is taken in 64 bits, where no 32-bit factor can make it wrap. -/
theorem micros_toNat (timeoutS : UInt32) :
    (timeoutS.toUInt64 * 1000000).toNat = timeoutS.toNat * 1000000 := by
  have hcomputes := countdown_computes { timeoutS := timeoutS }
  exact Int.ofNat_inj.mp hcomputes.eq

/-- How an operation goes on once the state of the image has been read. -/
theorem execute_isOnTrial (hlive : w.rebooted = false) (k : Bool → TrialProgram α) :
    (otaApiIsOnTrial >>= k).execute (Device.answer f) Device.rebooted (n + 1) w.device =
      (k (w.onTrial f)).execute (Device.answer f) Device.rebooted n w.device := by
  obtain ⟨image, window, now, rebooted⟩ := w
  subst hlive
  have hon : Watch.onTrial ⟨image, window, now, false⟩ f =
      if f.getState = espOk then image == some .pendingVerify else false := by
    simp only [Watch.onTrial]
    split <;> simp_all
  rw [hon]
  by_cases hget : f.getState = espOk
  · cases image <;>
      simp [otaApiIsOnTrial, trialAsk, Device.answer, Device.respond, Watch.device, Faults.of, hget,
        espOk, espErrNotSupported]
  · simp [otaApiIsOnTrial, trialAsk, Device.answer, Device.respond, Watch.device, Faults.of, hget]

/-- How it ends once there is a timer that is not running. -/
theorem execute_trialStart (hlive : w.rebooted = false) (hidle : w.window = .idle)
    (timeoutS : UInt32) :
    (trialStart 0 timeoutS).execute (Device.answer f) Device.rebooted (n + 1) w.device =
      some ((w.start timeoutS.toNat f).1.device, (w.start timeoutS.toNat f).2.map
        fun err => (err, (w.start timeoutS.toNat f).1.window.handle)) := by
  obtain ⟨image, window, now, rebooted⟩ := w
  subst hlive hidle
  by_cases hstart : f.startOnce = espOk <;>
    simp [trialStart, trialAsk, Device.answer, Device.respond, Watch.device, Watch.start, Faults.of,
      hstart, micros_toNat, -UInt64.toNat_mul, -bind_pure_comp]

theorem windowSeconds_eq (timeoutS : UInt32) :
    windowSeconds build timeoutS =
      (if timeoutS = 0 then build.otaApiTrialTimeoutS else timeoutS).toNat := by
  unfold windowSeconds
  split <;> rfl

theorem perform_begin (hlive : w.rebooted = false) (timeoutS : UInt32) :
    w.device.perform f (otaApiTrialBegin build w.window.handle timeoutS) =
      some ((w.begin build timeoutS f).1.device, (w.begin build timeoutS f).2.map
        fun err => (err, (w.begin build timeoutS f).1.window.handle)) := by
  unfold Device.perform otaApiTrialBegin Watch.begin
  rw [execute_isOnTrial hlive, windowSeconds_eq]
  by_cases htrial : w.onTrial f
  · obtain ⟨image, window, now, rebooted⟩ := w
    subst hlive
    cases window with
    | notCreated =>
      by_cases hcreate : f.create = espOk
      · have hidle := @execute_trialStart ⟨image, .idle, now, false⟩ f 0 rfl rfl
          (if timeoutS = 0 then build.otaApiTrialTimeoutS else timeoutS)
        simpa [htrial, trialAsk, Device.answer, Device.respond, Watch.device, Faults.of, hcreate,
          Watch.start] using hidle
      · simp [htrial, trialAsk, Device.answer, Device.respond, Watch.device, Faults.of, hcreate]
    | idle =>
      have hidle := @execute_trialStart ⟨image, .idle, now, false⟩ f 1 rfl rfl
        (if timeoutS = 0 then build.otaApiTrialTimeoutS else timeoutS)
      simpa [htrial] using hidle
    | armed deadline =>
      simp [htrial, trialStart, trialAsk, Device.answer, Device.respond, Watch.device, -bind_pure_comp]
  · simp [htrial]

theorem execute_markValid (hlive : w.rebooted = false) :
    (trialAsk .otaMarkAppValidCancelRollback).execute (Device.answer f) Device.rebooted (n + 1) w.device =
      some ((w.markValid f).1.device, (w.markValid f).2) := by
  obtain ⟨image, window, now, rebooted⟩ := w
  subst hlive
  by_cases hmark : f.markValid = espOk
  · cases image <;>
      simp [trialAsk, Device.answer, Device.respond, Watch.device, Watch.markValid, Faults.of, hmark]
  · simp [trialAsk, Device.answer, Device.respond, Watch.device, Watch.markValid, Faults.of, hmark]

theorem execute_markInvalid (hlive : w.rebooted = false) :
    (trialAsk .otaMarkAppInvalidRollbackAndReboot).execute (Device.answer f) Device.rebooted (n + 1) w.device =
      some ((w.markInvalid f).1.device, (w.markInvalid f).2) := by
  obtain ⟨image, window, now, rebooted⟩ := w
  subst hlive
  by_cases hmark : f.markInvalid = espOk
  · cases image <;>
      simp [trialAsk, Device.answer, Device.respond, Watch.device, Watch.markInvalid, Faults.of, hmark]
  · simp [trialAsk, Device.answer, Device.respond, Watch.device, Watch.markInvalid, Faults.of, hmark]

theorem perform_confirm (hlive : w.rebooted = false) :
    w.device.perform f (otaApiTrialConfirm w.window.handle) =
      some ((w.confirm f).1.device, (w.confirm f).2) := by
  unfold Device.perform otaApiTrialConfirm Watch.confirm
  rw [execute_isOnTrial hlive]
  by_cases htrial : w.onTrial f
  · obtain ⟨image, window, now, rebooted⟩ := w
    subst hlive
    cases window with
    | notCreated =>
      have hmark := @execute_markValid ⟨image, .notCreated, now, false⟩ f 1 rfl
      simpa [htrial, Watch.stop] using hmark
    | idle =>
      have hmark := @execute_markValid ⟨image, .idle, now, false⟩ f 0 rfl
      simpa [htrial, Watch.stop, trialAsk, Device.answer, Device.respond, Watch.device] using hmark
    | armed deadline =>
      by_cases hstop : f.stop = espOk
      · have hmark := @execute_markValid ⟨image, .idle, now, false⟩ f 0 rfl
        simpa [htrial, Watch.stop, trialAsk, Device.answer, Device.respond, Watch.device, Faults.of,
          hstop] using hmark
      · have hmark := @execute_markValid ⟨image, .armed deadline, now, false⟩ f 0 rfl
        simpa [htrial, Watch.stop, trialAsk, Device.answer, Device.respond, Watch.device, Faults.of,
          hstop] using hmark
  · simp [htrial]

/-- The callback returns nothing, so only the device it leaves matters. -/
theorem perform_timeout (hlive : w.rebooted = false) :
    ∃ r, w.device.perform f trialTimeout =
      some ((if w.onTrial f then (w.markInvalid f).1 else w).device, r) := by
  unfold Device.perform trialTimeout
  rw [execute_isOnTrial hlive]
  by_cases htrial : w.onTrial f
  · have hmark := @execute_markInvalid w f 1 hlive
    rw [trialAsk, Prog.execute_ask] at hmark
    simp only [htrial, if_true, Bool.not_true, Bool.false_eq_true, if_false, trialAsk,
      Prog.execute_ask_bind, Prog.execute_pure]
    split at hmark
    · rename_i hhalt
      rw [if_pos hhalt]
      exact ⟨none, by rw [(Prod.mk.inj (Option.some.inj hmark)).1]⟩
    · rename_i hhalt
      rw [if_neg hhalt]
      exact ⟨some (), by rw [(Prod.mk.inj (Option.some.inj hmark)).1]⟩
  · exact ⟨some (), by simp [htrial]⟩

theorem dispatch_device (timer : TimerHandle) :
    w.device.dispatch timer =
      match w.window with
      | .armed deadline =>
        if timer = 0 ∧ deadline ≤ w.now then some { w with window := .idle : Watch }.device else none
      | _ => none := by
  obtain ⟨image, window, now, rebooted⟩ := w
  cases window with
  | notCreated => simp [Watch.device, Device.dispatch]
  | idle => cases timer <;> simp [Watch.device, Device.dispatch]
  | armed deadline =>
    cases timer with
    | zero => by_cases hdue : deadline ≤ now <;> simp [Watch.device, Device.dispatch, hdue]
    | succ n => simp [Watch.device, Device.dispatch]

@[simp] theorem markValid_window : (w.markValid f).1.window = w.window := by
  unfold Watch.markValid
  split
  · split <;> rfl
  · rfl

@[simp] theorem markInvalid_window : (w.markInvalid f).1.window = w.window := by
  unfold Watch.markInvalid
  split
  · split <;> rfl
  · rfl

theorem stop_handle : (w.stop f).window.handle = w.window.handle := by
  unfold Watch.stop
  split
  · rename_i hwindow
    split <;> simp [hwindow]
  · rfl

theorem confirm_handle : (w.confirm f).1.window.handle = w.window.handle := by
  unfold Watch.confirm
  split
  · rw [markValid_window, stop_handle]
  · rfl

/-- An operation that leaves the handle alone leaves a state of the machine. -/
theorem trial_after {v : Watch} (h : v.window.handle = w.window.handle) (r : Option α) :
    w.trial.after (some (v.device, r)) = (v.trial, r) := by
  simp [Trial.after, Watch.trial, h]

theorem begin_returns (timeoutS : UInt32) : ∃ err, (w.begin build timeoutS f).2 = some err := by
  unfold Watch.begin Watch.start
  repeat' split
  all_goals exact ⟨_, rfl⟩

theorem begin_refines (hlive : w.rebooted = false) (timeoutS : UInt32) :
    w.trial.step build (.begin timeoutS f) =
      ((w.begin build timeoutS f).1.trial, (w.begin build timeoutS f).2) := by
  obtain ⟨err, herr⟩ := @begin_returns build w f timeoutS
  have hperform := @perform_begin build w f hlive timeoutS
  rw [herr] at hperform ⊢
  have hdevice : w.trial.device = w.device := rfl
  have htimer : w.trial.sTrialTimer = w.window.handle := rfl
  simp only [Trial.step, hdevice, htimer, hperform]
  simp [Watch.device, hlive, Trial.after, Watch.trial]

theorem expire_refines (hlive : w.rebooted = false) (timer : TimerHandle) :
    w.trial.step build (.expire timer f) = ((w.expire timer f).trial, none) := by
  have hdevice : w.trial.device = w.device := rfl
  have hreboot : w.device.rebooted = false := hlive
  simp only [Trial.step, hdevice, hreboot, dispatch_device, Watch.expire]
  obtain ⟨image, window, now, rebooted⟩ := w
  cases window with
  | notCreated => rfl
  | idle => rfl
  | armed deadline =>
    by_cases hdue : timer = 0 ∧ deadline ≤ now
    · obtain ⟨r, hr⟩ := @perform_timeout ⟨image, .idle, now, rebooted⟩ f hlive
      simp only [hdue, and_self, if_true, Bool.false_eq_true, if_false, hr]
      rw [trial_after]
      · rfl
      · split <;> simp
    · simp [hdue]

/-- One event does to the component what it does to the machine, and returns the same. -/
theorem step_refines (e : TrialEvent) :
    w.trial.step build e = ((w.step build e).1.trial, (w.step build e).2) := by
  cases hlive : w.rebooted with
  | true => simp [Trial.step, Watch.step, Watch.trial, Watch.device, hlive]
  | false =>
    have hreboot : w.trial.device.rebooted = false := hlive
    cases e with
    | begin timeoutS f =>
      rw [begin_refines hlive, Watch.step, if_neg (by simp [hlive])]
    | confirm f =>
      rw [Trial.step, Watch.step, if_neg (by simp [hreboot]), if_neg (by simp [hlive])]
      have hperform := @perform_confirm w f hlive
      exact (congrArg _ hperform).trans (trial_after confirm_handle _)
    | reject f =>
      rw [Trial.step, Watch.step, if_neg (by simp [hreboot]), if_neg (by simp [hlive])]
      have hmark := @execute_markInvalid w f 2 hlive
      exact (congrArg _ hmark).trans (trial_after (congrArg _ markInvalid_window) _)
    | markValid f =>
      rw [Trial.step, Watch.step, if_neg (by simp [hreboot]), if_neg (by simp [hlive])]
      have hmark := @execute_markValid w f 2 hlive
      exact (congrArg _ hmark).trans (trial_after (congrArg _ markValid_window) _)
    | markInvalid f =>
      rw [Trial.step, Watch.step, if_neg (by simp [hreboot]), if_neg (by simp [hlive])]
      have hmark := @execute_markInvalid w f 2 hlive
      exact (congrArg _ hmark).trans (trial_after (congrArg _ markInvalid_window) _)
    | expire timer f =>
      rw [expire_refines hlive, Watch.step, if_neg (by simp [hlive])]
    | tick us => simp [Trial.step, Watch.step, hlive, Watch.trial, Watch.device]

theorem next_refines (e : TrialEvent) : w.trial.next build e = (w.next build e).trial := by
  unfold Trial.next Watch.next
  rw [step_refines]

/-- So every boot of the component is a boot of the machine. -/
theorem run_refines (image : Option ImgState) (now : Nat) (es : List TrialEvent) :
    Trial.run build image now es = (Watch.run build image now es).trial := by
  have hboot : Trial.boot image now = (Watch.boot image now).trial := rfl
  unfold Trial.run Watch.run exec
  rw [hboot]
  apply List.foldl_hom Watch.trial
  intro w e
  exact next_refines e

end Refinement

end OtaApi
