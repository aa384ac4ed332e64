import OtaApi.Interaction.Run
import OtaApi.Trial

/-!
# The timeout against the application

The callback runs on the `esp_timer` task while the application begins and confirms,
one ESP-IDF call at a time and in any order. `esp_timer_stop()` does not reach a
callback that has been dispatched. Nothing the callback reads after the image was
marked valid makes it roll back; one that had read before it does.
-/

namespace OtaApi

open Interaction

instance : (c : TrialCall) → DecidableEq (TrialAnswer c)
  | .otaGetStatePartition => inferInstanceAs (DecidableEq (EspErr × ImgState))
  | .timerCreate => inferInstanceAs (DecidableEq (EspErr × TimerHandle))
  | .timerStartOnce _ _ => inferInstanceAs (DecidableEq EspErr)
  | .timerStop _ => inferInstanceAs (DecidableEq EspErr)
  | .otaMarkAppValidCancelRollback => inferInstanceAs (DecidableEq EspErr)
  | .otaMarkAppInvalidRollbackAndReboot => inferInstanceAs (DecidableEq EspErr)

abbrev TrialStep := Interaction.Event TrialCall TrialAnswer

/-! ## Two tasks -/

/-- What the application task is in the middle of. -/
inductive AppOperation where
  | begin : TrialProgram (EspErr × Option TimerHandle) → AppOperation
  | confirm : TrialProgram EspErr → AppOperation

/-- What has happened: a call of either task came back, or an operation returned. -/
inductive Entry where
  | app : TrialStep → Entry
  | timer : TrialStep → Entry
  | begun : EspErr → Entry
  | confirmed : EspErr → Entry
  deriving DecidableEq

/-- `s_trial_timer` is written when the only operation that sets it returns; no other
task reads it. -/
structure Race where
  device : Device
  sTrialTimer : Option TimerHandle
  app : Option AppOperation
  callback : Option (TrialProgram Unit)
  log : List Entry

inductive RaceLabel where
  | begin : UInt32 → RaceLabel
  | confirm : RaceLabel
  -- a task goes on, and the call it makes fails by itself or not
  | app : EspErr → RaceLabel
  | timer : EspErr → RaceLabel
  | dispatch : TimerHandle → RaceLabel
  | tick : Nat → RaceLabel
  deriving DecidableEq, Repr

namespace Race

/-- A call comes back. -/
def called (s : Race) (fault : EspErr) (c : TrialCall) (entry : TrialStep → Entry) : Race :=
  { s with
    device := (s.device.respond fault c).2
    log := s.log ++ [entry ⟨c, (s.device.respond fault c).1⟩] }

def appStep (s : Race) (fault : EspErr) : Race :=
  match s.app with
  | none => s
  | some (.begin p) =>
    match p.turn with
    | .done (err, timer) =>
      { s with sTrialTimer := timer, app := none, log := s.log ++ [.begun err] }
    | .call c k =>
      { s.called fault c .app with app := some (.begin (k (s.device.respond fault c).1)) }
  | some (.confirm p) =>
    match p.turn with
    | .done err => { s with app := none, log := s.log ++ [.confirmed err] }
    | .call c k =>
      { s.called fault c .app with app := some (.confirm (k (s.device.respond fault c).1)) }

def timerStep (s : Race) (fault : EspErr) : Race :=
  match s.callback with
  | none => s
  | some p =>
    match p.turn with
    | .done _ => { s with callback := none }
    | .call c k =>
      { s.called fault c .timer with callback := some (k (s.device.respond fault c).1) }

/-- The `esp_timer` task runs one callback at a time. -/
def dispatch (s : Race) (timer : TimerHandle) : Race :=
  match s.callback, s.device.dispatch timer with
  | none, some d => { s with device := d, callback := some trialTimeout }
  | _, _ => s

def step (build : BuildOptions) (s : Race) (l : RaceLabel) : Race :=
  if s.device.rebooted then s
  else
    match l with
    | .begin timeoutS =>
      if s.app.isNone then { s with app := some (.begin (otaApiTrialBegin build s.sTrialTimer timeoutS)) }
      else s
    | .confirm =>
      if s.app.isNone then { s with app := some (.confirm (otaApiTrialConfirm s.sTrialTimer)) } else s
    | .app fault => s.appStep fault
    | .timer fault => s.timerStep fault
    | .dispatch timer => s.dispatch timer
    | .tick us => { s with device := { s.device with now := s.device.now + us } }

def boot (image : Option ImgState) (now : Nat) : Race where
  device := { image := image, timers := [], now := now, rebooted := false }
  sTrialTimer := none
  app := none
  callback := none
  log := []

def run (build : BuildOptions) (image : Option ImgState) (now : Nat) (ls : List RaceLabel) : Race :=
  exec (step build) (.boot image now) ls

end Race

/-! ## What the log says -/

def Entry.readPending : Entry := .timer ⟨.otaGetStatePartition, (espOk, .pendingVerify)⟩
def Entry.markedValid : Entry := .app ⟨.otaMarkAppValidCancelRollback, espOk⟩
def Entry.markedInvalid (r : EspErr) : Entry := .timer ⟨.otaMarkAppInvalidRollbackAndReboot, r⟩

/-- Made by the `esp_timer` task. -/
def Entry.ofTimer : Entry → Bool
  | .timer _ => true
  | _ => false

/-- The last thing the `esp_timer` task did was to read that the image is on trial. -/
def Decided (log : List Entry) : Prop :=
  ∃ x y, log = x ++ .readPending :: y ∧ ∀ e ∈ y, e.ofTimer = false

/-- What is true of every log. -/
structure LogSound (log : List Entry) : Prop where
  unmarked : ∀ x y, log = x ++ .readPending :: y → .markedValid ∉ x
  decided : ∀ x r y, log = x ++ .markedInvalid r :: y → Decided x
  confirmed : ∀ x y, log = x ++ .confirmed espOk :: y → .markedValid ∈ x

theorem LogSound.nil : LogSound [] where
  unmarked x y h := by simp at h
  decided x r y h := by simp at h
  confirmed x y h := by simp at h

theorem LogSound.snoc {log : List Entry} {e : Entry} (h : LogSound log)
    (hread : e = .readPending → .markedValid ∉ log) (hmark : ∀ r, e = .markedInvalid r → Decided log)
    (hreturn : e = .confirmed espOk → .markedValid ∈ log) : LogSound (log ++ [e]) where
  unmarked x y hsplit := by
    obtain ⟨rfl, he, _⟩ | ⟨y', _, hlog⟩ := snoc_eq_append_cons hsplit
    · exact hread he.symm
    · exact h.unmarked x y' hlog
  decided x r y hsplit := by
    obtain ⟨rfl, he, _⟩ | ⟨y', _, hlog⟩ := snoc_eq_append_cons hsplit
    · exact hmark r he.symm
    · exact h.decided x r y' hlog
  confirmed x y hsplit := by
    obtain ⟨rfl, he, _⟩ | ⟨y', _, hlog⟩ := snoc_eq_append_cons hsplit
    · exact hreturn he.symm
    · exact h.confirmed x y' hlog

/-! ## How far each task is -/

/-- The state is read, and the rest goes on with whether the image is on trial. -/
theorem turn_isOnTrial {α : Type} (k : Bool → TrialProgram α) :
    (otaApiIsOnTrial >>= k).turn =
      .call .otaGetStatePartition fun a => k (a.1 == espOk && a.2 == .pendingVerify) := by
  change Turn.call _ _ = _
  congr 1
  funext a
  obtain ⟨err, state⟩ := a
  by_cases herr : err = espOk
  · simp [herr]
  · have hne : (err == espOk) = false := by simpa using herr
    simp [herr, hne]

/-- How far a confirmation is. -/
inductive Confirming (log : List Entry) : TrialProgram EspErr → Prop where
  | start (timer : Option TimerHandle) : Confirming log (otaApiTrialConfirm timer)
  | stopping (timer : TimerHandle) :
    Confirming log (trialAsk (.timerStop timer) >>= fun _ => trialAsk .otaMarkAppValidCancelRollback)
  | marking : Confirming log (trialAsk .otaMarkAppValidCancelRollback)
  | done (err : EspErr) (h : err = espOk → .markedValid ∈ log) : Confirming log (pure err)

theorem Confirming.next {log : List Entry} {p : TrialProgram EspErr} (h : Confirming log p)
    {c : TrialCall} {k : TrialAnswer c → TrialProgram EspErr} (ht : p.turn = .call c k)
    (a : TrialAnswer c) : Confirming (log ++ [.app ⟨c, a⟩]) (k a) := by
  cases h with
  | start timer =>
    unfold otaApiTrialConfirm at ht
    rw [turn_isOnTrial] at ht
    cases ht
    simp only
    split
    · exact .done espErrInvalidState (fun he => absurd he (by decide))
    · cases timer with
      | none => exact .marking
      | some timer => exact .stopping timer
  | stopping timer =>
    cases ht
    exact .marking
  | marking =>
    cases ht
    exact .done a (fun ha => by simp [ha, Entry.markedValid])
  | done err _ => cases ht

/-- How far the callback is. -/
inductive Deciding (log : List Entry) : TrialProgram Unit → Prop where
  | start : Deciding log trialTimeout
  | rollingBack (h : Decided log) :
    Deciding log (trialAsk .otaMarkAppInvalidRollbackAndReboot >>= fun _ => pure ())
  | done : Deciding log (pure ())

theorem Deciding.next {log : List Entry} {p : TrialProgram Unit} (h : Deciding log p)
    {c : TrialCall} {k : TrialAnswer c → TrialProgram Unit} (ht : p.turn = .call c k)
    (a : TrialAnswer c) : Deciding (log ++ [.timer ⟨c, a⟩]) (k a) := by
  cases h with
  | start => 
    rw [trialTimeout, turn_isOnTrial] at ht
    cases ht
    obtain ⟨err, state⟩ := a
    simp only
    split
    · exact .done
    · rename_i hread
      simp only [Bool.not_eq_true, Bool.not_eq_false', Bool.and_eq_true, beq_iff_eq] at hread
      obtain ⟨rfl, rfl⟩ := hread
      exact .rollingBack ⟨log, [], rfl, by simp⟩
  | rollingBack h =>
    cases ht
    exact .done
  | done => cases ht

/-- Only a callback that has read that the image is on trial rolls back. -/
theorem Deciding.rollback {log : List Entry} {p : TrialProgram Unit} (h : Deciding log p)
    {k : EspErr → TrialProgram Unit} (ht : p.turn = .call .otaMarkAppInvalidRollbackAndReboot k) :
    Decided log := by
  cases h with
  | start =>
    rw [trialTimeout, turn_isOnTrial] at ht
    cases ht
  | rollingBack h => exact h
  | done => cases ht

/-- A confirmation returns `ESP_OK` only for an image that was marked valid. -/
theorem Confirming.returns {log : List Entry} {p : TrialProgram EspErr} (h : Confirming log p)
    (ht : p.turn = .done espOk) : .markedValid ∈ log := by
  cases h with
  | start timer =>
    unfold otaApiTrialConfirm at ht
    rw [turn_isOnTrial] at ht
    cases ht
  | stopping timer => cases ht
  | marking => cases ht
  | done err h =>
    cases ht
    exact h rfl

/-! ## Every interleaving -/

theorem respond_pending {d : Device} {fault : EspErr} {c : TrialCall}
    (h : (d.respond fault c).2.image = some .pendingVerify) : d.image = some .pendingVerify := by
  cases c <;> simp only [Device.respond] at h <;> repeat' split at h
  all_goals simp_all

/-- What the device says of its image is so. -/
theorem respond_readPending {d : Device} {fault : EspErr} {c : TrialCall}
    (h : (⟨c, (d.respond fault c).1⟩ : TrialStep) = ⟨.otaGetStatePartition, (espOk, .pendingVerify)⟩) :
    d.image = some .pendingVerify := by
  cases c with
  | otaGetStatePartition =>
    have hanswer := eq_of_heq (Interaction.Event.mk.inj h).2
    simp only [Device.respond] at hanswer
    split at hanswer
    · split at hanswer
      · rename_i himage
        rw [himage, (Prod.mk.inj hanswer).2]
      · exact absurd (Prod.mk.inj hanswer).1 (by decide)
    · cases (Prod.mk.inj hanswer).2
  | _ => cases h

theorem respond_markedValid {d : Device} {fault : EspErr} {c : TrialCall}
    (h : (⟨c, (d.respond fault c).1⟩ : TrialStep) = ⟨.otaMarkAppValidCancelRollback, espOk⟩) :
    (d.respond fault c).2.image ≠ some .pendingVerify := by
  cases c with
  | otaMarkAppValidCancelRollback =>
    have hanswer := eq_of_heq (Interaction.Event.mk.inj h).2
    simp only [Device.respond] at hanswer ⊢
    by_cases hfault : fault = espOk
    · cases himage : d.image with
      | none => simp [himage, hfault]
      | some state => simp [hfault]
    · simp only [hfault, if_false] at hanswer
  | _ => cases h

theorem Decided.snoc {log : List Entry} {e : Entry} (h : Decided log) (he : e.ofTimer = false) :
    Decided (log ++ [e]) := by
  obtain ⟨x, y, rfl, hy⟩ := h
  refine ⟨x, y ++ [e], by simp, fun e' he' => ?_⟩
  rcases List.mem_append.mp he' with hmem | hmem
  · exact hy e' hmem
  · rw [List.mem_singleton.mp hmem]
    exact he

theorem Confirming.snoc {log : List Entry} {p : TrialProgram EspErr} (h : Confirming log p)
    (e : Entry) : Confirming (log ++ [e]) p := by
  cases h with
  | start timer => exact .start timer
  | stopping timer => exact .stopping timer
  | marking => exact .marking
  | done err h => exact .done err (fun he => List.mem_append_left _ (h he))

theorem Deciding.snoc {log : List Entry} {p : TrialProgram Unit} (h : Deciding log p) {e : Entry}
    (he : e.ofTimer = false) : Deciding (log ++ [e]) p := by
  cases h with
  | start => exact .start
  | rollingBack h => exact .rollingBack (h.snoc he)
  | done => exact .done

/-- What is true of both tasks, the device and the log in every interleaving. -/
structure Race.Sound (s : Race) : Prop where
  log : LogSound s.log
  marked : .markedValid ∈ s.log → s.device.image ≠ some .pendingVerify
  confirming : ∀ p, s.app = some (.confirm p) → Confirming s.log p
  deciding : ∀ p, s.callback = some p → Deciding s.log p

section Step

variable {s : Race} {fault : EspErr} {c : TrialCall}

theorem marked_called (h : s.Sound) {entry : TrialStep → Entry}
    (hentry : ∀ x, .markedValid = entry x → x = ⟨.otaMarkAppValidCancelRollback, espOk⟩)
    (hm : .markedValid ∈ (s.called fault c entry).log) :
    (s.called fault c entry).device.image ≠ some .pendingVerify := by
  rcases List.mem_append.mp hm with hlog | hnew
  · intro hpending
    exact h.marked hlog (respond_pending hpending)
  · exact respond_markedValid (hentry _ (List.mem_singleton.mp hnew))

/-- A call of the application task comes back. -/
theorem Race.Sound.appCalled (h : s.Sound) {x : Option AppOperation}
    (hx : ∀ p, x = some (.confirm p) → Confirming (s.called fault c .app).log p) :
    Race.Sound { s.called fault c .app with app := x } where
  log := h.log.snoc nofun nofun nofun
  marked := marked_called h (fun _ he => (Entry.app.inj he).symm)
  confirming := hx
  deciding p hp := (h.deciding p hp).snoc rfl

/-- A call of the callback comes back. -/
theorem Race.Sound.timerCalled (h : s.Sound) {p : TrialProgram Unit} (hp : s.callback = some p)
    {k : TrialAnswer c → TrialProgram Unit} (ht : p.turn = .call c k) :
    Race.Sound
      { s.called fault c .timer with callback := some (k (s.device.respond fault c).1) } where
  log := by
    apply h.log.snoc
    · intro hread hmarked
      exact h.marked hmarked (respond_readPending (Entry.timer.inj hread))
    · intro r hrollback
      have hcall := (Interaction.Event.mk.inj (Entry.timer.inj hrollback)).1
      subst hcall
      exact (h.deciding p hp).rollback ht
    · nofun
  marked := marked_called h nofun
  confirming q hq := (h.confirming q hq).snoc _
  deciding q hq := by
    cases hq
    exact (h.deciding p hp).next ht _

/-- An operation of the application task returns. -/
theorem Race.Sound.returned (h : s.Sound) {timer : Option TimerHandle} {e : Entry}
    (he : e.ofTimer = false) (hm : .markedValid ≠ e) (hc : e = .confirmed espOk → .markedValid ∈ s.log) :
    Race.Sound { s with sTrialTimer := timer, app := none, log := s.log ++ [e] } where
  log := by
    apply h.log.snoc
    · rintro rfl
      cases he
    · rintro r rfl
      cases he
    · exact hc
  marked hmem := by
    rcases List.mem_append.mp hmem with hlog | hnew
    · exact h.marked hlog
    · exact absurd (List.mem_singleton.mp hnew) hm
  confirming p hp := by cases hp
  deciding p hp := (h.deciding p hp).snoc he

theorem Race.Sound.appStep (h : s.Sound) (fault : EspErr) : (s.appStep fault).Sound := by
  unfold Race.appStep
  split
  · exact h
  · split
    · exact h.returned rfl nofun nofun
    · apply h.appCalled
      intro p hp
      cases hp
  · rename_i p hp
    split
    · rename_i err hdone
      have hconfirmed : Entry.confirmed err = .confirmed espOk → .markedValid ∈ s.log := by
        intro hok
        obtain rfl := Entry.confirmed.inj hok
        exact (h.confirming p hp).returns hdone
      exact h.returned rfl nofun hconfirmed
    · rename_i c k hcall
      apply h.appCalled
      intro q hq
      cases hq
      exact (h.confirming p hp).next hcall _

theorem Race.Sound.timerStep (h : s.Sound) (fault : EspErr) : (s.timerStep fault).Sound := by
  unfold Race.timerStep
  split
  · exact h
  · rename_i p hp
    split
    · exact ⟨h.log, h.marked, h.confirming, nofun⟩
    · rename_i c k hcall
      exact h.timerCalled hp hcall

theorem dispatch_image {d d' : Device} {timer : TimerHandle} (h : d.dispatch timer = some d') :
    d'.image = d.image := by
  unfold Device.dispatch at h
  split at h
  · split at h
    · cases h
      rfl
    · cases h
  · cases h

theorem Race.Sound.dispatch (h : s.Sound) (timer : TimerHandle) : (s.dispatch timer).Sound := by
  unfold Race.dispatch
  split
  · rename_i d _ hdispatch
    constructor
    · exact h.log
    · intro hmarked
      rw [dispatch_image hdispatch]
      exact h.marked hmarked
    · exact h.confirming
    · intro p hp
      cases hp
      exact .start
  · exact h

theorem Race.Sound.step (build : BuildOptions) (h : s.Sound) (l : RaceLabel) :
    (s.step build l).Sound := by
  unfold Race.step
  split
  · exact h
  · cases l with
    | begin timeoutS =>
      simp only
      split
      · exact ⟨h.log, h.marked, nofun, h.deciding⟩
      · exact h
    | confirm =>
      simp only
      split
      · constructor
        · exact h.log
        · exact h.marked
        · intro p hp
          cases hp
          exact .start s.sTrialTimer
        · exact h.deciding
      · exact h
    | app fault => exact h.appStep fault
    | timer fault => exact h.timerStep fault
    | dispatch timer => exact h.dispatch timer
    | tick us => exact ⟨h.log, h.marked, h.confirming, h.deciding⟩

end Step

section Run

variable {build : BuildOptions} {image : Option ImgState} {now : Nat} {ls : List RaceLabel}

theorem race_sound : (Race.run build image now ls).Sound := by
  apply @exec_invariant _ _ (Race.step build) Race.Sound
  · intro s l h
    exact h.step build l
  · exact ⟨.nil, nofun, nofun, nofun⟩

/-- A callback that rolls an image back after a confirmation returned `ESP_OK` had read
that the image was on trial before the confirmation marked it valid, and the
`esp_timer` task did nothing in between: it was past its check. -/
theorem late_rollback_was_decided {u v w : List Entry} {r : EspErr}
    (h : (Race.run build image now ls).log = u ++ .confirmed espOk :: (v ++ .markedInvalid r :: w)) :
    ∃ x y z, u = x ++ .readPending :: (y ++ .markedValid :: z) ∧
      (∀ e ∈ y, e.ofTimer = false) ∧ (∀ e ∈ z, e.ofTimer = false) ∧ ∀ e ∈ v, e.ofTimer = false := by
  have hsound := (@race_sound build image now ls).log
  have hconfirmed : .markedValid ∈ u := hsound.confirmed u _ h
  have hsplit : (Race.run build image now ls).log =
      (u ++ .confirmed espOk :: v) ++ .markedInvalid r :: w := by simp [h]
  obtain ⟨x, y, hx, hy⟩ := hsound.decided _ r w hsplit
  have hread : .markedValid ∉ x := by
    apply hsound.unmarked x (y ++ .markedInvalid r :: w)
    rw [hsplit, hx]
    simp
  -- the check cannot be after the confirmation, which the mark is before
  obtain ⟨c, hu, _⟩ | ⟨c, hu, hc⟩ := List.append_eq_append_iff.mp hx
  · rw [hu] at hread
    exact absurd (List.mem_append_left c hconfirmed) hread
  · cases c with
    | nil => cases (List.cons.inj hc).1
    | cons e c =>
      obtain ⟨rfl, rfl⟩ := List.cons.inj hc
      have hmark : .markedValid ∈ c := by
        rw [hu] at hconfirmed
        rcases List.mem_append.mp hconfirmed with hmem | hmem
        · exact absurd hmem hread
        · rcases List.mem_cons.mp hmem with heq | hmem
          · cases heq
          · exact hmem
      obtain ⟨y, z, rfl⟩ := List.append_of_mem hmark
      refine ⟨x, y, z, hu, ?_, ?_, ?_⟩
      · intro e he
        exact hy e (by simp [he])
      · intro e he
        exact hy e (by simp [he])
      · intro e he
        exact hy e (by simp [he])

/-- The callback reads in time, and the confirmation comes before it goes on. -/
def lateConfirm : List RaceLabel :=
  [.begin 1, .app espOk, .app espOk, .app espOk, .app espOk, .tick 1000000, .dispatch 0,
    .timer espOk, .confirm, .app espOk, .app espOk, .app espOk, .app espOk, .timer espOk]

/-- What has happened when the confirmation returns. -/
def lateConfirmLog : List Entry :=
  [.app ⟨.otaGetStatePartition, (espOk, .pendingVerify)⟩, .app ⟨.timerCreate, (espOk, 0)⟩,
    .app ⟨.timerStartOnce 0 1000000, espOk⟩, .begun espOk, .readPending,
    .app ⟨.otaGetStatePartition, (espOk, .pendingVerify)⟩, .app ⟨.timerStop 0, espErrInvalidState⟩,
    .markedValid]

theorem late_rollback_was_decided_late_confirm :
    ∃ x y z, lateConfirmLog = x ++ .readPending :: (y ++ .markedValid :: z) ∧
      (∀ e ∈ y, e.ofTimer = false) ∧ (∀ e ∈ z, e.ofTimer = false) ∧
      ∀ e ∈ ([] : List Entry), e.ofTimer = false := by
  apply @late_rollback_was_decided sampleBuild (some .pendingVerify) 0 lateConfirm lateConfirmLog [] []
    espOk
  decide +kernel

/-- The confirmation returns `ESP_OK`, and the image is rolled back all the same. -/
theorem confirmed_and_rolled_back :
    (Race.run sampleBuild (some .pendingVerify) 0 lateConfirm).log =
        lateConfirmLog ++ [.confirmed espOk, .markedInvalid espOk] ∧
      (Race.run sampleBuild (some .pendingVerify) 0 lateConfirm).device.rebooted = true := by
  decide +kernel

end Run

end OtaApi
