import OtaApi.TrialWindow

/-!
# The deadline of a trial

One boot, with the operations of the component, direct markings of the image,
expiries and the clock in any order, each executed without interleaving, and any
call failing at any time. The countdown is set by an accepted begin only, and
only a confirm that stops it and then fails takes it away from an image that is
still on trial.
-/

namespace OtaApi

open Interaction

/-! ## What is said about a boot -/

def TrialEvent.isOperation : TrialEvent → Bool
  | .begin _ _ => true
  | .confirm _ => true
  | .reject _ => true
  | _ => false

/-- A confirm that stops a running countdown and then cannot mark the image. -/
def Trial.Strands (t : Trial) : TrialEvent → Prop
  | .confirm f => t.device.rebooted = false ∧ f.getState = espOk ∧
      t.device.image = some .pendingVerify ∧ t.countdown ≠ [] ∧ f.stop = espOk ∧ f.markValid ≠ espOk
  | _ => False

/-- The callback of the timer runs. -/
def Trial.TimesOut (t : Trial) : TrialEvent → Prop
  | .expire timer _ => t.device.rebooted = false ∧ (t.device.dispatch timer).isSome
  | _ => False

def Trial.Accepted (build : BuildOptions) (t : Trial) (timeoutS : UInt32) (f : Faults) : Prop :=
  (t.step build (.begin timeoutS f)).2 = some espOk

def Trial.deadline (build : BuildOptions) (t : Trial) (timeoutS : UInt32) : Nat :=
  t.device.now + windowSeconds build timeoutS * 1000000

/-! ## One event -/

section Event

variable {build : BuildOptions} {w v : Watch} {e : TrialEvent} {r : Option EspErr}

@[simp] theorem trial_image : w.trial.device.image = w.image := rfl
@[simp] theorem trial_now : w.trial.device.now = w.now := rfl
@[simp] theorem trial_rebooted : w.trial.device.rebooted = w.rebooted := rfl

@[simp] theorem trial_countdown : w.trial.countdown = w.window.countdown := by
  obtain ⟨image, window, now, rebooted⟩ := w
  cases window <;> rfl

theorem trial_timer_none : w.trial.sTrialTimer = none ↔ w.window = .notCreated := by
  obtain ⟨image, window, now, rebooted⟩ := w
  cases window <;> simp [Watch.trial]

theorem trial_result : (w.trial.step build e).2 = (w.step build e).2 := by rw [step_refines]

theorem trial_strands_iff {f : Faults} : w.trial.Strands (.confirm f) ↔
    w.rebooted = false ∧ w.onTrial f = true ∧ w.window.countdown ≠ [] ∧ f.stop = espOk ∧
      f.markValid ≠ espOk := by
  simp [Trial.Strands, onTrial_iff, and_assoc]

theorem trial_timesOut_iff {timer : TimerHandle} {f : Faults} :
    w.trial.TimesOut (.expire timer f) ↔ w.rebooted = false ∧ w.Due timer := by
  have hdevice : w.trial.device = w.device := rfl
  simp only [Trial.TimesOut, hdevice, dispatch_device, Watch.Due]
  cases hwindow : w.window with
  | notCreated => simp
  | idle => simp
  | armed deadline => 
    by_cases hdue : timer = 0 ∧ deadline ≤ w.now <;> simp [hdue, Watch.device]

/-- An event is without effect because the boot is over, or has one of the effects. -/
theorem step_cases (build : BuildOptions) (w : Watch) (e : TrialEvent) :
    (w.rebooted = true ∧ w.next build e = w ∧ (w.step build e).2 = none) ∨
      (w.rebooted = false ∧ Effect build w e (w.next build e) (w.step build e).2) := by
  cases hlive : w.rebooted with
  | true =>
    have hover := @step_over build w hlive e
    exact .inl ⟨rfl, congrArg Prod.fst hover, congrArg Prod.snd hover⟩
  | false => exact .inr ⟨rfl, step_effect hlive e⟩

/-- No event puts an image on trial. -/
theorem Effect.image_pending (h : Effect build w e v r) (hv : v.image = some .pendingVerify) :
    w.image = some .pendingVerify := by
  cases h <;> simp_all

/-- What a confirm leaves of the countdown. -/
theorem stop_countdown {f : Faults} :
    (w.stop f).window.countdown = if f.stop = espOk then [] else w.window.countdown := by
  obtain ⟨image, window, now, rebooted⟩ := w
  cases window with
  | notCreated => simp [Watch.stop]
  | idle => simp [Watch.stop]
  | armed deadline =>
    simp only [Watch.stop]
    split <;> rfl

/-- The countdown is set by an accepted begin only. -/
theorem Effect.armed (h : Effect build w e v r) {deadline : Nat}
    (hv : v.window.countdown = [deadline]) (hw : w.window.countdown ≠ [deadline]) :
    ∃ timeoutS f, e = .begin timeoutS f ∧ r = some espOk ∧
      deadline = w.now + windowSeconds build timeoutS * 1000000 := by
  cases h with
  | @accepted timeoutS f _ =>
    simp only [countdown_armed, List.cons.injEq, and_true] at hv
    exact ⟨timeoutS, f, rfl, rfl, hv.symm⟩
  | refused _ _ hwindow => exact absurd (hwindow.symm.trans hv) hw
  | confirmed _ _ =>
    change (w.stop _).window.countdown = _ at hv
    rw [stop_countdown] at hv
    split at hv
    · cases hv
    · exact absurd hv hw
  | unconfirmed _ _ =>
    rw [stop_countdown] at hv
    split at hv
    · cases hv
    · exact absurd hv hw
  | timedOut _ => cases hv
  | rolledBack _ _ => cases hv
  | _ => exact absurd hv hw

/-- While the image stays on trial, a confirm that fails and the timeout are all that
takes a countdown away. -/
theorem Effect.kept (h : Effect build w e v r) {deadline : Nat} (hlive : w.rebooted = false)
    (hw : w.window.countdown = [deadline]) (hstrand : ¬ w.trial.Strands e)
    (htimeout : ¬ w.trial.TimesOut e) (hv : v.image = some .pendingVerify) :
    v.window.countdown = [deadline] := by
  cases h with
  | accepted haccept =>
    rw [haccept.quiet] at hw
    cases hw
  | refused _ _ hwindow => exact hwindow.trans hw
  | confirmed _ _ => cases hv
  | @unconfirmed f htrial hmark =>
    rw [stop_countdown]
    split
    · rename_i hstop
      have hne : w.window.countdown ≠ [] := by simp [hw]
      exact absurd (trial_strands_iff.mpr ⟨hlive, htrial, hne, hstop, hmark⟩) hstrand
    · exact hw
  | timedOut hdue => exact absurd (trial_timesOut_iff.mpr ⟨hlive, hdue⟩) htimeout
  | rolledBack hdue _ => exact absurd (trial_timesOut_iff.mpr ⟨hlive, hdue⟩) htimeout
  | _ => exact hw

theorem Effect.timesOut (h : Effect build w e v r) (htimeout : w.trial.TimesOut e) :
    v.window.countdown = [] := by
  cases h with
  | notDue hdue => exact absurd (trial_timesOut_iff.mp htimeout).2 hdue
  | timedOut _ => rfl
  | rolledBack _ _ => rfl
  | _ => exact htimeout.elim

/-- A stranded image is on trial with nothing counting down. -/
theorem Effect.stranded (h : Effect build w e v r) (hstrand : w.trial.Strands e) :
    v.image = some .pendingVerify ∧ v.window.countdown = [] ∧ ∃ f, e = .confirm f := by
  cases h with
  | confirmed _ hmark => exact absurd hmark (trial_strands_iff.mp hstrand).2.2.2.2
  | @unconfirmed f htrial hmark =>
    have hstop := (trial_strands_iff.mp hstrand).2.2.2.1
    rw [stop_image, stop_countdown, if_pos hstop]
    exact ⟨(onTrial_iff.mp htrial).2, rfl, f, rfl⟩
  | notOnTrial htrial =>
    have hon := (trial_strands_iff.mp hstrand).2.1
    rw [htrial] at hon
    cases hon
  | _ => exact hstrand.elim

/-- An operation that fails leaves the image and the countdown as they were, unless it
strands the image. -/
theorem Effect.failed_iff (h : Effect build w e v r) (hlive : w.rebooted = false)
    (hop : e.isOperation = true) {err : EspErr} (hr : r = some err) (herr : err ≠ espOk) :
    (v.image = w.image ∧ v.window.countdown = w.window.countdown) ↔ ¬ w.trial.Strands e := by
  cases h with
  | accepted _ => exact absurd (Option.some.inj hr).symm herr
  | refused _ _ hwindow => exact iff_of_true ⟨rfl, hwindow⟩ id
  | confirmed _ _ => exact absurd (Option.some.inj hr).symm herr
  | unconfirmed htrial hmark =>
    rw [stop_image, stop_countdown, trial_strands_iff]
    split
    · rename_i hstop
      constructor
      · rintro ⟨_, hquiet⟩ hstrand
        exact hstrand.2.2.1 hquiet.symm
      · intro hstrand
        apply And.intro rfl
        by_contra hne
        exact hstrand ⟨hlive, htrial, Ne.symm hne, hstop, hmark⟩
    · rename_i hstop
      simp [hstop]
  | notOnTrial htrial =>
    rw [trial_strands_iff]
    simp [htrial]
  | rejectFailed _ => exact iff_of_true ⟨rfl, rfl⟩ id
  | rejected => cases hr
  | _ => cases hop

theorem Effect.accepted_iff {timeoutS : UInt32} {f : Faults}
    (h : Effect build w (.begin timeoutS f) v r) : r = some espOk ↔ w.Accepts f := by
  cases h with
  | accepted haccept => exact iff_of_true rfl haccept
  | refused haccept hr _ => exact iff_of_false (fun he => hr (Option.some.inj he)) haccept

theorem Effect.begin_countdown {timeoutS : UInt32} {f : Faults}
    (h : Effect build w (.begin timeoutS f) v r) :
    v.window.countdown = if r = some espOk then [w.now + windowSeconds build timeoutS * 1000000]
      else w.window.countdown := by
  cases h with
  | accepted _ => simp
  | refused _ hr hwindow => simp [hr, hwindow]

/-- The timeout rolls an image back that is on trial and whose deadline has come. -/
theorem Effect.rollback {timer : TimerHandle} {f : Faults}
    (h : Effect build w (.expire timer f) v r) (hlive : w.rebooted = false)
    (hv : v.rebooted = true) : w.image = some .pendingVerify ∧
      ∃ deadline, w.window.countdown = [deadline] ∧ deadline ≤ w.now := by
  cases h with
  | notDue _ => simp [hlive] at hv
  | timedOut _ => simp [hlive] at hv
  | rolledBack hdue htrial =>
    obtain ⟨_, deadline, hwindow, hnow⟩ := hdue
    exact ⟨(onTrial_iff.mp htrial).2, deadline, by simp [hwindow], hnow⟩

theorem Effect.confirms_valid (h : Effect build w e v r) {f : Faults}
    (he : e = .confirm f ∨ e = .markValid f) (hr : r = some espOk) : v.image = some .valid := by
  cases h with
  | confirmed _ _ => rfl
  | unconfirmed _ hmark => exact absurd (Option.some.inj hr) hmark
  | notOnTrial _ => cases hr
  | marked => rfl
  | markFailed hfail => exact absurd (Option.some.inj hr) hfail
  | _ => simp at he

end Event

/-! ## A whole boot -/

section Boot

variable {build : BuildOptions} {image : Option ImgState} {now : Nat} {es : List TrialEvent}

theorem run_snoc (e : TrialEvent) : Trial.run build image now (es ++ [e]) =
    (Trial.run build image now es).next build e := exec_snoc _ _ _

theorem run_append (fs : List TrialEvent) : Trial.run build image now (es ++ fs) =
    exec (Trial.next build) (Trial.run build image now es) fs := exec_append _ _ _

/-- An event after any boot, seen on the machine. -/
theorem run_cases (build : BuildOptions) (image : Option ImgState) (now : Nat)
    (es : List TrialEvent) (e : TrialEvent) :
    ∃ w v r, Trial.run build image now es = w.trial ∧
      Trial.run build image now (es ++ [e]) = v.trial ∧
      ((Trial.run build image now es).step build e).2 = r ∧
      ((w.rebooted = true ∧ v = w ∧ r = none) ∨ (w.rebooted = false ∧ Effect build w e v r)) := by
  have hrun := @run_refines build image now es
  refine ⟨_, (Watch.run build image now es).next build e, _, hrun, ?_, rfl, ?_⟩
  · rw [run_snoc, hrun, next_refines]
  · rw [hrun, trial_result]
    exact step_cases build _ e

/-- An image that is on trial has been since the boot. -/
theorem run_pending {fs : List TrialEvent}
    (h : (Trial.run build image now (es ++ fs)).device.image = some .pendingVerify) :
    (Trial.run build image now es).device.image = some .pendingVerify := by
  induction fs using List.reverseRecOn with
  | nil => simpa using h
  | append_singleton fs e ih =>
    rw [← List.append_assoc] at h
    obtain ⟨w, v, r, hw, hv, _, hover | heffect⟩ := run_cases build image now (es ++ fs) e
    · rw [hv, hover.2.1, ← hw] at h
      exact ih h
    · rw [hv] at h
      apply ih
      rw [hw]
      exact heffect.2.image_pending h

/-- Whatever counts down was set by an accepted begin and has counted down since. -/
theorem armed_since {deadline : Nat} (h : (Trial.run build image now es).countdown = [deadline]) :
    ∃ pre timeoutS f post, es = pre ++ .begin timeoutS f :: post ∧
      (Trial.run build image now pre).Accepted build timeoutS f ∧
      deadline = (Trial.run build image now pre).deadline build timeoutS ∧
      ∀ p, p <+: post →
        (Trial.run build image now (pre ++ .begin timeoutS f :: p)).countdown = [deadline] := by
  have hstart : ¬ (Trial.boot image now).countdown = [deadline] := by simp [Trial.boot, Trial.countdown]
  obtain ⟨pre, e, post, hes, hpre, hsince⟩ :=
    @exec_since _ _ (Trial.next build) (fun t => t.countdown = [deadline]) _ es hstart h
  have hnext : (Trial.run build image now (pre ++ [e])).countdown = [deadline] :=
    hsince [] List.nil_prefix
  obtain ⟨w, v, r, hw, hv, hr, hover | heffect⟩ := run_cases build image now pre e
  · rw [hv, hover.2.1, ← hw] at hnext
    exact absurd hnext hpre
  · have hquiet : w.window.countdown ≠ [deadline] := by
      rw [← trial_countdown, ← hw]
      exact hpre
    rw [hv, trial_countdown] at hnext
    obtain ⟨timeoutS, f, rfl, rfl, hdeadline⟩ := heffect.2.armed hnext hquiet
    refine ⟨pre, timeoutS, f, post, hes, hr, ?_, hsince⟩
    rw [hdeadline, hw]
    rfl

/-- The countdown of an image on trial lasts as long as no confirm strands it and the
callback does not run. -/
theorem kept_since {pre mid : List TrialEvent} {deadline : Nat}
    (h : (Trial.run build image now pre).countdown = [deadline])
    (hstrand : Throughout (Trial.next build) (fun t e => ¬ t.Strands e) (Trial.run build image now pre) mid)
    (htimeout : Throughout (Trial.next build) (fun t e => ¬ t.TimesOut e)
      (Trial.run build image now pre) mid)
    (hend : (Trial.run build image now (pre ++ mid)).device.image = some .pendingVerify) :
    (Trial.run build image now (pre ++ mid)).countdown = [deadline] := by
  induction mid using List.reverseRecOn with
  | nil => simpa using h
  | append_singleton mid e ih =>
    rw [← List.append_assoc] at hend ⊢
    have hbefore := ih hstrand.take htimeout.take (run_pending hend)
    have hstrand' := hstrand mid e [] rfl
    have htimeout' := htimeout mid e [] rfl
    rw [← run_append] at hstrand' htimeout'
    obtain ⟨w, v, r, hw, hv, _, hover | heffect⟩ := run_cases build image now (pre ++ mid) e
    · rw [hv, hover.2.1, ← hw]
      exact hbefore
    · rw [hw] at hbefore hstrand' htimeout'
      rw [hv] at hend ⊢
      rw [trial_countdown] at hbefore ⊢
      exact heffect.2.kept heffect.1 hbefore hstrand' htimeout' hend

/-- From every accepted begin on, for as long as the image stays on trial and the
callback has not run, the countdown runs to the deadline it set. -/
def NetHolds (build : BuildOptions) (image : Option ImgState) (now : Nat) (es : List TrialEvent) : Prop :=
  ∀ pre timeoutS f mid post, es = pre ++ .begin timeoutS f :: (mid ++ post) →
    (Trial.run build image now pre).Accepted build timeoutS f →
    Throughout (Trial.next build) (fun t e => ¬ t.TimesOut e)
      (Trial.run build image now (pre ++ [.begin timeoutS f])) mid →
    (Trial.run build image now (pre ++ .begin timeoutS f :: mid)).device.image = some .pendingVerify →
    (Trial.run build image now (pre ++ .begin timeoutS f :: mid)).countdown =
      [(Trial.run build image now pre).deadline build timeoutS]

theorem accepted_countdown {timeoutS : UInt32} {f : Faults}
    (h : (Trial.run build image now es).Accepted build timeoutS f) :
    (Trial.run build image now (es ++ [.begin timeoutS f])).countdown =
      [(Trial.run build image now es).deadline build timeoutS] := by
  obtain ⟨w, v, r, hw, hv, hr, hover | heffect⟩ := run_cases build image now es (.begin timeoutS f)
  · unfold Trial.Accepted at h
    rw [hr, hover.2.2] at h
    cases h
  · unfold Trial.Accepted at h
    rw [hv, trial_countdown, heffect.2.begin_countdown, if_pos (hr ▸ h), hw]
    rfl

theorem strands_live {t : Trial} {e : TrialEvent} (h : t.Strands e) : t.device.rebooted = false := by
  cases e with
  | confirm f => exact h.1
  | _ => exact h.elim

theorem timesOut_live {t : Trial} {e : TrialEvent} (h : t.TimesOut e) : t.device.rebooted = false := by
  cases e with
  | expire timer f => exact h.1
  | _ => exact h.elim

theorem countdown_of_ne_nil {window : Window} (h : window.countdown ≠ []) :
    ∃ deadline, window.countdown = [deadline] := by
  cases window with
  | notCreated => exact absurd rfl h
  | idle => exact absurd rfl h
  | armed deadline => exact ⟨deadline, rfl⟩

/-- Nothing counts down right after the callback has run. -/
theorem timesOut_quiet {e : TrialEvent} (h : (Trial.run build image now es).TimesOut e) :
    (Trial.run build image now (es ++ [e])).countdown = [] := by
  have hlive := timesOut_live h
  obtain ⟨w, v, r, hw, hv, _, hover | heffect⟩ := run_cases build image now es e
  · rw [hw, trial_rebooted, hover.1] at hlive
    cases hlive
  · rw [hw] at h
    rw [hv, trial_countdown]
    exact heffect.2.timesOut h

/-- A step that strands the image breaks what was said of the begin that armed the
countdown: the image is still on trial and the callback has not run. -/
theorem stranded_not_held {pre post : List TrialEvent} {e : TrialEvent}
    (h : (Trial.run build image now pre).Strands e) :
    ¬ NetHolds build image now (pre ++ e :: post) := by
  intro hnet
  have hlive := strands_live h
  obtain ⟨w, v, r, hw, hv, _, hover | heffect⟩ := run_cases build image now pre e
  · rw [hw, trial_rebooted, hover.1] at hlive
    cases hlive
  · rw [hw] at h
    obtain ⟨hpending, hquiet, f, rfl⟩ := heffect.2.stranded h
    obtain ⟨deadline, harmed⟩ := countdown_of_ne_nil (trial_strands_iff.mp h).2.2.1
    rw [← trial_countdown, ← hw] at harmed
    obtain ⟨pre', timeoutS, f', mid, rfl, haccept, _, hsince⟩ := armed_since harmed
    have htimeout : Throughout (Trial.next build) (fun t e => ¬ t.TimesOut e)
        (Trial.run build image now (pre' ++ [.begin timeoutS f'])) (mid ++ [.confirm f]) := by
      intro p e q hsplit htimeout
      rw [← run_append] at htimeout
      obtain ⟨_, rfl, _⟩ | ⟨q', _, hmid⟩ := snoc_eq_append_cons hsplit
      · exact htimeout.elim
      · have hquiet' := timesOut_quiet htimeout
        have hmid' : p ++ [e] <+: mid := ⟨q', by rw [hmid]; simp⟩
        have harmed' := hsince _ hmid'
        simp only [List.append_assoc, List.cons_append, List.nil_append] at hquiet' harmed'
        rw [harmed'] at hquiet'
        cases hquiet'
    have hend := hnet pre' timeoutS f' (mid ++ [.confirm f]) post (by simp) haccept htimeout
    simp only [List.append_assoc, List.cons_append] at hv
    rw [hv, trial_image, trial_countdown, hquiet] at hend
    cases hend hpending

theorem net_holds_iff : NetHolds build image now es ↔
    Throughout (Trial.next build) (fun t e => ¬ t.Strands e) (.boot image now) es := by
  constructor
  · intro hnet pre e post hes hstrand
    exact stranded_not_held hstrand (hes ▸ hnet)
  · intro hstrand pre timeoutS f mid post hes haccept htimeout hend
    have hsplit : es = (pre ++ [.begin timeoutS f]) ++ (mid ++ post) := by simp [hes]
    rw [hsplit] at hstrand
    have hrun : pre ++ .begin timeoutS f :: mid = (pre ++ [.begin timeoutS f]) ++ mid := by simp
    rw [hrun] at hend ⊢
    exact kept_since (accepted_countdown haccept) hstrand.drop.take htimeout hend

/-- An operation that fails leaves the image and the countdown as they were if and
only if it is not a confirm that stopped the countdown and then failed to mark the
image; and exactly the boots without such a confirm keep the countdown of an image on
trial from every accepted begin on. -/
theorem failure_keeps_countdown_iff (build : BuildOptions) (image : Option ImgState) (now : Nat)
    (es : List TrialEvent) :
    (∀ e err, e.isOperation = true → ((Trial.run build image now es).step build e).2 = some err →
      err ≠ espOk →
      ((((Trial.run build image now es).next build e).device.image =
          (Trial.run build image now es).device.image ∧
        ((Trial.run build image now es).next build e).countdown =
          (Trial.run build image now es).countdown) ↔
        ¬ (Trial.run build image now es).Strands e)) ∧
    (NetHolds build image now es ↔
      Throughout (Trial.next build) (fun t e => ¬ t.Strands e) (.boot image now) es) := by
  constructor
  · intro e err hop hresult herr
    obtain ⟨w, v, r, hw, hv, hr, hover | heffect⟩ := run_cases build image now es e
    · rw [hr, hover.2.2] at hresult
      cases hresult
    · rw [← run_snoc, hw, hv]
      simp only [trial_image, trial_countdown]
      exact heffect.2.failed_iff heffect.1 hop (hr.symm.trans hresult) herr
  · exact net_holds_iff

/-- A countdown of two minutes is running, and the confirmation cannot be written: the
caller is told so, the image is still on trial, and nothing will roll it back. -/
theorem failed_confirm_strands :
    let f := { noFaults with markValid := espFail }
    let t := Trial.run sampleBuild (some .pendingVerify) 0 [.begin 0 noFaults]
    (t.step sampleBuild (.confirm f)).2 = some espFail ∧ t.countdown = [120000000] ∧
      (t.next sampleBuild (.confirm f)).countdown = [] ∧
      (t.next sampleBuild (.confirm f)).device.image = some .pendingVerify := by
  decide

/-- The image is confirmed, through the component or past it. -/
def Trial.Confirms (build : BuildOptions) (t : Trial) (e : TrialEvent) : Prop :=
  (∃ f, e = .confirm f ∨ e = .markValid f) ∧ (t.step build e).2 = some espOk

/-- What a boot promises about the deadline of a trial. -/
structure DeadlineLaw (build : BuildOptions) (image : Option ImgState) (now : Nat)
    (es : List TrialEvent) : Prop where
  one_timer : (Trial.run build image now es).device.timers.length ≤ 1
  one_deadline : (Trial.run build image now es).countdown.length ≤ 1
  accepted_iff : ∀ timeoutS f, (Trial.run build image now es).Accepted build timeoutS f ↔
    (Trial.run build image now es).device.rebooted = false ∧ f.getState = espOk ∧
      (Trial.run build image now es).device.image = some .pendingVerify ∧
      (Trial.run build image now es).countdown = [] ∧
      ((Trial.run build image now es).sTrialTimer = none → f.create = espOk) ∧ f.startOnce = espOk
  accepted_deadline : ∀ timeoutS f, (Trial.run build image now es).Accepted build timeoutS f →
    ((Trial.run build image now es).next build (.begin timeoutS f)).countdown =
      [(Trial.run build image now es).deadline build timeoutS]
  refused_countdown : ∀ timeoutS f, ¬ (Trial.run build image now es).Accepted build timeoutS f →
    ((Trial.run build image now es).next build (.begin timeoutS f)).countdown =
      (Trial.run build image now es).countdown
  -- only a deadline that an accepted begin set and that has counted down ever since
  rollback : ∀ timer f, (Trial.run build image now es).device.rebooted = false →
    ((Trial.run build image now es).next build (.expire timer f)).device.rebooted = true →
    (Trial.run build image now es).device.image = some .pendingVerify ∧
      ∃ pre timeoutS f' post, es = pre ++ .begin timeoutS f' :: post ∧
        (Trial.run build image now pre).Accepted build timeoutS f' ∧
        (Trial.run build image now pre).deadline build timeoutS ≤
          (Trial.run build image now es).device.now ∧
        ∀ p, p <+: post → (Trial.run build image now (pre ++ .begin timeoutS f' :: p)).countdown =
          [(Trial.run build image now pre).deadline build timeoutS]
  confirmed : ∀ pre e post, es = pre ++ e :: post → (Trial.run build image now pre).Confirms build e →
    (∀ timer f, ((Trial.run build image now es).next build (.expire timer f)).device.rebooted =
      (Trial.run build image now es).device.rebooted) ∧
    ∀ timeoutS f, ¬ (Trial.run build image now es).Accepted build timeoutS f

theorem accepted_iff (timeoutS : UInt32) (f : Faults) :
    (Trial.run build image now es).Accepted build timeoutS f ↔
      (Trial.run build image now es).device.rebooted = false ∧ f.getState = espOk ∧
        (Trial.run build image now es).device.image = some .pendingVerify ∧
        (Trial.run build image now es).countdown = [] ∧
        ((Trial.run build image now es).sTrialTimer = none → f.create = espOk) ∧
        f.startOnce = espOk := by
  obtain ⟨w, v, r, hw, _, hr, hover | heffect⟩ := run_cases build image now es (.begin timeoutS f)
  · unfold Trial.Accepted
    rw [hr, hover.2.2, hw, trial_rebooted, hover.1]
    simp
  · unfold Trial.Accepted
    rw [hr, heffect.2.accepted_iff, hw]
    simp only [trial_rebooted, trial_image, trial_countdown, trial_timer_none, heffect.1, true_and]
    constructor
    · intro h
      have hon := onTrial_iff.mp h.onTrial
      exact ⟨hon.1, hon.2, h.quiet, h.created, h.started⟩
    · rintro ⟨hget, himage, hquiet, hcreate, hstart⟩
      exact ⟨onTrial_iff.mpr ⟨hget, himage⟩, hquiet, hcreate, hstart⟩

theorem refused_countdown {timeoutS : UInt32} {f : Faults}
    (h : ¬ (Trial.run build image now es).Accepted build timeoutS f) :
    ((Trial.run build image now es).next build (.begin timeoutS f)).countdown =
      (Trial.run build image now es).countdown := by
  obtain ⟨w, v, r, hw, hv, hr, hover | heffect⟩ := run_cases build image now es (.begin timeoutS f)
  · rw [← run_snoc, hv, hover.2.1, hw]
  · unfold Trial.Accepted at h
    rw [← run_snoc, hv, hw, trial_countdown, trial_countdown, heffect.2.begin_countdown,
      if_neg (hr ▸ h)]

/-- An image that the timeout rolls back is on trial, and its deadline was armed by an
accepted begin and has come. -/
theorem rollback_origin {timer : TimerHandle} {f : Faults}
    (hlive : (Trial.run build image now es).device.rebooted = false)
    (h : ((Trial.run build image now es).next build (.expire timer f)).device.rebooted = true) :
    (Trial.run build image now es).device.image = some .pendingVerify ∧
      ∃ deadline, (Trial.run build image now es).countdown = [deadline] ∧
        deadline ≤ (Trial.run build image now es).device.now := by
  obtain ⟨w, v, r, hw, hv, _, hover | heffect⟩ := run_cases build image now es (.expire timer f)
  · rw [hw, trial_rebooted, hover.1] at hlive
    cases hlive
  · rw [← run_snoc, hv, trial_rebooted] at h
    rw [hw, trial_countdown]
    exact heffect.2.rollback heffect.1 h

theorem confirms_valid {e : TrialEvent} (h : (Trial.run build image now es).Confirms build e) :
    (Trial.run build image now (es ++ [e])).device.image = some .valid := by
  obtain ⟨⟨f, he⟩, hresult⟩ := h
  obtain ⟨w, v, r, hw, hv, hr, hover | heffect⟩ := run_cases build image now es e
  · rw [hr, hover.2.2] at hresult
    cases hresult
  · rw [hv, trial_image]
    exact heffect.2.confirms_valid he (hr.symm.trans hresult)

/-- A confirmed image is not put on trial again, so no expiry rolls it back and no begin
is accepted. -/
theorem confirmed_for_good {pre post : List TrialEvent} {e : TrialEvent}
    (hes : es = pre ++ e :: post) (h : (Trial.run build image now pre).Confirms build e) :
    (Trial.run build image now es).device.image ≠ some .pendingVerify := by
  have hvalid := confirms_valid h
  have hsplit : es = (pre ++ [e]) ++ post := by simp [hes]
  intro hpending
  rw [hsplit] at hpending
  rw [run_pending hpending] at hvalid
  cases hvalid

/-- No event brings a device back that has rebooted. -/
theorem rebooted_for_good {e : TrialEvent} (h : (Trial.run build image now es).device.rebooted = true) :
    ((Trial.run build image now es).next build e).device.rebooted = true := by
  obtain ⟨w, v, r, hw, hv, _, hover | heffect⟩ := run_cases build image now es e
  · rw [← run_snoc, hv, hover.2.1]
    exact hover.1
  · rw [hw, trial_rebooted, heffect.1] at h
    cases h

theorem one_timer : (Trial.run build image now es).device.timers.length ≤ 1 ∧
    (Trial.run build image now es).countdown.length ≤ 1 := by
  rw [run_refines, trial_countdown]
  obtain ⟨image, window, now, rebooted⟩ := Watch.run build image now es
  cases window <;> simp [Watch.trial, Watch.device]

/-- The law of the deadline, after every sequence of events of a boot. -/
theorem trial_deadline (build : BuildOptions) (image : Option ImgState) (now : Nat)
    (es : List TrialEvent) : DeadlineLaw build image now es where
  one_timer := one_timer.1
  one_deadline := one_timer.2
  accepted_iff := accepted_iff
  accepted_deadline := by
    intro timeoutS f haccept
    rw [← run_snoc]
    exact accepted_countdown haccept
  refused_countdown := fun _ _ => refused_countdown
  rollback := by
    intro timer f hlive hrollback
    obtain ⟨hpending, deadline, harmed, hdue⟩ := rollback_origin hlive hrollback
    obtain ⟨pre, timeoutS, f', post, hes, haccept, rfl, hsince⟩ := armed_since harmed
    exact ⟨hpending, pre, timeoutS, f', post, hes, haccept, hdue, hsince⟩
  confirmed := by
    intro pre e post hes hconfirms
    have hpending := confirmed_for_good hes hconfirms
    constructor
    · intro timer f
      cases hlive : (Trial.run build image now es).device.rebooted with
      | true => exact rebooted_for_good hlive
      | false =>
        rw [Bool.eq_false_iff]
        intro hrollback
        exact hpending (rollback_origin hlive hrollback).1
    · intro timeoutS f haccept
      exact hpending ((accepted_iff timeoutS f).mp haccept).2.2.1

/-- A deadline of five seconds that nobody answers. -/
example : (Trial.run sampleBuild (some .pendingVerify) 0
    [.begin 5 noFaults, .tick 5000000, .expire 0 noFaults]).device.rebooted = true := by
  decide

end Boot

end OtaApi
