import OtaApi.Commit
import OtaApi.Nesting

/-!
# Background updates

`ota_api_start_task()` answers before the update has begun, and the task it
created restarts the device after the update has ended. In both windows the slot
is free, so what the application is promised is about the update's own stay in
it: a restart spares nobody who came before its release, and the outcome is told
exactly by those updates that got the slot.
-/

namespace OtaApi

open Interaction

/-! ## Runs from any state -/

section Run

variable {build : BuildOptions}

/-- An activation is never forgotten, and its calls stay made. -/
theorem exec_activation {s : System} {i : Nat} {a : Activation} (h : s.activations[i]? = some a)
    (ls : List Label) : ∃ a', (exec (System.step build) s ls).activations[i]? = some a' ∧
      a.trace <+: a'.trace ∧ a'.routine = a.routine := by
  induction ls generalizing s a with
  | nil => exact ⟨a, h, List.prefix_rfl, rfl⟩
  | cons l ls ih =>
    obtain ⟨b, hb, hev⟩ := (@step_change build s l).evolves h
    obtain ⟨a', ha', htrace, hr⟩ := ih hb
    exact ⟨a', ha', hev.trace_le.trans htrace, hr.trans hev.routine_eq⟩

theorem system_run_append (ls ms : List Label) :
    System.run build (ls ++ ms) = exec (System.step build) (System.run build ls) ms :=
  exec_append System.initial ls ms

/-- Twice the calls that have returned, and one for the call it is inside of. -/
def Activation.age (a : Activation) : Nat := 2 * a.trace.length + a.entered.toNat

theorem Evolves.age_le {slot : RunState} {a a' : Activation} (h : Evolves slot a a') :
    a.age ≤ a'.age := by
  cases h with
  | same => exact Nat.le_refl _
  | noticed _ => exact Nat.le_refl _
  | entered _ he _ => simp [Activation.age, Activation.enter, he]
  | passed _ he _ =>
    simp only [Activation.age, Activation.resume, List.length_append, List.length_singleton]
    rw [he]
    simp only [Bool.toNat_false]
    omega
  | answered _ _ he _ =>
    simp only [Activation.age, Activation.resume, List.length_append, List.length_singleton]
    rw [he]
    simp only [Bool.toNat_true, Bool.toNat_false]
    omega

/-- The age of an activation, zero before it has started. -/
def System.rank (i : Nat) (s : System) : Nat :=
  match s.activations[i]? with
  | none => 0
  | some a => a.age + 1

theorem rank_of_get {s : System} {i : Nat} {a : Activation} (h : s.activations[i]? = some a) :
    s.rank i = a.age + 1 := by
  simp [System.rank, h]

theorem rank_step (i : Nat) (s : System) (l : Label) : s.rank i ≤ (s.step build l).rank i := by
  cases h : s.activations[i]? with
  | none => simp [System.rank, h]
  | some a =>
    obtain ⟨a', ha', hev⟩ := (@step_change build s l).evolves h
    rw [rank_of_get h, rank_of_get ha']
    exact Nat.succ_le_succ hev.age_le

end Run

/-! ## The start of a task -/

section Start

variable {build : BuildOptions}

theorem startTask_invalid {a : Activation} (hs : a.Sound build) {config : Option OtaApiConfig}
    (hr : a.routine = .otaApiStartTask config) (hu : config.bind OtaApiConfig.url = none) :
    a.result? = some espErrInvalidArg ∧ a.next? = none := by
  have hp : Routine.program build (.otaApiStartTask config) = pure espErrInvalidArg := by
    cases config with
    | none => rfl
    | some config =>
      have hu : config.url = none := hu
      simp only [Routine.program, otaApiStartTask, hu]
  have hruns := hs.runs
  rw [hr, hp] at hruns
  obtain ⟨_, hprog⟩ := hruns.of_done rfl
  rw [Activation.result?, Activation.next?, hprog]
  exact ⟨rfl, rfl⟩

/-- The calls a start can be at, and what a start that was accepted has done. -/
theorem startTask_cases {a : Activation} (hs : a.Sound build) {config : OtaApiConfig}
    (hr : a.routine = .otaApiStartTask (some config)) :
    (∀ c, a.next? = some c → c = .malloc ∨ c = .free ∨
      ∃ size priority, c = .taskCreate size priority config ∧ a.trace = [⟨.malloc, true⟩]) ∧
    (a.result? = some espOk → config.url ≠ none ∧ ∃ size priority,
      a.trace = [⟨.malloc, true⟩, ⟨.taskCreate size priority config, true⟩]) := by
  cases hu : config.url with
  | none =>
    obtain ⟨hresult, hnext⟩ := startTask_invalid hs hr hu
    rw [hresult, hnext]
    exact ⟨fun c h => (by cases h), fun h => (by cases h)⟩
  | some url =>
    have hruns := hs.runs
    rw [hr] at hruns
    simp only [Routine.program, otaApiStartTask, hu] at hruns
    rw [Activation.next?, Activation.result?]
    generalize a.trace = t at hruns ⊢
    generalize a.prog = p at hruns ⊢
    cases hruns with
    | nil _ => exact ⟨fun c h => .inl (by cases h; rfl), fun h => by cases h⟩
    | cons ht copy rest =>
      cases ht
      cases copy with
      | false =>
        obtain ⟨rfl, rfl⟩ := rest.of_done rfl
        exact ⟨fun c h => (by cases h), fun h => (by cases h)⟩
      | true =>
        cases rest with
        | nil _ => exact ⟨fun c h => .inr (.inr (by cases h; exact ⟨_, _, rfl, rfl⟩)), fun h => by cases h⟩
        | cons ht created rest =>
          cases ht
          cases created with
          | true =>
            obtain ⟨rfl, rfl⟩ := rest.of_done rfl
            exact ⟨fun c h => (by cases h), fun _ => ⟨by simp, _, _, rfl⟩⟩
          | false =>
            cases rest with
            | nil _ => exact ⟨fun c h => .inr (.inl (by cases h; rfl)), fun h => by cases h⟩
            | cons ht freed rest =>
              cases ht
              obtain ⟨rfl, rfl⟩ := rest.of_done rfl
              exact ⟨fun c h => (by cases h), fun h => (by cases h)⟩

end Start

/-! ## The restart -/

section Restart

variable {build : BuildOptions}

/-- The device is not restarted under an update that holds the slot. -/
def RestartsAlone (s : System) : Prop :=
  ∀ (j : Nat) (b : Activation), s.activations[j]? = some b → b.next? = some .restart →
    b.entered = true → ∀ (k : Nat) (c : Activation), s.activations[k]? = some c → c.holds = false

/-- Only a release makes an activation one that has released. -/
theorem release_step {ls : List Label} {l : Label} {i : Nat} {a' : Activation}
    (ha' : ((System.run build ls).step build l).activations[i]? = some a')
    (hreleased : 0 < a'.releases)
    (hnot : ∀ a, (System.run build ls).activations[i]? = some a → a.releases = 0) :
    ∃ a, (System.run build ls).activations[i]? = some a ∧ a.holds = true := by
  obtain ⟨a, ha, hev⟩ | ⟨_, r, rfl⟩ := (step_change _ l).origin ha'
  · have hzero := hnot a ha
    refine ⟨a, ha, ?_⟩
    have resumed : ∀ {c : Call} {k : Answer c → Program EspErr} {answer : Answer c},
        0 < (a.resume k answer).releases → isRelease ⟨c, answer⟩ = true := by
      intro c k answer h
      by_contra hno
      simp only [Activation.releases] at hzero
      simp [Activation.releases, Activation.resume, List.countP_append, hzero, hno] at h
    cases hev with
    | same => omega
    | entered _ _ _ => exact absurd hreleased (by rw [show a.enter.releases = a.releases from rfl]; omega)
    | noticed _ => exact absurd hreleased (by rw [show a.notice.releases = a.releases from rfl]; omega)
    | @answered c k answer _ _ hc =>
      have hrelease := resumed hreleased
      rw [@not_release ⟨c, answer⟩ hc] at hrelease
      cases hrelease
    | @passed c k answer slot' ht he hcs =>
      have hrelease := resumed hreleased
      obtain ⟨rfl, _⟩ | ⟨hholds, _⟩ :=
        critical_phase (run_sound ha) ht (critical_of_criticalSection hcs)
      · cases hrelease
      · exact hholds
  · cases hreleased

/-- Claims and releases are only ever added. -/
theorem claims_le {a a' : Activation} (h : a.trace <+: a'.trace) :
    a.claims ≤ a'.claims ∧ a.releases ≤ a'.releases :=
  ⟨h.sublist.countP_le, h.sublist.countP_le⟩

theorem holds_iff {a : Activation} : a.holds = true ↔ 0 < a.claims ∧ a.releases = 0 := by
  simp only [Activation.holds, holds, Bool.and_eq_true, Bool.not_eq_true', Activation.claims,
    Activation.releases, List.countP_pos_iff, List.countP_eq_zero, List.any_eq_true]
  simp

/-- Whoever holds the slot after an update has released it claimed it after that. -/
theorem claimed_after_release {pre post : List Label} {i k : Nat} {a c ck : Activation}
    (ha : (System.run build (pre ++ post)).activations[i]? = some a) (hreleased : 0 < a.releases)
    (hc : (System.run build (pre ++ post)).activations[k]? = some c) (hholds : c.holds = true)
    (hbefore : ∀ ai, (System.run build pre).activations[i]? = some ai → ai.releases = 0)
    (hck : (System.run build pre).activations[k]? = some ck) : ck.claims = 0 := by
  by_contra hclaimed
  have hpos : 0 < ck.claims := Nat.pos_of_ne_zero hclaimed
  obtain ⟨_, hczero⟩ := holds_iff.mp hholds
  -- the step that releases is taken between the two moments
  have hnot : ¬∃ ai, (System.run build pre).activations[i]? = some ai ∧ 0 < ai.releases := by
    rintro ⟨ai, hai, hlt⟩
    rw [hbefore ai hai] at hlt
    cases hlt
  rw [system_run_append] at ha hc
  obtain ⟨mid, l, rest, rfl, hmid, hsince⟩ := @exec_since _ _ (System.step build)
    (fun s => ∃ ai, s.activations[i]? = some ai ∧ 0 < ai.releases) _ post hnot ⟨a, ha, hreleased⟩
  obtain ⟨ai, hai, hlt⟩ := hsince [] List.nil_prefix
  rw [exec_snoc, ← system_run_append] at hai
  rw [← system_run_append] at hmid
  obtain ⟨a₁, ha₁, hholds₁⟩ := release_step hai hlt fun a₀ ha₀ => by
    by_contra hne
    exact hmid ⟨a₀, ha₀, Nat.pos_of_ne_zero hne⟩
  -- and the later holder has had the slot all the time
  obtain ⟨c₁, hc₁, hle, _⟩ := @exec_activation build _ _ _ hck mid
  rw [exec_append, exec_cons] at hc ha
  obtain ⟨c', hc', hle', _⟩ := @exec_activation build _ _ _ hc₁ (l :: rest)
  rw [exec_cons] at hc'
  rw [hc] at hc'
  cases hc'
  have hholdsc : c₁.holds = true := by
    have h₁ := (claims_le hle).1
    have h₂ := (claims_le hle').2
    exact holds_iff.mpr ⟨by omega, by omega⟩
  rw [← system_run_append] at hc₁
  obtain rfl := (run_singleSlot (pre ++ mid)).exclusive i k a₁ c₁ ha₁ hc₁ hholds₁ hholdsc
  rw [hc] at ha
  cases ha
  omega

/-- An update that has succeeded has had the slot, and given it back. -/
theorem succeeded_released {a : Activation} {config : OtaApiConfig} (hs : a.Sound build)
    (hr : a.routine = .otaApiUpdate (some config)) (hok : a.result? = some espOk) :
    a.claims = 1 ∧ a.releases = 1 := by
  cases hu : config.url with
  | none =>
    obtain ⟨_, hprog⟩ := invalid_stopped hs hr hu
    rw [Activation.result?, hprog] at hok
    cases hok
  | some url =>
    obtain ⟨ph, hpath, hprog⟩ := update_path hs ⟨hr, hu⟩
    obtain rfl | rfl := update_result? hprog hok
    · exact path_claims hpath
    · exact absurd rfl (path_success hpath)

/-- The call of an update enters it. -/
theorem callsUpdate_step {s : System} {l : Label} {j i : Nat} (h : CallsUpdate j i s l) :
    ∃ b config, s.activations[j]? = some b ∧ b.routine = .otaTask config ∧
      b.next? = some (.otaApiUpdate config) ∧ b.entered = false ∧ i = s.activations.length ∧
      (s.step build l).activations[j]? = some b.enter := by
  obtain ⟨τ, b, config, rfl, hrun, hcur, hr, hn, he, hi⟩ := h
  have hget := current?_get hcur
  obtain ⟨k, ht⟩ := Turn.eq_call hn
  obtain ⟨hlt, _⟩ := List.getElem?_eq_some_iff.mp hget
  have hstep : s.step build (.advance τ) = (s.put j b.enter).entering build τ (.otaApiUpdate config) :=
    step_entering hrun hcur ht he rfl
  refine ⟨b, config, hget, hr, hn, he, hi, ?_⟩
  rw [hstep]
  change (s.activations.set j b.enter ++ _)[j]? = _
  rw [List.getElem?_append_left (by simpa using hlt), List.getElem?_set_self hlt]

/-- A task calls one update only. -/
theorem callsUpdate_unique {ls : List Label} {j i i' : Nat}
    (h : Sometime (System.step build) (CallsUpdate j i) .initial ls)
    (h' : Sometime (System.step build) (CallsUpdate j i') .initial ls) : i' = i := by
  have hrank : ∀ {i : Nat} (pre : List Label) (l : Label),
      CallsUpdate j i (exec (System.step build) .initial pre) l →
      (exec (System.step build) .initial pre).rank j = 3 ∧
        3 < (System.step build (exec (System.step build) .initial pre) l).rank j := by
    intro i pre l hcall
    obtain ⟨b, config, hget, hr, hn, he, _, hget'⟩ := @callsUpdate_step build _ _ _ _ hcall
    have htrace : b.trace = [⟨.free, ()⟩] := by
      obtain ⟨_, hn'⟩ | ⟨htrace, _⟩ | ⟨r, _, hn'⟩ := otaTask_state (run_sound hget) hr
      · rw [hn] at hn'
        cases hn'
      · exact htrace
      · rw [hn] at hn'
        split at hn' <;> cases hn'
    rw [rank_of_get hget, rank_of_get hget']
    simp [Activation.age, Activation.enter, htrace, he]
  obtain ⟨pre, l, hl, hl'⟩ := Sometime.once (fun s l => rank_step j s l) hrank hrank h h'
  obtain ⟨_, _, _, _, _, _, rfl, _⟩ := @callsUpdate_step build _ _ _ _ hl
  obtain ⟨_, _, _, _, _, _, rfl, _⟩ := @callsUpdate_step build _ _ _ _ hl'
  rfl

/-- A task whose update has returned, and the update. -/
theorem task_back {ls : List Label} {j : Nat} {b : Activation} {config : OtaApiConfig}
    (hb : (System.run build ls).activations[j]? = some b) (hr : b.routine = .otaTask config)
    (hn : b.next? = some .restart ∨ b.next? = some .taskDelete) :
    ∃ i a r, Sometime (System.step build) (CallsUpdate j i) .initial ls ∧
      (System.run build ls).activations[i]? = some a ∧ a.routine = .otaApiUpdate (some config) ∧
      a.result? = some r ∧ b.next? = some (if r = espOk then .restart else .taskDelete) := by
  cases (run_nested ls).stage j b config hb hr with
  | starting _ hnext =>
    obtain h | ⟨h, _⟩ := hnext <;> rw [h] at hn <;> obtain h | h := hn <;> cases h
  | waiting _ _ _ hnext _ _ _ _ =>
    rw [hnext] at hn
    obtain h | h := hn <;> cases h
  | back _ _ hnext hcalls hget hru hresult => exact ⟨_, _, _, hcalls, hget, hru, hresult, hnext⟩

/-- What a task that is about to restart the device, or does so, leaves behind. -/
structure RestartDeferred (build : BuildOptions) (ls : List Label) (j : Nat) : Prop where
  own : ∃! i, Sometime (System.step build) (CallsUpdate j i) .initial ls
  succeeded : ∀ i, Sometime (System.step build) (CallsUpdate j i) .initial ls →
    ∃ a, (System.run build ls).activations[i]? = some a ∧ a.result? = some espOk ∧
      a.claims = 1 ∧ a.releases = 1
  /-- Whoever holds the slot came after the update of the task had released it. -/
  later : ∀ i, Sometime (System.step build) (CallsUpdate j i) .initial ls →
    ∀ (k : Nat) (c : Activation), (System.run build ls).activations[k]? = some c →
      c.holds = true → ∀ pre post, ls = pre ++ post →
        (∀ a, (System.run build pre).activations[i]? = some a → a.releases = 0) →
        ∀ ck, (System.run build pre).activations[k]? = some ck → ck.claims = 0

/-- Only `ota_task()` restarts the device, or deletes a task. -/
theorem ends_task {a : Activation} (hs : a.Sound build)
    (hn : a.next? = some .restart ∨ a.next? = some .taskDelete) :
    ∃ config, a.routine = .otaTask config := by
  cases hr : a.routine with
  | otaTask config => exact ⟨config, rfl⟩
  | otaApiStartTask config =>
    exfalso
    cases config with
    | none =>
      have hnone := startTask_invalid hs hr rfl
      rw [hnone.2] at hn
      obtain h | h := hn <;> cases h
    | some config =>
      obtain ⟨hnext, _⟩ := startTask_cases hs hr
      obtain h | h := hn
      · obtain h | h | ⟨_, _, h, _⟩ := hnext _ h <;> cases h
      · obtain h | h | ⟨_, _, h, _⟩ := hnext _ h <;> cases h
  | otaApiUpdate config =>
    exfalso
    cases hu : config.bind OtaApiConfig.url with
    | none =>
      obtain ⟨_, hprog⟩ := invalid_stopped hs hr hu
      rw [Activation.next?, hprog] at hn
      obtain h | h := hn <;> cases h
    | some url =>
      obtain ⟨config, rfl, hurl⟩ := Option.bind_eq_some_iff.mp hu
      obtain ⟨ph, _, hprog⟩ := update_path hs ⟨hr, hurl⟩
      rw [update_next? hprog] at hn
      obtain h | h := hn <;> cases ph <;> cases h

theorem restart_deferred {ls : List Label} {j : Nat} {b : Activation}
    (hb : (System.run build ls).activations[j]? = some b) (hn : b.next? = some .restart) :
    RestartDeferred build ls j := by
  obtain ⟨config, hr⟩ := ends_task (run_sound hb) (.inl hn)
  obtain ⟨i, a, r, hcalls, ha, hru, hresult, hnext⟩ := task_back hb hr (.inl hn)
  have hok : r = espOk := by
    by_contra herr
    rw [hn, if_neg herr] at hnext
    cases hnext
  subst hok
  obtain ⟨hclaims, hreleases⟩ := succeeded_released (run_sound ha) hru hresult
  constructor
  case own => exact ⟨i, hcalls, fun i' hcalls' => callsUpdate_unique hcalls hcalls'⟩
  case succeeded =>
    intro i' hcalls'
    obtain rfl := callsUpdate_unique hcalls hcalls'
    exact ⟨a, ha, hresult, hclaims, hreleases⟩
  case later =>
    intro i' hcalls' k c hc hholds pre post hls hbefore ck hck
    obtain rfl := callsUpdate_unique hcalls hcalls'
    subst hls
    exact claimed_after_release ha (by omega) hc hholds hbefore hck

/-- `ota_api_start_task()` is accepted. -/
def startTask (τ : Task) (config : OtaApiConfig) : List Label :=
  [.otaApiStartTask τ (some config)] ++ Label.through τ (.flag true) ++
    Label.through τ (.flag true) ++ [.advance τ]

/-- The task frees its copy of the configuration and calls the update. -/
def taskEntry (τ : Task) : List Label := Label.through τ .none ++ [.advance τ]

/-- The background update has succeeded, and its callback takes its time at the last
event; an update that somebody else calls is accepted, and the device restarts. -/
def overtaken : List Label :=
  startTask (.app 0) sampleConfig ++ taskEntry (.spawned 1) ++
    ((wholeUpdate (.spawned 1) sampleConfig).drop 1).dropLast.dropLast ++
    (admission (.app 0) sampleConfig).take 2 ++
    [.answer (.spawned 1) (.err espOk), .advance (.spawned 1), .advance (.spawned 1)]

theorem restart_under_update :
    (System.run sampleBuild overtaken).restarted = true ∧
      ¬RestartsAlone (System.run sampleBuild overtaken) := by
  have hrun : (System.run sampleBuild overtaken).restarted = true ∧
      ((System.run sampleBuild overtaken).activations[1]?).map (fun b => (b.next?, b.entered)) =
        some (some .restart, true) ∧
      ((System.run sampleBuild overtaken).activations[3]?).map Activation.holds = some true := by
    decide +kernel
  obtain ⟨hrestarted, htask, hupdate⟩ := hrun
  obtain ⟨b, hb, hview⟩ := Option.map_eq_some_iff.mp htask
  obtain ⟨hnext, hentered⟩ := Prod.mk.inj hview
  obtain ⟨c, hc, hholds⟩ := Option.map_eq_some_iff.mp hupdate
  refine ⟨hrestarted, fun halone => ?_⟩
  have hfree := halone 1 b hb hnext hentered 3 c hc
  rw [hholds] at hfree
  cases hfree

theorem restart_deferred_overtaken : RestartDeferred sampleBuild overtaken 1 := by
  have hrun : ((System.run sampleBuild overtaken).activations[1]?).map Activation.next? =
      some (some .restart) := by decide +kernel
  obtain ⟨b, hb, hnext⟩ := Option.map_eq_some_iff.mp hrun
  exact restart_deferred hb hnext

end Restart

/-! ## The outcome -/

section Outcome

variable {build : BuildOptions}

/-- A start has a task created, as a new activation of `ota_task()`. -/
def CreatesTask (i j : Nat) (s : System) (l : Label) : Prop :=
  ∃ τ a config size priority, l = .answer τ (.flag true) ∧ s.restarted = false ∧
    s.current? τ = some (i, a) ∧ a.routine = .otaApiStartTask (some config) ∧
    a.next? = some (.taskCreate size priority config) ∧ a.entered = true ∧ j = s.activations.length

/-- The task that is created runs its activation, and the start has it on record. -/
theorem createsTask_step {s : System} {l : Label} {i j : Nat} (h : CreatesTask i j s l) :
    ∃ a a' config size priority, s.activations[i]? = some a ∧
      a.routine = .otaApiStartTask (some config) ∧
      a.next? = some (.taskCreate size priority config) ∧ a.entered = true ∧
      j = s.activations.length ∧ (s.step build l).activations[i]? = some a' ∧
      a'.trace.length = a.trace.length + 1 ∧
      (s.step build l).activations[j]? = some (.start build (.otaTask config)) := by
  obtain ⟨τ, a, config, size, priority, rfl, hrun, hcur, hr, hn, he, hj⟩ := h
  have hget := current?_get hcur
  obtain ⟨k, ht⟩ := Turn.eq_call hn
  obtain ⟨hlt, _⟩ := List.getElem?_eq_some_iff.mp hget
  have hact : (s.step build (.answer τ (.flag true))).activations =
      s.activations.set i (@Activation.resume (.taskCreate size priority config) a k true) ++
        [.start build (.otaTask config)] := by
    rw [@step_answering build s τ (.flag true) i a _ k true hrun hcur ht he rfl]
    rfl
  refine ⟨a, @Activation.resume (.taskCreate size priority config) a k true, config, size, priority,
    hget, hr, hn, he, hj, ?_, ?_, ?_⟩
  · rw [hact, List.getElem?_append_left (by simpa using hlt), List.getElem?_set_self hlt]
  · simp [Activation.resume]
  · rw [hact, hj, List.getElem?_append_right (by simp)]
    simp

/-- A start creates one task only. -/
theorem createsTask_unique {ls : List Label} {i j j' : Nat}
    (h : Sometime (System.step build) (CreatesTask i j) .initial ls)
    (h' : Sometime (System.step build) (CreatesTask i j') .initial ls) : j' = j := by
  have hrank : ∀ {j : Nat} (pre : List Label) (l : Label),
      CreatesTask i j (exec (System.step build) .initial pre) l →
      (exec (System.step build) .initial pre).rank i = 4 ∧
        4 < (System.step build (exec (System.step build) .initial pre) l).rank i := by
    intro j pre l hcreate
    obtain ⟨a, a', config, size, priority, hget, hr, hn, he, _, hget', hlen, _⟩ :=
      @createsTask_step build _ _ _ _ hcreate
    have htrace : a.trace.length = 1 := by
      obtain h | h | ⟨_, _, _, htrace⟩ := (startTask_cases (run_sound hget) hr).1 _ hn
      · cases h
      · cases h
      · rw [htrace]
        rfl
    rw [rank_of_get hget, rank_of_get hget', Activation.age, Activation.age, he, hlen, htrace]
    constructor
    · rfl
    · omega
  obtain ⟨pre, l, hl, hl'⟩ := Sometime.once (fun s l => rank_step i s l) hrank hrank h h'
  obtain ⟨_, _, _, _, _, _, _, _, _, rfl, _⟩ := @createsTask_step build _ _ _ _ hl
  obtain ⟨_, _, _, _, _, _, _, _, _, rfl, _⟩ := @createsTask_step build _ _ _ _ hl'
  rfl

/-- The step after which a creation is on record is the one that creates the task. -/
theorem Shift.creates {s s' : System} {l : Label} (h : Shift build s l s') {i : Nat}
    {a' : Activation} {config config' : OtaApiConfig} {size priority : UInt32}
    (hget' : s'.activations[i]? = some a') (hr : a'.routine = .otaApiStartTask (some config'))
    (hmem : ⟨.taskCreate size priority config, true⟩ ∈ a'.trace)
    (hnot : ∀ a, s.activations[i]? = some a →
      (⟨.taskCreate size priority config, true⟩ : Event) ∉ a.trace)
    (hs : ∀ a, s.activations[i]? = some a → a.Sound build) : ∃ j, CreatesTask i j s l := by
  have replaced : ∀ {m : Nat} {a b : Activation} {new : List Routine},
      s.activations[m]? = some a → s'.activations = s.activations.set m b ++ new.map (.start build) →
      i = m ∧ a' = b := by
    intro m a b new hm hact
    rw [hact] at hget'
    obtain ⟨hi, hb, _⟩ | ⟨_, hget⟩ | ⟨_, hnew⟩ := getElem?_set_append hget'
    · exact ⟨hi, hb⟩
    · exact absurd hmem (hnot a' hget)
    · obtain ⟨r, _, rfl⟩ := List.mem_map.mp hnew
      cases hmem
  cases h with
  | still hstack hact hlen =>
    obtain ⟨hlt, _⟩ := List.getElem?_eq_some_iff.mp hget'
    rw [hlen] at hlt
    have hget := List.getElem?_eq_getElem hlt
    obtain hkept | hkept := hact i _ hget
    · rw [hget'] at hkept
      cases hkept
      exact absurd hmem (hnot _ hget)
    · rw [hget'] at hkept
      obtain rfl := Option.some.inj hkept
      exact (hnot _ hget hmem).elim
  | pushed _ _ _ hact =>
    rw [hact] at hget'
    by_cases hlt : i < s.activations.length
    · rw [List.getElem?_append_left hlt] at hget'
      exact absurd hmem (hnot a' hget')
    · rw [List.getElem?_append_right (by omega)] at hget'
      obtain rfl := List.mem_singleton.mp (List.mem_of_getElem? hget')
      cases hmem
  | @called τ m a c k _ _ hcur _ _ _ hact =>
    obtain ⟨rfl, rfl⟩ := @replaced m a _ [_] (current?_get hcur) hact
    exact absurd hmem (hnot a (current?_get hcur))
  | @created τ m a size' priority' c k _ hrun hcur ht he _ hact =>
    obtain ⟨rfl, rfl⟩ := @replaced m a _ [_] (current?_get hcur) hact
    obtain hold | hnew := List.mem_append.mp hmem
    · exact absurd hold (hnot a (current?_get hcur))
    · cases List.mem_singleton.mp hnew
      have hn := next?_of_turn ht
      obtain h | h | ⟨_, _, h, _⟩ := (startTask_cases (hs a (current?_get hcur)) hr).1 _ hn
      · cases h
      · cases h
      · cases h
        exact ⟨_, τ, a, _, _, _, rfl, hrun, hcur, hr, hn, he, rfl⟩
  | @worked _ τ m a b _ hcur hev _ hcreate _ hact =>
    obtain ⟨rfl, rfl⟩ := @replaced m a _ [] (current?_get hcur) (by simpa using hact)
    exact absurd (hcreate _ _ _ hmem) (hnot a (current?_get hcur))
  | popped _ _ _ _ hact =>
    rw [hact] at hget'
    exact absurd hmem (hnot a' hget')
  | @returned τ m n a b r c k _ _ _ _ hb _ _ _ hact =>
    obtain ⟨rfl, rfl⟩ := @replaced n b _ [] hb (by simpa using hact)
    obtain hold | hnew := List.mem_append.mp hmem
    · exact absurd hold (hnot b hb)
    · cases List.mem_singleton.mp hnew

/-- Every start that was accepted has created a task, which runs its configuration. -/
theorem accepted_creates {ls : List Label} {i : Nat} {a : Activation} {config : OtaApiConfig}
    (ha : (System.run build ls).activations[i]? = some a)
    (hr : a.routine = .otaApiStartTask (some config)) (hok : a.result? = some espOk) :
    ∃ j, Sometime (System.step build) (CreatesTask i j) .initial ls := by
  obtain ⟨_, size, priority, htrace⟩ := (startTask_cases (run_sound ha) hr).2 hok
  obtain ⟨pre, l, post, rfl, hnot, hsince⟩ := @exec_since _ _ (System.step build)
    (fun s => ∃ a, s.activations[i]? = some a ∧ a.routine = .otaApiStartTask (some config) ∧
      ⟨.taskCreate size priority config, true⟩ ∈ a.trace) .initial ls (by simp [System.initial])
    ⟨a, ha, hr, by simp [htrace]⟩
  obtain ⟨a', ha', hr', hmem⟩ := hsince [] List.nil_prefix
  rw [exec_snoc] at ha'
  obtain ⟨j, hj⟩ := (step_shift _ l).creates ha' hr' hmem
    (fun a₀ ha₀ h => hnot ⟨a₀, ha₀, by
      obtain ⟨a₁, ha₁, hev⟩ := (@step_change build _ l).evolves ha₀
      rw [ha'] at ha₁
      cases ha₁
      exact hev.routine_eq.symm.trans hr', h⟩) fun a₀ ha₀ => run_sound ha₀
  exact ⟨j, pre, l, post, rfl, hj⟩

/-- What is created once is there ever after. -/
theorem created_task {ls : List Label} {i j : Nat} {a : Activation} {config : OtaApiConfig}
    (ha : (System.run build ls).activations[i]? = some a)
    (hr : a.routine = .otaApiStartTask (some config))
    (h : Sometime (System.step build) (CreatesTask i j) .initial ls) :
    ∃ b, (System.run build ls).activations[j]? = some b ∧ b.routine = .otaTask config := by
  obtain ⟨pre, l, post, rfl, hl⟩ := h
  obtain ⟨a₀, a₁, config', _, _, ha₀, hr₀, _, _, _, _, _, hb₁⟩ := @createsTask_step build _ _ _ _ hl
  obtain ⟨b, hb, _, hrb⟩ := exec_activation hb₁ post
  obtain ⟨a', ha', _, hra⟩ := @exec_activation build _ _ _ ha₀ (l :: post)
  rw [← exec_cons, ← exec_append] at hb
  rw [← exec_append] at ha'
  obtain rfl : a' = a := Option.some.inj (ha'.symm.trans ha)
  rw [hr, hr₀] at hra
  cases hra
  exact ⟨b, hb, hrb⟩

/-- An update that had to find the slot free, and did not. -/
theorem refused_result {config : OtaApiConfig} {url : String} {t : List Event} {err : EspErr}
    (hp : Path (Move build config url) .claiming t (.refused err)) : err = espErrInvalidState := by
  obtain ⟨_, hend⟩ | ⟨_, _, _, _, _, m⟩ := hp.last
  · cases hend
  · cases m
    rfl

/-- What the update of a task that is at its end has told the callback. -/
structure OutcomeTold (build : BuildOptions) (ls : List Label) (cb : EventCb) (b : Activation)
    (i : Nat) : Prop where
  /-- It got the slot, and told its outcome once. -/
  claimed : ∀ a, (System.run build ls).activations[i]? = some a → 0 < a.claims → ∃ r,
    a.result? = some r ∧ (delivered a.trace).filter OtaApiEvent.terminal = [outcomeEvent r] ∧
      b.next? = some (if r = espOk then .restart else .taskDelete)
  /-- It was refused, and told nothing. -/
  busy : ∀ a, (System.run build ls).activations[i]? = some a → a.claims = 0 →
    ⟨.claimUpdateSlot, false⟩ ∈ a.trace ∧ a.result? = some espErrInvalidState ∧
      delivered a.trace = [] ∧ b.next? = some .taskDelete
  addressee : ∀ a, (System.run build ls).activations[i]? = some a →
    ∀ cb' event ctx (v : EspErr), ⟨.eventCb cb' event ctx, v⟩ ∈ a.trace → cb' = cb

/-- What becomes of a start that was accepted. -/
structure StartAccounted (build : BuildOptions) (ls : List Label) (i : Nat) (config : OtaApiConfig)
    (cb : EventCb) : Prop where
  created : ∃! j, Sometime (System.step build) (CreatesTask i j) .initial ls
  task : ∀ j, Sometime (System.step build) (CreatesTask i j) .initial ls →
    ∃ b, (System.run build ls).activations[j]? = some b ∧ b.routine = .otaTask config ∧
      (b.next? = some .restart ∨ b.next? = some .taskDelete →
        (∃! u, Sometime (System.step build) (CallsUpdate j u) .initial ls) ∧
        ∀ u, Sometime (System.step build) (CallsUpdate j u) .initial ls →
          (∃ a, (System.run build ls).activations[u]? = some a) ∧ OutcomeTold build ls cb b u)

theorem update_told {a : Activation} {b : Activation} {config : OtaApiConfig} {url : String}
    {cb : EventCb} {r : EspErr} (hs : a.Sound build) (hu : a.Updates config url)
    (hcb : config.eventCb = some cb) (hresult : a.result? = some r)
    (hnext : b.next? = some (if r = espOk then .restart else .taskDelete)) :
    (0 < a.claims → ∃ r, a.result? = some r ∧
      (delivered a.trace).filter OtaApiEvent.terminal = [outcomeEvent r] ∧
      b.next? = some (if r = espOk then .restart else .taskDelete)) ∧
    (a.claims = 0 → ⟨.claimUpdateSlot, false⟩ ∈ a.trace ∧ a.result? = some espErrInvalidState ∧
      delivered a.trace = [] ∧ b.next? = some .taskDelete) := by
  obtain ⟨ph, hpath, hprog⟩ := update_path hs hu
  have hend : ph = .finished r ∨ ph = .refused r := update_result? hprog hresult
  obtain rfl | rfl := hend
  · constructor
    · intro _
      obtain ⟨w, hw, hword, _⟩ := path_word (by simp [hcb]) hpath
      refine ⟨r, hresult, ?_, hnext⟩
      rw [hword, List.filter_append, List.filter_eq_nil_iff.mpr]
      · simp
      · intro event hmem
        rw [hw.not_terminal event hmem]
        decide
    · intro hzero
      rw [(path_claims hpath).1] at hzero
      cases hzero
  · have htrace : a.trace = [⟨.claimUpdateSlot, false⟩] := path_facts hpath
    obtain rfl := refused_result hpath
    constructor
    · intro hpos
      rw [(path_claims hpath).1] at hpos
      cases hpos
    · intro hzero
      refine ⟨by simp [htrace], hresult, (refused_silent hs hu.1 hzero).1, ?_⟩
      rw [hnext]
      rfl

/-- The outcome of a background update is told if it got the slot, and only then. -/
theorem start_accounted {ls : List Label} {i : Nat} {a : Activation} {config : OtaApiConfig}
    {cb : EventCb} (ha : (System.run build ls).activations[i]? = some a)
    (hr : a.routine = .otaApiStartTask (some config)) (hok : a.result? = some espOk)
    (hcb : config.eventCb = some cb) : StartAccounted build ls i config cb := by
  obtain ⟨url, hurl⟩ := Option.ne_none_iff_exists'.mp ((startTask_cases (run_sound ha) hr).2 hok).1
  constructor
  case created =>
    obtain ⟨j, hj⟩ := accepted_creates ha hr hok
    exact ⟨j, hj, fun j' hj' => createsTask_unique hj hj'⟩
  case task =>
    intro j hj
    obtain ⟨b, hb, hrb⟩ := created_task ha hr hj
    refine ⟨b, hb, hrb, fun hn => ?_⟩
    obtain ⟨u, d, r, hcalls, hd, hru, hresult, hnext⟩ := task_back hb hrb hn
    have hsd : d.Sound build := run_sound hd
    have hone : ∀ u' d', Sometime (System.step build) (CallsUpdate j u') .initial ls →
        (System.run build ls).activations[u']? = some d' → d' = d := by
      intro u' d' hcalls' hd'
      obtain rfl := callsUpdate_unique hcalls hcalls'
      rw [hd] at hd'
      cases hd'
      rfl
    obtain ⟨hclaimed, hbusy⟩ := update_told hsd ⟨hru, hurl⟩ hcb hresult hnext
    refine ⟨⟨u, hcalls, fun u' hu' => callsUpdate_unique hcalls hu'⟩, fun u' hcalls' => ⟨?_, ?_⟩⟩
    · rw [callsUpdate_unique hcalls hcalls']
      exact ⟨d, hd⟩
    · constructor
      case claimed =>
        intro d' hd' hpos
        obtain rfl := hone u' d' hcalls' hd'
        exact hclaimed hpos
      case busy =>
        intro d' hd' hzero
        obtain rfl := hone u' d' hcalls' hd'
        exact hbusy hzero
      case addressee =>
        intro d' hd' cb' event ctx v hmem
        obtain rfl := hone u' d' hcalls' hd'
        obtain ⟨ph, hpath, _⟩ := update_path hsd ⟨hru, hurl⟩
        obtain ⟨x, y, htrace⟩ := List.append_of_mem hmem
        rw [htrace] at hpath
        obtain ⟨hcb', _⟩ := path_addressee hpath
        rw [hcb] at hcb'
        cases hcb'
        rfl

/-- Two starts are accepted; the task of the second finds the slot taken. -/
def twoStarts : List Label :=
  startTask (.app 0) sampleConfig ++ startTask (.app 0) sampleConfig ++ taskEntry (.spawned 1) ++
    [.advance (.spawned 1)] ++ taskEntry (.spawned 3) ++
    [.advance (.spawned 3), .advance (.spawned 3), .advance (.spawned 3)]

/-- Every start that was accepted has told its outcome when its task comes to its end. -/
def AlwaysTold (build : BuildOptions) (ls : List Label) : Prop :=
  ∀ (i j u : Nat) (a b d : Activation) (config : OtaApiConfig),
    (System.run build ls).activations[i]? = some a → a.routine = .otaApiStartTask (some config) →
    a.result? = some espOk → config.eventCb ≠ none →
    Sometime (System.step build) (CreatesTask i j) .initial ls →
    (System.run build ls).activations[j]? = some b →
    b.next? = some .restart ∨ b.next? = some .taskDelete → b.entered = true →
    Sometime (System.step build) (CallsUpdate j u) .initial ls →
    (System.run build ls).activations[u]? = some d →
    ((delivered d.trace).filter OtaApiEvent.terminal).length = 1

theorem twoStarts_creates :
    Sometime (System.step sampleBuild) (CreatesTask 2 3) .initial twoStarts := by
  have hcur : ((System.run sampleBuild (twoStarts.take 10)).current? (.app 0)).map
        (fun x => (x.1, x.2.routine, x.2.next?, x.2.entered)) =
      some (2, .otaApiStartTask (some sampleConfig), some (.taskCreate 8192 5 sampleConfig), true) := by
    decide +kernel
  obtain ⟨⟨i, a⟩, ha, hview⟩ := Option.map_eq_some_iff.mp hcur
  simp only [Prod.mk.injEq] at hview
  obtain ⟨rfl, hr, hn, he⟩ := hview
  refine ⟨twoStarts.take 10, .answer (.app 0) (.flag true), twoStarts.drop 11, rfl, .app 0, a,
    sampleConfig, 8192, 5, rfl, ?_, ha, hr, hn, he, ?_⟩
  · decide +kernel
  · decide +kernel

theorem twoStarts_calls :
    Sometime (System.step sampleBuild) (CallsUpdate 3 5) .initial twoStarts := by
  have hcur : ((System.run sampleBuild (twoStarts.take 18)).current? (.spawned 3)).map
        (fun x => (x.1, x.2.routine, x.2.next?, x.2.entered)) =
      some (3, .otaTask sampleConfig, some (.otaApiUpdate sampleConfig), false) := by
    decide +kernel
  obtain ⟨⟨i, b⟩, hb, hview⟩ := Option.map_eq_some_iff.mp hcur
  simp only [Prod.mk.injEq] at hview
  obtain ⟨rfl, hr, hn, he⟩ := hview
  refine ⟨twoStarts.take 18, .advance (.spawned 3), twoStarts.drop 19, rfl, .spawned 3, b,
    sampleConfig, rfl, ?_, hb, hr, hn, he, ?_⟩
  · decide +kernel
  · decide +kernel

theorem second_start_untold : ¬AlwaysTold sampleBuild twoStarts := by
  intro htold
  have hrun : ((System.run sampleBuild twoStarts).activations[2]?).map
        (fun a => (a.routine, a.result?)) =
        some (.otaApiStartTask (some sampleConfig), some espOk) ∧
      ((System.run sampleBuild twoStarts).activations[3]?).map (fun b => (b.next?, b.entered)) =
        some (some .taskDelete, true) ∧
      ((System.run sampleBuild twoStarts).activations[5]?).map (fun d => delivered d.trace) =
        some [] := by decide +kernel
  obtain ⟨hstart, htask, hupdate⟩ := hrun
  obtain ⟨a, ha, hview⟩ := Option.map_eq_some_iff.mp hstart
  obtain ⟨hroutine, hresult⟩ := Prod.mk.inj hview
  obtain ⟨b, hb, hview⟩ := Option.map_eq_some_iff.mp htask
  obtain ⟨hnext, hentered⟩ := Prod.mk.inj hview
  obtain ⟨d, hd, hdelivered⟩ := Option.map_eq_some_iff.mp hupdate
  have hone := htold 2 3 5 a b d sampleConfig ha hroutine hresult (by decide) twoStarts_creates hb
    (.inr hnext) hentered twoStarts_calls hd
  rw [hdelivered] at hone
  cases hone

theorem start_accounted_untold : StartAccounted sampleBuild twoStarts 2 sampleConfig 0 := by
  have hrun : ((System.run sampleBuild twoStarts).activations[2]?).map
      (fun a => (a.routine, a.result?)) =
      some (.otaApiStartTask (some sampleConfig), some espOk) := by decide +kernel
  obtain ⟨a, ha, hview⟩ := Option.map_eq_some_iff.mp hrun
  obtain ⟨hroutine, hresult⟩ := Prod.mk.inj hview
  exact start_accounted ha hroutine hresult rfl

end Outcome

end OtaApi
