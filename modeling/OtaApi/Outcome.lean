import OtaApi.Ownership

/-!
# How an update ends

The first failure of an update is its result, the handle is closed once, and the
application hears of it in one fixed order of events.
-/

namespace OtaApi

open Interaction

/-! ## The result and the handle -/

section Machine

variable {build : BuildOptions} {config : OtaApiConfig} {url : String}

theorem Closed.only {h h' : HttpsOtaHandle} {t : List Event} (ht : Closed h t)
    (hb : Begun h' t) : h' = h := by
  obtain ⟨u, e, v, rfl, hu, he, _, hv⟩ := ht
  have hsplit : Begun h' u ∨ Begun h' [e] ∨ Begun h' v := by
    have happ : Begun h' (u ++ ([e] ++ v)) := hb
    exact (begun_append.mp happ).imp_right begun_append.mp
  obtain hb | hb | ⟨c, hc⟩ := hsplit
  · exact hu.only h' hb
  · obtain ⟨c, hc⟩ := hb
    cases List.mem_singleton.mp hc
    cases he
  · exact absurd ⟨c, List.mem_singleton_self _⟩ ((hv _ hc).2 h')

theorem path_handle_cases {t : List Event} {ph : Phase}
    (hp : Path (Move build config url) .claiming t ph) :
    Unopened t ∨ (∃ h, Opened h t) ∨ ∃ h, Closed h t := by
  have hh := path_handle hp
  cases ph with
  | claiming => exact .inl hh
  | refused _ => exact .inl hh
  | naming _ _ => exact .inl hh
  | connecting _ => exact .inl hh
  | releasing _ => exact hh.imp_right .inr
  | announcing _ _ => exact hh.imp_right .inr
  | finished _ => exact hh.imp_right .inr
  | _ => exact .inr (.inl ⟨_, hh⟩)

/-- A handle that was obtained is open, or was closed. -/
theorem begun_cases {t : List Event} {ph : Phase} {h : HttpsOtaHandle}
    (hp : Path (Move build config url) .claiming t ph) (hb : Begun h t) :
    Opened h t ∨ Closed h t := by
  obtain hu | ⟨h', ho⟩ | ⟨h', hc⟩ := path_handle_cases hp
  · exact absurd hb (hu.unbegun h)
  · rw [ho.only h hb]
    exact .inl ho
  · rw [hc.only hb]
    exact .inr hc

/-- A handle is used only while it is open. -/
theorem next_opened {t : List Event} {ph : Phase} {c : Call} {h : HttpsOtaHandle}
    (hp : Path (Move build config url) .claiming t ph) (hn : ph.next? build config = some c)
    (hu : handleOf c = some h) : Opened h t := by
  have hh := path_handle hp
  cases ph with
  | refused _ => cases hn
  | finished _ => cases hn
  | claiming => cases hn; cases hu
  | naming _ _ => cases hn; cases hu
  | connecting _ => cases hn; cases hu
  | notifying _ _ => cases hn; cases hu
  | offering _ _ _ => cases hn; cases hu
  | polling _ _ _ => cases hn; cases hu
  | clocking _ _ _ => cases hn; cases hu
  | reporting _ _ _ _ _ => cases hn; cases hu
  | reportingAll _ _ _ _ _ => cases hn; cases hu
  | releasing _ => cases hn; cases hu
  | announcing _ _ => cases hn; cases hu
  | _ =>
    cases hn
    cases hu
    exact hh

theorem finished_result {t : List Event} {r : EspErr}
    (hp : Path (Move build config url) .claiming t (.finished r)) :
    r = (firstFailure build config url t).getD espOk := by
  rw [path_failure hp rfl]
  by_cases hr : r = espOk <;> simp [Phase.error?, hr]

/-- How an update that claimed the slot deals with failures and with its handle. -/
structure FirstFailureWins (build : BuildOptions) (config : OtaApiConfig) (url : String)
    (a : Activation) : Prop where
  result : ∀ r, a.result? = some r → r = (firstFailure build config url a.trace).getD espOk
  quiet : ∀ u v, a.trace = u ++ v → u ≠ [] → firstFailure build config url u ≠ none →
    (∀ e ∈ v, cleanUp e.call = true) ∧ ∀ c, a.next? = some c → cleanUp c = true
  handle : ∀ h, Begun h a.trace → Opened h a.trace ∨ Closed h a.trace
  closed : ∀ h r, Begun h a.trace → a.result? = some r → Closed h a.trace
  uses : ∀ c h, a.next? = some c → handleOf c = some h → Opened h a.trace

theorem first_failure_wins {ls : List Label} {i : Nat} {a : Activation}
    (ha : (System.run build ls).activations[i]? = some a) (hu : a.Updates config url)
    (hc : 0 < a.claims) : FirstFailureWins build config url a := by
  obtain ⟨ph, hpath, hnext, hresult⟩ := run_update ha hu
  have hfinished : ∀ r, a.result? = some r → ph = .finished r := by
    intro r hr
    refine (hresult r hr).resolve_right fun hrefused => ?_
    subst hrefused
    rw [(path_claims hpath).1] at hc
    exact Nat.lt_irrefl 0 hc
  constructor
  case result =>
    intro r hr
    obtain rfl := hfinished r hr
    exact finished_result hpath
  case quiet =>
    intro u v ht hne hf
    constructor
    · rw [ht] at hpath
      exact path_quiet hpath hne hf
    · intro c hn
      rw [hnext] at hn
      have hf' : firstFailure build config url a.trace ≠ none := ht ▸ firstFailure_append_ne hf v
      exact next_quiet hpath (by simp [ht, hne]) hf' hn
  case handle =>
    intro h hb
    exact begun_cases hpath hb
  case closed =>
    intro h r hb hr
    obtain rfl := hfinished r hr
    have hclosed : Unopened a.trace ∨ ∃ h, Closed h a.trace := path_handle hpath
    obtain hun | ⟨h', hcl⟩ := hclosed
    · exact absurd hb (hun.unbegun h)
    · rw [hcl.only hb]
      exact hcl
  case uses =>
    intro c h hn hh
    rw [hnext] at hn
    exact next_opened hpath hn hh

/-- An update whose callback refuses the image with the code of an unfinished transfer. -/
def vetoed (τ : Task) (config : OtaApiConfig) : List Label :=
  [.otaApiUpdate τ (some config), .advance τ] ++ Label.through τ (.handle espOk 1) ++
    Label.through τ (.err espOk) ++ Label.through τ (.appDesc espOk ⟨"app", "2"⟩) ++
    Label.through τ (.err espErrHttpsOtaInProgress) ++ Label.through τ (.err espOk) ++
    [.advance τ] ++ Label.through τ (.err espOk)

theorem first_failure_wins_vetoed :
    ∃ a, (System.run sampleBuild (vetoed (.app 0) sampleConfig)).activations[0]? = some a ∧
      a.result? = some espErrHttpsOtaInProgress ∧
      FirstFailureWins sampleBuild sampleConfig "https://host/app.bin" a := by
  have hrun : ((System.run sampleBuild (vetoed (.app 0) sampleConfig)).activations[0]?).map
      (fun a => (a.routine, a.result?, a.claims)) =
      some (.otaApiUpdate (some sampleConfig), some espErrHttpsOtaInProgress, 1) := by decide +kernel
  obtain ⟨a, ha, hview⟩ := Option.map_eq_some_iff.mp hrun
  simp only [Prod.mk.injEq] at hview
  obtain ⟨hroutine, hresult, hclaims⟩ := hview
  exact ⟨a, ha, hresult, first_failure_wins ha ⟨hroutine, rfl⟩ (by omega)⟩

end Machine

/-! ## The events -/

section Events

variable {build : BuildOptions} {config : OtaApiConfig} {url : String}

theorem Opening.not_terminal {w : List OtaApiEvent} (h : Opening w) :
    ∀ event ∈ w, event.terminal = false := by
  cases h with
  | silent => simp
  | started => simp
  | offered d ps => simp

/-- Up to its outcome an update has told the beginning of a word. -/
theorem path_opening (hcb : config.eventCb ≠ none) {t : List Event} {ph : Phase}
    (hp : Path (Move build config url) .claiming t ph) (hf : ∀ r, ph ≠ .finished r) :
    Opening (delivered t) := by
  have hw := path_word hcb hp
  have silent : delivered t = [] → Opening (delivered t) := by
    intro h
    rw [h]
    exact .silent
  have started : delivered t = [.started] → Opening (delivered t) := by
    intro h
    rw [h]
    exact .started
  cases ph with
  | claiming => exact silent hw
  | refused _ => exact silent hw
  | naming _ _ => exact silent hw
  | connecting _ => exact silent hw
  | notifying _ _ => exact silent hw
  | inspecting _ => exact started hw
  | offering _ _ _ => exact started hw
  | aborting _ _ => exact hw.1
  | releasing _ => exact hw.1
  | announcing _ _ => exact hw.1
  | finished r => exact absurd rfl (hf r)
  | _ => exact Offered.opening hw

/-- The outcome is told by one call, when the slot is free again. -/
theorem next_terminal {ph : Phase} {cb : EventCb} {event : OtaApiEvent} {ctx : Nat}
    (hn : ph.next? build config = some (.eventCb cb event ctx)) (ht : event.terminal = true) :
    ∃ err, ph = .announcing cb err ∧ event = outcomeEvent err := by
  cases ph with
  | announcing cb' err =>
    cases hn
    exact ⟨err, rfl, rfl⟩
  | notifying _ _ => cases hn; cases ht
  | offering _ _ _ => cases hn; cases ht
  | reporting _ _ _ _ _ => cases hn; cases ht
  | reportingAll _ _ _ _ _ => cases hn; cases ht
  | refused _ => cases hn
  | finished _ => cases hn
  | _ => cases hn

theorem busy_refused {t : List Event} {ph : Phase}
    (hp : Path (Move build config url) .claiming t ph)
    (hmem : (⟨.claimUpdateSlot, false⟩ : Event) ∈ t) : ∃ err, ph = .refused err := by
  obtain ⟨u, v, rfl⟩ := List.append_of_mem hmem
  obtain ⟨q, q', _, m, hrest⟩ := hp.at_event
  cases m with
  | busy =>
    cases hrest with
    | nil _ => exact ⟨_, rfl⟩
    | cons m' _ => cases m'

/-- What one update tells its callback. -/
structure EventProtocol (config : OtaApiConfig) (cb : EventCb) (a : Activation) : Prop where
  refused : config.url = none ∨ ⟨.claimUpdateSlot, false⟩ ∈ a.trace →
    delivered a.trace = [] ∧ ∀ cb' event ctx, a.next? ≠ some (.eventCb cb' event ctx)
  opening : a.result? = none → Opening (delivered a.trace)
  word : config.url ≠ none → ⟨.claimUpdateSlot, false⟩ ∉ a.trace → ∀ r, a.result? = some r →
    ∃ w, delivered a.trace = w ++ [outcomeEvent r] ∧ Opening w ∧
      (∀ event ∈ w, event.terminal = false) ∧ (.started ∈ w ↔ ∃ h, Begun h a.trace)
  addressee : ∀ cb' event ctx (v : EspErr), ⟨.eventCb cb' event ctx, v⟩ ∈ a.trace →
    cb' = cb ∧ ctx = config.userCtx
  released : ∀ cb' event ctx, a.next? = some (.eventCb cb' event ctx) → event.terminal = true →
    a.holds = false

/-- The verdict on the outcome is dropped: whatever it is, the step it ends leaves
the slot and the flash alone and gives the same result. -/
def VerdictDropped (build : BuildOptions) (s : System) (i : Nat) (a : Activation) : Prop :=
  ∀ τ cb event ctx, s.restarted = false → s.current? τ = some (i, a) → a.entered = true →
    a.next? = some (.eventCb cb event ctx) → event.terminal = true →
    ∃ r, event = outcomeEvent r ∧ ∀ v, (s.step build (.answer τ (.err v))).slot = s.slot ∧
      (s.step build (.answer τ (.err v))).flash = s.flash ∧
      ∃ a', (s.step build (.answer τ (.err v))).activations[i]? = some a' ∧ a'.result? = some r

theorem verdict_dropped {s : System} {i : Nat} {a : Activation} {ph : Phase}
    (hprog : a.prog = prog build config url ph) : VerdictDropped build s i a := by
  intro τ cb event ctx hrun hcur he hn ht
  rw [update_next? hprog] at hn
  obtain ⟨err, rfl, rfl⟩ := next_terminal hn ht
  refine ⟨err, rfl, fun v => ?_⟩
  cases hn
  have hturn : a.prog.turn = .call (.eventCb cb (outcomeEvent err) config.userCtx)
      fun _ => pure err := by
    rw [hprog]
    rfl
  obtain ⟨hlt, _⟩ := List.getElem?_eq_some_iff.mp (current?_get hcur)
  have hstep : s.step build (.answer τ (.err v)) = s.put i
      (@Activation.resume (.eventCb cb (outcomeEvent err) config.userCtx) a (fun _ => pure err) v) :=
    step_answering hrun hcur hturn he rfl
  rw [hstep]
  refine ⟨rfl, rfl, _, List.getElem?_set_self hlt, rfl⟩

/-- Without a URL there is no update, and the callback hears nothing. -/
theorem invalid_protocol {a : Activation} {cb : EventCb} (hs : a.Sound build)
    (hr : a.routine = .otaApiUpdate (some config)) (hu : config.url = none) :
    EventProtocol config cb a := by
  obtain ⟨htrace, hprog⟩ := invalid_stopped hs hr hu
  have hnext : a.next? = none := by
    rw [Activation.next?, hprog]
    rfl
  have hresult : a.result? = some espErrInvalidArg := by
    rw [Activation.result?, hprog]
    rfl
  constructor
  case refused =>
    intro _
    simp [htrace, hnext, delivered]
  case opening => simp [hresult]
  case word =>
    intro hurl
    exact absurd hu hurl
  case addressee =>
    intro cb' event ctx v hmem
    rw [htrace] at hmem
    cases hmem
  case released =>
    intro cb' event ctx hn
    rw [hnext] at hn
    cases hn

theorem update_protocol {a : Activation} {cb : EventCb} (hs : a.Sound build)
    (hr : a.routine = .otaApiUpdate (some config)) (hu : config.url = some url)
    (hcb : config.eventCb = some cb) {ph : Phase}
    (hpath : Path (Move build config url) .claiming a.trace ph)
    (hprog : a.prog = prog build config url ph) : EventProtocol config cb a := by
  have hne : config.eventCb ≠ none := by simp [hcb]
  have hnext : a.next? = ph.next? build config := update_next? hprog
  have hresult : ∀ r, a.result? = some r → ph = .finished r ∨ ph = .refused r := by
    intro r h
    exact update_result? hprog h
  constructor
  case refused =>
    intro hor
    have hbusy : (⟨.claimUpdateSlot, false⟩ : Event) ∈ a.trace := by
      apply hor.resolve_left
      simp [hu]
    obtain ⟨err, rfl⟩ := busy_refused hpath hbusy
    exact refused_silent hs hr (path_claims hpath).1
  case opening =>
    intro hnone
    apply path_opening hne hpath
    intro r hph
    subst hph
    rw [Activation.result?, hprog] at hnone
    cases hnone
  case word =>
    intro _ hfree r hres
    obtain rfl | rfl := hresult r hres
    · obtain ⟨w, hw, hword, hstarted⟩ := path_word hne hpath
      exact ⟨w, hword, hw, hw.not_terminal, hstarted⟩
    · have htrace : a.trace = [⟨.claimUpdateSlot, false⟩] := path_facts hpath
      simp [htrace] at hfree
  case addressee =>
    intro cb' event ctx v hmem
    obtain ⟨u, w, ht⟩ := List.append_of_mem hmem
    rw [ht] at hpath
    obtain ⟨hcb', hctx⟩ := path_addressee hpath
    rw [hcb] at hcb'
    cases hcb'
    exact ⟨rfl, hctx⟩
  case released =>
    intro cb' event ctx hn ht
    rw [hnext] at hn
    obtain ⟨err, rfl, _⟩ := next_terminal hn ht
    cases hh : a.holds with
    | false => rfl
    | true => cases (path_holds hpath).mp hh

theorem event_protocol {ls : List Label} {i : Nat} {a : Activation} {cb : EventCb}
    (ha : (System.run build ls).activations[i]? = some a)
    (hr : a.routine = .otaApiUpdate (some config)) (hcb : config.eventCb = some cb) :
    EventProtocol config cb a ∧ VerdictDropped build (System.run build ls) i a := by
  have hs : a.Sound build := run_sound ha
  cases hu : config.url with
  | none =>
    have hprotocol : EventProtocol config cb a := invalid_protocol hs hr hu
    refine ⟨hprotocol, ?_⟩
    intro τ cb' event ctx _ _ _ hn
    obtain ⟨_, hsilent⟩ := hprotocol.refused (.inl hu)
    exact absurd hn (hsilent cb' event ctx)
  | some url =>
    obtain ⟨ph, hpath, hprog⟩ := update_path hs ⟨hr, hu⟩
    exact ⟨update_protocol hs hr hu hcb hpath hprog, verdict_dropped hprog⟩

/-- A header that is refused is the last event before the failure. -/
theorem event_protocol_vetoed :
    ∃ a, (System.run sampleBuild (vetoed (.app 0) sampleConfig)).activations[0]? = some a ∧
      a.result? = some espErrHttpsOtaInProgress ∧
      delivered a.trace =
        [.started, .imageDesc ⟨"app", "2"⟩, .failed espErrHttpsOtaInProgress] ∧
      EventProtocol sampleConfig 0 a := by
  have hrun : ((System.run sampleBuild (vetoed (.app 0) sampleConfig)).activations[0]?).map
      (fun a => (a.routine, a.result?, delivered a.trace)) =
      some (.otaApiUpdate (some sampleConfig), some espErrHttpsOtaInProgress,
        [.started, .imageDesc ⟨"app", "2"⟩, .failed espErrHttpsOtaInProgress]) := by decide +kernel
  obtain ⟨a, ha, hview⟩ := Option.map_eq_some_iff.mp hrun
  simp only [Prod.mk.injEq] at hview
  obtain ⟨hroutine, hresult, hdelivered⟩ := hview
  exact ⟨a, ha, hresult, hdelivered, (event_protocol ha hroutine rfl).1⟩

end Events

end OtaApi
