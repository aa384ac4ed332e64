import OtaApi.Phases

/-!
# What the calls of an update have in common

Every fact here is about the calls and answers of one update from its start to
any later moment. Each is an invariant of the machine: what it says depends on
the phase reached, and every arrow preserves it.
-/

namespace OtaApi

open Interaction

/-- An error code, unless it says that nothing went wrong. -/
def failed (err : EspErr) : Option EspErr := if err = espOk then none else some err

@[simp] theorem failed_espOk : failed espOk = none := rfl
@[simp] theorem failed_of_ne {err : EspErr} (h : err ≠ espOk) : failed err = some err := if_neg h

@[simp] theorem failed_notFinished : failed espErrNotFinished = some espErrNotFinished := rfl
@[simp] theorem failed_validateFailed :
    failed espErrOtaValidateFailed = some espErrOtaValidateFailed := rfl

theorem failed_eq_none_iff (err : EspErr) : failed err = none ↔ err = espOk := by
  by_cases h : err = espOk <;> simp [failed, h]

/-- The failure an answer is to the update, if it is one. -/
def failure : Event → Option EspErr
  | ⟨.httpsOtaBegin _, (err, _)⟩ => failed err
  | ⟨.eventCb _ event _, verdict⟩ => if event.terminal then none else failed verdict
  | ⟨.httpsOtaGetImgDesc _, (err, _)⟩ => failed err
  | ⟨.httpsOtaPerform _, err⟩ => if err = espErrHttpsOtaInProgress then none else failed err
  | ⟨.abortRequested, requested⟩ => if requested then some espErrNotFinished else none
  | ⟨.httpsOtaIsCompleteDataReceived _, complete⟩ =>
    if complete then none else some espErrOtaValidateFailed
  | ⟨.httpsOtaFinish _, err⟩ => failed err
  | _ => none

/-- The first failure of a run, its configuration coming before every call. -/
def firstFailure (build : BuildOptions) (config : OtaApiConfig) (url : String)
    (t : List Event) : Option EspErr :=
  (httpConfigError build config url).or (t.findSome? failure)

/-- A poll fails when it sees a request. -/
theorem poll_failure {requested : Bool} {err : EspErr}
    (h : failure ⟨.abortRequested, requested⟩ = some err) : requested = true := by
  cases requested with
  | true => rfl
  | false => cases h

def isClaim : Event → Bool
  | ⟨.claimUpdateSlot, claimed⟩ => claimed
  | _ => false

def isRelease : Event → Bool
  | ⟨.releaseUpdateSlot, _⟩ => true
  | _ => false

/-- The slot is this update's from its claim to its release. -/
def holds (t : List Event) : Bool := t.any isClaim && !t.any isRelease

/-- The events handed to the application, in order. -/
def delivered (t : List Event) : List OtaApiEvent :=
  t.filterMap fun
    | ⟨.eventCb _ event _, _⟩ => some event
    | _ => none

def Begun (h : HttpsOtaHandle) (t : List Event) : Prop :=
  ∃ c, ⟨.httpsOtaBegin c, (espOk, h)⟩ ∈ t

/-- An event that reached the application, if it has a callback, was not refused. -/
def Accepted (config : OtaApiConfig) (event : OtaApiEvent) (t : List Event) : Prop :=
  ∀ cb, config.eventCb = some cb → ⟨.eventCb cb event config.userCtx, espOk⟩ ∈ t

/-- The forced report: nothing to report, nobody to report to, or accepted. -/
def FinalReport (config : OtaApiConfig) (h : HttpsOtaHandle) (t : List Event) : Prop :=
  ∃ u n w, t = u ++ ⟨.httpsOtaIsCompleteDataReceived h, true⟩ ::
      ⟨.httpsOtaGetImageLenRead h, n⟩ :: w ∧
    (n < 0 ∨ ∀ cb, config.eventCb = some cb → ∃ p w',
      w = ⟨.eventCb cb (.progress p) config.userCtx, espOk⟩ :: w')

theorem Begun.append {h : HttpsOtaHandle} {t : List Event} (hb : Begun h t) (u : List Event) :
    Begun h (t ++ u) := by
  obtain ⟨c, hc⟩ := hb
  exact ⟨c, List.mem_append_left u hc⟩

theorem Accepted.append {config : OtaApiConfig} {event : OtaApiEvent} {t : List Event}
    (ha : Accepted config event t) (u : List Event) : Accepted config event (t ++ u) :=
  fun cb hc => List.mem_append_left u (ha cb hc)

theorem Accepted.of_none {config : OtaApiConfig} (hc : config.eventCb = none)
    (event : OtaApiEvent) (t : List Event) : Accepted config event t := by
  intro cb h
  rw [hc] at h
  cases h

/-- The update was let in: started, header read, image offered, nothing refused. -/
structure Admitted (config : OtaApiConfig) (h : HttpsOtaHandle) (t : List Event) : Prop where
  begun : Begun h t
  started : Accepted config .started t
  header : ∃ d, ⟨.httpsOtaGetImgDesc h, (espOk, d)⟩ ∈ t ∧ Accepted config (.imageDesc d) t

theorem Admitted.append {config : OtaApiConfig} {h : HttpsOtaHandle} {t : List Event}
    (ha : Admitted config h t) (u : List Event) : Admitted config h (t ++ u) where
  begun := ha.begun.append u
  started := ha.started.append u
  header := by
    obtain ⟨d, hd, hv⟩ := ha.header
    exact ⟨d, List.mem_append_left u hd, hv.append u⟩

section Machine

variable {build : BuildOptions} {config : OtaApiConfig} {url : String}

/-! ## How far an update has come -/

/-- What the calls made so far must have answered for a phase to be reached. -/
def Phase.Facts (config : OtaApiConfig) : Phase → List Event → Prop
  | .claiming, t => t = []
  | .refused _, t => t = [⟨.claimUpdateSlot, false⟩]
  | .notifying cb h, t => config.eventCb = some cb ∧ Begun h t
  | .inspecting h, t => Begun h t ∧ Accepted config .started t
  | .offering cb h d, t =>
    config.eventCb = some cb ∧ Begun h t ∧ Accepted config .started t ∧
      ⟨.httpsOtaGetImgDesc h, (espOk, d)⟩ ∈ t
  | .sizing h, t => Admitted config h t
  | .performing h _ _, t => Admitted config h t
  | .polling h _ _, t =>
    Admitted config h t ∧ ∃ u, t = u ++ [⟨.httpsOtaPerform h, espErrHttpsOtaInProgress⟩]
  | .clocking h _ _, t => Admitted config h t
  | .measuring h _ _, t => Admitted config h t
  | .reporting cb h _ _ _, t => config.eventCb = some cb ∧ Admitted config h t
  | .verifying h _ _, t => Admitted config h t ∧ ⟨.httpsOtaPerform h, espOk⟩ ∈ t
  | .measuringAll h _ _, t =>
    (Admitted config h t ∧ ⟨.httpsOtaPerform h, espOk⟩ ∈ t) ∧
      ∃ u, t = u ++ [⟨.httpsOtaIsCompleteDataReceived h, true⟩]
  | .reportingAll cb h _ _ n, t =>
    config.eventCb = some cb ∧ (Admitted config h t ∧ ⟨.httpsOtaPerform h, espOk⟩ ∈ t) ∧
      ∃ u, t = u ++ [⟨.httpsOtaIsCompleteDataReceived h, true⟩, ⟨.httpsOtaGetImageLenRead h, n⟩]
  | .committing h, t =>
    (Admitted config h t ∧ ⟨.httpsOtaPerform h, espOk⟩ ∈ t) ∧ FinalReport config h t
  | .aborting h _, t => Begun h t
  | .announcing cb _, _ => config.eventCb = some cb
  | _, _ => True

theorem accepted_last {cb : EventCb} (hc : config.eventCb = some cb) (event : OtaApiEvent)
    (t : List Event) :
    Accepted config event (t ++ [⟨.eventCb cb event config.userCtx, espOk⟩]) := by
  intro cb' hc'
  rw [hc] at hc'
  cases hc'
  simp

theorem path_facts {t : List Event} {ph : Phase}
    (h : Path (Move build config url) .claiming t ph) : ph.Facts config t := by
  have keep : ∀ (s : List Event) (p : Phase) (e : Event) (q : Phase),
      Path (Move build config url) .claiming s p → p.Facts config s →
      Move build config url p e q → q.Facts config (s ++ [e]) := by
    intro s p e q _ hs m
    cases m with
    | busy =>
      have hs : s = [] := hs
      rw [hs]
      rfl
    | connected hc => exact ⟨hc, _, List.mem_concat_self⟩
    | connectedSilent hc => exact ⟨⟨_, List.mem_concat_self⟩, .of_none hc _ _⟩
    | welcomed => exact ⟨hs.2.append _, accepted_last hs.1 _ _⟩
    | unwelcome _ => exact hs.2.append _
    | unreadable _ => exact hs.1.append _
    | inspected hc => exact ⟨hc, hs.1.append _, hs.2.append _, List.mem_concat_self⟩
    | inspectedSilent hc => exact ⟨hs.1.append _, hs.2.append _, _, List.mem_concat_self, .of_none hc _ _⟩
    | admitted =>
      obtain ⟨hc, hb, hv, hd⟩ := hs
      exact ⟨hb.append _, hv.append _, _, List.mem_append_left _ hd, accepted_last hc _ _⟩
    | vetoed _ => exact hs.2.1.append _
    | sized => exact hs.append _
    | inProgress => exact ⟨hs.append _, s, rfl⟩
    | received => exact ⟨hs.append _, List.mem_concat_self⟩
    | interrupted _ _ => exact hs.begun.append _
    | stopped => exact hs.1.begun.append _
    | goingOn _ => exact hs.1.append _
    | goingOnUnthrottled _ => exact hs.1.append _
    | throttled _ => exact hs.append _
    | due _ => exact hs.append _
    | unmeasured _ => exact hs.append _
    | measured _ hc => exact ⟨hc, hs.append _⟩
    | measuredSilent _ _ => exact hs.append _
    | reported => exact hs.2.append _
    | cancelled _ => exact hs.2.begun.append _
    | truncated => exact hs.1.begun.append _
    | complete => exact ⟨⟨hs.1.append _, List.mem_append_left _ hs.2⟩, s, rfl⟩
    | unmeasuredAll hn =>
      obtain ⟨⟨ha, hp⟩, u, rfl⟩ := hs
      exact ⟨⟨ha.append _, List.mem_append_left _ hp⟩, u, _, [], List.append_assoc _ _ _, .inl hn⟩
    | measuredAll _ hc =>
      obtain ⟨⟨ha, hp⟩, u, rfl⟩ := hs
      exact ⟨hc, ⟨ha.append _, List.mem_append_left _ hp⟩, u, by simp⟩
    | measuredAllSilent _ hc =>
      obtain ⟨⟨ha, hp⟩, u, rfl⟩ := hs
      refine ⟨⟨ha.append _, List.mem_append_left _ hp⟩, u, _, [], List.append_assoc _ _ _,
        .inr fun cb hcb => ?_⟩
      rw [hc] at hcb
      cases hcb
    | reportedAll =>
      obtain ⟨hc, ⟨ha, hp⟩, u, rfl⟩ := hs
      refine ⟨⟨ha.append _, List.mem_append_left _ hp⟩, u, _, [_], List.append_assoc _ _ _,
        .inr fun cb hcb => ?_⟩
      rw [hc] at hcb
      cases hcb
      exact ⟨_, [], rfl⟩
    | cancelledAll _ => exact hs.2.1.1.begun.append _
    | released hc => exact hc
    | _ => trivial
  exact Path.invariant keep h rfl

/-! ## The slot -/

/-- The claims and releases made by the time a phase is reached. -/
def Phase.slotUse : Phase → Nat × Nat
  | .claiming => (0, 0)
  | .refused _ => (0, 0)
  | .announcing _ _ => (1, 1)
  | .finished _ => (1, 1)
  | _ => (1, 0)

theorem path_slotUse {t : List Event} {ph : Phase}
    (h : Path (Move build config url) .claiming t ph) :
    (t.countP isClaim, t.countP isRelease) = ph.slotUse := by
  have keep : ∀ (s : List Event) (p : Phase) (e : Event) (q : Phase),
      Path (Move build config url) .claiming s p →
      (s.countP isClaim, s.countP isRelease) = p.slotUse → Move build config url p e q →
      ((s ++ [e]).countP isClaim, (s ++ [e]).countP isRelease) = q.slotUse := by
    intro s p e q _ hs m
    simp only [List.countP_append, Prod.ext_iff] at hs ⊢
    cases m <;> simp_all [Phase.slotUse, isClaim, isRelease, List.countP_cons]
  exact Path.invariant keep h (by rfl)

/-- An update owns the slot exactly in the phases between claim and release. -/
theorem path_holds {t : List Event} {ph : Phase}
    (h : Path (Move build config url) .claiming t ph) :
    holds t = true ↔ ph.slotUse = (1, 0) := by
  have hs := path_slotUse h
  rw [← hs]
  simp only [holds, Bool.and_eq_true, Bool.not_eq_true', Prod.mk.injEq, List.countP_eq_zero]
  have hle : t.countP isClaim ≤ 1 := by
    have := congrArg Prod.fst hs
    simp only at this
    rw [this]
    cases ph <;> simp [Phase.slotUse]
  constructor
  · rintro ⟨hc, hr⟩
    have hpos : 0 < t.countP isClaim := by
      obtain ⟨e, he, hec⟩ := List.any_eq_true.mp hc
      exact List.countP_pos_iff.mpr ⟨e, he, hec⟩
    exact ⟨by omega, by simpa using hr⟩
  · rintro ⟨hc, hr⟩
    have hpos : 0 < t.countP isClaim := by omega
    obtain ⟨e, he, hec⟩ := List.countP_pos_iff.mp hpos
    exact ⟨List.any_eq_true.mpr ⟨e, he, hec⟩, by simpa using hr⟩

/-! ## Failures -/

/-- The failure that brought an update into a phase. -/
def Phase.error? : Phase → Option EspErr
  | .aborting _ err => failed err
  | .releasing err => failed err
  | .announcing _ err => failed err
  | .finished err => failed err
  | _ => none

/-- The update has passed its claim. -/
def Phase.claimed : Phase → Bool
  | .claiming => false
  | .refused _ => false
  | _ => true

theorem firstFailure_snoc (t : List Event) (e : Event) :
    firstFailure build config url (t ++ [e]) =
      (firstFailure build config url t).or (failure e) := by
  cases hf : failure e <;> simp [firstFailure, List.findSome?_append, hf]

/-- Past the claim, an arrow fails the update exactly when its answer is the first
failure. -/
theorem Move.error?_eq {p q : Phase} {e : Event} (m : Move build config url p e q)
    (hp : p.claimed = true) : q.error? = p.error?.or (failure e) := by
  cases m with
  | busy => simp [Phase.claimed] at hp
  | untrusted _ => simp [Phase.claimed] at hp
  | unbound _ _ => simp [Phase.claimed] at hp
  | bound _ _ => simp [Phase.claimed] at hp
  | _ => simp_all [Phase.error?, failure]

theorem path_failure {t : List Event} {ph : Phase}
    (h : Path (Move build config url) .claiming t ph) (hc : ph.claimed = true) :
    firstFailure build config url t = ph.error? := by
  have keep : ∀ (s : List Event) (p : Phase) (e : Event) (q : Phase),
      Path (Move build config url) .claiming s p →
      (p.claimed = true → firstFailure build config url s = p.error?) →
      Move build config url p e q →
      (q.claimed = true → firstFailure build config url (s ++ [e]) = q.error?) := by
    intro s p e q hpath hs m hq
    by_cases hp : p.claimed = true
    · rw [firstFailure_snoc, hs hp, m.error?_eq hp]
    · -- only the claim itself enters the run from outside it
      have hstart := path_facts hpath
      cases m with
      | busy => simp [Phase.claimed] at hq
      | untrusted ht =>
        have he : failed _ = some _ := failed_of_ne (configureServerTrust_error_ne ht)
        simp [show s = [] from hstart, firstFailure, httpConfigError, ht, Phase.error?, he]
      | unbound ht _ => simp [show s = [] from hstart, firstFailure, httpConfigError, ht, Phase.error?, failure]
      | bound ht _ => simp [show s = [] from hstart, firstFailure, httpConfigError, ht, Phase.error?, failure]
      | _ => simp [Phase.claimed] at hp
  exact Path.invariant keep h (by simp [Phase.claimed]) hc

/-- A failure leaves only the clean-up and the outcome to be called for. -/
def cleanUp : Call → Bool
  | .httpsOtaAbort _ => true
  | .releaseUpdateSlot => true
  | .eventCb _ event _ => event.terminal
  | _ => false

theorem Move.cleanUp_of_error {p q : Phase} {e : Event} (m : Move build config url p e q)
    (hp : p.error? ≠ none) : cleanUp e.call = true := by
  cases m with
  | discarded => rfl
  | released _ => rfl
  | releasedSilent _ => rfl
  | announced => exact terminal_outcomeEvent _
  | _ => exact absurd rfl hp

theorem firstFailure_append_ne {s : List Event} (hf : firstFailure build config url s ≠ none)
    (t : List Event) : firstFailure build config url (s ++ t) ≠ none := by
  simp only [firstFailure, List.findSome?_append, ne_eq, Option.or_eq_none_iff] at hf ⊢
  exact fun h => hf ⟨h.1, h.2.1⟩

/-- A phase in which an update is left by a failure, or was never let in. -/
theorem path_failed {t : List Event} {ph : Phase}
    (h : Path (Move build config url) .claiming t ph) (ht : t ≠ [])
    (hf : firstFailure build config url t ≠ none) : ph.error? ≠ none ∨ ∃ err, ph = .refused err := by
  cases hc : ph.claimed with
  | true =>
    rw [path_failure h hc] at hf
    exact .inl hf
  | false =>
    cases ph with
    | claiming => exact absurd (path_facts h) ht
    | refused err => exact .inr ⟨err, rfl⟩
    | _ => cases hc

/-- After the first failure no later call does anything but clean up. -/
theorem path_quiet {s t : List Event} {ph : Phase}
    (h : Path (Move build config url) .claiming (s ++ t) ph) (hs : s ≠ [])
    (hf : firstFailure build config url s ≠ none) : ∀ e ∈ t, cleanUp e.call = true := by
  intro e he
  obtain ⟨u, v, rfl⟩ := List.append_of_mem he
  rw [← List.append_assoc] at h
  obtain ⟨p, q, hp, m, _⟩ := h.at_event
  obtain herr | ⟨err, rfl⟩ := path_failed hp (by simp [hs]) (firstFailure_append_ne hf u)
  · exact m.cleanUp_of_error herr
  · cases m

/-- What the next call is follows the same rule. -/
theorem next_quiet {t : List Event} {ph : Phase}
    (h : Path (Move build config url) .claiming t ph) (ht : t ≠ [])
    (hf : firstFailure build config url t ≠ none) {c : Call} (hn : ph.next? build config = some c) :
    cleanUp c = true := by
  obtain herr | ⟨err, rfl⟩ := path_failed h ht hf
  · cases ph with
    | aborting _ _ => cases hn; rfl
    | releasing _ => cases hn; rfl
    | announcing _ _ => cases hn; exact terminal_outcomeEvent _
    | finished _ => cases hn
    | _ => exact absurd rfl herr
  · cases hn

/-- Nothing has failed on the way to a phase that was not entered by a failure. -/
theorem path_faultless {t : List Event} {ph : Phase}
    (h : Path (Move build config url) .claiming t ph) (hc : ph.claimed = true)
    (he : ph.error? = none) : ∀ e ∈ t, failure e = none := by
  have hf := path_failure h hc
  rw [he, firstFailure, Option.or_eq_none_iff] at hf
  exact List.findSome?_eq_none_iff.mp hf.2

/-! ## The handle -/

/-- The handle a call is given. -/
def handleOf : Call → Option HttpsOtaHandle
  | .httpsOtaGetImgDesc h => some h
  | .httpsOtaGetImageSize h => some h
  | .httpsOtaPerform h => some h
  | .httpsOtaGetImageLenRead h => some h
  | .httpsOtaIsCompleteDataReceived h => some h
  | .httpsOtaFinish h => some h
  | .httpsOtaAbort h => some h
  | _ => none

/-- The two calls that free the handle. -/
def closes : Call → Bool
  | .httpsOtaFinish _ => true
  | .httpsOtaAbort _ => true
  | _ => false

/-- No handle was ever obtained or used. -/
structure Unopened (t : List Event) : Prop where
  unused : ∀ e ∈ t, handleOf e.call = none
  unbegun : ∀ h, ¬Begun h t

/-- One handle was obtained; only it was used, and it is still open. -/
structure Opened (h : HttpsOtaHandle) (t : List Event) : Prop where
  begun : Begun h t
  only : ∀ h', Begun h' t → h' = h
  uses : ∀ e ∈ t, handleOf e.call = none ∨ handleOf e.call = some h
  unclosed : ∀ e ∈ t, closes e.call = false

/-- The handle was closed by one call, and not touched afterwards. -/
def Closed (h : HttpsOtaHandle) (t : List Event) : Prop :=
  ∃ u e v, t = u ++ e :: v ∧ Opened h u ∧ closes e.call = true ∧ handleOf e.call = some h ∧
    ∀ x ∈ v, handleOf x.call = none ∧ ∀ h', ¬Begun h' [x]

theorem begun_append {h : HttpsOtaHandle} {t u : List Event} :
    Begun h (t ++ u) ↔ Begun h t ∨ Begun h u := by
  simp only [Begun, List.mem_append, exists_or]

theorem begun_singleton {h h' : HttpsOtaHandle} {c : HttpsOtaConfig} {err : EspErr}
    (hb : Begun h' [⟨.httpsOtaBegin c, (err, h)⟩]) : err = espOk ∧ h' = h := by
  obtain ⟨c', hc⟩ := hb
  cases List.mem_singleton.mp hc
  exact ⟨rfl, rfl⟩

theorem closes_eq_false {c : Call} (h : handleOf c = none) : closes c = false := by
  cases c <;> first | rfl | cases h

theorem Unopened.snoc {t : List Event} {e : Event} (ht : Unopened t)
    (he : handleOf e.call = none) (hb : ∀ h, ¬Begun h [e]) : Unopened (t ++ [e]) where
  unused := List.forall_mem_append.mpr ⟨ht.unused, List.forall_mem_singleton.mpr he⟩
  unbegun h hh := (begun_append.mp hh).elim (ht.unbegun h) (hb h)

theorem Opened.snoc {h : HttpsOtaHandle} {t : List Event} {e : Event} (ht : Opened h t)
    (hu : handleOf e.call = none ∨ handleOf e.call = some h) (hc : closes e.call = false)
    (hb : ∀ h', ¬Begun h' [e]) : Opened h (t ++ [e]) where
  begun := ht.begun.append _
  only h' hh := (begun_append.mp hh).elim (ht.only h') fun hn => absurd hn (hb h')
  uses := List.forall_mem_append.mpr ⟨ht.uses, List.forall_mem_singleton.mpr hu⟩
  unclosed := List.forall_mem_append.mpr ⟨ht.unclosed, List.forall_mem_singleton.mpr hc⟩

theorem Unopened.opened {t : List Event} (ht : Unopened t) (c : HttpsOtaConfig)
    (h : HttpsOtaHandle) : Opened h (t ++ [⟨.httpsOtaBegin c, (espOk, h)⟩]) where
  begun := ⟨c, List.mem_concat_self⟩
  only h' hh := (begun_append.mp hh).elim (fun hn => absurd hn (ht.unbegun h'))
    fun hb => (begun_singleton hb).2
  uses := List.forall_mem_append.mpr
    ⟨fun x hx => .inl (ht.unused x hx), List.forall_mem_singleton.mpr (.inl rfl)⟩
  unclosed := List.forall_mem_append.mpr
    ⟨fun x hx => closes_eq_false (ht.unused x hx), List.forall_mem_singleton.mpr rfl⟩

theorem Closed.snoc {h : HttpsOtaHandle} {t : List Event} {e : Event} (ht : Closed h t)
    (he : handleOf e.call = none) (hb : ∀ h', ¬Begun h' [e]) : Closed h (t ++ [e]) := by
  obtain ⟨u, x, v, rfl, hu, hx, hh, hv⟩ := ht
  refine ⟨u, x, v ++ [e], by simp, hu, hx, hh, ?_⟩
  exact List.forall_mem_append.mpr ⟨hv, List.forall_mem_singleton.mpr ⟨he, hb⟩⟩

/-- Where the handle stands in each phase. -/
def Phase.Handle : Phase → List Event → Prop
  | .claiming, t => Unopened t
  | .refused _, t => Unopened t
  | .naming _ _, t => Unopened t
  | .connecting _, t => Unopened t
  | .notifying _ h, t => Opened h t
  | .inspecting h, t => Opened h t
  | .offering _ h _, t => Opened h t
  | .sizing h, t => Opened h t
  | .performing h _ _, t => Opened h t
  | .polling h _ _, t => Opened h t
  | .clocking h _ _, t => Opened h t
  | .measuring h _ _, t => Opened h t
  | .reporting _ h _ _ _, t => Opened h t
  | .verifying h _ _, t => Opened h t
  | .measuringAll h _ _, t => Opened h t
  | .reportingAll _ h _ _ _, t => Opened h t
  | .committing h, t => Opened h t
  | .aborting h _, t => Opened h t
  | .releasing _, t => Unopened t ∨ ∃ h, Closed h t
  | .announcing _ _, t => Unopened t ∨ ∃ h, Closed h t
  | .finished _, t => Unopened t ∨ ∃ h, Closed h t

theorem path_handle {t : List Event} {ph : Phase}
    (h : Path (Move build config url) .claiming t ph) : ph.Handle t := by
  have keep : ∀ (s : List Event) (p : Phase) (e : Event) (q : Phase),
      Path (Move build config url) .claiming s p → p.Handle s → Move build config url p e q →
      q.Handle (s ++ [e]) := by
    intro s p e q _ hs m
    cases m with
    | connected _ => exact Unopened.opened hs _ _
    | connectedSilent _ => exact Unopened.opened hs _ _
    | unreachable he => exact .inl (Unopened.snoc hs rfl fun h hb => he (begun_singleton hb).1)
    | untrusted _ => exact .inl (Unopened.snoc hs rfl fun h hb => by simp [Begun] at hb)
    | busy => exact Unopened.snoc hs rfl fun h hb => by simp [Begun] at hb
    | unbound _ _ => exact Unopened.snoc hs rfl fun h hb => by simp [Begun] at hb
    | bound _ _ => exact Unopened.snoc hs rfl fun h hb => by simp [Begun] at hb
    | named => exact Unopened.snoc hs rfl fun h hb => by simp [Begun] at hb
    | committed => exact .inr ⟨_, s, _, [], rfl, hs, rfl, rfl, by simp⟩
    | discarded => exact .inr ⟨_, s, _, [], rfl, hs, rfl, rfl, by simp⟩
    | released _ =>
      exact hs.imp (fun hu => hu.snoc rfl fun h hb => by simp [Begun] at hb)
        fun ⟨h, hc⟩ => ⟨h, hc.snoc rfl fun h hb => by simp [Begun] at hb⟩
    | releasedSilent _ =>
      exact hs.imp (fun hu => hu.snoc rfl fun h hb => by simp [Begun] at hb)
        fun ⟨h, hc⟩ => ⟨h, hc.snoc rfl fun h hb => by simp [Begun] at hb⟩
    | announced =>
      exact hs.imp (fun hu => hu.snoc rfl fun h hb => by simp [Begun] at hb)
        fun ⟨h, hc⟩ => ⟨h, hc.snoc rfl fun h hb => by simp [Begun] at hb⟩
    | _ => exact Opened.snoc hs (by simp [handleOf]) rfl fun h hb => by simp [Begun] at hb
  exact Path.invariant keep h ⟨by simp, by simp [Begun]⟩

/-! ## The events -/

/-- What the application has been told before the outcome. -/
inductive Opening : List OtaApiEvent → Prop where
  | silent : Opening []
  | started : Opening [.started]
  | offered (d : EspAppDesc) (ps : List OtaApiProgress) :
      Opening (.started :: .imageDesc d :: ps.map .progress)

/-- The image was offered, and its download has been reported any number of times. -/
def Offered (w : List OtaApiEvent) : Prop :=
  ∃ d ps, w = .started :: .imageDesc d :: List.map OtaApiEvent.progress ps

theorem Offered.opening {w : List OtaApiEvent} (h : Offered w) : Opening w := by
  obtain ⟨d, ps, rfl⟩ := h
  exact .offered d ps

theorem Offered.progress {w : List OtaApiEvent} (h : Offered w) (p : OtaApiProgress) :
    Offered (w ++ [.progress p]) := by
  obtain ⟨d, ps, rfl⟩ := h
  exact ⟨d, ps ++ [p], by simp⟩

/-- A start was announced exactly when there was a connection to announce. -/
def Announced (w : List OtaApiEvent) (t : List Event) : Prop := .started ∈ w ↔ ∃ h, Begun h t

/-- The word delivered by the time a phase is reached, with a callback to deliver to. -/
def Phase.Word : Phase → List Event → Prop
  | .claiming, t => delivered t = []
  | .refused _, t => delivered t = []
  | .naming _ _, t => delivered t = []
  | .connecting _, t => delivered t = []
  | .notifying _ _, t => delivered t = []
  | .inspecting _, t => delivered t = [.started]
  | .offering _ _ _, t => delivered t = [.started]
  | .aborting _ _, t => Opening (delivered t) ∧ .started ∈ delivered t
  | .releasing _, t => Opening (delivered t) ∧ Announced (delivered t) t
  | .announcing _ _, t => Opening (delivered t) ∧ Announced (delivered t) t
  | .finished err, t =>
    ∃ w, Opening w ∧ delivered t = w ++ [outcomeEvent err] ∧ Announced w t
  | _, t => Offered (delivered t)

theorem Offered.started {w : List OtaApiEvent} (h : Offered w) : .started ∈ w := by
  obtain ⟨d, ps, rfl⟩ := h
  simp

/-- What an update that fails after the offer has told. -/
theorem Offered.told {w w' : List OtaApiEvent} (h : Offered w) (hw : w' = w) :
    Opening w' ∧ .started ∈ w' := by
  subst hw
  exact ⟨h.opening, h.started⟩

theorem Announced.of_unopened {t : List Event} {w : List OtaApiEvent} (hw : w = [])
    (ht : Unopened t) : Announced w t := by
  subst hw
  exact iff_of_false List.not_mem_nil fun ⟨h, hb⟩ => ht.unbegun h hb

theorem Announced.of_begun {t : List Event} {w : List OtaApiEvent} {h : HttpsOtaHandle}
    (hw : .started ∈ w) (hb : Begun h t) : Announced w t :=
  iff_of_true hw ⟨h, hb⟩

theorem Announced.snoc {t : List Event} {w : List OtaApiEvent} {e : Event} (h : Announced w t)
    (he : ∀ hd, ¬Begun hd [e]) : Announced w (t ++ [e]) := by
  simp only [Announced, begun_append, exists_or] at h ⊢
  rw [h]
  exact ⟨.inl, fun hb => hb.elim id fun ⟨hd, hn⟩ => absurd hn (he hd)⟩

theorem delivered_snoc (t : List Event) (e : Event) :
    delivered (t ++ [e]) = delivered t ++ delivered [e] := by
  simp [delivered, List.filterMap_append]

theorem path_word (hcb : config.eventCb ≠ none) {t : List Event} {ph : Phase}
    (h : Path (Move build config url) .claiming t ph) : ph.Word t := by
  have keep : ∀ (s : List Event) (p : Phase) (e : Event) (q : Phase),
      Path (Move build config url) .claiming s p → p.Word s → Move build config url p e q →
      q.Word (s ++ [e]) := by
    intro s p e q hp hs m
    have hfacts := path_facts hp
    have hd := delivered_snoc s e
    cases m with
    | connectedSilent hc => exact absurd hc hcb
    | inspectedSilent hc => exact absurd hc hcb
    | releasedSilent hc => exact absurd hc hcb
    | untrusted _ =>
      have hw : delivered (s ++ [_]) = [] := hd.trans (by rw [show delivered s = [] from hs]; rfl)
      refine ⟨hw ▸ .silent, .of_unopened hw ?_⟩
      exact Unopened.snoc (path_handle hp) rfl fun h hb => by simp [Begun] at hb
    | unreachable he =>
      have hw : delivered (s ++ [_]) = [] := hd.trans (by rw [show delivered s = [] from hs]; rfl)
      refine ⟨hw ▸ .silent, .of_unopened hw ?_⟩
      exact Unopened.snoc (path_handle hp) rfl fun h hb => he (begun_singleton hb).1
    | welcomed => exact hd.trans (by rw [show delivered s = [] from hs]; rfl)
    | unwelcome _ =>
      have hw : delivered (s ++ [_]) = [.started] :=
        hd.trans (by rw [show delivered s = [] from hs]; rfl)
      exact ⟨hw ▸ .started, hw ▸ List.mem_singleton_self _⟩
    | unreadable _ =>
      have hw : delivered (s ++ [_]) = [.started] :=
        hd.trans (by rw [show delivered s = [.started] from hs]; rfl)
      exact ⟨hw ▸ .started, hw ▸ List.mem_singleton_self _⟩
    | admitted =>
      have hw := hd.trans (by rw [show delivered s = [.started] from hs])
      exact ⟨_, [], hw⟩
    | vetoed _ =>
      have hw := hd.trans (by rw [show delivered s = [.started] from hs])
      have ho : Offered (delivered (s ++ [_])) := ⟨_, [], hw⟩
      exact ⟨ho.opening, ho.started⟩
    | reported =>
      have hw : Offered (delivered (s ++ [_])) := hd ▸ Offered.progress hs _
      exact hw
    | reportedAll =>
      have hw : Offered (delivered (s ++ [_])) := hd ▸ Offered.progress hs _
      exact hw
    | cancelled _ =>
      exact Offered.told (Offered.progress hs _) hd
    | cancelledAll _ =>
      exact Offered.told (Offered.progress hs _) hd
    | committed =>
      have hw : delivered (s ++ [_]) = delivered s := hd.trans (List.append_nil _)
      have ho : Offered (delivered s) := hs
      exact ⟨hw ▸ ho.opening, hw ▸ .of_begun ho.started (hfacts.1.1.begun.append _)⟩
    | discarded =>
      have hw : delivered (s ++ [_]) = delivered s := hd.trans (List.append_nil _)
      exact ⟨hw ▸ hs.1, hw ▸ .of_begun hs.2 (Begun.append hfacts _)⟩
    | released _ =>
      have hw : delivered (s ++ [_]) = delivered s := hd.trans (List.append_nil _)
      exact ⟨hw ▸ hs.1, hw ▸ hs.2.snoc fun h hb => by simp [Begun] at hb⟩
    | announced =>
      exact ⟨delivered s, hs.1, hd, hs.2.snoc fun h hb => by simp [Begun] at hb⟩
    | interrupted _ _ =>
      exact Offered.told hs (hd.trans (List.append_nil _))
    | stopped =>
      exact Offered.told hs (hd.trans (List.append_nil _))
    | truncated =>
      exact Offered.told hs (hd.trans (List.append_nil _))
    | _ =>
      have hw : delivered (s ++ [_]) = delivered s := hd.trans (List.append_nil _)
      simpa only [Phase.Word, hw] using hs
  exact Path.invariant keep h rfl

/-- Every event goes to the callback of the configuration, with its context. -/
theorem path_addressee {s t : List Event} {ph : Phase} {cb : EventCb} {event : OtaApiEvent}
    {ctx : Nat} {v : EspErr}
    (h : Path (Move build config url) .claiming (s ++ ⟨.eventCb cb event ctx, v⟩ :: t) ph) :
    config.eventCb = some cb ∧ ctx = config.userCtx := by
  obtain ⟨p, q, hp, m, _⟩ := h.at_event
  have hf := path_facts hp
  cases m with
  | announced => exact ⟨hf, rfl⟩
  | _ => exact ⟨hf.1, rfl⟩

end Machine

end OtaApi
