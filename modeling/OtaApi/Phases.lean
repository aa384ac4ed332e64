import OtaApi.Interaction.Run
import OtaApi.Update

/-!
# The update state machine

The machine of `docs/update_state_machine.md`, with one phase for each call an
update can be waiting for. `Move` has one constructor for each arrow: the phase
left, the call with its answer, and the phase entered. `prog` is the rest of the
source from each phase on. `prog_moves` says that the source takes no other step
than the arrows, and `Move.taken` that it takes each of them.
-/

namespace OtaApi

open Interaction

inductive Phase where
  | claiming : Phase
  | refused : EspErr → Phase
  | naming : Netif → HttpClientConfig → Phase
  | connecting : HttpClientConfig → Phase
  | notifying : EventCb → HttpsOtaHandle → Phase
  | inspecting : HttpsOtaHandle → Phase
  | offering : EventCb → HttpsOtaHandle → EspAppDesc → Phase
  | sizing : HttpsOtaHandle → Phase
  | performing : HttpsOtaHandle → Int32 → Int64 → Phase
  | polling : HttpsOtaHandle → Int32 → Int64 → Phase
  | clocking : HttpsOtaHandle → Int32 → Int64 → Phase
  | measuring : HttpsOtaHandle → Int32 → Int64 → Phase
  | reporting : EventCb → HttpsOtaHandle → Int32 → Int64 → Int32 → Phase
  | verifying : HttpsOtaHandle → Int32 → Int64 → Phase
  | measuringAll : HttpsOtaHandle → Int32 → Int64 → Phase
  | reportingAll : EventCb → HttpsOtaHandle → Int32 → Int64 → Int32 → Phase
  | committing : HttpsOtaHandle → Phase
  | aborting : HttpsOtaHandle → EspErr → Phase
  | releasing : EspErr → Phase
  | announcing : EventCb → EspErr → Phase
  | finished : EspErr → Phase

section Machine

variable (build : BuildOptions) (config : OtaApiConfig) (url : String)

/-- The arrows of the machine. -/
inductive Move : Phase → Event → Phase → Prop where
  | busy : Move .claiming ⟨.claimUpdateSlot, false⟩ (.refused espErrInvalidState)
  | untrusted {err} (h : configureServerTrust build config (baseHttpConfig config url) = .error err) :
      Move .claiming ⟨.claimUpdateSlot, true⟩ (.releasing err)
  | unbound {http} (h : configureServerTrust build config (baseHttpConfig config url) = .ok http)
      (hn : config.bindNetif = none) : Move .claiming ⟨.claimUpdateSlot, true⟩ (.connecting http)
  | bound {http n} (h : configureServerTrust build config (baseHttpConfig config url) = .ok http)
      (hn : config.bindNetif = some n) : Move .claiming ⟨.claimUpdateSlot, true⟩ (.naming n http)
  | named {n http err} {ifrName : String} :
      Move (.naming n http) ⟨.netifGetNetifImplName n, (err, ifrName)⟩
        (.connecting { http with ifName := some ifrName })
  | unreachable {http err h} (he : err ≠ espOk) :
      Move (.connecting http) ⟨.httpsOtaBegin (buildHttpsOtaConfig build config http), (err, h)⟩
        (.releasing err)
  | connected {http h cb} (hc : config.eventCb = some cb) :
      Move (.connecting http) ⟨.httpsOtaBegin (buildHttpsOtaConfig build config http), (espOk, h)⟩
        (.notifying cb h)
  | connectedSilent {http h} (hc : config.eventCb = none) :
      Move (.connecting http) ⟨.httpsOtaBegin (buildHttpsOtaConfig build config http), (espOk, h)⟩
        (.inspecting h)
  | welcomed {cb h} :
      Move (.notifying cb h) ⟨.eventCb cb .started config.userCtx, espOk⟩ (.inspecting h)
  | unwelcome {cb h v} (hv : v ≠ espOk) :
      Move (.notifying cb h) ⟨.eventCb cb .started config.userCtx, v⟩ (.aborting h v)
  | unreadable {h err d} (he : err ≠ espOk) :
      Move (.inspecting h) ⟨.httpsOtaGetImgDesc h, (err, d)⟩ (.aborting h err)
  | inspected {h d cb} (hc : config.eventCb = some cb) :
      Move (.inspecting h) ⟨.httpsOtaGetImgDesc h, (espOk, d)⟩ (.offering cb h d)
  | inspectedSilent {h d} (hc : config.eventCb = none) :
      Move (.inspecting h) ⟨.httpsOtaGetImgDesc h, (espOk, d)⟩ (.sizing h)
  | admitted {cb h d} :
      Move (.offering cb h d) ⟨.eventCb cb (.imageDesc d) config.userCtx, espOk⟩ (.sizing h)
  | vetoed {cb h d v} (hv : v ≠ espOk) :
      Move (.offering cb h d) ⟨.eventCb cb (.imageDesc d) config.userCtx, v⟩ (.aborting h v)
  | sized {h} {total : Int32} :
      Move (.sizing h) ⟨.httpsOtaGetImageSize h, total⟩ (.performing h total 0)
  | inProgress {h total last} :
      Move (.performing h total last) ⟨.httpsOtaPerform h, espErrHttpsOtaInProgress⟩
        (.polling h total last)
  | received {h total last} :
      Move (.performing h total last) ⟨.httpsOtaPerform h, espOk⟩ (.verifying h total last)
  | interrupted {h total last err} (hp : err ≠ espErrHttpsOtaInProgress) (he : err ≠ espOk) :
      Move (.performing h total last) ⟨.httpsOtaPerform h, err⟩ (.aborting h err)
  | stopped {h total last} :
      Move (.polling h total last) ⟨.abortRequested, true⟩ (.aborting h espErrNotFinished)
  | goingOn {h total last} (hi : config.progressIntervalMs ≠ 0) :
      Move (.polling h total last) ⟨.abortRequested, false⟩ (.clocking h total last)
  | goingOnUnthrottled {h total last} (hi : config.progressIntervalMs = 0) :
      Move (.polling h total last) ⟨.abortRequested, false⟩ (.measuring h total last)
  | throttled {h total last} {now : Int64} (hn : now - last < progressWindowUs config) :
      Move (.clocking h total last) ⟨.timerGetTime, now⟩ (.performing h total last)
  | due {h total last} {now : Int64} (hn : ¬ now - last < progressWindowUs config) :
      Move (.clocking h total last) ⟨.timerGetTime, now⟩ (.measuring h total now)
  | unmeasured {h total last} {n : Int32} (hn : n < 0) :
      Move (.measuring h total last) ⟨.httpsOtaGetImageLenRead h, n⟩ (.performing h total last)
  | measured {h total last cb} {n : Int32} (hn : ¬ n < 0) (hc : config.eventCb = some cb) :
      Move (.measuring h total last) ⟨.httpsOtaGetImageLenRead h, n⟩ (.reporting cb h total last n)
  | measuredSilent {h total last} {n : Int32} (hn : ¬ n < 0) (hc : config.eventCb = none) :
      Move (.measuring h total last) ⟨.httpsOtaGetImageLenRead h, n⟩ (.performing h total last)
  | reported {cb h total last n} :
      Move (.reporting cb h total last n)
        ⟨.eventCb cb (.progress (progressPayload n total)) config.userCtx, espOk⟩
        (.performing h total last)
  | cancelled {cb h total last n v} (hv : v ≠ espOk) :
      Move (.reporting cb h total last n)
        ⟨.eventCb cb (.progress (progressPayload n total)) config.userCtx, v⟩ (.aborting h v)
  | truncated {h total last} :
      Move (.verifying h total last) ⟨.httpsOtaIsCompleteDataReceived h, false⟩
        (.aborting h espErrOtaValidateFailed)
  | complete {h total last} :
      Move (.verifying h total last) ⟨.httpsOtaIsCompleteDataReceived h, true⟩
        (.measuringAll h total last)
  | unmeasuredAll {h total last} {n : Int32} (hn : n < 0) :
      Move (.measuringAll h total last) ⟨.httpsOtaGetImageLenRead h, n⟩ (.committing h)
  | measuredAll {h total last cb} {n : Int32} (hn : ¬ n < 0) (hc : config.eventCb = some cb) :
      Move (.measuringAll h total last) ⟨.httpsOtaGetImageLenRead h, n⟩
        (.reportingAll cb h total last n)
  | measuredAllSilent {h total last} {n : Int32} (hn : ¬ n < 0) (hc : config.eventCb = none) :
      Move (.measuringAll h total last) ⟨.httpsOtaGetImageLenRead h, n⟩ (.committing h)
  | reportedAll {cb h total last n} :
      Move (.reportingAll cb h total last n)
        ⟨.eventCb cb (.progress (progressPayload n total)) config.userCtx, espOk⟩ (.committing h)
  | cancelledAll {cb h total last n v} (hv : v ≠ espOk) :
      Move (.reportingAll cb h total last n)
        ⟨.eventCb cb (.progress (progressPayload n total)) config.userCtx, v⟩ (.aborting h v)
  | committed {h} {err : EspErr} : Move (.committing h) ⟨.httpsOtaFinish h, err⟩ (.releasing err)
  | discarded {h err} {r : EspErr} : Move (.aborting h err) ⟨.httpsOtaAbort h, r⟩ (.releasing err)
  | released {err cb} (hc : config.eventCb = some cb) :
      Move (.releasing err) ⟨.releaseUpdateSlot, ()⟩ (.announcing cb err)
  | releasedSilent {err} (hc : config.eventCb = none) :
      Move (.releasing err) ⟨.releaseUpdateSlot, ()⟩ (.finished err)
  | announced {cb err} {v : EspErr} :
      Move (.announcing cb err) ⟨.eventCb cb (outcomeEvent err) config.userCtx, v⟩ (.finished err)

/-! What is left of the whole update once one function of the source is done. -/

/-- `run_update()` has returned. -/
def settle (err : EspErr) : Program EspErr := do
  let _ ← ask .releaseUpdateSlot
  let _ ← otaApiDispatchEvent config (outcomeEvent err)
  pure err

/-- `err` is what the handle is closed with. -/
def close (handle : HttpsOtaHandle) (err : EspErr) : Program EspErr :=
  if err ≠ espOk then do
    let _ ← ask (.httpsOtaAbort handle)
    settle config err
  else do
    let err ← ask (.httpsOtaFinish handle)
    settle config err

/-- `check_incoming_image()` has returned. -/
def afterInspection (handle : HttpsOtaHandle) (err : EspErr) : Program EspErr := do
  let err ← ifOk err (downloadImage handle config)
  close config handle err

/-- The verdict on the start is in. -/
def afterStarted (handle : HttpsOtaHandle) (err : EspErr) : Program EspErr := do
  let err ← ifOk err (checkIncomingImage handle config)
  afterInspection config handle err

/-- The configuration is built. -/
def connect (httpConfig : HttpClientConfig) : Program EspErr := do
  let (err, handle) ← ask (.httpsOtaBegin (buildHttpsOtaConfig build config httpConfig))
  if err ≠ espOk then settle config err
  else
    let err ← otaApiDispatchEvent config .started
    afterStarted config handle err

/-- The download loop is left. -/
def afterLoop (handle : HttpsOtaHandle) (totalBytes : Int32) : Exit → Program EspErr
  | .returned err => close config handle err
  | .broke err lastReportUs => do
    let err ← verifyDownload handle config totalBytes err lastReportUs
    close config handle err

/-- The download loop is about to call `esp_https_ota_perform()`. -/
def fromLoop (handle : HttpsOtaHandle) (totalBytes : Int32) (last : Int64) : Program EspErr := do
  let exit ← Prog.whileCall (.httpsOtaPerform handle) last (downloadChunk handle config totalBytes)
  afterLoop config handle totalBytes exit

/-- One pass through the loop is over. -/
def nextPass (handle : HttpsOtaHandle) (totalBytes : Int32) :
    LoopStep Int64 Exit → Program EspErr
  | .again last => fromLoop config handle totalBytes last
  | .leave exit => afterLoop config handle totalBytes exit

/-- The unforced report of a pass has returned. -/
def afterReport (handle : HttpsOtaHandle) (totalBytes : Int32) (r : EspErr × Int64) :
    Program EspErr :=
  if r.1 ≠ espOk then close config handle r.1 else fromLoop config handle totalBytes r.2

/-- The source from each phase on. -/
def prog : Phase → Program EspErr
  | .claiming => do
    let claimed ← ask .claimUpdateSlot
    if !claimed then pure espErrInvalidState
    else
      let err ← runUpdate build config url
      settle config err
  | .refused err => pure err
  | .naming netif httpConfig => do
    let (_, ifrName) ← ask (.netifGetNetifImplName netif)
    connect build config { httpConfig with ifName := some ifrName }
  | .connecting httpConfig => connect build config httpConfig
  | .notifying cb handle => do
    let err ← ask (.eventCb cb .started config.userCtx)
    afterStarted config handle err
  | .inspecting handle => do
    let err ← checkIncomingImage handle config
    afterInspection config handle err
  | .offering cb handle newApp => do
    let err ← ask (.eventCb cb (.imageDesc newApp) config.userCtx)
    afterInspection config handle err
  | .sizing handle => do
    let err ← downloadImage handle config
    close config handle err
  | .performing handle totalBytes last => fromLoop config handle totalBytes last
  | .polling handle totalBytes last => do
    let pass ← downloadChunk handle config totalBytes espErrHttpsOtaInProgress last
    nextPass config handle totalBytes pass
  | .clocking handle totalBytes last => do
    let nowUs ← ask .timerGetTime
    if nowUs - last < progressWindowUs config then fromLoop config handle totalBytes last
    else
      let r ← reportLength handle config totalBytes nowUs
      afterReport config handle totalBytes r
  | .measuring handle totalBytes last => do
    let r ← reportLength handle config totalBytes last
    afterReport config handle totalBytes r
  | .reporting cb handle totalBytes last readBytes => do
    let err ← ask (.eventCb cb (.progress (progressPayload readBytes totalBytes)) config.userCtx)
    afterReport config handle totalBytes (err, last)
  | .verifying handle totalBytes last => do
    let err ← verifyDownload handle config totalBytes espOk last
    close config handle err
  | .measuringAll handle totalBytes last => do
    let (err, _) ← reportLength handle config totalBytes last
    close config handle err
  | .reportingAll cb handle totalBytes _ readBytes => do
    let err ← ask (.eventCb cb (.progress (progressPayload readBytes totalBytes)) config.userCtx)
    close config handle err
  | .committing handle => close config handle espOk
  | .aborting handle err => do
    let _ ← ask (.httpsOtaAbort handle)
    settle config err
  | .releasing err => settle config err
  | .announcing cb err => do
    let _ ← ask (.eventCb cb (outcomeEvent err) config.userCtx)
    pure err
  | .finished err => pure err

end Machine

section Refinement

variable {build : BuildOptions} {config : OtaApiConfig} {url : String}

@[simp] theorem ifOk_ok (f : Program EspErr) : ifOk espOk f = f := if_pos rfl
@[simp] theorem ifOk_err {err : EspErr} (h : err ≠ espOk) (f : Program EspErr) :
    ifOk err f = pure err := if_neg h

theorem transferImage_settle (config : OtaApiConfig) (h : HttpsOtaHandle) :
    transferImage h config >>= settle config =
      otaApiDispatchEvent config .started >>= afterStarted config h := by
  simp only [transferImage, bind_assoc]
  refine bind_congr fun started => ?_
  simp only [afterStarted]
  refine bind_congr fun inspected => ?_
  simp only [afterInspection]
  refine bind_congr fun err => ?_
  by_cases he : err = espOk <;> simp [close, he]

theorem runUpdate_settle (build : BuildOptions) (config : OtaApiConfig) (http : HttpClientConfig) :
    (do
      let (err, handle) ← ask (.httpsOtaBegin (buildHttpsOtaConfig build config http))
      if err ≠ espOk then pure err else transferImage handle config) >>= settle config =
      connect build config http := by
  simp only [connect, bind_assoc]
  refine bind_congr fun r => ?_
  by_cases he : r.1 = espOk
  · simpa [he] using transferImage_settle config r.2
  · simp [he]

theorem reportProgress_nextPass (config : OtaApiConfig) (h : HttpsOtaHandle) (total : Int32)
    (last : Int64) :
    (do
      let (err, lastReportUs) ← otaApiReportProgress h config total last false
      if err ≠ espOk then pure (.leave (.returned err)) else pure (.again lastReportUs)) >>=
        nextPass config h total =
      otaApiReportProgress h config total last false >>= afterReport config h total := by
  simp only [bind_assoc]
  refine bind_congr fun r => ?_
  by_cases he : r.1 = espOk <;> simp [afterReport, nextPass, afterLoop, he]

/-- The source takes no step that is not an arrow. -/
theorem prog_moves {ph : Phase} {c : Call} {k : Answer c → Program EspErr}
    (h : (prog build config url ph).turn = .call c k) (a : Answer c) :
    ∃ ph', Move build config url ph ⟨c, a⟩ ph' ∧ k a = prog build config url ph' := by
  cases ph with
  | claiming =>
    cases h
    cases a with
    | false => exact ⟨_, .busy, rfl⟩
    | true =>
      cases ht : configureServerTrust build config (baseHttpConfig config url) with
      | error err =>
        exact ⟨_, .untrusted ht, by simp [runUpdate, otaApiBuildHttpConfig, ht, prog]⟩
      | ok http =>
        cases hn : config.bindNetif with
        | none =>
          refine ⟨_, .unbound ht hn, ?_⟩
          simpa [runUpdate, otaApiBuildHttpConfig, ht, hn, prog] using runUpdate_settle build config http
        | some n =>
          refine ⟨_, .bound ht hn, ?_⟩
          simp only [runUpdate, otaApiBuildHttpConfig, ht, hn, prog, bind_assoc, pure_bind]
          refine bind_congr fun r => ?_
          simpa using runUpdate_settle build config
            { http with ifName := some r.2 }
  | refused err => cases h
  | naming n http => cases h; exact ⟨_, .named, rfl⟩
  | connecting http =>
    cases h
    obtain ⟨err, hd⟩ := a
    by_cases he : err = espOk
    · subst he
      cases hc : config.eventCb with
      | none =>
        exact ⟨_, .connectedSilent hc, by simp [otaApiDispatchEvent, hc, prog, afterStarted]⟩
      | some cb => exact ⟨_, .connected hc, by simp [otaApiDispatchEvent, hc, prog]⟩
    · exact ⟨_, .unreachable he, by simp [he, prog]⟩
  | notifying cb hd =>
    cases h
    by_cases hv : a = espOk
    · subst hv
      exact ⟨_, .welcomed, by simp [afterStarted, prog]⟩
    · exact ⟨_, .unwelcome hv, by simp [afterStarted, afterInspection, close, hv, prog]⟩
  | inspecting hd =>
    simp only [prog, checkIncomingImage, bind_assoc] at h
    cases h
    obtain ⟨err, d⟩ := a
    by_cases he : err = espOk
    · subst he
      cases hc : config.eventCb with
      | none =>
        exact ⟨_, .inspectedSilent hc, by simp [otaApiDispatchEvent, hc, prog, afterInspection]⟩
      | some cb => exact ⟨_, .inspected hc, by simp [otaApiDispatchEvent, hc, prog]⟩
    · exact ⟨_, .unreadable he, by simp [he, prog, afterInspection, close]⟩
  | offering cb hd d =>
    cases h
    by_cases hv : a = espOk
    · subst hv
      exact ⟨_, .admitted, by simp [afterInspection, prog]⟩
    · exact ⟨_, .vetoed hv, by simp [afterInspection, close, hv, prog]⟩
  | sizing hd =>
    simp only [prog, downloadImage, bind_assoc] at h
    cases h
    refine ⟨_, .sized, ?_⟩
    simp only [prog, fromLoop]
    refine bind_congr fun exit => ?_
    cases exit <;> simp [afterLoop]
  | performing hd total last =>
    simp only [prog, fromLoop, Prog.turn_whileCall_bind] at h
    cases h
    by_cases hp : a = espErrHttpsOtaInProgress
    · subst hp
      refine ⟨_, .inProgress, ?_⟩
      simp only [prog]
      refine bind_congr fun pass => ?_
      cases pass <;> rfl
    · by_cases he : a = espOk
      · subst he
        exact ⟨_, .received, by simp [downloadChunk, hp, prog, afterLoop]⟩
      · refine ⟨_, .interrupted hp he, ?_⟩
        simp [downloadChunk, verifyDownload, afterLoop, close, hp, he, prog]
  | polling hd total last =>
    simp only [prog, downloadChunk, ne_eq, not_true_eq_false, if_false, bind_assoc] at h
    cases h
    cases a with
    | true => exact ⟨_, .stopped, by simp [nextPass, afterLoop, close, espErrNotFinished, espOk, prog]⟩
    | false =>
      have hr := reportProgress_nextPass config hd total last
      by_cases hi : config.progressIntervalMs = 0
      · refine ⟨_, .goingOnUnthrottled hi, Eq.trans (by simp) (hr.trans ?_)⟩
        simp [otaApiReportProgress, hi, prog]
      · refine ⟨_, .goingOn hi, Eq.trans (by simp) (hr.trans ?_)⟩
        simp only [otaApiReportProgress, hi, prog, Bool.not_false, Bool.true_and, bne_iff_ne, ne_eq,
          not_false_eq_true, if_true, bind_assoc]
        refine bind_congr fun now => ?_
        by_cases hn : now - last < progressWindowUs config
        · simp [hn, afterReport]
        · simp only [if_neg hn]
  | clocking hd total last =>
    cases h
    by_cases hn : a - last < progressWindowUs config
    · exact ⟨_, .throttled hn, by simp [hn, prog]⟩
    · exact ⟨_, .due hn, by simp [hn, prog]⟩
  | measuring hd total last =>
    simp only [prog, reportLength, bind_assoc] at h
    cases h
    by_cases hn : a < 0
    · exact ⟨_, .unmeasured hn, by simp [hn, afterReport, prog]⟩
    · cases hc : config.eventCb with
      | none =>
        exact ⟨_, .measuredSilent hn hc, by simp [otaApiDispatchEvent, hc, afterReport, prog]⟩
      | some cb => exact ⟨_, .measured hn hc, by simp [hn, otaApiDispatchEvent, hc, prog]⟩
  | reporting cb hd total last n =>
    cases h
    by_cases hv : a = espOk
    · subst hv
      exact ⟨_, .reported, by simp [afterReport, prog]⟩
    · exact ⟨_, .cancelled hv, by simp [afterReport, close, hv, prog]⟩
  | verifying hd total last =>
    simp only [prog, verifyDownload, ne_eq, not_true_eq_false, if_false, bind_assoc] at h
    cases h
    cases a with
    | true => exact ⟨_, .complete, by simp [otaApiReportProgress, prog]⟩
    | false => exact ⟨_, .truncated, by simp [close, espErrOtaValidateFailed, espOk, prog]⟩
  | measuringAll hd total last =>
    simp only [prog, reportLength, bind_assoc] at h
    cases h
    by_cases hn : a < 0
    · exact ⟨_, .unmeasuredAll hn, by simp [hn, prog]⟩
    · cases hc : config.eventCb with
      | none => exact ⟨_, .measuredAllSilent hn hc, by simp [otaApiDispatchEvent, hc, prog]⟩
      | some cb => exact ⟨_, .measuredAll hn hc, by simp [hn, otaApiDispatchEvent, hc, prog]⟩
  | reportingAll cb hd total last n =>
    cases h
    by_cases hv : a = espOk
    · subst hv
      exact ⟨_, .reportedAll, by simp [prog]⟩
    · exact ⟨_, .cancelledAll hv, by simp [close, hv, prog]⟩
  | committing hd =>
    simp only [prog, close, ne_eq, not_true_eq_false, if_false] at h
    cases h
    exact ⟨_, .committed, rfl⟩
  | aborting hd err => cases h; exact ⟨_, .discarded, rfl⟩
  | releasing err =>
    cases h
    cases hc : config.eventCb with
    | none => exact ⟨_, .releasedSilent hc, by simp [otaApiDispatchEvent, hc, prog]⟩
    | some cb => exact ⟨_, .released hc, by simp [otaApiDispatchEvent, hc, prog]⟩
  | announcing cb err => cases h; exact ⟨_, .announced, rfl⟩
  | finished err => cases h

/-- The call each phase waits for. -/
def Phase.next? (build : BuildOptions) (config : OtaApiConfig) : Phase → Option Call
  | .claiming => some .claimUpdateSlot
  | .refused _ => none
  | .naming netif _ => some (.netifGetNetifImplName netif)
  | .connecting http => some (.httpsOtaBegin (buildHttpsOtaConfig build config http))
  | .notifying cb _ => some (.eventCb cb .started config.userCtx)
  | .inspecting h => some (.httpsOtaGetImgDesc h)
  | .offering cb _ d => some (.eventCb cb (.imageDesc d) config.userCtx)
  | .sizing h => some (.httpsOtaGetImageSize h)
  | .performing h _ _ => some (.httpsOtaPerform h)
  | .polling _ _ _ => some .abortRequested
  | .clocking _ _ _ => some .timerGetTime
  | .measuring h _ _ => some (.httpsOtaGetImageLenRead h)
  | .reporting cb _ total _ n =>
    some (.eventCb cb (.progress (progressPayload n total)) config.userCtx)
  | .verifying h _ _ => some (.httpsOtaIsCompleteDataReceived h)
  | .measuringAll h _ _ => some (.httpsOtaGetImageLenRead h)
  | .reportingAll cb _ total _ n =>
    some (.eventCb cb (.progress (progressPayload n total)) config.userCtx)
  | .committing h => some (.httpsOtaFinish h)
  | .aborting h _ => some (.httpsOtaAbort h)
  | .releasing _ => some .releaseUpdateSlot
  | .announcing cb err => some (.eventCb cb (outcomeEvent err) config.userCtx)
  | .finished _ => none

/-- An arrow is taken by the call its phase waits for. -/
theorem Move.next?_eq {p q : Phase} {e : Event} (m : Move build config url p e q) :
    p.next? build config = some e.call := by
  cases m <;> rfl

theorem prog_next? (ph : Phase) :
    (prog build config url ph).turn.next? = ph.next? build config := by
  cases ph <;> rfl

theorem next_begin {ph : Phase} {c : HttpsOtaConfig}
    (hn : ph.next? build config = some (.httpsOtaBegin c)) :
    ∃ http, ph = .connecting http ∧ c = buildHttpsOtaConfig build config http := by
  cases ph <;> cases hn
  exact ⟨_, rfl, rfl⟩

theorem next_perform {ph : Phase} {h : HttpsOtaHandle}
    (hn : ph.next? build config = some (.httpsOtaPerform h)) :
    ∃ total last, ph = .performing h total last := by
  cases ph <;> cases hn
  exact ⟨_, _, rfl⟩

theorem next_finish {ph : Phase} {h : HttpsOtaHandle}
    (hn : ph.next? build config = some (.httpsOtaFinish h)) : ph = .committing h := by
  cases ph <;> cases hn
  rfl

/-- An update stops in two phases only. -/
theorem prog_result? {ph : Phase} {r : EspErr}
    (h : (prog build config url ph).turn.result? = some r) : ph = .finished r ∨ ph = .refused r := by
  have hd := Turn.eq_done h
  have hn : (prog build config url ph).turn.next? = ph.next? build config := prog_next? ph
  rw [hd] at hn
  cases ph <;> try cases hn
  case refused err => cases hd; exact .inr rfl
  case finished err => cases hd; exact .inl rfl

theorem otaApiUpdate_prog (hu : config.url = some url) :
    otaApiUpdate build (some config) = prog build config url .claiming := by
  simp [otaApiUpdate, hu, prog, settle]

/-- Whatever an update does, its machine does. -/
theorem otaApiUpdate_path (hu : config.url = some url) {t : List Event} {p : Program EspErr}
    (h : Steps Prog.turn (otaApiUpdate build (some config)) t p) :
    ∃ ph, Path (Move build config url) .claiming t ph ∧ p = prog build config url ph := by
  have sim : ∀ (ph : Phase) (p : Program EspErr) (c : Call) (k : Answer c → Program EspErr)
      (a : Answer c), p = prog build config url ph → p.turn = .call c k →
      ∃ ph', Move build config url ph ⟨c, a⟩ ph' ∧ k a = prog build config url ph' := by
    rintro ph p c k a rfl ht
    exact prog_moves ht a
  exact Steps.simulated sim h (otaApiUpdate_prog hu)

/-- No two arrows leave a phase with the same answer. -/
theorem Move.deterministic {p q q' : Phase} {e : Event} (m : Move build config url p e q)
    (m' : Move build config url p e q') : q = q' := by
  cases m <;> cases m' <;> first | rfl | contradiction | simp_all

/-- The source takes every arrow. -/
theorem Move.taken {p q : Phase} {c : Call} {answer : Answer c}
    (m : Move build config url p ⟨c, answer⟩ q) :
    ∃ k, (prog build config url p).turn = .call c k ∧ k answer = prog build config url q := by
  have hnext : (prog build config url p).turn.next? = some c := by
    rw [prog_next?, m.next?_eq]
  cases ht : (prog build config url p).turn with
  | done r =>
    rw [ht] at hnext
    cases hnext
  | call c' k =>
    rw [ht] at hnext
    cases hnext
    obtain ⟨q', m', hk⟩ := prog_moves ht answer
    rw [m.deterministic m']
    exact ⟨k, rfl, hk⟩

/-- Whatever the machine does, an update does. -/
theorem path_otaApiUpdate (hu : config.url = some url) {t : List Event} {ph : Phase}
    (h : Path (Move build config url) .claiming t ph) :
    Steps Prog.turn (otaApiUpdate build (some config)) t (prog build config url ph) := by
  have sim : ∀ (p : Phase) (x : Program EspErr) (c : Call) (a : Answer c) (q : Phase),
      x = prog build config url p → Move build config url p ⟨c, a⟩ q →
      ∃ k, x.turn = .call c k ∧ k a = prog build config url q := by
    rintro p x c a q rfl m
    exact m.taken
  obtain ⟨y, hsteps, rfl⟩ := Path.realised sim h (otaApiUpdate_prog hu)
  exact hsteps

end Refinement

end OtaApi
