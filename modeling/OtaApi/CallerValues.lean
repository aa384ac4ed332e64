import OtaApi.Connection
import OtaApi.Ticks
import OtaApi.TrialWindow
import OtaApi.Undisturbed

/-!
# The sizes and times of a caller

What becomes of the numbers in a configuration and in a timeout on their way to
ESP-IDF, to the throttle and into the reports. All of them arrive as they were given,
except for a request size that has no room in an `int`.
-/

namespace OtaApi

open Interaction CInteger

/-- What the throttle computes with at one reading of the clock. -/
def throttleOperands (config : OtaApiConfig) (last now : Int64) : Operands :=
  { progressIntervalMs := config.progressIntervalMs, nowUs := now, lastReportUs := last }

def reportOperands (n size : Int32) : Operands := { readBytes := n, totalBytes := size }

/-- `timeout_s` once its default has been put in. -/
def countdownOperands (build : BuildOptions) (timeoutS : UInt32) : Operands :=
  { timeoutS := if timeoutS = 0 then build.otaApiTrialTimeoutS else timeoutS }

/-- One decision of the throttle. -/
structure ThrottleExact (config : OtaApiConfig) (last now : Int64) : Prop where
  window : windowExpr.Computes (throttleOperands config last now).value
    (progressWindowUs config).toInt (config.progressIntervalMs.toNat * 1000)
  elapsed : elapsedExpr.Computes (throttleOperands config last now).value
    (now - last).toInt (now.toInt - last.toInt)
  decision : now - last < progressWindowUs config ↔
    now.toInt - last.toInt < config.progressIntervalMs.toNat * 1000

/-- The payload of one report. -/
structure ReportExact (n size : Int32) : Prop where
  bytesRead : bytesReadExpr.Computes (reportOperands n size).value
    (progressPayload n size).bytesRead.toNat n.toInt
  totalBytes : 0 < size → totalBytesExpr.Computes (reportOperands n size).value
    (progressPayload n size).totalBytes.toNat size.toInt
  percent : 0 < size → percentExpr.Computes (reportOperands n size).value
    (progressPayload n size).percent.toInt (n.toInt * 100 / size.toInt)
  -- nothing is divided by an unknown size
  unknown : size = 0 → (progressPayload n size).totalBytes = 0 ∧ (progressPayload n size).percent = -1

/-- The numbers of one update of a run. -/
structure UpdateExact (build : BuildOptions) (config : OtaApiConfig) (url : String)
    (a : Activation) : Prop where
  /-- The request size gets to `esp_https_ota_begin()` as it is, 0 included. -/
  requestSize : build.httpsOtaEnablePartialDownload = true →
    ∀ c : HttpsOtaConfig, .httpsOtaBegin c ∈ a.calls →
      c.maxHttpRequestSize.toInt = config.maxHttpRequestSize.toNat
  /-- Every reading of the clock is compared as integers are. -/
  throttle : (∀ now : Int64, ⟨.timerGetTime, now⟩ ∈ a.trace → 0 ≤ now) →
    ∀ u (now : Int64) v, a.trace = u ++ ⟨.timerGetTime, now⟩ :: v →
      ∃ h total last, Path (Move build config url) .claiming u (.clocking h total last) ∧
        ThrottleExact config last now ∧
        Path (Move build config url) .claiming (u ++ [⟨.timerGetTime, now⟩])
          (if now.toInt - last.toInt < config.progressIntervalMs.toNat * 1000
            then .performing h total last else .measuring h total now)
  /-- Every report is made of a length and the size. -/
  reports : ∀ p ∈ a.reports, ∃ n ∈ lengthsRead a.trace, p = progressPayload n (imageSize a.trace) ∧
    0 ≤ n ∧ (n ≤ imageSize a.trace → ReportExact n (imageSize a.trace))

/-- One call of `ota_api_trial_begin()`: if it starts the timer, then with all the
seconds. -/
def CountdownExact (build : BuildOptions) (timeoutS : UInt32) (c : TrialCall) : Prop :=
  ∀ timer us, c = .timerStartOnce timer us →
    countdownExpr.Computes (countdownOperands build timeoutS).value us.toNat
      (windowSeconds build timeoutS * 1000000)

/-- No number of a caller is changed: in any update of any run, and in any call of
`ota_api_trial_begin()`. -/
structure CallerValuesExact (build : BuildOptions) (config : OtaApiConfig) : Prop where
  update : ∀ url ls (i : Nat) (a : Activation), (System.run build ls).activations[i]? = some a →
    a.Updates config url → UpdateExact build config url a
  throttle : ∀ last now : Int64, 0 ≤ last → 0 ≤ now → ThrottleExact config last now
  countdown : ∀ sTrialTimer timeoutS, (otaApiTrialBegin build sTrialTimer timeoutS).Only
    (CountdownExact build timeoutS)
  report : ∀ n size : Int32, 0 ≤ n → n ≤ size → ReportExact n size

/-- An update with this configuration gets as far as handing its request size on. -/
def HandsOn (build : BuildOptions) (config : OtaApiConfig) : Prop :=
  build.httpsOtaEnablePartialDownload = true ∧
    ∃ url, config.url = some url ∧ Connectable build config url

/-! ## The computations -/

section Computations

variable {build : BuildOptions} {config : OtaApiConfig} {url : String}

theorem throttle_exact {last now : Int64} (hlast : 0 ≤ last) (hnow : 0 ≤ now) :
    ThrottleExact config last now := by
  rw [Int64.le_iff_toInt_le] at hlast hnow
  have hlow : 0 ≤ last.toInt := hlast
  have hpos : 0 ≤ now.toInt := hnow
  have hfits : int64T.Holds (now.toInt - last.toInt) := by
    have hmaxLast := last.toInt_lt
    have hmaxNow := now.toInt_lt
    rw [IntType.Holds]
    omega
  have hwindow := window_computes (throttleOperands config last now)
  have helapsed := elapsed_computes (throttleOperands config last now) hfits
  constructor
  case window => exact hwindow
  case elapsed => exact helapsed
  case decision =>
    have hw : (progressWindowUs config).toInt = config.progressIntervalMs.toNat * 1000 := hwindow.eq
    have he : (now - last).toInt = now.toInt - last.toInt := helapsed.eq
    rw [Int64.lt_iff_toInt_lt, hw, he]

theorem report_exact {n size : Int32} (hn : 0 ≤ n) (hle : n ≤ size) : ReportExact n size := by
  have hsize : 0 ≤ size := Int32.le_trans hn hle
  rw [Int32.le_iff_toInt_le] at hn hle hsize
  constructor
  case bytesRead => exact bytesRead_computes (reportOperands n size) hn
  case totalBytes =>
    intro hpos
    have hknown : size > 0 := hpos
    simp only [progressPayload, if_pos hknown]
    exact totalBytes_computes (reportOperands n size) hsize
  case percent =>
    intro hpos
    have hknown : size > 0 := hpos
    rw [Int32.lt_iff_toInt_lt] at hpos
    simp only [progressPayload, if_pos hknown]
    exact percent_computes (reportOperands n size) hpos hn hle
  case unknown =>
    intro hzero
    exact payload_unknown (Int32.le_of_eq hzero)

theorem trialStart_exact {timer : TimerHandle} (timeoutS : UInt32) :
    (trialStart timer (countdownOperands build timeoutS).timeoutS).Only (CountdownExact build timeoutS) := by
  apply Prog.only_bind
  · apply Prog.only_ask
    intro timer' us hcall
    cases hcall
    rw [windowSeconds_eq]
    exact countdown_computes (countdownOperands build timeoutS)
  · intro err
    exact Prog.only_pure _

theorem otaApiIsOnTrial_only {P : TrialCall → Prop} (h : P .otaGetStatePartition) :
    otaApiIsOnTrial.Only P := by
  apply Prog.only_bind (Prog.only_ask h)
  rintro ⟨err, state⟩
  dsimp only
  split
  · exact Prog.only_pure _
  · exact Prog.only_pure _

/-- However the timer came about, it is started with the whole time. -/
theorem countdown_exact (sTrialTimer : Option TimerHandle) (timeoutS : UInt32) :
    (otaApiTrialBegin build sTrialTimer timeoutS).Only (CountdownExact build timeoutS) := by
  apply Prog.only_bind
  · exact otaApiIsOnTrial_only fun _ _ h => by cases h
  · intro onTrial
    split
    · exact Prog.only_pure _
    · cases sTrialTimer with
      | some timer => exact trialStart_exact timeoutS
      | none =>
        apply Prog.only_bind
        · apply Prog.only_ask
          intro timer us h
          cases h
        · rintro ⟨err, timer⟩
          dsimp only
          split
          · exact Prog.only_pure _
          · exact trialStart_exact timeoutS

end Computations

/-! ## One update -/

section Update

variable {build : BuildOptions} {config : OtaApiConfig} {url : String}

/-- `last_report_us`, while there is one. -/
def Phase.lastReportUs? : Phase → Option Int64
  | .performing _ _ last => some last
  | .polling _ _ last => some last
  | .clocking _ _ last => some last
  | .measuring _ _ last => some last
  | .reporting _ _ _ last _ => some last
  | .verifying _ _ last => some last
  | .measuringAll _ _ last => some last
  | .reportingAll _ _ _ last _ => some last
  | _ => none

/-- The time stamp is zero, or a time that was read. -/
def Phase.Stamped (t : List Event) (ph : Phase) : Prop :=
  ∀ last, ph.lastReportUs? = some last → last = 0 ∨ ⟨.timerGetTime, last⟩ ∈ t

theorem Move.stamped {p q : Phase} {e : Event} {t : List Event} (m : Move build config url p e q)
    (h : p.Stamped t) : q.Stamped (t ++ [e]) := by
  intro last hlast
  cases m with
  | sized =>
    cases hlast
    exact .inl rfl
  | due hn =>
    cases hlast
    exact .inr (List.mem_append_right t List.mem_cons_self)
  | _ =>
    -- the stamp is as it was, or there is none
    first
      | cases hlast; done
      | exact (h last hlast).imp_right (List.mem_append_left _)

theorem path_stamped {t : List Event} {ph : Phase} (h : Path (Move build config url) .claiming t ph) :
    ph.Stamped t := by
  have keep : ∀ (s : List Event) (p : Phase) (e : Event) (q : Phase),
      Path (Move build config url) .claiming s p → p.Stamped s → Move build config url p e q →
      q.Stamped (s ++ [e]) := fun s p e q _ hs m => m.stamped hs
  have start : Phase.claiming.Stamped [] := by
    intro last hlast
    cases hlast
  exact Path.invariant keep h start

/-- A reading of the clock is compared with an earlier one, or with zero. -/
theorem reading_exact {t u v : List Event} {ph : Phase} {now : Int64}
    (hp : Path (Move build config url) .claiming t ph) (ht : t = u ++ ⟨.timerGetTime, now⟩ :: v)
    (hclock : ∀ now : Int64, ⟨.timerGetTime, now⟩ ∈ t → 0 ≤ now) :
    ∃ h total last, Path (Move build config url) .claiming u (.clocking h total last) ∧
      ThrottleExact config last now ∧
      Path (Move build config url) .claiming (u ++ [⟨.timerGetTime, now⟩])
        (if now.toInt - last.toInt < config.progressIntervalMs.toNat * 1000
          then .performing h total last else .measuring h total now) := by
  subst ht
  obtain ⟨q, q', hq, m, _⟩ := hp.at_event
  have hnow : 0 ≤ now := hclock now (List.mem_append_right u List.mem_cons_self)
  have hstamp : ∀ last, q.lastReportUs? = some last → 0 ≤ last := by
    intro last hlast
    obtain rfl | hread := path_stamped hq last hlast
    · exact Int64.le_refl 0
    · exact hclock last (List.mem_append_left _ hread)
  have hnext := hq.snoc m
  cases m with
  | @throttled h total last _ hn =>
    have hexact : ThrottleExact config last now := throttle_exact (hstamp last rfl) hnow
    refine ⟨h, total, last, hq, hexact, ?_⟩
    rw [if_pos (hexact.decision.mp hn)]
    exact hnext
  | @due h total last _ hn =>
    have hexact : ThrottleExact config last now := throttle_exact (hstamp last rfl) hnow
    refine ⟨h, total, last, hq, hexact, ?_⟩
    rw [if_neg (fun hlt => hn (hexact.decision.mpr hlt))]
    exact hnext

/-- What an update reports, with a callback or without. -/
theorem reports_exact {a : Activation} (hs : a.Sound build) (hu : a.Updates config url)
    {p : OtaApiProgress} (hp : p ∈ a.reports) :
    ∃ n ∈ lengthsRead a.trace, p = progressPayload n (imageSize a.trace) ∧
      0 ≤ n ∧ (n ≤ imageSize a.trace → ReportExact n (imageSize a.trace)) := by
  have hcb : config.eventCb ≠ none := by
    intro hnone
    rw [silent_reports hs hu hnone] at hp
    cases hp
  rw [update_reports hs hu hcb, payloads, List.mem_map] at hp
  obtain ⟨n, hmem, rfl⟩ := hp
  obtain ⟨hread, hn⟩ := List.mem_filter.mp hmem
  have hn : 0 ≤ n := by simpa using hn
  exact ⟨n, hread, rfl, hn, report_exact hn⟩

/-- What every connection of an update says of the request size. -/
theorem begin_requestSize {a : Activation} (hs : a.Sound build) (hu : a.Updates config url)
    {c : HttpsOtaConfig} (hc : .httpsOtaBegin c ∈ a.calls)
    (hranged : build.httpsOtaEnablePartialDownload = true) :
    c.maxHttpRequestSize = config.maxHttpRequestSize.toInt32 := by
  obtain ⟨cs, ds, hcalls⟩ := List.append_of_mem hc
  obtain ⟨u, v, ph, _, _, _, hnext⟩ := calls_phase hs hu hcalls
  obtain ⟨http, _, rfl⟩ := next_begin hnext
  rw [buildHttpsOtaConfig, hranged]
  rfl

/-- An update that hands its request size on is in some run. -/
theorem handsOn_begins (h : HandsOn build config) :
    ∃ (url : String) (ls : List Label) (i : Nat) (a : Activation) (c : HttpsOtaConfig),
      (System.run build ls).activations[i]? = some a ∧ a.Updates config url ∧
        .httpsOtaBegin c ∈ a.calls := by
  obtain ⟨_, url, hu, hconnectable⟩ := h
  obtain ⟨t, http, hpath, hclaim, hpoll⟩ := connecting_reached hconnectable
  obtain ⟨ls, a, halone, hupdates, _, hprog, _, _⟩ := path_realised hu hpath hclaim hpoll
  have hnext : a.next? = some (.httpsOtaBegin (buildHttpsOtaConfig build config http)) :=
    update_next? hprog
  refine ⟨url, ls, 0, a, buildHttpsOtaConfig build config http, ?_, hupdates, next_mem_calls hnext⟩
  rw [halone.only]
  rfl

end Update

/-! ## The caller -/

/-- The request size is the one number that can be changed: one for which there is
no room in an `int` is, as soon as it is handed on. -/
theorem caller_values_exact_iff (build : BuildOptions) (config : OtaApiConfig) :
    CallerValuesExact build config ↔
      (HandsOn build config → config.maxHttpRequestSize.toNat < 2 ^ 31) := by
  have hsign : config.maxHttpRequestSize.toInt32.toInt = config.maxHttpRequestSize.toNat ↔
      config.maxHttpRequestSize.toNat < 2 ^ 31 :=
    requestSize_eq_iff { maxHttpRequestSize := config.maxHttpRequestSize }
  constructor
  · intro h hhands
    obtain ⟨url, ls, i, a, c, ha, hu, hc⟩ := handsOn_begins hhands
    have hsize : c.maxHttpRequestSize.toInt = config.maxHttpRequestSize.toNat :=
      (h.update url ls i a ha hu).requestSize hhands.1 c hc
    rw [begin_requestSize (run_sound ha) hu hc hhands.1] at hsize
    exact hsign.mp hsize
  · intro hfits
    constructor
    case update =>
      intro url ls i a ha hu
      have hs : a.Sound build := run_sound ha
      constructor
      case requestSize =>
        intro hranged c hc
        have hhands : HandsOn build config := ⟨hranged, url, hu.2, (begin_authenticated hs hu hc).1⟩
        rw [begin_requestSize hs hu hc hranged]
        exact hsign.mpr (hfits hhands)
      case throttle =>
        intro hclock u now v htrace
        obtain ⟨ph, hpath, _⟩ := update_path hs hu
        exact reading_exact hpath htrace hclock
      case reports =>
        intro p hp
        exact reports_exact hs hu hp
    case throttle =>
      intro last now hlast hnow
      exact throttle_exact hlast hnow
    case countdown => exact countdown_exact
    case report =>
      intro n size hn hle
      exact report_exact hn hle

/-- `SIZE_MAX`, for a request without a limit. -/
def unlimited : OtaApiConfig :=
  { sampleConfig with partialDownload := true, maxHttpRequestSize := 0xFFFFFFFF }

/-- ESP-IDF is asked for requests of minus one byte. -/
theorem unlimited_negative :
    (∃ (a : Activation) (c : HttpsOtaConfig),
      (System.run sampleBuild [.otaApiUpdate (.app 0) (some unlimited),
        .advance (.app 0)]).activations[0]? = some a ∧
      a.Updates unlimited "https://host/app.bin" ∧ a.next? = some (.httpsOtaBegin c) ∧
      c.partialHttpDownload = true ∧ c.maxHttpRequestSize = -1) ∧
      ¬CallerValuesExact sampleBuild unlimited := by
  let http : HttpClientConfig :=
    { baseHttpConfig unlimited "https://host/app.bin" with certPem := some "pem" }
  have hrun : ((System.run sampleBuild [.otaApiUpdate (.app 0) (some unlimited),
        .advance (.app 0)]).activations[0]?).map (fun a => (a.routine, a.next?)) =
      some (.otaApiUpdate (some unlimited),
        some (.httpsOtaBegin (buildHttpsOtaConfig sampleBuild unlimited http))) := by
    decide +kernel
  obtain ⟨a, ha, hview⟩ := Option.map_eq_some_iff.mp hrun
  obtain ⟨hroutine, hnext⟩ := Prod.mk.inj hview
  have hu : a.Updates unlimited "https://host/app.bin" := ⟨hroutine, rfl⟩
  refine ⟨⟨a, _, ha, hu, hnext, rfl, rfl⟩, fun h => ?_⟩
  have hsize := (h.update _ _ _ a ha hu).requestSize rfl _ (next_mem_calls hnext)
  exact absurd hsize (by decide)

end OtaApi
