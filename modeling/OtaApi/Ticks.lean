import OtaApi.Interaction.Execute
import OtaApi.Interaction.Throttle
import OtaApi.Progress

/-!
# The throttle of the progress reports

The unforced reports of one download, tick after tick, with `last_report_us` threaded
through them. The time stamp is moved before the length is asked for, so the throttle
is the eager one, while what a user of the interval is promised is the greedy one.
-/

namespace OtaApi

open Interaction

/-- What an unforced report finds: the clock, the length of the image so far, and the
verdict of the application if it is asked. -/
structure Tick where
  now : Int64
  length : Int32
  verdict : EspErr
  deriving DecidableEq, Repr

def Tick.answer (t : Tick) : (c : Call) → Option (Answer c)
  | .timerGetTime => some t.now
  | .httpsOtaGetImageLenRead _ => some t.length
  | .eventCb _ _ _ => some t.verdict
  | _ => none

/-- What an unforced report does. -/
structure Report where
  events : List Event
  err : EspErr
  lastReportUs : Int64
  deriving DecidableEq

/-- The application was told. -/
def Report.delivered (r : Report) : Bool := r.events.any fun e => e.call.report?.isSome

/-- What a report does, as a throttle sees it. -/
def Report.view (r : Report) : Bool × Int := (r.delivered, r.lastReportUs.toInt)

/-- A report that delivers nothing calls nobody, and the download goes on. -/
def Report.Quiet (r : Report) : Prop :=
  r.delivered = false → r.err = espOk ∧ ∀ e ∈ r.events, ∀ cb event ctx, e.call ≠ .eventCb cb event ctx

/-- One tick: `ota_api_report_progress()` with `force` unset. -/
def report (handle : HttpsOtaHandle) (config : OtaApiConfig) (totalBytes : Int32)
    (lastReportUs : Int64) (t : Tick) : Option Report :=
  ((otaApiReportProgress handle config totalBytes lastReportUs false).replay t.answer 3).map
    fun (events, err, lastReportUs) => ⟨events, err, lastReportUs⟩

/-- The ticks of a download from a value of `last_report_us` on. -/
def reports (handle : HttpsOtaHandle) (config : OtaApiConfig) (totalBytes : Int32) :
    Int64 → List Tick → Option (List Report)
  | _, [] => some []
  | last, t :: ts => do
    let r ← report handle config totalBytes last t
    let rs ← reports handle config totalBytes r.lastReportUs ts
    pure (r :: rs)

/-- The clock does not go back. -/
def Ordered (ts : List Tick) : Prop := ts.Pairwise fun s t => s.now ≤ t.now

instance (ts : List Tick) : Decidable (Ordered ts) := inferInstanceAs (Decidable (ts.Pairwise _))

def Tick.time (t : Tick) : Int := t.now.toInt
def Tick.ready (t : Tick) : Bool := 0 ≤ t.length
def Tick.told (config : OtaApiConfig) (t : Tick) : Bool := config.eventCb.isSome && t.ready

/-- `progress_interval_ms`, in microseconds. -/
def intervalUs (config : OtaApiConfig) : Int := config.progressIntervalMs.toNat * 1000

/-- What the interval promises: a tick that has a length is reported when the interval
is over since the last one that was, or since time zero. -/
def reference (config : OtaApiConfig) : Int → Tick → Bool × Int :=
  greedy (intervalUs config) Tick.time Tick.ready

/-- The ticks of a download as the reference has them. -/
structure Throttles (config : OtaApiConfig) (ts : List Tick) (rs : List Report) : Prop where
  /-- A report is delivered when it is due and has a length, and `last_report_us` is
  the time of the last one that was. -/
  agrees : config.progressIntervalMs ≠ 0 →
    rs.map Report.view = passes (reference config) 0 ts
  spaced : config.progressIntervalMs ≠ 0 →
    (admitted Tick.time ts (rs.map Report.delivered)).IsChain fun x y => intervalUs config ≤ y - x
  quiet : ∀ r ∈ rs, r.Quiet
  everyTick : config.progressIntervalMs = 0 → rs.map Report.delivered = ts.map Tick.ready

/-- Nothing that comes due is wasted: it has a length, and there is a callback. -/
def Served (config : OtaApiConfig) (ts : List Tick) : Prop :=
  if config.progressIntervalMs = 0 then config.eventCb = none → ∀ t ∈ ts, t.length < 0
  else WhenDue (intervalUs config) Tick.time Tick.ready
    (fun t => 0 ≤ t.length ∧ config.eventCb ≠ none) 0 ts

section Tick

variable {handle : HttpsOtaHandle} {config : OtaApiConfig} {totalBytes : Int32} {last : Int64}
  {t : Tick}

/-- What the part after the throttle does. -/
def lengthReport (handle : HttpsOtaHandle) (config : OtaApiConfig) (totalBytes : Int32)
    (last : Int64) (t : Tick) : Report :=
  let read : Event := ⟨.httpsOtaGetImageLenRead handle, t.length⟩
  match t.ready, config.eventCb with
  | true, some cb =>
    ⟨[read, ⟨.eventCb cb (.progress (progressPayload t.length totalBytes)) config.userCtx, t.verdict⟩],
      t.verdict, last⟩
  | _, _ => ⟨[read], espOk, last⟩

/-- The same report with the clock read before it. -/
def Report.after (r : Report) (now : Int64) : Report :=
  { r with events := ⟨.timerGetTime, now⟩ :: r.events }

theorem reportLength_replay (n : Nat) :
    (reportLength handle config totalBytes last).replay t.answer (n + 2) =
      some ((lengthReport handle config totalBytes last t).events,
        (lengthReport handle config totalBytes last t).err,
        (lengthReport handle config totalBytes last t).lastReportUs) := by
  have hanswer : t.answer (.httpsOtaGetImageLenRead handle) = some t.length := rfl
  rw [reportLength, ask, Prog.replay_ask_bind, hanswer, Option.bind_some]
  by_cases hneg : t.length < 0
  · have hready : t.ready = false := by simpa [Tick.ready] using hneg
    rw [if_pos hneg, Prog.replay_pure, lengthReport, hready]
    rfl
  · have hready : t.ready = true := by simpa [Tick.ready] using hneg
    rw [if_neg hneg, lengthReport, hready, otaApiDispatchEvent]
    cases config.eventCb with
    | none =>
      rw [pure_bind, Prog.replay_pure]
      rfl
    | some cb =>
      simp only [ask, Prog.replay_ask_bind, Prog.replay_pure, Tick.answer]
      rfl

theorem report_unthrottled (hi : config.progressIntervalMs = 0) :
    report handle config totalBytes last t = some (lengthReport handle config totalBytes last t) := by
  rw [report, otaApiReportProgress, hi]
  exact congrArg (Option.map _) (reportLength_replay 1)

theorem report_early (hi : config.progressIntervalMs ≠ 0)
    (hn : t.now - last < progressWindowUs config) :
    report handle config totalBytes last t = some ⟨[⟨.timerGetTime, t.now⟩], espOk, last⟩ := by
  have hanswer : t.answer .timerGetTime = some t.now := rfl
  have hthrottle : (!false && config.progressIntervalMs != 0) = true := by simpa using hi
  rw [report, otaApiReportProgress, if_pos hthrottle, ask, Prog.replay_ask_bind, hanswer,
    Option.bind_some, if_pos hn, Prog.replay_pure]
  rfl

theorem report_due (hi : config.progressIntervalMs ≠ 0)
    (hn : ¬ t.now - last < progressWindowUs config) :
    report handle config totalBytes last t =
      some ((lengthReport handle config totalBytes t.now t).after t.now) := by
  have hanswer : t.answer .timerGetTime = some t.now := rfl
  have hthrottle : (!false && config.progressIntervalMs != 0) = true := by simpa using hi
  rw [report, otaApiReportProgress, if_pos hthrottle, ask, Prog.replay_ask_bind, hanswer,
    Option.bind_some, if_neg hn, reportLength_replay 0]
  rfl

theorem lengthReport_last : (lengthReport handle config totalBytes last t).lastReportUs = last := by
  unfold lengthReport
  split <;> rfl

theorem lengthReport_delivered :
    (lengthReport handle config totalBytes last t).delivered = t.told config := by
  unfold lengthReport Tick.told
  cases t.ready <;> cases config.eventCb <;> rfl

@[simp] theorem after_last (r : Report) (now : Int64) :
    (r.after now).lastReportUs = r.lastReportUs := rfl

@[simp] theorem after_delivered (r : Report) (now : Int64) :
    (r.after now).delivered = r.delivered := rfl

theorem Report.Quiet.after {r : Report} (h : r.Quiet) (now : Int64) : (r.after now).Quiet := by
  intro hsilent
  obtain ⟨herr, hcalls⟩ := h hsilent
  refine ⟨herr, List.forall_mem_cons.mpr ⟨?_, hcalls⟩⟩
  intro cb event ctx hcall
  cases hcall

theorem lengthReport_quiet : (lengthReport handle config totalBytes last t).Quiet := by
  unfold lengthReport
  split
  · intro h
    cases h
  · intro _
    exact ⟨rfl, by simp⟩

end Tick

/-! ## The clock -/

section Clock

variable {config : OtaApiConfig} {last now : Int64}

/-- The interval fits, whatever it is. -/
theorem window_toInt (config : OtaApiConfig) : (progressWindowUs config).toInt = intervalUs config := by
  have hcomputes := window_computes { progressIntervalMs := config.progressIntervalMs }
  exact hcomputes.eq

/-- The last report lies between the start and all that is to come, so that no
difference wraps. -/
def Clocked (last : Int64) (ts : List Tick) : Prop :=
  0 ≤ last.toInt ∧ (last = 0 ∨ ∀ t ∈ ts, last.toInt ≤ t.time)

theorem elapsed_toInt (h : 0 ≤ last.toInt) (hnow : last = 0 ∨ last.toInt ≤ now.toInt) :
    (now - last).toInt = now.toInt - last.toInt := by
  have hlow := now.le_toInt
  have hhigh := now.toInt_lt
  have hfits : int64T.Holds (now.toInt - last.toInt) := by
    rw [CInteger.IntType.Holds]
    obtain rfl | hle := hnow
    · have hzero : (0 : Int64).toInt = 0 := rfl
      omega
    · omega
  exact (elapsed_computes { nowUs := now, lastReportUs := last } hfits).eq

theorem throttled_iff (h : 0 ≤ last.toInt) (hnow : last = 0 ∨ last.toInt ≤ now.toInt) :
    now - last < progressWindowUs config ↔ ¬ intervalUs config ≤ now.toInt - last.toInt := by
  rw [Int64.lt_iff_toInt_lt, elapsed_toInt h hnow, window_toInt]
  omega

theorem intervalUs_pos (hi : config.progressIntervalMs ≠ 0) : 0 < intervalUs config := by
  have hpos : config.progressIntervalMs.toNat ≠ 0 := by
    intro h
    apply hi
    exact UInt32.toNat_inj.mp h
  rw [intervalUs]
  omega

end Clock

/-! ## A download -/

section Download

variable {handle : HttpsOtaHandle} {config : OtaApiConfig} {totalBytes : Int32} {last : Int64}
  {t : Tick} {ts : List Tick}

theorem clocked_tail (h : Clocked last (t :: ts)) : Clocked last ts :=
  ⟨h.1, h.2.imp_right fun hall s hs => hall s (List.mem_cons_of_mem t hs)⟩

/-- One tick is a step of the eager throttle. -/
theorem report_eager (hi : config.progressIntervalMs ≠ 0) (hord : Ordered (t :: ts))
    (hc : Clocked last (t :: ts)) :
    ∃ r, report handle config totalBytes last t = some r ∧
      r.view = eager (intervalUs config) Tick.time (Tick.told config) last.toInt t ∧
      r.Quiet ∧ Clocked r.lastReportUs ts := by
  have hnow : last = 0 ∨ last.toInt ≤ t.now.toInt := hc.2.imp_right fun hall => hall t List.mem_cons_self
  by_cases hdue : intervalUs config ≤ t.time - last.toInt
  · have hthrottle : ¬ t.now - last < progressWindowUs config :=
      fun h => (throttled_iff hc.1 hnow).mp h hdue
    refine ⟨_, report_due hi hthrottle, ?_, lengthReport_quiet.after t.now, ?_⟩
    · rw [eager_due hdue, Report.view, after_delivered, after_last, lengthReport_delivered,
        lengthReport_last, Tick.time]
    · rw [after_last, lengthReport_last]
      constructor
      · have hpos := intervalUs_pos hi
        have hlast := hc.1
        have htime : t.time = t.now.toInt := rfl
        omega
      · refine .inr fun s hs => ?_
        have hle := List.rel_of_pairwise_cons hord hs
        rw [Int64.le_iff_toInt_le] at hle
        exact hle
  · have hthrottle := (throttled_iff hc.1 hnow).mpr hdue
    refine ⟨_, report_early hi hthrottle, ?_, ?_, clocked_tail hc⟩
    · rw [eager_early hdue]
      rfl
    · intro _
      exact ⟨rfl, by simp⟩

/-- A download is a run of the eager throttle. -/
theorem reports_eager (hi : config.progressIntervalMs ≠ 0) (hord : Ordered ts)
    (hc : Clocked last ts) :
    ∃ rs, reports handle config totalBytes last ts = some rs ∧
      rs.map Report.view = passes (eager (intervalUs config) Tick.time (Tick.told config)) last.toInt ts ∧
      ∀ r ∈ rs, r.Quiet := by
  induction ts generalizing last with
  | nil => exact ⟨[], rfl, rfl, by simp⟩
  | cons t ts ih =>
    obtain ⟨r, hr, hview, hquiet, hclocked⟩ :=
      @report_eager handle config totalBytes last t ts hi hord hc
    obtain ⟨rs, hrs, hviews, hquiets⟩ := ih hord.of_cons hclocked
    refine ⟨r :: rs, ?_, ?_, List.forall_mem_cons.mpr ⟨hquiet, hquiets⟩⟩
    · rw [reports, hr, Option.bind_eq_bind, Option.bind_some, hrs]
      rfl
    · have hlast : (eager (intervalUs config) Tick.time (Tick.told config) last.toInt t).2 =
          r.lastReportUs.toInt := congrArg Prod.snd hview.symm
      rw [List.map_cons, hview, hviews, passes_cons, hlast]

/-- Without an interval every tick goes on to the length. -/
theorem reports_unthrottled (hi : config.progressIntervalMs = 0) :
    ∃ rs, reports handle config totalBytes last ts = some rs ∧
      rs.map Report.delivered = ts.map (Tick.told config) ∧ ∀ r ∈ rs, r.Quiet := by
  induction ts with
  | nil => exact ⟨[], rfl, rfl, by simp⟩
  | cons t ts ih =>
    obtain ⟨rs, hrs, hdelivered, hquiets⟩ := ih
    have hquiet := @lengthReport_quiet handle config totalBytes last t
    refine ⟨lengthReport handle config totalBytes last t :: rs, ?_, ?_,
      List.forall_mem_cons.mpr ⟨hquiet, hquiets⟩⟩
    · rw [reports, report_unthrottled hi, Option.bind_eq_bind, Option.bind_some, lengthReport_last, hrs]
      rfl
    · rw [List.map_cons, List.map_cons, lengthReport_delivered, hdelivered]

theorem told_eq_ready_iff : ts.map (Tick.told config) = ts.map Tick.ready ↔
    (config.eventCb = none → ∀ t ∈ ts, t.length < 0) := by
  rw [List.map_inj_left]
  constructor
  · intro h hcb t ht
    simpa [Tick.told, Tick.ready, hcb] using h t ht
  · intro h t ht
    cases hcb : config.eventCb with
    | some cb => simp [Tick.told, hcb]
    | none =>
      have hneg := h hcb t ht
      simp [Tick.told, Tick.ready, hcb, hneg]

theorem whenDue_served : WhenDue (intervalUs config) Tick.time Tick.ready
    (fun t => 0 ≤ t.length ∧ config.eventCb ≠ none) 0 ts ↔
    WhenDue (intervalUs config) Tick.time Tick.ready
      (fun t => t.told config = true ∧ t.ready = true) 0 ts := by
  have hsame : ∀ t : Tick, (0 ≤ t.length ∧ config.eventCb ≠ none) ↔
      (t.told config = true ∧ t.ready = true) := by
    intro t
    cases hcb : config.eventCb <;> simp [Tick.told, Tick.ready, hcb]
  simp only [hsame]

/-- The throttle is its reference exactly when nothing that comes due is wasted. -/
theorem throttle_exact_iff (hord : Ordered ts) :
    (∃ rs, reports handle config totalBytes 0 ts = some rs ∧ Throttles config ts rs) ↔
      Served config ts := by
  by_cases hi : config.progressIntervalMs = 0
  · obtain ⟨rs, hrs, hdelivered, hquiet⟩ := @reports_unthrottled handle config totalBytes 0 ts hi
    rw [Served, if_pos hi, ← told_eq_ready_iff, ← hdelivered]
    constructor
    · rintro ⟨rs', hrs', hthrottles⟩
      rw [hrs] at hrs'
      obtain rfl := Option.some.inj hrs'
      exact hthrottles.everyTick hi
    · intro hevery
      exact ⟨rs, hrs, fun h => absurd hi h, fun h => absurd hi h, hquiet, fun _ => hevery⟩
  · have hpos := intervalUs_pos hi
    obtain ⟨rs, hrs, hviews, hquiet⟩ :=
      @reports_eager handle config totalBytes 0 ts hi hord ⟨Int.le_refl 0, .inl rfl⟩
    rw [Served, if_neg hi, whenDue_served, ← eager_eq_greedy_iff hpos, ← Int64.toInt_zero, ← hviews]
    constructor
    · rintro ⟨rs', hrs', hthrottles⟩
      rw [hrs] at hrs'
      obtain rfl := Option.some.inj hrs'
      exact hthrottles.agrees hi
    · intro hagrees
      refine ⟨rs, hrs, fun _ => hagrees, fun _ => ?_, hquiet, fun h => absurd h hi⟩
      have hspaced := @eager_spaced _ (intervalUs config) Tick.time (Tick.told config)
        (0 : Int64).toInt ts hpos
      rw [← hviews, List.map_map] at hspaced
      exact hspaced.tail

def secondly : OtaApiConfig := { sampleConfig with progressIntervalMs := 1000 }

/-- A length that cannot be read when a report comes due, and one half a second later. -/
def wasted : List Tick := [⟨1000000, -1, espOk⟩, ⟨1500000, 4, espOk⟩]

/-- The report that has been due since the first tick is put off by it. -/
theorem wasted_postponed : Ordered wasted ∧
    passes (reference secondly) 0 wasted = [(false, 0), (true, 1500000)] ∧
    (∃ rs, reports 0 secondly 8 0 wasted = some rs ∧
      rs.map Report.view = [(false, 1000000), (false, 1000000)]) ∧
    ¬ ∃ rs, reports 0 secondly 8 0 wasted = some rs ∧ Throttles secondly wasted rs := by
  have hreference : passes (reference secondly) 0 wasted = [(false, 0), (true, 1500000)] := by
    decide
  have hreports : (reports 0 secondly 8 0 wasted).map (fun rs => rs.map Report.view) =
      some [(false, 1000000), (false, 1000000)] := by decide +kernel
  refine ⟨by decide, hreference, Option.map_eq_some_iff.mp hreports, ?_⟩
  rintro ⟨rs, hrs, hthrottles⟩
  rw [hrs] at hreports
  have hviews : rs.map Report.view = [(false, 1000000), (false, 1000000)] := Option.some.inj hreports
  rw [hthrottles.agrees (by decide), hreference] at hviews
  exact absurd hviews (by decide)

/-- Reports that come due with a length, and ticks in between without one. -/
def steady : List Tick :=
  [⟨400000, -1, espOk⟩, ⟨1000000, 4, espOk⟩, ⟨1500000, -1, espOk⟩, ⟨2100000, 8, espOk⟩]

theorem throttle_exact_iff_steady : Served secondly steady ∧
    ((∃ rs, reports 0 secondly 8 0 steady = some rs ∧ Throttles secondly steady rs) ↔
      Served secondly steady) := by
  refine ⟨?_, throttle_exact_iff (by decide)⟩
  rw [Served, if_neg (by decide)]
  decide +kernel

end Download

/-! ## The ticks of an update -/

/-- The calls a report makes. -/
def Call.isTick : Call → Bool
  | .timerGetTime => true
  | .httpsOtaGetImageLenRead _ => true
  | .eventCb _ (.progress _) _ => true
  | _ => false

def clockAnswer : Event → Option Int64
  | ⟨.timerGetTime, now⟩ => some now
  | _ => none

def tickEvents (t : List Event) : List Event := t.filter fun e => e.call.isTick

/-- `last_report_us` after a list of reports. -/
def lastReport (last : Int64) (rs : List Report) : Int64 :=
  rs.foldl (fun _ r => r.lastReportUs) last

/-- These calls are a download's reports so far, all of them accepted. -/
def Ticked (config : OtaApiConfig) (h : HttpsOtaHandle) (total : Int32) (last : Int64)
    (evs : List Event) : Prop :=
  ∃ ts rs, reports h config total 0 ts = some rs ∧ lastReport 0 rs = last ∧
    rs.flatMap Report.events = evs ∧ (∀ r ∈ rs, r.err = espOk) ∧
    (config.progressIntervalMs ≠ 0 → ts.map Tick.now = evs.filterMap clockAnswer)

/-- The next report has passed the throttle, if there is one. -/
def Passed (config : OtaApiConfig) (h : HttpsOtaHandle) (total : Int32) (last : Int64)
    (evs : List Event) : Prop :=
  (config.progressIntervalMs = 0 ∧ Ticked config h total last evs) ∨
    (config.progressIntervalMs ≠ 0 ∧ ∃ prev evs', evs = evs' ++ [⟨.timerGetTime, last⟩] ∧
      ¬ last - prev < progressWindowUs config ∧ Ticked config h total prev evs')

section Update

variable {build : BuildOptions} {config : OtaApiConfig} {url : String}
  {h : HttpsOtaHandle} {total : Int32} {last : Int64} {evs : List Event}

theorem reports_snoc {t : Tick} {ts : List Tick} {r : Report} {rs : List Report}
    (hrs : reports h config total last ts = some rs)
    (hr : report h config total (lastReport last rs) t = some r) :
    reports h config total last (ts ++ [t]) = some (rs ++ [r]) := by
  induction ts generalizing last rs with
  | nil =>
    obtain rfl := Option.some.inj hrs
    simp only [List.nil_append, reports, show report h config total last t = some r from hr]
    rfl
  | cons t' ts ih =>
    simp only [reports, Option.bind_eq_bind, Option.bind_eq_some_iff] at hrs
    obtain ⟨r', hr', rs', hrs', heq⟩ := hrs
    obtain rfl := Option.some.inj heq
    have hrest := ih hrs' hr
    simp only [List.cons_append, reports, hr', hrest, Option.bind_eq_bind, Option.bind_some]
    rfl

theorem Ticked.snoc {t : Tick} {r : Report} (hticked : Ticked config h total last evs)
    (hr : report h config total last t = some r) (hok : r.err = espOk)
    (hclock : config.progressIntervalMs ≠ 0 → r.events.filterMap clockAnswer = [t.now]) :
    Ticked config h total r.lastReportUs (evs ++ r.events) := by
  obtain ⟨ts, rs, hrs, rfl, rfl, hall, hnows⟩ := hticked
  refine ⟨ts ++ [t], rs ++ [r], reports_snoc hrs hr, ?_, ?_, ?_, ?_⟩
  · rw [lastReport, List.foldl_append]
    rfl
  · simp
  · simpa [or_imp, forall_and] using ⟨hall, hok⟩
  · intro hi
    rw [List.map_append, hnows hi, List.filterMap_append, hclock hi]
    rfl

theorem Ticked.early {now : Int64} (hticked : Ticked config h total last evs)
    (hi : config.progressIntervalMs ≠ 0) (hn : now - last < progressWindowUs config) :
    Ticked config h total last (evs ++ [⟨.timerGetTime, now⟩]) :=
  hticked.snoc (@report_early h config total last ⟨now, 0, espOk⟩ hi hn) rfl fun _ => rfl

/-- Once past the throttle, a report that is accepted completes its tick. -/
theorem Passed.complete {t : Tick} (hpassed : Passed config h total last evs) (hnow : t.now = last)
    (hok : (lengthReport h config total last t).err = espOk)
    (hquiet : (lengthReport h config total last t).events.filterMap clockAnswer = []) :
    Ticked config h total last (evs ++ (lengthReport h config total last t).events) := by
  obtain ⟨hi, hticked⟩ | ⟨hi, prev, evs', rfl, hdue, hticked⟩ := hpassed
  · have hnext := hticked.snoc (@report_unthrottled h config total last t hi) hok fun h => absurd hi h
    rwa [lengthReport_last] at hnext
  · subst hnow
    have hnext := hticked.snoc (@report_due h config total prev t hi hdue) hok fun _ => by
      rw [Report.after, List.filterMap_cons, hquiet]
      rfl
    rw [after_last, lengthReport_last] at hnext
    rwa [List.append_assoc]

theorem Passed.silent {n : Int32} (hpassed : Passed config h total last evs)
    (hn : n < 0 ∨ config.eventCb = none) :
    Ticked config h total last (evs ++ [⟨.httpsOtaGetImageLenRead h, n⟩]) := by
  have hreport : lengthReport h config total last ⟨last, n, espOk⟩ =
      ⟨[⟨.httpsOtaGetImageLenRead h, n⟩], espOk, last⟩ := by
    obtain hneg | hcb := hn
    · simp [lengthReport, Tick.ready, Int32.not_le.mpr hneg]
    · simp [lengthReport, hcb]
  have hnext := @Passed.complete config h total last evs ⟨last, n, espOk⟩ hpassed rfl
  rw [hreport] at hnext
  exact hnext rfl rfl

theorem Passed.told {n : Int32} {cb : EventCb} (hpassed : Passed config h total last evs)
    (hn : ¬ n < 0) (hcb : config.eventCb = some cb) :
    Ticked config h total last (evs ++ [⟨.httpsOtaGetImageLenRead h, n⟩,
      ⟨.eventCb cb (.progress (progressPayload n total)) config.userCtx, espOk⟩]) := by
  have hreport : lengthReport h config total last ⟨last, n, espOk⟩ =
      ⟨[⟨.httpsOtaGetImageLenRead h, n⟩,
        ⟨.eventCb cb (.progress (progressPayload n total)) config.userCtx, espOk⟩], espOk, last⟩ := by
    simp [lengthReport, Tick.ready, Int32.not_lt.mp hn, hcb]
  have hnext := @Passed.complete config h total last evs ⟨last, n, espOk⟩ hpassed rfl
  rw [hreport] at hnext
  exact hnext rfl rfl

/-- What a phase knows of the reports before it. -/
def Phase.Ticking (config : OtaApiConfig) : Phase → List Event → Prop
  | .claiming, t => tickEvents t = []
  | .naming _ _, t => tickEvents t = []
  | .connecting _, t => tickEvents t = []
  | .notifying _ _, t => tickEvents t = []
  | .inspecting _, t => tickEvents t = []
  | .offering _ _ _, t => tickEvents t = []
  | .sizing _, t => tickEvents t = []
  | .performing h total last, t => Ticked config h total last (tickEvents t)
  | .polling h total last, t => Ticked config h total last (tickEvents t)
  | .clocking h total last, t =>
    config.progressIntervalMs ≠ 0 ∧ Ticked config h total last (tickEvents t)
  | .measuring h total last, t => Passed config h total last (tickEvents t)
  | .reporting cb h total last n, t =>
    config.eventCb = some cb ∧ ¬ n < 0 ∧ ∃ evs, Passed config h total last evs ∧
      tickEvents t = evs ++ [⟨.httpsOtaGetImageLenRead h, n⟩]
  | _, _ => True

theorem tickEvents_snoc (t : List Event) (e : Event) :
    tickEvents (t ++ [e]) = tickEvents t ++ if e.call.isTick then [e] else [] := by
  rw [tickEvents, List.filter_append]
  cases hc : e.call.isTick <;> simp [tickEvents, hc]

theorem path_ticking {t : List Event} {ph : Phase}
    (hp : Path (Move build config url) .claiming t ph) : ph.Ticking config t := by
  have keep : ∀ (s : List Event) (p : Phase) (e : Event) (q : Phase),
      Path (Move build config url) .claiming s p → p.Ticking config s →
      Move build config url p e q → q.Ticking config (s ++ [e]) := by
    intro s p e q _ hs m
    cases m with
    | sized =>
      rw [Phase.Ticking, tickEvents_snoc, show tickEvents s = [] from hs]
      exact ⟨[], [], rfl, rfl, rfl, by simp, fun _ => rfl⟩
    | goingOn hi =>
      refine ⟨hi, ?_⟩
      rw [tickEvents_snoc]
      simpa [Call.isTick, Phase.Ticking] using hs
    | goingOnUnthrottled hi =>
      refine .inl ⟨hi, ?_⟩
      rw [tickEvents_snoc]
      simpa [Call.isTick, Phase.Ticking] using hs
    | throttled hn =>
      rw [Phase.Ticking, tickEvents_snoc]
      exact hs.2.early hs.1 hn
    | due hn =>
      rw [Phase.Ticking, tickEvents_snoc]
      exact .inr ⟨hs.1, _, _, rfl, hn, hs.2⟩
    | @unmeasured h total last n hn =>
      rw [Phase.Ticking, tickEvents_snoc]
      exact Passed.silent hs (.inl hn)
    | measured hn hc =>
      refine ⟨hc, hn, _, hs, ?_⟩
      rw [tickEvents_snoc]
      rfl
    | @measuredSilent h total last n hn hc =>
      rw [Phase.Ticking, tickEvents_snoc]
      exact Passed.silent hs (.inr hc)
    | @reported cb h total last n =>
      obtain ⟨hc, hn, evs, hpassed, hevs⟩ := hs
      rw [Phase.Ticking, tickEvents_snoc, hevs, List.append_assoc]
      exact hpassed.told hn hc
    | _ => simp_all [Phase.Ticking, tickEvents_snoc, Call.isTick]
  exact @Path.invariant _ _ _ _ _ _ (fun t ph => ph.Ticking config t) keep hp rfl

/-- Whenever an update is at its next chunk, it has reported as these ticks do. -/
theorem update_ticked {ls : List Label} {i : Nat} {a : Activation}
    (ha : (System.run build ls).activations[i]? = some a) (hu : a.Updates config url)
    {cs ds : List Call} (hc : a.calls = cs ++ .httpsOtaPerform h :: ds) :
    ∃ total last, Ticked config h total last (tickEvents (a.trace.take cs.length)) := by
  have hs : a.Sound build := run_sound ha
  obtain ⟨u, v, ph, htrace, rfl, hpath, hnext⟩ := calls_phase hs hu hc
  have hticking := path_ticking hpath
  rw [htrace, List.length_map, List.take_left]
  cases ph with
  | performing h' total last =>
    obtain rfl : h' = h := by simpa [Phase.next?] using hnext
    exact ⟨total, last, hticking⟩
  | _ => simp [Phase.next?] at hnext

end Update

end OtaApi
