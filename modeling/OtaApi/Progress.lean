import OtaApi.Abort
import OtaApi.ProgressBar

/-!
# What an update says of its progress

The size of the image is read once, before the loop, and a length at each report.
What the application is told is a function of these answers alone; whether it
makes sense depends on whether they fit together.
-/

namespace OtaApi

open Interaction

def Call.report? : Call → Option OtaApiProgress
  | .eventCb _ (.progress p) _ => some p
  | _ => none

def sizeAnswer : Event → Option Int32
  | ⟨.httpsOtaGetImageSize _, n⟩ => some n
  | _ => none

def lengthAnswer : Event → Option Int32
  | ⟨.httpsOtaGetImageLenRead _, n⟩ => some n
  | _ => none

/-- The size of the image as a report treats it, not known before it is read. -/
def imageSize (t : List Event) : Int32 := (t.findSome? sizeAnswer).getD 0

/-- The lengths read, in order. -/
def lengthsRead (t : List Event) : List Int32 := t.filterMap lengthAnswer

/-- The reports handed to the application, in order. -/
def reported (t : List Event) : List OtaApiProgress := t.filterMap fun e => e.call.report?

/-- What lengths that are worth a report are reported as. -/
def payloads (size : Int32) (lengths : List Int32) : List OtaApiProgress :=
  (lengths.filter fun n => 0 ≤ n).map fun n => progressPayload n size

/-- The reports an activation has made, the one it is making included. -/
def Activation.reports (a : Activation) : List OtaApiProgress := a.calls.filterMap Call.report?

theorem findSome?_sizeAnswer_snoc (t : List Event) (e : Event) :
    (t ++ [e]).findSome? sizeAnswer = (t.findSome? sizeAnswer).or (sizeAnswer e) := by
  cases h : sizeAnswer e <;> simp [List.findSome?_append, h]

theorem lengthsRead_snoc (t : List Event) (e : Event) :
    lengthsRead (t ++ [e]) = lengthsRead t ++ (lengthAnswer e).toList := by
  cases h : lengthAnswer e <;> simp [lengthsRead, List.filterMap_append, h]

theorem reported_snoc (t : List Event) (e : Event) :
    reported (t ++ [e]) = reported t ++ e.call.report?.toList := by
  cases h : e.call.report? <;> simp [reported, List.filterMap_append, h]

@[simp] theorem payloads_nil (size : Int32) : payloads size [] = [] := rfl

theorem payloads_snoc (size : Int32) (lengths : List Int32) {n : Int32} (h : ¬ n < 0) :
    payloads size (lengths ++ [n]) = payloads size lengths ++ [progressPayload n size] := by
  have hn : 0 ≤ n := Int32.not_lt.mp h
  simp [payloads, List.filter_append, hn]

theorem payloads_snoc_neg (size : Int32) (lengths : List Int32) {n : Int32} (h : n < 0) :
    payloads size (lengths ++ [n]) = payloads size lengths := by
  have hn : ¬ 0 ≤ n := Int32.not_le.mpr h
  simp [payloads, List.filter_append, hn]

@[simp] theorem report?_outcome (cb : EventCb) (err : EspErr) (ctx : Nat) :
    (Call.eventCb cb (outcomeEvent err) ctx).report? = none := by
  unfold outcomeEvent
  split <;> rfl

section Machine

variable {build : BuildOptions} {config : OtaApiConfig} {url : String}

/-- What a phase knows of the size, and that no length is read before it. -/
def Phase.Sized : Phase → List Event → Prop
  | .performing _ size _, t => t.findSome? sizeAnswer = some size
  | .polling _ size _, t => t.findSome? sizeAnswer = some size
  | .clocking _ size _, t => t.findSome? sizeAnswer = some size
  | .measuring _ size _, t => t.findSome? sizeAnswer = some size
  | .reporting _ _ size _ _, t => t.findSome? sizeAnswer = some size
  | .verifying _ size _, t => t.findSome? sizeAnswer = some size
  | .measuringAll _ size _, t => t.findSome? sizeAnswer = some size
  | .reportingAll _ _ size _ _, t => t.findSome? sizeAnswer = some size
  | .committing _, _ => True
  | .aborting _ _, _ => True
  | .releasing _, _ => True
  | .announcing _ _, _ => True
  | .finished _, _ => True
  | _, t => t.findSome? sizeAnswer = none ∧ lengthsRead t = []

theorem path_sized {t : List Event} {ph : Phase}
    (h : Path (Move build config url) .claiming t ph) : ph.Sized t := by
  have keep : ∀ (s : List Event) (p : Phase) (e : Event) (q : Phase),
      Path (Move build config url) .claiming s p → p.Sized s → Move build config url p e q →
      q.Sized (s ++ [e]) := by
    intro s p e q _ hs m
    cases m <;> simp_all only [Phase.Sized, findSome?_sizeAnswer_snoc, lengthsRead_snoc] <;>
      simp [sizeAnswer, lengthAnswer]
  exact Path.invariant keep h ⟨rfl, rfl⟩

/-- The report that is being made. -/
def Phase.pending : Phase → List OtaApiProgress
  | .reporting _ _ size _ n => [progressPayload n size]
  | .reportingAll _ _ size _ n => [progressPayload n size]
  | _ => []

/-- Every length that is not negative has been reported, or is being reported. -/
def Phase.Told (ph : Phase) (t : List Event) : Prop :=
  reported t ++ ph.pending = payloads (imageSize t) (lengthsRead t)

theorem path_told (hcb : config.eventCb ≠ none) {t : List Event} {ph : Phase}
    (h : Path (Move build config url) .claiming t ph) : ph.Told t := by
  have keep : ∀ (s : List Event) (p : Phase) (e : Event) (q : Phase),
      Path (Move build config url) .claiming s p → p.Told s → Move build config url p e q →
      q.Told (s ++ [e]) := by
    intro s p e q hp hs m
    have hsized := path_sized hp
    rw [Phase.Told, imageSize, findSome?_sizeAnswer_snoc, lengthsRead_snoc, reported_snoc]
    rw [Phase.Told, imageSize] at hs
    cases m with
    | measuredSilent _ hc => exact absurd hc hcb
    | measuredAllSilent _ hc => exact absurd hc hcb
    | sized =>
      rw [hsized.2] at hs ⊢
      simpa [Phase.pending, Call.report?, lengthAnswer] using hs
    | measured hn hc =>
      rw [hsized] at hs ⊢
      simpa [Phase.pending, Call.report?, lengthAnswer, sizeAnswer, payloads_snoc _ _ hn] using hs
    | measuredAll hn hc =>
      rw [hsized] at hs ⊢
      simpa [Phase.pending, Call.report?, lengthAnswer, sizeAnswer, payloads_snoc _ _ hn] using hs
    | unmeasured hn =>
      simpa [Phase.pending, Call.report?, lengthAnswer, sizeAnswer, payloads_snoc_neg _ _ hn] using hs
    | unmeasuredAll hn =>
      simpa [Phase.pending, Call.report?, lengthAnswer, sizeAnswer, payloads_snoc_neg _ _ hn] using hs
    | announced =>
      simpa [Phase.pending, lengthAnswer, sizeAnswer] using hs
    | _ => simpa [Phase.pending, Call.report?, lengthAnswer, sizeAnswer] using hs
  exact @Path.invariant _ _ _ _ _ _ (fun t ph => ph.Told t) keep h rfl

theorem next_report (ph : Phase) :
    (ph.next? build config).toList.filterMap Call.report? = ph.pending := by
  cases ph with
  | announcing cb err => simp [Phase.next?, Phase.pending]
  | _ => simp [Phase.next?, Phase.pending, Call.report?]

/-- What an update reports is a function of the size and the lengths it reads. -/
theorem update_reports {a : Activation} (hs : a.Sound build) (hu : a.Updates config url)
    (hcb : config.eventCb ≠ none) :
    a.reports = payloads (imageSize a.trace) (lengthsRead a.trace) := by
  obtain ⟨ph, hpath, hprog⟩ := update_path hs hu
  have hnext : a.next? = ph.next? build config := update_next? hprog
  have htold : reported a.trace ++ ph.pending = payloads (imageSize a.trace) (lengthsRead a.trace) :=
    path_told hcb hpath
  rw [Activation.reports, Activation.calls, hnext, List.filterMap_append, next_report,
    List.filterMap_map]
  exact htold

/-- Without a callback there is nobody to report to. -/
theorem silent_reports {a : Activation} (hs : a.Sound build) (hu : a.Updates config url)
    (hcb : config.eventCb = none) : a.reports = [] := by
  obtain ⟨ph, hpath, hprog⟩ := update_path hs hu
  have hnext : a.next? = ph.next? build config := update_next? hprog
  rw [Activation.reports, List.filterMap_eq_nil_iff, Activation.calls, hnext]
  intro c hc
  cases c with
  | eventCb cb event ctx =>
    obtain hmem | hmem := List.mem_append.mp hc
    · obtain ⟨⟨c, v⟩, he, rfl⟩ := List.mem_map.mp hmem
      obtain ⟨u, w, ht⟩ := List.append_of_mem he
      rw [ht] at hpath
      obtain ⟨hsome, _⟩ := path_addressee hpath
      rw [hcb] at hsome
      cases hsome
    · have hfacts := path_facts hpath
      have hn : ph.next? build config = some (.eventCb cb event ctx) := by simpa using hmem
      cases ph with
      | notifying _ _ => cases hcb.symm.trans hfacts.1
      | offering _ _ _ => cases hcb.symm.trans hfacts.1
      | reporting _ _ _ _ _ => cases hcb.symm.trans hfacts.1
      | reportingAll _ _ _ _ _ => cases hcb.symm.trans hfacts.1
      | announcing _ _ => cases hcb.symm.trans hfacts
      | refused _ => cases hn
      | finished _ => cases hn
      | _ => cases hn
  | _ => rfl

end Machine

/-! ## Reports in range -/

/-- What `ota_api_progress_t` promises of a report. -/
structure InRange (size : Int32) (p : OtaApiProgress) : Prop where
  unknown : size ≤ 0 → p.totalBytes = 0 ∧ p.percent = -1
  total : 0 < size → (p.totalBytes.toNat : Int) = size.toInt
  read : 0 < size → p.bytesRead ≤ p.totalBytes
  percent : 0 < size → 0 ≤ p.percent ∧ p.percent ≤ 100
  untruncated : 0 < size → p.percent.toInt = p.bytesRead.toNat * 100 / size.toInt

/-- What the bar needs: its writes inside the array, and no wrap in what remains. -/
structure Drawable (p : OtaApiProgress) : Prop where
  bar : 0 ≤ p.percent → 0 ≤ filled p ∧ filled p ≤ progressBarWidth
  inside : (printProgressBar p).isSome = true
  remaining : 0 ≤ p.percent →
    ((p.totalBytes - p.bytesRead).toNat : Int) = p.totalBytes.toNat - p.bytesRead.toNat

theorem payload_inRange {n size : Int32} (hn : 0 ≤ n) (h : size ≤ 0 ∨ n ≤ size) :
    InRange size (progressPayload n size) where
  unknown := payload_unknown
  total := totalBytes_payload
  read hpos := (bytesRead_le_iff hpos hn).mpr (h.resolve_left (Int32.not_le.mpr hpos))
  percent hpos := percent_bounds hpos hn (h.resolve_left (Int32.not_le.mpr hpos))
  untruncated hpos := by
    rw [percent_payload hpos hn (h.resolve_left (Int32.not_le.mpr hpos)), bytesRead_payload hn]

theorem InRange.drawable {size : Int32} {p : OtaApiProgress} (h : InRange size p) : Drawable p := by
  by_cases hknown : 0 < size
  · obtain ⟨hlow, hhigh⟩ := h.percent hknown
    obtain ⟨n, _, _, hprint⟩ := printProgressBar_inside hlow hhigh
    have hread := h.read hknown
    constructor
    · intro _
      exact filled_bounds hlow hhigh
    · rw [hprint]
      rfl
    · intro _
      rw [UInt32.toNat_sub_of_le _ _ hread]
      rw [UInt32.le_iff_toNat_le] at hread
      omega
  · obtain ⟨_, hpercent⟩ := h.unknown (Int32.not_lt.mp hknown)
    have hneg : ¬ 0 ≤ p.percent := by
      rw [hpercent]
      decide
    refine ⟨fun hp => absurd hp hneg, ?_, fun hp => absurd hp hneg⟩
    rw [printProgressBar, if_pos (Int32.not_le.mp hneg)]
    rfl

section Range

variable {build : BuildOptions} {config : OtaApiConfig} {url : String}

/-- The reports are in range, and can be drawn, exactly when no length that is read
exceeds the size that was read. -/
theorem progress_in_range_iff {ls : List Label} {i : Nat} {a : Activation}
    (ha : (System.run build ls).activations[i]? = some a) (hu : a.Updates config url) :
    (∀ p ∈ a.reports, InRange (imageSize a.trace) p ∧ Drawable p) ↔
      config.eventCb = none ∨ imageSize a.trace ≤ 0 ∨
        ∀ n ∈ lengthsRead a.trace, n ≤ imageSize a.trace := by
  have hs : a.Sound build := run_sound ha
  by_cases hcb : config.eventCb = none
  · have hsilent := silent_reports hs hu hcb
    simp [hsilent, hcb]
  · rw [update_reports hs hu hcb]
    have hmem : ∀ n ∈ lengthsRead a.trace, 0 ≤ n →
        progressPayload n (imageSize a.trace) ∈ payloads (imageSize a.trace) (lengthsRead a.trace) := by
      intro n hn hpos
      exact List.mem_map_of_mem (List.mem_filter.mpr ⟨hn, by simpa using hpos⟩)
    constructor
    · intro hall
      refine .inr ?_
      by_cases hknown : 0 < imageSize a.trace
      · refine .inr fun n hn => ?_
        by_cases hneg : n < 0
        · exact Int32.le_of_lt (Int32.lt_trans hneg hknown)
        · have hpos : 0 ≤ n := Int32.not_lt.mp hneg
          have hrange := (hall _ (hmem n hn hpos)).1
          exact (bytesRead_le_iff hknown hpos).mp (hrange.read hknown)
      · exact .inl (Int32.not_lt.mp hknown)
    · rintro hfits p hp
      obtain ⟨n, hn, rfl⟩ := List.mem_map.mp hp
      obtain ⟨hn, hpos⟩ := List.mem_filter.mp hn
      have hpos : 0 ≤ n := by simpa using hpos
      have hfit : imageSize a.trace ≤ 0 ∨ n ≤ imageSize a.trace :=
        (hfits.resolve_left hcb).imp_right fun h => h n hn
      have hrange := payload_inRange hpos hfit
      exact ⟨hrange, hrange.drawable⟩

def rangedConfig : OtaApiConfig := { sampleConfig with partialDownload := true }

/-- A ranged download whose first answer announced eight bytes, and whose next ones
bring a hundred. -/
def outgrown : List Label :=
  admission (.app 0) rangedConfig ++ Label.through (.app 0) (.err espErrHttpsOtaInProgress) ++
    [.advance (.app 0)] ++ Label.through (.app 0) (.int 100) ++ Label.through (.app 0) (.err espOk)

/-- The callback is told 1250 percent, and draws the bar past its end. -/
theorem outgrown_out_of_range :
    ∃ a, (System.run sampleBuild outgrown).activations[0]? = some a ∧
      a.reports = [⟨100, 8, 1250⟩] ∧ reported a.trace = a.reports ∧
      ¬ InRange (imageSize a.trace) ⟨100, 8, 1250⟩ ∧ printProgressBar ⟨100, 8, 1250⟩ = none := by
  have hrun : ((System.run sampleBuild outgrown).activations[0]?).map
      (fun a => (a.reports, reported a.trace, imageSize a.trace)) =
      some ([⟨100, 8, 1250⟩], [⟨100, 8, 1250⟩], 8) := by decide +kernel
  obtain ⟨a, ha, hview⟩ := Option.map_eq_some_iff.mp hrun
  simp only [Prod.mk.injEq] at hview
  obtain ⟨hreports, hreported, hsize⟩ := hview
  refine ⟨a, ha, hreports, hreported.trans hreports.symm, ?_, by decide⟩
  intro hrange
  rw [hsize] at hrange
  exact absurd (hrange.read (by decide)) (by decide)

theorem progress_in_range_iff_outgrown :
    ∃ a, (System.run sampleBuild outgrown).activations[0]? = some a ∧
      ((∀ p ∈ a.reports, InRange (imageSize a.trace) p ∧ Drawable p) ↔
        rangedConfig.eventCb = none ∨ imageSize a.trace ≤ 0 ∨
          ∀ n ∈ lengthsRead a.trace, n ≤ imageSize a.trace) := by
  have hrun : ((System.run sampleBuild outgrown).activations[0]?).map Activation.routine =
      some (.otaApiUpdate (some rangedConfig)) := by decide +kernel
  obtain ⟨a, ha, hroutine⟩ := Option.map_eq_some_iff.mp hrun
  exact ⟨a, ha, progress_in_range_iff ha ⟨hroutine, rfl⟩⟩

end Range

/-! ## The order of the reports, and the last one -/

section Order

variable {build : BuildOptions} {config : OtaApiConfig} {url : String}

/-- The image may not be longer than the lengths read of it say. -/
structure Growing (size : Int32) (lengths : List Int32) : Prop where
  nonneg : ∀ n ∈ lengths, 0 ≤ n
  ordered : lengths.Pairwise fun n k => n ≤ k
  fits : 0 < size → ∀ n ∈ lengths, n ≤ size

/-- The update comes to its commit from the forced report. -/
theorem committing_report {cb : EventCb} (hcb : config.eventCb = some cb) {t : List Event}
    {h : HttpsOtaHandle} (hp : Path (Move build config url) .claiming t (.committing h))
    (hlengths : ∀ n ∈ lengthsRead t, 0 ≤ n) :
    ∃ u n, t = u ++ [⟨.httpsOtaIsCompleteDataReceived h, true⟩, ⟨.httpsOtaGetImageLenRead h, n⟩,
        ⟨.eventCb cb (.progress (progressPayload n (imageSize t))) config.userCtx, espOk⟩] ∧
      n ∈ lengthsRead t ∧ t.findSome? sizeAnswer ≠ none := by
  obtain ⟨_, hend⟩ | ⟨s, e, q, rfl, hs, m⟩ := hp.last
  · cases hend
  · cases m with
    | unmeasuredAll hn =>
      have hpos := hlengths _ (by rw [lengthsRead_snoc]; exact List.mem_append_right _ List.mem_cons_self)
      exact absurd hn (Int32.not_lt.mpr hpos)
    | measuredAllSilent _ hc =>
      rw [hcb] at hc
      cases hc
    | @reportedAll cb' h' size last n =>
      have hknown : (s ++ [(⟨.eventCb cb' (.progress (progressPayload n size)) config.userCtx,
          espOk⟩ : Event)]).findSome? sizeAnswer = some size := by
        rw [findSome?_sizeAnswer_snoc, show s.findSome? sizeAnswer = some size from path_sized hs]
        rfl
      obtain ⟨hc, _, u, rfl⟩ := path_facts hs
      rw [hcb] at hc
      cases hc
      refine ⟨u, n, ?_, ?_, ?_⟩
      · rw [imageSize, hknown, List.append_assoc]
        rfl
      · simp [lengthsRead, lengthAnswer]
      · rw [hknown]
        exact Option.some_ne_none size

/-- What the application sees of a download that only grows. -/
structure OrderlyReports (config : OtaApiConfig) (cb : EventCb) (a : Activation) : Prop where
  bytes : a.reports.Pairwise fun p q => p.bytesRead ≤ q.bytesRead
  percent : a.reports.Pairwise fun p q => p.percent ≤ q.percent
  total : ∀ p ∈ a.reports, ∀ q ∈ a.reports, p.totalBytes = q.totalBytes
  /-- The forced report comes right before the commit, and right after the check. -/
  final : ∀ t h w, a.calls = t ++ .httpsOtaFinish h :: w → ∃ u n p,
    a.trace.take t.length = u ++ [⟨.httpsOtaIsCompleteDataReceived h, true⟩,
      ⟨.httpsOtaGetImageLenRead h, n⟩, ⟨.eventCb cb (.progress p) config.userCtx, espOk⟩] ∧
    (0 < imageSize a.trace → (p.percent = 100 ↔ n = imageSize a.trace)) ∧
    (imageSize a.trace ≤ 0 → p.percent = -1)

/-- The size that is known at some time is known ever after. -/
theorem imageSize_append {s t : List Event} (h : s.findSome? sizeAnswer ≠ none) :
    imageSize (s ++ t) = imageSize s := by
  obtain ⟨size, hsize⟩ := Option.ne_none_iff_exists'.mp h
  simp [imageSize, List.findSome?_append, hsize]

theorem payload_final {n size : Int32} (hn : 0 ≤ n) (hfits : 0 < size → n ≤ size) :
    (0 < size → ((progressPayload n size).percent = 100 ↔ n = size)) ∧
      (size ≤ 0 → (progressPayload n size).percent = -1) :=
  ⟨fun hpos => percent_eq_hundred_iff hpos hn (hfits hpos), fun hle => (payload_unknown hle).2⟩

theorem percent_le {n k size : Int32} (hn : 0 ≤ n) (hnk : n ≤ k) (hfits : 0 < size → k ≤ size) :
    (progressPayload n size).percent ≤ (progressPayload k size).percent := by
  by_cases hpos : 0 < size
  · exact percent_mono hpos hn hnk (hfits hpos)
  · have hle : size ≤ 0 := Int32.not_lt.mp hpos
    rw [(payload_unknown hle).2, (payload_unknown hle).2]
    exact Int32.le_refl _

/-- The reports never go back, and the last one before the commit is the whole. -/
theorem orderly_reports {ls : List Label} {i : Nat} {a : Activation} {cb : EventCb}
    (ha : (System.run build ls).activations[i]? = some a) (hu : a.Updates config url)
    (hcb : config.eventCb = some cb)
    (hgrow : Growing (imageSize a.trace) (lengthsRead a.trace)) : OrderlyReports config cb a := by
  have hs : a.Sound build := run_sound ha
  have hreports : a.reports = (lengthsRead a.trace).map fun n => progressPayload n (imageSize a.trace) := by
    rw [update_reports hs hu (by simp [hcb]), payloads, List.filter_eq_self.mpr]
    intro n hn
    simpa using hgrow.nonneg n hn
  constructor
  case bytes =>
    rw [hreports, List.pairwise_map]
    exact hgrow.ordered.imp_of_mem fun hn _ hnk => bytesRead_mono (hgrow.nonneg _ hn) hnk
  case percent =>
    rw [hreports, List.pairwise_map]
    exact hgrow.ordered.imp_of_mem fun hn hk hnk =>
      percent_le (hgrow.nonneg _ hn) hnk fun hpos => hgrow.fits hpos _ hk
  case total =>
    intro p hp q hq
    rw [hreports] at hp hq
    obtain ⟨n, _, rfl⟩ := List.mem_map.mp hp
    obtain ⟨k, _, rfl⟩ := List.mem_map.mp hq
    rfl
  case final =>
    intro cs h ds hcalls
    obtain ⟨u, v, ph, htrace, rfl, hpath, hnext⟩ := calls_phase hs hu hcalls
    obtain rfl := next_finish hnext
    have hsub : ∀ n ∈ lengthsRead u, n ∈ lengthsRead a.trace := by
      intro n hn
      rw [htrace, lengthsRead, List.filterMap_append]
      exact List.mem_append_left _ hn
    obtain ⟨w, n, hw, hn, hknown⟩ := committing_report hcb hpath fun n hn => hgrow.nonneg n (hsub n hn)
    have hsize : imageSize a.trace = imageSize u := by
      rw [htrace, imageSize_append hknown]
    refine ⟨w, n, progressPayload n (imageSize u), ?_, ?_⟩
    · rw [htrace, List.length_map, List.take_left]
      exact hw
    · rw [hsize]
      apply payload_final (hgrow.nonneg n (hsub n hn))
      intro hpos
      rw [← hsize] at hpos ⊢
      exact hgrow.fits hpos n (hsub n hn)

theorem orderly_reports_wholeUpdate :
    ∃ a, (System.run sampleBuild (wholeUpdate (.app 0) sampleConfig)).activations[0]? = some a ∧
      a.reports = [⟨4, 8, 50⟩, ⟨8, 8, 100⟩] ∧ OrderlyReports sampleConfig 0 a := by
  have hrun : ((System.run sampleBuild (wholeUpdate (.app 0) sampleConfig)).activations[0]?).map
      (fun a => (a.routine, a.reports, imageSize a.trace, lengthsRead a.trace)) =
      some (.otaApiUpdate (some sampleConfig), [⟨4, 8, 50⟩, ⟨8, 8, 100⟩], 8, [4, 8]) := by
    decide +kernel
  obtain ⟨a, ha, hview⟩ := Option.map_eq_some_iff.mp hrun
  simp only [Prod.mk.injEq] at hview
  obtain ⟨hroutine, hreports, hsize, hlengths⟩ := hview
  refine ⟨a, ha, hreports, orderly_reports ha ⟨hroutine, rfl⟩ rfl ?_⟩
  rw [hsize, hlengths]
  constructor
  · exact List.forall_mem_cons.mpr ⟨by decide, List.forall_mem_singleton.mpr (by decide)⟩
  · decide
  · intro _
    exact List.forall_mem_cons.mpr ⟨by decide, List.forall_mem_singleton.mpr (by decide)⟩

end Order

end OtaApi
