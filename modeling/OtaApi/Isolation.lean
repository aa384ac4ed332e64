import OtaApi.Abort

/-!
# Aborts stay with their update

Two histories in which an update is told the same, and is asked to stop at the
same points of its own run, are the same for that update, whatever else happens
in them.
-/

namespace OtaApi

open Interaction

/-- An abort was accepted after `n` calls of the activation, while it held the slot. -/
def Activation.abortedAt (a : Activation) (n : Nat) : Prop :=
  ∃ m ∈ a.aborts, a.owned m = true ∧ m.answered = n

/-- Calls outside the slot were answered alike, wherever both made the same one. -/
def SameAnswers (s t : List Event) : Prop :=
  ∀ (n : Nat) (c : Call) (x y : Answer c), c.critical = false → s[n]? = some ⟨c, x⟩ →
    t[n]? = some ⟨c, y⟩ → x = y

section Isolation

variable {build : BuildOptions} {config : OtaApiConfig} {url : String}

theorem poll_iff {a : Activation} (hp : a.Polled) {n : Nat} {b : Bool}
    (hn : a.trace[n]? = some ⟨.abortRequested, b⟩) :
    b = true ↔ ∃ k, k ≤ n ∧ a.abortedAt k := by
  obtain ⟨hlt, hget⟩ := List.getElem?_eq_some_iff.mp hn
  have hsplit : a.trace = a.trace.take n ++ ⟨.abortRequested, b⟩ :: a.trace.drop (n + 1) := by
    rw [← hget, List.getElem_cons_drop, List.take_append_drop]
  have hlen : (a.trace.take n).length = n := by
    rw [List.length_take]
    omega
  rw [hp _ _ _ hsplit, hlen]
  constructor
  · rintro ⟨m, hm, howned, hle⟩
    exact ⟨m.answered, hle, m, hm, howned, rfl⟩
  · rintro ⟨k, hle, m, hm, howned, rfl⟩
    exact ⟨m, hm, howned, hle⟩

/-- An update that got the slot was not refused it. -/
theorem claim_granted {a : Activation} (hs : a.Sound build) (hu : a.Updates config url)
    (hc : 0 < a.claims) {n : Nat} {b : Bool} (hn : a.trace[n]? = some ⟨.claimUpdateSlot, b⟩) :
    b = true := by
  cases b with
  | true => rfl
  | false =>
    obtain ⟨ph, hpath, _⟩ := update_path hs hu
    obtain ⟨err, rfl⟩ := busy_refused hpath (List.mem_of_getElem? hn)
    rw [(path_claims hpath).1] at hc
    exact absurd hc (Nat.lt_irrefl 0)

/-- Nobody but an abort makes an update return `ESP_ERR_NOT_FINISHED` by itself. -/
theorem notFinished_aborted {a : Activation}
    (hp : Path (Move build config url) .claiming a.trace (.finished espErrNotFinished))
    (hpoll : a.Polled)
    (hnone : ∀ e ∈ a.trace, e.call.isPoll = false → failure e ≠ some espErrNotFinished) :
    ∃ n, a.abortedAt n := by
  have hfirst := path_failure hp rfl
  simp only [Phase.error?, failed_notFinished, firstFailure] at hfirst
  cases hconfig : httpConfigError build config url with
  | some err =>
    rw [hconfig, httpConfigError_eq hconfig] at hfirst
    cases hfirst
  | none =>
    rw [hconfig, Option.none_or] at hfirst
    obtain ⟨⟨c, b⟩, he, hfail⟩ := List.exists_of_findSome?_eq_some hfirst
    cases c with
    | abortRequested =>
      have hb : b = true := poll_failure hfail
      obtain ⟨n, hn⟩ := List.getElem?_of_mem he
      obtain ⟨k, _, hk⟩ := (poll_iff hpoll hn).mp hb
      exact ⟨k, hk⟩
    | _ => exact absurd hfail (hnone _ he rfl)

/-- One update in two histories. -/
theorem abort_isolated {ls₁ ls₂ : List Label} {i₁ i₂ : Nat} {a₁ a₂ : Activation}
    (ha₁ : (System.run build ls₁).activations[i₁]? = some a₁)
    (ha₂ : (System.run build ls₂).activations[i₂]? = some a₂)
    (hu₁ : a₁.Updates config url) (hu₂ : a₂.Updates config url)
    (hc₁ : 0 < a₁.claims) (hc₂ : 0 < a₂.claims) (hsame : SameAnswers a₁.trace a₂.trace)
    (haborts : ∀ n, n < a₁.trace.length → n < a₂.trace.length →
      (a₁.abortedAt n ↔ a₂.abortedAt n)) :
    (a₁.trace <+: a₂.trace ∨ a₂.trace <+: a₁.trace) ∧
      (∀ r₁ r₂, a₁.result? = some r₁ → a₂.result? = some r₂ →
        a₁.trace = a₂.trace ∧ r₁ = r₂) ∧
      ((∀ e ∈ a₁.trace, e.call.isPoll = false → failure e ≠ some espErrNotFinished) →
        a₁.result? = some espErrNotFinished → ∃ n, a₁.abortedAt n) ∧
      ∀ τ, (otaApiAbort (System.run build ls₁).slot).1 ≠ espOk →
        (System.run build ls₁).step build (.otaApiAbort τ) = System.run build ls₁ := by
  have hs₁ : a₁.Sound build := run_sound ha₁
  have hs₂ : a₂.Sound build := run_sound ha₂
  have hruns₁ := hs₁.runs
  have hruns₂ := hs₂.runs
  rw [hu₁.1] at hruns₁
  rw [hu₂.1] at hruns₂
  have agree : ∀ (n : Nat) (c : Call) (x y : Answer c), a₁.trace[n]? = some ⟨c, x⟩ →
      a₂.trace[n]? = some ⟨c, y⟩ → x = y := by
    intro n c x y hx hy
    cases hcrit : c.critical with
    | false => exact hsame n c x y hcrit hx hy
    | true =>
      cases c with
      | claimUpdateSlot =>
        have hxt : x = true := claim_granted hs₁ hu₁ hc₁ hx
        have hyt : y = true := claim_granted hs₂ hu₂ hc₂ hy
        rw [hxt, hyt]
      | releaseUpdateSlot => rfl
      | abortRequested =>
        obtain ⟨hlt₁, _⟩ := List.getElem?_eq_some_iff.mp hx
        obtain ⟨hlt₂, _⟩ := List.getElem?_eq_some_iff.mp hy
        rw [Bool.eq_iff_iff, poll_iff (run_polled ha₁) hx, poll_iff (run_polled ha₂) hy]
        refine exists_congr fun k => and_congr_right fun hk => ?_
        exact haborts k (by omega) (by omega)
      | _ => cases hcrit
  have hpre := hruns₁.deterministic hruns₂ agree
  refine ⟨hpre, ?_, ?_, ?_⟩
  · intro r₁ r₂ hr₁ hr₂
    exact hruns₁.eq_of_done hruns₂ hpre (Turn.eq_done hr₁) (Turn.eq_done hr₂)
  · intro hnone hr
    obtain ⟨ph, hpath, _, hresult⟩ := run_update ha₁ hu₁
    obtain rfl | rfl := hresult _ hr
    · exact notFinished_aborted hpath (run_polled ha₁) hnone
    · rw [(path_claims hpath).1] at hc₁
      exact absurd hc₁ (Nat.lt_irrefl 0)
  · intro τ h
    exact (run_refusalsHarmless ls₁).abort τ h

/-- The abort arrives during a chunk that is not the last one. -/
def abortOnChunk (τ : Task) (config : OtaApiConfig) : List Label :=
  admission τ config ++ [.advance τ, .otaApiAbort (.app 9), .answer τ (.err espErrHttpsOtaInProgress),
    .advance τ] ++ Label.through τ (.err espOk) ++ [.advance τ] ++ Label.through τ (.err espOk)

/-- The same among others: an abort with nothing to stop, an update refused while the
first one runs, and another update after it. -/
def abortOnChunkAmongOthers : List Label :=
  [.otaApiAbort (.app 1)] ++ abortOnChunk (.app 0) sampleConfig ++
    [.otaApiUpdate (.app 2) (some sampleConfig), .advance (.app 2), .otaApiAbort (.app 1)]

theorem abort_isolated_among_others :
    ∃ a₁ a₂, (System.run sampleBuild (abortOnChunk (.app 0) sampleConfig)).activations[0]? = some a₁ ∧
      (System.run sampleBuild abortOnChunkAmongOthers).activations[0]? = some a₂ ∧
      a₁.result? = some espErrNotFinished ∧ a₁.trace = a₂.trace ∧ ∃ n, a₁.abortedAt n := by
  have hrun₁ : ((System.run sampleBuild (abortOnChunk (.app 0) sampleConfig)).activations[0]?).map
      (fun a => (a.routine, a.claims, a.result?, a.aborts)) =
      some (.otaApiUpdate (some sampleConfig), 1, some espErrNotFinished, [⟨6, true⟩]) := by decide +kernel
  have hrun₂ : ((System.run sampleBuild abortOnChunkAmongOthers).activations[0]?).map
      (fun a => (a.routine, a.claims, a.result?, a.aborts)) =
      some (.otaApiUpdate (some sampleConfig), 1, some espErrNotFinished,
        [⟨6, true⟩, ⟨11, false⟩]) := by decide +kernel
  have htraces : ((System.run sampleBuild (abortOnChunk (.app 0) sampleConfig)).activations[0]?).map
      (fun a => a.trace) =
      ((System.run sampleBuild abortOnChunkAmongOthers).activations[0]?).map fun a => a.trace := by
    decide +kernel
  have hlength : ((System.run sampleBuild (abortOnChunk (.app 0) sampleConfig)).activations[0]?).map
      (fun a => (a.trace.length, a.trace.all fun e => failure e != some espErrNotFinished ||
        e.call.isPoll)) = some (11, true) := by decide +kernel
  obtain ⟨a₁, ha₁, hview₁⟩ := Option.map_eq_some_iff.mp hrun₁
  obtain ⟨a₂, ha₂, hview₂⟩ := Option.map_eq_some_iff.mp hrun₂
  simp only [Prod.mk.injEq] at hview₁ hview₂
  obtain ⟨hroutine₁, hclaims₁, hresult₁, haborts₁⟩ := hview₁
  obtain ⟨hroutine₂, hclaims₂, hresult₂, haborts₂⟩ := hview₂
  rw [ha₁, ha₂] at htraces
  rw [ha₁] at hlength
  have htrace : a₁.trace = a₂.trace := Option.some.inj htraces
  obtain ⟨hlen, hpolls⟩ := Prod.mk.inj (Option.some.inj hlength)
  have hsame : SameAnswers a₁.trace a₂.trace := by
    intro n c x y _ hx hy
    rw [htrace, hy] at hx
    cases hx
    rfl
  have haborts : ∀ n, n < a₁.trace.length → n < a₂.trace.length →
      (a₁.abortedAt n ↔ a₂.abortedAt n) := by
    intro n hn _
    have hne : (11 : Nat) ≠ n := by omega
    simp [Activation.abortedAt, Activation.owned, haborts₁, haborts₂, htrace, hne]
  obtain ⟨_, hequal, honly, _⟩ := abort_isolated ha₁ ha₂ ⟨hroutine₁, rfl⟩ ⟨hroutine₂, rfl⟩
    (by omega) (by omega) hsame haborts
  refine ⟨a₁, a₂, ha₁, ha₂, hresult₁, (hequal _ _ hresult₁ hresult₂).1, honly ?_ hresult₁⟩
  intro e he hpoll
  have hall := List.all_eq_true.mp hpolls e he
  simpa [hpoll] using hall

/-! The clock is told apart from what the server and the application say: it decides
which of two ticks is reported. -/

/-- What `esp_https_ota` and `event_cb` say, and in answer to what. -/
inductive Said where
  | begin | imgDesc | imageSize | perform | lenRead | complete | finish | abort | verdict
  deriving DecidableEq, Repr

def said? : Event → Option (Said × Reply)
  | ⟨.httpsOtaBegin _, (e, h)⟩ => some (.begin, .handle e h)
  | ⟨.httpsOtaGetImgDesc _, (e, d)⟩ => some (.imgDesc, .appDesc e d)
  | ⟨.httpsOtaGetImageSize _, n⟩ => some (.imageSize, .int n)
  | ⟨.httpsOtaPerform _, e⟩ => some (.perform, .err e)
  | ⟨.httpsOtaGetImageLenRead _, n⟩ => some (.lenRead, .int n)
  | ⟨.httpsOtaIsCompleteDataReceived _, b⟩ => some (.complete, .flag b)
  | ⟨.httpsOtaFinish _, e⟩ => some (.finish, .err e)
  | ⟨.httpsOtaAbort _, e⟩ => some (.abort, .err e)
  | ⟨.eventCb _ _ _, e⟩ => some (.verdict, .err e)
  | _ => none

/-- What one of them said during a run, in order. -/
def saidBy (w : Said) (t : List Event) : List Reply :=
  (t.filterMap said?).filterMap fun p => if p.1 = w then some p.2 else none

def throttledConfig : OtaApiConfig := { sampleConfig with progressIntervalMs := 1000 }

/-- Two chunks, at the given times; the first or the second is reported. -/
def twoChunks (first : Bool) : List Label :=
  let tick (now : Int64) : List Label :=
    Label.through (.app 0) (.err espErrHttpsOtaInProgress) ++ [.advance (.app 0)] ++
      Label.through (.app 0) (.time now)
  let report : List Label := Label.through (.app 0) (.int 4) ++ Label.through (.app 0) (.err espOk)
  admission (.app 0) throttledConfig ++
    (if first then tick 1500000 ++ report ++ tick 2000000
     else tick 500000 ++ tick 2000000 ++ report) ++
    lastChunk (.app 0) ++ conclusion (.app 0)

/-- The same results and verdicts and no abort at all, but not the same calls. -/
theorem clock_decides :
    ∃ a₁ a₂, (System.run sampleBuild (twoChunks true)).activations[0]? = some a₁ ∧
      (System.run sampleBuild (twoChunks false)).activations[0]? = some a₂ ∧
      a₁.Updates throttledConfig "https://host/app.bin" ∧
      a₂.Updates throttledConfig "https://host/app.bin" ∧ a₁.claims = 1 ∧ a₂.claims = 1 ∧
      a₁.aborts = [] ∧ a₂.aborts = [] ∧ (∀ w, saidBy w a₁.trace = saidBy w a₂.trace) ∧
      a₁.calls ≠ a₂.calls := by
  have hrun₁ : ((System.run sampleBuild (twoChunks true)).activations[0]?).map
      (fun a => (a.routine, a.claims, a.aborts)) =
      some (.otaApiUpdate (some throttledConfig), 1, []) := by decide +kernel
  have hrun₂ : ((System.run sampleBuild (twoChunks false)).activations[0]?).map
      (fun a => (a.routine, a.claims, a.aborts)) =
      some (.otaApiUpdate (some throttledConfig), 1, []) := by decide +kernel
  have hsaid : ∀ w, ((System.run sampleBuild (twoChunks true)).activations[0]?).map
      (fun a => saidBy w a.trace) =
      ((System.run sampleBuild (twoChunks false)).activations[0]?).map fun a => saidBy w a.trace := by
    intro w
    cases w <;> decide +kernel
  have hcalls : ((System.run sampleBuild (twoChunks true)).activations[0]?).map Activation.calls ≠
      ((System.run sampleBuild (twoChunks false)).activations[0]?).map Activation.calls := by
    decide +kernel
  obtain ⟨a₁, ha₁, hview₁⟩ := Option.map_eq_some_iff.mp hrun₁
  obtain ⟨a₂, ha₂, hview₂⟩ := Option.map_eq_some_iff.mp hrun₂
  simp only [Prod.mk.injEq] at hview₁ hview₂
  simp only [ha₁, ha₂, Option.map_some, Option.some.injEq, ne_eq] at hsaid hcalls
  obtain ⟨hroutine₁, hclaims₁, haborts₁⟩ := hview₁
  obtain ⟨hroutine₂, hclaims₂, haborts₂⟩ := hview₂
  exact ⟨a₁, a₂, ha₁, ha₂, ⟨hroutine₁, rfl⟩, ⟨hroutine₂, rfl⟩, hclaims₁, hclaims₂, haborts₁, haborts₂,
    hsaid, hcalls⟩

end Isolation

end OtaApi
