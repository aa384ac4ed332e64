import OtaApi.Commit
import OtaApi.Outcome

/-!
# What becomes of an abort

An accepted `ota_api_abort()` is only looked at after a chunk that was answered
with `ESP_ERR_HTTPS_OTA_IN_PROGRESS`. This says exactly which updates it stops,
and that it never reaches any other.
-/

namespace OtaApi

open Interaction

def Call.isFinish : Call → Bool
  | .httpsOtaFinish _ => true
  | _ => false

def Call.isPoll : Call → Bool
  | .abortRequested => true
  | _ => false

/-- The calls of an activation, the one it is at last. -/
def Activation.calls (a : Activation) : List Call :=
  a.trace.map Interaction.Event.call ++ a.next?.toList

/-- The moment belongs to the ownership of the slot, and `esp_https_ota_finish()` had
not been entered by then. -/
def Activation.inTime (a : Activation) (m : Moment) : Bool :=
  a.owned m && !(a.calls.take (m.answered + m.entered.toNat)).any Call.isFinish

/-- The abort was carried out: no commit, the handle discarded, no success reported. -/
structure Honoured (a : Activation) : Prop where
  uncommitted : ∀ c ∈ a.calls, c.isFinish = false
  discarded : ∀ h, Begun h a.trace → ∃ r, ⟨.httpsOtaAbort h, r⟩ ∈ a.trace
  unsuccessful : ∀ r, a.result? = some r → r ≠ espOk

/-- A failure of the update that is neither its commit nor an abort. -/
def refusal (e : Event) : Bool := (failure e).isSome && !e.call.isFinish && !e.call.isPoll

/-- What stops an update: its configuration, something it is told, or an abort that
is followed by the answer of an unfinished transfer. -/
def Stopped (build : BuildOptions) (config : OtaApiConfig) (url : String) (a : Activation) : Prop :=
  httpConfigError build config url ≠ none ∨ (∃ e ∈ a.trace, refusal e = true) ∨
    ∃ m ∈ a.aborts, a.owned m = true ∧ ∃ u v h, m.answered ≤ u.length + 1 ∧
      a.trace = u ++ ⟨.httpsOtaPerform h, espErrHttpsOtaInProgress⟩ :: v

section Machine

variable {build : BuildOptions} {config : OtaApiConfig} {url : String}

theorem answered_mem_calls {a : Activation} {e : Event} (he : e ∈ a.trace) : e.call ∈ a.calls :=
  List.mem_append_left _ (List.mem_map_of_mem he)

/-- The call an activation is at is one of its calls. -/
theorem next_mem_calls {a : Activation} {c : Call} (hn : a.next? = some c) : c ∈ a.calls := by
  rw [Activation.calls, hn]
  exact List.mem_append_right _ List.mem_cons_self

/-- What comes before a call of an activation is a run, which ends in a phase that
waits for the call. -/
theorem calls_phase {a : Activation} (hs : a.Sound build) (hu : a.Updates config url)
    {cs ds : List Call} {c : Call} (hc : a.calls = cs ++ c :: ds) :
    ∃ u v ph, a.trace = u ++ v ∧ u.map Interaction.Event.call = cs ∧
      Path (Move build config url) .claiming u ph ∧ ph.next? build config = some c := by
  obtain ⟨ph, hpath, hprog⟩ := update_path hs hu
  have hnext : a.next? = ph.next? build config := update_next? hprog
  by_cases hmade : cs.length < a.trace.length
  · -- the call has returned
    obtain ⟨u, e, v, htrace, hlen⟩ : ∃ u e v, a.trace = u ++ e :: v ∧ u.length = cs.length := by
      refine ⟨_, _, _, (List.take_append_drop cs.length a.trace).symm.trans
        (by rw [List.drop_eq_getElem_cons hmade]), ?_⟩
      rw [List.length_take]
      omega
    have happ : u.map Interaction.Event.call ++ (e.call :: (v.map Interaction.Event.call ++
        a.next?.toList)) = cs ++ c :: ds := by
      rw [← hc, Activation.calls, htrace]
      simp
    obtain ⟨hu, htail⟩ := List.append_inj happ (by rw [List.length_map, hlen])
    obtain ⟨rfl, _⟩ := List.cons.inj htail
    rw [htrace] at hpath
    obtain ⟨q, _, hq, m, _⟩ := hpath.at_event
    exact ⟨u, e :: v, q, htrace, hu, hq, m.next?_eq⟩
  · -- the update is at the call
    have hlen : a.calls.length ≤ a.trace.length + 1 := by
      rw [Activation.calls, List.length_append, List.length_map]
      cases a.next? <;> simp
    have hall : (a.trace.map Interaction.Event.call).length = cs.length := by
      rw [hc, List.length_append, List.length_cons] at hlen
      rw [List.length_map]
      omega
    obtain ⟨htrace, htail⟩ := List.append_inj (hc : a.trace.map _ ++ a.next?.toList = _) hall
    refine ⟨a.trace, [], ph, (List.append_nil _).symm, htrace, hpath, ?_⟩
    rw [← hnext]
    cases hn : a.next? with
    | none =>
      rw [hn] at htail
      cases htail
    | some d =>
      rw [hn] at htail
      obtain ⟨rfl, _⟩ := List.cons.inj htail
      rfl

theorem failure_cleanUp {e : Event} (h : cleanUp e.call = true) : failure e = none := by
  obtain ⟨c, a⟩ := e
  cases c with
  | eventCb cb event ctx =>
    have ht : event.terminal = true := h
    simp [failure, ht]
  | httpsOtaAbort h => rfl
  | releaseUpdateSlot => rfl
  | _ => cases h

theorem path_finished {r : EspErr} {t : List Event} {ph : Phase}
    (h : Path (Move build config url) (.finished r) t ph) : t = [] := by
  cases h with
  | nil _ => rfl
  | cons m _ => cases m

/-- The release is followed by the outcome only. -/
theorem path_releasing {err : EspErr} {t : List Event} {ph : Phase}
    (h : Path (Move build config url) (.releasing err) t ph) :
    ∀ e ∈ t, cleanUp e.call = true := by
  cases h with
  | nil _ => simp
  | cons m rest =>
    cases m with
    | releasedSilent _ =>
      rw [path_finished rest]
      exact List.forall_mem_singleton.mpr rfl
    | released _ =>
      cases rest with
      | nil _ => exact List.forall_mem_singleton.mpr rfl
      | cons m' rest' =>
        cases m' with
        | announced =>
          rw [path_finished rest']
          exact List.forall_mem_cons.mpr
            ⟨rfl, List.forall_mem_singleton.mpr (terminal_outcomeEvent _)⟩

/-- An update that comes to its commit has reached it without a failure, and does
nothing but clean up after it. -/
theorem committed_split {t : List Event} {ph : Phase}
    (hp : Path (Move build config url) .claiming t ph) {c : Call} (hc : c.isFinish = true)
    (hmem : c ∈ t.map Interaction.Event.call ++ (ph.next? build config).toList) :
    ∃ u v h, t = u ++ v ∧ Path (Move build config url) .claiming u (.committing h) ∧
      ∀ e ∈ v, e.call.isFinish = true ∨ cleanUp e.call = true := by
  obtain hmem | hmem := List.mem_append.mp hmem
  · obtain ⟨e, he, rfl⟩ := List.mem_map.mp hmem
    obtain ⟨u, v, rfl⟩ := List.append_of_mem he
    obtain ⟨q, q', hq, m, hrest⟩ := hp.at_event
    cases m with
    | committed =>
      refine ⟨u, _, _, rfl, hq, List.forall_mem_cons.mpr ⟨.inl rfl, fun x hx => .inr ?_⟩⟩
      exact path_releasing hrest x hx
    | _ => cases hc
  · have hnext : ph.next? build config = some c := by simpa using hmem
    cases c with
    | httpsOtaFinish h =>
      obtain rfl := next_finish hnext
      exact ⟨t, [], h, by simp, hp, by simp⟩
    | _ => cases hc

/-- What stops an update keeps it from its commit. -/
theorem stopped_uncommitted {a : Activation} {ph : Phase}
    (hp : Path (Move build config url) .claiming a.trace ph)
    (hnext : a.next? = ph.next? build config) (hpoll : a.Polled)
    (hs : Stopped build config url a) : ∀ c ∈ a.calls, c.isFinish = false := by
  intro c hmem
  cases hc : c.isFinish with
  | false => rfl
  | true =>
    exfalso
    rw [Activation.calls, hnext] at hmem
    obtain ⟨u, v, h, ht, hu, hv⟩ := committed_split hp hc hmem
    have hnone := path_faultless hu rfl rfl
    obtain hconfig | ⟨e, he, hfail⟩ | ⟨m, hm, howned, x, y, h', hle, hx⟩ := hs
    · have hfirst := path_failure hu rfl
      simp only [Phase.error?, firstFailure, Option.or_eq_none_iff] at hfirst
      exact hconfig hfirst.1
    · simp only [refusal, Bool.and_eq_true, Bool.not_eq_true'] at hfail
      obtain ⟨⟨hsome, hfin⟩, _⟩ := hfail
      have hnot : failure e ≠ none := by
        intro hn
        rw [hn] at hsome
        cases hsome
      rw [ht] at he
      obtain he | he := List.mem_append.mp he
      · exact hnot (hnone e he)
      · obtain hf | hcl := hv e he
        · rw [hfin] at hf
          cases hf
        · exact hnot (failure_cleanUp hcl)
    · -- the chunk came before the commit, so the request was looked at, and was there
      have hlate : (⟨.httpsOtaPerform h', espErrHttpsOtaInProgress⟩ : Event) ∉ v := by
        intro hin
        obtain hf | hcl := hv _ hin
        · cases hf
        · cases hcl
      obtain ⟨y', hux, hy⟩ := append_eq_append_cons (ht.symm.trans hx) hlate
      obtain ⟨w, rfl⟩ := (path_cleared hu).polled h' x y' hux
      have htrace : a.trace = (x ++ [⟨.httpsOtaPerform h', espErrHttpsOtaInProgress⟩]) ++
          ⟨.abortRequested, false⟩ :: (w ++ v) := by
        rw [hx, hy]
        simp
      have hseen := (hpoll _ _ _ htrace).mpr ⟨m, hm, howned, by simpa using hle⟩
      cases hseen

/-- And nothing else does. -/
theorem uncommitted_stopped {a : Activation} {r : EspErr}
    (hp : Path (Move build config url) .claiming a.trace (.finished r)) (hpoll : a.Polled)
    (hun : ∀ c ∈ a.calls, c.isFinish = false) : Stopped build config url a := by
  have hcalls : ∀ e ∈ a.trace, e.call.isFinish = false := fun e he =>
    hun _ (answered_mem_calls he)
  have hr : r ≠ espOk := by
    intro hok
    obtain ⟨h, hh⟩ := path_success hp hok
    cases hcalls _ hh
  have hfirst := path_failure hp rfl
  rw [Phase.error?, failed_of_ne hr, firstFailure] at hfirst
  cases hconfig : httpConfigError build config url with
  | some err => exact .inl (by rw [hconfig]; exact Option.some_ne_none err)
  | none =>
    rw [hconfig, Option.none_or] at hfirst
    obtain ⟨e, he, hfail⟩ := List.exists_of_findSome?_eq_some hfirst
    cases hpoll' : e.call.isPoll with
    | false => exact .inr (.inl ⟨e, he, by simp [refusal, hfail, hcalls e he, hpoll']⟩)
    | true =>
      obtain ⟨c, b⟩ := e
      cases c with
      | abortRequested =>
        have hb : b = true := poll_failure hfail
        subst hb
        obtain ⟨u, v, ht⟩ := List.append_of_mem he
        rw [ht] at hp
        obtain ⟨q, q', hq, m, _⟩ := hp.at_event
        cases m with
        | @stopped h total last =>
          obtain ⟨_, u', rfl⟩ := path_facts hq
          obtain ⟨m, hm, howned, hle⟩ := (hpoll _ _ _ ht).mp rfl
          have hchunk : a.trace = u' ++ ⟨.httpsOtaPerform h, espErrHttpsOtaInProgress⟩ ::
              ⟨.abortRequested, true⟩ :: v := by
            rw [ht, List.append_assoc]
            rfl
          exact .inr (.inr ⟨m, hm, howned, u', _, h, by simpa using hle, hchunk⟩)
      | _ => cases hpoll'

theorem honoured_of_uncommitted {a : Activation} {r : EspErr}
    (hp : Path (Move build config url) .claiming a.trace (.finished r)) (hr : a.result? = some r)
    (hun : ∀ c ∈ a.calls, c.isFinish = false) : Honoured a := by
  have hcalls : ∀ e ∈ a.trace, e.call.isFinish = false := fun e he =>
    hun _ (answered_mem_calls he)
  refine ⟨hun, fun h hb => ?_, fun r' hr' hok => ?_⟩
  · obtain ho | ⟨u, e, v, ht, _, hcloses, hhandle, _⟩ := begun_cases hp hb
    · have hclosed : Unopened a.trace ∨ ∃ h, Closed h a.trace := path_handle hp
      obtain hun' | ⟨h', u, e, v, ht, _, hcloses, _⟩ := hclosed
      · exact absurd hb (hun'.unbegun h)
      · have he := ho.unclosed e (by simp [ht])
        rw [hcloses] at he
        cases he
    · have he : e ∈ a.trace := by simp [ht]
      have hnot := hcalls e he
      obtain ⟨c, x⟩ := e
      cases c with
      | httpsOtaAbort h' =>
        cases hhandle
        exact ⟨x, he⟩
      | httpsOtaFinish h' => cases hnot
      | _ => cases hcloses
  · rw [hr] at hr'
    cases hr'
    obtain ⟨h, hh⟩ := path_success hp hok
    cases hcalls _ hh

/-- An abort accepted before the commit is carried out exactly when something
stops the update; and what stops it does so at once. -/
theorem abort_honoured_iff {ls : List Label} {i : Nat} {a : Activation}
    (ha : (System.run build ls).activations[i]? = some a) (hu : a.Updates config url)
    (haccepted : ∃ m ∈ a.aborts, a.inTime m = true) :
    (Stopped build config url a → ∀ c ∈ a.calls, c.isFinish = false) ∧
      ∀ r, a.result? = some r → (Honoured a ↔ Stopped build config url a) := by
  obtain ⟨ph, hpath, hnext, hresult⟩ := run_update ha hu
  have hpoll := run_polled ha
  have hstop : Stopped build config url a → ∀ c ∈ a.calls, c.isFinish = false :=
    stopped_uncommitted hpath hnext hpoll
  refine ⟨hstop, fun r hr => ?_⟩
  obtain rfl | rfl := hresult r hr
  · constructor
    · intro hh
      exact uncommitted_stopped hpath hpoll hh.uncommitted
    · intro hs
      exact honoured_of_uncommitted hpath hr (hstop hs)
  · -- a refused update never held the slot
    obtain ⟨m, _, htime⟩ := haccepted
    have htrace : a.trace = [⟨.claimUpdateSlot, false⟩] := path_facts hpath
    have howned : a.owned m = false := by
      simp only [Activation.owned, htrace]
      cases m.answered <;> simp [holds, isClaim]
    simp [Activation.inTime, howned] at htime

/-- The abort arrives while the last chunk is being received. -/
def abortOnLastChunk : List Label :=
  admission (.app 0) sampleConfig ++ [.advance (.app 0), .otaApiAbort (.app 1),
    .answer (.app 0) (.err espOk)] ++ Label.through (.app 0) (.flag true) ++
    Label.through (.app 0) (.int 8) ++ conclusion (.app 0)

/-- The image is committed and reported as a success all the same. -/
theorem abort_lost_on_last_chunk :
    ∃ a, (System.run sampleBuild abortOnLastChunk).activations[0]? = some a ∧
      (∃ m ∈ a.aborts, a.inTime m = true) ∧ a.result? = some espOk ∧
      ∃ c ∈ a.calls, c.isFinish = true := by
  have hrun : ((System.run sampleBuild abortOnLastChunk).activations[0]?).map
      (fun a => (a.aborts.map a.inTime, a.result?, a.calls.any Call.isFinish)) =
      some ([true], some espOk, true) := by decide +kernel
  obtain ⟨a, ha, hview⟩ := Option.map_eq_some_iff.mp hrun
  simp only [Prod.mk.injEq] at hview
  obtain ⟨htime, hresult, hfinish⟩ := hview
  have htrue : true ∈ a.aborts.map a.inTime := by simp [htime]
  exact ⟨a, ha, List.mem_map.mp htrue, hresult, List.any_eq_true.mp hfinish⟩

theorem abort_honoured_iff_last_chunk :
    ∃ a, (System.run sampleBuild abortOnLastChunk).activations[0]? = some a ∧
      (Honoured a ↔ Stopped sampleBuild sampleConfig "https://host/app.bin" a) := by
  have hrun : ((System.run sampleBuild abortOnLastChunk).activations[0]?).map
      (fun a => (a.routine, a.aborts.map a.inTime, a.result?)) =
      some (.otaApiUpdate (some sampleConfig), [true], some espOk) := by decide +kernel
  obtain ⟨a, ha, hview⟩ := Option.map_eq_some_iff.mp hrun
  simp only [Prod.mk.injEq] at hview
  obtain ⟨hroutine, htime, hresult⟩ := hview
  have htrue : true ∈ a.aborts.map a.inTime := by simp [htime]
  have haccepted := List.mem_map.mp htrue
  exact ⟨a, ha, (abort_honoured_iff ha ⟨hroutine, rfl⟩ haccepted).2 espOk hresult⟩

end Machine

end OtaApi
