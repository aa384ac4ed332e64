import OtaApi.Isolation

/-!
# How long an abort takes

From the acceptance of an `ota_api_abort()` on, every look at the request shows it,
since nobody but the update itself clears the flag. The loop cannot be passed
again, so the calls that are left are counted by a budget for each phase.
-/

namespace OtaApi

open Interaction

def Call.isPerform : Call → Bool
  | .httpsOtaPerform _ => true
  | _ => false

def Call.isReport : Call → Bool
  | .eventCb _ (.progress _) _ => true
  | _ => false

def Call.isCompletenessCheck : Call → Bool
  | .httpsOtaIsCompleteDataReceived _ => true
  | _ => false

/-- The calls an activation enters after a moment, the one it is at last. -/
def Activation.callsAfter (a : Activation) (m : Moment) : List Call :=
  a.calls.drop (m.answered + m.entered.toNat)

/-- Those of them that come before the completeness check, after which every report
is forced. -/
def Activation.unforcedAfter (a : Activation) (m : Moment) : List Call :=
  (a.calls.takeWhile fun c => !c.isCompletenessCheck).drop (m.answered + m.entered.toNat)

/-- The reports before the completeness check. -/
def unforcedReports (cs : List Call) : Nat :=
  (cs.takeWhile fun c => !c.isCompletenessCheck).countP Call.isReport

/-- What an update does once it has seen that it is to stop. -/
def unwinding (config : OtaApiConfig) (h : HttpsOtaHandle) : List Call :=
  [.abortRequested, .httpsOtaAbort h, .releaseUpdateSlot] ++
    (config.eventCb.map fun cb =>
      .eventCb cb (.failed espErrNotFinished) config.userCtx).toList

/-- The request is not overlooked. -/
def Heeded (e : Event) : Prop := e ≠ ⟨.abortRequested, false⟩

@[simp] theorem isReport_outcome (cb : EventCb) (err : EspErr) (ctx : Nat) :
    (Call.eventCb cb (outcomeEvent err) ctx).isReport = false := by
  unfold outcomeEvent
  split <;> rfl

theorem drop_takeWhile_leads {α : Type} (p : α → Bool) (n : Nat) (cs : List α) :
    (cs.takeWhile p).drop n <+: (cs.drop n).takeWhile p := by
  induction cs generalizing n with
  | nil => simp
  | cons c cs ih =>
    cases n with
    | zero => exact List.prefix_rfl
    | succ n =>
      rw [List.takeWhile_cons]
      cases p c with
      | true => exact ih n
      | false => exact List.nil_prefix

@[simp] theorem unforcedReports_nil : unforcedReports [] = 0 := rfl

theorem unforcedReports_cons (c : Call) (cs : List Call) :
    unforcedReports (c :: cs) =
      if c.isCompletenessCheck then 0 else (if c.isReport then 1 else 0) + unforcedReports cs := by
  unfold unforcedReports
  rw [List.takeWhile_cons]
  cases c.isCompletenessCheck with
  | true => rfl
  | false =>
    simp only [Bool.not_false, if_true, List.countP_cons]
    rw [Nat.add_comm]
    rfl

section Machine

variable {build : BuildOptions} {config : OtaApiConfig} {url : String}

/-! ## What is left to be done -/

/-- The chunks an update can still ask for, once its request is there. -/
def Phase.performsLeft : Phase → Nat
  | .claiming => 1
  | .naming _ _ => 1
  | .connecting _ => 1
  | .notifying _ _ => 1
  | .inspecting _ => 1
  | .offering _ _ _ => 1
  | .sizing _ => 1
  | .performing _ _ _ => 1
  | .clocking _ _ _ => 1
  | .measuring _ _ _ => 1
  | .reporting _ _ _ _ _ => 1
  | _ => 0

/-- The reports it can still make before it checks for completeness, or of those
after it if that is where it is. -/
def Phase.reportsLeft : Phase → Nat
  | .clocking _ _ _ => 1
  | .measuring _ _ _ => 1
  | .reporting _ _ _ _ _ => 1
  | .measuringAll _ _ _ => 1
  | .reportingAll _ _ _ _ _ => 1
  | _ => 0

/-- The calls on the longest way out. -/
def Phase.callsLeft : Phase → Nat
  | .claiming => 14
  | .refused _ => 0
  | .naming _ _ => 13
  | .connecting _ => 12
  | .notifying _ _ => 11
  | .inspecting _ => 10
  | .offering _ _ _ => 9
  | .sizing _ => 8
  | .performing _ _ _ => 7
  | .polling _ _ _ => 4
  | .clocking _ _ _ => 10
  | .measuring _ _ _ => 9
  | .reporting _ _ _ _ _ => 8
  | .verifying _ _ _ => 6
  | .measuringAll _ _ _ => 5
  | .reportingAll _ _ _ _ _ => 4
  | .committing _ => 3
  | .aborting _ _ => 3
  | .releasing _ => 2
  | .announcing _ _ => 1
  | .finished _ => 0

theorem Move.performs_pay {p q : Phase} {e : Event} (m : Move build config url p e q)
    (he : Heeded e) :
    (if e.call.isPerform then 1 else 0) + q.performsLeft ≤ p.performsLeft := by
  cases m with
  | goingOn _ => exact absurd rfl he
  | goingOnUnthrottled _ => exact absurd rfl he
  | _ => simp [Call.isPerform, Phase.performsLeft]

theorem Move.calls_pay {p q : Phase} {e : Event} (m : Move build config url p e q)
    (he : Heeded e) : 1 + q.callsLeft ≤ p.callsLeft := by
  cases m with
  | goingOn _ => exact absurd rfl he
  | goingOnUnthrottled _ => exact absurd rfl he
  | _ => simp [Phase.callsLeft]

theorem next_performs (ph : Phase) :
    (ph.next? build config).toList.countP Call.isPerform ≤ ph.performsLeft := by
  cases ph <;> simp [Phase.next?, Phase.performsLeft, Call.isPerform]

theorem next_calls (ph : Phase) : (ph.next? build config).toList.length ≤ ph.callsLeft := by
  cases ph <;> simp [Phase.next?, Phase.callsLeft]

/-- The calls from a phase on, when every look shows the request. -/
theorem performs_left {p q : Phase} {t : List Event} (h : Path (Move build config url) p t q)
    (ht : ∀ e ∈ t, Heeded e) :
    (t.map Interaction.Event.call ++ (q.next? build config).toList).countP Call.isPerform ≤
      p.performsLeft := by
  have hpaid : t.countP (fun e => e.call.isPerform) + q.performsLeft ≤ p.performsLeft :=
    Path.budget (fun _ _ _ m he => m.performs_pay he) h ht
  have hnext := @next_performs build config q
  rw [List.countP_append, List.countP_map]
  exact Nat.le_trans (Nat.add_le_add_left hnext _) hpaid

theorem calls_left {p q : Phase} {t : List Event} (h : Path (Move build config url) p t q)
    (ht : ∀ e ∈ t, Heeded e) :
    (t.map Interaction.Event.call ++ (q.next? build config).toList).length ≤ p.callsLeft := by
  have hpaid : t.countP (fun _ => true) + q.callsLeft ≤ p.callsLeft :=
    Path.budget (fun _ _ _ m he => m.calls_pay he) h ht
  have hnext := @next_calls build config q
  rw [List.countP_true] at hpaid
  rw [List.length_append, List.length_map]
  omega

theorem Move.reports_pay {p q : Phase} {e : Event} (m : Move build config url p e q)
    (he : Heeded e) (hc : e.call.isCompletenessCheck = false) :
    (if e.call.isReport then 1 else 0) + q.reportsLeft ≤ p.reportsLeft := by
  cases m with
  | goingOn _ => exact absurd rfl he
  | goingOnUnthrottled _ => exact absurd rfl he
  | complete => cases hc
  | announced => simp [Phase.reportsLeft]
  | _ => simp [Call.isReport, Phase.reportsLeft]

theorem next_reports (ph : Phase) :
    unforcedReports (ph.next? build config).toList ≤ ph.reportsLeft := by
  cases ph with
  | announcing cb err => simp [Phase.next?, unforcedReports_cons]
  | _ =>
    simp [Phase.next?, unforcedReports_cons, Call.isReport, Call.isCompletenessCheck,
      Phase.reportsLeft]

theorem reports_left {p q : Phase} {t : List Event} (h : Path (Move build config url) p t q)
    (ht : ∀ e ∈ t, Heeded e) :
    unforcedReports (t.map Interaction.Event.call ++ (q.next? build config).toList) ≤
      p.reportsLeft := by
  induction h with
  | nil p => exact next_reports p
  | @cons p q r e t m _ ih =>
    obtain ⟨he, hrest⟩ := List.forall_mem_cons.mp ht
    have hleft := ih hrest
    rw [List.map_cons, List.cons_append, unforcedReports_cons]
    split
    · exact Nat.zero_le _
    · rename_i hc
      have hpay := m.reports_pay he (by simpa using hc)
      omega

/-! ## Once the request has been seen -/

theorem releasing_unwinds {err : EspErr} {t : List Event} {q : Phase}
    (hp : Path (Move build config url) (.releasing err) t q) :
    t.map Interaction.Event.call ++ (q.next? build config).toList <+:
        .releaseUpdateSlot :: (config.eventCb.map fun cb =>
          Call.eventCb cb (outcomeEvent err) config.userCtx).toList ∧
      (q.next? build config = none → q = .finished err) := by
  cases hp with
  | nil _ => exact ⟨⟨_, rfl⟩, fun hn => by cases hn⟩
  | cons m rest =>
    cases m with
    | releasedSilent hc =>
      cases rest with
      | nil _ => simp [Phase.next?, hc]
      | cons m' _ => cases m'
    | released hc =>
      cases rest with
      | nil _ => simp [Phase.next?, hc]
      | cons m' rest' =>
        cases m' with
        | announced =>
          cases rest' with
          | nil _ => simp [Phase.next?, hc]
          | cons m'' _ => cases m''

/-- After a chunk whose check finds the request in place, the update unwinds. -/
theorem polling_unwinds {h : HttpsOtaHandle} {total : Int32} {last : Int64} {t : List Event}
    {q : Phase} (hp : Path (Move build config url) (.polling h total last) t q)
    (ht : ∀ e ∈ t, Heeded e) :
    t.map Interaction.Event.call ++ (q.next? build config).toList <+: unwinding config h ∧
      (q.next? build config = none → q = .finished espErrNotFinished ∧
        ∃ r, ⟨.httpsOtaAbort h, r⟩ ∈ t) := by
  cases hp with
  | nil _ => exact ⟨⟨_, rfl⟩, fun hn => by cases hn⟩
  | cons m rest =>
    obtain ⟨he, hrest⟩ := List.forall_mem_cons.mp ht
    cases m with
    | goingOn _ => exact absurd rfl he
    | goingOnUnthrottled _ => exact absurd rfl he
    | stopped =>
      cases rest with
      | nil _ => exact ⟨⟨_, rfl⟩, fun hn => by cases hn⟩
      | cons m' rest' =>
        cases m' with
        | discarded =>
          obtain ⟨hleads, hend⟩ := releasing_unwinds rest'
          constructor
          · exact List.cons_prefix_cons.mpr ⟨rfl, List.cons_prefix_cons.mpr ⟨rfl, hleads⟩⟩
          · intro hn
            exact ⟨hend hn, _, List.mem_cons_of_mem _ List.mem_cons_self⟩

end Machine

section Run

variable {build : BuildOptions} {config : OtaApiConfig} {url : String}

/-- Nobody clears the request before the update releases the slot. -/
theorem heeded_after {a : Activation} (hs : a.Sound build) (hpoll : a.Polled) {m : Moment}
    (hm : m ∈ a.aborts) (howned : a.owned m = true) :
    ∀ e ∈ a.trace.drop m.answered, Heeded e := by
  rintro e he rfl
  obtain ⟨u, v, hdrop⟩ := List.append_of_mem he
  have htrace : a.trace = (a.trace.take m.answered ++ u) ++ ⟨.abortRequested, false⟩ :: v := by
    rw [List.append_assoc, ← hdrop, List.take_append_drop]
  have hle : m.answered ≤ (a.trace.take m.answered ++ u).length := by
    rw [List.length_append, List.length_take, Nat.min_eq_left (hs.answered_le hm)]
    exact Nat.le_add_right _ _
  have hseen := (hpoll _ _ _ htrace).mpr ⟨m, hm, howned, hle⟩
  cases hseen

theorem holding_callsLeft {ph : Phase} (h : ph.slotUse = (1, 0)) : ph.callsLeft ≤ 13 := by
  cases ph with
  | claiming => simp [Phase.slotUse] at h
  | _ => simp [Phase.callsLeft]

/-- What is left of an update at a moment is what it does from one of its phases on,
with a request in place if one was accepted by then. -/
theorem after_abort {a : Activation} (hs : a.Sound build) (hu : a.Updates config url)
    (hpoll : a.Polled) {m : Moment} (hm : m ∈ a.aborts) (howned : a.owned m = true) :
    ∃ p q : Phase, ∃ v : List Event, Path (Move build config url) p v q ∧
      p.slotUse = (1, 0) ∧ (∀ e ∈ v, Heeded e) ∧
      a.calls.drop m.answered = v.map Interaction.Event.call ++ (q.next? build config).toList := by
  obtain ⟨q, hpath, hprog⟩ := update_path hs hu
  have hlen : (a.trace.take m.answered).length = m.answered := by
    rw [List.length_take, Nat.min_eq_left (hs.answered_le hm)]
  rw [← List.take_append_drop m.answered a.trace] at hpath
  obtain ⟨p, hbefore, hafter⟩ := hpath.split
  refine ⟨p, q, _, hafter, (path_holds hbefore).mp howned, heeded_after hs hpoll hm howned, ?_⟩
  have hnext : a.next? = q.next? build config := update_next? hprog
  have hle : m.answered ≤ (a.trace.map Interaction.Event.call).length := by
    rw [List.length_map]
    exact hs.answered_le hm
  rw [Activation.calls, hnext, List.drop_append_of_le_length hle, List.map_drop]

/-- What an abort accepted at a moment leaves an update to do. -/
structure AbortLatency (config : OtaApiConfig) (a : Activation) (m : Moment) : Prop where
  performs : (a.callsAfter m).countP Call.isPerform ≤ 1
  reports : (a.unforcedAfter m).countP Call.isReport ≤ 1
  bounded : (a.callsAfter m).length ≤ 13
  /-- A chunk whose check comes after the acceptance is the last thing but the end. -/
  unwinds : ∀ u h v, a.trace = u ++ ⟨.httpsOtaPerform h, espErrHttpsOtaInProgress⟩ :: v →
    m.answered ≤ u.length + 1 →
    v.map Interaction.Event.call ++ a.next?.toList <+: unwinding config h ∧
      (a.next? = none → a.result? = some espErrNotFinished ∧ ∃ r, ⟨.httpsOtaAbort h, r⟩ ∈ a.trace)

/-- Whenever the abort was accepted, and whatever others did meanwhile. -/
theorem abort_latency {ls : List Label} {i : Nat} {a : Activation}
    (ha : (System.run build ls).activations[i]? = some a) (hu : a.Updates config url)
    {m : Moment} (hm : m ∈ a.aborts) (howned : a.owned m = true) : AbortLatency config a m := by
  have hs : a.Sound build := run_sound ha
  have hpoll := run_polled ha
  obtain ⟨p, q, v, hafter, hheld, hheeded, hcalls⟩ := after_abort hs hu hpoll hm howned
  have hsub : a.callsAfter m <:+ a.calls.drop m.answered := by
    rw [Activation.callsAfter, ← List.drop_drop]
    exact List.drop_suffix _ _
  rw [hcalls] at hsub
  constructor
  case performs =>
    calc (a.callsAfter m).countP Call.isPerform
        ≤ p.performsLeft := Nat.le_trans (hsub.sublist.countP_le) (performs_left hafter hheeded)
      _ ≤ 1 := by cases p <;> simp [Phase.performsLeft]
  case reports =>
    have hunforced : (a.unforcedAfter m).countP Call.isReport ≤
        unforcedReports (a.calls.drop m.answered) := by
      rw [Activation.unforcedAfter, ← List.drop_drop]
      apply Nat.le_trans (List.drop_suffix _ _).sublist.countP_le
      exact (drop_takeWhile_leads _ _ _).sublist.countP_le
    rw [hcalls] at hunforced
    calc (a.unforcedAfter m).countP Call.isReport
        ≤ p.reportsLeft := Nat.le_trans hunforced (reports_left hafter hheeded)
      _ ≤ 1 := by cases p <;> simp [Phase.reportsLeft]
  case bounded =>
    calc (a.callsAfter m).length
        ≤ p.callsLeft := Nat.le_trans hsub.length_le (calls_left hafter hheeded)
      _ ≤ 13 := holding_callsLeft hheld
  case unwinds =>
    intro u h w htrace hle
    obtain ⟨ph, hpath, hprog⟩ := update_path hs hu
    rw [htrace] at hpath
    obtain ⟨_, _, _, move, hrest⟩ := hpath.at_event
    cases move with
    | interrupted hne _ => exact absurd rfl hne
    | inProgress =>
      have hlate : ∀ e ∈ w, Heeded e := by
        intro e he
        refine heeded_after hs hpoll hm howned e ?_
        rw [htrace, ← List.singleton_append, ← List.append_assoc,
          List.drop_append_of_le_length (by simpa using hle)]
        exact List.mem_append_right _ he
      have hnext : a.next? = ph.next? build config := update_next? hprog
      rw [hnext]
      obtain ⟨hleads, hend⟩ := polling_unwinds hrest hlate
      refine ⟨hleads, ?_⟩
      intro hn
      obtain ⟨rfl, r, hr⟩ := hend hn
      refine ⟨?_, r, ?_⟩
      · rw [Activation.result?, hprog]
        rfl
      · rw [htrace]
        exact List.mem_append_right _ (List.mem_cons_of_mem _ hr)

/-- An abort accepted while a chunk is being received, among other calls. -/
theorem abort_latency_on_chunk :
    ∃ a m, (System.run sampleBuild abortOnChunkAmongOthers).activations[0]? = some a ∧
      m ∈ a.aborts ∧ AbortLatency sampleConfig a m := by
  have hrun : ((System.run sampleBuild abortOnChunkAmongOthers).activations[0]?).map
      (fun a => (a.routine, a.aborts.map fun m => (m, a.owned m))) =
      some (.otaApiUpdate (some sampleConfig), [(⟨6, true⟩, true), (⟨11, false⟩, false)]) := by
    decide +kernel
  obtain ⟨a, ha, hview⟩ := Option.map_eq_some_iff.mp hrun
  obtain ⟨hroutine, haborts⟩ := Prod.mk.inj hview
  have hmem : ((⟨6, true⟩, true) : Moment × Bool) ∈ a.aborts.map fun m => (m, a.owned m) := by
    simp [haborts]
  obtain ⟨m, hm, heq⟩ := List.mem_map.mp hmem
  exact ⟨a, m, ha, hm, abort_latency ha ⟨hroutine, rfl⟩ hm (Prod.mk.inj heq).2⟩

end Run

end OtaApi
