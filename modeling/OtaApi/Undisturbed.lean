import OtaApi.Activations

/-!
# An update that nobody disturbs

The runs of an update that finds the slot free and is not asked to stop all happen:
each of them is what one task does in some interleaving. So a fault of the update
machine is a fault of the system.
-/

namespace OtaApi

open Interaction

section Undisturbed

variable {build : BuildOptions} {config : OtaApiConfig} {url : String}

/-- One task is in one activation, and there is nothing else. -/
structure Alone (s : System) (a : Activation) : Prop where
  live : s.restarted = false
  stack : s.stack (.app 0) = [0]
  only : s.activations = [a]
  unasked : s.slot.sAbortRequested = false

/-- The calls that do nothing but come back with an answer, as far as tasks go. -/
def Call.outward : Call → Bool
  | .taskCreate _ _ _ => false
  | .otaApiUpdate _ => false
  | .restart => false
  | .taskDelete => false
  | c => !c.critical

/-- Whatever such a call comes back with, there is a reply for it. -/
theorem exists_reply {c : Call} (hc : c.outward = true) (answer : Answer c) :
    ∃ reply : Reply, reply.answer? c = some answer := by
  cases c with
  | claimUpdateSlot => cases hc
  | releaseUpdateSlot => cases hc
  | abortRequested => cases hc
  | netifGetNetifImplName n => exact ⟨.named answer.1 answer.2, rfl⟩
  | httpsOtaBegin c => exact ⟨.handle answer.1 answer.2, rfl⟩
  | httpsOtaGetImgDesc h => exact ⟨.appDesc answer.1 answer.2, rfl⟩
  | httpsOtaGetImageSize h => exact ⟨.int answer, rfl⟩
  | httpsOtaPerform h => exact ⟨.err answer, rfl⟩
  | httpsOtaGetImageLenRead h => exact ⟨.int answer, rfl⟩
  | httpsOtaIsCompleteDataReceived h => exact ⟨.flag answer, rfl⟩
  | httpsOtaFinish h => exact ⟨.err answer, rfl⟩
  | httpsOtaAbort h => exact ⟨.err answer, rfl⟩
  | timerGetTime => exact ⟨.time answer, rfl⟩
  | eventCb cb event ctx => exact ⟨.err answer, rfl⟩
  | malloc => exact ⟨.flag answer, rfl⟩
  | free => exact ⟨.none, rfl⟩
  | taskCreate _ _ _ => cases hc
  | otaApiUpdate _ => cases hc
  | restart => cases hc
  | taskDelete => cases hc

/-- An update makes no other calls, its critical sections apart. -/
theorem Move.outward {p q : Phase} {e : Event} (m : Move build config url p e q) :
    e.call.outward = true ∨ e.call.critical = true := by
  cases m <;> first | exact .inl rfl | exact .inr rfl

theorem Alone.current {s : System} {a : Activation} (h : Alone s a) :
    s.current? (.app 0) = some (0, a) :=
  current?_alone h.stack (by rw [h.only]; rfl)

theorem Alone.passed {s : System} {a : Activation} {c : Call} {k : Answer c → Program EspErr}
    {answer : Answer c} {slot : RunState} (h : Alone s a) (ht : a.prog.turn = .call c k)
    (he : a.entered = false) (hc : criticalSection s.slot c = some (answer, slot))
    (hunasked : slot.sAbortRequested = false) :
    Alone (s.step build (.advance (.app 0))) (a.resume k answer) := by
  rw [step_passing h.live h.current ht he hc]
  refine ⟨h.live, h.stack, ?_, hunasked⟩
  simp [System.put, h.only]

theorem Alone.entered {s : System} {a : Activation} {c : Call} {k : Answer c → Program EspErr}
    (h : Alone s a) (ht : a.prog.turn = .call c k) (he : a.entered = false)
    (hc : c.outward = true) : Alone (s.step build (.advance (.app 0))) a.enter := by
  have hnone : criticalSection s.slot c = none := by
    cases c <;> first | rfl | cases hc
  have hplain : (s.put 0 a.enter).entering build (.app 0) c =
      { s.put 0 a.enter with flash := s.flash.entering c } := by
    cases c <;> first | rfl | cases hc
  rw [step_entering h.live h.current ht he hnone, hplain]
  refine ⟨h.live, h.stack, ?_, h.unasked⟩
  simp [System.put, h.only]

theorem Alone.answered {s : System} {a : Activation} {c : Call} {k : Answer c → Program EspErr}
    {answer : Answer c} {reply : Reply} (h : Alone s a) (ht : a.prog.turn = .call c k)
    (he : a.entered = true) (hc : c.outward = true) (ha : reply.answer? c = some answer) :
    Alone (s.step build (.answer (.app 0) reply)) (a.resume k answer) := by
  have hplain : (s.put 0 (a.resume k answer)).answering build ⟨c, answer⟩ =
      { s.put 0 (a.resume k answer) with flash := s.flash.answering ⟨c, answer⟩ } := by
    cases c <;> first | rfl | cases hc
  rw [step_answering h.live h.current ht he ha, hplain]
  refine ⟨h.live, h.stack, ?_, h.unasked⟩
  simp [System.put, h.only]

/-- The slot lets a lone activation through as if it were the only one there is. -/
theorem criticalSection_alone {s : RunState} {c : Call} (hc : c.critical = true) (answer : Answer c)
    (hfree : c = .claimUpdateSlot → s.sRunning = false) (hunasked : s.sAbortRequested = false)
    (hclaim : (⟨c, answer⟩ : Event) ≠ ⟨.claimUpdateSlot, false⟩)
    (hpoll : (⟨c, answer⟩ : Event) ≠ ⟨.abortRequested, true⟩) :
    ∃ slot, criticalSection s c = some (answer, slot) ∧ slot.sAbortRequested = false := by
  cases c with
  | claimUpdateSlot =>
    cases answer with
    | false => exact absurd rfl hclaim
    | true =>
      refine ⟨⟨true, false⟩, ?_, rfl⟩
      simp [criticalSection, otaApiClaimUpdateSlot, hfree rfl]
  | releaseUpdateSlot => exact ⟨_, rfl, rfl⟩
  | abortRequested =>
    cases answer with
    | false =>
      refine ⟨s, ?_, hunasked⟩
      simp [criticalSection, otaApiAbortRequested, hunasked]
    | true => exact absurd rfl hpoll
  | _ => cases hc

/-- A run of the machine is what one task has done in some interleaving. -/
def Realised (build : BuildOptions) (config : OtaApiConfig) (url : String) (t : List Event) (ph : Phase) :
    Prop :=
  ∃ ls a, Alone (System.run build ls) a ∧ a.Updates config url ∧ a.trace = t ∧
    a.prog = prog build config url ph ∧ a.entered = false ∧
    -- so that the claim, which comes first, is granted
    (t = [] → (System.run build ls).slot.sRunning = false)

theorem Realised.start (hu : config.url = some url) : Realised build config url [] .claiming := by
  refine ⟨[.otaApiUpdate (.app 0) (some config)], .start build (.otaApiUpdate (some config)), ?_,
    ⟨rfl, hu⟩, rfl, otaApiUpdate_prog hu, rfl, fun _ => rfl⟩
  exact ⟨rfl, rfl, rfl, rfl⟩

/-- One more arrow: a critical section is passed at once, and any other call is
entered and comes back with the answer. -/
theorem Realised.snoc {t : List Event} {p q : Phase} {e : Event} (h : Realised build config url t p)
    (hpath : Path (Move build config url) .claiming t p) (m : Move build config url p e q)
    (hclaim : e ≠ ⟨.claimUpdateSlot, false⟩) (hpoll : e ≠ ⟨.abortRequested, true⟩) :
    Realised build config url (t ++ [e]) q := by
  obtain ⟨c, answer⟩ := e
  obtain ⟨ls, a, halone, hu, htrace, hprog, he, hfree⟩ := h
  obtain ⟨k, ht, hk⟩ := m.taken
  have hturn : a.prog.turn = .call c k := by rw [hprog, ht]
  have htrace' : (a.resume k answer).trace = t ++ [⟨c, answer⟩] := by
    rw [← htrace]
    rfl
  obtain hc | hc := m.outward
  · obtain ⟨reply, hreply⟩ := exists_reply hc answer
    refine ⟨ls ++ [.advance (.app 0), .answer (.app 0) reply], a.resume k answer, ?_, hu, htrace', hk,
      rfl, by simp⟩
    rw [System.run, exec_append]
    exact (halone.entered hturn he hc).answered hturn rfl hc hreply
  · have hstart : c = .claimUpdateSlot → (System.run build ls).slot.sRunning = false := by
      rintro rfl
      apply hfree
      cases m <;> exact path_facts hpath
    obtain ⟨slot, hcs, hunasked⟩ := criticalSection_alone hc answer hstart halone.unasked hclaim hpoll
    refine ⟨ls ++ [.advance (.app 0)], a.resume k answer, ?_, hu, htrace', hk, rfl, by simp⟩
    rw [System.run, exec_append]
    exact halone.passed hturn he hcs hunasked

/-- Every run of the machine that finds the slot free and no request to stop happens. -/
theorem path_realised (hu : config.url = some url) {t : List Event} {ph : Phase}
    (h : Path (Move build config url) .claiming t ph) :
    (⟨.claimUpdateSlot, false⟩ : Event) ∉ t → (⟨.abortRequested, true⟩ : Event) ∉ t →
      Realised build config url t ph := by
  have keep : ∀ (s : List Event) (p : Phase) (e : Event) (q : Phase),
      Path (Move build config url) .claiming s p →
      ((⟨.claimUpdateSlot, false⟩ : Event) ∉ s → (⟨.abortRequested, true⟩ : Event) ∉ s →
        Realised build config url s p) → Move build config url p e q →
      (⟨.claimUpdateSlot, false⟩ : Event) ∉ s ++ [e] → (⟨.abortRequested, true⟩ : Event) ∉ s ++ [e] →
        Realised build config url (s ++ [e]) q := by
    intro s p e q hpath ih m hclaim hpoll
    simp only [List.mem_append, List.mem_singleton, not_or] at hclaim hpoll
    exact (ih hclaim.1 hpoll.1).snoc hpath m (Ne.symm hclaim.2) (Ne.symm hpoll.2)
  exact Path.invariant keep h fun _ _ => .start hu

end Undisturbed

end OtaApi
