import OtaApi.Background
import OtaApi.Undisturbed

/-!
# What each function calls

Which of the functions of the component makes which calls, what becomes of the stacks
and the activations when a call is entered, answered or returned from, and when the
claim of an update is granted.
-/

namespace OtaApi

open Interaction

section Calls

variable {build : BuildOptions}

/-- An update goes through its critical sections, and calls nothing that starts or ends
a task. -/
theorem update_call {a : Activation} (hs : a.Sound build) {config : Option OtaApiConfig}
    (hr : a.routine = .otaApiUpdate config) {c : Call} {k : Answer c → Program EspErr}
    (ht : a.prog.turn = .call c k) : c.outward = true ∨ c.critical = true := by
  have hnext := next?_of_turn ht
  cases hu : config.bind OtaApiConfig.url with
  | none =>
    obtain ⟨_, hprog⟩ := invalid_stopped hs hr hu
    rw [Activation.next?, hprog] at hnext
    cases hnext
  | some url =>
    obtain ⟨config, rfl, hurl⟩ := Option.bind_eq_some_iff.mp hu
    obtain ⟨ph, _, hprog⟩ := update_path hs ⟨hr, hurl⟩
    rw [update_next? hprog] at hnext
    cases ph <;> cases hnext <;> first | exact .inl rfl | exact .inr rfl

/-- Only `ota_task()` calls the update by itself. -/
theorem calling_task {a : Activation} (hs : a.Sound build) {config : OtaApiConfig}
    (hn : a.next? = some (.otaApiUpdate config)) : a.routine = .otaTask config := by
  obtain ⟨k, ht⟩ := Turn.eq_call hn
  cases hr : a.routine with
  | otaApiUpdate c =>
    obtain h | h := update_call hs hr ht <;> cases h
  | otaApiStartTask c =>
    cases c with
    | none =>
      have hnone := (startTask_invalid hs hr rfl).2
      rw [hn] at hnone
      cases hnone
    | some c => obtain h | h | ⟨_, _, h, _⟩ := (startTask_cases hs hr).1 _ hn <;> cases h
  | otaTask c =>
    obtain ⟨_, h⟩ | ⟨_, h⟩ | ⟨r, _, h⟩ := otaTask_state hs hr
    · rw [hn] at h
      cases h
    · rw [hn] at h
      cases h
      rfl
    · rw [hn] at h
      split at h <;> cases h

/-- Only `ota_api_start_task()` creates a task, with its own configuration. -/
theorem creating_start {a : Activation} (hs : a.Sound build) {size priority : UInt32}
    {config : OtaApiConfig} (hn : a.next? = some (.taskCreate size priority config)) :
    a.routine = .otaApiStartTask (some config) := by
  obtain ⟨k, ht⟩ := Turn.eq_call hn
  cases hr : a.routine with
  | otaApiUpdate c =>
    obtain h | h := update_call hs hr ht <;> cases h
  | otaApiStartTask c =>
    cases c with
    | none =>
      have hnone := (startTask_invalid hs hr rfl).2
      rw [hn] at hnone
      cases hnone
    | some c =>
      obtain h | h | ⟨_, _, h, _⟩ := (startTask_cases hs hr).1 _ hn
      · cases h
      · cases h
      · cases h
        rfl
  | otaTask c =>
    obtain ⟨_, h⟩ | ⟨_, h⟩ | ⟨r, _, h⟩ := otaTask_state hs hr
    · rw [hn] at h
      cases h
    · rw [hn] at h
      cases h
    · rw [hn] at h
      split at h <;> cases h

end Calls

section Effects

variable {build : BuildOptions}

theorem entering_outward {s : System} {τ : Task} {c : Call} (hc : c.outward = true) :
    s.entering build τ c = { s with flash := s.flash.entering c } := by
  cases c <;> first | rfl | cases hc

theorem answering_outward {s : System} {c : Call} {answer : Answer c} (hc : c.outward = true) :
    s.answering build ⟨c, answer⟩ = { s with flash := s.flash.answering ⟨c, answer⟩ } := by
  cases c <;> first | rfl | cases hc

theorem criticalSection_critical {slot slot' : RunState} {c : Call} {answer : Answer c}
    (h : criticalSection slot c = some (answer, slot')) : c.critical = true := by
  cases c with
  | claimUpdateSlot => rfl
  | releaseUpdateSlot => rfl
  | abortRequested => rfl
  | _ => cases h

/-- The last activation of a task leaves nothing behind. -/
theorem leave_alone {s : System} {τ : Task} {i : Nat} {r : EspErr} (hstack : s.stack τ = [i]) :
    s.leave τ r = { s with stack := Function.update s.stack τ [] } := by
  simp [System.leave, System.current?, hstack]

/-- What a return does: the top goes away, and the one below it may get the result. -/
theorem leave_cases (s : System) (τ : Task) (r : EspErr) :
    (s.leave τ r).stack = Function.update s.stack τ (s.stack τ).tail ∧
      ((s.leave τ r).activations = s.activations ∨
        ∃ m b, m ∈ s.stack τ ∧ (s.leave τ r).activations = s.activations.set m b) := by
  simp only [System.leave]
  split
  · exact ⟨rfl, .inl rfl⟩
  · rename_i m b hcur
    obtain ⟨rest, hhead⟩ := current?_head hcur
    have hhead : (s.stack τ).tail = m :: rest := by simpa using hhead
    have hmem : m ∈ s.stack τ := List.mem_of_mem_tail (hhead ▸ List.mem_cons_self)
    split
    · split
      · exact ⟨rfl, .inr ⟨m, _, hmem, rfl⟩⟩
      · exact ⟨rfl, .inl rfl⟩
    · exact ⟨rfl, .inl rfl⟩

theorem call_stack (s : System) {τ τ' : Task} (r : Routine) (hne : τ' ≠ τ) :
    (s.call build τ r).stack τ' = s.stack τ' := Function.update_of_ne hne _ _

theorem entering_stack (s : System) (τ τ' : Task) (c : Call) (hne : τ' ≠ τ) :
    (s.entering build τ c).stack τ' = s.stack τ' := by
  cases c with
  | otaApiUpdate config => exact call_stack _ _ hne
  | _ => rfl

/-- A call that is entered adds an activation when it is the one of an update. -/
theorem entering_activations (s : System) (τ : Task) (c : Call) :
    ∃ new, (s.entering build τ c).activations = s.activations ++ new ∧
      ∀ a ∈ new, ∃ config, c = .otaApiUpdate config ∧
        a = .start build (.otaApiUpdate (some config)) := by
  cases c with
  | otaApiUpdate config => exact ⟨_, rfl, by simp⟩
  | _ => exact ⟨[], (List.append_nil _).symm, by simp⟩

/-- An answer adds one when it is a task. -/
theorem answering_activations (s : System) (e : Event) :
    ∃ new, (s.answering build e).activations = s.activations ++ new ∧
      ∀ a ∈ new, ∃ size priority config, e = ⟨.taskCreate size priority config, true⟩ ∧
        a = .start build (.otaTask config) := by
  obtain ⟨c, answer⟩ := e
  cases c with
  | taskCreate size priority config =>
    cases answer with
    | true => exact ⟨_, rfl, by simp⟩
    | false => exact ⟨[], (List.append_nil _).symm, by simp⟩
  | _ => exact ⟨[], (List.append_nil _).symm, by simp⟩

/-- Only a task that is new gets something onto its stack by what another one is answered. -/
theorem answering_stack (s : System) (e : Event) (τ : Task)
    (hold : ∀ n, τ = .spawned n → n < s.activations.length) :
    (s.answering build e).stack τ = s.stack τ := by
  obtain ⟨c, answer⟩ := e
  cases c with
  | taskCreate _ _ config =>
    cases answer with
    | true =>
      refine Function.update_of_ne (fun heq => ?_) _ _
      exact Nat.lt_irrefl _ (hold _ heq)
    | false => rfl
  | _ => rfl

/-- Where a new activation comes from. -/
inductive Added (build : BuildOptions) (s : System) : Label → Activation → Prop where
  | update {τ : Task} {config : Option OtaApiConfig} :
      Added build s (.otaApiUpdate τ config) (.start build (.otaApiUpdate config))
  | startTask {τ : Task} {config : Option OtaApiConfig} :
      Added build s (.otaApiStartTask τ config) (.start build (.otaApiStartTask config))
  | called {τ : Task} {i : Nat} {a : Activation} {config : OtaApiConfig}
      (hcur : s.current? τ = some (i, a)) (hnext : a.next? = some (.otaApiUpdate config))
      (he : a.entered = false) :
      Added build s (.advance τ) (.start build (.otaApiUpdate (some config)))
  | created {τ : Task} {reply : Reply} {i : Nat} {a : Activation} {size priority : UInt32}
      {config : OtaApiConfig} (hcur : s.current? τ = some (i, a))
      (hnext : a.next? = some (.taskCreate size priority config)) (he : a.entered = true) :
      Added build s (.answer τ reply) (.start build (.otaTask config))

theorem step_added {s : System} {l : Label} {i : Nat} {a' : Activation}
    (hnone : s.activations[i]? = none) (ha' : (s.step build l).activations[i]? = some a') :
    Added build s l a' := by
  have hbranch := @step_branch build s l
  generalize s.step build l = s' at hbranch ha'
  have added : ∀ {acts new : List Activation}, acts.length = s.activations.length →
      s'.activations = acts ++ new → a' ∈ new := by
    intro acts new hlen hact
    have hle : acts.length ≤ i := by
      rw [hlen]
      simpa using hnone
    rw [hact, List.getElem?_append_right hle] at ha'
    exact List.mem_of_getElem? ha'
  have absent : s'.activations.length = s.activations.length → False := by
    intro hlen
    obtain ⟨hlt, _⟩ := List.getElem?_eq_some_iff.mp ha'
    have hle : s.activations.length ≤ i := by simpa using hnone
    omega
  cases hbranch with
  | idle => exact (absent rfl).elim
  | update _ _ =>
    obtain rfl := List.mem_singleton.mp (added rfl rfl)
    exact .update
  | startTask _ _ =>
    obtain rfl := List.mem_singleton.mp (added rfl rfl)
    exact .startTask
  | abort _ _ =>
    refine (absent ?_).elim
    unfold System.abort
    dsimp only
    split
    · exact List.length_map _
    · rfl
  | @returned τ j a r _ hcur hd =>
    obtain ⟨_, hact | ⟨m, b, _, hact⟩⟩ := leave_cases s τ r
    · exact (absent (by rw [hact])).elim
    · exact (absent (by rw [hact, List.length_set])).elim
  | passed _ _ _ _ _ => exact (absent (List.length_set ..)).elim
  | @entered τ j a c k _ hcur ht he _ =>
    obtain ⟨new, hact, hnew⟩ := @entering_activations build (s.put j a.enter) τ c
    obtain ⟨config, rfl, rfl⟩ := hnew a' (added (List.length_set ..) hact)
    exact .called hcur (next?_of_turn ht) he
  | @answered τ reply j a c k answer _ hcur ht he _ =>
    obtain ⟨new, hact, hnew⟩ :=
      @answering_activations build (s.put j (a.resume k answer)) ⟨c, answer⟩
    obtain ⟨size, priority, config, hevent, rfl⟩ := hnew a' (added (List.length_set ..) hact)
    cases hevent
    exact .created hcur (next?_of_turn ht) he

/-- What is not added was there before. -/
theorem step_old {s : System} {l : Label} {i : Nat} {a' : Activation}
    (ha' : (s.step build l).activations[i]? = some a') (hnot : ¬Added build s l a') :
    ∃ a, s.activations[i]? = some a ∧ a.routine = a'.routine := by
  obtain ⟨a, ha, hev⟩ | ⟨hnone, _⟩ := (@step_change build s l).origin ha'
  · exact ⟨a, ha, hev.routine_eq.symm⟩
  · exact absurd (step_added hnone ha') hnot

end Effects

section Update

variable {build : BuildOptions}

/-- What an update on top of its task does by itself. -/
inductive Goes (slot : RunState) (a : Activation) : Activation → Prop where
  | waits (he : a.entered = true) : Goes slot a a
  | enters {c : Call} {k : Answer c → Program EspErr} (ht : a.prog.turn = .call c k)
      (he : a.entered = false) (hc : c.critical = false) : Goes slot a a.enter
  | passes {c : Call} {k : Answer c → Program EspErr} {answer : Answer c} {slot' : RunState}
      (ht : a.prog.turn = .call c k) (he : a.entered = false)
      (hc : criticalSection slot c = some (answer, slot')) : Goes slot a (a.resume k answer)

theorem Goes.evolves {slot : RunState} {a a' : Activation} (h : Goes slot a a') :
    Evolves slot a a' := by
  cases h with
  | waits _ => exact .same
  | enters ht he hc => exact .entered ht he hc
  | passes ht he hc => exact .passed ht he hc

theorem set_self {s : System} {i : Nat} {a : Activation} (ha : s.activations[i]? = some a) :
    s.activations.set i a = s.activations := by
  obtain ⟨hlt, rfl⟩ := List.getElem?_eq_some_iff.mp ha
  exact List.set_getElem_self hlt

/-- It stays on top, and nobody else is touched. -/
theorem update_advance {s : System} {τ : Task} {i : Nat} {a : Activation}
    {config : Option OtaApiConfig} (hlive : s.restarted = false) (hcur : s.current? τ = some (i, a))
    (hs : a.Sound build) (hr : a.routine = .otaApiUpdate config) (hnone : a.result? = none) :
    ∃ a', Goes s.slot a a' ∧ (s.step build (.advance τ)).restarted = false ∧
      (s.step build (.advance τ)).stack = s.stack ∧
      (s.step build (.advance τ)).activations = s.activations.set i a' := by
  cases ht : a.prog.turn with
  | done r =>
    rw [Activation.result?, ht] at hnone
    cases hnone
  | call c k =>
    cases he : a.entered with
    | true =>
      have hstep : s.step build (.advance τ) = s := by
        simp [System.step, System.advance, hcur, ht, he]
      rw [hstep]
      exact ⟨a, .waits he, hlive, rfl, (set_self (current?_get hcur)).symm⟩
    | false =>
      cases hc : criticalSection s.slot c with
      | some r =>
        obtain ⟨answer, slot⟩ := r
        rw [step_passing hlive hcur ht he hc]
        exact ⟨_, .passes ht he hc, hlive, rfl, rfl⟩
      | none =>
        have hcrit := criticalSection_none hc
        have hout : c.outward = true := (update_call hs hr ht).resolve_right (by simp [hcrit])
        rw [step_entering hlive hcur ht he hc, entering_outward hout]
        exact ⟨_, .enters ht he hcrit, hlive, rfl, rfl⟩

/-- So it is when what it has called comes back. -/
theorem update_answer {s : System} {τ : Task} {i : Nat} {a : Activation}
    {config : Option OtaApiConfig} (hcur : s.current? τ = some (i, a)) (hs : a.Sound build)
    (hr : a.routine = .otaApiUpdate config) (reply : Reply) :
    s.step build (.answer τ reply) = s ∨ ∃ (c : Call) (k : Answer c → Program EspErr) (answer : Answer c),
      a.prog.turn = .call c k ∧ a.entered = true ∧ reply.answer? c = some answer ∧
      (s.step build (.answer τ reply)).restarted = false ∧
      (s.step build (.answer τ reply)).stack = s.stack ∧
      (s.step build (.answer τ reply)).activations = s.activations.set i (a.resume k answer) := by
  have hbranch := @step_branch build s (.answer τ reply)
  generalize s.step build (.answer τ reply) = s' at hbranch ⊢
  cases hbranch with
  | idle => exact .inl rfl
  | @answered _ _ j b c k answer hrun hcur' ht he ha =>
    rw [hcur] at hcur'
    cases hcur'
    have hcrit := answer?_not_critical ha
    have hout : c.outward = true := (update_call hs hr ht).resolve_right (by simp [hcrit])
    rw [answering_outward hout]
    exact .inr ⟨c, k, answer, ht, he, ha, hrun, rfl, rfl⟩

end Update

section Slot

variable {build : BuildOptions}

/-- An activation that has returned holds nothing. -/
theorem returned_free {ls : List Label} {i : Nat} {a : Activation} {r : EspErr}
    (ha : (System.run build ls).activations[i]? = some a) (hr : a.result? = some r) :
    a.holds = false := by
  have heq := (run_singleSlot ls).returned i a r ha hr
  by_contra hholds
  have hpos := holds_iff.mp (by simpa using hholds)
  omega

/-- A claim is granted when nobody else holds the slot. -/
theorem claim_unopposed {ls : List Label} {i : Nat} {a : Activation} {k : Bool → Program EspErr}
    (ha : (System.run build ls).activations[i]? = some a)
    (ht : a.prog.turn = .call .claimUpdateSlot k)
    (hfree : ∀ j b, j ≠ i → (System.run build ls).activations[j]? = some b → b.holds = false) :
    (System.run build ls).slot.sRunning = false := by
  by_contra hrunning
  obtain ⟨j, b, hb, hholds⟩ := (run_singleSlot ls).running.mp (by simpa using hrunning)
  by_cases hij : j = i
  · subst hij
    rw [ha] at hb
    cases hb
    obtain ⟨_, htrace⟩ | ⟨_, h | h⟩ := critical_phase (run_sound ha) ht rfl
    · simp [Activation.holds, htrace] at hholds
    · cases h
    · cases h
  · rw [hfree j b hij hb] at hholds
    cases hholds

/-- The activation has not been turned away from the slot. -/
def Activation.Granted (a : Activation) : Prop := (⟨.claimUpdateSlot, false⟩ : Event) ∉ a.trace

theorem granted_start (r : Routine) : (Activation.start build r).Granted := List.not_mem_nil

/-- An activation is turned away only when it claims a slot that is taken. -/
theorem Evolves.granted {slot : RunState} {a a' : Activation} (h : Evolves slot a a')
    (hfree : ∀ k, a.prog.turn = .call .claimUpdateSlot k → slot.sRunning = false)
    (ha : a.Granted) : a'.Granted := by
  cases h with
  | same => exact ha
  | entered _ _ _ => exact ha
  | noticed _ => exact ha
  | @answered c k answer ht _ hc =>
    intro hmem
    obtain hold | hnew := List.mem_append.mp hmem
    · exact ha hold
    · cases List.mem_singleton.mp hnew
      cases hc
  | @passed c k answer slot' ht _ hc =>
    intro hmem
    obtain hold | hnew := List.mem_append.mp hmem
    · exact ha hold
    · cases List.mem_singleton.mp hnew
      simp [criticalSection, otaApiClaimUpdateSlot, hfree k ht] at hc

end Slot

end OtaApi
