import OtaApi.Heap
import OtaApi.Placement

/-!
# How an update comes to its end

Only the server can prolong an update: every chunk that leaves something to be asked for
costs a bounded number of calls, and everything else leads closer to the end. So the
task that holds the slot can always be brought to the point where it gives it back,
whatever it is in the middle of and whatever the other tasks do not do.
-/

namespace OtaApi

open Interaction

/-- A chunk after which the server has more to send. -/
def isChunk : Event → Bool
  | ⟨.httpsOtaPerform _, err⟩ => decide (err = espErrHttpsOtaInProgress)
  | _ => false

/-- The calls on the longest way out on which no such chunk comes in. -/
def Phase.wayOut : Phase → Nat
  | .claiming => 14
  | .refused _ => 0
  | .naming _ _ => 13
  | .connecting _ => 12
  | .notifying _ _ => 11
  | .inspecting _ => 10
  | .offering _ _ _ => 9
  | .sizing _ => 8
  | .performing _ _ _ => 7
  | .polling _ _ _ => 11
  | .clocking _ _ _ => 10
  | .measuring _ _ _ => 9
  | .reporting _ _ _ _ _ => 8
  | .verifying _ _ _ => 6
  | .measuringAll _ _ _ => 5
  | .reportingAll _ _ _ _ _ => 4
  | .committing _ => 3
  | .aborting _ _ => 3
  | .releasing _ => 2
  | .announcing _ _ => 1
  | .finished _ => 0

section Machine

variable {build : BuildOptions} {config : OtaApiConfig} {url : String}

theorem Move.wayOut_pays {p q : Phase} {e : Event} (m : Move build config url p e q) :
    1 + q.wayOut ≤ p.wayOut + if isChunk e then 5 else 0 := by
  cases m with
  | inProgress => simp [isChunk, Phase.wayOut]
  | _ => simp [Phase.wayOut] <;> omega

theorem path_wayOut {t : List Event} {ph : Phase}
    (hp : Path (Move build config url) .claiming t ph) :
    t.length + ph.wayOut ≤ 14 + 5 * t.countP isChunk := by
  have keep : ∀ (t : List Event) (q : Phase) (e : Event) (r : Phase),
      Path (Move build config url) .claiming t q →
      t.length + q.wayOut ≤ 14 + 5 * t.countP isChunk → Move build config url q e r →
      (t ++ [e]).length + r.wayOut ≤ 14 + 5 * (t ++ [e]).countP isChunk := by
    intro t q e r _ ih m
    have hpay := m.wayOut_pays
    rw [List.length_append, List.length_singleton, List.countP_append, List.countP_singleton]
    split at hpay <;> rename_i h
    · rw [if_pos h]
      omega
    · rw [if_neg h]
      omega
  have kept := Path.invariant keep hp
  exact kept (Nat.le_refl 14)

end Machine

/-! ## The calls that are left -/

section Left

variable {build : BuildOptions} {a : Activation} {c : Call}

/-- The calls an activation has left, if the server has no more to send. -/
inductive Left (build : BuildOptions) (a : Activation) : Nat → Prop where
  | update {config : OtaApiConfig} {url : String} {ph : Phase} (hu : a.Updates config url)
      (hp : Path (Move build config url) .claiming a.trace ph)
      (hprog : a.prog = prog build config url ph) : Left build a ph.wayOut
  | invalid {config : Option OtaApiConfig} (hr : a.routine = .otaApiUpdate config)
      (hu : config.bind OtaApiConfig.url = none) : Left build a 0
  | start {config : Option OtaApiConfig} (hr : a.routine = .otaApiStartTask config) :
      Left build a (3 - a.trace.length)

theorem exists_left (hs : a.Sound build) (hr : ∀ config, a.routine ≠ .otaTask config) :
    ∃ n, n ≤ 14 ∧ Left build a n := by
  cases hra : a.routine with
  | otaApiUpdate config =>
    cases hu : config.bind OtaApiConfig.url with
    | none => exact ⟨0, by omega, .invalid hra hu⟩
    | some url =>
      obtain ⟨config, rfl, hurl⟩ := Option.bind_eq_some_iff.mp hu
      obtain ⟨ph, hp, hprog⟩ := update_path hs ⟨hra, hurl⟩
      refine ⟨ph.wayOut, ?_, .update ⟨hra, hurl⟩ hp hprog⟩
      cases ph <;> simp [Phase.wayOut]
  | otaApiStartTask config => exact ⟨_, by omega, .start hra⟩
  | otaTask config => exact absurd hra (hr config)

/-- A start has made no more than two calls when it is about to make another one. -/
theorem startTask_length (hs : a.Sound build) {config : Option OtaApiConfig}
    (hr : a.routine = .otaApiStartTask config) (hn : a.next? = some c) : a.trace.length ≤ 2 := by
  cases config with
  | none =>
    rw [(startTask_invalid hs hr rfl).2] at hn
    cases hn
  | some config =>
    have hstate := startTask_state hs hr
    rw [hn] at hstate
    generalize a.trace = t at hstate
    cases hstate with
    | entry => simp
    | copied _ _ => simp
    | refused _ _ => simp

/-- Every call that returns leaves fewer of them, unless it is such a chunk. -/
theorem Left.resume {n : Nat} {k : Answer c → Program EspErr} {answer : Answer c}
    (h : Left build a n) (hs : a.Sound build) (ht : a.prog.turn = .call c k)
    (hchunk : isChunk ⟨c, answer⟩ = false) :
    ∃ m, m < n ∧ Left build (a.resume k answer) m := by
  cases h with
  | @update config url ph hu hp hprog =>
    rw [hprog] at ht
    obtain ⟨q, m, hq⟩ := prog_moves ht answer
    have hpay := m.wayOut_pays
    rw [hchunk] at hpay
    refine ⟨q.wayOut, ?_, .update hu (hp.snoc m) hq⟩
    simp only [Bool.false_eq_true, if_false] at hpay
    omega
  | invalid hr hu =>
    rw [(invalid_stopped hs hr hu).2] at ht
    cases ht
  | start hr =>
    have hlen := startTask_length hs hr (next?_of_turn ht)
    refine ⟨_, ?_, .start hr⟩
    simp only [Activation.resume, List.length_append, List.length_singleton]
    omega

theorem Left.enter {n : Nat} (h : Left build a n) : Left build a.enter n := by
  cases h with
  | update hu hp hprog => exact .update hu hp hprog
  | invalid hr hu => exact .invalid hr hu
  | start hr => exact .start hr

/-- The moves a task has to make to bring an activation to its return and leave it. -/
inductive Cost (build : BuildOptions) (a : Activation) : Nat → Prop where
  | task {config : OtaApiConfig} (hr : a.routine = .otaTask config) : Cost build a 0
  | other {n : Nat} (h : Left build a n) : Cost build a (2 * n + (!a.entered).toNat + 1)

theorem exists_cost (hs : a.Sound build) : ∃ n, n ≤ 30 ∧ Cost build a n := by
  by_cases hr : ∃ config, a.routine = .otaTask config
  · obtain ⟨config, hr⟩ := hr
    exact ⟨0, by omega, .task hr⟩
  · obtain ⟨n, hn, h⟩ := exists_left hs fun config heq => hr ⟨config, heq⟩
    refine ⟨_, ?_, .other h⟩
    have hbit : (!a.entered).toNat ≤ 1 := Bool.toNat_le _
    omega

/-- The moves for everything on a stack. -/
inductive Work (build : BuildOptions) (s : System) : List Nat → Nat → Prop where
  | nil : Work build s [] 0
  | cons {j k n : Nat} {a : Activation} {st : List Nat} (ha : s.activations[j]? = some a)
      (hc : Cost build a k) (h : Work build s st n) : Work build s (j :: st) (k + n)

theorem exists_work {s : System} (hs : ∀ (i : Nat) (a : Activation), s.activations[i]? = some a →
    a.Sound build) (st : List Nat) (hb : ∀ j ∈ st, j < s.activations.length) :
    ∃ n, n ≤ 30 * st.length ∧ Work build s st n := by
  induction st with
  | nil => exact ⟨0, Nat.le_refl _, .nil⟩
  | cons j st ih =>
    obtain ⟨hj, hst⟩ := List.forall_mem_cons.mp hb
    obtain ⟨n, hn, h⟩ := ih hst
    have ha := List.getElem?_eq_getElem hj
    obtain ⟨k, hk, hc⟩ := exists_cost (hs j _ ha)
    refine ⟨k + n, ?_, .cons ha hc h⟩
    rw [List.length_cons]
    omega

/-- What is not made costlier costs no more. -/
theorem Work.keep {s s' : System} {st : List Nat} {n : Nat} (h : Work build s st n)
    (hkeep : ∀ j ∈ st, ∀ a k, s.activations[j]? = some a → Cost build a k →
      ∃ a', s'.activations[j]? = some a' ∧ Cost build a' k) : Work build s' st n := by
  induction h with
  | nil => exact .nil
  | cons ha hc _ ih =>
    obtain ⟨hj, hst⟩ := List.forall_mem_cons.mp hkeep
    obtain ⟨a', ha', hc'⟩ := hj _ _ ha hc
    exact .cons ha' hc' (ih hst)

end Left

/-! ## The task of whoever holds the slot -/

section Underway

variable {build : BuildOptions} {s : System} {τ : Task} {i t : Nat} {b : Activation} {c : Call}

/-- The calls of what `ota_task()` is not. -/
theorem call_kinds (hs : b.Sound build) (hr : ∀ config, b.routine ≠ .otaTask config)
    {k : Answer c → Program EspErr} (ht : b.prog.turn = .call c k) :
    c.critical = true ∨ c.outward = true ∨
      ∃ size priority config, c = .taskCreate size priority config := by
  cases hrb : b.routine with
  | otaApiUpdate config => exact (update_call hs hrb ht).elim (fun h => .inr (.inl h)) .inl
  | otaTask config => exact absurd hrb (hr config)
  | otaApiStartTask config =>
    cases config with
    | none =>
      have hnone := (startTask_invalid hs hrb rfl).2
      rw [next?_of_turn ht] at hnone
      cases hnone
    | some config =>
      have hstate := startTask_state hs hrb
      rw [next?_of_turn ht] at hstate
      generalize b.trace = tr at hstate
      cases hstate with
      | entry => exact .inr (.inl rfl)
      | copied size priority => exact .inr (.inr ⟨size, priority, config, rfl⟩)
      | refused _ _ => exact .inr (.inl rfl)

/-- Every call can come back, and without such a chunk. -/
theorem exists_calm (hc : c.outward = true) : ∃ answer : Answer c, isChunk ⟨c, answer⟩ = false := by
  cases c with
  | claimUpdateSlot => cases hc
  | releaseUpdateSlot => cases hc
  | abortRequested => cases hc
  | netifGetNetifImplName n => exact ⟨(espOk, ""), rfl⟩
  | httpsOtaBegin config => exact ⟨(espFail, 0), rfl⟩
  | httpsOtaGetImgDesc h => exact ⟨(espFail, ⟨"", ""⟩), rfl⟩
  | httpsOtaGetImageSize h => exact ⟨0, rfl⟩
  | httpsOtaPerform h =>
    have hne : espFail ≠ espErrHttpsOtaInProgress := by decide
    exact ⟨espFail, by simp [isChunk, hne]⟩
  | httpsOtaGetImageLenRead h => exact ⟨0, rfl⟩
  | httpsOtaIsCompleteDataReceived h => exact ⟨false, rfl⟩
  | httpsOtaFinish h => exact ⟨espFail, rfl⟩
  | httpsOtaAbort h => exact ⟨espFail, rfl⟩
  | timerGetTime => exact ⟨0, rfl⟩
  | eventCb cb event ctx => exact ⟨espOk, rfl⟩
  | malloc => exact ⟨false, rfl⟩
  | free => exact ⟨(), rfl⟩
  | taskCreate _ _ _ => cases hc
  | otaApiUpdate _ => cases hc
  | restart => cases hc
  | taskDelete => cases hc

/-- The slot is held by an update that is somewhere on the stack of a task, and there is
so much work on that stack. -/
structure Underway (build : BuildOptions) (τ : Task) (i : Nat) (n : Nat) (s : System) : Prop where
  reached : ∃ ls, s = System.run build ls
  live : s.restarted = false
  holder : ∃ a, s.activations[i]? = some a ∧ a.holds = true
  placed : i ∈ s.stack τ
  work : Work build s (s.stack τ) n

theorem reached_step {l : Label} (h : ∃ ls, s = System.run build ls) :
    ∃ ls, s.step build l = System.run build ls := by
  obtain ⟨ls, rfl⟩ := h
  exact ⟨ls ++ [l], (exec_snoc _ ls l).symm⟩

/-- What holds the slot is an update. -/
theorem holder_updates (hs : b.Sound build) (hb : b.holds = true) :
    ∀ config, b.routine ≠ .otaTask config := by
  intro config hr
  obtain ⟨_, _, hu, _⟩ | ⟨hout, _⟩ := updates_or_outside hs
  · rw [hr] at hu
    cases hu
  · have hzero := claims_outside hout
    have hpos := claims_pos_of_holds hb
    omega

/-- `ota_task()` is not on top of a task that is inside of an update. -/
theorem top_not_task {ls : List Label} {rest : List Nat}
    (hstack : (System.run build ls).stack τ = t :: rest) (hi : i ∈ (System.run build ls).stack τ)
    (hb : (System.run build ls).activations[t]? = some b) {a : Activation}
    (ha : (System.run build ls).activations[i]? = some a)
    (hr : ∀ config, a.routine ≠ .otaTask config) : ∀ config, b.routine ≠ .otaTask config := by
  intro config hrb
  have hn := @run_nested build ls
  have hhome : τ = .spawned t := hn.home τ t b config hb hrb (by rw [hstack]; exact List.mem_cons_self)
  subst hhome
  have alone : (System.run build ls).stack (.spawned t) = [t] → False := by
    intro h
    rw [h] at hi
    obtain rfl := List.mem_singleton.mp hi
    rw [ha] at hb
    cases hb
    exact hr config hrb
  cases hn.stage t b config hb hrb with
  | starting h _ => exact alone h
  | back h _ _ _ _ _ _ => exact alone h
  | @waiting u d above hnot hst _ _ _ hget hru =>
    rw [hstack] at hst
    cases above with
    | nil =>
      cases hst
      rw [hb] at hget
      cases hget
      rw [hrb] at hru
      cases hru
    | cons x above =>
      cases hst
      exact hnot List.mem_cons_self

/-- A move of the top that leaves the holder holding. -/
theorem Underway.replace {n k' m : Nat} {l : Label} {b' : Activation} {rest : List Nat}
    (h : Underway build τ i n s) (hstack : s.stack τ = t :: rest)
    (hb : s.activations[t]? = some b) (hm : Work build s rest m)
    (hc' : Cost build b' k') (hstack' : (s.step build l).stack = s.stack)
    (hact : (s.step build l).activations = s.activations.set t b')
    (hlive : (s.step build l).restarted = false) (hholds : b.holds = true → b'.holds = true) :
    Underway build τ i (k' + m) (s.step build l) := by
  obtain ⟨hlt, _⟩ := List.getElem?_eq_some_iff.mp hb
  have hself : (s.step build l).activations[t]? = some b' := by
    rw [hact, List.getElem?_set_self hlt]
  constructor
  case reached => exact reached_step h.reached
  case live => exact hlive
  case holder =>
    obtain ⟨a, ha, hholds'⟩ := h.holder
    by_cases hti : t = i
    · subst hti
      rw [hb] at ha
      cases ha
      exact ⟨b', hself, hholds hholds'⟩
    · exact ⟨a, by rw [hact, List.getElem?_set_ne hti, ha], hholds'⟩
  case placed =>
    rw [hstack']
    exact h.placed
  case work =>
    obtain ⟨ls, hreach⟩ := h.reached
    have hsorted := (run_placed build ls).sorted τ
    rw [← hreach, hstack] at hsorted
    have hbelow := (List.pairwise_cons.mp hsorted).1
    rw [hstack', hstack]
    refine .cons hself hc' (hm.keep fun j hj a _ ha hc => ⟨a, ?_, hc⟩)
    have hne : t ≠ j := Nat.ne_of_gt (hbelow j hj)
    rw [hact, List.getElem?_set_ne hne, ha]

theorem leave_restarted (s : System) (τ : Task) (r : EspErr) :
    (s.leave τ r).restarted = s.restarted := by
  simp only [System.leave]
  split
  · rfl
  · split
    · split <;> rfl
    · rfl

theorem Cost.task_zero {k : Nat} (h : Cost build b k) {config : OtaApiConfig}
    (hr : b.routine = .otaTask config) : k = 0 := by
  cases h with
  | task _ => rfl
  | other h =>
    cases h with
    | update hu _ _ => cases hr.symm.trans hu.1
    | invalid hr' _ => cases hr.symm.trans hr'
    | start hr' => cases hr.symm.trans hr'

/-- Nobody's return changes another activation than the `ota_task()` it returns to. -/
theorem leave_activation {r : EspErr}
    (hs : ∀ (i : Nat) (a : Activation), s.activations[i]? = some a → a.Sound build) {j : Nat}
    {a : Activation} (ha : s.activations[j]? = some a) :
    ∃ a', (s.leave τ r).activations[j]? = some a' ∧
      (a' = a ∨ ∃ config, a.routine = .otaTask config ∧ a'.routine = .otaTask config) := by
  simp only [System.leave]
  split
  · exact ⟨a, ha, .inl rfl⟩
  · rename_i m d hcur
    have hd : s.activations[m]? = some d :=
      @current?_get { s with stack := Function.update s.stack τ (s.stack τ).tail } τ m d hcur
    split
    · rename_i config k ht
      split
      · by_cases hjm : j = m
        · subst hjm
          rw [ha] at hd
          cases hd
          have hr := calling_task (hs j a ha) (next?_of_turn ht)
          obtain ⟨hlt, _⟩ := List.getElem?_eq_some_iff.mp ha
          exact ⟨_, List.getElem?_set_self hlt, .inr ⟨config, hr, hr⟩⟩
        · exact ⟨a, by rw [System.put, List.getElem?_set_ne (Ne.symm hjm), ha], .inl rfl⟩
      · exact ⟨a, ha, .inl rfl⟩
    · exact ⟨a, ha, .inl rfl⟩

/-- The top has returned. -/
theorem Underway.pop {n m : Nat} {r : EspErr} {rest : List Nat} (h : Underway build τ i n s)
    (hstack : s.stack τ = t :: rest) (hb : s.activations[t]? = some b) (hd : b.prog.turn = .done r)
    (hm : Work build s rest m) : Underway build τ i m (s.step build (.advance τ)) := by
  have hcur : s.current? τ = some (t, b) := by simp [System.current?, hstack, hb]
  have hstep : s.step build (.advance τ) = s.leave τ r := by
    simp [System.step, h.live, System.advance, hcur, hd]
  obtain ⟨ls, hreach⟩ := h.reached
  have hs : ∀ (i : Nat) (a : Activation), s.activations[i]? = some a → a.Sound build := by
    rw [hreach]
    exact fun i a ha => run_sound ha
  have hstack' : (s.leave τ r).stack τ = rest := by
    rw [stack_self (leave_cases s τ r).1, hstack, List.tail_cons]
  obtain ⟨a, ha, hholds⟩ := h.holder
  have hti : t ≠ i := by
    rintro rfl
    rw [hb] at ha
    cases ha
    have hfree := returned_free (hreach ▸ hb) (show b.result? = some r by rw [Activation.result?, hd]; rfl)
    rw [hholds] at hfree
    cases hfree
  constructor
  case reached => exact reached_step ⟨ls, hreach⟩
  case live =>
    rw [hstep, leave_restarted, h.live]
  case holder =>
    rw [hstep]
    obtain ⟨a', ha', rfl | ⟨config, hr, _⟩⟩ := @leave_activation build s τ r hs i a ha
    · exact ⟨a', ha', hholds⟩
    · exact absurd hr (holder_updates (hs i a ha) hholds config)
  case placed =>
    rw [hstep, hstack']
    have hi := h.placed
    rw [hstack] at hi
    exact (List.mem_cons.mp hi).resolve_left (Ne.symm hti)
  case work =>
    rw [hstep, hstack']
    refine hm.keep fun j _ a k ha hc => ?_
    obtain ⟨a', ha', rfl | ⟨config, hr, hr'⟩⟩ := @leave_activation build s τ r hs j a ha
    · exact ⟨a', ha', hc⟩
    · exact ⟨a', ha', hc.task_zero hr ▸ .task hr'⟩

section Top

variable {n m left : Nat} {rest : List Nat} {k : Answer c → Program EspErr}

/-- The top goes through a critical section. -/
theorem Underway.passes (h : Underway build τ i n s) (hstack : s.stack τ = t :: rest)
    (hb : s.activations[t]? = some b) (hs : b.Sound build) (hleft : Left build b left)
    (hm : Work build s rest m) (ht : b.prog.turn = .call c k) (he : b.entered = false)
    {answer : Answer c} {slot : RunState} (hc : criticalSection s.slot c = some (answer, slot)) :
    (s.step build (.advance τ)).slot.sRunning = false ∨
      ∃ k' < 2 * left + 2, Underway build τ i (k' + m) (s.step build (.advance τ)) := by
  have hcur : s.current? τ = some (t, b) := by simp [System.current?, hstack, hb]
  have hstep := @step_passing build _ _ _ _ _ _ _ _ h.live hcur ht he hc
  have hcrit := criticalSection_critical hc
  have hchunk : isChunk ⟨c, answer⟩ = false := by cases c <;> first | rfl | cases hcrit
  obtain ⟨m', hlt, hleft'⟩ := hleft.resume hs ht hchunk
  by_cases hrelease : c = .releaseUpdateSlot
  · subst hrelease
    cases hc
    rw [hstep]
    exact .inl rfl
  · have hholds : b.holds = true → (b.resume k answer).holds = true := by
      intro hb
      obtain ⟨_, htrace⟩ | ⟨_, hrel | habort⟩ := critical_phase hs ht hcrit
      · rw [Activation.holds, htrace] at hb
        cases hb
      · exact absurd hrel hrelease
      · subst habort
        rw [← hb]
        exact holds_snoc rfl rfl
    refine .inr ⟨2 * m' + 2, by omega, ?_⟩
    refine h.replace hstack hb hm (.other hleft') ?_ ?_ ?_ hholds
    · rw [hstep]
      rfl
    · rw [hstep]
      rfl
    · rw [hstep]
      exact h.live

/-- The top enters a call. -/
theorem Underway.enters (h : Underway build τ i n s) (hstack : s.stack τ = t :: rest)
    (hb : s.activations[t]? = some b) (hleft : Left build b left) (hm : Work build s rest m)
    (ht : b.prog.turn = .call c k) (he : b.entered = false)
    (hc : c.outward = true ∨ ∃ size priority config, c = .taskCreate size priority config)
    (hnone : criticalSection s.slot c = none) :
    Underway build τ i (2 * left + 1 + m) (s.step build (.advance τ)) := by
  have hcur : s.current? τ = some (t, b) := by simp [System.current?, hstack, hb]
  have hstep := @step_entering build _ _ _ _ _ _ h.live hcur ht he hnone
  have hquiet : (s.step build (.advance τ)).stack = s.stack ∧
      (s.step build (.advance τ)).activations = s.activations.set t b.enter ∧
      (s.step build (.advance τ)).restarted = s.restarted := by
    rw [hstep]
    obtain hc | ⟨_, _, _, rfl⟩ := hc
    · rw [entering_outward hc]
      exact ⟨rfl, rfl, rfl⟩
    · exact ⟨rfl, rfl, rfl⟩
  exact h.replace hstack hb hm (.other hleft.enter) hquiet.1 hquiet.2.1 (hquiet.2.2.trans h.live) id

/-- What the top has called comes back. -/
theorem Underway.comesBack (h : Underway build τ i n s) (hstack : s.stack τ = t :: rest)
    (hb : s.activations[t]? = some b) (hs : b.Sound build) (hleft : Left build b left)
    (hm : Work build s rest m) (ht : b.prog.turn = .call c k) (he : b.entered = true)
    (hc : c.outward = true ∨ ∃ size priority config, c = .taskCreate size priority config) :
    ∃ reply, ∃ k' < 2 * left + 1, Underway build τ i (k' + m) (s.step build (.answer τ reply)) := by
  have hcur : s.current? τ = some (t, b) := by simp [System.current?, hstack, hb]
  have hcrit := hs.outside he c k ht
  have calm : ∃ (reply : Reply) (answer : Answer c), reply.answer? c = some answer ∧
      isChunk ⟨c, answer⟩ = false ∧
      ((s.put t (b.resume k answer)).answering build ⟨c, answer⟩).stack = s.stack ∧
      ((s.put t (b.resume k answer)).answering build ⟨c, answer⟩).activations =
        s.activations.set t (b.resume k answer) ∧
      ((s.put t (b.resume k answer)).answering build ⟨c, answer⟩).restarted = s.restarted := by
    obtain hc | ⟨_, _, _, rfl⟩ := hc
    · obtain ⟨answer, hchunk⟩ := exists_calm hc
      obtain ⟨reply, hreply⟩ := exists_reply hc answer
      refine ⟨reply, answer, hreply, hchunk, ?_⟩
      rw [answering_outward hc]
      exact ⟨rfl, rfl, rfl⟩
    · exact ⟨.flag false, false, rfl, rfl, rfl, rfl, rfl⟩
  obtain ⟨reply, answer, hreply, hchunk, hstack', hact, hlive⟩ := calm
  obtain ⟨m', hlt, hleft'⟩ := hleft.resume hs ht hchunk
  have hstep := @step_answering build _ _ _ _ _ _ _ _ h.live hcur ht he hreply
  rw [← hstep] at hstack' hact hlive
  refine ⟨reply, 2 * m' + 2, by omega, ?_⟩
  refine h.replace hstack hb hm (.other hleft') hstack' hact (hlive.trans h.live) fun hb => ?_
  rw [holds_resume_outside hcrit, hb]

end Top

/-- What is on top makes a move, and there is less work, or the slot is given back. -/
theorem Underway.go {n : Nat} (h : Underway build τ i n s) : ∃ l m, Label.of τ l ∧ m < n ∧
    ((s.step build l).slot.sRunning = false ∨ Underway build τ i m (s.step build l)) := by
  obtain ⟨ls, hreach⟩ := h.reached
  have hs : ∀ (i : Nat) (a : Activation), s.activations[i]? = some a → a.Sound build := by
    rw [hreach]
    exact fun i a ha => run_sound ha
  have hwork := h.work
  cases hstack : s.stack τ with
  | nil =>
    have hi := h.placed
    rw [hstack] at hi
    cases hi
  | cons t rest =>
    rw [hstack] at hwork
    cases hwork with
    | @cons _ k m b _ hb hc hm =>
      have hsound := hs t b hb
      obtain ⟨a, ha, hholds⟩ := h.holder
      have hr : ∀ config, b.routine ≠ .otaTask config :=
        top_not_task (hreach ▸ hstack) (hreach ▸ h.placed) (hreach ▸ hb) (hreach ▸ ha)
          (holder_updates (hs i a ha) hholds)
      cases hc with
      | task hrb => exact absurd hrb (hr _)
      | @other left hleft =>
        cases ht : b.prog.turn with
        | done r => exact ⟨.advance τ, m, .inl rfl, by omega, .inr (h.pop hstack hb ht hm)⟩
        | call c call =>
          have hkinds := call_kinds hsound hr ht
          cases he : b.entered with
          | true =>
            have hcrit := hsound.outside he c call ht
            obtain ⟨reply, k', hlt, hnext⟩ := h.comesBack hstack hb hsound hleft hm ht he
              (hkinds.resolve_left (by simp [hcrit]))
            exact ⟨.answer τ reply, k' + m, .inr ⟨reply, rfl⟩, by simp; omega, .inr hnext⟩
          | false =>
            cases hc : criticalSection s.slot c with
            | some p =>
              obtain ⟨answer, slot⟩ := p
              obtain hfree | ⟨k', hlt, hnext⟩ := h.passes hstack hb hsound hleft hm ht he hc
              · exact ⟨.advance τ, m, .inl rfl, by omega, .inl hfree⟩
              · exact ⟨.advance τ, k' + m, .inl rfl, by simp; omega, .inr hnext⟩
            | none =>
              have hcrit := criticalSection_none hc
              have hnext := h.enters hstack hb hleft hm ht he
                (hkinds.resolve_left (by simp [hcrit])) hc
              exact ⟨.advance τ, _, .inl rfl, by simp, .inr hnext⟩

end Underway

/-! ## Over whole runs -/

section Run

variable {build : BuildOptions}

/-- The calls that have returned to an activation. -/
structure CallsBounded (s : System) : Prop where
  update : ∀ a ∈ s.activations, ∀ config, a.routine = .otaApiUpdate config →
    a.trace.length ≤ 14 + 5 * a.trace.countP isChunk
  startTask : ∀ a ∈ s.activations, ∀ config, a.routine = .otaApiStartTask config →
    a.trace.length ≤ 3
  task : ∀ a ∈ s.activations, ∀ config, a.routine = .otaTask config → a.trace.length ≤ 2

/-- Nothing but chunks makes an update longer. -/
theorem calls_bounded (ls : List Label) : CallsBounded (System.run build ls) := by
  have sound : ∀ a ∈ (System.run build ls).activations, a.Sound build := by
    intro a hmem
    obtain ⟨i, ha⟩ := List.mem_iff_getElem?.mp hmem
    exact run_sound ha
  constructor
  case update =>
    intro a hmem config hr
    cases hu : config.bind OtaApiConfig.url with
    | none =>
      rw [(invalid_stopped (sound a hmem) hr hu).1]
      exact Nat.zero_le _
    | some url =>
      obtain ⟨config, rfl, hurl⟩ := Option.bind_eq_some_iff.mp hu
      obtain ⟨ph, hp, _⟩ := update_path (sound a hmem) ⟨hr, hurl⟩
      have hbound := path_wayOut hp
      omega
  case startTask =>
    intro a hmem config hr
    cases config with
    | none =>
      have hruns := (sound a hmem).runs
      rw [hr] at hruns
      rw [(hruns.of_done rfl).1]
      exact Nat.zero_le _
    | some config =>
      have hstate := startTask_state (sound a hmem) hr
      generalize a.trace = t at hstate
      generalize a.next? = next at hstate
      cases hstate <;> simp
  case task =>
    intro a hmem config hr
    obtain ⟨htr, _⟩ | ⟨htr, _⟩ | ⟨r, htr, _⟩ := otaTask_state (sound a hmem) hr
    · simp [htr]
    · simp [htr]
    · simp [htr]

/-- Whoever holds the slot is on the stack of some task. -/
theorem holder_placed {ls : List Label} {i : Nat} {a : Activation}
    (ha : (System.run build ls).activations[i]? = some a) (hholds : a.holds = true) :
    ∃ τ, i ∈ (System.run build ls).stack τ := by
  by_contra hnowhere
  obtain ⟨r, hr⟩ := (run_placed build ls).ended i a ha fun τ hi => hnowhere ⟨τ, hi⟩
  rw [returned_free ha hr] at hholds
  cases hholds

/-- The slot is never stuck: unless the device is restarting, one task alone can go on
until it is free. -/
theorem slot_recoverable (build : BuildOptions) (ls : List Label) :
    (System.run build ls).restarted = true ∨ (System.run build ls).slot.sRunning = false ∨
      ∃ τ ms, (∀ l ∈ ms, Label.of τ l) ∧ ms.length ≤ 30 * ((System.run build ls).stack τ).length ∧
        (System.run build (ls ++ ms)).slot.sRunning = false := by
  cases hlive : (System.run build ls).restarted with
  | true => exact .inl rfl
  | false =>
    cases hrunning : (System.run build ls).slot.sRunning with
    | false => exact .inr (.inl rfl)
    | true =>
      obtain ⟨i, a, ha, hholds⟩ := (run_singleSlot ls).running.mp hrunning
      obtain ⟨τ, hi⟩ := holder_placed ha hholds
      obtain ⟨n, hn, hwork⟩ := exists_work (fun _ _ h => run_sound h) _
        ((run_placed build ls).bound τ)
      have hstart : Underway build τ i n (System.run build ls) :=
        ⟨⟨ls, rfl⟩, hlive, ⟨a, ha, hholds⟩, hi, hwork⟩
      obtain ⟨ms, hms, hlen, hfree⟩ := @exec_reaches _ _ (System.step build) (Underway build τ i)
        (fun s => s.slot.sRunning = false) (Label.of τ) (fun _ _ h => h.go) n _ hstart
      refine .inr (.inr ⟨τ, ms, hms, by omega, ?_⟩)
      rw [system_run_append]
      exact hfree

end Run

end OtaApi
