import OtaApi.Tasks
import OtaApi.Histories

/-!
# What one step can do

`Branch` lists the branches of a step. `Change` lists their effects on the slot, the
flash and the activations, and `Evolves` those on a single activation. Every invariant
is derived from them; the stacks only decide whose turn it is.
-/

namespace OtaApi

open Interaction

/-- The calls that are critical sections of `ota-api-state.c`. -/
def Call.critical : Call → Bool
  | .claimUpdateSlot => true
  | .releaseUpdateSlot => true
  | .abortRequested => true
  | _ => false

theorem criticalSection_none {s : RunState} {c : Call} (h : criticalSection s c = none) :
    c.critical = false := by
  cases c with
  | claimUpdateSlot => cases h
  | releaseUpdateSlot => cases h
  | abortRequested => cases h
  | _ => rfl

theorem critical_of_criticalSection {s : RunState} {c : Call} {r : Answer c × RunState}
    (h : criticalSection s c = some r) : c.critical = true := by
  cases c with
  | claimUpdateSlot => rfl
  | releaseUpdateSlot => rfl
  | abortRequested => rfl
  | _ => cases h

/-- The outside never answers for the slot. -/
theorem answer?_not_critical {reply : Reply} {c : Call} {a : Answer c}
    (h : reply.answer? c = some a) : c.critical = false := by
  cases c with
  | claimUpdateSlot => cases reply <;> cases h
  | releaseUpdateSlot => cases reply <;> cases h
  | abortRequested => cases reply <;> cases h
  | _ => rfl

section Branch

variable {build : BuildOptions}

/-- The branch of `System.step` that a label takes. -/
inductive Branch (build : BuildOptions) (s : System) : Label → System → Prop where
  | idle (l : Label) : Branch build s l s
  | update {τ : Task} {config : Option OtaApiConfig} (hrun : s.restarted = false)
      (hin : s.inApp τ = true) :
      Branch build s (.otaApiUpdate τ config) (s.call build τ (.otaApiUpdate config))
  | startTask {τ : Task} {config : Option OtaApiConfig} (hrun : s.restarted = false)
      (hin : s.inApp τ = true) :
      Branch build s (.otaApiStartTask τ config) (s.call build τ (.otaApiStartTask config))
  | abort {τ : Task} (hrun : s.restarted = false) (hin : s.inApp τ = true) :
      Branch build s (.otaApiAbort τ) s.abort
  | returned {τ : Task} {i : Nat} {a : Activation} {r : EspErr} (hrun : s.restarted = false)
      (hcur : s.current? τ = some (i, a)) (hd : a.prog.turn = .done r) :
      Branch build s (.advance τ) (s.leave τ r)
  | passed {τ : Task} {i : Nat} {a : Activation} {c : Call} {k : Answer c → Program EspErr}
      {answer : Answer c} {slot : RunState} (hrun : s.restarted = false)
      (hcur : s.current? τ = some (i, a)) (ht : a.prog.turn = .call c k) (he : a.entered = false)
      (hc : criticalSection s.slot c = some (answer, slot)) :
      Branch build s (.advance τ) { s.put i (a.resume k answer) with slot := slot }
  | entered {τ : Task} {i : Nat} {a : Activation} {c : Call} {k : Answer c → Program EspErr}
      (hrun : s.restarted = false) (hcur : s.current? τ = some (i, a))
      (ht : a.prog.turn = .call c k) (he : a.entered = false) (hc : c.critical = false) :
      Branch build s (.advance τ) ((s.put i a.enter).entering build τ c)
  | answered {τ : Task} {reply : Reply} {i : Nat} {a : Activation} {c : Call}
      {k : Answer c → Program EspErr} {answer : Answer c} (hrun : s.restarted = false)
      (hcur : s.current? τ = some (i, a)) (ht : a.prog.turn = .call c k) (he : a.entered = true)
      (ha : reply.answer? c = some answer) :
      Branch build s (.answer τ reply) ((s.put i (a.resume k answer)).answering build ⟨c, answer⟩)

theorem advance_branch {s : System} (hrun : s.restarted = false) (τ : Task) :
    Branch build s (.advance τ) (s.advance build τ) := by
  simp only [System.advance]
  split
  · exact .idle _
  · rename_i i a hcur
    split
    · rename_i r hd
      exact .returned hrun hcur hd
    · rename_i c k ht
      split
      · exact .idle _
      · rename_i he
        have he : a.entered = false := by simpa using he
        split
        · rename_i answer slot hc
          exact .passed hrun hcur ht he hc
        · rename_i hc
          exact .entered hrun hcur ht he (criticalSection_none hc)

theorem answer_branch {s : System} (hrun : s.restarted = false) (τ : Task) (reply : Reply) :
    Branch build s (.answer τ reply) (s.answer build τ reply) := by
  simp only [System.answer]
  split
  · exact .idle _
  · rename_i i a hcur
    split
    · exact .idle _
    · rename_i c k ht
      split
      · rename_i he
        split
        · rename_i answer ha
          exact .answered hrun hcur ht he ha
        · exact .idle _
      · exact .idle _

/-- A step takes one of these branches. -/
theorem step_branch (s : System) (l : Label) : Branch build s l (s.step build l) := by
  simp only [System.step]
  split
  · exact .idle l
  · rename_i hrun
    have hrun : s.restarted = false := by simpa using hrun
    cases l with
    | otaApiUpdate τ config =>
      simp only
      split
      · rename_i hin
        exact .update hrun hin
      · exact .idle _
    | otaApiStartTask τ config =>
      simp only
      split
      · rename_i hin
        exact .startTask hrun hin
      · exact .idle _
    | otaApiAbort τ =>
      simp only
      split
      · rename_i hin
        exact .abort hrun hin
      · exact .idle _
    | otaApiIsRunning τ => exact .idle _
    | advance τ => exact advance_branch hrun τ
    | answer τ reply => exact answer_branch hrun τ reply

/-- A task goes through a critical section at once. -/
theorem step_passing {s : System} {τ : Task} {i : Nat} {a : Activation} {c : Call}
    {k : Answer c → Program EspErr} {answer : Answer c} {slot : RunState}
    (hrun : s.restarted = false) (hcur : s.current? τ = some (i, a)) (ht : a.prog.turn = .call c k)
    (he : a.entered = false) (hc : criticalSection s.slot c = some (answer, slot)) :
    s.step build (.advance τ) = { s.put i (a.resume k answer) with slot := slot } := by
  simp only [System.step, hrun, System.advance, hcur, ht, he, hc]
  rfl

/-- A task that is at any other call enters it. -/
theorem step_entering {s : System} {τ : Task} {i : Nat} {a : Activation} {c : Call}
    {k : Answer c → Program EspErr} (hrun : s.restarted = false) (hcur : s.current? τ = some (i, a))
    (ht : a.prog.turn = .call c k) (he : a.entered = false) (hc : criticalSection s.slot c = none) :
    s.step build (.advance τ) = (s.put i a.enter).entering build τ c := by
  simp only [System.step, hrun, System.advance, hcur, ht, he, hc]
  rfl

/-- And with an answer it comes back from it. -/
theorem step_answering {s : System} {τ : Task} {reply : Reply} {i : Nat} {a : Activation} {c : Call}
    {k : Answer c → Program EspErr} {answer : Answer c} (hrun : s.restarted = false)
    (hcur : s.current? τ = some (i, a)) (ht : a.prog.turn = .call c k) (he : a.entered = true)
    (ha : reply.answer? c = some answer) :
    s.step build (.answer τ reply) = (s.put i (a.resume k answer)).answering build ⟨c, answer⟩ := by
  simp only [System.step, hrun, System.answer, hcur, ht, he, ha]
  rfl

end Branch

section Change

variable {build : BuildOptions}

inductive Change (build : BuildOptions) (s : System) : Label → System → Prop where
  | opened {l : Label} {s' : System} (new : List Routine) (hslot : s'.slot = s.slot)
      (hflash : s'.flash = s.flash)
      (hact : s'.activations = s.activations ++ new.map (.start build)) : Change build s l s'
  | passed {τ : Task} {i : Nat} {a : Activation} {c : Call} {k : Answer c → Program EspErr}
      {answer : Answer c} {s' : System} (hcur : s.current? τ = some (i, a))
      (ht : a.prog.turn = .call c k) (he : a.entered = false)
      (hc : criticalSection s.slot c = some (answer, s'.slot)) (hflash : s'.flash = s.flash)
      (hact : s'.activations = s.activations.set i (a.resume k answer)) :
      Change build s (.advance τ) s'
  | entered {τ : Task} {i : Nat} {a : Activation} {c : Call} {k : Answer c → Program EspErr}
      {s' : System} (new : List Routine) (hrun : s.restarted = false)
      (hcur : s.current? τ = some (i, a)) (ht : a.prog.turn = .call c k) (he : a.entered = false)
      (hc : c.critical = false) (hslot : s'.slot = s.slot) (hflash : s'.flash = s.flash.entering c)
      (hact : s'.activations = s.activations.set i a.enter ++ new.map (.start build)) :
      Change build s (.advance τ) s'
  | answered {l : Label} {i : Nat} {a : Activation} {c : Call} {k : Answer c → Program EspErr}
      {answer : Answer c} {s' : System} (new : List Routine) (hget : s.activations[i]? = some a)
      (ht : a.prog.turn = .call c k) (he : a.entered = true) (hc : c.critical = false)
      (hslot : s'.slot = s.slot) (hflash : s'.flash = s.flash.answering ⟨c, answer⟩)
      (hact : s'.activations = s.activations.set i (a.resume k answer) ++ new.map (.start build)) :
      Change build s l s'
  | aborted {τ : Task} {s' : System} (hr : s.slot.sRunning = true)
      (hslot : s'.slot = (otaApiAbort s.slot).2) (hflash : s'.flash = s.flash)
      (hact : s'.activations = s.activations.map Activation.notice) :
      Change build s (.otaApiAbort τ) s'

theorem Change.of_same {s s' : System} {l : Label} (hslot : s'.slot = s.slot)
    (hflash : s'.flash = s.flash) (hact : s'.activations = s.activations) : Change build s l s' :=
  .opened [] hslot hflash (by simpa using hact)

theorem Change.refl (s : System) (l : Label) : Change build s l s := .of_same rfl rfl rfl

theorem current?_get {s : System} {τ : Task} {i : Nat} {a : Activation}
    (h : s.current? τ = some (i, a)) : s.activations[i]? = some a := by
  simp only [System.current?, Option.bind_eq_some_iff, Option.map_eq_some_iff] at h
  obtain ⟨j, _, b, hb, hj⟩ := h
  cases hj
  exact hb

theorem current?_alone {s : System} {τ : Task} {j : Nat} {b : Activation}
    (hstack : s.stack τ = [j]) (hget : s.activations[j]? = some b) :
    s.current? τ = some (j, b) := by
  simp [System.current?, hstack, hget]

theorem leave_change (s : System) (l : Label) (τ : Task) (r : EspErr) :
    Change build s l (s.leave τ r) := by
  simp only [System.leave]
  split
  · exact .of_same rfl rfl rfl
  · rename_i i a hcur
    have hget := current?_get hcur
    split
    · rename_i config k ht
      split
      · rename_i he
        exact .answered [] hget ht he rfl rfl rfl (List.append_nil _).symm
      · exact .of_same rfl rfl rfl
    · exact .of_same rfl rfl rfl

theorem entering_change {s : System} {τ : Task} {i : Nat} {a : Activation} {c : Call}
    {k : Answer c → Program EspErr} (hrun : s.restarted = false)
    (hcur : s.current? τ = some (i, a)) (ht : a.prog.turn = .call c k) (he : a.entered = false)
    (hc : c.critical = false) : Change build s (.advance τ) ((s.put i a.enter).entering build τ c) := by
  cases c with
  | otaApiUpdate config => exact .entered [_] hrun hcur ht he hc rfl rfl rfl
  | claimUpdateSlot => cases hc
  | releaseUpdateSlot => cases hc
  | abortRequested => cases hc
  | _ => exact .entered [] hrun hcur ht he hc rfl rfl (List.append_nil _).symm

theorem answering_change {s : System} {l : Label} {i : Nat} {a : Activation} {c : Call}
    {k : Answer c → Program EspErr} (answer : Answer c) (hget : s.activations[i]? = some a)
    (ht : a.prog.turn = .call c k) (he : a.entered = true) (hc : c.critical = false) :
    Change build s l ((s.put i (a.resume k answer)).answering build ⟨c, answer⟩) := by
  cases c with
  | taskCreate stackSize priority config =>
    cases answer with
    | true => exact .answered [_] hget ht he hc rfl rfl rfl
    | false => exact .answered [] hget ht he hc rfl rfl (List.append_nil _).symm
  | claimUpdateSlot => cases hc
  | releaseUpdateSlot => cases hc
  | abortRequested => cases hc
  | _ => exact .answered [] hget ht he hc rfl rfl (List.append_nil _).symm

theorem abort_change (s : System) (τ : Task) : Change build s (.otaApiAbort τ) s.abort := by
  cases hr : s.slot.sRunning with
  | true =>
    have habort : s.abort =
        { s with
          slot := (otaApiAbort s.slot).2
          activations := s.activations.map Activation.notice } := by
      simp [System.abort, otaApiAbort, hr]
    rw [habort]
    exact .aborted hr rfl rfl rfl
  | false =>
    have hs : s.abort = s := by simp [System.abort, otaApiAbort, hr, espErrInvalidState, espOk]
    rw [hs]
    exact .refl s _

/-- No step does anything else. -/
theorem Branch.change {s s' : System} {l : Label} (h : Branch build s l s') : Change build s l s' := by
  cases h with
  | idle => exact .refl s l
  | @update τ config hrun hin => exact .opened [.otaApiUpdate config] rfl rfl rfl
  | @startTask τ config hrun hin => exact .opened [.otaApiStartTask config] rfl rfl rfl
  | @abort τ hrun hin => exact abort_change s τ
  | @returned τ i a r hrun hcur hd => exact leave_change s _ τ r
  | passed hrun hcur ht he hc => exact .passed hcur ht he hc rfl rfl
  | entered hrun hcur ht he hc => exact entering_change hrun hcur ht he hc
  | @answered τ reply i a c k answer hrun hcur ht he ha =>
    exact answering_change answer (current?_get hcur) ht he (answer?_not_critical ha)

theorem step_change (s : System) (l : Label) : Change build s l (s.step build l) :=
  (step_branch s l).change

/-- What a step does to one activation, `slot` being the flags before it. -/
inductive Evolves (slot : RunState) (a : Activation) : Activation → Prop where
  | same : Evolves slot a a
  | entered {c : Call} {k : Answer c → Program EspErr} (ht : a.prog.turn = .call c k)
      (he : a.entered = false) (hc : c.critical = false) : Evolves slot a a.enter
  | passed {c : Call} {k : Answer c → Program EspErr} {answer : Answer c} {slot' : RunState}
      (ht : a.prog.turn = .call c k) (he : a.entered = false)
      (hc : criticalSection slot c = some (answer, slot')) : Evolves slot a (a.resume k answer)
  | answered {c : Call} {k : Answer c → Program EspErr} (answer : Answer c)
      (ht : a.prog.turn = .call c k) (he : a.entered = true) (hc : c.critical = false) :
      Evolves slot a (a.resume k answer)
  | noticed (hr : slot.sRunning = true) : Evolves slot a a.notice

/-- An entry after one entry was replaced and new ones were added. -/
theorem getElem?_set_append {l new : List Activation} {i j : Nat} {a b : Activation}
    (h : (l.set i a ++ new)[j]? = some b) :
    (j = i ∧ b = a ∧ ∃ a', l[i]? = some a') ∨ (j ≠ i ∧ l[j]? = some b) ∨
      (l[j]? = none ∧ b ∈ new) := by
  by_cases hlt : j < l.length
  · rw [List.getElem?_append_left (by simpa using hlt), List.getElem?_set] at h
    by_cases hij : i = j
    · subst hij
      simp only [if_true, hlt, Option.some.injEq] at h
      exact .inl ⟨rfl, h.symm, l[i], List.getElem?_eq_getElem hlt⟩
    · rw [if_neg hij] at h
      exact .inr (.inl ⟨Ne.symm hij, h⟩)
  · have hle : l.length ≤ j := by omega
    rw [List.getElem?_append_right (by simpa using hle)] at h
    exact .inr (.inr ⟨List.getElem?_eq_none hle, List.mem_of_getElem? h⟩)

/-- Every activation after a step is new, or comes from one before it. -/
theorem Change.origin {s s' : System} {l : Label} (h : Change build s l s') {i : Nat}
    {a' : Activation} (ha' : s'.activations[i]? = some a') :
    (∃ a, s.activations[i]? = some a ∧ Evolves s.slot a a') ∨
      (s.activations[i]? = none ∧ ∃ r, a' = .start build r) := by
  have started : ∀ {new : List Routine}, a' ∈ new.map (Activation.start build) →
      ∃ r, a' = .start build r := by
    intro new hmem
    obtain ⟨r, _, hr⟩ := List.mem_map.mp hmem
    exact ⟨r, hr.symm⟩
  cases h with
  | opened new hslot hflash hact =>
    rw [hact] at ha'
    by_cases hlt : i < s.activations.length
    · rw [List.getElem?_append_left hlt] at ha'
      exact .inl ⟨a', ha', .same⟩
    · have hle : s.activations.length ≤ i := by omega
      rw [List.getElem?_append_right hle] at ha'
      exact .inr ⟨List.getElem?_eq_none hle, started (List.mem_of_getElem? ha')⟩
  | @passed τ j a c k answer s' hcur ht he hc hflash hact =>
    rw [hact, ← List.append_nil (List.set _ _ _)] at ha'
    obtain ⟨rfl, rfl, _⟩ | ⟨_, hget⟩ | ⟨_, hmem⟩ := getElem?_set_append ha'
    · exact .inl ⟨a, current?_get hcur, .passed ht he hc⟩
    · exact .inl ⟨a', hget, .same⟩
    · exact absurd hmem List.not_mem_nil
  | @entered τ j a c k s' new hrun hcur ht he hc hslot hflash hact =>
    rw [hact] at ha'
    obtain ⟨rfl, rfl, _⟩ | ⟨_, hget⟩ | ⟨hnone, hmem⟩ := getElem?_set_append ha'
    · exact .inl ⟨a, current?_get hcur, .entered ht he hc⟩
    · exact .inl ⟨a', hget, .same⟩
    · exact .inr ⟨hnone, started hmem⟩
  | @answered l j a c k answer s' new hget ht he hc hslot hflash hact =>
    rw [hact] at ha'
    obtain ⟨rfl, rfl, _⟩ | ⟨_, hother⟩ | ⟨hnone, hmem⟩ := getElem?_set_append ha'
    · exact .inl ⟨a, hget, .answered answer ht he hc⟩
    · exact .inl ⟨a', hother, .same⟩
    · exact .inr ⟨hnone, started hmem⟩
  | aborted hr hslot hflash hact =>
    rw [hact, List.getElem?_map, Option.map_eq_some_iff] at ha'
    obtain ⟨a, ha, rfl⟩ := ha'
    exact .inl ⟨a, ha, .noticed hr⟩

/-- No activation is ever forgotten. -/
theorem Change.length_le {s s' : System} {l : Label} (h : Change build s l s') :
    s.activations.length ≤ s'.activations.length := by
  cases h with
  | opened _ _ _ hact => rw [hact]; simp
  | passed _ _ _ _ _ hact => rw [hact]; simp
  | entered _ _ _ _ _ _ _ _ hact => rw [hact]; simp
  | answered _ _ _ _ _ _ _ hact => rw [hact]; simp
  | aborted _ _ _ hact => rw [hact]; simp

theorem Change.evolves {s s' : System} {l : Label} (h : Change build s l s') {i : Nat}
    {a : Activation} (ha : s.activations[i]? = some a) :
    ∃ a', s'.activations[i]? = some a' ∧ Evolves s.slot a a' := by
  obtain ⟨hlt, _⟩ := List.getElem?_eq_some_iff.mp ha
  have hlt' : i < s'.activations.length := Nat.lt_of_lt_of_le hlt h.length_le
  have ha' := List.getElem?_eq_getElem hlt'
  refine ⟨_, ha', ?_⟩
  obtain ⟨b, hb, hev⟩ | ⟨hnone, _⟩ := h.origin ha'
  · rw [ha] at hb
    cases hb
    exact hev
  · rw [ha] at hnone
    cases hnone

end Change

section Run

variable {build : BuildOptions}

/-- Induction over an interleaving, step by step. -/
theorem run_induction {Inv : System → Prop} (start : Inv .initial)
    (keep : ∀ ls l, Inv (System.run build ls) → Inv ((System.run build ls).step build l))
    (ls : List Label) : Inv (System.run build ls) :=
  exec_induction start keep ls

/-- What holds at the start of every activation and is kept by whatever happens to
it holds of all of them at every moment. -/
theorem run_activations {P : Activation → Prop} (start : ∀ r, P (.start build r))
    (keep : ∀ slot a a', P a → Evolves slot a a' → P a') (ls : List Label) {i : Nat}
    {a : Activation} (ha : (System.run build ls).activations[i]? = some a) : P a := by
  have hstep : ∀ (s : System) (l : Label),
      (∀ (i : Nat) (a : Activation), s.activations[i]? = some a → P a) →
      ∀ (i : Nat) (a : Activation), (s.step build l).activations[i]? = some a → P a := by
    intro s l hs i a' ha'
    obtain ⟨b, hb, hev⟩ | ⟨_, r, rfl⟩ := (step_change s l).origin ha'
    · exact keep s.slot b a' (hs i b hb) hev
    · exact start r
  exact exec_invariant hstep (by simp [System.initial]) ls i a ha

/-- What is true of an activation by itself. -/
structure Activation.Sound (build : BuildOptions) (a : Activation) : Prop where
  runs : Steps Prog.turn (a.routine.program build) a.trace a.prog
  outside : a.entered = true → ∀ c k, a.prog.turn = .call c k → c.critical = false
  moments : ∀ m ∈ a.aborts, m.answered < a.trace.length ∨
    m.answered = a.trace.length ∧ (m.entered = true → a.entered = true)

theorem run_sound {ls : List Label} {i : Nat} {a : Activation}
    (ha : (System.run build ls).activations[i]? = some a) : a.Sound build := by
  have keep : ∀ (slot : RunState) (a a' : Activation),
      a.Sound build → Evolves slot a a' → a'.Sound build := by
    intro slot a a' hs hev
    have resumed : ∀ {c : Call} {k : Answer c → Program EspErr} (answer : Answer c),
        a.prog.turn = .call c k → (a.resume k answer).Sound build := by
      intro c k answer ht
      refine ⟨hs.runs.snoc ht answer, by simp [Activation.resume], fun m hm => .inl ?_⟩
      have hlen : (a.resume k answer).trace.length = a.trace.length + 1 := by
        simp [Activation.resume]
      have := hs.moments m hm
      omega
    cases hev with
    | same => exact hs
    | entered ht he hc =>
      refine ⟨hs.runs, fun _ c' k' ht' => ?_, fun m hm => ?_⟩
      · have heq := ht.symm.trans ht'
        cases heq
        exact hc
      · obtain hlt | ⟨heq, _⟩ := hs.moments m hm
        · exact .inl hlt
        · exact .inr ⟨heq, fun _ => rfl⟩
    | passed ht he hc => exact resumed _ ht
    | answered answer ht he hc => exact resumed answer ht
    | noticed hr =>
      refine ⟨hs.runs, hs.outside, fun m hm => ?_⟩
      obtain hm | rfl := List.mem_append.mp hm |>.imp_right List.mem_singleton.mp
      · exact hs.moments m hm
      · exact .inr ⟨rfl, id⟩
  exact run_activations (fun r => ⟨.nil _, by simp [Activation.start], by simp [Activation.start]⟩)
    keep ls ha

/-- The activation is an update with a configuration and a URL. -/
def Activation.Updates (a : Activation) (config : OtaApiConfig) (url : String) : Prop :=
  a.routine = .otaApiUpdate (some config) ∧ config.url = some url

/-- Such an activation is in a phase of the update machine. -/
theorem update_path {a : Activation} (hs : a.Sound build) {config : OtaApiConfig}
    {url : String} (hu : a.Updates config url) :
    ∃ ph, Path (Move build config url) .claiming a.trace ph ∧ a.prog = prog build config url ph := by
  have hruns := hs.runs
  rw [hu.1] at hruns
  exact otaApiUpdate_path hu.2 hruns

/-- The call an update is at is the one its phase waits for. -/
theorem update_next? {a : Activation} {config : OtaApiConfig} {url : String} {ph : Phase}
    (hprog : a.prog = prog build config url ph) : a.next? = ph.next? build config := by
  rw [Activation.next?, hprog, prog_next?]

/-- An update has returned only in the phases where it stops. -/
theorem update_result? {a : Activation} {config : OtaApiConfig} {url : String} {ph : Phase}
    (hprog : a.prog = prog build config url ph) {r : EspErr} (hr : a.result? = some r) :
    ph = .finished r ∨ ph = .refused r := by
  rw [Activation.result?, hprog] at hr
  exact prog_result? hr

/-- What the machine says of an update in a run: the phase it is in, the call it is
at, and how it can have returned. -/
theorem run_update {ls : List Label} {i : Nat} {a : Activation} {config : OtaApiConfig}
    {url : String} (ha : (System.run build ls).activations[i]? = some a)
    (hu : a.Updates config url) :
    ∃ ph, Path (Move build config url) .claiming a.trace ph ∧ a.next? = ph.next? build config ∧
      ∀ r, a.result? = some r → ph = .finished r ∨ ph = .refused r := by
  obtain ⟨ph, hpath, hprog⟩ := update_path (run_sound ha) hu
  exact ⟨ph, hpath, update_next? hprog, fun _ => update_result? hprog⟩

end Run

end OtaApi
