import OtaApi.Outcome

/-!
# What one step does to the stacks

`Shift` lists the effects of a step on the stacks, next to those on the
activations: a call of the component puts a new activation on top of its task, and
a return takes it away and hands its result to the one below.
-/

namespace OtaApi

open Interaction

section Shift

variable {build : BuildOptions}

inductive Shift (build : BuildOptions) (s : System) : Label → System → Prop where
  | still {l : Label} {s' : System} (hstack : s'.stack = s.stack)
      (hact : ∀ (i : Nat) (a : Activation), s.activations[i]? = some a →
        s'.activations[i]? = some a ∨ s'.activations[i]? = some a.notice)
      (hlen : s'.activations.length = s.activations.length) : Shift build s l s'
  | pushed {l : Label} {τ : Task} {r : Routine} {s' : System} (hr : ∀ config, r ≠ .otaTask config)
      (hin : s.inApp τ = true)
      (hstack : s'.stack = Function.update s.stack τ (s.activations.length :: s.stack τ))
      (hact : s'.activations = s.activations ++ [.start build r]) : Shift build s l s'
  | called {τ : Task} {i : Nat} {a : Activation} {config : OtaApiConfig}
      {k : EspErr → Program EspErr} {s' : System} (hrun : s.restarted = false)
      (hcur : s.current? τ = some (i, a)) (ht : a.prog.turn = .call (.otaApiUpdate config) k)
      (he : a.entered = false)
      (hstack : s'.stack = Function.update s.stack τ (s.activations.length :: s.stack τ))
      (hact : s'.activations =
        s.activations.set i a.enter ++ [.start build (.otaApiUpdate (some config))]) :
      Shift build s (.advance τ) s'
  | created {τ : Task} {i : Nat} {a : Activation} {size priority : UInt32} {config : OtaApiConfig}
      {k : Bool → Program EspErr} {s' : System} (hrun : s.restarted = false)
      (hcur : s.current? τ = some (i, a))
      (ht : a.prog.turn = .call (.taskCreate size priority config) k) (he : a.entered = true)
      (hstack : s'.stack = Function.update s.stack (.spawned s.activations.length)
        (s.activations.length :: s.stack (.spawned s.activations.length)))
      (hact : s'.activations =
        s.activations.set i (@Activation.resume (.taskCreate size priority config) a k true) ++
          [.start build (.otaTask config)]) :
      Shift build s (.answer τ (.flag true)) s'
  | worked {l : Label} {τ : Task} {i : Nat} {a b : Activation} {s' : System}
      (hcur : s.current? τ = some (i, a)) (hb : Evolves s.slot a b)
      (ht : ∀ config, a.next? ≠ some (.otaApiUpdate config))
      (hcreate : ∀ size priority config, ⟨.taskCreate size priority config, true⟩ ∈ b.trace →
        ⟨.taskCreate size priority config, true⟩ ∈ a.trace)
      (hstack : s'.stack = s.stack) (hact : s'.activations = s.activations.set i b) :
      Shift build s l s'
  | popped {τ : Task} {i : Nat} {a : Activation} {r : EspErr} {s' : System}
      (hcur : s.current? τ = some (i, a)) (hd : a.prog.turn = .done r)
      (hbelow : ∀ j b config, (s.stack τ).tail.head? = some j → s.activations[j]? = some b →
        b.next? = some (.otaApiUpdate config) → b.entered = false)
      (hstack : s'.stack = Function.update s.stack τ (s.stack τ).tail)
      (hact : s'.activations = s.activations) : Shift build s (.advance τ) s'
  | returned {τ : Task} {i j : Nat} {a b : Activation} {r : EspErr} {config : OtaApiConfig}
      {k : EspErr → Program EspErr} {s' : System} (hcur : s.current? τ = some (i, a))
      (hd : a.prog.turn = .done r) (hbelow : (s.stack τ).tail.head? = some j)
      (hb : s.activations[j]? = some b) (ht : b.prog.turn = .call (.otaApiUpdate config) k)
      (he : b.entered = true) (hstack : s'.stack = Function.update s.stack τ (s.stack τ).tail)
      (hact : s'.activations =
        s.activations.set j (@Activation.resume (.otaApiUpdate config) b k r)) :
      Shift build s (.advance τ) s'

theorem Shift.refl (s : System) (l : Label) : Shift build s l s :=
  .still rfl (fun _ _ ha => .inl ha) rfl

theorem leave_shift {s : System} {τ : Task} {i : Nat} {a : Activation} {r : EspErr}
    (hcur : s.current? τ = some (i, a)) (hd : a.prog.turn = .done r) :
    Shift build s (.advance τ) (s.leave τ r) := by
  have hbelow : ({ s with stack := Function.update s.stack τ (s.stack τ).tail } : System).current? τ =
      (s.stack τ).tail.head?.bind fun j => (s.activations[j]?).map fun b => (j, b) := by
    simp only [System.current?, Function.update_self]
  simp only [System.leave]
  split
  · rename_i hnone
    refine .popped hcur hd (fun j b config hj hb _ => ?_) rfl rfl
    have hnone := hbelow.symm.trans hnone
    rw [hj, Option.bind_some, hb] at hnone
    cases hnone
  · rename_i j b hcur'
    have hcur' := hbelow.symm.trans hcur'
    obtain ⟨j', hj, hcur'⟩ := Option.bind_eq_some_iff.mp hcur'
    obtain ⟨b', hb, hjb⟩ := Option.map_eq_some_iff.mp hcur'
    obtain ⟨rfl, rfl⟩ := Prod.mk.inj hjb
    split
    · rename_i config k ht
      split
      · rename_i he
        exact .returned hcur hd hj hb ht he rfl rfl
      · rename_i he
        refine .popped hcur hd (fun j'' b'' config' hj'' hb'' _ => ?_) rfl rfl
        rw [hj] at hj''
        cases hj''
        rw [hb] at hb''
        cases hb''
        simpa using he
    · rename_i hnot
      refine .popped hcur hd (fun j'' b'' config' hj'' hb'' hn => ?_) rfl rfl
      rw [hj] at hj''
      cases hj''
      rw [hb] at hb''
      cases hb''
      obtain ⟨k, hk⟩ := Turn.eq_call hn
      exact absurd hk (hnot config' k)

theorem criticalSection_not_create {slot slot' : RunState} {c : Call} {answer : Answer c}
    (h : criticalSection slot c = some (answer, slot')) {size priority : UInt32}
    {config : OtaApiConfig} :
    (⟨c, answer⟩ : Event) ≠ ⟨.taskCreate size priority config, true⟩ := by
  intro heq
  cases heq
  cases h

/-- A call that is answered without creating a task leaves the stacks alone. -/
theorem resumed_shift {s s' : System} {l : Label} {τ : Task} {i : Nat} {a : Activation} {c : Call}
    {k : Answer c → Program EspErr} {answer : Answer c} (hcur : s.current? τ = some (i, a))
    (ht : a.prog.turn = .call c k) (hev : Evolves s.slot a (a.resume k answer))
    (hc : ∀ config, c ≠ .otaApiUpdate config)
    (hcreate : ∀ size priority config,
      (⟨c, answer⟩ : Event) ≠ ⟨.taskCreate size priority config, true⟩)
    (hstack : s'.stack = s.stack) (hact : s'.activations = s.activations.set i (a.resume k answer)) :
    Shift build s l s' := by
  refine .worked hcur hev (fun config hn => ?_) (fun size priority config hmem => ?_) hstack hact
  · rw [Activation.next?, ht] at hn
    cases hn
    exact hc config rfl
  · obtain hmem | hmem := List.mem_append.mp hmem
    · exact hmem
    · exact absurd (List.mem_singleton.mp hmem).symm (hcreate size priority config)

theorem entering_shift {s : System} {τ : Task} {i : Nat} {a : Activation} {c : Call}
    {k : Answer c → Program EspErr} (hrun : s.restarted = false)
    (hcur : s.current? τ = some (i, a)) (ht : a.prog.turn = .call c k) (he : a.entered = false)
    (hc : c.critical = false) :
    Shift build s (.advance τ) ((s.put i a.enter).entering build τ c) := by
  cases c with
  | otaApiUpdate config =>
    refine .called hrun hcur ht he ?_ rfl
    simp [System.entering, System.call, System.put]
  | claimUpdateSlot => cases hc
  | releaseUpdateSlot => cases hc
  | abortRequested => cases hc
  | _ =>
    refine .worked hcur (.entered ht he rfl) (fun config hn => ?_) (fun _ _ _ => id) rfl rfl
    rw [Activation.next?, ht] at hn
    cases hn

theorem answering_shift {s : System} {τ : Task} {reply : Reply} {i : Nat} {a : Activation} {c : Call}
    {k : Answer c → Program EspErr} {answer : Answer c} (hrun : s.restarted = false)
    (hcur : s.current? τ = some (i, a)) (ht : a.prog.turn = .call c k) (he : a.entered = true)
    (ha : reply.answer? c = some answer) :
    Shift build s (.answer τ reply)
      ((s.put i (a.resume k answer)).answering build ⟨c, answer⟩) := by
  have hev := @Evolves.answered s.slot a c k answer ht he (answer?_not_critical ha)
  cases c with
  | taskCreate size priority config =>
    cases answer with
    | true =>
      have hreply : reply = .flag true := by
        cases reply <;> cases ha
        rfl
      subst hreply
      refine .created hrun hcur ht he ?_ rfl
      simp [System.answering, System.spawn, System.call, System.put]
    | false =>
      refine resumed_shift hcur ht hev (fun _ h => by cases h) (fun _ _ _ h => ?_) rfl rfl
      cases h
  | otaApiUpdate config => cases reply <;> cases ha
  | _ =>
    refine resumed_shift hcur ht hev (fun _ h => by cases h) (fun _ _ _ h => ?_) rfl rfl
    cases h

theorem abort_shift (s : System) (l : Label) : Shift build s l s.abort := by
  unfold System.abort
  dsimp only
  split
  · refine .still rfl (fun i a ha => .inr ?_) (List.length_map _)
    simp [ha]
  · exact .still rfl (fun _ _ ha => .inl ha) rfl

/-- No step does anything else to the stacks. -/
theorem Branch.shift {s s' : System} {l : Label} (h : Branch build s l s') : Shift build s l s' := by
  cases h with
  | idle => exact .refl s l
  | update hrun hin => exact .pushed (fun _ h => by cases h) hin rfl rfl
  | startTask hrun hin => exact .pushed (fun _ h => by cases h) hin rfl rfl
  | abort hrun hin => exact abort_shift s _
  | returned hrun hcur hd => exact leave_shift hcur hd
  | passed hrun hcur ht he hc =>
    refine resumed_shift hcur ht (.passed ht he hc) (fun config hcall => ?_)
      (fun _ _ _ => criticalSection_not_create hc) rfl rfl
    subst hcall
    cases hc
  | entered hrun hcur ht he hc => exact entering_shift hrun hcur ht he hc
  | answered hrun hcur ht he ha => exact answering_shift hrun hcur ht he ha

theorem step_shift (s : System) (l : Label) : Shift build s l (s.step build l) :=
  (step_branch s l).shift

end Shift

/-! ## What outlasts a step -/

section Lasting

variable {build : BuildOptions} {slot : RunState} {a a' : Activation}

theorem Evolves.routine_eq (h : Evolves slot a a') : a'.routine = a.routine := by
  cases h <;> rfl

theorem Evolves.trace_le (h : Evolves slot a a') : a.trace <+: a'.trace := by
  cases h with
  | same => exact List.prefix_rfl
  | entered _ _ _ => exact List.prefix_rfl
  | passed _ _ _ => exact List.prefix_append _ _
  | answered _ _ _ _ => exact List.prefix_append _ _
  | noticed _ => exact List.prefix_rfl

/-- An activation that has returned has nothing left to do. -/
theorem Evolves.result_eq {r : EspErr} (h : Evolves slot a a') (hr : a.result? = some r) :
    a'.result? = some r := by
  have hd : a.prog.turn = .done r := Turn.eq_done hr
  cases h with
  | same => exact hr
  | noticed _ => exact hr
  | entered ht _ _ => rw [hd] at ht; cases ht
  | passed ht _ _ => rw [hd] at ht; cases ht
  | answered _ ht _ _ => rw [hd] at ht; cases ht

theorem current?_head {s : System} {τ : Task} {i : Nat} (h : s.current? τ = some (i, a)) :
    ∃ rest, s.stack τ = i :: rest := by
  simp only [System.current?, Option.bind_eq_some_iff, Option.map_eq_some_iff] at h
  obtain ⟨j, hj, b, _, hji⟩ := h
  cases hji
  exact List.head?_eq_some_iff.mp hj

/-- Nothing gets onto a stack but a new activation. -/
theorem Shift.stack_mem {s s' : System} {l : Label} (h : Shift build s l s') {τ : Task} {i : Nat}
    (hi : i ∈ s'.stack τ) :
    i ∈ s.stack τ ∨ i = s.activations.length ∧ i < s'.activations.length := by
  have pushed : ∀ {τ' : Task} {acts : List Activation} {a : Activation},
      acts.length = s.activations.length → s'.activations = acts ++ [a] →
      s'.stack = Function.update s.stack τ' (s.activations.length :: s.stack τ') →
      i ∈ s.stack τ ∨ i = s.activations.length ∧ i < s'.activations.length := by
    intro τ' acts a hlen hact hstack
    rw [hstack] at hi
    by_cases hτ : τ = τ'
    · subst hτ
      rw [Function.update_self] at hi
      refine (List.mem_cons.mp hi).symm.imp_right fun hnew => ⟨hnew, ?_⟩
      rw [hact, List.length_append, List.length_singleton]
      omega
    · rw [Function.update_of_ne hτ] at hi
      exact .inl hi
  have popped : ∀ {τ' : Task}, s'.stack = Function.update s.stack τ' (s.stack τ').tail →
      i ∈ s.stack τ := by
    intro τ' hstack
    rw [hstack] at hi
    by_cases hτ : τ = τ'
    · subst hτ
      rw [Function.update_self] at hi
      exact List.mem_of_mem_tail hi
    · rw [Function.update_of_ne hτ] at hi
      exact hi
  cases h with
  | still hstack _ _ => exact .inl (hstack ▸ hi)
  | worked _ _ _ _ hstack _ => exact .inl (hstack ▸ hi)
  | pushed _ _ hstack hact => exact pushed rfl hact hstack
  | called _ _ _ _ hstack hact => exact pushed (List.length_set ..) hact hstack
  | created _ _ _ _ hstack hact => exact pushed (List.length_set ..) hact hstack
  | popped _ _ _ hstack _ => exact .inl (popped hstack)
  | returned _ _ _ _ _ _ hstack _ => exact .inl (popped hstack)

end Lasting

end OtaApi
