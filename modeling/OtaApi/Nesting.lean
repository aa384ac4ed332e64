import OtaApi.Stacks

/-!
# Activations inside activations

A task that was created for `ota_task()` runs that one activation at the bottom of
its stack, and above it the update it has called, which is how the result of an
update gets to the task that made it.
-/

namespace OtaApi

open Interaction

section Task

variable {build : BuildOptions}

/-- An activation of `ota_task()` calls `ota_api_update()`, as a new activation. -/
def CallsUpdate (j i : Nat) (s : System) (l : Label) : Prop :=
  ∃ τ b config, l = .advance τ ∧ s.restarted = false ∧ s.current? τ = some (j, b) ∧
    b.routine = .otaTask config ∧ b.next? = some (.otaApiUpdate config) ∧ b.entered = false ∧
    i = s.activations.length

/-- What is left of `ota_task()` when its update has returned. -/
def afterUpdate (err : EspErr) : Program EspErr :=
  if err = espOk then do
    let never ← ask .restart
    nomatch never
  else do
    let never ← ask .taskDelete
    nomatch never

theorem afterUpdate_steps {r : EspErr} {t : List Event} {p : Program EspErr}
    (h : Steps Prog.turn (afterUpdate r) t p) :
    t = [] ∧ p.turn.next? = some (if r = espOk then .restart else .taskDelete) := by
  unfold afterUpdate at h
  split at h
  · rename_i hok
    rw [if_pos hok]
    cases h with
    | nil _ => exact ⟨rfl, rfl⟩
    | cons ht never _ =>
      cases ht
      cases never
  · rename_i hfailed
    rw [if_neg hfailed]
    cases h with
    | nil _ => exact ⟨rfl, rfl⟩
    | cons ht never _ =>
      cases ht
      cases never

/-- What an activation of `ota_task()` can be waiting for. -/
theorem otaTask_state {b : Activation} (hs : b.Sound build) {config : OtaApiConfig}
    (hr : b.routine = .otaTask config) :
    (b.trace = [] ∧ b.next? = some .free) ∨
      (b.trace = [⟨.free, ()⟩] ∧ b.next? = some (.otaApiUpdate config)) ∨
      ∃ r : EspErr, b.trace = [⟨.free, ()⟩, ⟨.otaApiUpdate config, r⟩] ∧
        b.next? = some (if r = espOk then .restart else .taskDelete) := by
  have hruns := hs.runs
  rw [hr] at hruns
  generalize b.trace = t at hruns ⊢
  rw [Activation.next?]
  generalize b.prog = p at hruns ⊢
  cases hruns with
  | nil _ => exact .inl ⟨rfl, rfl⟩
  | cons ht u rest =>
    cases ht
    cases rest with
    | nil _ => exact .inr (.inl ⟨rfl, rfl⟩)
    | cons ht r rest =>
      cases ht
      have hrest : Steps Prog.turn (afterUpdate r) _ p := rest
      obtain ⟨rfl, hnext⟩ := afterUpdate_steps hrest
      exact .inr (.inr ⟨r, rfl, hnext⟩)

/-- How far an activation of `ota_task()` has come, and what its task is inside of. -/
inductive Stage (build : BuildOptions) (ls : List Label) (s : System) (j : Nat) (b : Activation)
    (config : OtaApiConfig) : Prop where
  | starting (hstack : s.stack (.spawned j) = [j])
      (hnext : b.next? = some .free ∨ b.next? = some (.otaApiUpdate config) ∧ b.entered = false)
  | waiting {i : Nat} {a : Activation} (above : List Nat) (hj : j ∉ above)
      (hstack : s.stack (.spawned j) = above ++ [i, j])
      (hnext : b.next? = some (.otaApiUpdate config)) (he : b.entered = true)
      (hcalls : Sometime (System.step build) (CallsUpdate j i) .initial ls)
      (hget : s.activations[i]? = some a) (hr : a.routine = .otaApiUpdate (some config))
  | back {i : Nat} {a : Activation} {r : EspErr} (hstack : s.stack (.spawned j) = [j])
      (hmem : ⟨.otaApiUpdate config, r⟩ ∈ b.trace)
      (hnext : b.next? = some (if r = espOk then .restart else .taskDelete))
      (hcalls : Sometime (System.step build) (CallsUpdate j i) .initial ls)
      (hget : s.activations[i]? = some a) (hr : a.routine = .otaApiUpdate (some config))
      (hresult : a.result? = some r)

/-- How the stacks are built. -/
structure Nested (build : BuildOptions) (ls : List Label) (s : System) : Prop where
  bound : ∀ τ, ∀ i ∈ s.stack τ, i < s.activations.length
  vacant : ∀ n, s.activations.length ≤ n → s.stack (.spawned n) = []
  home : ∀ τ j b config, s.activations[j]? = some b → b.routine = .otaTask config →
    j ∈ s.stack τ → τ = .spawned j
  stage : ∀ j b config, s.activations[j]? = some b → b.routine = .otaTask config →
    Stage build ls s j b config

theorem nested_initial : Nested build [] .initial := by
  constructor <;> simp [System.initial]

/-- What is not touched stays where it is. -/
theorem Stage.keep {ls : List Label} {l : Label} {s s' : System} {j : Nat} {b b' : Activation}
    {config : OtaApiConfig} (h : Stage build ls s j b config) (hc : Change build s l s')
    (hstack : s'.stack (.spawned j) = s.stack (.spawned j)) (hprog : b'.prog = b.prog)
    (hent : b'.entered = b.entered) (htrace : b'.trace = b.trace) :
    Stage build (ls ++ [l]) s' j b' config := by
  have hn : b'.next? = b.next? := by rw [Activation.next?, Activation.next?, hprog]
  cases h with
  | starting hst hnext =>
    refine .starting (hstack.trans hst) ?_
    rw [hn, hent]
    exact hnext
  | waiting above hj hst hnext he hcalls hget hr =>
    obtain ⟨a', hget', hev⟩ := hc.evolves hget
    exact .waiting above hj (hstack.trans hst) (hn.trans hnext) (hent.trans he) (hcalls.append _)
      hget' (hev.routine_eq.trans hr)
  | back hst hmem hnext hcalls hget hr hresult =>
    obtain ⟨a', hget', hev⟩ := hc.evolves hget
    exact .back (hstack.trans hst) (htrace ▸ hmem) (hn.trans hnext) (hcalls.append _) hget'
      (hev.routine_eq.trans hr) (hev.result_eq hresult)

/-- Nor does it matter what is put on top of a waiting task, or taken from there. -/
theorem Stage.above {ls : List Label} {l : Label} {s s' : System} {j i : Nat} {b : Activation}
    {config : OtaApiConfig} {a : Activation} (hc : Change build s l s') (above : List Nat)
    (hj : j ∉ above) (hstack : s'.stack (.spawned j) = above ++ [i, j])
    (hnext : b.next? = some (.otaApiUpdate config)) (he : b.entered = true)
    (hcalls : Sometime (System.step build) (CallsUpdate j i) .initial ls)
    (hget : s.activations[i]? = some a) (hr : a.routine = .otaApiUpdate (some config)) :
    Stage build (ls ++ [l]) s' j b config := by
  obtain ⟨a', hget', hev⟩ := hc.evolves hget
  exact .waiting above hj hstack hnext he (hcalls.append _) hget' (hev.routine_eq.trans hr)

/-- The calls an activation of `ota_task()` can be at. -/
theorem Stage.next?_cases {ls : List Label} {s : System} {j : Nat} {b : Activation}
    {config : OtaApiConfig} (h : Stage build ls s j b config) :
    b.next? = some .free ∨ b.next? = some (.otaApiUpdate config) ∨ b.next? = some .restart ∨
      b.next? = some .taskDelete := by
  cases h with
  | starting _ hnext => exact hnext.imp_right fun h => .inl h.1
  | waiting _ _ _ hnext _ _ _ _ => exact .inr (.inl hnext)
  | back _ _ hnext _ _ _ _ =>
    split at hnext
    · exact .inr (.inr (.inl hnext))
    · exact .inr (.inr (.inr hnext))

/-- A task that is at the bottom of its stack does not run the application. -/
theorem Stage.not_inApp {ls : List Label} {s : System} {j : Nat} {b : Activation}
    {config : OtaApiConfig} (h : Stage build ls s j b config) (hget : s.activations[j]? = some b)
    (hstack : s.stack (.spawned j) = [j]) : s.inApp (.spawned j) = false := by
  have hcur := current?_alone hstack hget
  have hout : ∀ cb event ctx, b.next? ≠ some (.eventCb cb event ctx) := by
    intro cb event ctx hn
    obtain h | h | h | h := h.next?_cases <;> cases hn.symm.trans h
  unfold System.inApp
  rw [hcur]
  dsimp only
  split
  · rename_i cb event ctx hn
    exact absurd hn (hout cb event ctx)
  · rfl

/-- An activation of `ota_task()` never comes to its end. -/
theorem Stage.not_done {ls : List Label} {s : System} {j : Nat} {b : Activation}
    {config : OtaApiConfig} (h : Stage build ls s j b config) {r : EspErr}
    (hd : b.prog.turn = .done r) : False := by
  have hn : b.next? = none := by
    rw [Activation.next?, hd]
    rfl
  obtain h | h | h | h := h.next?_cases <;> cases hn.symm.trans h

theorem next?_of_turn {b : Activation} {c : Call} {k : Answer c → Program EspErr}
    (ht : b.prog.turn = .call c k) : b.next? = some c := by
  rw [Activation.next?, ht]
  rfl

/-- The activation a task is in the middle of calling the update from. -/
theorem Stage.calling {ls : List Label} {s : System} {j : Nat} {b : Activation}
    {config config' : OtaApiConfig} (h : Stage build ls s j b config)
    (hnext : b.next? = some (.otaApiUpdate config')) (he : b.entered = false) :
    s.stack (.spawned j) = [j] ∧ config' = config := by
  cases h with
  | starting hstack hn =>
    refine ⟨hstack, ?_⟩
    rw [hnext] at hn
    obtain h | ⟨h, _⟩ := hn
    · cases h
    · cases h
      rfl
  | waiting _ _ _ _ he' _ _ _ =>
    rw [he] at he'
    cases he'
  | back _ _ hn _ _ _ _ =>
    rw [hnext] at hn
    split at hn <;> cases hn

/-- What an activation of `ota_task()` does by itself leaves it in its stage. -/
theorem Stage.work {ls : List Label} {l : Label} {s s' : System} {j : Nat} {b b' : Activation}
    {config : OtaApiConfig} (h : Stage build ls s j b config) (hc : Change build s l s')
    (hstack : s'.stack = s.stack) (hs' : b'.Sound build) (hr : b'.routine = .otaTask config)
    (hev : Evolves s.slot b b') (ht : ∀ config, b.next? ≠ some (.otaApiUpdate config)) :
    Stage build (ls ++ [l]) s' j b' config := by
  have hst : s'.stack (.spawned j) = s.stack (.spawned j) := by rw [hstack]
  cases hev with
  | same => exact h.keep hc hst rfl rfl rfl
  | noticed _ => exact h.keep hc hst rfl rfl rfl
  | entered htn he hcrit =>
    cases h with
    | starting hold hnext => exact .starting (hst.trans hold) (.inl (hnext.resolve_right fun h => ht _ h.1))
    | waiting _ _ _ hnext _ _ _ _ => exact absurd hnext (ht _)
    | back hold hmem hnext hcalls hget hru hresult =>
      obtain ⟨a', hget', hev'⟩ := hc.evolves hget
      exact .back (hst.trans hold) hmem hnext (hcalls.append _) hget'
        (hev'.routine_eq.trans hru) (hev'.result_eq hresult)
  | @passed c k answer slot' htn he hcs =>
    have hcrit := critical_of_criticalSection hcs
    have hn := next?_of_turn htn
    obtain h | h | h | h := h.next?_cases <;> cases hn.symm.trans h <;> cases hcrit
  | @answered c k answer htn he hcrit =>
    have hn := next?_of_turn htn
    cases h with
    | starting hold hnext =>
      -- the copy of the configuration is freed, and the update comes next
      have hfree := hnext.resolve_right fun h => ht _ h.1
      rw [hn] at hfree
      cases hfree
      obtain ⟨htrace, _⟩ | ⟨_, hn'⟩ | ⟨r, htrace, _⟩ := otaTask_state hs' hr
      · simp [Activation.resume] at htrace
      · exact .starting (hst.trans hold) (.inr ⟨hn', rfl⟩)
      · have hlast := congrArg List.getLast? htrace
        simp [Activation.resume] at hlast
    | waiting _ _ _ hnext _ _ _ _ => exact absurd hnext (ht _)
    | back _ _ hnext _ _ _ _ =>
      rw [hn] at hnext
      split at hnext
      · cases hnext
        exact Empty.elim answer
      · cases hnext
        exact Empty.elim answer

theorem stack_other {s s' : System} {τ τ' : Task} {st : List Nat}
    (hstack : s'.stack = Function.update s.stack τ st) (hτ : τ' ≠ τ) : s'.stack τ' = s.stack τ' := by
  rw [hstack, Function.update_of_ne hτ]

theorem stack_self {s s' : System} {τ : Task} {st : List Nat}
    (hstack : s'.stack = Function.update s.stack τ st) : s'.stack τ = st := by
  rw [hstack, Function.update_self]

/-- A new activation on top of a waiting task, or of another task. -/
theorem Stage.push {ls : List Label} {l : Label} {s s' : System} {j : Nat} {b : Activation}
    {config : OtaApiConfig} {τ : Task} (h : Stage build ls s j b config)
    (hc : Change build s l s') (hj : j < s.activations.length)
    (hstack : s'.stack = Function.update s.stack τ (s.activations.length :: s.stack τ))
    (halone : τ = .spawned j → s.stack (.spawned j) ≠ [j]) :
    Stage build (ls ++ [l]) s' j b config := by
  by_cases hτ : τ = .spawned j
  · subst hτ
    cases h with
    | starting hst _ => exact absurd hst (halone rfl)
    | back hst _ _ _ _ _ _ => exact absurd hst (halone rfl)
    | waiting above hja hst hnext he hcalls hget hr =>
      refine Stage.above hc (s.activations.length :: above) ?_ ?_ hnext he hcalls hget hr
      · simp only [List.mem_cons, not_or]
        exact ⟨by omega, hja⟩
      · rw [stack_self hstack, hst]
        rfl
  · exact h.keep hc (stack_other hstack (Ne.symm hτ)) rfl rfl rfl

/-- An activation other than the one that is called for leaves the top of the task. -/
theorem Stage.pop {ls : List Label} {l : Label} {s s' : System} {j m : Nat} {a b : Activation}
    {config : OtaApiConfig} {τ : Task} {r : EspErr} (h : Stage build ls s j b config)
    (hc : Change build s l s') (hget : s.activations[j]? = some b)
    (hcur : s.current? τ = some (m, a)) (hd : a.prog.turn = .done r)
    (hstack : s'.stack = Function.update s.stack τ (s.stack τ).tail)
    (hbelow : b.entered = true → b.next? = some (.otaApiUpdate config) →
      (s.stack τ).tail.head? ≠ some j) : Stage build (ls ++ [l]) s' j b config := by
  by_cases hτ : τ = .spawned j
  · subst hτ
    obtain ⟨rest, hhead⟩ := current?_head hcur
    have halone : s.stack (.spawned j) ≠ [j] := by
      intro hst
      have hcur' := current?_alone hst hget
      rw [hcur] at hcur'
      cases hcur'
      exact h.not_done hd
    cases h with
    | starting hst _ => exact absurd hst halone
    | back hst _ _ _ _ _ _ => exact absurd hst halone
    | waiting above hja hst hnext he hcalls hupd hr =>
      cases above with
      | nil =>
        refine absurd ?_ (hbelow he hnext)
        rw [hst]
        rfl
      | cons x above =>
        refine Stage.above hc above (fun hmem => hja (List.mem_cons_of_mem x hmem)) ?_ hnext he
          hcalls hupd hr
        rw [stack_self hstack, hst]
        rfl
  · exact h.keep hc (stack_other hstack (Ne.symm hτ)) rfl rfl rfl

/-- The update of a task returns to it. -/
theorem Stage.return {ls : List Label} {l : Label} {s s' : System} {j m : Nat} {a b : Activation}
    {config config' : OtaApiConfig} {k : EspErr → Program EspErr} {r : EspErr}
    (h : Stage build ls s j b config) (hc : Change build s l s')
    (hcur : s.current? (.spawned j) = some (m, a)) (hd : a.prog.turn = .done r)
    (hbelow : (s.stack (.spawned j)).tail.head? = some j)
    (hnotask : ∀ i a, s.activations[i]? = some a → a.routine = .otaApiUpdate (some config) → i ≠ j)
    (ht : b.prog.turn = .call (.otaApiUpdate config') k) (he : b.entered = true)
    (hs' : (@Activation.resume (.otaApiUpdate config') b k r).Sound build)
    (hr : b.routine = .otaTask config)
    (hstack : s'.stack = Function.update s.stack (.spawned j) (s.stack (.spawned j)).tail) :
    Stage build (ls ++ [l]) s' j (@Activation.resume (.otaApiUpdate config') b k r) config := by
  have hnext := next?_of_turn ht
  cases h with
  | starting _ hn =>
    rw [hnext] at hn
    obtain h | ⟨_, h⟩ := hn
    · cases h
    · rw [he] at h
      cases h
  | back _ _ hn _ _ _ _ =>
    rw [hnext] at hn
    split at hn <;> cases hn
  | @waiting i u above hja hst hn _ hcalls hget hru =>
    rw [hnext] at hn
    cases hn
    cases above with
    | cons x above =>
      rw [hst] at hbelow
      cases above with
      | nil =>
        cases hbelow
        exact absurd rfl (hnotask _ _ hget hru)
      | cons y above =>
        cases hbelow
        simp at hja
    | nil =>
      have hu : u = a := by
        have hm := current?_get hcur
        obtain ⟨rest, hhead⟩ := current?_head hcur
        rw [hst] at hhead
        cases hhead
        rw [hget] at hm
        cases hm
        rfl
      subst hu
      obtain ⟨u', hget', hev⟩ := hc.evolves hget
      have hresult : u.result? = some r := by
        rw [Activation.result?, hd]
        rfl
      obtain ⟨htrace, _⟩ | ⟨htrace, _⟩ | ⟨r', htrace, hn'⟩ := otaTask_state hs' hr
      · simp [Activation.resume] at htrace
      · have hlast := congrArg List.getLast? htrace
        simp [Activation.resume] at hlast
      · have hlast := congrArg List.getLast? htrace
        simp [Activation.resume] at hlast
        subst hlast
        refine .back ?_ List.mem_concat_self hn' (hcalls.append _) hget'
          (hev.routine_eq.trans hru) (hev.result_eq hresult)
        rw [stack_self hstack, hst]
        rfl

theorem getElem?_set_ne_append {l new : List Activation} {i j : Nat} {a b : Activation}
    (hij : j ≠ i) (hb : l[j]? = some b) : (l.set i a ++ new)[j]? = some b := by
  obtain ⟨hlt, _⟩ := List.getElem?_eq_some_iff.mp hb
  rw [List.getElem?_append_left (by simpa using hlt), List.getElem?_set_ne (Ne.symm hij), hb]

/-- Each step leaves every activation of `ota_task()` in a stage. -/
theorem stage_step {ls : List Label} {l : Label} {j : Nat} {b b' : Activation}
    {config : OtaApiConfig} (h : Nested build ls (System.run build ls))
    (hget : (System.run build ls).activations[j]? = some b) (hr : b.routine = .otaTask config)
    (hget' : ((System.run build ls).step build l).activations[j]? = some b')
    (hs' : b'.Sound build) :
    Stage build (ls ++ [l]) ((System.run build ls).step build l) j b' config := by
  have hst := h.stage j b config hget hr
  have hc := @step_change build (System.run build ls) l
  have hj : j < (System.run build ls).activations.length := (List.getElem?_eq_some_iff.mp hget).1
  have same : ∀ {s' : System} {new : List Activation} {i : Nat} {a a' : Activation},
      s'.activations = (System.run build ls).activations.set i a ++ new → j ≠ i →
      s'.activations[j]? = some a' → a' = b := by
    intro s' new i a a' hact hij ha'
    rw [hact, getElem?_set_ne_append hij hget] at ha'
    cases ha'
    rfl
  cases @step_shift build (System.run build ls) l with
  | still hstack hact hlen =>
    obtain hkept | hkept := hact j b hget
    · rw [hget'] at hkept
      cases hkept
      exact hst.keep hc (congrFun hstack _) rfl rfl rfl
    · rw [hget'] at hkept
      cases hkept
      exact hst.keep hc (congrFun hstack _) rfl rfl rfl
  | @pushed _ τ r _ hrout hin hstack hact =>
    rw [hact, List.getElem?_append_left hj, hget] at hget'
    cases hget'
    refine hst.push hc hj hstack fun hτ halone => ?_
    rw [hτ, hst.not_inApp hget halone] at hin
    cases hin
  | @called τ m a config' k _ hrun hcur ht he hstack hact =>
    by_cases hjm : j = m
    · subst hjm
      have ha := current?_get hcur
      rw [hget] at ha
      cases ha
      obtain ⟨rest, hhead⟩ := current?_head hcur
      obtain rfl := h.home τ j b config hget hr (by rw [hhead]; exact List.mem_cons_self)
      obtain ⟨halone, rfl⟩ := hst.calling (next?_of_turn ht) he
      rw [hact, List.getElem?_append_left (by simpa using hj), List.getElem?_set_self hj] at hget'
      cases hget'
      refine @Stage.waiting _ _ _ _ _ _ (System.run build ls).activations.length
        (.start build (.otaApiUpdate (some config'))) [] List.not_mem_nil ?_ (next?_of_turn ht) rfl
        ?_ ?_ rfl
      · rw [stack_self hstack, halone]
        rfl
      · exact Sometime.last ⟨_, b, config', rfl, hrun, hcur, hr, next?_of_turn ht, he, rfl⟩
      · rw [hact, List.getElem?_append_right (by simp)]
        simp
    · obtain rfl := same hact hjm hget'
      refine hst.push hc hj hstack fun hτ halone => hjm ?_
      have hcur' := current?_alone halone hget
      rw [← hτ, hcur] at hcur'
      cases hcur'
      rfl
  | @created τ m a size priority config' k _ hrun hcur ht he hstack hact =>
    have hjm : j ≠ m := by
      rintro rfl
      have ha := current?_get hcur
      rw [hget] at ha
      cases ha
      have hn := next?_of_turn ht
      obtain ⟨_, hn'⟩ | ⟨_, hn'⟩ | ⟨r, _, hn'⟩ := otaTask_state (run_sound hget) hr
      · rw [hn] at hn'
        cases hn'
      · rw [hn] at hn'
        cases hn'
      · rw [hn] at hn'
        split at hn' <;> cases hn'
    obtain rfl := same hact hjm hget'
    refine hst.keep hc (stack_other hstack fun hτ => ?_) rfl rfl rfl
    cases hτ
    exact Nat.lt_irrefl _ hj
  | @worked _ τ m a a' _ hcur hev ht hcreate hstack hact =>
    by_cases hjm : j = m
    · subst hjm
      have ha := current?_get hcur
      rw [hget] at ha
      cases ha
      rw [hact, List.getElem?_set_self hj] at hget'
      cases hget'
      exact hst.work hc hstack hs' (hev.routine_eq.trans hr) hev ht
    · rw [← List.append_nil (List.set _ _ _)] at hact
      obtain rfl := same hact hjm hget'
      exact hst.keep hc (congrFun hstack _) rfl rfl rfl
  | @popped τ m a r _ hcur hd hbelow hstack hact =>
    rw [hact, hget] at hget'
    cases hget'
    refine hst.pop hc hget hcur hd hstack fun he hn hhead => ?_
    rw [hbelow j b config hhead hget hn] at he
    cases he
  | @returned τ m n a c r config' k _ hcur hd hbelow hn ht he hstack hact =>
    by_cases hjn : j = n
    · subst hjn
      rw [hget] at hn
      cases hn
      have hmem : j ∈ (System.run build ls).stack τ :=
        List.mem_of_mem_tail (List.mem_of_head? hbelow)
      obtain rfl := h.home τ j b config hget hr hmem
      rw [hact, List.getElem?_set_self hj] at hget'
      cases hget'
      refine hst.return hc hcur hd hbelow (fun i u hu hru hij => ?_) ht he hs' hr hstack
      subst hij
      rw [hget] at hu
      cases hu
      rw [hr] at hru
      cases hru
    · rw [← List.append_nil (List.set _ _ _)] at hact
      obtain rfl := same hact hjn hget'
      refine hst.pop hc hget hcur hd hstack fun _ _ hhead => hjn ?_
      rw [hbelow] at hhead
      cases hhead
      rfl

/-- A task that nobody has created stays where it is, unless this step creates it. -/
theorem vacant_step {ls : List Label} {l : Label} (h : Nested build ls (System.run build ls))
    {n : Nat} (hn : ((System.run build ls).step build l).activations.length ≤ n) :
    ((System.run build ls).step build l).stack (.spawned n) = [] := by
  have hlen := (@step_change build (System.run build ls) l).length_le
  have hempty := h.vacant n (Nat.le_trans hlen hn)
  have hidle : ∀ {τ : Task} {i : Nat} {a : Activation},
      (System.run build ls).current? τ = some (i, a) → Task.spawned n ≠ τ := by
    rintro τ i a hcur rfl
    obtain ⟨rest, hhead⟩ := current?_head hcur
    rw [hempty] at hhead
    cases hhead
  cases @step_shift build (System.run build ls) l with
  | still hstack _ _ => rw [hstack, hempty]
  | worked _ _ _ _ hstack _ => rw [hstack, hempty]
  | called _ hcur _ _ hstack _ => rw [stack_other hstack (hidle hcur), hempty]
  | popped hcur _ _ hstack _ => rw [stack_other hstack (hidle hcur), hempty]
  | returned hcur _ _ _ _ _ hstack _ => rw [stack_other hstack (hidle hcur), hempty]
  | @pushed _ τ r _ _ hin hstack _ =>
    have hτ : Task.spawned n ≠ τ := by
      rintro rfl
      simp [System.inApp, System.current?, hempty] at hin
    rw [stack_other hstack hτ, hempty]
  | @created τ i a size priority config k _ _ _ _ _ hstack hact =>
    have hτ : Task.spawned n ≠ .spawned (System.run build ls).activations.length := by
      intro heq
      cases heq
      rw [hact, List.length_append, List.length_set, List.length_singleton] at hn
      omega
    rw [stack_other hstack hτ, hempty]

/-- A new activation of `ota_task()` is one that this step creates a task for. -/
theorem new_task {s s' : System} {l : Label} (h : Shift build s l s') {j : Nat} {b : Activation}
    {config : OtaApiConfig} (hnone : s.activations[j]? = none) (hget : s'.activations[j]? = some b)
    (hr : b.routine = .otaTask config) :
    j = s.activations.length ∧ b = .start build (.otaTask config) ∧
      s'.stack = Function.update s.stack (.spawned j) (j :: s.stack (.spawned j)) := by
  have hle : s.activations.length ≤ j := by simpa using hnone
  obtain ⟨hlt, _⟩ := List.getElem?_eq_some_iff.mp hget
  have added : ∀ {acts : List Activation} {r : Routine}, acts.length = s.activations.length →
      s'.activations = acts ++ [.start build r] →
      j = s.activations.length ∧ b = .start build r := by
    intro acts r hlen hact
    have hj : j = s.activations.length := by
      rw [hact, List.length_append, hlen, List.length_singleton] at hlt
      omega
    rw [hact, hj, ← hlen, List.getElem?_concat_length] at hget
    cases hget
    exact ⟨hj, rfl⟩
  cases h with
  | still _ _ hlen => omega
  | worked _ _ _ _ _ hact =>
    rw [hact, List.length_set] at hlt
    omega
  | popped _ _ _ _ hact =>
    rw [hact] at hlt
    omega
  | returned _ _ _ _ _ _ _ hact =>
    rw [hact, List.length_set] at hlt
    omega
  | @pushed _ _ r _ hrout _ _ hact =>
    obtain ⟨_, rfl⟩ := added rfl hact
    exact absurd hr (hrout config)
  | called _ _ _ _ _ hact =>
    obtain ⟨_, rfl⟩ := added (List.length_set ..) hact
    cases hr
  | created _ _ _ _ hstack hact =>
    obtain ⟨rfl, rfl⟩ := added (List.length_set ..) hact
    cases hr
    exact ⟨rfl, rfl, hstack⟩

theorem nested_step {ls : List Label} {l : Label} (h : Nested build ls (System.run build ls)) :
    Nested build (ls ++ [l]) ((System.run build ls).step build l) := by
  have hc := @step_change build (System.run build ls) l
  have hshift := @step_shift build (System.run build ls) l
  have hrun : ∀ (i : Nat) (a : Activation), ((System.run build ls).step build l).activations[i]? = some a →
      a.Sound build := by
    intro i a ha
    have hsnoc : System.run build (ls ++ [l]) = (System.run build ls).step build l := exec_snoc _ ls l
    rw [← hsnoc] at ha
    exact run_sound ha
  constructor
  case bound =>
    intro τ i hi
    obtain hold | ⟨_, hlt⟩ := hshift.stack_mem hi
    · exact Nat.lt_of_lt_of_le (h.bound τ i hold) hc.length_le
    · exact hlt
  case vacant =>
    intro n hn
    exact vacant_step h hn
  case home =>
    intro τ j b' config hget' hr hmem
    obtain ⟨b, hget, hev⟩ | ⟨hnone, _⟩ := hc.origin hget'
    · obtain hold | ⟨rfl, _⟩ := hshift.stack_mem hmem
      · exact h.home τ j b config hget (hev.routine_eq.symm.trans hr) hold
      · simp at hget
    · obtain ⟨rfl, _, hstack⟩ := new_task hshift hnone hget' hr
      by_contra hτ
      rw [stack_other hstack hτ] at hmem
      exact Nat.lt_irrefl _ (h.bound τ _ hmem)
  case stage =>
    intro j b' config hget' hr
    obtain ⟨b, hget, hev⟩ | ⟨hnone, _⟩ := hc.origin hget'
    · exact stage_step h hget (hev.routine_eq.symm.trans hr) hget' (hrun j b' hget')
    · obtain ⟨rfl, rfl, hstack⟩ := new_task hshift hnone hget' hr
      refine .starting ?_ (.inl rfl)
      rw [stack_self hstack, h.vacant _ (Nat.le_refl _)]

theorem run_nested (ls : List Label) : Nested build ls (System.run build ls) := by
  induction ls using List.reverseRecOn with
  | nil => exact nested_initial
  | append_singleton ls l ih =>
    rw [System.run, exec_snoc]
    exact nested_step ih

end Task

end OtaApi
