import OtaApi.Advanced
import OtaApi.Placement

/-!
# Updates in the background

What the component looks like when updates are only ever started by the console, and a
callback does not call the component. Each task that was created is at its start, in the
one update it has called, or back from it, and a step of one task leaves the others as
they are.
-/

namespace OtaApi

open Interaction

namespace Advanced

open CText

section Shape

variable {o : Options} {s : System}

/-- What the application has the component run. -/
inductive Options.Ours (o : Options) : Routine → Prop where
  | startTask (url : Str) : o.Ours (.otaApiStartTask (some (o.otaConfig url)))
  | task (url : Str) : o.Ours (.otaTask (o.otaConfig url))
  | update (url : Str) : o.Ours (.otaApiUpdate (some (o.otaConfig url)))

/-- The steps the application has the component take. -/
inductive Client (o : Options) (s : System) : OtaApi.Label → Prop where
  | startTask (url : Str) (hidle : s.stack consoleTask = []) :
      Client o s (.otaApiStartTask consoleTask (some (o.otaConfig url)))
  | abort : Client o s (.otaApiAbort consoleTask)
  | goesOn {τ : Task} {l : OtaApi.Label} (hl : l.of τ) : Client o s l

/-- Who is inside of what. -/
structure Shape (o : Options) (s : System) : Prop where
  reached : ∃ ls, s = System.run o.build ls
  ours : ∀ (i : Nat) (a : Activation), s.activations[i]? = some a → o.Ours a.routine
  apps : ∀ n, n ≠ 0 → s.stack (.app n) = []
  console : s.stack consoleTask = [] ∨ ∃ k a url, s.stack consoleTask = [k] ∧
    s.activations[k]? = some a ∧ a.routine = .otaApiStartTask (some (o.otaConfig url))
  tasks : ∀ n, s.stack (.spawned n) ≠ [] → ∃ b url, s.activations[n]? = some b ∧
    b.routine = .otaTask (o.otaConfig url) ∧ (s.stack (.spawned n)).length ≤ 2

theorem shape_initial (o : Options) : Shape o .initial := by
  refine ⟨⟨[], rfl⟩, ?_, fun _ _ => rfl, .inl rfl, ?_⟩ <;> simp [System.initial]

theorem Shape.nested (h : Shape o s) : ∃ ls, s = System.run o.build ls ∧ Nested o.build ls s := by
  obtain ⟨ls, rfl⟩ := h.reached
  exact ⟨ls, rfl, run_nested ls⟩

theorem Shape.placed (h : Shape o s) : Placed s := by
  obtain ⟨ls, rfl⟩ := h.reached
  exact run_placed o.build ls

theorem Shape.sound (h : Shape o s) {i : Nat} {a : Activation} (ha : s.activations[i]? = some a) :
    a.Sound o.build := by
  obtain ⟨ls, rfl⟩ := h.reached
  exact run_sound ha

theorem otaConfig_updates {a : Activation} {url : Str}
    (hr : a.routine = .otaApiUpdate (some (o.otaConfig url))) :
    a.Updates (o.otaConfig url) url.text := ⟨hr, rfl⟩

/-- Where a task that was created is. -/
inductive TaskAt (o : Options) (s : System) (n : Nat) (b : Activation) (url : Str) : Prop where
  | starting (hstack : s.stack (.spawned n) = [n])
      (hnext : b.next? = some .free ∨
        b.next? = some (.otaApiUpdate (o.otaConfig url)) ∧ b.entered = false)
  | inside {i : Nat} {a : Activation} (hstack : s.stack (.spawned n) = [i, n])
      (hnext : b.next? = some (.otaApiUpdate (o.otaConfig url))) (he : b.entered = true)
      (hget : s.activations[i]? = some a)
      (hr : a.routine = .otaApiUpdate (some (o.otaConfig url)))
  | back {r : EspErr} (hstack : s.stack (.spawned n) = [n])
      (hnext : b.next? = some (if r = espOk then .restart else .taskDelete))

theorem Shape.at_task (h : Shape o s) {n : Nat} {b : Activation} {url : Str}
    (hb : s.activations[n]? = some b) (hr : b.routine = .otaTask (o.otaConfig url)) :
    TaskAt o s n b url := by
  obtain ⟨ls, _, hnested⟩ := h.nested
  cases hnested.stage n b _ hb hr with
  | starting hstack hnext => exact .starting hstack hnext
  | @waiting i a above hn hstack hnext he _ hget hru =>
    obtain ⟨_, _, _, _, hlen⟩ := h.tasks n (by simp [hstack])
    have habove : above = [] := by
      rw [hstack, List.length_append] at hlen
      exact List.length_eq_zero_iff.mp (by simpa using hlen)
    rw [habove] at hstack
    exact .inside hstack hnext he hget hru
  | back hstack _ hnext _ _ _ _ => exact .back hstack hnext

/-- An update that has not returned is what some task is inside of. -/
theorem Shape.update_at (h : Shape o s) {i : Nat} {a : Activation} {config : Option OtaApiConfig}
    (ha : s.activations[i]? = some a) (hr : a.routine = .otaApiUpdate config)
    (hres : a.result? = none) :
    ∃ n b url, s.activations[n]? = some b ∧ b.routine = .otaTask (o.otaConfig url) ∧
      s.stack (.spawned n) = [i, n] := by
  have hplaced : ∃ τ, i ∈ s.stack τ := by
    by_contra hout
    obtain ⟨r, hr⟩ := h.placed.ended i a ha fun τ hi => hout ⟨τ, hi⟩
    rw [hres] at hr
    cases hr
  obtain ⟨τ, hi⟩ := hplaced
  cases τ with
  | app m =>
    by_cases hm : m = 0
    · subst hm
      obtain hempty | ⟨k, c, url, hstack, hk, hrc⟩ := h.console
      · rw [show Task.app 0 = consoleTask from rfl, hempty] at hi
        cases hi
      · rw [show Task.app 0 = consoleTask from rfl, hstack] at hi
        obtain rfl := List.mem_singleton.mp hi
        rw [ha] at hk
        cases hk
        rw [hr] at hrc
        cases hrc
    · rw [h.apps m hm] at hi
      cases hi
  | spawned n =>
    obtain ⟨b, url, hb, hrb, _⟩ := h.tasks n (List.ne_nil_of_mem hi)
    have hne : i ≠ n := by
      rintro rfl
      rw [ha] at hb
      cases hb
      rw [hr] at hrb
      cases hrb
    refine ⟨n, b, url, hb, hrb, ?_⟩
    cases h.at_task hb hrb with
    | starting hstack _ =>
      rw [hstack] at hi
      exact absurd (List.mem_singleton.mp hi) hne
    | back hstack _ =>
      rw [hstack] at hi
      exact absurd (List.mem_singleton.mp hi) hne
    | inside hstack _ _ _ _ =>
      rw [hstack] at hi ⊢
      obtain rfl | hi := List.mem_cons.mp hi
      · rfl
      · exact absurd (List.mem_singleton.mp hi) hne

/-- What a step adds is what the application has the component run. -/
theorem added_ours {l : OtaApi.Label} {a' : Activation} (h : Shape o s) (hc : Client o s l)
    (ha : Added o.build s l a') : o.Ours a'.routine := by
  cases ha with
  | update => cases hc with | goesOn hl => obtain h | ⟨_, h⟩ := hl <;> cases h
  | startTask =>
    cases hc with
    | goesOn hl => obtain h | ⟨_, h⟩ := hl <;> cases h
    | startTask url _ => exact .startTask url
  | @called τ i a config hcur hnext _ =>
    have hget := current?_get hcur
    have hours := h.ours i a hget
    rw [calling_task (h.sound hget) hnext] at hours
    cases hours
    exact .update _
  | @created τ reply i a size priority config hcur hnext _ =>
    have hget := current?_get hcur
    have hours := h.ours i a hget
    rw [creating_start (h.sound hget) hnext] at hours
    cases hours
    exact .task _

theorem Shape.vacant (h : Shape o s) {n : Nat} (hn : s.activations.length ≤ n) :
    s.stack (.spawned n) = [] := by
  obtain ⟨_, _, hnested⟩ := h.nested
  exact hnested.vacant n hn

/-- A task that is inside of something is one that was created. -/
theorem Shape.created (h : Shape o s) {n : Nat} (hne : s.stack (.spawned n) ≠ []) :
    n < s.activations.length := by
  by_contra hle
  exact hne (h.vacant (by omega))

/-- What a step makes of the stack of its task. -/
theorem Shape.self_stack (h : Shape o s) {τ : Task} {l : OtaApi.Label} (hl : l.of τ) :
    (s.step o.build l).stack τ = s.stack τ ∨ (s.step o.build l).stack τ = (s.stack τ).tail ∨
      ∃ i a config, s.current? τ = some (i, a) ∧ a.next? = some (.otaApiUpdate config) ∧
        a.entered = false ∧ (s.step o.build l).stack τ = s.activations.length :: s.stack τ := by
  have acting : ∀ {τ' : Task}, OtaApi.Label.of τ' l → τ' = τ := by
    rintro τ' (rfl | ⟨reply, rfl⟩)
    · obtain h | ⟨_, h⟩ := hl
      · cases h
        rfl
      · cases h
    · obtain h | ⟨_, h⟩ := hl
      · cases h
      · cases h
        rfl
  have hbranch := @step_branch o.build s l
  generalize s.step o.build l = s' at hbranch ⊢
  cases hbranch with
  | idle => exact .inl rfl
  | update _ _ => obtain h | ⟨_, h⟩ := hl <;> cases h
  | startTask _ _ => obtain h | ⟨_, h⟩ := hl <;> cases h
  | abort _ _ => obtain h | ⟨_, h⟩ := hl <;> cases h
  | @returned τ' i a r _ hcur hd =>
    obtain rfl := acting (.inl rfl)
    exact .inr (.inl (stack_self (leave_cases s τ' r).1))
  | passed _ hcur ht he hc => exact .inl rfl
  | @entered τ' i a c k _ hcur ht he hc =>
    obtain rfl := acting (.inl rfl)
    cases c with
    | otaApiUpdate config =>
      refine .inr (.inr ⟨i, a, config, hcur, next?_of_turn ht, he, ?_⟩)
      simp [System.entering, System.call, System.put]
    | _ => exact .inl rfl
  | @answered τ' reply i a c k answer _ hcur ht he ha =>
    obtain rfl := acting (.inr ⟨reply, rfl⟩)
    refine .inl (answering_stack _ _ τ' fun n hn => ?_)
    subst hn
    obtain ⟨rest, hhead⟩ := current?_head hcur
    simpa [System.put] using h.created (by simp [hhead])

/-- A task of the console that is about to call the update there is none. -/
theorem Shape.console_calls (h : Shape o s) {i : Nat} {a : Activation} {config : OtaApiConfig}
    (hcur : s.current? consoleTask = some (i, a)) (hn : a.next? = some (.otaApiUpdate config)) :
    False := by
  obtain ⟨rest, hhead⟩ := current?_head hcur
  obtain hempty | ⟨k, c, url, hstack, hk, hrc⟩ := h.console
  · rw [hempty] at hhead
    cases hhead
  · rw [hstack] at hhead
    cases hhead
    have hget := current?_get hcur
    rw [hk] at hget
    cases hget
    have hr := calling_task (h.sound hk) hn
    rw [hrc] at hr
    cases hr

/-- The console is at most in one call of `ota_api_start_task()`. -/
theorem shape_console {l : OtaApi.Label} (h : Shape o s) (hc : Client o s l) :
    (s.step o.build l).stack consoleTask = [] ∨ ∃ k a url,
      (s.step o.build l).stack consoleTask = [k] ∧ (s.step o.build l).activations[k]? = some a ∧
      a.routine = .otaApiStartTask (some (o.otaConfig url)) := by
  have kept : (s.step o.build l).stack consoleTask = s.stack consoleTask →
      (s.step o.build l).stack consoleTask = [] ∨ ∃ k a url,
        (s.step o.build l).stack consoleTask = [k] ∧
        (s.step o.build l).activations[k]? = some a ∧
        a.routine = .otaApiStartTask (some (o.otaConfig url)) := by
    intro hstack
    obtain hempty | ⟨k, a, url, hk, ha, hr⟩ := h.console
    · exact .inl (hstack.trans hempty)
    · obtain ⟨a', ha', hev⟩ := (@step_change o.build s l).evolves ha
      exact .inr ⟨k, a', url, hstack.trans hk, ha', hev.routine_eq.trans hr⟩
  cases hc with
  | abort =>
    obtain ⟨_, hstack, _⟩ := @abort_elsewhere o.build s consoleTask consoleTask
    exact kept (congrFun hstack _)
  | startTask url hidle =>
    by_cases hrun : s.restarted = true
    · exact kept (by simp [System.step, hrun])
    · have hcur : s.current? consoleTask = none := by simp [System.current?, hidle]
      have hin : s.inApp consoleTask = true := by
        simp only [System.inApp, hcur]
        rfl
      refine .inr ⟨s.activations.length, .start o.build (.otaApiStartTask (some (o.otaConfig url))), url,
        ?_, ?_, rfl⟩
      · simp [System.step, hrun, hin, System.call, hidle]
      · simp [System.step, hrun, hin, System.call]
  | @goesOn τ _ hl =>
    by_cases hτ : consoleTask = τ
    · subst hτ
      obtain hsame | htail | ⟨i, a, config, hcur, hn, _⟩ := h.self_stack hl
      · exact kept hsame
      · refine .inl (htail.trans ?_)
        obtain hempty | ⟨k, _, _, hk, _⟩ := h.console
        · rw [hempty]
          rfl
        · rw [hk]
          rfl
      · exact (h.console_calls hcur hn).elim
    · exact kept ((step_elsewhere hl).stack consoleTask hτ fun n hn => by cases hn)

/-- A task that was not there before has been created by this step. -/
theorem new_task_shape {l : OtaApi.Label} (h : Shape o s) {n : Nat} (hn : s.activations.length ≤ n)
    (hne : (s.step o.build l).stack (.spawned n) ≠ []) : ∃ b url,
      (s.step o.build l).activations[n]? = some b ∧ b.routine = .otaTask (o.otaConfig url) ∧
      ((s.step o.build l).stack (.spawned n)).length ≤ 2 := by
  have hempty := h.vacant hn
  have idle : ∀ {τ : Task} {i : Nat} {a : Activation}, s.current? τ = some (i, a) →
      Task.spawned n ≠ τ := by
    rintro τ i a hcur rfl
    obtain ⟨rest, hhead⟩ := current?_head hcur
    rw [hempty] at hhead
    cases hhead
  cases @step_shift o.build s l with
  | still hstack _ _ =>
    rw [hstack] at hne
    exact absurd hempty hne
  | worked _ _ _ _ hstack _ =>
    rw [hstack] at hne
    exact absurd hempty hne
  | called _ hcur _ _ hstack _ =>
    rw [stack_other hstack (idle hcur)] at hne
    exact absurd hempty hne
  | popped hcur _ _ hstack _ =>
    rw [stack_other hstack (idle hcur)] at hne
    exact absurd hempty hne
  | returned hcur _ _ _ _ _ hstack _ =>
    rw [stack_other hstack (idle hcur)] at hne
    exact absurd hempty hne
  | @pushed _ τ r _ _ hin hstack _ =>
    have hτ : Task.spawned n ≠ τ := by
      rintro rfl
      simp [System.inApp, System.current?, hempty] at hin
    rw [stack_other hstack hτ] at hne
    exact absurd hempty hne
  | @created τ i a size priority config k _ _ hcur ht _ hstack hact =>
    by_cases hlen : n = s.activations.length
    · subst hlen
      have hget := current?_get hcur
      have hr := creating_start (h.sound hget) (next?_of_turn ht)
      have hours := h.ours i a hget
      rw [hr] at hours
      cases hours with
      | startTask url =>
        refine ⟨.start o.build (.otaTask (o.otaConfig url)), url, ?_, rfl, ?_⟩
        · rw [hact, List.getElem?_append_right (by simp)]
          simp
        · rw [stack_self hstack, hempty]
          simp
    · have hother : Task.spawned n ≠ .spawned s.activations.length := by
        intro heq
        cases heq
        exact hlen rfl
      rw [stack_other hstack hother] at hne
      exact absurd hempty hne

/-- A task that was created is at most in one update. -/
theorem shape_tasks {l : OtaApi.Label} (h : Shape o s) (hc : Client o s l) {n : Nat}
    (hne : (s.step o.build l).stack (.spawned n) ≠ []) : ∃ b url,
      (s.step o.build l).activations[n]? = some b ∧ b.routine = .otaTask (o.otaConfig url) ∧
      ((s.step o.build l).stack (.spawned n)).length ≤ 2 := by
  have kept : ∀ {st : List Nat}, (s.step o.build l).stack (.spawned n) = st →
      s.stack (.spawned n) ≠ [] → st.length ≤ 2 → ∃ b url,
        (s.step o.build l).activations[n]? = some b ∧ b.routine = .otaTask (o.otaConfig url) ∧
        ((s.step o.build l).stack (.spawned n)).length ≤ 2 := by
    intro st hst hbefore hlen
    obtain ⟨b, url, hb, hr, _⟩ := h.tasks n hbefore
    obtain ⟨b', hb', hev⟩ := (@step_change o.build s l).evolves hb
    exact ⟨b', url, hb', hev.routine_eq.trans hr, hst ▸ hlen⟩
  have same : (s.step o.build l).stack (.spawned n) = s.stack (.spawned n) → ∃ b url,
      (s.step o.build l).activations[n]? = some b ∧ b.routine = .otaTask (o.otaConfig url) ∧
      ((s.step o.build l).stack (.spawned n)).length ≤ 2 := by
    intro hst
    have hbefore : s.stack (.spawned n) ≠ [] := hst ▸ hne
    obtain ⟨_, _, _, _, hlen⟩ := h.tasks n hbefore
    exact kept hst hbefore hlen
  cases hc with
  | abort =>
    obtain ⟨_, hstack, _⟩ := @abort_elsewhere o.build s consoleTask consoleTask
    exact same (congrFun hstack _)
  | startTask url hidle =>
    apply same
    simp only [System.step]
    split
    · rfl
    · split
      · have hother : Task.spawned n ≠ consoleTask := by simp [consoleTask]
        exact call_stack s _ hother
      · rfl
  | @goesOn τ _ hl =>
    by_cases hτ : Task.spawned n = τ
    · subst hτ
      have hbefore : s.stack (.spawned n) ≠ [] := by
        intro hempty
        rw [step_outside hl hempty] at hne
        exact hne hempty
      obtain ⟨b, url, hb, hr, hlen⟩ := h.tasks n hbefore
      obtain hsame | htail | ⟨i, a, config, hcur, hn, he, hpush⟩ := h.self_stack hl
      · exact same hsame
      · refine kept htail hbefore ?_
        rw [List.length_tail]
        omega
      · -- the task is at its call, so it has only itself on its stack
        refine kept hpush hbefore ?_
        have hget := current?_get hcur
        have hra := calling_task (h.sound hget) hn
        obtain ⟨rest, hhead⟩ := current?_head hcur
        obtain ⟨_, _, hnested⟩ := h.nested
        have hhome := hnested.home (.spawned n) i a config hget hra (by simp [hhead])
        cases hhome
        rw [hb] at hget
        cases hget
        cases h.at_task hb hr with
        | starting hstack _ =>
          rw [hstack]
          simp
        | inside _ _ hent _ _ =>
          rw [he] at hent
          cases hent
        | back hstack _ =>
          rw [hstack]
          simp
    · by_cases hlt : n < s.activations.length
      · refine same ((step_elsewhere hl).stack _ hτ fun m hm => ?_)
        cases hm
        exact hlt
      · exact new_task_shape h (Nat.le_of_not_lt hlt) hne

/-- The application keeps the component in this shape. -/
theorem shape_step {l : OtaApi.Label} (h : Shape o s) (hc : Client o s l) :
    Shape o (s.step o.build l) := by
  constructor
  case reached =>
    obtain ⟨ls, rfl⟩ := h.reached
    exact ⟨ls ++ [l], (exec_snoc _ ls l).symm⟩
  case ours =>
    intro i a' ha'
    obtain ⟨a, ha, hev⟩ | ⟨hnone, _⟩ := (@step_change o.build s l).origin ha'
    · rw [hev.routine_eq]
      exact h.ours i a ha
    · exact added_ours h hc (step_added hnone ha')
  case apps =>
    intro n hn
    cases hc with
    | abort =>
      obtain ⟨_, hstack, _⟩ := @abort_elsewhere o.build s consoleTask consoleTask
      rw [hstack]
      exact h.apps n hn
    | startTask url hidle =>
      have hother : Task.app n ≠ consoleTask := by simpa [consoleTask] using hn
      simp only [System.step]
      split
      · exact h.apps n hn
      · split
        · exact (call_stack s _ hother).trans (h.apps n hn)
        · exact h.apps n hn
    | @goesOn τ _ hl =>
      by_cases hτ : Task.app n = τ
      · subst hτ
        rw [step_outside hl (h.apps n hn)]
        exact h.apps n hn
      · rw [(step_elsewhere hl).stack _ hτ fun m hm => by cases hm]
        exact h.apps n hn
  case console => exact shape_console h hc
  case tasks =>
    intro n hne
    exact shape_tasks h hc hne

end Shape

end Advanced

end OtaApi
