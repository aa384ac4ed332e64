import OtaApi.AdvancedConsole

/-!
# The requests of the advanced application

Every command that is let in gets one task, whose one update is called with the URL and
judged by the flag of that command, and has the slot for itself. The flag of the file that
keeps other commands out is up exactly as long as there is such an update.
-/

namespace OtaApi

open Interaction

namespace Advanced

open CText

variable {o : Options} {t t' : List (Handover Request)} {p p' : Handoff Request}
  {spent : List Nat} {served : List (Nat × Request)} {s s' : State}

/-! ## The steps of the tasks -/

section Tasks

variable {n : Nat}

/-- A task the console has created. -/
theorem Refined.isTask (h : Refined o t p spent served s) (hne : s.system.stack (.spawned n) ≠ []) :
    ∃ b url, IsTask o s n b url := by
  obtain ⟨b, url, hb, hr, _⟩ := h.trail.shape.tasks n hne
  exact ⟨b, url, hb, hr⟩

/-- An update on the stack of a task is on top of it. -/
theorem Refined.update_top (h : Refined o t p spent served s) {i : Nat} {a : Activation} {r : Request}
    (hi : i ∈ s.system.stack (.spawned n)) (ha : s.system.activations[i]? = some a)
    (hserves : Serves o r a) : s.system.stack (.spawned n) = [i, n] := by
  obtain ⟨b, url, hb, hr⟩ := h.isTask (List.ne_nil_of_mem hi)
  have hne : i ≠ n := by
    rintro rfl
    rw [ha] at hb
    cases hb
    rw [hserves.routine] at hr
    cases hr
  cases h.trail.shape.at_task hb hr with
  | starting hstack _ =>
    rw [hstack] at hi
    exact absurd (List.mem_singleton.mp hi) hne
  | back hstack _ =>
    rw [hstack] at hi
    exact absurd (List.mem_singleton.mp hi) hne
  | inside hstack _ _ _ _ =>
    rw [hstack] at hi ⊢
    obtain rfl | hi := List.mem_cons.mp hi
    · rfl
    · exact absurd (List.mem_singleton.mp hi) hne

/-- While a task is in its update, the others are spent. -/
theorem Refined.only (h : Refined o t p spent served s) {i : Nat}
    (hstack : s.system.stack (.spawned n) = [i, n]) (hn : n ∉ spent) {m j : Nat}
    (hm : s.system.stack (.spawned m) = [j, m]) (hmn : m ≠ n) : m ∈ spent := by
  have hne : s.system.stack (.spawned n) ≠ [] := by simp [hstack]
  have hne' : s.system.stack (.spawned m) ≠ [] := by simp [hm]
  obtain ⟨b, url, hb⟩ := h.isTask hne
  obtain ⟨b', url', hb'⟩ := h.isTask hne'
  have htasks := h.tasks
  have known : ∀ {c : Nat}, Created s (c :: spent) → m ∈ spent := by
    intro c hcreated
    have hnc : n = c := (List.mem_cons.mp (hcreated n b _ hb.1 hb.2)).resolve_right hn
    exact (List.mem_cons.mp (hcreated m b' _ hb'.1 hb'.2)).resolve_left fun hmc => hmn (hmc.trans hnc.symm)
  cases p with
  | free => exact absurd (htasks n b _ hb.1 hb.2) hn
  | filling => exact absurd (htasks n b _ hb.1 hb.2) hn
  | handed r =>
    obtain ⟨c, _, hcreated, _⟩ := htasks
    exact known hcreated
  | serving r =>
    obtain ⟨c, _, hcreated, _⟩ := htasks
    exact known hcreated

/-- No update finds the slot taken. -/
theorem Refined.claim_free (h : Refined o t p spent served s) (n : Nat) : ClaimFree s n := by
  intro i a k hstack ha ht
  have hn : n ∉ spent := by
    intro hmem
    cases h.trail.ended n hmem with
    | deleted _ hst _ =>
      rw [hstack] at hst
      cases hst
    | failed _ hst ha' _ _ hend =>
      rw [hstack] at hst
      cases hst
      rw [ha] at ha'
      cases ha'
      obtain hres | ⟨⟨cb, ctx, hnext⟩, _⟩ := hend
      · rw [Activation.result?, ht] at hres
        cases hres
      · rw [next?_of_turn ht] at hnext
        cases hnext
  obtain ⟨ls, hls⟩ := h.trail.shape.reached
  have hget := ha
  rw [hls] at hget ⊢
  refine claim_unopposed hget ht fun j b hj hb => ?_
  rw [← hls] at hb
  refine h.trail.not_held hb fun m hm => h.only hstack hn hm ?_
  rintro rfl
  rw [hstack] at hm
  cases hm
  exact hj rfl

/-- What a task does concerns the trail and itself. -/
theorem Refined.task_step (h : Refined o t p spent served s) {l : OtaApi.Label}
    (hl : l.of (.spawned n)) (hsys : s'.system = s.system.step o.build l) (hsame : SameVariables s s')
    (hnew : NoneNew s.system s'.system)
    (heach : ∀ i r a, s.system.stack (.spawned n) = [i, n] → (i, r) ∈ served →
      s.system.activations[i]? = some a → Serves o r a →
        ∃ a', s'.system.activations[i]? = some a' ∧ Serves o r a')
    (hverdict : ∀ m, m ≠ n → s'.verdict m = s.verdict m)
    (hself : ∀ v, s'.verdict n = some v → Judged o served s' n v)
    (hspent : Spent o s n → Spent o s' n)
    (hwaiting : ∀ r, Waiting o s n r → Waiting o s' n r)
    (hlives : ∀ r, Live o s served n r → Live o s' served n r) :
    Refined o t p spent served s' := by
  have he : Elsewhere (.spawned n) s.system s'.system := hsys ▸ step_elsewhere hl
  have hplaced := h.trail.shape.placed
  obtain ⟨hat, hres⟩ := h.console.frame hplaced he (by simp [consoleTask]) hsame.console
  have hother : ∀ m, Task.spawned m ≠ .spawned n → s'.verdict m = s.verdict m :=
    fun m hm => hverdict m fun heq => hm (congrArg Task.spawned heq)
  refine ⟨?_, hat, hsame.consoled hres h.fields, ?_⟩
  · refine h.trail.frame (hsys ▸ shape_step h.trail.shape (.goesOn hl)) he
      (hsame.sOtaUrl ▸ h.trail.terminated) hnew.updates (fun i r a hmem hi ha hserves => ?_) hother
      (fun m v hm => ?_) (fun m hm heq => ?_) rfl (h.trail.offered.trans (hsame.offered hres).symm)
    · exact heach i r a (h.update_top hi ha hserves) hmem ha hserves
    · cases hm
      exact hself v
    · cases heq
      exact hspent (h.trail.ended n hm)
  · refine h.tasks.frame hplaced he hnew hother (fun m r hm => ?_) fun m r hm => ?_
    · cases hm
      exact hwaiting r
    · cases hm
      exact hlives r

/-- Nothing new comes from a task that does not call its update. -/
theorem advance_noneNew (hcalls : s.calls n = false) :
    NoneNew s.system (s.system.step o.build (.advance (.spawned n))) := by
  refine noneNew_step fun a' ha' => ?_
  cases ha' with
  | called hcur hnext he => simp [State.calls, hcur, hnext, he] at hcalls

theorem Refined.answer_noneNew (h : Refined o t p spent served s) (reply : Reply) :
    NoneNew s.system (s.system.step o.build (.answer (.spawned n) reply)) := by
  refine noneNew_step fun a' ha' => ?_
  cases ha' with
  | @created _ _ i a _ _ _ hcur hnext _ =>
    exfalso
    have hget := current?_get hcur
    have hstart := creating_start (h.trail.shape.sound hget) hnext
    obtain ⟨rest, hhead⟩ := current?_head hcur
    have hne : s.system.stack (.spawned n) ≠ [] := by simp [hhead]
    obtain ⟨b, url, hb, hr⟩ := h.isTask hne
    have alone : s.system.stack (.spawned n) = [n] → False := by
      intro hstack
      rw [hstack] at hhead
      cases hhead
      rw [hget] at hb
      cases hb
      rw [hr] at hstart
      cases hstart
    cases h.trail.shape.at_task hb hr with
    | starting hstack _ => exact alone hstack
    | back hstack _ => exact alone hstack
    | inside hstack _ _ hget' hr' =>
      rw [hstack] at hhead
      cases hhead
      rw [hget] at hget'
      cases hget'
      rw [hr'] at hstart
      cases hstart

/-- What an update does by itself leaves its request served. -/
theorem Refined.serves_advance (h : Refined o t p spent served s) (hlive : s.system.restarted = false)
    {i : Nat} {a : Activation} {r : Request} (hstack : s.system.stack (.spawned n) = [i, n])
    (ha : s.system.activations[i]? = some a) (hserves : Serves o r a)
    (hsys : s'.system = s.system.step o.build (.advance (.spawned n))) :
    ∃ a', s'.system.activations[i]? = some a' ∧ Serves o r a' := by
  cases hres : a.result? with
  | some q =>
    have hd : a.prog.turn = .done q := Turn.eq_done hres
    obtain ⟨a', ha', hev⟩ := (@step_change o.build s.system (.advance (.spawned n))).evolves ha
    refine ⟨a', hsys ▸ ha', ?_⟩
    cases hev with
    | same => exact hserves
    | noticed _ => exact hserves.alike (.notice a)
    | entered ht _ _ => rw [hd] at ht; cases ht
    | passed ht _ _ => rw [hd] at ht; cases ht
    | answered _ ht _ _ => rw [hd] at ht; cases ht
  | none =>
    obtain ⟨a', hgoes, _, ha', _⟩ :=
      inside_advance h.trail.shape hlive hstack ha hserves.routine hres hsys
    refine ⟨a', ha', ?_⟩
    cases hgoes with
    | waits _ => exact hserves
    | enters _ _ _ => exact ⟨hserves.routine, hserves.granted, hserves.answered⟩
    | @passes c k answer slot' ht he hc =>
      refine hserves.resume (not_claimed hc fun heq => ?_) fun cb event ctx v heq => ?_
      · subst heq
        exact h.claim_free n i a k hstack ha ht
      · exact absurd heq (passed_event hc cb event ctx v)

/-- So does what comes back to it, unless it is the verdict of the callback. -/
theorem Refined.serves_answer (h : Refined o t p spent served s) {i : Nat} {a : Activation}
    {r : Request} (hstack : s.system.stack (.spawned n) = [i, n])
    (ha : s.system.activations[i]? = some a) (hserves : Serves o r a) (hevent : s.event? n = none)
    {reply : Reply} (hsys : s'.system = s.system.step o.build (.answer (.spawned n) reply)) :
    ∃ a', s'.system.activations[i]? = some a' ∧ Serves o r a' := by
  obtain hsame | ⟨c, k, answer, ht, he, hans, _, ha', _⟩ :=
    inside_answer h.trail.shape hstack ha hserves.routine hsys
  · exact ⟨a, by rw [hsame]; exact ha, hserves⟩
  · refine ⟨_, ha', hserves.resume (answered_event hans) fun cb event ctx v heq => ?_⟩
    cases heq
    rw [event_inside hstack ha (next?_of_turn ht) he] at hevent
    cases hevent

/-- A task that is about to call its update is the one the request waits for. -/
theorem Refined.calling (h : Refined o t p spent served s) (hcalls : s.calls n = true) :
    ∃ b r, p = .handed r ∧ n ∉ spent ∧ Created s (n :: spent) ∧ IsTask o s n b r.1 ∧
      s.system.stack (.spawned n) = [n] ∧ b.next? = some (.otaApiUpdate (o.otaConfig r.1)) ∧
      b.entered = false := by
  obtain ⟨i, b, config, hcur, hnext, he⟩ : ∃ i b config, s.system.current? (.spawned n) = some (i, b) ∧
      b.next? = some (.otaApiUpdate config) ∧ b.entered = false := by
    simp only [State.calls] at hcalls
    split at hcalls
    · rename_i i b hcur
      split at hcalls
      · rename_i config hnext
        exact ⟨i, b, config, hcur, hnext, by simpa using hcalls⟩
      · cases hcalls
    · cases hcalls
  have hget := current?_get hcur
  have htask := calling_task (h.trail.shape.sound hget) hnext
  obtain ⟨rest, hhead⟩ := current?_head hcur
  have outside : ∀ {j : Nat} {a : Activation} {r : Request}, s.system.stack (.spawned n) = [j, n] →
      s.system.activations[j]? = some a → a.routine = .otaApiUpdate (some (o.otaConfig r.1)) →
        False := by
    intro j a r hstack ha hr
    rw [hstack] at hhead
    cases hhead
    rw [hget] at ha
    cases ha
    rw [htask] at hr
    cases hr
  have at_home : ∀ {b' : Activation} {url : Str}, IsTask o s n b' url →
      s.system.stack (.spawned n) = [n] → b' = b := by
    intro b' url hb' hstack
    rw [hstack] at hhead
    cases hhead
    have heq := hb'.1.symm.trans hget
    exact Option.some.inj heq
  have hn : n ∉ spent := by
    intro hmem
    cases h.trail.ended n hmem with
    | @failed _ _ url _ _ _ hstack ha hr _ _ => exact @outside _ _ (url, false) hstack ha hr
    | deleted hb' hstack hnext' =>
      obtain rfl := at_home hb' hstack
      rw [hnext] at hnext'
      cases hnext'
  have hne : s.system.stack (.spawned n) ≠ [] := by simp [hhead]
  obtain ⟨b₀, url₀, hb₀⟩ := h.isTask hne
  have htasks := h.tasks
  cases p with
  | free => exact absurd (htasks n b₀ _ hb₀.1 hb₀.2) hn
  | filling => exact absurd (htasks n b₀ _ hb₀.1 hb₀.2) hn
  | handed r =>
    obtain ⟨c, _, hcreated, hwait⟩ := htasks
    obtain rfl : n = c := (List.mem_cons.mp (hcreated n b₀ _ hb₀.1 hb₀.2)).resolve_right hn
    obtain ⟨hb, hstack, hnext'⟩ := hwait
    obtain rfl := at_home hb hstack
    obtain hfree | ⟨hnext', _⟩ := hnext'
    · rw [hnext] at hfree
      cases hfree
    · exact ⟨_, r, rfl, hn, hcreated, hb, hstack, hnext', he⟩
  | serving r =>
    obtain ⟨c, _, hcreated, hl⟩ := htasks
    obtain rfl : n = c := (List.mem_cons.mp (hcreated n b₀ _ hb₀.1 hb₀.2)).resolve_right hn
    cases hl with
    | inside _ hstack _ ha hr _ _ => exact (outside hstack ha hr).elim
    | restarting hb hstack hnext' =>
      obtain rfl := at_home hb hstack
      rw [hnext] at hnext'
      cases hnext'

/-- The task calls its update with that request. -/
theorem called_matched (h : Refined o t p spent served s) (hlive : s.system.restarted = false)
    (hcalls : s.calls n = true) :
    Matched Handoff.Move (Refines o) t p (s.step o (.task n)) (observe s (.task n)) := by
  obtain ⟨b, r, rfl, hn, hcreated, hb, hstack, hnext, he⟩ := h.calling hcalls
  obtain ⟨_, hpending, hurl, hforce⟩ := h.fields
  have hobs : observe s (.task n) = some (.taken r) := by
    simp [observe, hlive, hcalls, hurl, hforce]
  generalize hs' : s.step o (.task n) = s'
  have hstate : s' =
      { s with system := s.system.step o.build (.advance (.spawned n)) } := by
    rw [← hs']
    simp [State.step, hlive]
  have hsys : s'.system = s.system.step o.build (.advance (.spawned n)) := by rw [hstate]
  have hsame : SameVariables s s' := by
    rw [hstate]
    exact ⟨rfl, rfl, rfl, rfl, rfl⟩
  have hverdict : s'.verdict = s.verdict := by rw [hstate]
  -- the component puts the update on top of its task
  obtain ⟨k, ht⟩ := Turn.eq_call hnext
  have henter : s'.system =
      (s.system.put n b.enter).call o.build (.spawned n) (.otaApiUpdate (some (o.otaConfig r.1))) := by
    rw [hsys, step_entering hlive (hb.current hstack) ht he rfl]
    rfl
  have hst : s'.system.stack (.spawned n) = [s.system.activations.length, n] := by
    rw [henter]
    simp [System.call, System.put, hstack]
  have hact : s'.system.activations = s.system.activations.set n b.enter ++
      [.start o.build (.otaApiUpdate (some (o.otaConfig r.1)))] := by
    rw [henter]
    rfl
  have hlast : s'.system.activations[s.system.activations.length]? =
      some (.start o.build (.otaApiUpdate (some (o.otaConfig r.1)))) := by
    rw [hact, List.getElem?_append_right (by simp)]
    simp
  have hl : OtaApi.Label.of (.spawned n) (.advance (.spawned n)) := .inl rfl
  have hel : Elsewhere (.spawned n) s.system s'.system := hsys ▸ step_elsewhere hl
  have hplaced := h.trail.shape.placed
  have hserved : ∀ {i : Nat} {r' : Request}, (i, r') ∈ served → i < s.system.activations.length := by
    intro i r' hmem
    obtain ⟨a, ha, _⟩ := h.trail.each i r' hmem
    exact (List.getElem?_eq_some_iff.mp ha).1
  obtain ⟨hat, hres⟩ := h.console.frame hplaced hel (by simp [consoleTask]) hsame.console
  have hmore : ∀ {m : Nat} {v : EspErr}, Judged o served s' m v →
      Judged o (served ++ [(s.system.activations.length, r)]) s' m v := by
    rintro m v ⟨i, a, cb, event, ctx, r', h₁, h₂, h₃, h₄, hmem, h₅⟩
    exact ⟨i, a, cb, event, ctx, r', h₁, h₂, h₃, h₄, List.mem_append_left _ hmem, h₅⟩
  rw [hobs]
  refine .moves (.taken r) ⟨spent, served ++ [(s.system.activations.length, r)], ?_, hat,
    hsame.consoled hres h.fields, n, hn, ?_, ?_⟩
  · constructor
    case shape => exact hsys ▸ shape_step h.trail.shape (.goesOn hl)
    case terminated => exact hsame.sOtaUrl ▸ h.trail.terminated
    case taken =>
      rw [takes_snoc, h.trail.taken, List.map_append]
      rfl
    case order =>
      rw [List.map_append, List.pairwise_append]
      refine ⟨h.trail.order, List.pairwise_singleton _ _, fun i hi j hj => ?_⟩
      obtain ⟨⟨i', r'⟩, hmem, rfl⟩ := List.mem_map.mp hi
      obtain rfl := List.mem_singleton.mp hj
      exact hserved hmem
    case all =>
      intro i a config ha hr
      rw [List.map_append, List.mem_append]
      have hbound := (List.getElem?_eq_some_iff.mp ha).1
      rw [hact] at ha hbound
      obtain ⟨rfl, rfl, _⟩ | ⟨_, hold⟩ | ⟨hnone, _⟩ := getElem?_set_append ha
      · rw [show b.enter.routine = b.routine from rfl, hb.2] at hr
        cases hr
      · exact .inl (h.trail.all i a config hold hr)
      · refine .inr ?_
        have hle : s.system.activations.length ≤ i := by simpa using hnone
        simp at hbound
        have heq : i = s.system.activations.length := by omega
        simp [heq]
    case each =>
      intro i r' hmem
      obtain hmem | hmem := List.mem_append.mp hmem
      · obtain ⟨a, ha, hserves⟩ := h.trail.each i r' hmem
        have hout : i ∉ s.system.stack (.spawned n) := by
          intro hi
          have htop := h.update_top hi ha hserves
          rw [hstack] at htop
          cases htop
        obtain ⟨a', ha', haa⟩ := hel.act i a ha hout
        exact ⟨a', ha', hserves.alike haa⟩
      · cases List.mem_singleton.mp hmem
        exact ⟨_, hlast, serves_start o r⟩
    case judged =>
      intro m v hv
      rw [hverdict] at hv
      have hold := h.trail.judged m v hv
      refine hmore (hold.frame hplaced (hold.lt hplaced) hel fun heq => ?_)
      cases heq
      obtain ⟨i, _, _, _, _, _, hst', _⟩ := hold
      rw [hstack] at hst'
      cases hst'
    case ended =>
      intro m hm
      refine (h.trail.ended m hm).frame hplaced hel (fun heq => ?_) (congrFun hverdict m)
      cases heq
      exact hn hm
    case offered =>
      rw [offers_event rfl, hsame.offered hres]
      exact h.trail.offered
  · intro m b' config hb' hr'
    obtain ⟨a, ha, har⟩ := step_old (hsys ▸ hb') fun hadded => by
      cases hadded with
      | called _ _ _ => cases hr'
    exact hcreated m a config ha (har.trans hr')
  · have hget : s'.system.activations[n]? = some b.enter := by
      rw [hact, List.getElem?_append_left (by simpa using hb.lt), List.getElem?_set_self hb.lt]
    refine .inside ⟨hget, hb.2⟩ hst (List.mem_append_right _ List.mem_cons_self) hlast rfl
      (fun q hq => by cases hq) fun cb err ctx hnext' => by cases hnext'

/-- A task goes on by itself. -/
theorem task_matched (h : Refined o t p spent served s) (hlive : s.system.restarted = false) (n : Nat) :
    Matched Handoff.Move (Refines o) t p (s.step o (.task n)) (observe s (.task n)) := by
  cases hcalls : s.calls n with
  | true => exact called_matched h hlive hcalls
  | false =>
    have hstep : s.step o (.task n) =
        { s with system := s.system.step o.build (.advance (.spawned n)) } := by
      simp [State.step, hlive]
    have hobs : observe s (.task n) = none := by simp [observe, hlive, hcalls]
    rw [hstep, hobs]
    have hshape := h.trail.shape
    have hjudged := h.trail.judged n
    refine .stays ⟨spent, served, h.task_step (.inl rfl) rfl ⟨rfl, rfl, rfl, rfl, rfl⟩
      (advance_noneNew hcalls)
      (fun i r a hstack _ ha hserves => h.serves_advance hlive hstack ha hserves rfl)
      (fun _ _ => rfl) (fun v hv => ?_) (fun hspent => hspent.advance hshape hlive rfl rfl)
      (fun r hwait => hwait.advance hlive hcalls rfl)
      fun r hl => hl.advance hshape hlive (h.claim_free n) hjudged rfl rfl⟩
    obtain ⟨i, a, cb, event, ctx, r, hstack, ha, he, hn, hmem, hverdict⟩ := hjudged v hv
    obtain ⟨k, ht⟩ := Turn.eq_call hn
    have hsame : s.system.step o.build (.advance (.spawned n)) = s.system := by
      simp [System.step, System.advance, current_inside hstack ha, ht, he]
    refine ⟨i, a, cb, event, ctx, r, ?_, ?_, he, hn, hmem, hverdict⟩
    · dsimp only
      rw [hsame]
      exact hstack
    · dsimp only
      rw [hsame]
      exact ha

/-- What a task has called comes back, unless it is the callback. -/
theorem taskAnswer_matched (h : Refined o t p spent served s) (hlive : s.system.restarted = false)
    (n : Nat) (reply : Reply) :
    Matched Handoff.Move (Refines o) t p (s.step o (.taskAnswer n reply))
      (observe s (.taskAnswer n reply)) := by
  have hobs : observe s (.taskAnswer n reply) = none := by simp [observe, hlive]
  rw [hobs]
  cases hevent : s.event? n with
  | some event =>
    have hstep : s.step o (.taskAnswer n reply) = s := by simp [State.step, hlive, hevent]
    rw [hstep]
    exact .stays ⟨spent, served, h⟩
  | none =>
    have hstep : s.step o (.taskAnswer n reply) =
        { s with system := s.system.step o.build (.answer (.spawned n) reply) } := by
      simp [State.step, hlive, hevent]
    rw [hstep]
    have hshape := h.trail.shape
    have hjudged := h.trail.judged n
    refine .stays ⟨spent, served, h.task_step (.inr ⟨reply, rfl⟩) rfl ⟨rfl, rfl, rfl, rfl, rfl⟩
      (h.answer_noneNew reply)
      (fun i r a hstack _ ha hserves => h.serves_answer hstack ha hserves hevent rfl)
      (fun _ _ => rfl) (fun v hv => ?_) (fun hspent => hspent.answer hevent rfl)
      (fun r hwait => hwait.answer hshape rfl) fun r hl => hl.answer hshape hevent hjudged rfl rfl⟩
    obtain ⟨i, a, cb, event, ctx, r, hstack, ha, he, hn, _⟩ := hjudged v hv
    rw [event_inside hstack ha hn he] at hevent
    cases hevent

/-- The callback comes back with its verdict. -/
theorem Refined.callback_return (h : Refined o t p spent served s)
    (hlive : s.system.restarted = false) {v : EspErr} (hverdict : s.verdict n = some v)
    (hsys : s'.system = s.system.step o.build (.answer (.spawned n) (.err v)))
    (hv : s'.verdict = Function.update s.verdict n none) (hsame : SameVariables s s') :
    Refined o t p spent served s' := by
  have hshape := h.trail.shape
  have hjudged := h.trail.judged n v hverdict
  have hcleared : s'.verdict n = none := by
    rw [hv]
    exact Function.update_self ..
  refine h.task_step (.inr ⟨.err v, rfl⟩) hsys hsame (hsys ▸ h.answer_noneNew (.err v))
    (fun i r a hstack hmem ha hserves => ?_) (fun m hm => ?_) (fun v' hv' => ?_)
    (fun hspent => hspent.return hshape hlive hjudged hsys) (fun r hwait => ?_)
    fun r hl => hl.return hshape hlive hverdict hjudged hsys hcleared
  · obtain ⟨he, cb, event, ctx, r', hn, hmem', hv⟩ := hjudged.inside hstack ha
    obtain rfl := h.trail.request_unique hmem hmem'
    obtain ⟨k, ht⟩ := Turn.eq_call hn
    obtain ⟨_, ha', _⟩ := Advanced.callback_return hshape hlive hstack ha he ht hsys
    refine ⟨_, ha', hserves.resume (fun heq => by cases heq) fun cb' event' ctx' v' heq => ?_⟩
    cases heq
    exact hv
  · rw [hv]
    exact Function.update_of_ne hm _ _
  · rw [hcleared] at hv'
    cases hv'
  · obtain ⟨i, _, _, _, _, _, hst, _⟩ := hjudged
    obtain ⟨_, hstack, _⟩ := hwait
    rw [hstack] at hst
    cases hst

theorem callbackReturn_matched (h : Refined o t p spent served s) (hlive : s.system.restarted = false)
    (n : Nat) :
    Matched Handoff.Move (Refines o) t p (s.step o (.callbackReturn n))
      (observe s (.callbackReturn n)) := by
  have hobs : observe s (.callbackReturn n) = none := by simp [observe, hlive]
  rw [hobs]
  cases hverdict : s.verdict n with
  | none =>
    have hstep : s.step o (.callbackReturn n) = s := by simp [State.step, hlive, hverdict]
    rw [hstep]
    exact .stays ⟨spent, served, h⟩
  | some v =>
    have hstep : s.step o (.callbackReturn n) =
        { s with
          verdict := Function.update s.verdict n none
          system := s.system.step o.build (.answer (.spawned n) (.err v)) } := by
      simp [State.step, hlive, hverdict]
    rw [hstep]
    exact .stays ⟨spent, served, h.callback_return hlive hverdict rfl rfl ⟨rfl, rfl, rfl, rfl, rfl⟩⟩

/-- Whoever is in its callback, and has not been answered for, is the update whose request is
served. -/
theorem Refined.called_back (h : Refined o t p spent served s) {event : OtaApiEvent}
    (hevent : s.event? n = some event) (hverdict : s.verdict n = none) :
    ∃ b a i r cb ctx, p = .serving r ∧ n ∉ spent ∧ Created s (n :: spent) ∧ IsTask o s n b r.1 ∧
      s.system.stack (.spawned n) = [i, n] ∧ (i, r) ∈ served ∧ s.system.activations[i]? = some a ∧
      a.routine = .otaApiUpdate (some (o.otaConfig r.1)) ∧ a.result? = none ∧
      a.next? = some (.eventCb cb event ctx) ∧ a.entered = true := by
  have hne : s.system.stack (.spawned n) ≠ [] := by
    intro hnil
    simp [State.event?, System.current?, hnil] at hevent
  obtain ⟨b₀, url₀, hb₀⟩ := h.isTask hne
  have outside : ∀ {b : Activation} {url : Str} {c : Call}, IsTask o s n b url →
      s.system.stack (.spawned n) = [n] → b.next? = some c → c = .taskDelete ∨ c = .restart ∨ c = .free ∨
        c = .otaApiUpdate (o.otaConfig url) → False := by
    intro b url c hb hstack hnext hc
    have hnone : s.event? n = none := by
      refine event_outside hb hstack fun cb event' ctx hn => ?_
      rw [hnext] at hn
      obtain rfl | rfl | rfl | rfl := hc <;> cases hn
    rw [hnone] at hevent
    cases hevent
  have hn : n ∉ spent := by
    intro hmem
    cases h.trail.ended n hmem with
    | deleted hb hstack hnext => exact outside hb hstack hnext (.inl rfl)
    | failed _ hstack ha _ _ hend =>
      obtain ⟨_, cb, ctx, hnext⟩ := event_inside_inv hstack ha hevent
      obtain hres | ⟨_, _, hv⟩ := hend
      · rw [Activation.next?, Turn.eq_done hres] at hnext
        cases hnext
      · rw [hverdict] at hv
        cases hv
  have htasks := h.tasks
  cases p with
  | free => exact absurd (htasks n b₀ _ hb₀.1 hb₀.2) hn
  | filling => exact absurd (htasks n b₀ _ hb₀.1 hb₀.2) hn
  | handed r =>
    obtain ⟨c, _, hcreated, hwait⟩ := htasks
    obtain rfl : n = c := (List.mem_cons.mp (hcreated n b₀ _ hb₀.1 hb₀.2)).resolve_right hn
    obtain ⟨hb, hstack, hnext | ⟨hnext, _⟩⟩ := hwait
    · exact (outside hb hstack hnext (.inr (.inr (.inl rfl)))).elim
    · exact (outside hb hstack hnext (.inr (.inr (.inr rfl)))).elim
  | serving r =>
    obtain ⟨c, _, hcreated, hl⟩ := htasks
    obtain rfl : n = c := (List.mem_cons.mp (hcreated n b₀ _ hb₀.1 hb₀.2)).resolve_right hn
    cases hl with
    | restarting hb hstack hnext => exact (outside hb hstack hnext (.inr (.inl rfl))).elim
    | inside hb hstack hmem ha hr _ _ =>
      obtain ⟨he, cb, ctx, hnext⟩ := event_inside_inv hstack ha hevent
      refine ⟨_, _, _, r, cb, ctx, rfl, hn, hcreated, hb, hstack, hmem, ha, hr, ?_, hnext, he⟩
      obtain ⟨k, ht⟩ := Turn.eq_call hnext
      rw [Activation.result?, ht]
      rfl

/-- What the callback does to the rest of the state. -/
theorem onOtaEventCb_same (o : Options) (s : State) (n : Nat) (event : OtaApiEvent) (nowUs : Int64) :
    (s.onOtaEventCb o n event nowUs).system = s.system ∧
      (s.onOtaEventCb o n event nowUs).verdict =
        Function.update s.verdict n (some (onOtaEventCbVerdict o s.sForceUpdate event)) ∧
      ((∀ err, event ≠ .failed err) → SameVariables s (s.onOtaEventCb o n event nowUs)) := by
  cases event with
  | failed err => exact ⟨rfl, rfl, fun hnot => absurd rfl (hnot err)⟩
  | _ => exact ⟨rfl, rfl, fun _ => ⟨rfl, rfl, rfl, rfl, rfl⟩⟩

/-- The verdict on an event is by the flag of the request that is served. -/
theorem Refined.callback_trail (h : Refined o t p spent served s) {a : Activation} {i : Nat}
    {r : Request} {cb : EventCb} {event : OtaApiEvent} {ctx : Nat} (hn : n ∉ spent)
    (hforce : s.sForceUpdate = r.2)
    (hstack : s.system.stack (.spawned n) = [i, n]) (hmem : (i, r) ∈ served)
    (ha : s.system.activations[i]? = some a) (hnext : a.next? = some (.eventCb cb event ctx))
    (he : a.entered = true) (hsys : s'.system = s.system)
    (hv : s'.verdict =
      Function.update s.verdict n (some (onOtaEventCbVerdict o s.sForceUpdate event)))
    (hurl : s'.sOtaUrl = s.sOtaUrl) (htakes : takes t' = takes t)
    (hoffers : offers t' = s'.accepted ++ s'.returning) : Trail o t' spent served s' := by
  have hel : Elsewhere (.spawned n) s.system s'.system := by
    rw [hsys]
    exact .refl _ _
  refine h.trail.frame (hsys ▸ h.trail.shape) hel (hurl ▸ h.trail.terminated)
    (noneNew_same hsys).updates (fun j r' a' _ _ ha' hserves => ⟨a', by rw [hsys]; exact ha', hserves⟩)
    (fun m hm => ?_) (fun m v hm hv' => ?_) (fun m hm heq => ?_) htakes hoffers
  · rw [hv]
    exact Function.update_of_ne (fun heq => hm (congrArg Task.spawned heq)) _ _
  · cases hm
    rw [hv, Function.update_self, hforce] at hv'
    refine ⟨i, a, cb, event, ctx, r, ?_, ?_, he, hnext, hmem, (Option.some.inj hv').symm⟩
    · rw [hsys]
      exact hstack
    · rw [hsys]
      exact ha
  · cases heq
    exact absurd hm hn

/-- The callback, when it is told something. -/
theorem callback_matched (h : Refined o t p spent served s) (hlive : s.system.restarted = false)
    (n : Nat) (nowUs : Int64) :
    Matched Handoff.Move (Refines o) t p (s.step o (.callback n nowUs))
      (observe s (.callback n nowUs)) := by
  by_cases hcalled : ∃ event, s.event? n = some event ∧ s.verdict n = none
  · obtain ⟨event, hevent, hverdict⟩ := hcalled
    have hstep : s.step o (.callback n nowUs) = s.onOtaEventCb o n event nowUs := by
      simp [State.step, hlive, hevent, hverdict]
    obtain ⟨b, a, i, r, cb, ctx, rfl, hn, hcreated, hb, hstack, hmem, ha, hr, hnone, hnext, he⟩ :=
      h.called_back hevent hverdict
    obtain ⟨haway, hpending, hurl, hforce⟩ := h.fields
    obtain ⟨hsys, hv, hsame⟩ := onOtaEventCb_same o s n event nowUs
    have hself : (s.onOtaEventCb o n event nowUs).verdict n =
        some (onOtaEventCbVerdict o s.sForceUpdate event) := by rw [hv, Function.update_self]
    rw [hstep]
    by_cases hfailed : ∃ err, event = .failed err
    · obtain ⟨err, rfl⟩ := hfailed
      have hobs : observe s (.callback n nowUs) = some .settled := by
        simp [observe, hlive, hevent, hverdict]
      obtain ⟨herr, _, _⟩ := update_failing (h.trail.shape.sound ha) (otaConfig_updates hr) hnext
      rw [hobs]
      have htrail := @Refined.callback_trail o t (t ++ [.settled]) _ spent served s
        (s.onOtaEventCb o n (.failed err) nowUs) n h a i r cb (.failed err) ctx hn hforce hstack
        hmem ha hnext he rfl rfl rfl (takes_event rfl) ((offers_event rfl).trans h.trail.offered)
      refine .moves (.settled r) ⟨n :: spent, served, { htrail with ended := fun m hm => ?_ },
        h.console, ⟨rfl, .inl haway⟩, hcreated⟩
      obtain rfl | hm := List.mem_cons.mp hm
      · exact .failed hb hstack ha hr herr (.inr ⟨⟨cb, ctx, hnext⟩, he, hself⟩)
      · exact htrail.ended m hm
    · have hnot : ∀ err, event ≠ .failed err := fun err heq => hfailed ⟨err, heq⟩
      have hobs : observe s (.callback n nowUs) = none := by
        cases event with
        | failed err => exact absurd rfl (hnot err)
        | _ => simp [observe, hlive, hevent, hverdict]
      have hsame := hsame hnot
      generalize s.onOtaEventCb o n event nowUs = s' at hsys hv hsame hself
      have hres : s'.startResult? = s.startResult? := by rw [State.startResult?, hsys, State.startResult?]
      have hat : AtConsole o s' := by
        rw [AtConsole, hsys, hsame.console]
        exact h.console
      rw [hobs]
      refine .stays ⟨spent, served, ?_, hat, hsame.consoled hres h.fields, n, hn, ?_, ?_⟩
      · exact h.callback_trail hn hforce hstack hmem ha hnext he hsys hv hsame.sOtaUrl rfl
          (h.trail.offered.trans (hsame.offered hres).symm)
      · rw [Created, hsys]
        exact hcreated
      · refine .inside (hb.same hsys) (by rw [hsys]; exact hstack) hmem (by rw [hsys]; exact ha) hr
          (fun q hq => ?_) fun cb' err ctx' hn' => ?_
        · rw [hnone] at hq
          cases hq
        · rw [hnext] at hn'
          cases hn'
          exact absurd rfl (hnot err)
  · have hsame : s.step o (.callback n nowUs) = s ∧ observe s (.callback n nowUs) = none := by
      cases hevent : s.event? n with
      | none => simp [State.step, observe, hlive, hevent]
      | some event =>
        cases hverdict : s.verdict n with
        | none => exact absurd ⟨event, hevent, hverdict⟩ hcalled
        | some v => simp [State.step, observe, hlive, hevent, hverdict]
    rw [hsame.1, hsame.2]
    exact .stays ⟨spent, served, h⟩

end Tasks

/-! ## A run and the machine it goes through -/

section Run

/-- Every step of the application is matched by the place. -/
theorem step_matched (hr : Refines o t p s) (l : Label) :
    Matched Handoff.Move (Refines o) t p (s.step o l) (observe s l) := by
  obtain ⟨spent, served, h⟩ := hr
  by_cases hlive : s.system.restarted = false
  · cases l with
    | cmdOta args => exact cmdOta_matched h hlive args
    | cmdAbort => exact cmdAbort_matched h hlive
    | cmdStatus onTrial => exact cmdStatus_matched h hlive onTrial
    | console => exact console_matched h hlive
    | consoleAnswer reply => exact consoleAnswer_matched h hlive reply
    | task n => exact task_matched h hlive n
    | taskAnswer n reply => exact taskAnswer_matched h hlive n reply
    | callback n nowUs => exact callback_matched h hlive n nowUs
    | callbackReturn n => exact callbackReturn_matched h hlive n
  · have hstep : s.step o l = s := by simp [State.step, hlive]
    have hobs : observe s l = none := by simp [observe, hlive]
    rw [hstep, hobs]
    exact .stays ⟨spent, served, h⟩

/-- The application hands its requests over one at a time. -/
theorem run_refines (o : Options) (ls : List Label) :
    ∃ p, Path Handoff.Move .free (events o ls) p ∧ Refines o (events o ls) p (run o ls) :=
  exec_refines (fun _ _ _ l hr => step_matched hr l) (refines_initial o) ls

end Run

end Advanced

end OtaApi
