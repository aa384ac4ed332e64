import OtaApi.Calls

/-!
# Where activations are

Every activation is on the stack of one task, once, or has returned. Only the one on
top can go on; those below are inside a call that has let somebody in, the callback of
the application or the update of `ota_task()`.
-/

namespace OtaApi

open Interaction

section Placement

variable {build : BuildOptions}

/-- The calls during which their task may be inside of another activation. -/
def Call.nests : Call → Bool
  | .eventCb _ _ _ => true
  | .otaApiUpdate _ => true
  | _ => false

/-- The activation is inside a call that lets others in. -/
def Activation.Nesting (a : Activation) : Prop :=
  a.entered = true ∧ ∃ c, a.next? = some c ∧ c.nests = true

theorem Activation.Nesting.notice {a : Activation} (h : a.Nesting) : a.notice.Nesting := h

/-- How the stacks divide up the activations. -/
structure Placed (s : System) : Prop where
  /-- Later calls are on top of earlier ones. -/
  sorted : ∀ τ, (s.stack τ).Pairwise (· > ·)
  bound : ∀ τ, ∀ i ∈ s.stack τ, i < s.activations.length
  apart : ∀ τ τ' i, i ∈ s.stack τ → i ∈ s.stack τ' → τ = τ'
  below : ∀ τ, ∀ j ∈ (s.stack τ).tail, ∃ b, s.activations[j]? = some b ∧ b.Nesting
  ended : ∀ (i : Nat) (a : Activation), s.activations[i]? = some a → (∀ τ, i ∉ s.stack τ) →
    ∃ r, a.result? = some r

theorem placed_initial : Placed .initial := by
  constructor <;> simp [System.initial]

/-- Who is under the top is not on it. -/
theorem Placed.not_top {s : System} (h : Placed s) {τ τ' : Task} {i j : Nat} {rest : List Nat}
    (hτ : s.stack τ = i :: rest) (hj : j ∈ (s.stack τ').tail) : j ≠ i := by
  rintro rfl
  have hmem : j ∈ s.stack τ := by rw [hτ]; exact List.mem_cons_self
  obtain rfl := h.apart τ τ' j hmem (List.mem_of_mem_tail hj)
  have hsorted := h.sorted τ
  rw [hτ] at hsorted hj
  exact Nat.lt_irrefl j ((List.pairwise_cons.mp hsorted).1 j hj)

section Step

variable {s s' : System} {l : Label}

/-- Whoever is on no stack after a step was on none before it, or has just left one. -/
theorem Placed.over_step (h : Placed s) (hc : Change build s l s')
    (hnew : ∀ i, s.activations.length ≤ i → i < s'.activations.length → ∃ τ, i ∈ s'.stack τ)
    (hold : ∀ τ, ∀ i ∈ s.stack τ, (∃ τ', i ∈ s'.stack τ') ∨
      ∃ a r, s.activations[i]? = some a ∧ a.result? = some r) {i : Nat} {a' : Activation}
    (ha' : s'.activations[i]? = some a') (hout : ∀ τ, i ∉ s'.stack τ) :
    ∃ r, a'.result? = some r := by
  obtain ⟨a, ha, hev⟩ | ⟨hnone, _⟩ := hc.origin ha'
  · have hres : ∃ r, a.result? = some r := by
      by_cases hplaced : ∃ τ, i ∈ s.stack τ
      · obtain ⟨τ, hi⟩ := hplaced
        obtain ⟨τ', hi'⟩ | ⟨b, r, hb, hr⟩ := hold τ i hi
        · exact absurd hi' (hout τ')
        · rw [ha] at hb
          cases hb
          exact ⟨r, hr⟩
      · exact h.ended i a ha fun τ hi => hplaced ⟨τ, hi⟩
    obtain ⟨r, hr⟩ := hres
    exact ⟨r, hev.result_eq hr⟩
  · obtain ⟨hlt, _⟩ := List.getElem?_eq_some_iff.mp ha'
    obtain ⟨τ, hi⟩ := hnew i (by simpa using hnone) hlt
    exact absurd hi (hout τ)

/-- The stacks stay as they are, and so do the activations under a top. -/
theorem Placed.still (h : Placed s) (hc : Change build s l s') (hstack : s'.stack = s.stack)
    (hlen : s'.activations.length = s.activations.length)
    (hbelow : ∀ τ, ∀ j ∈ (s.stack τ).tail, ∀ b, s.activations[j]? = some b → b.Nesting →
      ∃ b', s'.activations[j]? = some b' ∧ b'.Nesting) : Placed s' := by
  constructor
  case sorted =>
    rw [hstack]
    exact h.sorted
  case bound =>
    rw [hstack, hlen]
    exact h.bound
  case apart =>
    rw [hstack]
    exact h.apart
  case below =>
    rw [hstack]
    intro τ j hj
    obtain ⟨b, hb, hn⟩ := h.below τ j hj
    exact hbelow τ j hj b hb hn
  case ended =>
    intro i a' ha' hout
    refine h.over_step hc (fun i hle hlt => by omega) (fun τ i hi => .inl ⟨τ, ?_⟩) ha' hout
    rw [hstack]
    exact hi

/-- A new activation gets on top of a task that lets it in. -/
theorem Placed.push (h : Placed s) (hc : Change build s l s') {τ : Task}
    (hstack : s'.stack = Function.update s.stack τ (s.activations.length :: s.stack τ))
    (hlen : s'.activations.length = s.activations.length + 1)
    (htop : ∀ i rest, s.stack τ = i :: rest → ∃ b, s'.activations[i]? = some b ∧ b.Nesting)
    (hbelow : ∀ τ, ∀ j ∈ (s.stack τ).tail, ∀ b, s.activations[j]? = some b → b.Nesting →
      ∃ b', s'.activations[j]? = some b' ∧ b'.Nesting) : Placed s' := by
  have hself : ∀ {τ' : Task}, τ' = τ → s'.stack τ' = s.activations.length :: s.stack τ' := by
    rintro τ' rfl
    exact stack_self hstack
  have hcases : ∀ {τ' : Task} {i : Nat}, i ∈ s'.stack τ' →
      (τ' = τ ∧ i = s.activations.length) ∨ i ∈ s.stack τ' := by
    intro τ' i hi
    by_cases hτ : τ' = τ
    · rw [hself hτ] at hi
      exact (List.mem_cons.mp hi).imp_left fun hnew => ⟨hτ, hnew⟩
    · rw [stack_other hstack hτ] at hi
      exact .inr hi
  have hnew : ∀ τ', s.activations.length ∉ s.stack τ' :=
    fun τ' hmem => Nat.lt_irrefl _ (h.bound τ' _ hmem)
  constructor
  case sorted =>
    intro τ'
    by_cases hτ : τ' = τ
    · rw [hself hτ]
      exact List.pairwise_cons.mpr ⟨fun i hi => h.bound τ' i hi, h.sorted τ'⟩
    · rw [stack_other hstack hτ]
      exact h.sorted τ'
  case bound =>
    intro τ' i hi
    obtain ⟨_, rfl⟩ | hi := hcases hi
    · omega
    · have := h.bound τ' i hi
      omega
  case apart =>
    intro τ₁ τ₂ i h₁ h₂
    obtain ⟨rfl, rfl⟩ | h₁ := hcases h₁
    · obtain ⟨rfl, _⟩ | h₂ := hcases h₂
      · rfl
      · exact absurd h₂ (hnew τ₂)
    · obtain ⟨rfl, rfl⟩ | h₂ := hcases h₂
      · exact absurd h₁ (hnew τ₁)
      · exact h.apart τ₁ τ₂ i h₁ h₂
  case below =>
    intro τ' j hj
    by_cases hτ : τ' = τ
    · rw [hself hτ, List.tail_cons] at hj
      cases hst : s.stack τ' with
      | nil =>
        rw [hst] at hj
        cases hj
      | cons i rest =>
        rw [hst] at hj
        obtain rfl | hrest := List.mem_cons.mp hj
        · exact htop j rest (hτ ▸ hst)
        · have hmem : j ∈ (s.stack τ').tail := by rw [hst]; exact hrest
          obtain ⟨b, hb, hn⟩ := h.below τ' j hmem
          exact hbelow τ' j hmem b hb hn
    · rw [stack_other hstack hτ] at hj
      obtain ⟨b, hb, hn⟩ := h.below τ' j hj
      exact hbelow τ' j hj b hb hn
  case ended =>
    intro i a' ha' hout
    refine h.over_step hc (fun i hle hlt => ⟨τ, ?_⟩) (fun τ' i hi => .inl ⟨τ', ?_⟩) ha' hout
    · rw [hself rfl, show i = s.activations.length by omega]
      exact List.mem_cons_self
    · by_cases hτ : τ' = τ
      · rw [hself hτ]
        exact List.mem_cons_of_mem _ hi
      · rw [stack_other hstack hτ]
        exact hi

/-- The activation on top is over, and leaves. -/
theorem Placed.pop (h : Placed s) (hc : Change build s l s') {τ : Task} {i : Nat} {a : Activation}
    {r : EspErr} (hcur : s.current? τ = some (i, a)) (hr : a.result? = some r)
    (hstack : s'.stack = Function.update s.stack τ (s.stack τ).tail)
    (hlen : s'.activations.length = s.activations.length)
    (hbelow : ∀ j, (s.stack τ).tail.head? ≠ some j → ∀ b, s.activations[j]? = some b → b.Nesting →
      ∃ b', s'.activations[j]? = some b' ∧ b'.Nesting) : Placed s' := by
  have hself : ∀ {τ' : Task}, τ' = τ → s'.stack τ' = (s.stack τ').tail := by
    rintro τ' rfl
    exact stack_self hstack
  have hsub : ∀ {τ' : Task} {j : Nat}, j ∈ s'.stack τ' → j ∈ s.stack τ' := by
    intro τ' j hj
    by_cases hτ : τ' = τ
    · rw [hself hτ] at hj
      exact List.mem_of_mem_tail hj
    · rw [stack_other hstack hτ] at hj
      exact hj
  have hsorted : ∀ τ', (s'.stack τ').Pairwise (· > ·) := by
    intro τ'
    by_cases hτ : τ' = τ
    · rw [hself hτ]
      exact (h.sorted τ').tail
    · rw [stack_other hstack hτ]
      exact h.sorted τ'
  constructor
  case sorted => exact hsorted
  case bound =>
    intro τ' j hj
    rw [hlen]
    exact h.bound τ' j (hsub hj)
  case apart =>
    intro τ₁ τ₂ j h₁ h₂
    exact h.apart τ₁ τ₂ j (hsub h₁) (hsub h₂)
  case below =>
    intro τ' j hj
    have hold : j ∈ (s.stack τ').tail := by
      by_cases hτ : τ' = τ
      · rw [hself hτ] at hj
        exact List.mem_of_mem_tail hj
      · rw [stack_other hstack hτ] at hj
        exact hj
    have hnot : (s.stack τ).tail.head? ≠ some j := by
      intro hhead
      have htop : j ∈ s.stack τ := List.mem_of_mem_tail (List.mem_of_head? hhead)
      obtain rfl := h.apart τ τ' j htop (List.mem_of_mem_tail hold)
      obtain ⟨rest, hrest⟩ := List.head?_eq_some_iff.mp hhead
      have hs := hsorted τ
      rw [hself rfl, hrest] at hs hj
      exact Nat.lt_irrefl j ((List.pairwise_cons.mp hs).1 j hj)
    obtain ⟨b, hb, hn⟩ := h.below τ' j hold
    exact hbelow j hnot b hb hn
  case ended =>
    intro j a' ha' hout
    refine h.over_step hc (fun i hle hlt => by omega) (fun τ' j hj => ?_) ha' hout
    by_cases hτ : τ' = τ
    · subst hτ
      obtain ⟨rest, hhead⟩ := current?_head hcur
      rw [hhead] at hj
      obtain rfl | hrest := List.mem_cons.mp hj
      · exact .inr ⟨a, r, current?_get hcur, hr⟩
      · refine .inl ⟨τ', ?_⟩
        rw [hself rfl, hhead]
        exact hrest
    · refine .inl ⟨τ', ?_⟩
      rw [stack_other hstack hτ]
      exact hj

/-- A task that runs the application lets a call in. -/
theorem inApp_nesting {τ : Task} (hin : s.inApp τ = true) (hb : ∀ i ∈ s.stack τ, i < s.activations.length)
    {i : Nat} {rest : List Nat} (hτ : s.stack τ = i :: rest) :
    ∃ b, s.activations[i]? = some b ∧ b.Nesting := by
  have hlt := hb i (by rw [hτ]; exact List.mem_cons_self)
  have hget := List.getElem?_eq_getElem hlt
  have hcur : s.current? τ = some (i, s.activations[i]) := by simp [System.current?, hτ, hget]
  refine ⟨_, hget, ?_⟩
  simp only [System.inApp, hcur] at hin
  split at hin
  · rename_i cb event ctx hn
    exact ⟨hin, _, hn, rfl⟩
  · cases hin

end Step

/-- A step keeps every activation in its place. -/
theorem placed_step {ls : List Label} (h : Placed (System.run build ls)) (l : Label) :
    Placed ((System.run build ls).step build l) := by
  have hc := @step_change build (System.run build ls) l
  have kept : ∀ {acts : List Activation} (new : List Activation) {i : Nat} {a : Activation} {j : Nat},
      acts = (System.run build ls).activations.set i a ++ new → j ≠ i →
      ∀ b, (System.run build ls).activations[j]? = some b → b.Nesting →
        ∃ b', acts[j]? = some b' ∧ b'.Nesting := by
    intro acts new i a j hact hj b hb hn
    exact ⟨b, by rw [hact, getElem?_set_ne_append hj hb], hn⟩
  cases @step_shift build (System.run build ls) l with
  | still hstack hact hlen =>
    refine h.still hc hstack hlen fun τ j _ b hb hn => ?_
    obtain hsame | hnoticed := hact j b hb
    · exact ⟨b, hsame, hn⟩
    · exact ⟨b.notice, hnoticed, hn.notice⟩
  | @pushed _ τ r _ _ hin hstack hact =>
    have hkept : ∀ {j : Nat} {b : Activation}, (System.run build ls).activations[j]? = some b →
        ((System.run build ls).step build l).activations[j]? = some b := by
      intro j b hb
      obtain ⟨hlt, _⟩ := List.getElem?_eq_some_iff.mp hb
      rw [hact, List.getElem?_append_left hlt, hb]
    refine h.push hc hstack (by simp [hact]) (fun i rest hτ => ?_)
      fun _ j _ b hb hn => ⟨b, hkept hb, hn⟩
    obtain ⟨b, hb, hn⟩ := inApp_nesting hin (h.bound τ) hτ
    exact ⟨b, hkept hb, hn⟩
  | @called τ i a config k _ _ hcur ht _ hstack hact =>
    obtain ⟨rest, hhead⟩ := current?_head hcur
    obtain ⟨hlt, _⟩ := List.getElem?_eq_some_iff.mp (current?_get hcur)
    refine h.push hc hstack (by simp [hact]) (fun m rest' hτ => ?_) fun τ' j hj b hb hn => ?_
    · rw [hhead] at hτ
      cases hτ
      refine ⟨a.enter, ?_, rfl, _, next?_of_turn ht, rfl⟩
      rw [hact, List.getElem?_append_left (by simpa using hlt), List.getElem?_set_self hlt]
    · exact kept _ hact (h.not_top hhead hj) b hb hn
  | @created τ i a size priority config k _ _ hcur ht _ hstack hact =>
    obtain ⟨rest, hhead⟩ := current?_head hcur
    have hvacant := (@run_nested build ls).vacant _ (Nat.le_refl _)
    refine h.push hc hstack (by simp [hact]) (fun m rest' hτ => ?_) fun τ' j hj b hb hn => ?_
    · rw [hvacant] at hτ
      cases hτ
    · exact kept _ hact (h.not_top hhead hj) b hb hn
  | @worked _ τ i a b _ hcur hev _ _ hstack hact =>
    obtain ⟨rest, hhead⟩ := current?_head hcur
    refine h.still hc hstack (by simp [hact]) fun τ' j hj b' hb' hn => ?_
    exact kept [] (by simpa using hact) (h.not_top hhead hj) b' hb' hn
  | @popped τ i a r _ hcur hd _ hstack hact =>
    have hr : a.result? = some r := by rw [Activation.result?, hd]; rfl
    exact h.pop hc hcur hr hstack (by rw [hact]) fun j _ b hb hn => ⟨b, by rw [hact, hb], hn⟩
  | @returned τ i m a b r config k _ hcur hd hbelow hb ht _ hstack hact =>
    have hr : a.result? = some r := by rw [Activation.result?, hd]; rfl
    refine h.pop hc hcur hr hstack (by simp [hact]) fun j hj b' hb' hn => ?_
    have hjm : j ≠ m := fun heq => hj (heq ▸ hbelow)
    exact kept [] (by simpa using hact) hjm b' hb' hn

/-- Over every interleaving each activation is on one stack or has returned. -/
theorem run_placed (build : BuildOptions) (ls : List Label) : Placed (System.run build ls) :=
  run_induction placed_initial (fun _ l h => placed_step h l) ls

end Placement

/-- The same activation, up to the aborts it has noticed. -/
structure Activation.Alike (a a' : Activation) : Prop where
  routine : a'.routine = a.routine
  prog : a'.prog = a.prog
  entered : a'.entered = a.entered
  trace : a'.trace = a.trace

namespace Activation.Alike

variable {a a' : Activation}

theorem refl (a : Activation) : a.Alike a := ⟨rfl, rfl, rfl, rfl⟩

theorem notice (a : Activation) : a.Alike a.notice := ⟨rfl, rfl, rfl, rfl⟩

theorem next? (h : a.Alike a') : a'.next? = a.next? := by
  rw [Activation.next?, Activation.next?, h.prog]

theorem result? (h : a.Alike a') : a'.result? = a.result? := by
  rw [Activation.result?, Activation.result?, h.prog]

end Activation.Alike

/-- A step of one task, as the others see it. -/
structure Elsewhere (τ : Task) (s s' : System) : Prop where
  stack : ∀ τ', τ' ≠ τ → (∀ n, τ' = .spawned n → n < s.activations.length) → s'.stack τ' = s.stack τ'
  act : ∀ (i : Nat) (a : Activation), s.activations[i]? = some a → i ∉ s.stack τ →
    ∃ a', s'.activations[i]? = some a' ∧ a.Alike a'

section Elsewhere

variable {build : BuildOptions}

theorem Elsewhere.refl (τ : Task) (s : System) : Elsewhere τ s s :=
  ⟨fun _ _ _ => rfl, fun _ a ha _ => ⟨a, ha, .refl a⟩⟩

/-- The activation a step of a task replaces is on its stack. -/
theorem Elsewhere.replace {s s' : System} {τ : Task} {i : Nat} {a : Activation}
    {new : List Activation} (hi : i ∈ s.stack τ)
    (hact : s'.activations = s.activations.set i a ++ new)
    (hstack : ∀ τ', τ' ≠ τ → (∀ n, τ' = .spawned n → n < s.activations.length) →
      s'.stack τ' = s.stack τ') : Elsewhere τ s s' := by
  refine ⟨hstack, fun j b hb hj => ⟨b, ?_, .refl b⟩⟩
  have hne : j ≠ i := fun heq => hj (heq ▸ hi)
  rw [hact, getElem?_set_ne_append hne hb]

/-- The labels a task goes on by. -/
def Label.of (τ : Task) (l : Label) : Prop := l = .advance τ ∨ ∃ reply, l = .answer τ reply

theorem step_elsewhere {s : System} {τ : Task} {l : Label} (hl : l.of τ) :
    Elsewhere τ s (s.step build l) := by
  have acting : ∀ {τ' : Task}, Label.of τ' l → τ' = τ := by
    rintro τ' (rfl | ⟨reply, rfl⟩)
    · obtain h | ⟨_, h⟩ := hl
      · cases h
        rfl
      · cases h
    · obtain h | ⟨_, h⟩ := hl
      · cases h
      · cases h
        rfl
  have top : ∀ {i : Nat} {a : Activation}, s.current? τ = some (i, a) → i ∈ s.stack τ := by
    intro i a hcur
    obtain ⟨rest, hhead⟩ := current?_head hcur
    rw [hhead]
    exact List.mem_cons_self
  have hbranch := @step_branch build s l
  generalize s.step build l = s' at hbranch ⊢
  cases hbranch with
  | idle => exact .refl τ s
  | update _ _ => obtain h | ⟨_, h⟩ := hl <;> cases h
  | startTask _ _ => obtain h | ⟨_, h⟩ := hl <;> cases h
  | abort _ _ => obtain h | ⟨_, h⟩ := hl <;> cases h
  | @returned τ' i a r _ hcur hd =>
    obtain rfl := acting (.inl rfl)
    obtain ⟨hstack, hact⟩ := leave_cases s τ' r
    have hother : ∀ τ'', τ'' ≠ τ' → (∀ n, τ'' = .spawned n → n < s.activations.length) →
        (s.leave τ' r).stack τ'' = s.stack τ'' := fun τ'' hne _ => stack_other hstack hne
    obtain hact | ⟨m, b, hm, hact⟩ := hact
    · exact ⟨hother, fun j b hb _ => ⟨b, hact ▸ hb, .refl b⟩⟩
    · exact .replace hm (by rw [hact, List.append_nil]) hother
  | @passed τ' i a c k answer slot _ hcur ht he hc =>
    obtain rfl := acting (.inl rfl)
    exact .replace (top hcur) (List.append_nil _).symm fun _ _ _ => rfl
  | @entered τ' i a c k _ hcur ht he hc =>
    obtain rfl := acting (.inl rfl)
    obtain ⟨new, hnew, _⟩ := @entering_activations build (s.put i a.enter) τ' c
    exact .replace (top hcur) hnew fun τ'' hne _ => entering_stack _ τ' τ'' c hne
  | @answered τ' reply i a c k answer _ hcur ht he ha =>
    obtain rfl := acting (.inr ⟨reply, rfl⟩)
    obtain ⟨new, hnew, _⟩ := @answering_activations build (s.put i (a.resume k answer)) ⟨c, answer⟩
    refine .replace (top hcur) hnew fun τ'' _ hold => answering_stack _ _ τ'' fun n hn => ?_
    simpa [System.put] using hold n hn

/-- A task that is inside of nothing does not go on. -/
theorem step_outside {s : System} {τ : Task} {l : Label} (hl : l.of τ) (hstack : s.stack τ = []) :
    s.step build l = s := by
  have hcur : s.current? τ = none := by simp [System.current?, hstack]
  obtain rfl | ⟨reply, rfl⟩ := hl
  · simp [System.step, System.advance, hcur]
  · simp [System.step, System.answer, hcur]

/-- An abort is noticed and does nothing else. -/
theorem abort_elsewhere (s : System) (τ τ' : Task) :
    Elsewhere τ s (s.step build (.otaApiAbort τ')) ∧
      (s.step build (.otaApiAbort τ')).stack = s.stack ∧
      (∀ (i : Nat) (a : Activation), s.activations[i]? = some a →
        ∃ a', (s.step build (.otaApiAbort τ')).activations[i]? = some a' ∧ a.Alike a') := by
  have habort : s.abort.stack = s.stack ∧ ∀ (i : Nat) (a : Activation), s.activations[i]? = some a →
      ∃ a', s.abort.activations[i]? = some a' ∧ a.Alike a' := by
    unfold System.abort
    dsimp only
    split
    · exact ⟨rfl, fun i a ha => ⟨a.notice, by simp [ha], .notice a⟩⟩
    · exact ⟨rfl, fun i a ha => ⟨a, ha, .refl a⟩⟩
  obtain hsame | hsame : s.step build (.otaApiAbort τ') = s ∨
      s.step build (.otaApiAbort τ') = s.abort := by
    simp only [System.step]
    split
    · exact .inl rfl
    · split
      · exact .inr rfl
      · exact .inl rfl
  · rw [hsame]
    exact ⟨.refl τ s, rfl, fun i a ha => ⟨a, ha, .refl a⟩⟩
  · rw [hsame]
    exact ⟨⟨fun τ'' _ _ => congrFun habort.1 τ'', fun i a ha _ => habort.2 i a ha⟩, habort⟩

end Elsewhere

end OtaApi
