import OtaApi.Heap

/-!
# Who has the copy

Over every interleaving the starts and their tasks handle the blocks of the copies as
the machine of custody allows it: nobody touches a block that is not its own, none is
freed twice, none is left behind, and the task reads what the start was called with.
-/

namespace OtaApi

open Interaction

section Step

variable {build : BuildOptions}

/-- What a step does to what everybody has in hand. -/
inductive HandsStep (h h' : Nat → Option (Option OtaApiConfig)) : Option HeapOp → Prop where
  | none (heq : h' = h) : HandsStep h h' none
  | malloc {i : Nat} (hi : h i = none) (heq : h' = Function.update h i (some none)) :
      HandsStep h h' (some (.malloc i))
  | store {i : Nat} {config : OtaApiConfig} (hi : h i = some none)
      (heq : h' = Function.update h i (some (some config))) : HandsStep h h' (some (.store i config))
  | hand {i j : Nat} {config : OtaApiConfig} (hi : h i = some (some config)) (hj : h j = none)
      (heq : h' = Function.update (Function.update h i none) j (some (some config))) :
      HandsStep h h' (some (.hand i j))
  | load {j : Nat} {config : OtaApiConfig} (hj : h j = some (some config)) (heq : h' = h) :
      HandsStep h h' (some (.load j))
  | free {i : Nat} {o : Option OtaApiConfig} (hi : h i = some o)
      (heq : h' = Function.update h i none) : HandsStep h h' (some (.free i))

theorem hands_get {s : System} {i : Nat} {a : Activation} (ha : s.activations[i]? = some a) :
    s.hands? i = a.hands? := by
  rw [System.hands?, ha]
  rfl

theorem hands_beyond {s : System} {i : Nat} (hi : s.activations.length ≤ i) : s.hands? i = none := by
  rw [System.hands?, List.getElem?_eq_none hi]
  rfl

theorem hands_set {s s' : System} {i : Nat} {a b : Activation} (ha : s.activations[i]? = some a)
    (hact : s'.activations = s.activations.set i b) :
    s'.hands? = Function.update s.hands? i b.hands? := by
  obtain ⟨hlt, _⟩ := List.getElem?_eq_some_iff.mp ha
  funext j
  by_cases hj : j = i
  · subst hj
    rw [Function.update_self, System.hands?, hact, List.getElem?_set_self hlt]
    rfl
  · rw [Function.update_of_ne hj, System.hands?, hact, List.getElem?_set_ne (Ne.symm hj)]
    rfl

theorem hands_append {s s' : System} {b : Activation}
    (hact : s'.activations = s.activations ++ [b]) :
    s'.hands? = Function.update s.hands? s.activations.length b.hands? := by
  funext j
  by_cases hj : j = s.activations.length
  · subst hj
    rw [Function.update_self, System.hands?, hact, List.getElem?_concat_length]
    rfl
  · rw [Function.update_of_ne hj]
    by_cases hlt : j < s.activations.length
    · rw [System.hands?, hact, List.getElem?_append_left hlt]
      rfl
    · have hlen : s'.activations.length = s.activations.length + 1 := by
        rw [hact, List.length_append, List.length_singleton]
      have hle : s'.activations.length ≤ j := by omega
      rw [hands_beyond hle, hands_beyond (Nat.not_lt.mp hlt)]

/-- What happens without anybody's hands changing. -/
theorem hands_unchanged {s s' : System} {i : Nat} {a b : Activation}
    (ha : s.activations[i]? = some a) (hact : s'.activations = s.activations.set i b)
    (hb : b.hands? = a.hands?) : s'.hands? = s.hands? := by
  rw [hands_set ha hact, hb, ← hands_get ha, Function.update_eq_self]

theorem hands_call (s : System) (τ : Task) (r : Routine) (hr : ∀ config, r ≠ .otaTask config) :
    (s.call build τ r).hands? = s.hands? := by
  have hnew : (Activation.start build r).hands? = none := by
    rw [hands_start]
    cases r with
    | otaTask config => exact (hr config rfl).elim
    | otaApiUpdate _ => rfl
    | otaApiStartTask _ => rfl
  have hcall : (s.call build τ r).hands? =
      Function.update s.hands? s.activations.length (Activation.start build r).hands? :=
    hands_append rfl
  rw [hcall, hnew, ← hands_beyond (Nat.le_refl _),
    Function.update_eq_self]

theorem hands_abort (s : System) : s.abort.hands? = s.hands? := by
  funext j
  simp only [System.abort]
  split
  · simp only [System.hands?, List.getElem?_map]
    cases s.activations[j]? with
    | none => rfl
    | some a => rfl
  · rfl

/-- What was called returns. -/
theorem answered_effect {s : System} {i : Nat} {a : Activation} {c : Call}
    {k : Answer c → Program EspErr} {answer : Answer c} (ha : s.activations[i]? = some a)
    (hs : a.Sound build) (hs' : (a.resume k answer).Sound build) (ht : a.prog.turn = .call c k)
    (he : a.entered = true) :
    HandsStep s.hands? ((s.put i (a.resume k answer)).answering build ⟨c, answer⟩).hands?
      (c.op? answer i s.activations.length) := by
  have hn := next?_of_turn ht
  have hres := hands_resume hs hs' ht he
  have hget := hands_get ha
  have hput : (s.put i (a.resume k answer)).hands? =
      Function.update s.hands? i (a.resume k answer).hands? := hands_set ha rfl
  cases c with
  | malloc =>
    cases answer with
    | true => exact .malloc (hget.trans (hands_malloc hn)) (hput.trans (by rw [hres]; rfl))
    | false =>
      refine .none (hput.trans ?_)
      rw [hres, handsAfter, if_neg Bool.false_ne_true, ← hget, Function.update_eq_self]
  | free =>
    obtain ⟨config, hfree⟩ := hands_free hs hn
    exact .free (hget.trans hfree) (hput.trans (by rw [hres]; rfl))
  | taskCreate size priority config =>
    have hr := creating_start hs hn
    have hbefore : a.hands? = some (some config) := by
      simp only [Activation.hands?, hr, hn, he]
      rfl
    cases answer with
    | true =>
      refine .hand (hget.trans hbefore) (hands_beyond (Nat.le_refl _)) ?_
      have hspawn := @hands_append (s.put i (a.resume k true))
        ((s.put i (a.resume k true)).answering build ⟨.taskCreate size priority config, true⟩)
        (.start build (.otaTask config)) rfl
      rw [hands_start] at hspawn
      rw [hspawn, hput, hres]
      simp only [System.put, List.length_set]
      rfl
    | false =>
      refine .none (hput.trans ?_)
      rw [hres, handsAfter, if_neg Bool.false_ne_true, ← hget, Function.update_eq_self]
  | _ => exact .none (hput.trans (by rw [hres, handsAfter_other rfl, ← hget, Function.update_eq_self]))

/-- A return leaves the hands as they are, those of the activation that gets it too. -/
theorem hands_leave {s : System} {τ : Task} {r : EspErr}
    (hs : ∀ (i : Nat) (a : Activation), s.activations[i]? = some a → a.Sound build)
    (hs' : ∀ (i : Nat) (a : Activation), (s.leave τ r).activations[i]? = some a → a.Sound build) :
    (s.leave τ r).hands? = s.hands? := by
  simp only [System.leave] at hs' ⊢
  split
  · rfl
  · rename_i m b hcur
    have hb : s.activations[m]? = some b :=
      @current?_get { s with stack := Function.update s.stack τ (s.stack τ).tail } τ m b hcur
    simp only [hcur] at hs'
    split
    · rename_i config k ht
      simp only [ht] at hs'
      split
      · rename_i he
        obtain ⟨hlt, _⟩ := List.getElem?_eq_some_iff.mp hb
        rw [if_pos he] at hs'
        have hsound := hs' m (b.resume k r) (List.getElem?_set_self hlt)
        exact hands_unchanged hb rfl (hands_resume (hs m b hb) hsound ht he)
      · rfl
    · rfl

/-- A call is entered. -/
theorem entered_effect {s : System} {τ : Task} {i : Nat} {a : Activation} {c : Call}
    (ha : s.activations[i]? = some a) (hn : a.next? = some c) (he : a.entered = false) :
    HandsStep s.hands? ((s.put i a.enter).entering build τ c).hands? (a.opBefore? i) := by
  have hput : (s.put i a.enter).hands? = Function.update s.hands? i a.enter.hands? :=
    hands_set ha rfl
  have hget := hands_get ha
  have henter : ((s.put i a.enter).entering build τ c).hands? = (s.put i a.enter).hands? := by
    cases c with
    | otaApiUpdate config => exact hands_call _ _ _ fun config h => by cases h
    | _ => rfl
  rw [henter]
  obtain ⟨hop, h⟩ | ⟨config, hop, hold, h⟩ | ⟨config, hop, hold, h⟩ := hands_enter hn he i
  · rw [hop]
    exact .none (by rw [hput, h, ← hget, Function.update_eq_self])
  · rw [hop]
    exact .store (hget.trans hold) (by rw [hput, h])
  · rw [hop]
    exact .load (hget.trans hold) (by rw [hput, h, ← hget, Function.update_eq_self])

/-- A task goes on by itself. -/
theorem advance_effect {s : System} {τ : Task} (hrun : s.restarted = false)
    (hs : ∀ (i : Nat) (a : Activation), s.activations[i]? = some a → a.Sound build)
    (hs' : ∀ (i : Nat) (a : Activation),
      (s.step build (.advance τ)).activations[i]? = some a → a.Sound build) :
    HandsStep s.hands? (s.step build (.advance τ)).hands? (s.heapOp? (.advance τ)) := by
  have hstep : s.step build (.advance τ) = s.advance build τ := by simp [System.step, hrun]
  have hop : s.heapOp? (.advance τ) = (s.current? τ).bind fun p => p.2.opBefore? p.1 := by
    simp [System.heapOp?, hrun]
  rw [hstep] at hs' ⊢
  rw [hop]
  simp only [System.advance] at hs' ⊢
  cases hcur : s.current? τ with
  | none => exact .none rfl
  | some p =>
    obtain ⟨i, a⟩ := p
    have ha := current?_get hcur
    simp only [hcur, Option.bind_some] at hs' ⊢
    cases ht : a.prog.turn with
    | done r =>
      have hn : a.next? = none := by
        rw [Activation.next?, ht]
        rfl
      have hbefore : a.opBefore? i = none := by simp [Activation.opBefore?, hn]
      simp only [ht] at hs' ⊢
      rw [hbefore]
      exact .none (hands_leave hs hs')
    | call c k =>
      have hn := next?_of_turn ht
      simp only [ht] at hs' ⊢
      cases he : a.entered with
      | true =>
        have hbefore : a.opBefore? i = none := by simp [Activation.opBefore?, he]
        rw [hbefore]
        exact .none rfl
      | false =>
        rw [if_neg (by simp [he])] at hs' ⊢
        cases hc : criticalSection s.slot c with
        | some p =>
          obtain ⟨answer, slot⟩ := p
          obtain ⟨hlt, _⟩ := List.getElem?_eq_some_iff.mp ha
          simp only [hc] at hs' ⊢
          have hcrit := criticalSection_critical hc
          have hother : a.opBefore? i = none := by
            obtain ⟨h, _⟩ | ⟨config, h, hold, _⟩ | ⟨config, h, hold, _⟩ := hands_enter hn he i
            · exact h
            · cases (hands_critical hn hcrit).symm.trans hold
            · cases (hands_critical hn hcrit).symm.trans hold
          rw [hother]
          have hsound := hs' i (a.resume k answer) (List.getElem?_set_self hlt)
          exact .none (hands_unchanged ha rfl (hands_passed (hs i a ha) hsound ht hcrit))
        | none =>
          exact entered_effect ha hn he

theorem answer_effect {s : System} {τ : Task} {reply : Reply} (hrun : s.restarted = false)
    (hs : ∀ (i : Nat) (a : Activation), s.activations[i]? = some a → a.Sound build)
    (hs' : ∀ (i : Nat) (a : Activation),
      (s.step build (.answer τ reply)).activations[i]? = some a → a.Sound build) :
    HandsStep s.hands? (s.step build (.answer τ reply)).hands? (s.heapOp? (.answer τ reply)) := by
  have hop : s.heapOp? (.answer τ reply) = (s.current? τ).bind fun p =>
      p.2.opAnswered? p.1 s.activations.length reply := by simp [System.heapOp?, hrun]
  have hstep : s.step build (.answer τ reply) = s.answer build τ reply := by
    simp [System.step, hrun]
  rw [hstep] at hs' ⊢
  rw [hop]
  simp only [System.answer] at hs' ⊢
  cases hcur : s.current? τ with
  | none => exact .none rfl
  | some p =>
    obtain ⟨i, a⟩ := p
    have ha := current?_get hcur
    simp only [hcur, Option.bind_some, Activation.opAnswered?] at hs' ⊢
    cases ht : a.prog.turn with
    | done r =>
      have hn : a.next? = none := by
        rw [Activation.next?, ht]
        rfl
      simp only [hn, Option.bind_none, ite_self]
      exact .none rfl
    | call c k =>
      have hn := next?_of_turn ht
      simp only [ht, hn, Option.bind_some] at hs' ⊢
      cases he : a.entered with
      | false => exact .none rfl
      | true =>
        cases hr : reply.answer? c with
        | none => exact .none rfl
        | some answer =>
          obtain ⟨hlt, _⟩ := List.getElem?_eq_some_iff.mp ha
          simp only [he, hr, if_true, Option.bind_some] at hs' ⊢
          have hkept : ((s.put i (a.resume k answer)).answering build ⟨c, answer⟩).activations[i]? =
              some (a.resume k answer) := by
            obtain ⟨new, hact, _⟩ :=
              @answering_activations build (s.put i (a.resume k answer)) ⟨c, answer⟩
            have hset : (s.activations.set i (a.resume k answer))[i]? = some (a.resume k answer) :=
              List.getElem?_set_self hlt
            rw [hact, List.getElem?_append_left (by simpa [System.put] using hlt)]
            exact hset
          exact answered_effect ha (hs i a ha) (hs' i _ hkept) ht he

/-- What a step does to the hands is what it does to the heap. -/
theorem run_effect (ls : List Label) (l : Label) :
    HandsStep (System.run build ls).hands? ((System.run build ls).step build l).hands?
      ((System.run build ls).heapOp? l) := by
  have hs : ∀ (i : Nat) (a : Activation),
      (System.run build ls).activations[i]? = some a → a.Sound build := fun i a ha => run_sound ha
  have hs' : ∀ (i : Nat) (a : Activation),
      ((System.run build ls).step build l).activations[i]? = some a → a.Sound build := by
    intro i a ha
    have hsnoc : System.run build (ls ++ [l]) = (System.run build ls).step build l := exec_snoc _ ls l
    rw [← hsnoc] at ha
    exact run_sound ha
  generalize System.run build ls = s at hs hs' ⊢
  cases hrun : s.restarted with
  | true =>
    have hstep : s.step build l = s := by simp [System.step, hrun]
    have hop : s.heapOp? l = none := by simp [System.heapOp?, hrun]
    rw [hstep, hop]
    exact .none rfl
  | false =>
    cases l with
    | advance τ => exact advance_effect hrun hs hs'
    | answer τ reply => exact answer_effect hrun hs hs'
    | otaApiUpdate τ config =>
      have hop : s.heapOp? (.otaApiUpdate τ config) = none := by simp [System.heapOp?]
      have hbranch := @step_branch build s (.otaApiUpdate τ config)
      rw [hop]
      generalize s.step build (.otaApiUpdate τ config) = s' at hbranch ⊢
      cases hbranch with
      | idle => exact .none rfl
      | update _ _ => exact .none (hands_call s τ (.otaApiUpdate config) fun _ h => by cases h)
    | otaApiStartTask τ config =>
      have hop : s.heapOp? (.otaApiStartTask τ config) = none := by simp [System.heapOp?]
      have hbranch := @step_branch build s (.otaApiStartTask τ config)
      rw [hop]
      generalize s.step build (.otaApiStartTask τ config) = s' at hbranch ⊢
      cases hbranch with
      | idle => exact .none rfl
      | startTask _ _ => exact .none (hands_call s τ (.otaApiStartTask config) fun _ h => by cases h)
    | otaApiAbort τ =>
      have hop : s.heapOp? (.otaApiAbort τ) = none := by simp [System.heapOp?]
      have hbranch := @step_branch build s (.otaApiAbort τ)
      rw [hop]
      generalize s.step build (.otaApiAbort τ) = s' at hbranch ⊢
      cases hbranch with
      | idle => exact .none rfl
      | abort _ _ => exact .none (hands_abort s)
    | otaApiIsRunning τ =>
      have hop : s.heapOp? (.otaApiIsRunning τ) = none := by simp [System.heapOp?]
      have hbranch := @step_branch build s (.otaApiIsRunning τ)
      rw [hop]
      generalize s.step build (.otaApiIsRunning τ) = s' at hbranch ⊢
      cases hbranch with
      | idle => exact .none rfl

end Step

/-! ## Whose block it is -/

section Kept

variable {build : BuildOptions} {w : Custody Nat} {p : Process}

/-- The blocks that are out are those that the activations have in hand, each where its
variable points to. -/
structure Kept (w : Custody Nat) (p : Process) : Prop where
  blocks : p.memory.blocks.length = w.length
  has : ∀ i o, p.system.hands? i = some o →
    ∃ b, p.memory.pointer i = some b ∧ w[b]? = some (some i) ∧ p.memory.blocks[b]? = some o
  held : ∀ b i, w[b]? = some (some i) →
    p.memory.pointer i = some b ∧ ∃ o, p.system.hands? i = some o

theorem kept_initial : Kept [] .initial := by
  constructor
  case blocks => rfl
  case has =>
    intro i o h
    cases h
  case held =>
    intro b i h
    cases h

theorem Kept.same (h : Kept w p) {p' : Process} (hmem : p'.memory = p.memory)
    (heq : p'.system.hands? = p.system.hands?) : Kept w p' := by
  constructor
  case blocks => rw [hmem, h.blocks]
  case has => rw [hmem, heq]; exact h.has
  case held => rw [hmem, heq]; exact h.held

theorem Kept.malloc (h : Kept w p) {i : Nat} {p' : Process} (hi : p.system.hands? i = none)
    (hmem : p'.memory = p.memory.apply (.malloc i))
    (heq : p'.system.hands? = Function.update p.system.hands? i (some none)) :
    Kept (w ++ [some i]) p' := by
  constructor
  case blocks => simp [hmem, Memory.apply, h.blocks]
  case has =>
    intro j o hj
    by_cases hji : j = i
    · subst hji
      rw [heq, Function.update_self] at hj
      cases hj
      refine ⟨w.length, ?_, by simp, ?_⟩
      · simp [hmem, Memory.apply, h.blocks]
      · simp [hmem, Memory.apply, ← h.blocks]
    · rw [heq, Function.update_of_ne hji] at hj
      obtain ⟨b, hptr, hb, hblock⟩ := h.has j o hj
      obtain ⟨hlt, _⟩ := List.getElem?_eq_some_iff.mp hb
      obtain ⟨hlt', _⟩ := List.getElem?_eq_some_iff.mp hblock
      refine ⟨b, ?_, by rw [List.getElem?_append_left hlt, hb], ?_⟩
      · simp [hmem, Memory.apply, Function.update_of_ne hji, hptr]
      · simp [hmem, Memory.apply, List.getElem?_append_left hlt', hblock]
  case held =>
    intro b j hb
    by_cases hlt : b < w.length
    · rw [List.getElem?_append_left hlt] at hb
      obtain ⟨hptr, o, ho⟩ := h.held b j hb
      have hji : j ≠ i := by
        rintro rfl
        rw [hi] at ho
        cases ho
      refine ⟨?_, o, by rw [heq, Function.update_of_ne hji, ho]⟩
      simp [hmem, Memory.apply, Function.update_of_ne hji, hptr]
    · obtain ⟨hlt', _⟩ := List.getElem?_eq_some_iff.mp hb
      have hblen : b = w.length := by
        rw [List.length_append, List.length_singleton] at hlt'
        omega
      subst hblen
      obtain rfl : j = i := by simpa using hb.symm
      refine ⟨?_, none, by rw [heq, Function.update_self]⟩
      simp [hmem, Memory.apply, h.blocks]

theorem Kept.store (h : Kept w p) {i b : Nat} {config : OtaApiConfig} {p' : Process}
    (hptr : p.memory.pointer i = some b) (hb : w[b]? = some (some i))
    (hmem : p'.memory = p.memory.apply (.store i config))
    (heq : p'.system.hands? = Function.update p.system.hands? i (some (some config))) :
    Kept w p' := by
  have hblocks : p'.memory.blocks = p.memory.blocks.set b (some config) := by
    simp only [hmem, Memory.apply, Memory.store, hptr]
  have hpointer : p'.memory.pointer = p.memory.pointer := by
    simp only [hmem, Memory.apply, Memory.store, hptr]
  obtain ⟨hlt, _⟩ := List.getElem?_eq_some_iff.mp hb
  constructor
  case blocks => rw [hblocks, List.length_set, h.blocks]
  case has =>
    intro j o hj
    rw [hpointer, hblocks]
    by_cases hji : j = i
    · subst hji
      rw [heq, Function.update_self] at hj
      cases hj
      exact ⟨b, hptr, hb, List.getElem?_set_self (by rw [h.blocks]; exact hlt)⟩
    · rw [heq, Function.update_of_ne hji] at hj
      obtain ⟨b', hptr', hb', hblock⟩ := h.has j o hj
      refine ⟨b', hptr', hb', ?_⟩
      rw [List.getElem?_set_ne (Custody.apart hb hb' hji).symm, hblock]
  case held =>
    intro b' j hb'
    obtain ⟨hptr', o, ho⟩ := h.held b' j hb'
    rw [hpointer, heq]
    refine ⟨hptr', ?_⟩
    by_cases hji : j = i
    · subst hji
      exact ⟨_, Function.update_self ..⟩
    · exact ⟨o, by rw [Function.update_of_ne hji, ho]⟩

theorem Kept.hand (h : Kept w p) {i j b : Nat} {config : OtaApiConfig} {p' : Process}
    (hi : p.system.hands? i = some (some config)) (hj : p.system.hands? j = none)
    (hptr : p.memory.pointer i = some b) (hb : w[b]? = some (some i))
    (hmem : p'.memory = p.memory.apply (.hand i j))
    (heq : p'.system.hands? =
      Function.update (Function.update p.system.hands? i none) j (some (some config))) :
    Kept (w.set b (some j)) p' := by
  have hblocks : p'.memory.blocks = p.memory.blocks := by rw [hmem, Memory.apply]
  have hpointer : p'.memory.pointer = Function.update p.memory.pointer j (some b) := by
    rw [hmem, Memory.apply, hptr]
  obtain ⟨hlt, _⟩ := List.getElem?_eq_some_iff.mp hb
  constructor
  case blocks => rw [hblocks, List.length_set, h.blocks]
  case has =>
    intro k o hk
    by_cases hkj : k = j
    · subst hkj
      rw [heq, Function.update_self] at hk
      cases hk
      obtain ⟨b', hptr', _, hblock⟩ := h.has i _ hi
      rw [hptr] at hptr'
      cases hptr'
      refine ⟨b, by rw [hpointer, Function.update_self], List.getElem?_set_self hlt, ?_⟩
      rw [hblocks, hblock]
    · rw [heq, Function.update_of_ne hkj] at hk
      have hki : k ≠ i := by
        rintro rfl
        rw [Function.update_self] at hk
        cases hk
      rw [Function.update_of_ne hki] at hk
      obtain ⟨b', hptr', hb', hblock⟩ := h.has k o hk
      refine ⟨b', by rw [hpointer, Function.update_of_ne hkj, hptr'], ?_, by rw [hblocks, hblock]⟩
      rw [List.getElem?_set_ne (Custody.apart hb hb' hki).symm, hb']
  case held =>
    intro b' k hb'
    by_cases hbb : b' = b
    · subst hbb
      rw [List.getElem?_set_self hlt] at hb'
      cases hb'
      rw [hpointer, heq]
      exact ⟨Function.update_self .., _, Function.update_self ..⟩
    · rw [List.getElem?_set_ne (Ne.symm hbb)] at hb'
      obtain ⟨hptr', o, ho⟩ := h.held b' k hb'
      have hkj : k ≠ j := by
        rintro rfl
        rw [hj] at ho
        cases ho
      have hki : k ≠ i := by
        rintro rfl
        rw [hptr] at hptr'
        cases hptr'
        exact hbb rfl
      rw [hpointer, heq, Function.update_of_ne hkj, Function.update_of_ne hkj,
        Function.update_of_ne hki]
      exact ⟨hptr', o, ho⟩

theorem Kept.free (h : Kept w p) {i b : Nat} {p' : Process} (hptr : p.memory.pointer i = some b)
    (hb : w[b]? = some (some i)) (hmem : p'.memory = p.memory)
    (heq : p'.system.hands? = Function.update p.system.hands? i none) :
    Kept (w.set b none) p' := by
  obtain ⟨hlt, _⟩ := List.getElem?_eq_some_iff.mp hb
  constructor
  case blocks => rw [hmem, List.length_set, h.blocks]
  case has =>
    intro j o hj
    have hji : j ≠ i := by
      rintro rfl
      rw [heq, Function.update_self] at hj
      cases hj
    rw [heq, Function.update_of_ne hji] at hj
    obtain ⟨b', hptr', hb', hblock⟩ := h.has j o hj
    rw [hmem]
    refine ⟨b', hptr', ?_, hblock⟩
    rw [List.getElem?_set_ne (Custody.apart hb hb' hji).symm, hb']
  case held =>
    intro b' j hb'
    have hbb : b' ≠ b := by
      rintro rfl
      rw [List.getElem?_set_self hlt] at hb'
      cases hb'
    rw [List.getElem?_set_ne hbb.symm] at hb'
    obtain ⟨hptr', o, ho⟩ := h.held b' j hb'
    have hji : j ≠ i := by
      rintro rfl
      rw [hptr] at hptr'
      cases hptr'
      exact hbb rfl
    rw [hmem, heq, Function.update_of_ne hji]
    exact ⟨hptr', o, ho⟩

/-- The relation behind the refinement. -/
structure Traced (build : BuildOptions) (w : Custody Nat) (p : Process) : Prop where
  reached : ∃ ls, p.system = System.run build ls
  kept : Kept w p

/-- Every act on the heap is one that the machine of custody has an arrow for. -/
theorem heap_matched {t : List (Custody.Act Nat)} (h : Traced build w p) (l : Label) :
    Matched Custody.Move (fun _ => Traced build) t w (p.step build l) (p.act? l) := by
  obtain ⟨⟨ls, hreach⟩, hk⟩ := h
  have hsys : (p.step build l).system = p.system.step build l := rfl
  have hreach' : ∃ ls, (p.step build l).system = System.run build ls := by
    refine ⟨ls ++ [l], ?_⟩
    rw [hsys, hreach]
    exact (exec_snoc _ ls l).symm
  have hmem : (p.step build l).memory =
      ((p.system.heapOp? l).map p.memory.apply).getD p.memory := rfl
  have heffect := @run_effect build ls l
  rw [← hreach, ← hsys] at heffect
  rw [Process.act?]
  generalize p.step build l = p' at hreach' heffect hmem ⊢
  generalize p.system.heapOp? l = op at heffect hmem ⊢
  cases heffect with
  | none heq => exact .stays ⟨hreach', hk.same hmem heq⟩
  | @malloc i hi heq =>
    have hact : p.memory.act (.malloc i) = .obtained w.length i := by rw [Memory.act, hk.blocks]
    simp only [Option.map_some, hact]
    exact .moves .obtained ⟨hreach', hk.malloc hi hmem heq⟩
  | @store i config hi heq =>
    obtain ⟨b, hptr, hb, _⟩ := hk.has _ _ hi
    have hact : p.memory.act (.store i config) = .used (some b) i := by rw [Memory.act, hptr]
    simp only [Option.map_some, hact]
    exact .moves (.used hb) ⟨hreach', hk.store hptr hb hmem heq⟩
  | @hand i j config hi hj heq =>
    obtain ⟨b, hptr, hb, _⟩ := hk.has _ _ hi
    have hact : p.memory.act (.hand i j) = .passed (some b) i j := by rw [Memory.act, hptr]
    simp only [Option.map_some, hact]
    exact .moves (.passed hb) ⟨hreach', hk.hand hi hj hptr hb hmem heq⟩
  | @load j config hj heq =>
    obtain ⟨b, hptr, hb, _⟩ := hk.has _ _ hj
    have hact : p.memory.act (.load j) = .used (some b) j := by rw [Memory.act, hptr]
    simp only [Option.map_some, hact]
    exact .moves (.used hb) ⟨hreach', hk.same hmem heq⟩
  | @free i o hi heq =>
    obtain ⟨b, hptr, hb, _⟩ := hk.has _ _ hi
    have hact : p.memory.act (.free i) = .returned (some b) i := by rw [Memory.act, hptr]
    simp only [Option.map_some, hact]
    exact .moves (.returned hb) ⟨hreach', hk.free hptr hb hmem heq⟩

theorem heap_refines (build : BuildOptions) (ls : List Label) :
    ∃ w, Path Custody.Move [] (heapActs build ls) w ∧ Traced build w (Process.run build ls) :=
  exec_refines (fun _ _ _ l h => heap_matched h l) ⟨⟨[], rfl⟩, kept_initial⟩ ls

end Kept

/-! ## What a start and its task can rely on -/

section Reliance

variable {build : BuildOptions}

theorem process_system (ls : List Label) :
    (Process.run build ls).system = System.run build ls := by
  induction ls using List.reverseRecOn with
  | nil => rfl
  | append_singleton ls l ih =>
    rw [Process.run, exec_snoc, System.run, exec_snoc]
    exact congrArg (fun s => System.step build s l) ih

/-- The blocks of the copies are handled as blocks are to be. -/
structure InCustody (build : BuildOptions) (ls : List Label) : Prop where
  /-- The acts are those of parties that have what they touch; at the end everybody has
  the blocks it has not freed or handed over yet. -/
  turns : ∃ w, Path Custody.Move [] (heapActs build ls) w ∧
    ∀ b i, w[b]? = some (some i) ↔ (Process.run build ls).memory.pointer i = some b ∧
      (System.run build ls).hands? i ≠ none
  orderly : Custody.Orderly (heapActs build ls)

/-- No block is used before it is handed out or after it was freed, freed twice, or
touched by anybody but the activation that has it. -/
theorem copies_in_custody (ls : List Label) : InCustody build ls := by
  obtain ⟨w, hpath, _, hk⟩ := heap_refines build ls
  constructor
  case turns =>
    refine ⟨w, hpath, fun b i => ⟨fun hb => ?_, fun ⟨hptr, hhas⟩ => ?_⟩⟩
    · obtain ⟨hptr, o, ho⟩ := hk.held b i hb
      exact ⟨hptr, by rw [← process_system, ho]; exact Option.some_ne_none o⟩
    · obtain ⟨o, ho⟩ := Option.ne_none_iff_exists'.mp hhas
      rw [← process_system] at ho
      obtain ⟨b', hptr', hb', _⟩ := hk.has i o ho
      rw [hptr] at hptr'
      cases hptr'
      exact hb'
  case orderly => exact Custody.orderly hpath

/-- The step after which a task is there is the one that a start has it created by. -/
theorem added_creates {s : System} {l : Label} {j : Nat} {b : Activation} {config : OtaApiConfig}
    (hs : ∀ (i : Nat) (a : Activation), s.activations[i]? = some a → a.Sound build)
    (hnone : s.activations[j]? = none) (hb : (s.step build l).activations[j]? = some b)
    (hr : b.routine = .otaTask config) : ∃ i, CreatesTask i j s l := by
  obtain ⟨hj, _, _⟩ := new_task (step_shift s l) hnone hb hr
  have hadded := step_added hnone hb
  have hrun : s.restarted = false := by
    cases hrun : s.restarted with
    | false => rfl
    | true =>
      have hstep : s.step build l = s := by simp [System.step, hrun]
      rw [hstep, hnone] at hb
      cases hb
  cases hadded with
  | update => cases hr
  | startTask => cases hr
  | called _ _ _ => cases hr
  | @created τ reply i a size priority config' hcur hnext he =>
    have hstart := creating_start (hs i a (current?_get hcur)) hnext
    obtain ⟨k, ht⟩ := Turn.eq_call hnext
    have absent : (s.step build (.answer τ reply)).activations.length = s.activations.length →
        False := by
      intro hlen
      obtain ⟨hlt, _⟩ := List.getElem?_eq_some_iff.mp hb
      omega
    cases hans : reply.answer? (.taskCreate size priority config') with
    | none =>
      refine (absent ?_).elim
      simp [System.step, hrun, System.answer, hcur, ht, he, hans]
    | some created =>
      cases created with
      | false =>
        refine (absent ?_).elim
        rw [@step_answering build s τ reply i a _ k false hrun hcur ht he hans]
        exact List.length_set ..
      | true =>
        have hreply : reply = .flag true := by
          cases reply with
          | flag b =>
            cases hans
            rfl
          | _ => cases hans
        subst hreply
        exact ⟨i, τ, a, config', size, priority, rfl, hrun, hcur, hstart, hnext, he, hj⟩

/-- Every task has been created by a start, for the configuration of that start. -/
theorem task_creator {ls : List Label} {j : Nat} {b : Activation} {config : OtaApiConfig}
    (hb : (System.run build ls).activations[j]? = some b) (hr : b.routine = .otaTask config) :
    ∃ i a, Sometime (System.step build) (CreatesTask i j) .initial ls ∧
      (System.run build ls).activations[i]? = some a ∧
      a.routine = .otaApiStartTask (some config) := by
  obtain ⟨pre, l, post, rfl, hnot, hsince⟩ := @exec_since _ _ (System.step build)
    (fun s => s.activations[j]? ≠ none) .initial ls (by simp [System.initial])
    (by rw [← System.run, hb]; exact Option.some_ne_none b)
  have hafter := hsince [] List.nil_prefix
  rw [exec_snoc] at hafter
  obtain ⟨b₀, hb₀⟩ := Option.ne_none_iff_exists'.mp hafter
  have hrun : System.run build (pre ++ l :: post) =
      exec (System.step build) ((System.run build pre).step build l) post :=
    system_run_append pre (l :: post)
  obtain ⟨b', hb', _, hr'⟩ := exec_activation hb₀ post
  have hsame : b' = b := by
    rw [hrun] at hb
    exact Option.some.inj (hb'.symm.trans hb)
  subst hsame
  obtain ⟨i, hi⟩ := added_creates (fun _ _ h => run_sound h) (not_not.mp hnot) hb₀ (hr'.symm.trans hr)
  obtain ⟨a, _, config', _, _, ha, hra, _, _, _, _, _, htask⟩ := createsTask_step hi
  have hstarted : b₀ = .start build (.otaTask config') := Option.some.inj (hb₀.symm.trans htask)
  obtain ⟨a', ha', _, hra'⟩ := @exec_activation build _ _ _ ha (l :: post)
  refine ⟨i, a', ⟨pre, l, post, rfl, hi⟩, ?_, ?_⟩
  · rw [hrun]
    exact ha'
  · have hconfig : Routine.otaTask config' = .otaTask config := by
      rw [← hr, hr', hstarted]
      rfl
    rw [hra', hra]
    cases hconfig
    rfl

/-- Only a task reads a copy, the one it has in hand. -/
theorem load_task {s : System} {l : Label} {j : Nat} (h : s.heapOp? l = some (.load j)) :
    ∃ b config, s.activations[j]? = some b ∧ b.routine = .otaTask config ∧
      s.hands? j = some (some config) := by
  simp only [System.heapOp?] at h
  split at h
  · cases h
  · cases l with
    | advance τ =>
      obtain ⟨⟨i, b⟩, hcur, hop⟩ := Option.bind_eq_some_iff.mp h
      have hop : b.opBefore? i = some (.load j) := hop
      have hget := current?_get hcur
      simp only [Activation.opBefore?] at hop
      split at hop
      · cases hop
      · split at hop
        · cases hop
        · rename_i config hr hn
          cases hop
          refine ⟨b, config, hget, hr, ?_⟩
          rw [hands_get hget]
          simp only [Activation.hands?, hr, hn]
        · cases hop
    | answer τ reply =>
      obtain ⟨⟨i, b⟩, _, hop⟩ := Option.bind_eq_some_iff.mp h
      have hop : b.opAnswered? i s.activations.length reply = some (.load j) := hop
      simp only [Activation.opAnswered?] at hop
      split at hop
      · obtain ⟨c, _, hop⟩ := Option.bind_eq_some_iff.mp hop
        obtain ⟨answer, _, hop⟩ := Option.bind_eq_some_iff.mp hop
        cases c with
        | malloc =>
          simp only [Call.op?] at hop
          split at hop <;> cases hop
        | taskCreate _ _ _ =>
          simp only [Call.op?] at hop
          split at hop <;> cases hop
        | _ => cases hop
      · cases hop
    | _ => cases h

/-- What a task reads through its argument is the configuration its start was called
with, whatever has happened in between. -/
theorem task_loads {ls : List Label} {l : Label} {j : Nat}
    (h : (System.run build ls).heapOp? l = some (.load j)) : ∃ i a b config,
      Sometime (System.step build) (CreatesTask i j) .initial ls ∧
        (System.run build ls).activations[i]? = some a ∧
        a.routine = .otaApiStartTask (some config) ∧
        (System.run build ls).activations[j]? = some b ∧ b.routine = .otaTask config ∧
        (Process.run build ls).memory.load j = some config := by
  obtain ⟨w, _, _, hk⟩ := heap_refines build ls
  obtain ⟨b, config, hb, hr, hj⟩ := load_task h
  obtain ⟨i, a, hcreates, ha, hra⟩ := task_creator hb hr
  rw [← process_system] at hj
  obtain ⟨n, hptr, _, hblock⟩ := hk.has j _ hj
  refine ⟨i, a, b, config, hcreates, ha, hra, hb, hr, ?_⟩
  rw [Memory.load, hptr, Option.bind_some, hblock]
  rfl

def otherConfig : OtaApiConfig := { sampleConfig with url := some "https://host/other.bin" }

/-- Two starts side by side, each a step behind the other by turns, and the first task up to
its return from `free()`. -/
def interleavedStarts : List Label :=
  [.otaApiStartTask (.app 0) (some sampleConfig), .otaApiStartTask (.app 1) (some otherConfig),
    .advance (.app 0), .advance (.app 1), .answer (.app 1) (.flag true),
    .answer (.app 0) (.flag true), .advance (.app 0), .advance (.app 1),
    .answer (.app 0) (.flag true), .answer (.app 1) (.flag true)] ++ Label.through (.spawned 2) .none

/-- The second task reads its own after the first has freed its copy. -/
theorem task_loads_interleaved :
    heapActs sampleBuild interleavedStarts = [.obtained 0 1, .obtained 1 0, .used (some 1) 0,
        .used (some 0) 1, .passed (some 1) 0 2, .passed (some 0) 1 3, .used (some 1) 2,
        .returned (some 1) 2] ∧
      ∃ i a b config,
        Sometime (System.step sampleBuild) (CreatesTask i 3) .initial interleavedStarts ∧
          (System.run sampleBuild interleavedStarts).activations[i]? = some a ∧
          a.routine = .otaApiStartTask (some config) ∧
          (System.run sampleBuild interleavedStarts).activations[3]? = some b ∧
          b.routine = .otaTask config ∧
          (Process.run sampleBuild interleavedStarts).memory.load 3 = some config :=
  ⟨rfl, @task_loads sampleBuild _ (.advance (.spawned 3)) 3 rfl⟩

/-- What has become of the copies. -/
structure Balanced (build : BuildOptions) (ls : List Label) : Prop where
  /-- One that was not freed is in the hands of a start that has not handed it over, or of
  a task whose `free()` has not returned yet. -/
  accounted : (heapActs build ls).countP Custody.Act.isObtained =
    (heapActs build ls).countP Custody.Act.isReturned +
      (System.run build ls).activations.countP fun a => a.hands?.isSome
  settled : (∀ a ∈ (System.run build ls).activations,
      (∀ config, a.routine = .otaApiStartTask config → a.next? = none) ∧
        ∀ config, a.routine = .otaTask config → a.trace ≠ []) →
    (heapActs build ls).countP Custody.Act.isObtained =
      (heapActs build ls).countP Custody.Act.isReturned

/-- No copy is leaked. -/
theorem copies_balanced (ls : List Label) : Balanced build ls := by
  obtain ⟨w, hpath, _, hk⟩ := heap_refines build ls
  have accounted : (heapActs build ls).countP Custody.Act.isObtained =
      (heapActs build ls).countP Custody.Act.isReturned +
        (System.run build ls).activations.countP fun a => a.hands?.isSome := by
    have hplace : ∀ i a, (System.run build ls).activations[i]? = some a → a.hands?.isSome = true →
        ∃ b, (Process.run build ls).memory.pointer i = some b ∧ w[b]? = some (some i) := by
      intro i a ha hhas
      obtain ⟨o, ho⟩ := Option.isSome_iff_exists.mp hhas
      rw [← hands_get ha, ← process_system] at ho
      obtain ⟨b, hptr, hb, _⟩ := hk.has i o ho
      exact ⟨b, hptr, hb⟩
    have hheld : ∀ b i, w[b]? = some (some i) →
        (Process.run build ls).memory.pointer i = some b ∧
          ∃ a, (System.run build ls).activations[i]? = some a ∧ a.hands?.isSome = true := by
      intro b i hb
      obtain ⟨hptr, o, ho⟩ := hk.held b i hb
      rw [process_system] at ho
      obtain ⟨a, ha, hhas⟩ := Option.bind_eq_some_iff.mp ho
      exact ⟨hptr, a, ha, by rw [hhas]; rfl⟩
    rw [Custody.balance hpath, Custody.out_eq hplace hheld]
  refine ⟨accounted, fun h => ?_⟩
  have hnobody : (System.run build ls).activations.countP (fun a => a.hands?.isSome) = 0 := by
    refine List.countP_eq_zero.mpr fun a hmem => ?_
    obtain ⟨i, ha⟩ := List.mem_iff_getElem?.mp hmem
    have hs : a.Sound build := run_sound ha
    have hnone : a.hands? = none := by
      cases hr : a.routine with
      | otaApiUpdate config => exact hands_other fun c hn => update_aboutHeap hs hr hn
      | otaApiStartTask config => exact hands_none ((h a hmem).1 config hr)
      | otaTask config => exact otaTask_hands hs hr ((h a hmem).2 config hr)
    simp [hnone]
  rw [accounted, hnobody, Nat.add_zero]

end Reliance

end OtaApi
