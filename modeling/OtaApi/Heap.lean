import OtaApi.Calls
import OtaApi.Interaction.Custody
import OtaApi.Interaction.Handoff

/-!
# The copy of the configuration

`ota_api_start_task()` copies its configuration into a block of the heap, because the
frame it came from may be gone when the task gets to run, and hands the block over to
`ota_task()`. Here the blocks and the variables that point to them are followed beside
the system: whose block it is, and what it holds.
-/

namespace OtaApi

open Interaction

/-- What is done to the heap, by the activation of that number. -/
inductive HeapOp where
  | malloc : Nat → HeapOp
  /-- `*copy = *config` -/
  | store : Nat → OtaApiConfig → HeapOp
  /-- `copy` becomes the `arg` of the task that is created. -/
  | hand : Nat → Nat → HeapOp
  /-- `config = *(ota_api_config_t *)arg` -/
  | load : Nat → HeapOp
  | free : Nat → HeapOp
  deriving DecidableEq, Repr

/-- What an activation does to the heap on its way into a call. -/
def Activation.opBefore? (a : Activation) (i : Nat) : Option HeapOp :=
  if a.entered then none
  else
    match a.routine, a.next? with
    | .otaApiStartTask (some config), some (.taskCreate _ _ _) => some (.store i config)
    | .otaTask _, some .free => some (.load i)
    | _, _ => none

/-- What a call has done that comes back to the activation `i`; `new` is the next number. -/
def Call.op? (c : Call) (answer : Answer c) (i new : Nat) : Option HeapOp :=
  match c with
  | .malloc => if answer = true then some (.malloc i) else none
  | .taskCreate _ _ _ => if answer = true then some (.hand i new) else none
  | .free => some (.free i)
  | _ => none

def Activation.opAnswered? (a : Activation) (i new : Nat) (reply : Reply) : Option HeapOp :=
  if a.entered then
    a.next?.bind fun c => (reply.answer? c).bind fun answer => c.op? answer i new
  else none

def System.heapOp? (s : System) (l : Label) : Option HeapOp :=
  if s.restarted then none
  else
    match l with
    | .advance τ => (s.current? τ).bind fun p => p.2.opBefore? p.1
    | .answer τ reply =>
      (s.current? τ).bind fun p => p.2.opAnswered? p.1 s.activations.length reply
    | _ => none

/-- The blocks handed out so far with what was written into them, and where the variable
`copy`, or `arg`, of each activation points to. -/
structure Memory where
  blocks : List (Option OtaApiConfig)
  pointer : Nat → Option Nat

def Memory.initial : Memory := ⟨[], fun _ => none⟩

def Memory.store (m : Memory) (i : Nat) (config : OtaApiConfig) : Memory :=
  match m.pointer i with
  | some b => { m with blocks := m.blocks.set b (some config) }
  | none => m

def Memory.apply (m : Memory) : HeapOp → Memory
  | .malloc i => ⟨m.blocks ++ [none], Function.update m.pointer i (some m.blocks.length)⟩
  | .store i config => m.store i config
  | .hand i j => { m with pointer := Function.update m.pointer j (m.pointer i) }
  | .load _ => m
  | .free _ => m

/-- What is read through the variable of an activation. -/
def Memory.load (m : Memory) (i : Nat) : Option OtaApiConfig :=
  (m.pointer i).bind fun b => m.blocks[b]?.join

/-- The same as an act on the block that the variable points to. -/
def Memory.act (m : Memory) : HeapOp → Custody.Act Nat
  | .malloc i => .obtained m.blocks.length i
  | .store i _ => .used (m.pointer i) i
  | .hand i j => .passed (m.pointer i) i j
  | .load i => .used (m.pointer i) i
  | .free i => .returned (m.pointer i) i

/-- The system with its heap. -/
structure Process where
  system : System
  memory : Memory

def Process.initial : Process := ⟨.initial, .initial⟩

def Process.step (build : BuildOptions) (p : Process) (l : Label) : Process where
  system := p.system.step build l
  memory := ((p.system.heapOp? l).map p.memory.apply).getD p.memory

def Process.run (build : BuildOptions) (ls : List Label) : Process :=
  exec (Process.step build) .initial ls

def Process.act? (p : Process) (l : Label) : Option (Custody.Act Nat) :=
  (p.system.heapOp? l).map p.memory.act

/-- The acts on the heap in one interleaving. -/
def heapActs (build : BuildOptions) (ls : List Label) : List (Custody.Act Nat) :=
  observed (Process.step build) Process.act? .initial ls

/-! ## What an activation has in its hands -/

/-- Whether an activation has a block, and what it has put into it. -/
def Activation.hands? (a : Activation) : Option (Option OtaApiConfig) :=
  match a.routine, a.next? with
  | .otaApiStartTask (some config), some (.taskCreate _ _ _) =>
    some (if a.entered then some config else none)
  | .otaApiStartTask (some config), some .free => some (some config)
  | .otaTask config, some .free => some (some config)
  | _, _ => none

def System.hands? (s : System) (i : Nat) : Option (Option OtaApiConfig) :=
  (s.activations[i]?).bind Activation.hands?

/-- Where a start can be: the calls that have returned, and the next one. -/
inductive StartState (config : OtaApiConfig) : List Event → Option Call → Prop where
  | entry : StartState config [] (some .malloc)
  | invalid : StartState config [] none
  | noMemory : StartState config [⟨.malloc, false⟩] none
  | copied (size priority : UInt32) :
      StartState config [⟨.malloc, true⟩] (some (.taskCreate size priority config))
  | created (size priority : UInt32) :
      StartState config [⟨.malloc, true⟩, ⟨.taskCreate size priority config, true⟩] none
  | refused (size priority : UInt32) :
      StartState config [⟨.malloc, true⟩, ⟨.taskCreate size priority config, false⟩] (some .free)
  | freed (size priority : UInt32) :
      StartState config
        [⟨.malloc, true⟩, ⟨.taskCreate size priority config, false⟩, ⟨.free, ()⟩] none

section Hands

variable {build : BuildOptions} {a : Activation} {c : Call}

theorem startTask_state (hs : a.Sound build) {config : OtaApiConfig}
    (hr : a.routine = .otaApiStartTask (some config)) : StartState config a.trace a.next? := by
  have hruns := hs.runs
  rw [hr] at hruns
  rw [Activation.next?]
  generalize a.trace = t at hruns ⊢
  generalize a.prog = p at hruns ⊢
  cases hu : config.url with
  | none =>
    simp only [Routine.program, otaApiStartTask, hu] at hruns
    obtain ⟨rfl, rfl⟩ := hruns.of_done rfl
    exact .invalid
  | some url =>
    simp only [Routine.program, otaApiStartTask, hu] at hruns
    cases hruns with
    | nil _ => exact .entry
    | cons ht copy rest =>
      cases ht
      cases copy with
      | false =>
        obtain ⟨rfl, rfl⟩ := rest.of_done rfl
        exact .noMemory
      | true =>
        cases rest with
        | nil _ => exact .copied _ _
        | cons ht created rest =>
          cases ht
          cases created with
          | true =>
            obtain ⟨rfl, rfl⟩ := rest.of_done rfl
            exact .created _ _
          | false =>
            cases rest with
            | nil _ => exact .refused _ _
            | cons ht freed rest =>
              cases ht
              obtain ⟨rfl, rfl⟩ := rest.of_done rfl
              exact .freed _ _

/-- What is in hand when a call has returned. -/
def handsAfter (c : Call) (answer : Answer c) (h : Option (Option OtaApiConfig)) :
    Option (Option OtaApiConfig) :=
  match c with
  | .malloc => if answer = true then some none else h
  | .taskCreate _ _ _ => if answer = true then none else h
  | .free => none
  | _ => h

/-- The calls about the heap, and the one that hands a block over. -/
def Call.aboutHeap : Call → Bool
  | .malloc => true
  | .free => true
  | .taskCreate _ _ _ => true
  | _ => false

theorem handsAfter_other {h : Option (Option OtaApiConfig)} (hc : c.aboutHeap = false)
    (answer : Answer c) : handsAfter c answer h = h := by
  cases c <;> first | rfl | cases hc

theorem hands_other (hn : ∀ c, a.next? = some c → c.aboutHeap = false) : a.hands? = none := by
  simp only [Activation.hands?]
  split
  · rename_i hnext
    cases hn _ hnext
  · rename_i hnext
    cases hn _ hnext
  · rename_i hnext
    cases hn _ hnext
  · rfl

/-- An update has nothing to do with the heap. -/
theorem update_aboutHeap (hs : a.Sound build) {config : Option OtaApiConfig}
    (hr : a.routine = .otaApiUpdate config) (hn : a.next? = some c) : c.aboutHeap = false := by
  cases hu : config.bind OtaApiConfig.url with
  | none =>
    obtain ⟨_, hprog⟩ := invalid_stopped hs hr hu
    rw [Activation.next?, hprog] at hn
    cases hn
  | some url =>
    obtain ⟨config, rfl, hurl⟩ := Option.bind_eq_some_iff.mp hu
    obtain ⟨ph, _, hprog⟩ := update_path hs ⟨hr, hurl⟩
    rw [update_next? hprog] at hn
    cases ph <;> cases hn <;> rfl

theorem hands_none (hn : a.next? = none) : a.hands? = none :=
  hands_other fun c h => by rw [hn] at h; cases h

/-- The state a start goes into is told by the calls that have returned. -/
theorem startTask_resume {a' : Activation} {answer : Answer c} (hs : a.Sound build)
    (hs' : a'.Sound build) {config : OtaApiConfig}
    (hr : a.routine = .otaApiStartTask (some config)) (hr' : a'.routine = a.routine)
    (hn : a.next? = some c) (he : a.entered = true) (he' : a'.entered = false)
    (htrace : a'.trace = a.trace ++ [⟨c, answer⟩]) :
    a'.hands? = handsAfter c answer a.hands? := by
  have hstate := startTask_state hs hr
  have hstate' := startTask_state hs' (hr'.trans hr)
  rw [htrace] at hstate'
  simp only [Activation.hands?, hr', hr, he, he']
  generalize a.trace = t at hstate hstate'
  rw [hn] at hstate ⊢
  generalize a'.next? = next at hstate' ⊢
  cases hstate with
  | entry =>
    cases hstate' with
    | noMemory => rfl
    | copied _ _ => rfl
  | copied _ _ =>
    cases hstate' with
    | created _ _ => rfl
    | refused _ _ => rfl
  | refused _ _ =>
    cases hstate' with
    | freed _ _ => rfl

/-- A task that has freed its argument has no block any more. -/
theorem otaTask_hands (hs : a.Sound build) {config : OtaApiConfig} (hr : a.routine = .otaTask config)
    (htrace : a.trace ≠ []) : a.hands? = none := by
  obtain ⟨htr, _⟩ | ⟨_, hnext⟩ | ⟨r, _, hnext⟩ := otaTask_state hs hr
  · exact absurd htr htrace
  · exact hands_other fun c h => by rw [hnext] at h; cases h; rfl
  · refine hands_other fun c h => ?_
    rw [hnext] at h
    split at h
    · cases h
      rfl
    · cases h
      rfl

theorem otaTask_resume {a' : Activation} {answer : Answer c} (hs : a.Sound build)
    (hs' : a'.Sound build) {config : OtaApiConfig} (hr : a.routine = .otaTask config)
    (hr' : a'.routine = a.routine) (hn : a.next? = some c)
    (htrace : a'.trace = a.trace ++ [⟨c, answer⟩]) :
    a'.hands? = handsAfter c answer a.hands? := by
  rw [otaTask_hands hs' (hr'.trans hr) (by rw [htrace]; simp)]
  obtain ⟨_, hnext⟩ | ⟨htr, hnext⟩ | ⟨r, htr, hnext⟩ := otaTask_state hs hr
  · rw [hnext] at hn
    cases hn
    rfl
  · rw [hnext] at hn
    cases hn
    rw [handsAfter_other rfl, otaTask_hands hs hr (by rw [htr]; simp)]
  · have hother : c.aboutHeap = false := by
      rw [hnext] at hn
      split at hn
      · cases hn
        rfl
      · cases hn
        rfl
    rw [handsAfter_other hother, otaTask_hands hs hr (by rw [htr]; simp)]

/-- Nothing else than the return of one of the three calls changes it. -/
theorem hands_resume {k : Answer c → Program EspErr} {answer : Answer c} (hs : a.Sound build)
    (hs' : (a.resume k answer).Sound build) (ht : a.prog.turn = .call c k)
    (he : a.entered = true) : (a.resume k answer).hands? = handsAfter c answer a.hands? := by
  have hn := next?_of_turn ht
  cases hr : a.routine with
  | otaApiUpdate config =>
    have hother := update_aboutHeap hs hr hn
    rw [handsAfter_other hother, hands_other fun c h => update_aboutHeap hs hr h]
    exact hands_other fun c h => update_aboutHeap hs' hr h
  | otaTask config => exact otaTask_resume hs hs' hr rfl hn rfl
  | otaApiStartTask config =>
    cases config with
    | none =>
      rw [(startTask_invalid hs hr rfl).2] at hn
      cases hn
    | some config => exact startTask_resume hs hs' hr rfl hn he rfl rfl

theorem critical_aboutHeap (hc : c.critical = true) : c.aboutHeap = false := by
  cases c <;> first | rfl | cases hc

theorem hands_critical (hn : a.next? = some c) (hc : c.critical = true) : a.hands? = none :=
  hands_other fun c' h => by rw [hn] at h; cases h; exact critical_aboutHeap hc

/-- A critical section has nothing to do with it. -/
theorem hands_passed {k : Answer c → Program EspErr} {answer : Answer c} (hs : a.Sound build)
    (hs' : (a.resume k answer).Sound build) (ht : a.prog.turn = .call c k)
    (hc : c.critical = true) : (a.resume k answer).hands? = a.hands? := by
  have hn := next?_of_turn ht
  have hother : c.aboutHeap = false := critical_aboutHeap hc
  have hbefore := hands_critical hn hc
  cases hr : a.routine with
  | otaApiUpdate config =>
    rw [hbefore]
    exact hands_other fun c h => update_aboutHeap hs' hr h
  | otaTask config => rw [otaTask_resume hs hs' hr rfl hn rfl, handsAfter_other hother]
  | otaApiStartTask config =>
    cases config with
    | none =>
      rw [(startTask_invalid hs hr rfl).2] at hn
      cases hn
    | some config =>
      have hstate := startTask_state hs hr
      rw [hn] at hstate
      generalize a.trace = t at hstate
      cases hstate <;> cases hc

/-- On its way into a call a start that has its block writes the configuration into it. -/
theorem hands_enter (hn : a.next? = some c) (he : a.entered = false) (i : Nat) :
    (a.opBefore? i = none ∧ a.enter.hands? = a.hands?) ∨
      (∃ config, a.opBefore? i = some (.store i config) ∧ a.hands? = some none ∧
        a.enter.hands? = some (some config)) ∨
      ∃ config, a.opBefore? i = some (.load i) ∧ a.hands? = some (some config) ∧
        a.enter.hands? = a.hands? := by
  have hn' : a.enter.next? = some c := hn
  have hr' : a.enter.routine = a.routine := rfl
  have he' : a.enter.entered = true := rfl
  simp only [Activation.opBefore?, Activation.hands?, he, he', hr', hn, hn']
  cases a.routine with
  | otaApiUpdate config => exact .inl ⟨rfl, rfl⟩
  | otaTask config =>
    cases c with
    | free => exact .inr (.inr ⟨config, rfl, rfl, rfl⟩)
    | _ => exact .inl ⟨rfl, rfl⟩
  | otaApiStartTask config =>
    cases config with
    | none => exact .inl ⟨rfl, rfl⟩
    | some config =>
      cases c with
      | taskCreate _ _ _ => exact .inr (.inl ⟨config, rfl, rfl, rfl⟩)
      | _ => exact .inl ⟨rfl, rfl⟩

theorem hands_start (r : Routine) :
    (Activation.start build r).hands? = match r with
      | .otaTask config => some (some config)
      | _ => none := by
  cases r with
  | otaApiUpdate config => rfl
  | otaTask config => rfl
  | otaApiStartTask config =>
    cases config with
    | none => rfl
    | some config =>
      cases hu : config.url with
      | none =>
        refine hands_none ?_
        simp only [Activation.next?, Activation.start, Routine.program, otaApiStartTask, hu]
        rfl
      | some url =>
        have hn : (Activation.start build (.otaApiStartTask (some config))).next? = some .malloc := by
          simp only [Activation.next?, Activation.start, Routine.program, otaApiStartTask, hu]
          rfl
        simp only [Activation.hands?, hn]
        rfl

theorem hands_malloc (hn : a.next? = some .malloc) : a.hands? = none := by
  simp only [Activation.hands?]
  split
  · rename_i hnext
    rw [hn] at hnext
    cases hnext
  · rename_i hnext
    rw [hn] at hnext
    cases hnext
  · rename_i hnext
    rw [hn] at hnext
    cases hnext
  · rfl

/-- Whoever is about to free a block has it in hand. -/
theorem hands_free (hs : a.Sound build) (hn : a.next? = some .free) :
    ∃ config, a.hands? = some (some config) := by
  cases hr : a.routine with
  | otaApiUpdate config => cases update_aboutHeap hs hr hn
  | otaTask config => exact ⟨config, by simp only [Activation.hands?, hr, hn]⟩
  | otaApiStartTask config =>
    cases config with
    | none =>
      rw [(startTask_invalid hs hr rfl).2] at hn
      cases hn
    | some config => exact ⟨config, by simp only [Activation.hands?, hr, hn]⟩

end Hands

end OtaApi
