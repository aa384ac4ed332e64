import Mathlib.Data.List.Nodup
import OtaApi.AdvancedTasks

/-!
# The place for a request

A request is a URL with the flag `force`. The variables of the file are a place for one,
and what it is used for says what the console and the tasks may be doing: while it is being
filled, and while a request waits in it or is served, nobody else touches it.
-/

namespace OtaApi

open Interaction

namespace Advanced

open CText

variable {o : Options} {t t' : List (Handover Request)} {p p' : Handoff Request}
  {spent : List Nat} {served : List (Nat × Request)} {s s' : State}

/-! ## What holds whatever the place is used for -/

section Trail

/-- The requests of the commands that came back with success. -/
def State.accepted (s : State) : List Request := cameBack 0 s.codes

/-- The request of a command that is about to. -/
def State.returning (s : State) : List Request :=
  match s.console with
  | .starting r => if s.startResult? = some espOk then [r] else []
  | .started r err => if err = espOk then [r] else []
  | _ => []

/-- The updates there were, each with the request it was called for, and the tasks that
are over. -/
structure Trail (o : Options) (t : List (Handover Request)) (spent : List Nat)
    (served : List (Nat × Request)) (s : State) : Prop where
  shape : Shape o s.system
  terminated : s.sOtaUrl.Terminated
  taken : takes t = served.map Prod.snd
  order : (served.map Prod.fst).Pairwise (· < ·)
  all : ∀ (i : Nat) (a : Activation) (config : Option OtaApiConfig),
    s.system.activations[i]? = some a → a.routine = .otaApiUpdate config → i ∈ served.map Prod.fst
  each : ∀ i r, (i, r) ∈ served → ∃ a, s.system.activations[i]? = some a ∧ Serves o r a
  judged : ∀ n v, s.verdict n = some v → Judged o served s n v
  ended : ∀ n ∈ spent, Spent o s n
  offered : offers t = s.accepted ++ s.returning

theorem trail_initial (o : Options) : Trail o [] [] [] .initial := by
  refine ⟨shape_initial o, Buffer.terminated_zeroed (by decide), rfl, .nil, ?_, ?_, ?_, ?_, rfl⟩
  · simp [State.initial, System.initial]
  · simp
  · simp [State.initial]
  · simp

/-- No update and no task is new. -/
def NoneNew (s s' : System) : Prop :=
  ∀ (i : Nat) (a' : Activation), s'.activations[i]? = some a' →
    (∀ config, a'.routine ≠ .otaApiStartTask config) →
      ∃ a, s.activations[i]? = some a ∧ a.routine = a'.routine

theorem noneNew_same {x x' : System} (h : x' = x) : NoneNew x x' := by
  subst h
  exact fun i a ha _ => ⟨a, ha, rfl⟩

theorem noneNew_step {x : System} {l : OtaApi.Label}
    (h : ∀ a', Added o.build x l a' → ∃ config, a'.routine = .otaApiStartTask config) :
    NoneNew x (x.step o.build l) := by
  intro i a' ha' hr
  refine step_old ha' fun hadded => ?_
  obtain ⟨config, hstart⟩ := h a' hadded
  exact hr config hstart

theorem noneNew_set {x x' : System} {i : Nat} {a a' : Activation} (ha : x.activations[i]? = some a)
    (hr : a'.routine = a.routine) (hact : x'.activations = x.activations.set i a') : NoneNew x x' := by
  intro j b hb _
  rw [hact, ← List.append_nil (List.set _ _ _)] at hb
  obtain ⟨rfl, rfl, _⟩ | ⟨_, hold⟩ | ⟨_, hnew⟩ := getElem?_set_append hb
  · exact ⟨a, ha, hr.symm⟩
  · exact ⟨b, hold, rfl⟩
  · exact absurd hnew List.not_mem_nil

/-- No update is new. -/
def NoUpdateNew (s s' : System) : Prop :=
  ∀ (i : Nat) (a' : Activation) (config : Option OtaApiConfig), s'.activations[i]? = some a' →
    a'.routine = .otaApiUpdate config → ∃ a, s.activations[i]? = some a ∧ a.routine = a'.routine

theorem NoneNew.updates {x x' : System} (h : NoneNew x x') : NoUpdateNew x x' := by
  intro i a' config ha' hr
  refine h i a' ha' fun config' heq => ?_
  rw [hr] at heq
  cases heq

/-- A step that calls no update leaves the trail, if it does where its task is. -/
theorem Trail.frame {τ : Task} (h : Trail o t spent served s) (hshape : Shape o s'.system)
    (he : Elsewhere τ s.system s'.system) (hterm : s'.sOtaUrl.Terminated)
    (hnew : NoUpdateNew s.system s'.system)
    (heach : ∀ i r a, (i, r) ∈ served → i ∈ s.system.stack τ → s.system.activations[i]? = some a →
      Serves o r a → ∃ a', s'.system.activations[i]? = some a' ∧ Serves o r a')
    (hverdict : ∀ n, Task.spawned n ≠ τ → s'.verdict n = s.verdict n)
    (hself : ∀ n v, Task.spawned n = τ → s'.verdict n = some v → Judged o served s' n v)
    (hover : ∀ n ∈ spent, Task.spawned n = τ → Spent o s' n)
    (htakes : takes t' = takes t) (hoffers : offers t' = s'.accepted ++ s'.returning) :
    Trail o t' spent served s' := by
  have hplaced := h.shape.placed
  constructor
  case shape => exact hshape
  case terminated => exact hterm
  case taken => exact htakes.trans h.taken
  case order => exact h.order
  case all =>
    intro i a' config ha' hr
    obtain ⟨b, hb, hbr⟩ := hnew i a' config ha' hr
    exact h.all i b config hb (hbr.trans hr)
  case each =>
    intro i r hmem
    obtain ⟨a, ha, hserves⟩ := h.each i r hmem
    by_cases hi : i ∈ s.system.stack τ
    · exact heach i r a hmem hi ha hserves
    · obtain ⟨a', ha', haa⟩ := he.act i a ha hi
      exact ⟨a', ha', hserves.alike haa⟩
  case judged =>
    intro n v hv
    by_cases hτ : Task.spawned n = τ
    · exact hself n v hτ hv
    · rw [hverdict n hτ] at hv
      have hold := h.judged n v hv
      exact hold.frame hplaced (hold.lt hplaced) he hτ
  case ended =>
    intro n hn
    by_cases hτ : Task.spawned n = τ
    · exact hover n hn hτ
    · exact (h.ended n hn).frame hplaced he hτ (hverdict n hτ)
  case offered => exact hoffers

/-- An update is served for one request. -/
theorem Trail.request_unique (h : Trail o t spent served s) {i : Nat} {r r' : Request}
    (hr : (i, r) ∈ served) (hr' : (i, r') ∈ served) : r = r' := by
  have hnodup : (served.map Prod.fst).Nodup := h.order.imp Nat.ne_of_lt
  exact congrArg Prod.snd (List.inj_on_of_nodup_map hnodup hr hr' rfl)

/-- An update whose task is spent holds nothing. -/
theorem Trail.not_held (h : Trail o t spent served s) {j : Nat} {b : Activation}
    (hb : s.system.activations[j]? = some b)
    (hspent : ∀ m, s.system.stack (.spawned m) = [j, m] → m ∈ spent) : b.holds = false := by
  obtain ⟨ls, hls⟩ := h.shape.reached
  have hs := h.shape.sound hb
  cases hres : b.result? with
  | some r =>
    rw [hls] at hb
    exact returned_free hb hres
  | none =>
    by_contra hholds
    have hclaims := claims_pos_of_holds (by simpa using hholds)
    obtain ⟨config, url, hu⟩ | ⟨hout, _⟩ := updates_or_outside hs
    · obtain ⟨m, _, _, _, _, hstack⟩ := h.shape.update_at hb hu.1 hres
      cases h.ended m (hspent m hstack) with
      | deleted _ hst _ =>
        rw [hstack] at hst
        cases hst
      | failed _ hst ha hr _ hend =>
        rw [hstack] at hst
        cases hst
        rw [hb] at ha
        cases ha
        obtain hend | ⟨⟨cb, ctx, hn⟩, _⟩ := hend
        · rw [hres] at hend
          cases hend
        · exact hholds (update_failing hs (otaConfig_updates hr) hn).2.1
    · have := (claims_outside hout).1
      omega

end Trail

/-! ## The place in which the request is handed over -/

section Place

/-- The variables are those of a request that has been let in. -/
def Holding (s : State) (r : Request) : Prop :=
  s.sOtaPending = true ∧ s.sOtaUrl.str = r.1 ∧ s.sForceUpdate = r.2

/-- How far the console has come with a command it has let in. -/
def Filling (s : State) : Prop :=
  match s.console with
  | .admitted _ => s.sOtaPending = false
  | .copying r k => s.sOtaPending = false ∧ r.1.strlen < otaUrlSize ∧ s.sOtaUrl.Copying r.1 k
  | .copied r => s.sOtaPending = false ∧ s.sOtaUrl.str = r.1
  | .forced r => s.sOtaPending = false ∧ s.sOtaUrl.str = r.1 ∧ s.sForceUpdate = r.2
  | .flagged r => Holding s r
  | .starting r => Holding s r ∧ s.startResult? ≠ some espOk
  | .started r err => Holding s r ∧ err ≠ espOk
  | _ => False

/-- The console is not about to write to the variables. -/
def Away (s : State) : Prop :=
  match s.console with
  | .prompt => True
  | .parsed _ => True
  | .starting _ => s.startResult? = some espOk
  | .started _ err => err = espOk
  | _ => False

/-- What the console is doing, after what the place is used for. -/
def Consoled : Handoff Request → State → Prop
  | .free, s => s.sOtaPending = false ∧ (Away s ∨ ∃ r, s.console = .unclaimed r)
  | .filling, s => Filling s
  | .handed r, s => Away s ∧ Holding s r
  | .serving r, s => Away s ∧ Holding s r

/-- These are the tasks there are. -/
def Created (s : State) (known : List Nat) : Prop :=
  ∀ (n : Nat) (b : Activation) (config : OtaApiConfig), s.system.activations[n]? = some b →
    b.routine = .otaTask config → n ∈ known

/-- And what the tasks are doing. -/
def Tasked (o : Options) : Handoff Request → List Nat → List (Nat × Request) → State → Prop
  | .free, spent, _, s => Created s spent
  | .filling, spent, _, s => Created s spent
  | .handed r, spent, _, s => ∃ c, c ∉ spent ∧ Created s (c :: spent) ∧ Waiting o s c r
  | .serving r, spent, served, s => ∃ c, c ∉ spent ∧ Created s (c :: spent) ∧ Live o s served c r

/-- The console is in `ota_api_start_task()` exactly when it says so. -/
def AtConsole (o : Options) (s : State) : Prop :=
  match s.console with
  | .starting r => ∃ k a, s.system.stack consoleTask = [k] ∧ s.system.activations[k]? = some a ∧
      a.routine = .otaApiStartTask (some (o.otaConfig r.1))
  | _ => s.system.stack consoleTask = []

structure Refined (o : Options) (t : List (Handover Request)) (p : Handoff Request)
    (spent : List Nat) (served : List (Nat × Request)) (s : State) : Prop where
  trail : Trail o t spent served s
  console : AtConsole o s
  fields : Consoled p s
  tasks : Tasked o p spent served s

/-- A run of the application and the machine it has been through. -/
def Refines (o : Options) (t : List (Handover Request)) (p : Handoff Request) (s : State) : Prop :=
  ∃ spent served, Refined o t p spent served s

theorem refines_initial (o : Options) : Refines o [] .free .initial := by
  refine ⟨[], [], trail_initial o, rfl, ⟨rfl, .inl trivial⟩, ?_⟩
  intro n b config hb
  simp [State.initial, System.initial] at hb

theorem Created.frame {known : List Nat} (h : Created s known) (hnew : NoneNew s.system s'.system) :
    Created s' known := by
  intro n b config hb hr
  obtain ⟨a, ha, har⟩ := hnew n b hb fun config' heq => by rw [hr] at heq; cases heq
  exact h n a config ha (har.trans hr)

theorem Tasked.frame {τ : Task} (h : Tasked o p spent served s) (hs : Placed s.system)
    (he : Elsewhere τ s.system s'.system) (hnew : NoneNew s.system s'.system)
    (hverdict : ∀ n, Task.spawned n ≠ τ → s'.verdict n = s.verdict n)
    (hwaiting : ∀ n r, Task.spawned n = τ → Waiting o s n r → Waiting o s' n r)
    (hlive : ∀ n r, Task.spawned n = τ → Live o s served n r → Live o s' served n r) :
    Tasked o p spent served s' := by
  cases p with
  | free => exact Created.frame h hnew
  | filling => exact Created.frame h hnew
  | handed r =>
    obtain ⟨c, hc, hcreated, hwait⟩ := h
    refine ⟨c, hc, hcreated.frame hnew, ?_⟩
    by_cases hτ : Task.spawned c = τ
    · exact hwaiting c r hτ hwait
    · exact hwait.frame hs he hτ
  | serving r =>
    obtain ⟨c, hc, hcreated, hl⟩ := h
    refine ⟨c, hc, hcreated.frame hnew, ?_⟩
    by_cases hτ : Task.spawned c = τ
    · exact hlive c r hτ hl
    · exact hl.frame hs he hτ (hverdict c hτ)

/-- What a task does leaves the call the console is in. -/
theorem AtConsole.frame {τ : Task} (h : AtConsole o s) (hs : Placed s.system)
    (he : Elsewhere τ s.system s'.system) (hτ : consoleTask ≠ τ) (hc : s'.console = s.console) :
    AtConsole o s' ∧ s'.startResult? = s.startResult? := by
  have hst : s'.system.stack consoleTask = s.system.stack consoleTask :=
    he.stack _ hτ fun n hn => by cases hn
  have hempty : s.system.stack consoleTask = [] → s'.startResult? = s.startResult? := by
    intro hnil
    simp [State.startResult?, System.current?, hst, hnil]
  rw [AtConsole] at h ⊢
  rw [hc]
  cases hcons : s.console with
  | starting r =>
    rw [hcons] at h
    obtain ⟨k, a, hstack, ha, hr⟩ := h
    have hout : k ∉ s.system.stack τ := by
      intro hmem
      refine hτ (hs.apart _ _ k ?_ hmem)
      rw [hstack]
      exact List.mem_cons_self
    obtain ⟨a', ha', haa⟩ := he.act k a ha hout
    refine ⟨⟨k, a', hst.trans hstack, ha', haa.routine.trans hr⟩, ?_⟩
    simp [State.startResult?, System.current?, hst, hstack, ha, ha', haa.result?]
  | _ =>
    rw [hcons] at h
    exact ⟨hst.trans h, hempty h⟩

/-- The variables of the file and what the console is doing stay as they are. -/
structure SameVariables (s s' : State) : Prop where
  sOtaUrl : s'.sOtaUrl = s.sOtaUrl
  sForceUpdate : s'.sForceUpdate = s.sForceUpdate
  sOtaPending : s'.sOtaPending = s.sOtaPending
  console : s'.console = s.console
  codes : s'.codes = s.codes

theorem SameVariables.consoled (h : SameVariables s s') (hres : s'.startResult? = s.startResult?)
    (hp : Consoled p s) : Consoled p s' := by
  cases p <;>
    simp only [Consoled, Away, Filling, Holding, h.sOtaUrl, h.sForceUpdate, h.sOtaPending, h.console,
      hres] at hp ⊢ <;>
    exact hp

theorem SameVariables.offered (h : SameVariables s s') (hres : s'.startResult? = s.startResult?) :
    s'.accepted ++ s'.returning = s.accepted ++ s.returning := by
  simp only [State.accepted, State.returning, h.codes, h.console, hres]

end Place

end Advanced

end OtaApi
