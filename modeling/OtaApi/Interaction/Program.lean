/-!
# Programs that talk to their surroundings

A program makes one call at a time and goes on with the answer. The calls `C`
and the type `A c` of the answers to each call are parameters, so what a call
does is left to whoever runs the program. A loop re-enters its body with a
call, which keeps every program productive and needs no bound on iterations.
-/

namespace Interaction

/-- One call together with the answer it got. -/
structure Event (C : Type) (A : C → Type) where
  call : C
  answer : A call

instance {C : Type} {A : C → Type} [DecidableEq C] [∀ c, DecidableEq (A c)] :
    DecidableEq (Event C A)
  | ⟨c, a⟩, ⟨d, b⟩ =>
    if h : c = d then
      match d, h, b with
      | _, rfl, b => decidable_of_iff (a = b) (by simp)
    else isFalse fun he => h (congrArg Event.call he)

/-- What one pass through a loop body decides. -/
inductive LoopStep (σ β : Type) where
  | again : σ → LoopStep σ β
  | leave : β → LoopStep σ β

inductive Prog (C : Type) (A : C → Type) : Type → Type 1 where
  | ret {α : Type} : α → Prog C A α
  | call {α : Type} : (c : C) → (A c → Prog C A α) → Prog C A α
  | loop {σ β α : Type} : (c : C) → σ → (A c → σ → Prog C A (LoopStep σ β)) →
      (β → Prog C A α) → Prog C A α

/-- What a process in state `X` does next: stop with a result, or make a call. -/
inductive Turn (C : Type) (A : C → Type) (R : Type) (X : Type u) where
  | done : R → Turn C A R X
  | call : (c : C) → (A c → X) → Turn C A R X

variable {C : Type} {A : C → Type} {R : Type}

/-- The call a process is about to make. -/
def Turn.next? {X : Type u} : Turn C A R X → Option C
  | .done _ => none
  | .call c _ => some c

def Turn.result? {X : Type u} : Turn C A R X → Option R
  | .done r => some r
  | .call _ _ => none

theorem Turn.eq_done {X : Type u} {x : Turn C A R X} {r : R} (h : x.result? = some r) :
    x = .done r := by
  cases x with
  | done r' => simpa [Turn.result?] using h
  | call c k => simp [Turn.result?] at h

theorem Turn.eq_call {X : Type u} {x : Turn C A R X} {c : C} (h : x.next? = some c) :
    ∃ k, x = .call c k := by
  cases x with
  | done r => cases h
  | call c' k =>
    cases h
    exact ⟨k, rfl⟩

namespace Prog

variable {α β σ : Type}

def bind : Prog C A α → (α → Prog C A β) → Prog C A β
  | .ret a, f => f a
  | .call c k, f => .call c (fun a => bind (k a) f)
  | .loop c s body k, f => .loop c s body (fun b => bind (k b) f)

instance : Monad (Prog C A) where
  pure := .ret
  bind := bind

/-- Make one call and return its answer. -/
def ask (c : C) : Prog C A (A c) := .call c .ret

/-- Keep making the call `c`, each answer going through `body`, until it leaves. -/
def whileCall (c : C) (s : σ) (body : A c → σ → Prog C A (LoopStep σ β)) : Prog C A β :=
  .loop c s body .ret

@[simp] theorem bind_eq (p : Prog C A α) (f : α → Prog C A β) : p.bind f = p >>= f := rfl
@[simp] theorem ret_eq (a : α) : (Prog.ret a : Prog C A α) = pure a := rfl

theorem bind_pure (p : Prog C A α) : p >>= pure = p := by
  induction p with
  | ret a => rfl
  | call c k ih => exact congrArg (Prog.call c) (funext ih)
  | loop c s body k _ ih => exact congrArg (Prog.loop c s body) (funext ih)

theorem bind_assoc {γ : Type} (p : Prog C A α) (f : α → Prog C A β) (g : β → Prog C A γ) :
    p >>= f >>= g = p >>= fun a => f a >>= g := by
  induction p with
  | ret a => rfl
  | call c k ih => exact congrArg (Prog.call c) (funext fun a => ih a f)
  | loop c s body k _ ih => exact congrArg (Prog.loop c s body) (funext fun b => ih b f)

instance : LawfulMonad (Prog C A) :=
  LawfulMonad.mk' _ bind_pure (fun _ _ => rfl) bind_assoc

/-- A loop is entered by its call; what the body decides is looked at afterwards. -/
def turn : Prog C A α → Turn C A α (Prog C A α)
  | .ret a => .done a
  | .call c k => .call c k
  | .loop c s body k => .call c fun a =>
      body a s >>= fun
        | .again s' => .loop c s' body k
        | .leave b => k b

@[simp] theorem turn_pure (a : α) : (pure a : Prog C A α).turn = .done a := rfl
@[simp] theorem turn_ask (c : C) : (ask c : Prog C A (A c)).turn = .call c pure := rfl
@[simp] theorem turn_ask_bind (c : C) (k : A c → Prog C A α) : (ask c >>= k).turn = .call c k := rfl

@[simp] theorem turn_whileCall_bind (c : C) (s : σ) (body : A c → σ → Prog C A (LoopStep σ β))
    (k : β → Prog C A α) : (whileCall c s body >>= k).turn = .call c fun a =>
      body a s >>= fun
        | .again s' => whileCall c s' body >>= k
        | .leave b => k b := by
  change Turn.call c _ = _
  congr 1
  funext a
  congr 1
  funext r
  cases r <;> rfl

/-- The first turn of two programs in a row. -/
theorem turn_bind (p : Prog C A α) (f : α → Prog C A β) :
    (p >>= f).turn =
      match p.turn with
      | .done a => (f a).turn
      | .call c k => .call c fun a => k a >>= f := by
  cases p with
  | ret a => rfl
  | call c k => rfl
  | loop c s body k =>
    change Turn.call c _ = Turn.call c _
    congr 1
    funext a
    rw [bind_assoc]
    congr 1
    funext r
    cases r <;> rfl

/-- Every call a program can come to make satisfies `P`. -/
def Only (P : C → Prop) {α : Type} : Prog C A α → Prop
  | .ret _ => True
  | .call c k => P c ∧ ∀ a, (k a).Only P
  | .loop c _ body k => P c ∧ (∀ a s, (body a s).Only P) ∧ ∀ b, (k b).Only P

variable {P : C → Prop}

theorem only_pure (a : α) : (pure a : Prog C A α).Only P := trivial

theorem only_ask {c : C} (h : P c) : (ask c : Prog C A (A c)).Only P := ⟨h, fun _ => trivial⟩

theorem only_bind {p : Prog C A α} {f : α → Prog C A β} (hp : p.Only P)
    (hf : ∀ a, (f a).Only P) : (p >>= f).Only P := by
  induction p with
  | ret a => exact hf a
  | call c k ih => exact ⟨hp.1, fun a => ih a (hp.2 a) hf⟩
  | loop c s body k _ ih => exact ⟨hp.1, hp.2.1, fun b => ih b (hp.2.2 b) hf⟩

/-- Whatever answer a program goes on with, it still makes such calls only. -/
theorem Only.turn {p : Prog C A α} (h : p.Only P) {c : C} {k : A c → Prog C A α}
    (ht : p.turn = .call c k) : P c ∧ ∀ a, (k a).Only P := by
  cases p with
  | ret a => cases ht
  | call c' k' =>
    cases ht
    exact h
  | loop c' s body k' =>
    cases ht
    refine ⟨h.1, fun a => only_bind (h.2.1 a s) fun r => ?_⟩
    cases r with
    | again s' => exact h
    | leave b => exact h.2.2 b

end Prog

end Interaction
