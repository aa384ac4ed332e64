import OtaApi.Interaction.Program

/-!
# Running a program to its end

A program alone with a state that answers its calls. The state may halt in the
middle, and then nothing is returned; a bound on the number of calls keeps the
run finite.
-/

namespace Interaction

variable {C : Type} {A : C → Type} {S : Type u} {α β : Type}

namespace Prog

/-- The state a program leaves and what it returns, `none` if the state has halted;
nothing at all if it is not done after so many calls. -/
def execute (respond : S → (c : C) → A c × S) (halted : S → Bool) :
    Nat → S → Prog C A α → Option (S × Option α)
  | 0, s, p =>
    match p.turn with
    | .done r => some (s, some r)
    | .call _ _ => none
  | n + 1, s, p =>
    match p.turn with
    | .done r => some (s, some r)
    | .call c k =>
      let (a, s') := respond s c
      if halted s' then some (s', none) else execute respond halted n s' (k a)

variable {respond : S → (c : C) → A c × S} {halted : S → Bool} {n : Nat} {s : S}

@[simp] theorem execute_pure (r : α) :
    execute respond halted n s (pure r : Prog C A α) = some (s, some r) := by
  cases n <;> rfl

@[simp] theorem execute_ask_bind (c : C) (k : A c → Prog C A α) :
    execute respond halted (n + 1) s (ask c >>= k) =
      if halted (respond s c).2 then some ((respond s c).2, none)
      else execute respond halted n (respond s c).2 (k (respond s c).1) := rfl

@[simp] theorem execute_ask (c : C) :
    execute respond halted (n + 1) s (ask c : Prog C A (A c)) =
      if halted (respond s c).2 then some ((respond s c).2, none)
      else some ((respond s c).2, some (respond s c).1) := by
  change (if _ then _ else execute respond halted n _ (pure _)) = _
  rw [execute_pure]

/-- The calls a program makes and what it returns when each call gets the answer a
function has for it; nothing if it has none, or if the program is not done after so
many calls. -/
def replay (answer : (c : C) → Option (A c)) :
    Nat → Prog C A α → Option (List (Event C A) × α)
  | 0, p =>
    match p.turn with
    | .done r => some ([], r)
    | .call _ _ => none
  | n + 1, p =>
    match p.turn with
    | .done r => some ([], r)
    | .call c k =>
      (answer c).bind fun a => (replay answer n (k a)).map fun (t, r) => (⟨c, a⟩ :: t, r)

variable {answer : (c : C) → Option (A c)}

@[simp] theorem replay_pure (r : α) :
    replay answer n (pure r : Prog C A α) = some ([], r) := by
  cases n <;> rfl

@[simp] theorem replay_ask_bind (c : C) (k : A c → Prog C A α) :
    replay answer (n + 1) (ask c >>= k) =
      (answer c).bind fun a => (replay answer n (k a)).map fun (t, r) => (⟨c, a⟩ :: t, r) := rfl

/-- The state a program leaves and what it returns when its calls come back with the
replies of a list, one after the other and all of them. -/
def follow {ρ : Type} (reply : S → (c : C) → ρ → Option (A c × S)) :
    List ρ → S → Prog C A α → Option (S × α)
  | [], s, p =>
    match p.turn with
    | .done r => some (s, r)
    | .call _ _ => none
  | x :: xs, s, p =>
    match p.turn with
    | .done _ => none
    | .call c k => (reply s c x).bind fun (a, s') => follow reply xs s' (k a)

variable {ρ : Type} {reply : S → (c : C) → ρ → Option (A c × S)} {xs : List ρ}

/-- One call comes back. -/
theorem follow_call {p : Prog C A α} {c : C} {k : A c → Prog C A α} {a : A c} {s s' : S} {x : ρ}
    (ht : p.turn = .call c k) (hreply : reply s c x = some (a, s')) :
    follow reply (x :: xs) s p = follow reply xs s' (k a) := by
  simp [follow, ht, hreply]

end Prog

end Interaction
