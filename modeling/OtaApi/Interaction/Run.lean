import Mathlib.Data.List.Induction
import OtaApi.Interaction.Program

/-!
# Runs, invariants and simulation

`Steps` is a finite run of any process given by its turns. An invariant may
speak about the calls made so far, and is preserved call by call. `Path` is a
finite run of a machine given by its arrows, and a process whose calls are all
arrows of a machine only has runs of that machine. `exec` is the run of a total
step function over a list of labels, for systems in which several processes take
steps.
-/

namespace Interaction

variable {C : Type} {A : C → Type} {R : Type}

section Process

variable {X : Type u} {turn : X → Turn C A R X}

/-- Finite runs of a process, with the calls it made and the answers it got. -/
inductive Steps (turn : X → Turn C A R X) : X → List (Event C A) → X → Prop where
  | nil (x : X) : Steps turn x [] x
  | cons {x y : X} {c : C} {k : A c → X} {t : List (Event C A)} (h : turn x = .call c k)
      (a : A c) (rest : Steps turn (k a) t y) : Steps turn x (⟨c, a⟩ :: t) y

theorem Steps.append {x y z : X} {s t : List (Event C A)} (h : Steps turn x s y)
    (h' : Steps turn y t z) : Steps turn x (s ++ t) z := by
  induction h with
  | nil _ => exact h'
  | cons ht a _ ih => exact .cons ht a (ih h')

/-- One more call at the end of a run. -/
theorem Steps.snoc {x y : X} {c : C} {k : A c → X} {t : List (Event C A)}
    (h : Steps turn x t y) (ht : turn y = .call c k) (a : A c) :
    Steps turn x (t ++ [⟨c, a⟩]) (k a) :=
  h.append (.cons ht a (.nil _))

theorem Steps.split {x z : X} {s t : List (Event C A)} (h : Steps turn x (s ++ t) z) :
    ∃ y, Steps turn x s y ∧ Steps turn y t z := by
  induction s generalizing x with
  | nil => exact ⟨x, .nil x, h⟩
  | cons e s ih =>
    cases h with
    | cons ht a rest =>
      obtain ⟨y, hs, hy⟩ := ih rest
      exact ⟨y, .cons ht a hs, hy⟩

/-- A process is deterministic: when two runs from one state get the same answer
wherever they make the same call at the same place, one is a prefix of the other. -/
theorem Steps.deterministic {x y z : X} {s t : List (Event C A)} (hs : Steps turn x s y)
    (ht : Steps turn x t z)
    (agree : ∀ (n : Nat) (c : C) (a b : A c), s[n]? = some ⟨c, a⟩ → t[n]? = some ⟨c, b⟩ → a = b) :
    s <+: t ∨ t <+: s := by
  induction hs generalizing t with
  | nil _ => exact .inl List.nil_prefix
  | @cons x y c k s h a rest ih =>
    cases ht with
    | nil _ => exact .inr List.nil_prefix
    | @cons _ _ c' k' t h' b rest' =>
      rw [h] at h'
      obtain ⟨rfl, hk⟩ := Turn.call.inj h'
      obtain rfl := eq_of_heq hk
      obtain rfl : a = b := agree 0 c a b rfl rfl
      have hrest := ih rest' (fun n c' a' b' hn hm => agree (n + 1) c' a' b' hn hm)
      simpa using hrest

/-- The state a run ends in is determined by its calls and answers. -/
theorem Steps.unique {x y z : X} {t : List (Event C A)} (hy : Steps turn x t y)
    (hz : Steps turn x t z) : y = z := by
  induction hy with
  | nil _ => cases hz; rfl
  | cons h a _ ih =>
    cases hz with
    | cons h' _ rest =>
      rw [h] at h'
      obtain ⟨_, hk⟩ := Turn.call.inj h'
      obtain rfl := eq_of_heq hk
      exact ih rest

/-- A process that has stopped makes no further call. -/
theorem Steps.of_done {x y : X} {t : List (Event C A)} {r : R} (h : Steps turn x t y)
    (hx : turn x = .done r) : t = [] ∧ y = x := by
  cases h with
  | nil _ => exact ⟨rfl, rfl⟩
  | cons ht _ _ => rw [hx] at ht; cases ht

/-- A run cannot be continued past a state in which the process has stopped. -/
theorem Steps.eq_of_prefix {x y z : X} {s t : List (Event C A)} {r : R} (hy : Steps turn x s y)
    (hz : Steps turn x t z) (hst : s <+: t) (hd : turn y = .done r) : t = s ∧ z = y := by
  obtain ⟨u, rfl⟩ := hst
  obtain ⟨w, hw, hrest⟩ := hz.split
  obtain rfl := hy.unique hw
  obtain ⟨rfl, rfl⟩ := hrest.of_done hd
  exact ⟨List.append_nil s, rfl⟩

/-- Of two runs that have both stopped neither goes further than the other. -/
theorem Steps.eq_of_done {x y z : X} {s t : List (Event C A)} {r₁ r₂ : R}
    (hy : Steps turn x s y) (hz : Steps turn x t z) (hst : s <+: t ∨ t <+: s)
    (hd₁ : turn y = .done r₁) (hd₂ : turn z = .done r₂) : s = t ∧ r₁ = r₂ := by
  have hends : s = t ∧ y = z := by
    obtain hle | hle := hst
    · obtain ⟨htrace, hend⟩ := hy.eq_of_prefix hz hle hd₁
      exact ⟨htrace.symm, hend.symm⟩
    · exact hz.eq_of_prefix hy hle hd₂
  obtain ⟨htrace, rfl⟩ := hends
  rw [hd₁] at hd₂
  cases hd₂
  exact ⟨htrace, rfl⟩

/-- A run to the end, with what the process returned. -/
def Returns (turn : X → Turn C A R X) (x : X) (t : List (Event C A)) (r : R) : Prop :=
  ∃ y, Steps turn x t y ∧ turn y = .done r

theorem returns_done_iff {x : X} {t : List (Event C A)} {r r' : R} (hx : turn x = .done r') :
    Returns turn x t r ↔ t = [] ∧ r = r' := by
  constructor
  · rintro ⟨y, hsteps, hd⟩
    obtain ⟨rfl, rfl⟩ := hsteps.of_done hx
    rw [hx] at hd
    cases hd
    exact ⟨rfl, rfl⟩
  · rintro ⟨rfl, rfl⟩
    exact ⟨x, .nil x, hx⟩

/-- A process that calls returns what it returns after the answer. -/
theorem returns_call_iff {x : X} {c : C} {k : A c → X} {t : List (Event C A)} {r : R}
    (hx : turn x = .call c k) :
    Returns turn x t r ↔ ∃ a s, t = ⟨c, a⟩ :: s ∧ Returns turn (k a) s r := by
  constructor
  · rintro ⟨y, hsteps, hd⟩
    cases hsteps with
    | nil _ =>
      rw [hx] at hd
      cases hd
    | cons ht a rest =>
      rw [hx] at ht
      obtain ⟨rfl, hk⟩ := Turn.call.inj ht
      obtain rfl := eq_of_heq hk
      exact ⟨a, _, rfl, y, rest, hd⟩
  · rintro ⟨a, s, rfl, y, hsteps, hd⟩
    exact ⟨y, .cons hx a hsteps, hd⟩

theorem Prog.returns_pure {α : Type} {a r : α} {t : List (Event C A)} :
    Returns Prog.turn (pure a : Prog C A α) t r ↔ t = [] ∧ r = a :=
  returns_done_iff (Prog.turn_pure a)

theorem Prog.returns_ask_bind {α : Type} {c : C} {k : A c → Prog C A α} {r : α}
    {t : List (Event C A)} :
    Returns Prog.turn (Prog.ask c >>= k) t r ↔
      ∃ a s, t = ⟨c, a⟩ :: s ∧ Returns Prog.turn (k a) s r :=
  returns_call_iff (Prog.turn_ask_bind c k)

theorem Steps.only {P : C → Prop} {α : Type} {p q : Prog C A α} {t : List (Event C A)}
    (h : Steps Prog.turn p t q) (hp : p.Only P) : (∀ e ∈ t, P e.call) ∧ q.Only P := by
  induction h with
  | nil _ => exact ⟨by simp, hp⟩
  | cons ht a _ ih =>
    have hturn := hp.turn ht
    have hrest := ih (hturn.2 a)
    exact ⟨List.forall_mem_cons.mpr ⟨hturn.1, hrest.1⟩, hrest.2⟩

end Process

/-- An entry of a list that has got one more is the new one, or was there before. -/
theorem snoc_eq_append_cons {α : Type u} {t u v : List α} {x e : α}
    (h : t ++ [x] = u ++ e :: v) :
    (u = t ∧ e = x ∧ v = []) ∨ ∃ v', v = v' ++ [x] ∧ t = u ++ e :: v' := by
  obtain rfl | ⟨v', y, rfl⟩ := List.eq_nil_or_concat v
  · obtain ⟨rfl, rfl⟩ := List.append_singleton_inj.mp h
    exact .inl ⟨rfl, rfl, rfl⟩
  · have h' : t ++ [x] = (u ++ e :: v') ++ [y] := by simpa using h
    obtain ⟨ht, rfl⟩ := List.append_singleton_inj.mp h'
    exact .inr ⟨v', by simp, ht⟩

/-- An entry that is not in the second part of a list is in the first. -/
theorem append_eq_append_cons {α : Type u} {u v x y : List α} {e : α}
    (h : u ++ v = x ++ e :: y) (he : e ∉ v) : ∃ y', u = x ++ e :: y' ∧ y = y' ++ v := by
  obtain ⟨w, _, hv⟩ | ⟨w, hu, hy⟩ := List.append_eq_append_iff.mp h
  · rw [hv] at he
    exact absurd (List.mem_append_right w List.mem_cons_self) he
  · cases w with
    | nil =>
      rw [← show e :: y = v from hy] at he
      exact absurd List.mem_cons_self he
    | cons e' w =>
      obtain ⟨rfl, rfl⟩ := List.cons.inj hy
      exact ⟨w, hu, rfl⟩

section Simulation

variable {P : Type u} {E : Type v} {move : P → E → P → Prop}

/-- Finite runs of a machine given by its arrows. -/
inductive Path (move : P → E → P → Prop) : P → List E → P → Prop where
  | nil (p : P) : Path move p [] p
  | cons {p q r : P} {e : E} {t : List E} (m : move p e q) (rest : Path move q t r) :
      Path move p (e :: t) r

theorem Path.append {p q r : P} {s t : List E} (h : Path move p s q) (h' : Path move q t r) :
    Path move p (s ++ t) r := by
  induction h with
  | nil _ => exact h'
  | cons m _ ih => exact .cons m (ih h')

theorem Path.snoc {p q r : P} {t : List E} {e : E} (h : Path move p t q) (m : move q e r) :
    Path move p (t ++ [e]) r :=
  h.append (.cons m (.nil r))

/-- A run passes through a state between any two of its calls. -/
theorem Path.split {p r : P} {s t : List E} (h : Path move p (s ++ t) r) :
    ∃ q, Path move p s q ∧ Path move q t r := by
  induction s generalizing p with
  | nil => exact ⟨p, .nil p, h⟩
  | cons e s ih =>
    cases h with
    | cons m rest =>
      obtain ⟨q, hs, hq⟩ := ih rest
      exact ⟨q, .cons m hs, hq⟩

/-- Every arrow of a run leaves a state that the run had reached before it. -/
theorem Path.at_event {p r : P} {s t : List E} {e : E} (h : Path move p (s ++ e :: t) r) :
    ∃ q q', Path move p s q ∧ move q e q' ∧ Path move q' t r := by
  obtain ⟨q, hs, ht⟩ := h.split
  cases ht with
  | cons m rest => exact ⟨q, _, hs, m, rest⟩

/-- A run that has taken an arrow has taken a last one. -/
theorem Path.last {p r : P} {t : List E} (h : Path move p t r) :
    (t = [] ∧ r = p) ∨ ∃ s e q, t = s ++ [e] ∧ Path move p s q ∧ move q e r := by
  obtain rfl | ⟨s, e, rfl⟩ := List.eq_nil_or_concat t
  · cases h with
    | nil _ => exact .inl ⟨rfl, rfl⟩
  · rw [List.concat_eq_append] at h ⊢
    obtain ⟨q, r', hs, m, hend⟩ := h.at_event
    cases hend with
    | nil _ => exact .inr ⟨s, e, q, rfl, hs, m⟩

/-- Induction over a run from its start. What is kept by every arrow, given the
calls made before it and the run that made them, holds at the end. -/
theorem Path.invariant {p q : P} {t : List E} {Inv : List E → P → Prop}
    (keep : ∀ s q e r, Path move p s q → Inv s q → move q e r → Inv (s ++ [e]) r)
    (run : Path move p t q) (start : Inv [] p) : Inv t q := by
  have general : ∀ (r : P) (u : List E), Path move r u q → ∀ s, Path move p s r → Inv s r →
      Inv (s ++ u) q := by
    intro r u hr
    induction hr with
    | nil _ =>
      intro s _ hs
      simpa using hs
    | cons m _ ih =>
      intro s hp hs
      simpa using ih run _ (hp.snoc m) (keep s _ _ _ hp hs m)
  simpa using general p t run [] (.nil p) start

/-- A run takes no more counted arrows than the budget it starts with, when every
arrow that may be taken pays for itself. -/
theorem Path.budget {allowed : E → Prop} {counted : E → Bool} {budget : P → Nat}
    (pay : ∀ p e q, move p e q → allowed e → (if counted e then 1 else 0) + budget q ≤ budget p)
    {p q : P} {t : List E} (h : Path move p t q) (ht : ∀ e ∈ t, allowed e) :
    t.countP counted + budget q ≤ budget p := by
  induction h with
  | nil _ => simp
  | @cons p q r e t m _ ih =>
    obtain ⟨he, hrest⟩ := List.forall_mem_cons.mp ht
    have hpay := pay p e q m he
    have hleft := ih hrest
    rw [List.countP_cons]
    omega

variable {X : Type w} {turn : X → Turn C A R X} {arrow : P → Event C A → P → Prop}

/-- Forward simulation: when every call of the process is an arrow from each
machine state it stands for, every run of the process is a run of the machine. -/
theorem Steps.simulated {Rel : P → X → Prop}
    (sim : ∀ p x c k a, Rel p x → turn x = .call c k → ∃ q, arrow p ⟨c, a⟩ q ∧ Rel q (k a))
    {p : P} {x y : X} {t : List (Event C A)} (h : Steps turn x t y) (start : Rel p x) :
    ∃ q, Path arrow p t q ∧ Rel q y := by
  induction h generalizing p with
  | nil x => exact ⟨p, .nil p, start⟩
  | cons hx a _ ih =>
    obtain ⟨q, m, hq⟩ := sim p _ _ _ a start hx
    obtain ⟨r, hr, hy⟩ := ih hq
    exact ⟨r, .cons m hr, hy⟩

/-- The other direction: when every arrow is a call of each process its state stands
for, every run of the machine is a run of the process. -/
theorem Path.realised {Rel : P → X → Prop}
    (sim : ∀ p x c a q, Rel p x → arrow p ⟨c, a⟩ q → ∃ k, turn x = .call c k ∧ Rel q (k a))
    {p q : P} {x : X} {t : List (Event C A)} (h : Path arrow p t q) (start : Rel p x) :
    ∃ y, Steps turn x t y ∧ Rel q y := by
  induction h generalizing x with
  | nil _ => exact ⟨x, .nil x, start⟩
  | @cons p q r e t m _ ih =>
    obtain ⟨k, hx, hq⟩ := sim p x e.call e.answer q start m
    obtain ⟨y, hy, hr⟩ := ih hq
    exact ⟨y, .cons hx e.answer hy, hr⟩

end Simulation

section Exec

variable {S : Type u} {L : Type v} {step : S → L → S}

/-- The state after a list of labels. -/
def exec (step : S → L → S) (s : S) (ls : List L) : S := ls.foldl step s

@[simp] theorem exec_nil (s : S) : exec step s [] = s := rfl
@[simp] theorem exec_cons (s : S) (l : L) (ls : List L) :
    exec step s (l :: ls) = exec step (step s l) ls := rfl

theorem exec_append (s : S) (ls ms : List L) :
    exec step s (ls ++ ms) = exec step (exec step s ls) ms := List.foldl_append

theorem exec_snoc (s : S) (ls : List L) (l : L) :
    exec step s (ls ++ [l]) = step (exec step s ls) l := by simp [exec_append]

/-- What holds at the start and is kept by every step holds after every run. -/
theorem exec_invariant {Inv : S → Prop} (keep : ∀ s l, Inv s → Inv (step s l)) {s : S}
    (start : Inv s) (ls : List L) : Inv (exec step s ls) := by
  induction ls generalizing s with
  | nil => exact start
  | cons l ls ih => exact ih (keep s l start)

/-- The same when a step is known to start from a state that a run has reached. -/
theorem exec_induction {Inv : S → Prop} {s : S} (start : Inv s)
    (keep : ∀ ls l, Inv (exec step s ls) → Inv (step (exec step s ls) l)) (ls : List L) :
    Inv (exec step s ls) := by
  have general : ∀ ms ls : List L, Inv (exec step s ls) → Inv (exec step s (ls ++ ms)) := by
    intro ms
    induction ms with
    | nil =>
      intro ls h
      simpa using h
    | cons l ms ih =>
      intro ls h
      have hl : Inv (exec step s (ls ++ [l])) := by
        rw [exec_snoc]
        exact keep ls l h
      simpa using ih (ls ++ [l]) hl
  exact general ls [] start

/-- Every step of a run is taken from a state that, with its label, satisfies `P`. -/
def Throughout (step : S → L → S) (P : S → L → Prop) (s : S) (ls : List L) : Prop :=
  ∀ pre l post, ls = pre ++ l :: post → P (exec step s pre) l

theorem Throughout.tail {P : S → L → Prop} {s : S} {l : L} {ls : List L}
    (h : Throughout step P s (l :: ls)) : Throughout step P (step s l) ls := by
  intro pre l' post hsplit
  exact h (l :: pre) l' post (by rw [hsplit]; rfl)

theorem Throughout.drop {P : S → L → Prop} {s : S} {ls ms : List L}
    (h : Throughout step P s (ls ++ ms)) : Throughout step P (exec step s ls) ms := by
  induction ls generalizing s with
  | nil => exact h
  | cons l ls ih => exact ih h.tail

theorem Throughout.take {P : S → L → Prop} {s : S} {ls ms : List L}
    (h : Throughout step P s (ls ++ ms)) : Throughout step P s ls := by
  intro pre l post hsplit
  exact h pre l (post ++ ms) (by rw [hsplit]; simp)

theorem throughout_cons_iff {P : S → L → Prop} {s : S} {l : L} {ls : List L} :
    Throughout step P s (l :: ls) ↔ P s l ∧ Throughout step P (step s l) ls := by
  refine ⟨fun h => ⟨h [] l ls rfl, h.tail⟩, fun ⟨hl, hrest⟩ => ?_⟩
  intro pre l' post hsplit
  cases pre with
  | nil =>
    cases hsplit
    exact hl
  | cons l₀ pre =>
    obtain ⟨rfl, htail⟩ := List.cons.inj hsplit
    exact hrest pre l' post htail

instance decidableThroughout {P : S → L → Prop} [∀ s l, Decidable (P s l)] :
    (ls : List L) → (s : S) → Decidable (Throughout step P s ls)
  | [], _ => .isTrue fun pre _ _ hsplit => by cases pre <;> cases hsplit
  | l :: ls, s =>
    have : Decidable (Throughout step P (step s l) ls) := decidableThroughout ls (step s l)
    decidable_of_iff' _ throughout_cons_iff

/-- Some step of a run is taken from a state that, with its label, satisfies `P`. -/
def Sometime (step : S → L → S) (P : S → L → Prop) (s : S) (ls : List L) : Prop :=
  ∃ pre l post, ls = pre ++ l :: post ∧ P (exec step s pre) l

theorem Sometime.append {P : S → L → Prop} {s : S} {ls : List L} (h : Sometime step P s ls)
    (ms : List L) : Sometime step P s (ls ++ ms) := by
  obtain ⟨pre, l, post, rfl, hl⟩ := h
  exact ⟨pre, l, post ++ ms, by simp, hl⟩

theorem Sometime.last {P : S → L → Prop} {s : S} {ls : List L} {l : L} (h : P (exec step s ls) l) :
    Sometime step P s (ls ++ [l]) :=
  ⟨ls, l, [], rfl, h⟩

theorem exec_mono {rank : S → Nat} (mono : ∀ s l, rank s ≤ rank (step s l)) (s : S)
    (ls : List L) : rank s ≤ rank (exec step s ls) := by
  induction ls generalizing s with
  | nil => exact Nat.le_refl _
  | cons l ls ih => exact Nat.le_trans (mono s l) (ih (step s l))

/-- What takes a rank that never falls past one value happens at one step only. -/
theorem Sometime.once {P Q : S → L → Prop} {s : S} {ls : List L} {rank : S → Nat} {k : Nat}
    (mono : ∀ s l, rank s ≤ rank (step s l))
    (hP : ∀ pre l, P (exec step s pre) l →
      rank (exec step s pre) = k ∧ k < rank (step (exec step s pre) l))
    (hQ : ∀ pre l, Q (exec step s pre) l →
      rank (exec step s pre) = k ∧ k < rank (step (exec step s pre) l))
    (h : Sometime step P s ls) (h' : Sometime step Q s ls) :
    ∃ pre l, P (exec step s pre) l ∧ Q (exec step s pre) l := by
  obtain ⟨pre, l, post, hls, hl⟩ := h
  obtain ⟨pre', l', post', hls', hl'⟩ := h'
  have past : ∀ (u v w : List L) (x y : L), u ++ x :: v = w → k < rank (step (exec step s u) x) →
      rank (exec step s w) ≠ k := by
    intro u v w x _ hw hlt heq
    have hle := @exec_mono S L step rank mono (step (exec step s u) x) v
    rw [← exec_cons, ← exec_append, hw, heq] at hle
    omega
  obtain ⟨u, hu, hrest⟩ | ⟨u, hu, hrest⟩ := List.append_eq_append_iff.mp (hls.symm.trans hls')
  · cases u with
    | nil =>
      obtain ⟨rfl, _⟩ := List.cons.inj hrest
      rw [List.append_nil] at hu
      exact ⟨pre, l, hl, hu ▸ hl'⟩
    | cons x u =>
      obtain ⟨rfl, _⟩ := List.cons.inj hrest
      exact absurd (hQ _ _ hl').1 (past pre u pre' l l hu.symm (hP _ _ hl).2)
  · cases u with
    | nil =>
      obtain ⟨rfl, _⟩ := List.cons.inj hrest
      rw [List.append_nil] at hu
      exact ⟨pre', l', hu ▸ hl, hl'⟩
    | cons x u =>
      obtain ⟨rfl, _⟩ := List.cons.inj hrest
      exact absurd (hP _ _ hl).1 (past pre' u pre l' l' hu.symm (hQ _ _ hl').2)

/-- What holds at the end of a run and not at its start was brought about by one of
its steps, and has held since. -/
theorem exec_since {P : S → Prop} {s : S} {ls : List L} (start : ¬ P s) (h : P (exec step s ls)) :
    ∃ pre l post, ls = pre ++ l :: post ∧ ¬ P (exec step s pre) ∧
      ∀ p, p <+: post → P (exec step s (pre ++ l :: p)) := by
  induction ls using List.reverseRecOn with
  | nil => exact absurd h start
  | append_singleton ls l ih =>
    by_cases hbefore : P (exec step s ls)
    · obtain ⟨pre, l', post, rfl, hpre, hsince⟩ := ih hbefore
      refine ⟨pre, l', post ++ [l], by simp, hpre, fun p hp => ?_⟩
      obtain rfl | hp := List.prefix_concat_iff.mp hp
      · simpa using h
      · exact hsince p hp
    · refine ⟨ls, l, [], rfl, hbefore, fun p hp => ?_⟩
      obtain rfl := List.prefix_nil.mp hp
      exact h

/-- A goal is reached when, wherever it is not, some step that may be taken leaves less
work. -/
theorem exec_reaches {Stands : Nat → S → Prop} {Goal : S → Prop} {may : L → Prop}
    (go : ∀ n s, Stands n s → ∃ l m, may l ∧ m < n ∧ (Goal (step s l) ∨ Stands m (step s l)))
    {n : Nat} {s : S} (start : Stands n s) :
    ∃ ls : List L, (∀ l ∈ ls, may l) ∧ ls.length ≤ n ∧ Goal (exec step s ls) := by
  induction n using Nat.strongRecOn generalizing s with
  | ind n ih =>
    obtain ⟨l, m, hl, hm, hgoal | hstands⟩ := go n s start
    · exact ⟨[l], by simpa using hl, by simp; omega, hgoal⟩
    · obtain ⟨ls, hls, hlen, hgoal⟩ := ih m hm hstands
      refine ⟨l :: ls, List.forall_mem_cons.mpr ⟨hl, hls⟩, ?_, hgoal⟩
      rw [List.length_cons]
      omega

end Exec

end Interaction
