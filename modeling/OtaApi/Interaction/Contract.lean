import OtaApi.Interaction.Run

/-!
# Programs that keep a contract

A contract says in which states a call may be made and what it may do to the state.
A program keeps it from a state if it makes no call out of place and ends with its
postcondition, whatever its calls are answered. The rules follow the constructors of
programs; a program over other calls is brought in by an embedding.
-/

namespace Interaction

section Embedding

variable {C D : Type} {A : C → Type} {B : D → Type} {α β σ : Type}

/-- The calls of one kind of programs among those of another. -/
structure Embedding (C : Type) (A : C → Type) (D : Type) (B : D → Type) where
  call : C → D
  answer : (c : C) → B (call c) → A c

namespace Prog

def embed (e : Embedding C A D B) {γ : Type} : Prog C A γ → Prog D B γ
  | .ret a => .ret a
  | .call c k => .call (e.call c) fun b => embed e (k (e.answer c b))
  | .loop c s body k =>
    .loop (e.call c) s (fun b s => embed e (body (e.answer c b) s)) fun b => embed e (k b)

theorem embed_bind (e : Embedding C A D B) (p : Prog C A α) (f : α → Prog C A β) :
    (p >>= f).embed e = p.embed e >>= fun a => (f a).embed e := by
  induction p with
  | ret a => rfl
  | call c k ih => exact congrArg (Prog.call _) (funext fun b => ih _ f)
  | loop c s body k _ ih => exact congrArg (Prog.loop _ s _) (funext fun b => ih b f)

theorem turn_embed (e : Embedding C A D B) (p : Prog C A α) :
    (p.embed e).turn =
      match p.turn with
      | .done a => .done a
      | .call c k => .call (e.call c) fun b => (k (e.answer c b)).embed e := by
  cases p with
  | ret a => rfl
  | call c k => rfl
  | loop c s body k =>
    change Turn.call _ _ = Turn.call _ _
    congr 1
    funext b
    rw [embed_bind]
    congr 1
    funext r
    cases r <;> rfl

end Prog

end Embedding

/-- When each call may be made, and what it may do and answer. -/
structure Contract (C : Type) (A : C → Type) (S : Type u) where
  may : S → C → Prop
  does : S → Event C A → S → Prop

namespace Contract

variable {C D : Type} {A : C → Type} {B : D → Type} {S : Type u} {α β σ : Type}

/-- The first `n` calls are made in their place, and an end comes with `post`. -/
def Keeps (K : Contract C A S) (post : α → S → Prop) : Nat → S → Prog C A α → Prop
  | 0, _, _ => True
  | n + 1, s, p =>
    match p.turn with
    | .done r => post r s
    | .call c k => K.may s c ∧ ∀ a s', K.does s ⟨c, a⟩ s' → K.Keeps post n s' (k a)

/-- The contract is kept for ever. -/
def Safe (K : Contract C A S) (post : α → S → Prop) (s : S) (p : Prog C A α) : Prop :=
  ∀ n, K.Keeps post n s p

/-- From every state with `pre` the contract is kept. -/
def Triple (K : Contract C A S) (pre : S → Prop) (p : Prog C A α) (post : α → S → Prop) : Prop :=
  ∀ s, pre s → K.Safe post s p

variable {K : Contract C A S} {pre : S → Prop} {s : S} {n : Nat}

/-! ## What a kept contract says -/

theorem Safe.done {post : α → S → Prop} {p : Prog C A α} {r : α} (h : K.Safe post s p)
    (hp : p.turn = .done r) : post r s := by
  have hone := h 1
  simp only [Keeps, hp] at hone
  exact hone

theorem Safe.call {post : α → S → Prop} {p : Prog C A α} {c : C} {k : A c → Prog C A α}
    (h : K.Safe post s p) (hp : p.turn = .call c k) :
    K.may s c ∧ ∀ a s', K.does s ⟨c, a⟩ s' → K.Safe post s' (k a) := by
  have hnext : ∀ n, K.may s c ∧ ∀ a s', K.does s ⟨c, a⟩ s' → K.Keeps post n s' (k a) := by
    intro n
    have hn := h (n + 1)
    simp only [Keeps, hp] at hn
    exact hn
  exact ⟨(hnext 0).1, fun a s' hdoes n => (hnext n).2 a s' hdoes⟩

/-! ## Rules -/

theorem Keeps.fewer {post : α → S → Prop} {p : Prog C A α} (h : K.Keeps post n s p) {m : Nat}
    (hm : m ≤ n) : K.Keeps post m s p := by
  induction n generalizing m s p with
  | zero =>
    obtain rfl := Nat.le_zero.mp hm
    exact h
  | succ n ih =>
    cases m with
    | zero => trivial
    | succ m =>
      simp only [Keeps] at h ⊢
      split at h
      · exact h
      · exact ⟨h.1, fun a s' hdoes => ih (h.2 a s' hdoes) (Nat.le_of_succ_le_succ hm)⟩

theorem Keeps.weaken {post post' : α → S → Prop} (hpost : ∀ r s, post r s → post' r s)
    {p : Prog C A α} (h : K.Keeps post n s p) : K.Keeps post' n s p := by
  induction n generalizing s p with
  | zero => trivial
  | succ n ih =>
    simp only [Keeps] at h ⊢
    split at h
    · exact hpost _ _ h
    · exact ⟨h.1, fun a s' hdoes => ih (h.2 a s' hdoes)⟩

theorem Triple.weaken {post post' : α → S → Prop} {p : Prog C A α} (h : K.Triple pre p post)
    {pre' : S → Prop} (hpre : ∀ s, pre' s → pre s) (hpost : ∀ r s, post r s → post' r s) :
    K.Triple pre' p post' :=
  fun s hs n => (h s (hpre s hs) n).weaken hpost

theorem Triple.pure {post : α → S → Prop} {a : α} (h : ∀ s, pre s → post a s) :
    K.Triple pre (pure a) post := by
  intro s hs n
  cases n with
  | zero => trivial
  | succ n => exact h s hs

theorem Triple.ask {c : C} {post : A c → S → Prop} (hmay : ∀ s, pre s → K.may s c)
    (hdoes : ∀ s a s', pre s → K.does s ⟨c, a⟩ s' → post a s') :
    K.Triple pre (Prog.ask c) post := by
  intro s hs n
  cases n with
  | zero => trivial
  | succ n => exact ⟨hmay s hs, fun a s' hd => Triple.pure (hdoes s a · hs) s' hd n⟩

theorem Keeps.bind {mid : α → S → Prop} {post : β → S → Prop} {p : Prog C A α}
    {f : α → Prog C A β} (hp : K.Keeps mid n s p)
    (hf : ∀ a s m, m ≤ n → mid a s → K.Keeps post m s (f a)) : K.Keeps post n s (p >>= f) := by
  induction n generalizing s p with
  | zero => trivial
  | succ n ih =>
    have hturn := Prog.turn_bind p f
    simp only [Keeps] at hp
    split at hp
    · rename_i a ht
      rw [ht] at hturn
      have hkept := hf a s (n + 1) (Nat.le_refl _) hp
      simp only [Keeps] at hkept ⊢
      rw [hturn]
      exact hkept
    · rename_i c k ht
      rw [ht] at hturn
      simp only [Keeps]
      rw [hturn]
      refine ⟨hp.1, fun a s' hdoes => ih (hp.2 a s' hdoes) fun a' s'' m hm => ?_⟩
      exact hf a' s'' m (Nat.le_succ_of_le hm)

theorem Triple.bind {mid : α → S → Prop} {post : β → S → Prop} {p : Prog C A α}
    {f : α → Prog C A β} (hp : K.Triple pre p mid) (hf : ∀ a, K.Triple (mid a) (f a) post) :
    K.Triple pre (p >>= f) post :=
  fun s hs n => (hp s hs n).bind fun a s' m _ ha => hf a s' ha m

/-- A loop keeps what its body, entered by its call, brings back. -/
theorem Triple.whileCall {c : C} {inv : σ → S → Prop} {post : β → S → Prop}
    {body : A c → σ → Prog C A (LoopStep σ β)}
    (hbody : ∀ x, K.Triple (inv x) (Prog.ask c >>= fun a => body a x) fun
      | .again x' => inv x'
      | .leave b => post b)
    (x : σ) : K.Triple (inv x) (Prog.whileCall c x body) post := by
  have hkept : ∀ n x s, inv x s → K.Keeps post n s (Prog.whileCall c x body) := by
    intro n
    induction n with
    | zero => exact fun _ _ _ => trivial
    | succ n ih =>
      intro x s hx
      obtain ⟨hmay, hdoes⟩ := (hbody x s hx).call (Prog.turn_ask_bind c _)
      refine ⟨hmay, fun a s' hd => (hdoes a s' hd n).bind fun r s'' m hm hr => ?_⟩
      cases r with
      | again x' => exact (ih x' s'' hr).fewer hm
      | leave b => exact Triple.pure (fun _ h => h) s'' hr m
  exact fun s hx n => hkept n x s hx

/-- What every call a program can make allows and keeps is kept by the program. -/
theorem Triple.only {P : C → Prop} {inv : S → Prop}
    (hcall : ∀ s c, P c → inv s → K.may s c ∧ ∀ a s', K.does s ⟨c, a⟩ s' → inv s')
    {p : Prog C A α} (hp : p.Only P) : K.Triple inv p fun _ => inv := by
  intro s hs n
  induction n generalizing s p with
  | zero => trivial
  | succ n ih =>
    simp only [Keeps]
    split
    · exact hs
    · rename_i c k ht
      obtain ⟨hc, hk⟩ := hp.turn ht
      obtain ⟨hmay, hdoes⟩ := hcall s c hc hs
      exact ⟨hmay, fun a s' hd => ih (hk a) s' (hdoes a s' hd)⟩

/-! ## Programs over other calls -/

/-- The contract as the embedded calls see it. -/
def under (K : Contract D B S) (e : Embedding C A D B) : Contract C A S where
  may s c := K.may s (e.call c)
  does s ev s' := ∃ b, e.answer ev.call b = ev.answer ∧ K.does s ⟨e.call ev.call, b⟩ s'

theorem under_does {K : Contract D B S} {e : Embedding C A D B} {s s' : S} {c : C} {a : A c}
    (h : (K.under e).does s ⟨c, a⟩ s') : ∃ b, e.answer c b = a ∧ K.does s ⟨e.call c, b⟩ s' := h

theorem Triple.embed {K : Contract D B S} {e : Embedding C A D B} {post : α → S → Prop}
    {p : Prog C A α} (h : (K.under e).Triple pre p post) : K.Triple pre (p.embed e) post := by
  have hkept : ∀ n s (p : Prog C A α), (K.under e).Keeps post n s p → K.Keeps post n s (p.embed e) := by
    intro n
    induction n with
    | zero => exact fun _ _ _ => trivial
    | succ n ih =>
      intro s p hp
      have hturn := Prog.turn_embed e p
      simp only [Keeps] at hp ⊢
      split at hp
      · rename_i r ht
        rw [hturn, ht]
        exact hp
      · rename_i c k ht
        rw [hturn, ht]
        exact ⟨hp.1, fun b s' hd => ih s' _ (hp.2 _ s' ⟨b, rfl, hd⟩)⟩
  exact fun s hs n => hkept n s p (h s hs n)

theorem Triple.askUnder {K : Contract D B S} {e : Embedding C A D B} {c : C} {post : A c → S → Prop}
    (hmay : ∀ s, pre s → K.may s (e.call c))
    (hdoes : ∀ s b s', pre s → K.does s ⟨e.call c, b⟩ s' → post (e.answer c b) s') :
    (K.under e).Triple pre (Prog.ask c) post := by
  refine .ask hmay fun s a s' hs hdone => ?_
  obtain ⟨b, rfl, hd⟩ := under_does hdone
  exact hdoes s b s' hs hd

/-! ## Keeping account -/

/-- The state is an account of what was called and answered, and of nothing else. -/
def tracking (after : S → Event C A → S) (may : S → C → Prop) : Contract C A S where
  may := may
  does s e s' := s' = after s e

/-- The account of a program that keeps to it is kept, however far it has come. -/
theorem Safe.steps {after : S → Event C A → S} {may : S → C → Prop} {post : α → S → Prop}
    {p q : Prog C A α} {t : List (Event C A)} (h : (tracking after may).Safe post s p)
    (hsteps : Steps Prog.turn p t q) : (tracking after may).Safe post (t.foldl after s) q := by
  induction hsteps generalizing s with
  | nil x => exact h
  | cons hturn a rest ih => exact ih ((h.call hturn).2 _ _ rfl)

end Contract

/-! ## What a program can come to -/

namespace Prog

variable {C : Type} {A : C → Type} {α β : Type}

theorem steps_bind {p q : Prog C A α} {t : List (Event C A)} (h : Steps Prog.turn p t q)
    (f : α → Prog C A β) : Steps Prog.turn (p >>= f) t (q >>= f) := by
  induction h with
  | nil p => exact .nil _
  | @cons p q c k t ht a rest ih =>
    have hturn : (p >>= f).turn = .call c fun a => k a >>= f := by rw [turn_bind, ht]
    exact .cons hturn a ih

/-- With some answers it returns this. -/
def CanReturn (p : Prog C A α) (a : α) : Prop := ∃ t, Steps Prog.turn p t (pure a)

/-- With some answers it comes to make this call. -/
def CanCall (p : Prog C A α) (c : C) : Prop :=
  ∃ t q, Steps Prog.turn p t q ∧ q.turn.next? = some c

theorem canReturn_pure (a : α) : CanReturn (pure a : Prog C A α) a := ⟨[], .nil _⟩

theorem canReturn_ask (c : C) (a : A c) : CanReturn (ask c : Prog C A (A c)) a :=
  ⟨[⟨c, a⟩], .cons (turn_ask c) a (.nil _)⟩

theorem CanReturn.bind {p : Prog C A α} {f : α → Prog C A β} {a : α} {b : β} (hp : p.CanReturn a)
    (hf : (f a).CanReturn b) : (p >>= f).CanReturn b := by
  obtain ⟨s, hs⟩ := hp
  obtain ⟨t, ht⟩ := hf
  exact ⟨s ++ t, (steps_bind hs f).append ht⟩

theorem CanCall.bind {p : Prog C A α} {c : C} (hp : p.CanCall c) (f : α → Prog C A β) :
    (p >>= f).CanCall c := by
  obtain ⟨t, q, ht, hq⟩ := hp
  obtain ⟨k, hturn⟩ := Turn.eq_call hq
  exact ⟨t, q >>= f, steps_bind ht f, by rw [turn_bind, hturn]; rfl⟩

theorem CanReturn.canCall {p : Prog C A α} {f : α → Prog C A β} {a : α} {c : C}
    (hp : p.CanReturn a) (hf : (f a).CanCall c) : (p >>= f).CanCall c := by
  obtain ⟨s, hs⟩ := hp
  obtain ⟨t, q, ht, hq⟩ := hf
  exact ⟨s ++ t, q, (steps_bind hs f).append ht, hq⟩

end Prog

end Interaction
