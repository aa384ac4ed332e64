import OtaApi.Interaction.Run

/-!
# Handing something over

A place through which items go one at a time, from whoever puts them there to
whoever uses them. The machine says in which order the two may touch the place.
What a system does to such a place shows as events; when every event is an arrow
of the machine, nothing that was offered is lost, used twice or overtaken.
-/

namespace Interaction

section Observation

variable {S : Type u} {L : Type v} {P : Type w} {E : Type x} {step : S → L → S}

/-- The events of a run; `observe` tells which of its steps are one. -/
def observed (step : S → L → S) (observe : S → L → Option E) (s : S) : List L → List E
  | [] => []
  | l :: ls => (observe s l).toList ++ observed step observe (step s l) ls

theorem observed_append {observe : S → L → Option E} (s : S) (ls ms : List L) :
    observed step observe s (ls ++ ms) =
      observed step observe s ls ++ observed step observe (exec step s ls) ms := by
  induction ls generalizing s with
  | nil => rfl
  | cons l ls ih => simp only [List.cons_append, observed, ih, exec_cons, List.append_assoc]

theorem observed_snoc {observe : S → L → Option E} (s : S) (ls : List L) (l : L) :
    observed step observe s (ls ++ [l]) =
      observed step observe s ls ++ (observe (exec step s ls) l).toList := by
  rw [observed_append]
  simp only [observed, List.append_nil]

/-- What the machine does about a step: it stays where it is when the step shows
nothing, and takes the arrow that is shown. The relation may speak about the events
so far. -/
inductive Matched (arrow : P → E → P → Prop) (Rel : List E → P → S → Prop) (t : List E) (q : P)
    (s : S) : Option E → Prop where
  | stays (h : Rel t q s) : Matched arrow Rel t q s none
  | moves {e : E} {r : P} (m : arrow q e r) (h : Rel (t ++ [e]) r s) :
      Matched arrow Rel t q s (some e)

/-- Forward simulation with steps that show nothing, as long as every step is one that may
be taken. -/
theorem exec_refines_throughout {arrow : P → E → P → Prop} {observe : S → L → Option E}
    {Rel : List E → P → S → Prop} {may : S → L → Prop} {p : P} {s : S}
    (sim : ∀ t q s l, may s l → Rel t q s → Matched arrow Rel t q (step s l) (observe s l))
    (start : Rel [] p s) {ls : List L} (h : Throughout step may s ls) :
    ∃ q, Path arrow p (observed step observe s ls) q ∧
      Rel (observed step observe s ls) q (exec step s ls) := by
  induction ls using List.reverseRecOn with
  | nil => exact ⟨p, .nil p, start⟩
  | append_singleton ls l ih =>
    obtain ⟨q, hpath, hrel⟩ := ih h.take
    have hmatched := sim _ q _ l (h ls l [] rfl) hrel
    rw [observed_snoc, exec_snoc]
    generalize observe (exec step s ls) l = shown at hmatched ⊢
    cases hmatched with
    | stays h => exact ⟨q, by simpa using hpath, by simpa using h⟩
    | @moves e r m h => exact ⟨r, hpath.snoc m, h⟩

/-- The same when any step may be. -/
theorem exec_refines {arrow : P → E → P → Prop} {observe : S → L → Option E}
    {Rel : List E → P → S → Prop} {p : P} {s : S}
    (sim : ∀ t q s l, Rel t q s → Matched arrow Rel t q (step s l) (observe s l))
    (start : Rel [] p s) (ls : List L) :
    ∃ q, Path arrow p (observed step observe s ls) q ∧
      Rel (observed step observe s ls) q (exec step s ls) := by
  have hany : Throughout step (fun _ _ => True) s ls := fun _ _ _ _ => trivial
  exact exec_refines_throughout (fun t q s l _ => sim t q s l) start hany

end Observation

/-- What a place for one item is used for. -/
inductive Handoff (α : Type u) where
  | free : Handoff α
  | filling : Handoff α
  | handed : α → Handoff α
  | serving : α → Handoff α
  deriving DecidableEq, Repr

/-- What can be seen of a place. -/
inductive Handover (α : Type u) where
  | opened : Handover α
  | withdrawn : Handover α
  | offered : α → Handover α
  | taken : α → Handover α
  | settled : Handover α
  deriving DecidableEq, Repr

variable {α : Type u}

/-- The arrows. Only what was offered can be taken. -/
inductive Handoff.Move : Handoff α → Handover α → Handoff α → Prop where
  | opened : Move .free .opened .filling
  | withdrawn : Move .filling .withdrawn .free
  | offered (x : α) : Move .filling (.offered x) (.handed x)
  | taken (x : α) : Move (.handed x) (.taken x) (.serving x)
  | settled (x : α) : Move (.serving x) .settled .free

/-- The item that has been offered and not taken yet. -/
def Handoff.waiting : Handoff α → List α
  | .handed x => [x]
  | _ => []

def Handover.offer? : Handover α → Option α
  | .offered x => some x
  | _ => none

def Handover.take? : Handover α → Option α
  | .taken x => some x
  | _ => none

/-- The items offered, in order. -/
def offers (t : List (Handover α)) : List α := t.filterMap Handover.offer?

/-- The items taken, in order. -/
def takes (t : List (Handover α)) : List α := t.filterMap Handover.take?

@[simp] theorem offers_nil : offers ([] : List (Handover α)) = [] := rfl
@[simp] theorem takes_nil : takes ([] : List (Handover α)) = [] := rfl

theorem offers_snoc (t : List (Handover α)) (e : Handover α) :
    offers (t ++ [e]) = offers t ++ e.offer?.toList := by
  simp only [offers, List.filterMap_append]
  cases e <;> rfl

theorem takes_snoc (t : List (Handover α)) (e : Handover α) :
    takes (t ++ [e]) = takes t ++ e.take?.toList := by
  simp only [takes, List.filterMap_append]
  cases e <;> rfl

theorem offers_event {t : List (Handover α)} {e : Handover α} (he : e.offer? = none) :
    offers (t ++ [e]) = offers t := by
  rw [offers_snoc, he]
  exact List.append_nil _

theorem takes_event {t : List (Handover α)} {e : Handover α} (he : e.take? = none) :
    takes (t ++ [e]) = takes t := by
  rw [takes_snoc, he]
  exact List.append_nil _

/-- Nothing is lost, taken twice or overtaken: what was offered is what has been
taken, in this order, and then at most one item that waits. -/
theorem Handoff.offers_eq {t : List (Handover α)} {h : Handoff α}
    (hp : Path Handoff.Move .free t h) : offers t = takes t ++ h.waiting := by
  have keep : ∀ (t : List (Handover α)) (q : Handoff α) (e : Handover α) (r : Handoff α),
      Path Handoff.Move .free t q → offers t = takes t ++ q.waiting → Handoff.Move q e r →
      offers (t ++ [e]) = takes (t ++ [e]) ++ r.waiting := by
    intro t q e r _ ih m
    rw [offers_snoc, takes_snoc, ih]
    cases m <;> simp [Handover.offer?, Handover.take?, Handoff.waiting]
  have kept := Path.invariant keep hp
  exact kept rfl

/-- What is being used is what was taken last. -/
theorem Handoff.serving_last {t : List (Handover α)} {x : α}
    (hp : Path Handoff.Move .free t (.serving x)) : (takes t).getLast? = some x := by
  obtain ⟨_, hend⟩ | ⟨s, e, q, rfl, _, m⟩ := hp.last
  · cases hend
  · cases m
    rw [takes_snoc]
    simp [Handover.take?]

/-! ## What the items came back with -/

section Codes

variable {κ : Type v} [DecidableEq κ] {code : κ} {codes : List (α × κ)}

/-- The items that came back with one code, in order. -/
def cameBack (code : κ) (codes : List (α × κ)) : List α :=
  (codes.filter fun c => c.2 = code).map Prod.fst

@[simp] theorem cameBack_snoc (x : α) :
    cameBack code (codes ++ [(x, code)]) = cameBack code codes ++ [x] := by
  simp [cameBack]

@[simp] theorem cameBack_other {k : κ} (hk : k ≠ code) (x : α) :
    cameBack code (codes ++ [(x, k)]) = cameBack code codes := by
  simp [cameBack, hk]

end Codes

end Interaction
