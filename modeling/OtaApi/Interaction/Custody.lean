import Mathlib.Data.Finset.Card
import Mathlib.Data.Finset.Range
import OtaApi.Interaction.Run

/-!
# Custody

Things that are handed out one after another. Each is in the hands of one party at a
time, may be passed on, and is given back at the end. A party gets at a thing through a
reference, which may lead anywhere; the machine has an arrow only where the reference
leads to a thing that is out and in the hands of that party.
-/

namespace Interaction

/-- Who has which thing, by its number; `none` once it was given back. -/
abbrev Custody (P : Type u) := List (Option P)

namespace Custody

inductive Act (P : Type u) where
  | obtained : Nat → P → Act P
  | used : Option Nat → P → Act P
  | passed : Option Nat → P → P → Act P
  | returned : Option Nat → P → Act P
  deriving DecidableEq, Repr

variable {P : Type u}

/-- The reference an act goes through. -/
def Act.ref? : Act P → Option Nat
  | .obtained b _ => some b
  | .used r _ => r
  | .passed r _ _ => r
  | .returned r _ => r

def Act.isObtained : Act P → Bool
  | .obtained _ _ => true
  | _ => false

def Act.isReturned : Act P → Bool
  | .returned _ _ => true
  | _ => false

/-- The arrows. -/
inductive Move : Custody P → Act P → Custody P → Prop where
  | obtained {w : Custody P} {p : P} : Move w (.obtained w.length p) (w ++ [some p])
  | used {w : Custody P} {b : Nat} {p : P} (h : w[b]? = some (some p)) :
      Move w (.used (some b) p) w
  | passed {w : Custody P} {b : Nat} {p q : P} (h : w[b]? = some (some p)) :
      Move w (.passed (some b) p q) (w.set b (some q))
  | returned {w : Custody P} {b : Nat} {p : P} (h : w[b]? = some (some p)) :
      Move w (.returned (some b) p) (w.set b none)

/-- What two parties have are two things. -/
theorem apart {w : Custody P} {b b' : Nat} {p q : P} (hb : w[b]? = some (some p))
    (hb' : w[b']? = some (some q)) (hne : q ≠ p) : b' ≠ b := by
  rintro rfl
  rw [hb] at hb'
  cases hb'
  exact hne rfl

theorem countP_eq_card {α : Type v} (p : α → Bool) (l : List α) :
    l.countP p = ((Finset.range l.length).filter fun i => (l[i]?).any p = true).card := by
  induction l using List.reverseRecOn with
  | nil => rfl
  | append_singleton l x ih =>
    have hbefore : ((Finset.range l.length).filter fun i => ((l ++ [x])[i]?).any p = true) =
        (Finset.range l.length).filter fun i => (l[i]?).any p = true := by
      refine Finset.filter_congr fun i hi => ?_
      rw [List.getElem?_append_left (Finset.mem_range.mp hi)]
    rw [List.countP_append, List.length_append, List.length_singleton, Finset.range_add_one,
      Finset.filter_insert, hbefore, List.getElem?_concat_length, ih]
    cases hx : p x with
    | false => simp [hx]
    | true => simp [hx]

/-- The things that are out. -/
def out (w : Custody P) : Nat := w.countP Option.isSome

theorem out_append (w : Custody P) (p : P) : out (w ++ [some p]) = out w + 1 := by
  simp [out]

theorem out_set {w : Custody P} {b : Nat} {p : P} (h : w[b]? = some (some p)) (o : Option P) :
    out (w.set b o) + 1 = out w + o.toList.length := by
  induction w generalizing b with
  | nil => cases h
  | cons x w ih =>
    cases b with
    | zero =>
      obtain rfl : x = some p := by simpa using h
      cases o with
      | none => simp [out]
      | some q => simp [out]
    | succ b =>
      have hrest := ih (b := b) (by simpa using h)
      simp only [out, List.set_cons_succ, List.countP_cons] at hrest ⊢
      omega

/-- When the parties are the entries of a list, each with a place of its own for what it
has, as many things are out as there are entries that have one. -/
theorem out_eq {α : Type v} {w : Custody Nat} {l : List α} {has : α → Bool}
    {place : Nat → Option Nat}
    (hplace : ∀ i a, l[i]? = some a → has a = true →
      ∃ b, place i = some b ∧ w[b]? = some (some i))
    (hheld : ∀ b i, w[b]? = some (some i) →
      place i = some b ∧ ∃ a, l[i]? = some a ∧ has a = true) : out w = l.countP has := by
  have found : ∀ i, i ∈ (Finset.range l.length).filter (fun i => (l[i]?).any has = true) →
      ∃ b, place i = some b ∧ w[b]? = some (some i) := by
    intro i hi
    obtain ⟨_, hany⟩ := Finset.mem_filter.mp hi
    obtain ⟨a, ha, hhas⟩ := (Option.any_eq_true _ _).mp hany
    exact hplace i a ha hhas
  rw [out, countP_eq_card, countP_eq_card]
  symm
  refine Finset.card_nbij (fun i => (place i).getD 0) ?_ ?_ ?_
  · intro i hi
    obtain ⟨b, hb, hc⟩ := found i hi
    obtain ⟨hlt, _⟩ := List.getElem?_eq_some_iff.mp hc
    refine Finset.mem_filter.mpr ⟨?_, ?_⟩
    · simpa [hb] using hlt
    · simp [hb, hc]
  · intro i hi j hj heq
    obtain ⟨b, hb, hc⟩ := found i hi
    obtain ⟨b', hb', hc'⟩ := found j hj
    have hsame : b = b' := by simpa [hb, hb'] using heq
    subst hsame
    rw [hc] at hc'
    cases hc'
    rfl
  · intro b hb
    obtain ⟨_, hany⟩ := Finset.mem_filter.mp hb
    obtain ⟨o, ho, hsome⟩ := (Option.any_eq_true _ _).mp hany
    obtain ⟨i, rfl⟩ := Option.isSome_iff_exists.mp hsome
    obtain ⟨hplaced, a, ha, hhas⟩ := hheld b i ho
    obtain ⟨hlt, _⟩ := List.getElem?_eq_some_iff.mp ha
    refine ⟨i, Finset.mem_filter.mpr ⟨Finset.mem_range.mpr hlt, ?_⟩, by simp [hplaced]⟩
    simp [ha, hhas]

/-- What was handed out is out, or was given back. -/
theorem balance {t : List (Act P)} {w : Custody P} (hp : Path Move [] t w) :
    t.countP Act.isObtained = t.countP Act.isReturned + out w := by
  have keep : ∀ (t : List (Act P)) (w : Custody P) (act : Act P) (w' : Custody P),
      Path Move [] t w → t.countP Act.isObtained = t.countP Act.isReturned + out w →
      Move w act w' →
      (t ++ [act]).countP Act.isObtained = (t ++ [act]).countP Act.isReturned + out w' := by
    intro t w act w' _ ih m
    rw [List.countP_append, List.countP_append, ih]
    cases m with
    | obtained =>
      rw [out_append]
      simp [Act.isObtained, Act.isReturned]
      omega
    | used _ => simp [Act.isObtained, Act.isReturned]
    | @passed b _ q h =>
      have hout := out_set h (some q)
      simp only [Option.toList_some, List.length_singleton] at hout
      simp [Act.isObtained, Act.isReturned]
      omega
    | @returned b _ h =>
      have hout := out_set h none
      simp only [Option.toList_none, List.length_nil] at hout
      simp [Act.isObtained, Act.isReturned]
      omega
  exact Path.invariant keep hp rfl

/-- The numbers given out so far. -/
def numbers (t : List (Act P)) : List Nat := (t.filter Act.isObtained).filterMap Act.ref?

theorem numbers_snoc (t : List (Act P)) (act : Act P) :
    numbers (t ++ [act]) = numbers t ++ if act.isObtained then act.ref?.toList else [] := by
  simp only [numbers, List.filter_append, List.filterMap_append]
  cases act <;> rfl

theorem numbers_eq {t : List (Act P)} {w : Custody P} (hp : Path Move [] t w) :
    numbers t = List.range w.length := by
  have keep : ∀ (t : List (Act P)) (w : Custody P) (act : Act P) (w' : Custody P),
      Path Move [] t w → numbers t = List.range w.length → Move w act w' →
      numbers (t ++ [act]) = List.range w'.length := by
    intro t w act w' _ ih m
    rw [numbers_snoc, ih]
    cases m with
    | obtained =>
      rw [List.length_append, List.length_singleton, List.range_succ]
      rfl
    | used _ => simp [Act.isObtained]
    | passed _ => simp [Act.isObtained]
    | returned _ => simp [Act.isObtained]
  have kept := Path.invariant keep hp
  exact kept rfl

/-- What was given back is touched no more, and stays given back. -/
theorem gone {t : List (Act P)} {w w' : Custody P} (hp : Path Move w t w') {b : Nat}
    (hb : w[b]? = some none) : w'[b]? = some none ∧ ∀ act ∈ t, act.ref? ≠ some b := by
  induction hp with
  | nil _ => exact ⟨hb, fun act h => (List.not_mem_nil h).elim⟩
  | @cons w w₁ w' act t m _ ih =>
    obtain ⟨hlt, _⟩ := List.getElem?_eq_some_iff.mp hb
    have hstep : w₁[b]? = some none ∧ act.ref? ≠ some b := by
      have hne : ∀ {b' : Nat} {p : P}, w[b']? = some (some p) → b' ≠ b := by
        rintro b' p h rfl
        rw [hb] at h
        cases h
      cases m with
      | obtained =>
        refine ⟨by rw [List.getElem?_append_left hlt, hb], fun h => ?_⟩
        cases h
        exact Nat.lt_irrefl _ hlt
      | used h => exact ⟨hb, fun heq => hne h (Option.some.inj heq)⟩
      | passed h =>
        exact ⟨by rw [List.getElem?_set_ne (hne h), hb], fun heq => hne h (Option.some.inj heq)⟩
      | returned h =>
        exact ⟨by rw [List.getElem?_set_ne (hne h), hb], fun heq => hne h (Option.some.inj heq)⟩
    obtain ⟨hend, hrest⟩ := ih hstep.1
    exact ⟨hend, List.forall_mem_cons.mpr ⟨hstep.2, hrest⟩⟩

/-- The life of each thing: it is handed out once, touched only after that, and touched
no more, nor given back again, when it was given back. -/
structure Orderly (t : List (Act P)) : Prop where
  fresh : (numbers t).Nodup
  known : ∀ pre act post, t = pre ++ act :: post → act.isObtained = false →
    ∃ b, act.ref? = some b ∧ b ∈ numbers pre
  last : ∀ pre act post, t = pre ++ act :: post → act.isReturned = true →
    ∀ act' ∈ post, act'.ref? ≠ act.ref?

theorem orderly {t : List (Act P)} {w : Custody P} (hp : Path Move [] t w) : Orderly t := by
  constructor
  case fresh =>
    rw [numbers_eq hp]
    exact List.nodup_range
  case known =>
    rintro pre act post rfl hact
    obtain ⟨q, _, hpre, m, _⟩ := hp.at_event
    have found : ∀ {b : Nat} {p : P}, q[b]? = some (some p) → b ∈ numbers pre := by
      intro b p h
      obtain ⟨hlt, _⟩ := List.getElem?_eq_some_iff.mp h
      rw [numbers_eq hpre]
      exact List.mem_range.mpr hlt
    cases m with
    | obtained => cases hact
    | used h => exact ⟨_, rfl, found h⟩
    | passed h => exact ⟨_, rfl, found h⟩
    | returned h => exact ⟨_, rfl, found h⟩
  case last =>
    rintro pre act post rfl hact act' hmem
    obtain ⟨q, q', _, m, hpost⟩ := hp.at_event
    cases m with
    | obtained => cases hact
    | used _ => cases hact
    | passed _ => cases hact
    | @returned b _ h =>
      obtain ⟨hlt, _⟩ := List.getElem?_eq_some_iff.mp h
      exact (gone hpost (List.getElem?_set_self hlt)).2 act' hmem

end Custody

end Interaction
