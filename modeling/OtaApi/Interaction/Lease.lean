/-!
# A lease

Something one holder may have at a time, and whose holder can be asked to give
it up. A request can only be recorded next to a holder, so a request that
outlives its holder cannot be built.
-/

namespace Interaction

/-- The present holder and whether it has been asked to stop, if there is one. -/
abbrev Lease (ι : Type) := Option (ι × Bool)

namespace Lease

variable {ι : Type}

/-- Whoever comes first gets it, and starts without a request. -/
def take (i : ι) : Lease ι → Bool × Lease ι
  | none => (true, some (i, false))
  | some h => (false, some h)

def drop (_ : Lease ι) : Lease ι := none

/-- Ask the holder to stop; refused when there is none. -/
def ask : Lease ι → Bool × Lease ι
  | none => (false, none)
  | some (i, _) => (true, some (i, true))

def held (l : Lease ι) : Bool := l.isSome

def asked : Lease ι → Bool
  | none => false
  | some (_, b) => b

def holder (l : Lease ι) : Option ι := l.map Prod.fst

@[simp] theorem asked_none : asked (none : Lease ι) = false := rfl
@[simp] theorem asked_some (i : ι) (b : Bool) : asked (some (i, b)) = b := rfl
@[simp] theorem holder_none : holder (none : Lease ι) = none := rfl
@[simp] theorem holder_some (i : ι) (b : Bool) : holder (some (i, b)) = some i := rfl

/-- A request needs a holder. -/
theorem held_of_asked {l : Lease ι} (h : l.asked = true) : l.held = true := by
  cases l with
  | none => simp at h
  | some _ => rfl

theorem held_iff (l : Lease ι) : l.held = true ↔ ∃ i, l.holder = some i := by
  cases l with
  | none => simp [held]
  | some h => exact iff_of_true rfl ⟨h.1, rfl⟩

/-- Asking never changes who holds. -/
@[simp] theorem holder_ask (l : Lease ι) : l.ask.2.holder = l.holder := by
  cases l <;> rfl

end Lease

end Interaction
