import Mathlib.Data.List.TakeWhile

/-!
# Strings of C

A string ends before its first NUL, and a buffer is as many characters as it was
declared with. One character is one byte. A copy is made byte by byte, so that
whoever reads the buffer in the middle of it reads what is there.
-/

namespace CText

def nul : Char := Char.ofNat 0

/-- What a `const char *` points to. -/
structure Str where
  chars : List Char
  noNul : nul ∉ chars
  deriving DecidableEq, Repr

theorem Str.ext_chars {s t : Str} (h : s.chars = t.chars) : s = t := by
  cases s
  cases t
  cases h
  rfl

def Str.text (s : Str) : String := String.ofList s.chars

def Str.strlen (s : Str) : Nat := s.chars.length

/-- The string that starts at the first of these characters. -/
def Str.startingAt (cs : List Char) : Str where
  chars := cs.takeWhile (· ≠ nul)
  noNul := by
    intro hmem
    have hne := List.mem_takeWhile_imp hmem
    simp at hne

/-- What `fgets()` takes from a stream when it may take `k` more bytes: up to the first
newline, which is the last it takes. -/
def fgetsLine : Nat → List Char → List Char
  | 0, _ => []
  | _ + 1, [] => []
  | k + 1, c :: cs => if c = '\n' then [c] else c :: fgetsLine k cs

theorem fgetsLine_length (k : Nat) (stream : List Char) : (fgetsLine k stream).length ≤ k := by
  induction k generalizing stream with
  | zero => exact Nat.le_refl 0
  | succ k ih =>
    cases stream with
    | nil => exact Nat.zero_le _
    | cons c cs =>
      rw [fgetsLine]
      split
      · simp
      · simpa using ih cs

/-- What comes before the first newline or NUL of a stream. -/
def lineOf (stream : List Char) : List Char :=
  stream.takeWhile fun c => c ≠ '\n' ∧ c ≠ nul

/-- The line is ended by a newline that is among the first `k` characters. -/
def EndsWithin (k : Nat) (stream : List Char) : Prop :=
  (lineOf stream).length < k ∧ stream[(lineOf stream).length]? = some '\n'

instance (k : Nat) (stream : List Char) : Decidable (EndsWithin k stream) :=
  inferInstanceAs (Decidable (_ ∧ _))

/-- A line that ends in time is taken with its newline, of any other as much as fits. -/
theorem fgetsLine_str (k : Nat) (stream : List Char) :
    (fgetsLine k stream).takeWhile (· ≠ nul) =
      if EndsWithin k stream then lineOf stream ++ ['\n'] else (lineOf stream).take k := by
  induction k generalizing stream with
  | zero => simp [fgetsLine, EndsWithin]
  | succ k ih =>
    cases stream with
    | nil => simp [fgetsLine, EndsWithin, lineOf]
    | cons c cs =>
      by_cases hc : c = '\n'
      · subst hc
        have hnul : '\n' ≠ nul := by decide
        simp [fgetsLine, EndsWithin, lineOf, hnul]
      · by_cases hnul : c = nul
        · subst hnul
          simp [fgetsLine, EndsWithin, lineOf, hc]
        · have hline : lineOf (c :: cs) = c :: lineOf cs := by simp [lineOf, hc, hnul]
          have hends : EndsWithin (k + 1) (c :: cs) ↔ EndsWithin k cs := by
            simp [EndsWithin, hline]
          rw [fgetsLine, if_neg hc, List.takeWhile_cons_of_pos (by simpa using hnul), ih, hline]
          simp only [hends]
          split <;> simp

theorem takeWhile_nul (xs ys : List Char) :
    (xs ++ nul :: ys).takeWhile (· ≠ nul) = xs.takeWhile (· ≠ nul) := by
  induction xs with
  | nil => simp
  | cons x xs ih =>
    rw [List.cons_append, List.takeWhile_cons, List.takeWhile_cons, ih]

/-- `char [n]` -/
structure Buffer (n : Nat) where
  cells : List Char
  size : cells.length = n
  deriving DecidableEq, Repr

namespace Buffer

variable {n : Nat}

/-- Static storage starts out zeroed. -/
def zeroed (n : Nat) : Buffer n := ⟨List.replicate n nul, List.length_replicate⟩

def store (b : Buffer n) (i : Nat) (c : Char) : Buffer n :=
  ⟨b.cells.set i c, by rw [List.length_set, b.size]⟩

/-- What the buffer holds when it is taken for a string. -/
def str (b : Buffer n) : Str := .startingAt b.cells

/-- One byte of `snprintf(b, n, "%s", src)`, the `k`-th, and the next one unless
this was the NUL at the end. -/
def snprintfByte (b : Buffer n) (src : Str) (k : Nat) : Buffer n × Option Nat :=
  match src.chars[k]? with
  | some c => if k + 1 < n then (b.store k c, some (k + 1)) else (b.store k nul, none)
  | none => (b.store k nul, none)

/-- A buffer whose last byte is a NUL is a string wherever one starts reading. -/
def Terminated (b : Buffer n) : Prop := b.cells.getLast? = some nul

theorem terminated_zeroed (h : 0 < n) : (zeroed n).Terminated := by
  obtain ⟨m, rfl⟩ := Nat.exists_eq_succ_of_ne_zero (Nat.ne_of_gt h)
  simp [Terminated, zeroed, List.getLast?_replicate]

theorem terminated_iff (b : Buffer n) : b.Terminated ↔ b.cells[n - 1]? = some nul := by
  rw [Terminated, List.getLast?_eq_getElem?, b.size]

/-- A store before the last byte leaves that one alone, and so does a NUL. -/
theorem Terminated.store {b : Buffer n} (h : b.Terminated) {i : Nat} {c : Char}
    (hi : i + 1 < n ∨ c = nul) : (b.store i c).Terminated := by
  rw [terminated_iff] at h ⊢
  rw [Buffer.store, List.getElem?_set]
  by_cases heq : i = n - 1
  · have hlt : n - 1 < b.cells.length := by
      obtain ⟨hlt, _⟩ := List.getElem?_eq_some_iff.mp h
      exact hlt
    obtain hi | rfl := hi
    · omega
    · simp [heq, hlt]
  · rw [if_neg heq]
    exact h

/-- No copy takes the end away from a buffer. -/
theorem Terminated.snprintfByte {b : Buffer n} (h : b.Terminated) (src : Str) (k : Nat) :
    (b.snprintfByte src k).1.Terminated := by
  unfold Buffer.snprintfByte
  split
  · split
    · rename_i hk
      exact h.store (.inl hk)
    · exact h.store (.inr rfl)
  · exact h.store (.inr rfl)

/-- The first `k` bytes of a copy have been made. -/
structure Copying (b : Buffer n) (src : Str) (k : Nat) : Prop where
  le : k ≤ src.strlen
  done : b.cells.take k = src.chars.take k

theorem Copying.start (b : Buffer n) (src : Str) : b.Copying src 0 :=
  ⟨Nat.zero_le _, by rw [List.take_zero, List.take_zero]⟩

theorem str_of_take {b : Buffer n} {src : Str} {k : Nat} (h : b.cells.take k = src.chars)
    (hk : b.cells[k]? = some nul) : b.str = src := by
  apply Str.ext_chars
  obtain ⟨hlt, hget⟩ := List.getElem?_eq_some_iff.mp hk
  have hsplit : b.cells = src.chars ++ nul :: b.cells.drop (k + 1) := by
    rw [← h, ← hget, ← List.drop_eq_getElem_cons hlt, List.take_append_drop]
  change b.cells.takeWhile (· ≠ nul) = src.chars
  rw [hsplit, List.takeWhile_append_of_pos]
  · simp
  · intro c hc
    have hne : c ≠ nul := fun heq => src.noNul (heq ▸ hc)
    simpa using hne

/-- A copy that fits goes on to its end, and then the buffer holds the string. -/
theorem Copying.next {b : Buffer n} {src : Str} {k : Nat} (h : b.Copying src k)
    (hfits : src.strlen < n) :
    (∃ b', b.snprintfByte src k = (b', some (k + 1)) ∧ b'.Copying src (k + 1)) ∨
      ∃ b', b.snprintfByte src k = (b', none) ∧ k = src.strlen ∧ b'.str = src := by
  have hk : k < b.cells.length := by
    have := h.le
    rw [b.size]
    omega
  have hbefore : ∀ c : Char, (b.cells.set k c).take k = src.chars.take k := by
    intro c
    rw [List.take_set_of_le (Nat.le_refl k)]
    exact h.done
  cases hc : src.chars[k]? with
  | some c =>
    obtain ⟨hlt, hget⟩ := List.getElem?_eq_some_iff.mp hc
    have hroom : k + 1 < n := by
      have : src.strlen = src.chars.length := rfl
      omega
    refine .inl ⟨b.store k c, by simp [Buffer.snprintfByte, hc, hroom], hlt, ?_⟩
    have hset : k < (b.cells.set k c).length := by simpa using hk
    change (b.cells.set k c).take (k + 1) = src.chars.take (k + 1)
    rw [List.take_succ_eq_append_getElem hset, List.take_succ_eq_append_getElem hlt, hbefore,
      List.getElem_set_self, hget]
  | none =>
    have hend : src.chars.length ≤ k := by simpa using hc
    refine .inr ⟨b.store k nul, by simp [Buffer.snprintfByte, hc], Nat.le_antisymm h.le hend, ?_⟩
    refine @str_of_take n (b.store k nul) src k ?_ ?_
    · change (b.cells.set k nul).take k = src.chars
      rw [hbefore, List.take_of_length_le hend]
    · change (b.cells.set k nul)[k]? = some nul
      rw [List.getElem?_set_self hk]

/-- Bytes stored one after another, from `i` on. -/
def storeAll (b : Buffer n) (i : Nat) : List Char → Buffer n
  | [] => b
  | c :: cs => (b.store i c).storeAll (i + 1) cs

theorem cells_storeAll {b : Buffer n} {i : Nat} {cs : List Char} (h : i + cs.length ≤ n) :
    (b.storeAll i cs).cells = b.cells.take i ++ cs ++ b.cells.drop (i + cs.length) := by
  induction cs generalizing b i with
  | nil => simp [storeAll]
  | cons c cs ih =>
    rw [List.length_cons] at h
    have hlt : i < b.cells.length := by
      rw [b.size]
      omega
    have hset : i < (b.cells.set i c).length := by simpa using hlt
    have htake : (b.cells.set i c).take (i + 1) = b.cells.take i ++ [c] := by
      rw [List.take_succ_eq_append_getElem hset, List.take_set_of_le (Nat.le_refl i),
        List.getElem_set_self]
    have hdrop : (b.cells.set i c).drop (i + 1 + cs.length) = b.cells.drop (i + 1 + cs.length) :=
      List.drop_set_of_lt (by omega)
    rw [storeAll, ih (by omega)]
    change (b.cells.set i c).take (i + 1) ++ cs ++ (b.cells.set i c).drop (i + 1 + cs.length) = _
    rw [htake, hdrop, List.length_cons, Nat.add_assoc i 1, Nat.add_comm 1]
    simp

/-- `fgets(b, n, stream)`; a stream that is at its end leaves the buffer alone. -/
def fgets (b : Buffer n) (stream : List Char) : Buffer n :=
  match fgetsLine (n - 1) stream with
  | [] => b
  | c :: cs => b.storeAll 0 (c :: cs ++ [nul])

/-- A buffer of zeros holds what was taken, as far as it is a string. -/
theorem str_fgets (stream : List Char) (hn : 0 < n) :
    ((zeroed n).fgets stream).str.chars = (fgetsLine (n - 1) stream).takeWhile (· ≠ nul) := by
  have hlen := fgetsLine_length (n - 1) stream
  rw [fgets]
  cases hline : fgetsLine (n - 1) stream with
  | nil =>
    obtain ⟨m, rfl⟩ := Nat.exists_eq_succ_of_ne_zero (Nat.ne_of_gt hn)
    simp [str, Str.startingAt, zeroed, List.replicate_succ]
  | cons c cs =>
    rw [hline] at hlen
    have hfits : 0 + (c :: cs ++ [nul]).length ≤ n := by
      rw [List.length_append, List.length_singleton]
      omega
    change (((zeroed n).storeAll 0 (c :: cs ++ [nul])).cells).takeWhile (· ≠ nul) = _
    rw [cells_storeAll hfits, List.take_zero, List.nil_append, List.append_assoc,
      List.singleton_append, takeWhile_nul]

/-- A NUL stored in a string cuts it short. -/
theorem str_store_nul {b : Buffer n} {i : Nat} (hi : i < b.str.strlen) :
    (b.store i nul).str.chars = b.str.chars.take i := by
  have hpre : b.str.chars <+: b.cells := List.takeWhile_prefix _
  have hlt : i < b.cells.length := Nat.lt_of_lt_of_le hi hpre.length_le
  have htake : b.cells.take i = b.str.chars.take i := by
    obtain ⟨rest, hrest⟩ := hpre
    rw [← hrest, List.take_append_of_le_length (Nat.le_of_lt hi)]
  have hstr : (b.store i nul).str = ⟨b.str.chars.take i, fun hmem =>
      b.str.noNul (List.mem_of_mem_take hmem)⟩ := by
    refine @str_of_take n (b.store i nul) _ i ?_ ?_
    · change (b.cells.set i nul).take i = b.str.chars.take i
      rw [List.take_set_of_le (Nat.le_refl i), htake]
    · change (b.cells.set i nul)[i]? = some nul
      rw [List.getElem?_set_self hlt]
  rw [hstr]

end Buffer

/-- `strncmp(s, t, n)`, a character past the end being the NUL. -/
def strncmp : Nat → List Char → List Char → Int
  | 0, _, _ => 0
  | _ + 1, [], [] => 0
  | _ + 1, [], d :: _ => -(d.toNat : Int)
  | _ + 1, c :: _, [] => c.toNat
  | n + 1, c :: s, d :: t =>
    if c = d then strncmp n s t else (c.toNat : Int) - d.toNat

end CText
