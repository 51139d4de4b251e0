import Mathlib.Tactic

/-!
# Circular logs

A log is written at positions that only ever grow; the entry of position `p` is kept in `slot p`, and
overwrites what was there.  `Stores` says that entries lie in the memory from a position on.

Where `n` positions in a row are in `n` different slots, the last `n` entries of a log lie in the
memory at any time (`Kept.push`), however much was written before.
-/

namespace CircularLog

variable {α ι : Type*} (slot : ℕ → ι) {mem : ι → α} {p n : ℕ} {xs ys : List α} {x : α}

/-! ## Entries in the memory -/

/-- The entries lie in the memory from position `p` on. -/
def Stores (mem : ι → α) : ℕ → List α → Prop
  | _, [] => True
  | p, x :: xs => mem (slot p) = x ∧ Stores mem (p + 1) xs

variable {slot}

lemma stores_append :
    Stores slot mem p (xs ++ ys) ↔ Stores slot mem p xs ∧ Stores slot mem (p + xs.length) ys := by
  induction xs generalizing p with
  | nil => simp [Stores]
  | cons x xs ih =>
      have hpos : p + 1 + xs.length = p + (xs.length + 1) := by omega
      rw [List.cons_append, Stores, Stores, ih, List.length_cons, hpos, and_assoc]

/-- The entries without the first `k`. -/
lemma Stores.drop (h : Stores slot mem p xs) {k : ℕ} (hk : k ≤ xs.length) :
    Stores slot mem (p + k) (xs.drop k) := by
  have hsplit : Stores slot mem p (xs.take k ++ xs.drop k) := by
    rw [List.take_append_drop]
    exact h
  have hrest := (stores_append.mp hsplit).2
  rwa [List.length_take, Nat.min_eq_left hk] at hrest

/-- An entry is found in its slot. -/
lemma Stores.get (h : Stores slot mem p xs) {k : ℕ} (hk : k < xs.length) :
    mem (slot (p + k)) = xs[k] := by
  induction xs generalizing p k with
  | nil => exact absurd hk (Nat.not_lt_zero k)
  | cons x xs ih =>
      cases k with
      | zero => exact h.1
      | succ k =>
          have hpos : p + (k + 1) = p + 1 + k := by omega
          rw [hpos, List.getElem_cons_succ]
          exact ih h.2 (Nat.lt_of_succ_lt_succ hk)

variable (slot n) in
/-- **The last `n` entries of the log are in the memory.** -/
def Kept (mem : ι → α) (log : List α) : Prop :=
  Stores slot mem (log.length - n) (log.drop (log.length - n))

variable {log : List α}

lemma kept_nil (mem : ι → α) : Kept slot n mem [] := by
  simp [Kept, Stores]

/-- What is among the last `n` entries is read back. -/
lemma Kept.stores (h : Kept slot n mem log) {k : ℕ} (hk : k ≤ log.length)
    (hlast : log.length ≤ k + n) : Stores slot mem k (log.drop k) := by
  have hback : log.length - n ≤ k := by omega
  have hrest := Stores.drop h (k := k - (log.length - n)) (by
    rw [List.length_drop]
    omega)
  rwa [List.drop_drop, Nat.add_sub_cancel' hback] at hrest

/-! ## Writing -/

section Write

variable [DecidableEq ι]

/-- A write leaves the entries that are in other slots. -/
lemma Stores.update (h : Stores slot mem p xs) {q : ℕ}
    (hne : ∀ k < xs.length, slot (p + k) ≠ slot q) :
    Stores slot (Function.update mem (slot q) x) p xs := by
  induction xs generalizing p with
  | nil => trivial
  | cons y xs ih =>
      refine ⟨?_, ih h.2 fun k hk => ?_⟩
      · have hfirst : slot p ≠ slot q := hne 0 (Nat.succ_pos _)
        rw [Function.update_of_ne hfirst]
        exact h.1
      · have hpos : p + 1 + k = p + (k + 1) := by omega
        rw [hpos]
        exact hne (k + 1) (Nat.succ_lt_succ hk)

variable (slot n) in
/-- `n` positions in a row are in `n` slots. -/
def Apart : Prop := ∀ a b, a < b → b < a + n → slot a ≠ slot b

/-- One entry is written over the one that is `n` positions behind. -/
lemma Kept.push (hapart : Apart slot n) (hn : 0 < n) (h : Kept slot n mem log) (x : α) :
    Kept slot n (Function.update mem (slot log.length) x) (log ++ [x]) := by
  have hlen : (log ++ [x]).length - n ≤ log.length := by
    rw [List.length_append, List.length_singleton]
    omega
  have hback : log.length - n ≤ (log ++ [x]).length - n :=
    Nat.sub_le_sub_right (by simp) n
  rw [Kept, List.drop_append_of_le_length hlen, stores_append]
  refine ⟨?_, ?_, trivial⟩
  · have hold := Stores.drop h (k := (log ++ [x]).length - n - (log.length - n)) (by
      rw [List.length_drop]
      omega)
    rw [List.drop_drop, Nat.add_sub_cancel' hback] at hold
    refine hold.update fun k hk => hapart _ _ ?_ ?_ <;>
      rw [List.length_drop] at hk <;> rw [List.length_append, List.length_singleton] at *
    · omega
    · omega
  · have hpos : (log ++ [x]).length - n + (log.drop ((log ++ [x]).length - n)).length
        = log.length := by
      rw [List.length_drop]
      omega
    rw [hpos, Function.update_self]

end Write

end CircularLog
