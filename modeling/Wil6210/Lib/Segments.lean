import Mathlib.Tactic
import Mathlib.Data.List.SplitBy

/-!
# Cutting blocks into segments

Blocks of bytes follow one another from position 0 on, and every `mss` bytes a segment ends.  A block
is cut where a segment ends, so that no piece belongs to two segments.

`room` is what is left of a segment at a position, and `spans` how many pieces a block is cut into;
`spans_of_le` and `spans_of_gt` are the two steps of the cutting.  `cuts` are the pieces themselves,
each the part of the block that is in one segment, and `cuts_cut` takes off the first of them.

Pieces come as one list; a mark on the last piece of each segment says where the segments end.
`splitBy_flatten_of_marked` reads the segments off the marks.
-/

namespace Segments

variable {mss p n : ℕ}

/-! ## Pieces -/

/-- The bytes left in the segment of position `p`. -/
def room (mss p : ℕ) : ℕ := mss - p % mss

/-- The segments that a block of `n` bytes at position `p` has a piece of. -/
def spans (mss p n : ℕ) : ℕ := if n = 0 then 0 else (p + n - 1) / mss - p / mss + 1

@[simp] lemma spans_zero (mss p : ℕ) : spans mss p 0 = 0 := rfl

lemma room_pos (hmss : 0 < mss) (p : ℕ) : 0 < room mss p := by
  have := Nat.mod_lt p hmss
  rw [room]
  omega

lemma room_le (mss p : ℕ) : room mss p ≤ mss := Nat.sub_le _ _

@[simp] lemma room_zero (mss : ℕ) : room mss 0 = mss := by
  simp [room]

/-- The end of the segment of `p`. -/
lemma add_room (hmss : 0 < mss) (p : ℕ) : p + room mss p = mss * (p / mss + 1) := by
  have hdiv := Nat.div_add_mod p mss
  have hmod := Nat.mod_lt p hmss
  rw [room, Nat.mul_add, Nat.mul_one]
  omega

/-- At the end of a segment the next one begins. -/
lemma room_add_room (hmss : 0 < mss) (p : ℕ) : room mss (p + room mss p) = mss := by
  rw [room, add_room hmss, Nat.mul_mod_right, Nat.sub_zero]

/-- Inside of a segment. -/
lemma room_add (h : n < room mss p) : room mss (p + n) = room mss p - n := by
  rw [room] at h
  have hmod : (p + n) % mss = p % mss + n := by
    rw [Nat.add_mod, Nat.mod_eq_of_lt (a := n) (by omega), Nat.mod_eq_of_lt (by omega)]
  rw [room, hmod, room]
  omega

/-- The segment of a position, in which so many bytes are before it. -/
lemma div_add_room (hmss : 0 < mss) (p : ℕ) : (p + room mss p) / mss = p / mss + 1 := by
  rw [add_room hmss, Nat.mul_div_cancel_left _ hmss]

/-- A block that fits in the segment stays in one piece. -/
lemma spans_of_le (hmss : 0 < mss) (hn : 0 < n) (h : n ≤ room mss p) : spans mss p n = 1 := by
  have hdiv := Nat.div_add_mod p mss
  have hmod := Nat.mod_lt p hmss
  rw [room] at h
  have hlast : (p + n - 1) / mss = p / mss := by
    have hsplit : p + n - 1 = mss * (p / mss) + (p % mss + n - 1) := by omega
    have hsmall : (p % mss + n - 1) / mss = 0 := Nat.div_eq_of_lt (by omega)
    rw [hsplit, Nat.mul_add_div hmss, hsmall, Nat.add_zero]
  rw [spans, if_neg (by omega), hlast, Nat.sub_self]

/-- A block that does not fit is cut. -/
lemma spans_of_gt (hmss : 0 < mss) (h : room mss p < n) :
    spans mss p n = 1 + spans mss (p + room mss p) (n - room mss p) := by
  have hnext := div_add_room hmss p
  have hle : (p + room mss p) / mss ≤ (p + n - 1) / mss := Nat.div_le_div_right (by omega)
  have hend : p + room mss p + (n - room mss p) - 1 = p + n - 1 := by omega
  rw [spans, spans, if_neg (by omega), if_neg (by omega), hend]
  omega

/-- **One cut**: the first piece of a block is what of it fits in the segment. -/
lemma spans_cut (hmss : 0 < mss) (hn : 0 < n) : spans mss p n
    = 1 + spans mss (p + min n (room mss p)) (n - min n (room mss p)) := by
  rcases Nat.lt_or_ge (room mss p) n with hcut | hfits
  · rw [Nat.min_eq_right hcut.le, spans_of_gt hmss hcut]
  · rw [Nat.min_eq_left hfits, spans_of_le hmss hn hfits, Nat.sub_self, spans_zero]

/-- The pieces of a block of `n` bytes at position `p`, each with its position and its length: what of
the block is in the segment of `p`, in the one behind it, and so on. -/
def cuts (mss p n : ℕ) : List (ℕ × ℕ) :=
  (List.range (spans mss p n)).map fun k =>
    (max p (mss * (p / mss + k)),
      min (p + n) (mss * (p / mss + k + 1)) - max p (mss * (p / mss + k)))

@[simp] lemma cuts_zero (mss p : ℕ) : cuts mss p 0 = [] := rfl

/-- **One cut**, of the pieces. -/
lemma cuts_cut (hmss : 0 < mss) (hn : 0 < n) : cuts mss p n = (p, min n (room mss p))
    :: cuts mss (p + min n (room mss p)) (n - min n (room mss p)) := by
  have hbegin : mss * (p / mss) ≤ p := Nat.mul_div_le p mss
  have hend := add_room hmss p
  have hfirst : (max p (mss * (p / mss + 0)),
      min (p + n) (mss * (p / mss + 0 + 1)) - max p (mss * (p / mss + 0)))
        = (p, min n (room mss p)) := by
    rw [Nat.add_zero, ← hend, Nat.max_eq_left hbegin, Nat.add_min_add_left, Nat.add_sub_cancel_left]
  rw [cuts, spans_cut hmss hn, Nat.add_comm 1, List.range_succ_eq_map, List.map_cons, hfirst,
    List.map_map, cuts]
  congr 1
  rcases Nat.lt_or_ge (room mss p) n with hcut | hfits
  · refine List.map_congr_left fun k _ => ?_
    have hnext := div_add_room hmss p
    have hle : p + room mss p ≤ mss * (p / mss + 1 + k) := by
      rw [hend]
      exact Nat.mul_le_mul_left _ (by omega)
    rw [Nat.min_eq_right hcut.le, hnext, show p + room mss p + (n - room mss p) = p + n by omega,
      Function.comp_apply, show p / mss + Nat.succ k = p / mss + 1 + k by omega,
      Nat.max_eq_right hle, Nat.max_eq_right ((Nat.le_add_right _ _).trans hle)]
  · rw [Nat.min_eq_left hfits, Nat.sub_self, spans_zero, List.range_zero, List.map_nil, List.map_nil]

/-- What one cut leaves of a segment. -/
lemma room_cut (hmss : 0 < mss) : room mss (p + min n (room mss p))
    = if n < room mss p then room mss p - n else mss := by
  split_ifs with h
  · rw [Nat.min_eq_left h.le, room_add h]
  · rw [Nat.min_eq_right (Nat.not_lt.mp h), room_add_room hmss]

/-- The pieces of all blocks, which follow one another from position `p` on. -/
def spansAll (mss : ℕ) : ℕ → List ℕ → ℕ
  | _, [] => 0
  | p, n :: ns => spans mss p n + spansAll mss (p + n) ns

/-! ## Marks -/

section Marks

variable {α : Type*} {mark : α → Bool} {l : List α}

/-- Of the pieces of a segment the last one is marked, and no other. -/
def Marked (mark : α → Bool) (l : List α) : Prop :=
  l ≠ [] ∧ ∀ (i : ℕ) (h : i < l.length), mark l[i] = true ↔ i + 1 = l.length

/-- **The marks say where the segments end.** -/
theorem splitBy_flatten_of_marked {ls : List (List α)} (h : ∀ l ∈ ls, Marked mark l) :
    ls.flatten.splitBy (fun a _ => !mark a) = ls := by
  refine List.splitBy_flatten (fun hnil => (h [] hnil).1 rfl) (fun l hl => ?_) ?_
  · rw [List.isChain_iff_getElem]
    intro i hi
    have hmark := (h l hl).2 i (by omega)
    rw [Bool.not_eq_true', ← Bool.not_eq_true, hmark]
    omega
  · rw [List.isChain_iff_getElem]
    intro i hi
    obtain ⟨hne, hmark⟩ := h ls[i] (List.getElem_mem _)
    obtain ⟨hne', -⟩ := h ls[i + 1] (List.getElem_mem _)
    have hpos := List.length_pos_iff.mpr hne
    refine ⟨hne, hne', ?_⟩
    rw [Bool.not_eq_false', List.getLast_eq_getElem]
    exact (hmark _ (by omega)).mpr (by omega)

end Marks

end Segments
