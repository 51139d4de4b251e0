import Mathlib.Tactic

/-!
# Circular buffers

A buffer of `size` slots is filled and emptied at positions that only ever grow; position `p` is
kept in slot `p % size`.  Two positions less than `size` apart are in different slots
(`ne_of_window`), so a code that only knows the slots of the head and of the tail knows how many
positions lie between them (`dist_mod`).

`loop` is the C loop `for (i = a; i != stop; i = (i + 1) % size)` with an early exit, and
`loop_rule` its induction: an invariant that mentions positions is carried over a loop that only
sees slots.

A ring shared by two parties has a flag in each slot: the one that fills a slot sets the flag, the
one that empties it clears the flag.  `Marked` says which positions the flags stand for.
-/

namespace Circular

variable {size p q a b : ℕ}

/-! ## Positions and slots -/

/-- How far slot `j` is ahead of slot `i`. -/
def dist (size i j : ℕ) : ℕ := (size + j - i) % size

/-- Two positions of one window that share a slot are equal. -/
lemma eq_of_window (ha : p ≤ a) (ha' : a < p + size) (hb : p ≤ b) (hb' : b < p + size)
    (h : a % size = b % size) : a = b := by
  rcases Nat.le_total a b with hab | hab
  · have hdvd := (Nat.modEq_iff_dvd' hab).mp h
    have := Nat.eq_zero_of_dvd_of_lt hdvd (by omega)
    omega
  · have hdvd := (Nat.modEq_iff_dvd' hab).mp h.symm
    have := Nat.eq_zero_of_dvd_of_lt hdvd (by omega)
    omega

lemma ne_of_window (hab : a < b) (hb : b < a + size) : a % size ≠ b % size := by
  intro h
  have := eq_of_window le_rfl (by omega) hab.le hb h
  omega

/-- The slots behind a slot, up to a lap. -/
lemma ne_add_mod {j : ℕ} (ha : a < size) (hj : 0 < j) (hlt : j < size) : a ≠ (a + j) % size := by
  have hne : a % size ≠ (a + j) % size := ne_of_window (by omega) (by omega)
  rwa [Nat.mod_eq_of_lt ha] at hne

/-- The distance between two slots is the distance between their positions. -/
lemma dist_mod (hpq : p ≤ q) (hq : q < p + size) : dist size (p % size) (q % size) = q - p := by
  have hpos : 0 < size := by omega
  have hp : p % size < size := Nat.mod_lt _ hpos
  have hcongr : size + q % size - p % size ≡ q - p [MOD size] := by
    refine Nat.ModEq.add_right_cancel' (p % size) ?_
    rw [Nat.sub_add_cancel (by omega)]
    calc size + q % size ≡ q [MOD size] := by
          simp [Nat.ModEq]
      _ = q - p + p := by omega
      _ ≡ q - p + p % size [MOD size] := Nat.ModEq.add_left _ (Nat.mod_modEq _ _).symm
  rw [dist, hcongr, Nat.mod_eq_of_lt (by omega)]

/-- Stepping a slot is stepping its position. -/
lemma mod_succ (p size : ℕ) : (p % size + 1) % size = (p + 1) % size := by
  simp [Nat.add_mod]

/-- The slots of two positions of one window compare as the positions do where both are on the same
lap of the ring, and only there. -/
lemma mod_le_mod_iff (ha : p ≤ a) (ha' : a < p + size) (hb : p ≤ b) (hb' : b < p + size) :
    ((a % size ≤ b % size) ↔ a ≤ b) ↔ a / size = b / size := by
  have hsize : 0 < size := by omega
  have hadiv := Nat.div_add_mod a size
  have hbdiv := Nat.div_add_mod b size
  have hamod := Nat.mod_lt a hsize
  have hbmod := Nat.mod_lt b hsize
  rcases Nat.lt_trichotomy (a / size) (b / size) with hlt | heq | hlt
  · have hmul : size * (a / size + 1) ≤ size * (b / size) := Nat.mul_le_mul_left _ hlt
    rw [Nat.mul_add, Nat.mul_one] at hmul
    omega
  · rw [heq] at hadiv
    omega
  · have hmul : size * (b / size + 1) ≤ size * (a / size) := Nat.mul_le_mul_left _ hlt
    rw [Nat.mul_add, Nat.mul_one] at hmul
    omega

/-- The slots of the `n` positions from `a` on. -/
def slots (size a n : ℕ) : List ℕ := (List.range' a n).map (· % size)

variable {n i : ℕ}

lemma mem_slots : i ∈ slots size a n ↔ ∃ k, a ≤ k ∧ k < a + n ∧ k % size = i := by
  simp [slots, List.mem_range'_1, and_assoc]

lemma slots_succ (size a n : ℕ) : slots size a (n + 1) = a % size :: slots size (a + 1) n := by
  simp [slots, List.range'_succ]

/-- The last of the slots, and the others. -/
lemma mem_slots_succ : i ∈ slots size a (n + 1) ↔ i ∈ slots size a n ∨ i = (a + n) % size := by
  simp only [mem_slots]
  constructor
  · rintro ⟨k, hk, hk', rfl⟩
    rcases Nat.lt_succ_iff_lt_or_eq.mp hk' with hlt | rfl
    · exact .inl ⟨k, hk, hlt, rfl⟩
    · exact .inr rfl
  · rintro (⟨k, hk, hk', rfl⟩ | rfl)
    · exact ⟨k, hk, by omega, rfl⟩
    · exact ⟨a + n, by omega, by omega, rfl⟩

/-- Counting from the slot of a position is counting from the position. -/
lemma slots_mod (size a n : ℕ) : slots size (a % size) n = slots size a n := by
  induction n generalizing a with
  | zero => rfl
  | succ n ih =>
      rw [slots_succ, slots_succ, Nat.mod_mod, ← ih, mod_succ, ih]

/-- Positions behind the window of the slots are in none of them. -/
lemma notMem_slots (hp : p < a) (ha : a + n ≤ p + size) : p % size ∉ slots size a n := by
  intro h
  obtain ⟨k, hk, hk', heq⟩ := mem_slots.mp h
  exact ne_of_window (by omega) (by omega) heq.symm

/-! ## Flags -/

section Flags

variable {flag flag' : ℕ → Prop}

/-- Of the `size` positions from `a` on, those before `b` have the flag of their slot set. -/
def Marked (size : ℕ) (flag : ℕ → Prop) (a b : ℕ) : Prop :=
  ∀ k, a ≤ k → k < a + size → (flag (k % size) ↔ k < b)

lemma Marked.congr (h : Marked size flag a b) (hflag : ∀ i < size, flag' i ↔ flag i) :
    Marked size flag' a b :=
  fun k hk hk' => (hflag _ (Nat.mod_lt _ (by omega))).trans (h k hk hk')

/-- The next position is filled. -/
lemma Marked.set (h : Marked size flag a b) (hab : a ≤ b) (hb : b < a + size)
    (hflag : ∀ i < size, flag' i ↔ i = b % size ∨ flag i) : Marked size flag' a (b + 1) := by
  intro k hk hk'
  rw [hflag _ (Nat.mod_lt _ (by omega)), h k hk hk']
  constructor
  · rintro (hmod | hlt)
    · exact (eq_of_window hk hk' hab hb hmod).le.trans_lt (Nat.lt_succ_self b)
    · omega
  · intro hlt
    rcases Nat.lt_succ_iff_lt_or_eq.mp hlt with hlt | rfl
    · exact Or.inr hlt
    · exact Or.inl rfl

/-- The first filled position is emptied. -/
lemma Marked.clear (h : Marked size flag a b) (hb : b ≤ a + size)
    (hflag : ∀ i < size, flag' i ↔ i ≠ a % size ∧ flag i) : Marked size flag' (a + 1) b := by
  intro k hk hk'
  rw [hflag _ (Nat.mod_lt _ (by omega))]
  by_cases hwrap : k = a + size
  · subst hwrap
    simp only [Nat.add_mod_right, ne_eq, not_true_eq_false, false_and, false_iff]
    omega
  · rw [h k (by omega) (by omega)]
    exact and_iff_right (ne_of_window (by omega) (by omega)).symm

end Flags

/-! ## The loop over the slots -/

section Loop

variable {σ : Type*} {f : ℕ → σ → Option σ} {s : σ}

/-- `for (i = a; i != stop; i = (i + 1) % size)` with at most `n` passes; where the body `f` gives
`none` it breaks.  The result is the final `i` and what the body computed. -/
def loop (size stop : ℕ) (f : ℕ → σ → Option σ) : ℕ → ℕ → σ → ℕ × σ
  | 0, i, s => (i, s)
  | n + 1, i, s =>
      if i = stop then (i, s)
      else
        match f i s with
        | none => (i, s)
        | some t => loop size stop f n ((i + 1) % size) t

/-- Where it starts at its end, it makes no pass. -/
lemma loop_stop (size stop : ℕ) (f : ℕ → σ → Option σ) (n : ℕ) (s : σ) :
    loop size stop f n stop s = (stop, s) := by
  cases n with
  | zero => rfl
  | succ n => rw [loop, if_pos rfl]

/-- **The rule of the loop.**  From position `p` to position `q`, with enough passes: what holds
at `p` and is kept by every pass holds at the position where the loop ends, and the loop ends at
`q` or at a `break`. -/
theorem loop_rule {P : ℕ → σ → Prop} {n : ℕ} (hpq : p ≤ q) (hq : q < p + size) (hn : q - p ≤ n)
    (hp : P p s)
    (hstep : ∀ k s t, p ≤ k → k < q → P k s → f (k % size) s = some t → P (k + 1) t) :
    ∃ k, p ≤ k ∧ k ≤ q ∧ (loop size (q % size) f n (p % size) s).1 = k % size ∧
      P k (loop size (q % size) f n (p % size) s).2 ∧
      (k = q ∨ f (k % size) (loop size (q % size) f n (p % size) s).2 = none) := by
  induction n generalizing p s with
  | zero => exact ⟨p, le_rfl, hpq, rfl, hp, .inl (by omega)⟩
  | succ n ih =>
      rcases Nat.eq_or_lt_of_le hpq with rfl | hlt
      · refine ⟨p, le_rfl, le_rfl, ?_, ?_, .inl rfl⟩
        · simp [loop]
        · simpa [loop] using hp
      · have hne : p % size ≠ q % size := ne_of_window hlt hq
        cases hb : f (p % size) s with
        | none =>
            refine ⟨p, le_rfl, hpq, ?_, ?_, .inr ?_⟩
            · simp [loop, hne, hb]
            · simpa [loop, hne, hb] using hp
            · simp [loop, hne, hb]
        | some t =>
            obtain ⟨k, hk, hkq, hi, hP, hend⟩ := ih (p := p + 1) (s := t) (by omega) (by omega)
              (by omega) (hstep p s t le_rfl hlt hp hb)
              (fun k s t hk => hstep k s t (by omega))
            have heq : loop size (q % size) f (n + 1) (p % size) s
                = loop size (q % size) f n ((p + 1) % size) t := by
              simp [loop, hne, hb]
            rw [heq]
            exact ⟨k, by omega, hkq, hi, hP, hend⟩

end Loop

end Circular
