import Mathlib.Tactic

/-!
# Byte memories

A memory is a function from addresses to bytes.  `write` puts a list of bytes at an address and
`read` takes some from one; `read16`, `read32` and `write32` are the little-endian accesses.

Two ranges that are `Apart` share no byte, and what is written in one is not seen in the other.
`Holds` says that a range holds the first bytes of a stream; it is what a copy loop that writes a
word in each pass keeps (`Holds.write_word`).  Clearing a word sets no other one
(`read32_write32_zero`).
-/

namespace ByteMemory

/-! ## Reading and writing -/

/-- The memory with the bytes `bs` from address `a` on. -/
def write (m : ℕ → UInt8) (a : ℕ) (bs : List UInt8) : ℕ → UInt8 :=
  fun x => if a ≤ x then bs[x - a]?.getD (m x) else m x

/-- The `n` bytes from address `a` on. -/
def read (m : ℕ → UInt8) (a n : ℕ) : List UInt8 := (List.range n).map fun i => m (a + i)

/-- The bytes of a 16-bit number. -/
def le16 (v : ℕ) : List UInt8 := [UInt8.ofNat v, UInt8.ofNat (v / 256)]

/-- The bytes of a 32-bit number. -/
def le32 (v : ℕ) : List UInt8 := le16 v ++ le16 (v / 65536)

def read16 (m : ℕ → UInt8) (a : ℕ) : ℕ := (m a).toNat + 256 * (m (a + 1)).toNat

def read32 (m : ℕ → UInt8) (a : ℕ) : ℕ := read16 m a + 65536 * read16 m (a + 2)

def write32 (m : ℕ → UInt8) (a v : ℕ) : ℕ → UInt8 := write m a (le32 v)

/-- The ranges of `n` bytes from `a` and of `k` bytes from `b` are disjoint. -/
def Apart (a n b k : ℕ) : Prop := a + n ≤ b ∨ b + k ≤ a

instance (a n b k : ℕ) : Decidable (Apart a n b k) := inferInstanceAs (Decidable (_ ∨ _))

variable {m : ℕ → UInt8} {a b n k v x : ℕ} {bs : List UInt8}

@[simp] lemma length_le32 (v : ℕ) : (le32 v).length = 4 := rfl

@[simp] lemma length_read (m : ℕ → UInt8) (a n : ℕ) : (read m a n).length = n := by
  simp [read]

lemma getElem_read {i : ℕ} (h : i < (read m a n).length) : (read m a n)[i] = m (a + i) := by
  simp [read]

lemma read_add (m : ℕ → UInt8) (a n k : ℕ) : read m a (n + k) = read m a n ++ read m (a + n) k := by
  simp only [read, List.range_add, List.map_append, List.map_map]
  refine congrArg _ (List.map_congr_left fun i _ => ?_)
  rw [Function.comp_apply, Nat.add_assoc]

lemma write_of_lt (h : x < a) : write m a bs x = m x := by
  rw [write, if_neg (by omega)]

lemma write_of_le (h : a + bs.length ≤ x) : write m a bs x = m x := by
  rw [write, if_pos (by omega), List.getElem?_eq_none (by omega), Option.getD_none]

lemma write_at {i : ℕ} (h : i < bs.length) : write m a bs (a + i) = bs[i] := by
  rw [write, if_pos (by omega), Nat.add_sub_cancel_left, List.getElem?_eq_getElem h,
    Option.getD_some]

lemma read_write (m : ℕ → UInt8) (a : ℕ) (bs : List UInt8) :
    read (write m a bs) a bs.length = bs := by
  refine List.ext_getElem (by simp) fun i hi hi' => ?_
  rw [getElem_read, write_at hi']

/-- Two writes in a row. -/
lemma write_append (m : ℕ → UInt8) (a : ℕ) (bs cs : List UInt8) :
    write (write m a bs) (a + bs.length) cs = write m a (bs ++ cs) := by
  funext x
  rcases Nat.lt_or_ge x (a + bs.length) with hlt | hge
  · rw [write_of_lt hlt]
    rcases Nat.lt_or_ge x a with hxa | hax
    · rw [write_of_lt hxa, write_of_lt hxa]
    · rw [write, write, if_pos hax, if_pos hax, List.getElem?_append_left (by omega)]
  · have hax : a ≤ x := by omega
    rw [write, write, write, if_pos hge, if_pos hax, if_pos hax,
      List.getElem?_eq_none (l := bs) (by omega), Option.getD_none,
      List.getElem?_append_right (by omega), Nat.sub_sub]

/-- A byte of a range that is apart from what is written. -/
lemma write_apart (h : Apart a bs.length b k) {i : ℕ} (hi : i < k) :
    write m a bs (b + i) = m (b + i) := by
  rcases h with h | h
  · exact write_of_le (by omega)
  · exact write_of_lt (by omega)

lemma read_write_apart (h : Apart a bs.length b n) : read (write m a bs) b n = read m b n :=
  List.map_congr_left fun _ hi => write_apart h (List.mem_range.mp hi)

/-- The first bytes of what was written. -/
lemma read_write_append (m : ℕ → UInt8) (a : ℕ) (bs cs : List UInt8) :
    read (write m a (bs ++ cs)) a bs.length = bs := by
  rw [← write_append, read_write_apart (Or.inr le_rfl), read_write]

lemma read16_write_apart (h : Apart a bs.length b 2) : read16 (write m a bs) b = read16 m b := by
  have h0 := write_apart (m := m) h (i := 0) (by omega)
  have h1 := write_apart (m := m) h (i := 1) (by omega)
  rw [Nat.add_zero] at h0
  rw [read16, read16, h0, h1]

lemma read32_write_apart (h : Apart a bs.length b 4) : read32 (write m a bs) b = read32 m b := by
  rw [read32, read32, read16_write_apart (by unfold Apart at *; omega),
    read16_write_apart (by unfold Apart at *; omega)]

lemma read32_write32 (m : ℕ → UInt8) (a : ℕ) (hv : v < 4294967296) :
    read32 (write32 m a v) a = v := by
  have hbyte : ∀ i (hi : i < 4), write32 m a v (a + i) = (le32 v)[i] := fun i hi => write_at hi
  have h0 := hbyte 0 (by omega)
  have h1 := hbyte 1 (by omega)
  have h2 := hbyte 2 (by omega)
  have h3 := hbyte 3 (by omega)
  rw [Nat.add_zero] at h0
  rw [read32, read16, read16, Nat.add_assoc a 2 1, h0, h1, h2, h3]
  simp only [le32, le16, List.cons_append, List.nil_append, List.getElem_cons_zero,
    List.getElem_cons_succ, UInt8.toNat_ofNat']
  omega

/-! ## Clearing a word -/

lemma read32_eq_zero_iff : read32 m a = 0 ↔ ∀ i < 4, m (a + i) = 0 := by
  constructor
  · intro h i hi
    rw [read32, read16, read16, Nat.add_assoc a 2 1, show 2 + 1 = 3 from rfl] at h
    have hbyte : (m (a + i)).toNat = 0 := by
      interval_cases i
      · rw [Nat.add_zero]
        omega
      · omega
      · omega
      · omega
    exact UInt8.toNat_inj.mp hbyte
  · intro h
    have h0 := h 0 (by omega)
    have h1 := h 1 (by omega)
    have h2 := h 2 (by omega)
    have h3 := h 3 (by omega)
    rw [Nat.add_zero] at h0
    rw [read32, read16, read16, Nat.add_assoc a 2 1, h0, h1, h2, h3]
    rfl

/-- Writing zeros sets no byte. -/
lemma write32_zero (m : ℕ → UInt8) (a x : ℕ) : write32 m a 0 x = m x ∨ write32 m a 0 x = 0 := by
  rw [write32]
  rcases Nat.lt_or_ge x a with hlt | hge
  · exact Or.inl (write_of_lt hlt)
  · obtain ⟨i, rfl⟩ := Nat.exists_eq_add_of_le hge
    rcases Nat.lt_or_ge i 4 with hi | hi
    · right
      rw [write_at (by rwa [length_le32])]
      interval_cases i <;> rfl
    · exact Or.inl (write_of_le (by rw [length_le32]; omega))

/-- A word that is clear stays so. -/
lemma read32_write32_zero (h : read32 m b = 0) (a : ℕ) : read32 (write32 m a 0) b = 0 := by
  rw [read32_eq_zero_iff] at *
  intro i hi
  rcases write32_zero m a (b + i) with hkeep | hzero
  · rw [hkeep, h i hi]
  · exact hzero

/-! ## Streams -/

/-- The range of `n` bytes from `a` holds the first bytes of the stream `s`. -/
def Holds (m : ℕ → UInt8) (a : ℕ) (s : ℕ → UInt8) (n : ℕ) : Prop := ∀ i < n, m (a + i) = s i

/-- Word `i` of the stream. -/
def word (s : ℕ → UInt8) (i : ℕ) : List UInt8 :=
  [s (4 * i), s (4 * i + 1), s (4 * i + 2), s (4 * i + 3)]

variable {s : ℕ → UInt8}

@[simp] lemma length_word (s : ℕ → UInt8) (i : ℕ) : (word s i).length = 4 := rfl

lemma holds_zero (m : ℕ → UInt8) (a : ℕ) (s : ℕ → UInt8) : Holds m a s 0 :=
  fun i hi => absurd hi (Nat.not_lt_zero i)

lemma Holds.mono (h : Holds m a s n) (hk : k ≤ n) : Holds m a s k :=
  fun i hi => h i (by omega)

lemma Holds.read_eq (h : Holds m a s n) : read m a n = (List.range n).map s :=
  List.map_congr_left fun i hi => h i (List.mem_range.mp hi)

lemma Holds.write_apart (h : Holds m a s n) (hab : Apart b bs.length a n) :
    Holds (write m b bs) a s n :=
  fun i hi => (ByteMemory.write_apart hab hi).trans (h i hi)

/-- **One pass of a copy loop.** -/
lemma Holds.write_word {i : ℕ} (h : Holds m a s (4 * i)) :
    Holds (write m (a + 4 * i) (word s i)) a s (4 * (i + 1)) := by
  intro j hj
  by_cases hlt : j < 4 * i
  · rw [write_of_lt (by omega), h j hlt]
  · obtain ⟨r, rfl⟩ := Nat.exists_eq_add_of_le (Nat.le_of_not_lt hlt)
    have hr : r < 4 := by omega
    have hlen : r < (word s i).length := hr
    rw [← Nat.add_assoc, write_at hlen]
    interval_cases r <;> rfl

end ByteMemory
