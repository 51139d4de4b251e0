import Wil6210.Lib.Memory

/-!
# Programs that read a message

A message of `n` bytes lies at the start of a memory that goes on behind it.  A `Parse` reads ranges
of the memory and goes on with the bytes that it gets; nothing stops it from reading behind the
message.  `Within n m` says that on the memory `m` it does not.

A program that stays within the message does the same wherever the message lies (`run_congr`), and
whether it does depends on the message alone (`within_congr`).
-/

namespace ByteMemory

/-- The number with these bytes, the lowest first. -/
def leNat : List UInt8 → ℕ
  | [] => 0
  | b :: bs => b.toNat + 256 * leNat bs

/-- A field of a message. -/
def field (m : ℕ → UInt8) (start size : ℕ) : ℕ := leNat (read m start size)

lemma leNat_lt : ∀ bs : List UInt8, leNat bs < 256 ^ bs.length
  | [] => Nat.one_pos
  | b :: bs => by
      have hb := b.toNat_lt
      have hbs := leNat_lt bs
      rw [leNat, List.length_cons, pow_succ]
      omega

lemma field_lt (m : ℕ → UInt8) (start size : ℕ) : field m start size < 256 ^ size := by
  have h := leNat_lt (read m start size)
  rwa [length_read] at h

lemma read_congr {m m' : ℕ → UInt8} {a n : ℕ} (h : ∀ i, a ≤ i → i < a + n → m i = m' i) :
    read m a n = read m' a n :=
  List.map_congr_left fun i hi => h (a + i) (by omega) (by have := List.mem_range.mp hi; omega)

end ByteMemory

/-- A range of addresses. -/
structure Extent where
  start : ℕ
  size : ℕ
  deriving DecidableEq, Repr

/-- Every byte of the range is among the first `n`. -/
def Extent.In (x : Extent) (n : ℕ) : Prop := ∀ i, x.start ≤ i → i < x.start + x.size → i < n

lemma Extent.in_iff {x : Extent} {n : ℕ} : x.In n ↔ x.size = 0 ∨ x.start + x.size ≤ n := by
  constructor
  · intro h
    by_cases hsize : x.size = 0
    · exact .inl hsize
    · have hlast := h (x.start + x.size - 1) (by omega) (by omega)
      exact .inr (by omega)
  · intro h i hi hi'
    rcases h with h | h <;> omega

/-- A program that reads ranges of a memory. -/
inductive Parse (α : Type)
  | done (a : α)
  | read (x : Extent) (k : List UInt8 → Parse α)

namespace Parse

open ByteMemory (leNat)

variable {α β : Type}

/-! ## Programs -/

/-- Go on with the result. -/
def bind : Parse α → (α → Parse β) → Parse β
  | done a, f => f a
  | read x k, f => read x fun bs => (k bs).bind f

instance : Monad Parse where
  pure := done
  bind := bind

/-- The number in a field. -/
def num (start size : ℕ) : Parse ℕ := read ⟨start, size⟩ fun bs => done (leNat bs)

/-- The bytes of a field. -/
def bytes (start size : ℕ) : Parse (List UInt8) := read ⟨start, size⟩ done

/-- Fields that are only shown. -/
def touch : List Extent → Parse Unit
  | [] => done ()
  | x :: xs => read x fun _ => touch xs

/-- The program for a message that begins at address `a`. -/
def shift (a : ℕ) : Parse α → Parse α
  | done b => done b
  | read x k => read ⟨a + x.start, x.size⟩ fun bs => (k bs).shift a

/-- The result on a memory. -/
def run (m : ℕ → UInt8) : Parse α → α
  | done a => a
  | read x k => (k (ByteMemory.read m x.start x.size)).run m

/-- On this memory, all that is read is among the first `n` bytes. -/
def Within (n : ℕ) (m : ℕ → UInt8) : Parse α → Prop
  | done _ => True
  | read x k => x.In n ∧ (k (ByteMemory.read m x.start x.size)).Within n m

/-! ## Their rules -/

variable {n a start size : ℕ} {m m' : ℕ → UInt8} {p q : Parse α} {f : α → Parse β}

@[simp] lemma within_pure (x : α) : (pure x : Parse α).Within n m := trivial

lemma within_bind : (p >>= f).Within n m ↔ p.Within n m ∧ (f (p.run m)).Within n m := by
  change (p.bind f).Within n m ↔ _
  induction p with
  | done a => exact (iff_of_eq (true_and _)).symm
  | read x k ih =>
      change x.In n ∧ _ ↔ (x.In n ∧ _) ∧ _
      rw [ih, and_assoc]
      rfl

@[simp] lemma within_num_bind {f : ℕ → Parse β} : (num start size >>= f).Within n m ↔
    Extent.In ⟨start, size⟩ n ∧ (f (ByteMemory.field m start size)).Within n m := Iff.rfl

@[simp] lemma within_bytes_bind {f : List UInt8 → Parse β} : (bytes start size >>= f).Within n m ↔
    Extent.In ⟨start, size⟩ n ∧ (f (ByteMemory.read m start size)).Within n m := Iff.rfl

@[simp] lemma within_touch_nil {f : Unit → Parse β} :
    (touch [] >>= f).Within n m ↔ (f ()).Within n m := Iff.rfl

@[simp] lemma within_touch_cons {x : Extent} {xs : List Extent} {f : Unit → Parse β} :
    (touch (x :: xs) >>= f).Within n m ↔ x.In n ∧ (touch xs >>= f).Within n m := Iff.rfl

@[simp] lemma within_ite {c : Prop} [Decidable c] :
    (if c then p else q).Within n m ↔ if c then p.Within n m else q.Within n m := by
  split_ifs <;> rfl

/-- A message behind `a` bytes. -/
lemma within_shift (h : a ≤ n) :
    (p.shift a).Within n m ↔ p.Within (n - a) fun i => m (a + i) := by
  induction p with
  | done b => exact Iff.rfl
  | read x k ih =>
      have hread : ByteMemory.read m (a + x.start) x.size
          = ByteMemory.read (fun i => m (a + i)) x.start x.size :=
        List.map_congr_left fun i _ => congrArg m (Nat.add_assoc a x.start i)
      simp only [shift, Within, hread, ih, Extent.in_iff]
      refine and_congr_left fun _ => ?_
      omega

/-! ## The message alone -/

/-- **Whether a program stays within the message depends on the message alone.** -/
theorem within_congr (h : ∀ i < n, m i = m' i) : p.Within n m ↔ p.Within n m' := by
  induction p with
  | done a => exact Iff.rfl
  | read x k ih =>
      refine and_congr_right fun hx => ?_
      rw [ByteMemory.read_congr fun i hi hi' => h i (hx i hi hi')]
      exact ih _

/-- **So does what it computes, if it does.** -/
theorem run_congr (hp : p.Within n m) (h : ∀ i < n, m i = m' i) : p.run m = p.run m' := by
  induction p with
  | done a => rfl
  | read x k ih =>
      obtain ⟨hx, hk⟩ := hp
      have hread := ByteMemory.read_congr (a := x.start) (n := x.size)
        fun i hi hi' => h i (hx i hi hi')
      rw [hread] at hk
      simp only [run, hread]
      exact ih _ hk

end Parse
