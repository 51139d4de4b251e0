import Mathlib.Tactic

/-!
# Fields behind a presence word

A header of this kind starts with a word whose bits say which fields follow.  The fields are in the
order of their bits, each at an offset that its alignment divides; the size of a field may depend on
what it says itself.  `layout` writes such fields, and `parse` is a reader with a table of the
fields that it knows.

`parse_layout` is the round trip: the reader gets every field back, and is left with what follows
them.
-/

namespace FieldTable

/-- A kind of field: its bit, its alignment, and how much of what follows it takes. -/
structure Field where
  bit : ℕ
  align : ℕ
  size : List UInt8 → ℕ

/-- What is missing to the next multiple of `align`. -/
def pad (align off : ℕ) : ℕ := (align - off % align) % align

/-- A field starts where its alignment says. -/
lemma dvd_add_pad {align : ℕ} (halign : 0 < align) (off : ℕ) : align ∣ off + pad align off := by
  have hlt : off % align < align := Nat.mod_lt _ halign
  rw [Nat.dvd_iff_mod_eq_zero, Nat.add_mod, pad]
  by_cases hzero : off % align = 0
  · rw [hzero, Nat.sub_zero, Nat.mod_self, Nat.zero_mod, Nat.add_zero, Nat.zero_mod]
  · rw [Nat.mod_mod, Nat.mod_eq_of_lt (by omega : align - off % align < align),
      Nat.add_sub_cancel' hlt.le, Nat.mod_self]

/-- The fields from the offset `off` on, with zeros in between. -/
def layout : ℕ → List (Field × List UInt8) → List UInt8
  | _, [] => []
  | off, (f, v) :: fs =>
      List.replicate (pad f.align off) 0 ++ (v ++ layout (off + pad f.align off + v.length) fs)

/-- A reader: the fields that are present, by their bits, and what is left. -/
def parse (present : ℕ → Bool) :
    List Field → ℕ → List UInt8 → Option (List (ℕ × List UInt8) × List UInt8)
  | [], _, bs => some ([], bs)
  | f :: table, off, bs =>
      if present f.bit then
        let k := pad f.align off
        let n := f.size (bs.drop k)
        if bs.length < k + n then none
        else (parse present table (off + k + n) ((bs.drop k).drop n)).map fun p =>
          ((f.bit, (bs.drop k).take n) :: p.1, p.2)
      else parse present table off bs

/-- The content is of the size that the field says it has. -/
def Fills (f : Field) (v : List UInt8) : Prop := ∀ rest, f.size (v ++ rest) = v.length

variable {present : ℕ → Bool} {table : List Field} {fs : List (Field × List UInt8)}

lemma parse_skip {f : Field} (hf : present f.bit = false) (off : ℕ) (bs : List UInt8) :
    parse present (f :: table) off bs = parse present table off bs := by
  rw [parse, if_neg (by rw [hf]; exact Bool.false_ne_true)]

/-- One field is read. -/
lemma parse_field {f : Field} {v : List UInt8} (hf : present f.bit = true) (hfills : Fills f v)
    (off : ℕ) (bs : List UInt8) :
    parse present (f :: table) off (List.replicate (pad f.align off) 0 ++ (v ++ bs))
      = (parse present table (off + pad f.align off + v.length) bs).map fun p =>
          ((f.bit, v) :: p.1, p.2) := by
  have hdrop : (List.replicate (pad f.align off) (0 : UInt8) ++ (v ++ bs)).drop (pad f.align off)
      = v ++ bs := by
    rw [List.drop_append_of_le_length (by simp), List.drop_of_length_le (by simp), List.nil_append]
  rw [parse, if_pos hf]
  simp only [hdrop, hfills bs, List.drop_left, List.take_left]
  rw [if_neg (by simp only [List.length_append, List.length_replicate]; omega)]

/-- **Round trip.**  A reader whose table has the fields, in their order, reads them all. -/
theorem parse_layout (hfs : fs.map Prod.fst = table.filter fun f => present f.bit)
    (hfills : ∀ p ∈ fs, Fills p.1 p.2) (off : ℕ) (rest : List UInt8) :
    parse present table off (layout off fs ++ rest)
      = some (fs.map fun p => (p.1.bit, p.2), rest) := by
  induction table generalizing fs off with
  | nil =>
      rw [List.filter_nil, List.map_eq_nil_iff] at hfs
      subst hfs
      rfl
  | cons f table ih =>
      by_cases hf : present f.bit = true
      · rw [List.filter_cons, if_pos hf] at hfs
        obtain ⟨⟨g, v⟩, fs', rfl, rfl, hfs'⟩ := List.map_eq_cons_iff.mp hfs
        have hrest := ih hfs' (fun p hp => hfills p (List.mem_cons_of_mem _ hp))
          (off + pad g.align off + v.length)
        rw [layout, List.append_assoc, List.append_assoc,
          parse_field hf (hfills _ List.mem_cons_self), hrest]
        rfl
      · rw [List.filter_cons, if_neg hf] at hfs
        rw [parse_skip (Bool.eq_false_iff.mpr hf)]
        exact ih hfs hfills off

end FieldTable
