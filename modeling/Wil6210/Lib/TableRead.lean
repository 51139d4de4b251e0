import Wil6210.Lib.Machine

/-!
# Reading a table entry by entry while it changes

A reader asks for the entries of a table one after the other, until it is told that there are no
more.  Each answer takes a while, and comes with a generation.  A writer makes the generation larger
before it writes, and may write more than once.  `Sys` is the table with one such reading.

Two things can be said of what was read, where no question came while a write was open (`Settled`).
Where the generation at the first question is the one that holds in the end, what was read is the
table (`Exact`).  The reader does not see these two; where it sees the same generation with each
answer, what it read is behind the first entry as it was in the table at the last answer (`Tail`).
`sound_run` is both.
-/

namespace TableRead

variable {V : Type*}

inductive Phase (V : Type*)
  | idle
  /-- The answer will be about this entry. -/
  | asking (v : V)
  /-- There are no more entries. -/
  | ended
  | failed
  deriving DecidableEq

structure Sys (V : Type*) where
  table : List V
  gen : ℕ
  /-- A writer made the generation larger, and has not written all. -/
  writing : Bool
  phase : Phase V
  /-- what was read, each with the generation that came with it -/
  got : List (V × ℕ)
  /-- the generation at the first question -/
  first : ℕ
  /-- the table at the last answer -/
  last : List V

inductive Op (V : Type*)
  /-- A writer makes the generation larger. -/
  | count (gen : ℕ)
  /-- It writes, and may have more to write. -/
  | write (table : List V) (more : Bool)
  | ask
  | answer
  | fail

/-- What a question is told: the answer will be about an entry, or there is none. -/
def Phase.ofEntry : Option V → Phase V
  | some v => .asking v
  | none => .ended

/-- One step. -/
def step (s : Sys V) : Op V → Option (Sys V)
  | .count gen =>
      if s.writing = false ∧ s.gen < gen then some { s with gen := gen, writing := true } else none
  | .write table more =>
      if s.writing then some { s with table := table, writing := more } else none
  | .ask =>
      match s.phase with
      | .idle => some { s with
          first := if s.got.isEmpty then s.gen else s.first
          phase := .ofEntry s.table[s.got.length]? }
      | _ => none
  | .answer =>
      match s.phase with
      | .asking v => some { s with
          phase := .idle
          got := s.got ++ [(v, s.gen)]
          last := s.table }
      | _ => none
  | .fail =>
      match s.phase with
      | .asking _ => some { s with phase := .failed }
      | _ => none

/-- No question comes while a write is open. -/
def Settled (s : Sys V) : Op V → Prop
  | .ask => s.writing = false
  | _ => True

def init (table : List V) (gen : ℕ) (writing : Bool) : Sys V :=
  ⟨table, gen, writing, .idle, [], gen, []⟩

namespace Sys

/-- The entries that were read. -/
def entries (s : Sys V) : List V := s.got.map Prod.fst

/-- The reading has begun. -/
def Begun (s : Sys V) : Prop := s.got ≠ [] ∨ s.phase ≠ .idle

/-- **What was read is as in the table**, and so is what is being asked for. -/
structure Exact (s : Sys V) : Prop where
  closed : s.writing = false
  entries : s.entries = s.table.take s.got.length
  asking : ∀ v, s.phase = .asking v → s.table[s.got.length]? = some v
  ended : s.phase = .ended → s.table.length ≤ s.got.length

/-- **What was read behind the first entry is as in the table at the last answer**, which is the
table as long as the generation is `g`.  A write may be open at the first answer; it is not at the
second question. -/
structure Tail (s : Sys V) (g : ℕ) : Prop where
  entries : s.entries.drop 1 = (s.last.drop 1).take (s.got.length - 1)
  le : g ≤ s.gen
  closed : s.gen = g → 1 < s.got.length ∨ s.phase ≠ .idle → s.writing = false
  table : s.gen = g → 1 < s.got.length → s.table = s.last
  asking : s.gen = g → ∀ v, s.phase = .asking v → s.table[s.got.length]? = some v

end Sys

/-- **What is so at any time of a reading.** -/
structure Sound (s : Sys V) : Prop where
  first : s.Begun → s.first ≤ s.gen
  exact : s.Begun → s.gen = s.first → s.Exact
  tail : ∀ g, s.got ≠ [] → (∀ p ∈ s.got, p.2 = g) → s.Tail g

lemma sound_init (table : List V) (gen : ℕ) (writing : Bool) :
    Sound (init table gen writing) := by
  have hno : ¬ (init table gen writing).Begun := fun h => h.elim (· rfl) (· rfl)
  exact ⟨fun h => absurd h hno, fun h => absurd h hno, fun _ h => absurd rfl h⟩

section Steps

variable {s : Sys V} {v : V}

lemma eq_of_ofEntry {o : Option V} (h : Phase.ofEntry o = .asking v) : o = some v := by
  cases o with
  | none => exact nomatch h
  | some w => rw [Phase.asking.inj h]

lemma eq_none_of_ofEntry {o : Option V} (h : Phase.ofEntry o = .ended) : o = none := by
  cases o with
  | none => rfl
  | some w => exact nomatch h

/-- A writer makes the generation larger: what was read is of one before. -/
lemma Sound.count (h : Sound s) {gen : ℕ} (hlt : s.gen < gen) :
    Sound { s with gen := gen, writing := true } := by
  refine ⟨fun hb => (h.first hb).trans hlt.le, fun hb heq => ?_, fun g hne hall => ?_⟩
  · exact absurd (heq.le.trans (h.first hb)) (not_le.mpr hlt)
  · have htail := h.tail g hne hall
    have hno : gen ≠ g := fun heq => absurd (heq.le.trans htail.le) (not_le.mpr hlt)
    exact ⟨htail.entries, htail.le.trans hlt.le, fun heq => absurd heq hno,
      fun heq => absurd heq hno, fun heq => absurd heq hno⟩

/-- It writes: as long as the generation is one that was read, that is before the second question. -/
lemma Sound.write (h : Sound s) (table : List V) (more : Bool) (hwriting : s.writing = true) :
    Sound { s with table := table, writing := more } := by
  have hopen : s.writing ≠ false := by simp [hwriting]
  refine ⟨h.first, fun hb heq => absurd (h.exact hb heq).closed hopen, fun g hne hall => ?_⟩
  have htail := h.tail g hne hall
  have hno : s.gen = g → ¬ (1 < s.got.length ∨ s.phase ≠ .idle) := fun heq hlate =>
    hopen (htail.closed heq hlate)
  refine ⟨htail.entries, htail.le, fun heq hlate => absurd hlate (hno heq),
    fun heq hlen => absurd (.inl hlen) (hno heq), fun heq v hv => ?_⟩
  exact absurd (.inr fun hidle => nomatch hidle.symm.trans hv) (hno heq)

/-- A question. -/
lemma Sound.ask (h : Sound s) (hclosed : s.writing = false) :
    Sound { s with
      first := if s.got.isEmpty then s.gen else s.first
      phase := .ofEntry s.table[s.got.length]? } := by
  refine ⟨fun _ => ?_, fun _ heq => ?_, fun g hne hall => ?_⟩
  · -- the generation at the first question
    show (if s.got.isEmpty then s.gen else s.first) ≤ s.gen
    split_ifs with hnil
    · exact le_refl s.gen
    · exact h.first (.inl fun hgot => hnil (List.isEmpty_iff.mpr hgot))
  · -- the table is as it was at the first question
    have hentries : s.entries = s.table.take s.got.length := by
      by_cases hgot : s.got = []
      · simp [Sys.entries, hgot]
      · have hfirst : s.gen = s.first := by simpa [hgot] using heq
        exact (h.exact (.inl hgot) hfirst).entries
    exact ⟨hclosed, hentries, fun v hv => eq_of_ofEntry hv,
      fun hv => List.getElem?_eq_none_iff.mp (eq_none_of_ofEntry hv)⟩
  · have htail := h.tail g hne hall
    exact ⟨htail.entries, htail.le, fun _ _ => hclosed, htail.table,
      fun _ v hv => eq_of_ofEntry hv⟩

/-- An answer. -/
lemma Sound.answer (h : Sound s) (hasking : s.phase = .asking v) :
    Sound { s with phase := .idle, got := s.got ++ [(v, s.gen)], last := s.table } := by
  have hbegun : s.Begun := .inr fun hidle => nomatch hidle.symm.trans hasking
  refine ⟨fun _ => h.first hbegun, fun _ heq => ?_, fun g _ hall => ?_⟩
  · have hexact := h.exact hbegun heq
    refine ⟨hexact.closed, ?_, fun v hv => (nomatch hv), fun hv => (nomatch hv)⟩
    show (s.got ++ [(v, s.gen)]).map Prod.fst = s.table.take (s.got ++ [(v, s.gen)]).length
    rw [List.map_append, List.length_append, List.length_singleton, List.take_add_one,
      hexact.asking v hasking, ← hexact.entries]
    rfl
  · have hgen : s.gen = g := hall (v, s.gen) (List.mem_append_right _ List.mem_cons_self)
    have hdrop : ((s.got ++ [(v, s.gen)]).map Prod.fst).drop 1
        = (s.table.drop 1).take ((s.got ++ [(v, s.gen)]).length - 1) := by
      by_cases hgot : s.got = []
      · simp [hgot]
      · -- the answers behind the first, and the entry asked for, are of the table of this answer
        have htail := h.tail g hgot fun p hp => hall p (List.mem_append_left _ hp)
        have hpos : 0 < s.got.length := List.length_pos_iff.mpr hgot
        have hlen : (s.got ++ [(v, s.gen)]).length - 1 = s.got.length - 1 + 1 := by
          simp only [List.length_append, List.length_singleton]; omega
        have hlast : (s.table.drop 1)[s.got.length - 1]? = some v := by
          rw [List.getElem?_drop, ← htail.asking hgen v hasking]
          congr 1
          omega
        have hentries : s.entries.drop 1 = (s.table.drop 1).take (s.got.length - 1) := by
          by_cases hlate : 1 < s.got.length
          · rw [htail.entries, htail.table hgen hlate]
          · have hone : s.got.length - 1 = 0 := by omega
            rw [htail.entries, hone, List.take_zero, List.take_zero]
        rw [hlen, List.take_add_one, hlast, ← hentries, List.map_append,
          List.drop_append_of_le_length (by rw [List.length_map]; exact hpos)]
        rfl
    refine ⟨hdrop, hgen.ge, fun _ hlate => ?_, fun _ _ => rfl, fun _ v hv => (nomatch hv)⟩
    -- there was an answer before, so that the question was the second at least
    have hgot : s.got ≠ [] := by
      rintro hnil
      simp [hnil] at hlate
    refine (h.tail g hgot fun p hp => hall p (List.mem_append_left _ hp)).closed hgen (.inr ?_)
    exact fun hidle => nomatch hidle.symm.trans hasking

/-- An answer that fails. -/
lemma Sound.fail (h : Sound s) (hasking : s.phase = .asking v) :
    Sound { s with phase := .failed } := by
  have hbegun : s.Begun := .inr fun hidle => nomatch hidle.symm.trans hasking
  refine ⟨fun _ => h.first hbegun, fun _ heq => ?_, fun g hne hall => ?_⟩
  · exact ⟨(h.exact hbegun heq).closed, (h.exact hbegun heq).entries, fun v hv => (nomatch hv),
      fun hv => (nomatch hv)⟩
  · have htail := h.tail g hne hall
    have hlate : s.phase ≠ .idle := fun hidle => nomatch hidle.symm.trans hasking
    exact ⟨htail.entries, htail.le, fun heq _ => htail.closed heq (.inr hlate), htail.table,
      fun _ v hv => (nomatch hv)⟩

lemma Sound.step {t : Sys V} (h : Sound s) {op : Op V} (hsettled : Settled s op)
    (ht : step s op = some t) : Sound t := by
  cases op with
  | count gen =>
      rw [TableRead.step] at ht
      split_ifs at ht with hlt
      exact Option.some.inj ht ▸ h.count hlt.2
  | write table more =>
      rw [TableRead.step] at ht
      split_ifs at ht with hwriting
      exact Option.some.inj ht ▸ h.write table more hwriting
  | ask =>
      rw [TableRead.step] at ht
      split at ht
      next => exact Option.some.inj ht ▸ h.ask hsettled
      next => exact absurd ht (Option.some_ne_none t).symm
  | answer =>
      rw [TableRead.step] at ht
      split at ht
      next v hasking => exact Option.some.inj ht ▸ h.answer hasking
      next => exact absurd ht (Option.some_ne_none t).symm
  | fail =>
      rw [TableRead.step] at ht
      split at ht
      next v hasking => exact Option.some.inj ht ▸ h.fail hasking
      next => exact absurd ht (Option.some_ne_none t).symm

/-- **Every run in which no question comes while a write is open keeps to both.** -/
theorem sound_run {t : Sys V} (h : Sound s) {ops : List (Op V)}
    (hrun : Machine.Exec TableRead.step Settled s ops t) : Sound t :=
  hrun.invariant (fun _ _ _ hsettled ht hs => hs.step hsettled ht) h

end Steps

/-! ## What was read in the end -/

/-- Where the generation did not change, what was read is the table. -/
theorem Sound.entries_eq {s : Sys V} (h : Sound s) (hended : s.phase = .ended)
    (hgen : s.gen = s.first) : s.entries = s.table := by
  have hexact := h.exact (.inr fun hidle => nomatch hidle.symm.trans hended) hgen
  rw [hexact.entries, List.take_of_length_le (hexact.ended hended)]

end TableRead
