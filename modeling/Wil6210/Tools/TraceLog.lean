import Wil6210.Lib.Circular
import Wil6210.Lib.CircularLog
import Wil6210.Tools.Trace

/-!
# What the trace reader prints

The firmware writes records into the circular log, a header and up to three parameters each, and
counts the entries in `write_ptr`.  `TraceLog` is the log with both sides of it: the firmware writes
entry by entry, and the tool reads a snapshot, at any time, and parses it.

`LogReader` is what the tool is for: reading prints the records that were written since the last
reading, as far as they are still in the log.  `traceLog_refines` says that the tool does this, also
where the counters wrap and where the log was overrun, in every run that it can follow (`Legible`):
no reading falls inside of a record, and nothing that is left of a record whose header was overwritten
looks like a header.  A reading inside of a record prints parameters that are not written yet, and may
print the record again (`not_traceLog_refines`).
-/

namespace Wil6210

open CircularLog

/-! ## Records -/

/-- What the firmware logs. -/
structure LogRecord where
  module : Fin 16
  level : Fin 4
  /-- the offset of the format in the string file -/
  fmt : Fin (2 ^ 20)
  isString : Bool
  params : List ℕ
  params_le : params.length ≤ 3

namespace LogRecord

/-- The header, laid out as `struct log_trace_header` is. -/
def header (r : LogRecord) : LogTraceHeader :=
  ⟨r.fmt.val + r.module.val <<< 20 + r.level.val <<< 24 + r.params.length <<< 26
    + r.isString.toNat <<< 28 + 5 <<< 29⟩

/-- The entries of the record. -/
def words (r : LogRecord) : List ℕ := r.header.word :: r.params

/-- The line that is printed for a record at position `p`. -/
def line (p : ℕ) (r : LogRecord) : TraceLine where
  rptr := u32 p
  module := r.module
  level := r.level
  fmt := r.fmt
  isString := r.isString
  params :=
    let ps := (List.range 3).map fun i => r.params.getD i 0
    if r.isString then ps.map (· &&& 0xffff) else ps

variable (r : LogRecord)

@[simp] lemma length_words : r.words.length = r.params.length + 1 := rfl

end LogRecord

/-- The records at their positions, the first at `p`. -/
def placed : ℕ → List LogRecord → List (ℕ × LogRecord)
  | _, [] => []
  | p, r :: rs => (p, r) :: placed (p + r.words.length) rs

/-! ## The abstract reader -/

inductive TraceLogAction
  /-- The firmware begins a record: it writes the header. -/
  | header (r : LogRecord)
  /-- The firmware writes the next parameter of the record. -/
  | param
  /-- The tool reads the log and calls `do_parse`. -/
  | read

/-- **What the tool is for.** -/
structure LogReader where
  /-- the entries that were written before the last reading -/
  seen : ℕ
  /-- the records that were written since -/
  pending : List LogRecord
  printed : List TraceLine

namespace LogReader

def init : LogReader := ⟨0, [], []⟩

/-- The entries of all records so far. -/
def written (a : LogReader) : ℕ := a.seen + (a.pending.flatMap LogRecord.words).length

/-- A reading prints the records whose header is among the last `n` entries. -/
def step (n : ℕ) (a : LogReader) : TraceLogAction → LogReader
  | .header r => { a with pending := a.pending ++ [r] }
  | .param => a
  | .read =>
      { seen := a.written
        pending := []
        printed := a.printed ++ ((placed a.seen a.pending).filter
          fun x => decide (a.written ≤ x.1 + n)).map fun x => x.2.line x.1 }

end LogReader

/-! ## The machine -/

/-- The slot of a position. -/
def traceSlot (c : TraceArgs) (p : ℕ) : ℕ := u32 p % c.logBufEntries

/-- The log and the tool. -/
structure TraceLog where
  log : Snapshot
  tool : TraceSys
  /-- the parameters of the last record that are not written yet -/
  rest : List ℕ
  /-- the records that were begun since the last call; nothing reads them -/
  pending : List LogRecord

namespace TraceLog

/-- One more entry is in the log. -/
def push (c : TraceArgs) (h : Snapshot) (x : ℕ) : Snapshot :=
  ⟨h.writePtr + 1, Function.update h.evt (traceSlot c h.writePtr) x⟩

/-- One step.  The next record begins behind the last parameter of the one before. -/
def step (c : TraceArgs) (s : TraceLog) : TraceLogAction → Option TraceLog
  | .header r =>
      if s.rest = [] then
        some { s with
          log := push c s.log r.header.word
          rest := r.params
          pending := s.pending ++ [r] }
      else none
  | .param =>
      match s.rest with
      | [] => none
      | x :: xs => some { s with log := push c s.log x, rest := xs }
  | .read => (s.tool.step c s.log).map fun tool => { s with tool := tool, pending := [] }

/-- Nothing is written; the memory of the log holds anything. -/
def init (evt : ℕ → ℕ) : TraceLog := ⟨⟨0, evt⟩, .init, [], []⟩

end TraceLog

/-- The tool takes no entry for a header that has the wrong signature, or an offset that is not in
the string file. -/
def Headless (c : TraceArgs) (x : ℕ) : Prop :=
  (LogTraceHeader.mk x).signature ≠ 5 ∨ c.strSz < (LogTraceHeader.mk x).strringOffset

instance (c : TraceArgs) (x : ℕ) : Decidable (Headless c x) :=
  inferInstanceAs (Decidable (_ ∨ _))

/-- What must hold of the log: the string file is that of the firmware, the first reading comes before
the counter wraps, and of a record whose header was overwritten no parameter looks like a header. -/
def TraceLog.Plain (c : TraceArgs) (s : TraceLog) : TraceLogAction → Prop
  | .header r => r.fmt ≤ c.strSz
  | .param => True
  | .read => (s.tool.written = none → s.log.writePtr < 4294967296) ∧
      ∀ x ∈ placed (s.tool.written.getD 0) s.pending, x.1 + c.logBufEntries < s.log.writePtr →
        s.log.writePtr < x.1 + x.2.words.length + c.logBufEntries → ∀ p ∈ x.2.params, Headless c p

instance (c : TraceArgs) (s : TraceLog) : (a : TraceLogAction) → Decidable (s.Plain c a)
  | .header _ => inferInstanceAs (Decidable (_ ≤ _))
  | .param => inferInstanceAs (Decidable True)
  | .read => inferInstanceAs (Decidable ((_ → _) ∧ _))

/-- A reading does not fall inside of a record. -/
def TraceLog.Whole (s : TraceLog) : TraceLogAction → Prop
  | .header _ | .param => True
  | .read => s.rest = []

instance (s : TraceLog) : (a : TraceLogAction) → Decidable (s.Whole a)
  | .header _ | .param => inferInstanceAs (Decidable True)
  | .read => inferInstanceAs (Decidable (_ = _))

/-- **When the tool can follow.** -/
def TraceLog.Legible (c : TraceArgs) (s : TraceLog) (a : TraceLogAction) : Prop :=
  s.Plain c a ∧ s.Whole a

instance (c : TraceArgs) (s : TraceLog) (a : TraceLogAction) : Decidable (s.Legible c a) :=
  inferInstanceAs (Decidable (_ ∧ _))

/-! ## A record and its header -/

namespace LogRecord

variable (r : LogRecord)

lemma wilGetBits_eq_mod (x a b : ℕ) : wilGetBits x a b = x / 2 ^ a % 2 ^ (b - a + 1) := by
  rw [wilGetBits, Nat.shiftRight_eq_div_pow, Nat.one_shiftLeft, Nat.and_two_pow_sub_one_eq_mod]

/-- **The header is read back.** -/
lemma header_fields : r.header.strringOffset = r.fmt ∧ r.header.module = r.module ∧
    r.header.level = r.level ∧ r.header.parametersNum = r.params.length ∧
    r.header.isString = r.isString ∧ r.header.signature = 5 := by
  have hfmt := r.fmt.isLt
  have hmod := r.module.isLt
  have hlevel := r.level.isLt
  have hparams := r.params_le
  have hstr : r.isString.toNat ≤ 1 := Bool.toNat_le r.isString
  have hword : r.header.word = r.fmt + r.module * 2 ^ 20 + r.level * 2 ^ 24
      + r.params.length * 2 ^ 26 + r.isString.toNat * 2 ^ 28 + 5 * 2 ^ 29 := by
    simp only [header, Nat.shiftLeft_eq]
  have hbit : wilGetBits r.header.word 28 28 = r.isString.toNat := by
    rw [wilGetBits_eq_mod, hword]
    omega
  refine ⟨?_, ?_, ?_, ?_, ?_, ?_⟩
  · rw [LogTraceHeader.strringOffset, wilGetBits_eq_mod, hword]
    omega
  · rw [LogTraceHeader.module, wilGetBits_eq_mod, hword]
    omega
  · rw [LogTraceHeader.level, wilGetBits_eq_mod, hword]
    omega
  · rw [LogTraceHeader.parametersNum, wilGetBits_eq_mod, hword]
    omega
  · rw [LogTraceHeader.isString, hbit]
    cases r.isString <;> rfl
  · rw [LogTraceHeader.signature, wilGetBits_eq_mod, hword]
    omega

end LogRecord

/-! ## The loop over a log -/

section Loop

variable {c : TraceArgs} {h : Snapshot} {q : ℕ}

lemma u32_u32_add (q k : ℕ) : u32 (u32 q + k) = u32 (q + k) := by
  simp only [u32]
  omega

/-- How far a position is behind. -/
lemma u32Sub_u32 (hle : q ≤ h.writePtr) (hlt : h.writePtr < q + 4294967296) :
    u32Sub h.wptr (u32 q) = h.writePtr - q := by
  have hsub := u32Sub_cast h.wptr (u32 q)
  rw [Snapshot.wptr, u32, u32, Int.natCast_mod, Int.natCast_mod] at *
  omega

lemma behind_u32_iff (hle : q ≤ h.writePtr) (hlt : h.writePtr < q + 2147483648) :
    behind h.wptr (u32 q) ↔ q < h.writePtr := by
  rw [behind, u32Sub_u32 hle (by omega)]
  omega

/-- At the write pointer the loop ends. -/
lemma parseLoop_end (c : TraceArgs) (h : Snapshot) :
    parseLoop c h (u32 h.writePtr) = (u32 h.writePtr, []) := by
  rw [parseLoop, dif_neg]
  rw [behind_u32_iff le_rfl (by omega)]
  exact lt_irrefl _

/-- Before that it goes on behind the entry. -/
lemma parseLoop_entry (hlt : q < h.writePtr) (hnear : h.writePtr < q + 2147483648) :
    parseLoop c h (u32 q)
      = ((parseLoop c h (nextRptr c h (u32 q))).1,
        (u32 q, parseEntry c h (u32 q)) :: (parseLoop c h (nextRptr c h (u32 q))).2) := by
  rw [parseLoop, dif_pos ((behind_u32_iff hlt.le hnear).mpr hlt)]

/-- An entry that does not look like a header is passed over. -/
lemma parseEntry_headless {x : ℕ} (hx : h.evt (traceSlot c q) = x) (hhead : Headless c x) :
    parseEntry c h (u32 q) = none ∧ nextRptr c h (u32 q) = u32 (q + 1) := by
  have hhdr : hdrAt c h (u32 q) = ⟨x⟩ := congrArg LogTraceHeader.mk hx
  have hnone : parseEntry c h (u32 q) = none := by
    rw [parseEntry, hhdr]
    dsimp only
    rcases hhead with hsig | hoff
    · rw [if_pos hsig]
    · rw [if_pos hoff, ite_self]
  refine ⟨hnone, ?_⟩
  rw [nextRptr, hnone]
  exact u32_u32_add q 1

/-- A record is printed. -/
lemma parseEntry_record {r : LogRecord} (hr : Stores (traceSlot c) h.evt q r.words)
    (hfmt : r.fmt ≤ c.strSz) :
    parseEntry c h (u32 q) = some (r.line q) ∧
      nextRptr c h (u32 q) = u32 (q + r.words.length) := by
  have hhdr : hdrAt c h (u32 q) = r.header := congrArg LogTraceHeader.mk hr.1
  obtain ⟨hoff, hmod, hlevel, hnum, hstr, hsig⟩ := r.header_fields
  have hparam : ∀ i, (if i < r.params.length then h.evt (u32 (u32 q + i + 1) % c.logBufEntries) else 0)
      = r.params.getD i 0 := by
    intro i
    by_cases hi : i < r.params.length
    · have hget := hr.2.get hi
      have hpos : u32 (u32 q + i + 1) = u32 (q + 1 + i) := by
        rw [Nat.add_assoc, u32_u32_add, Nat.add_comm i 1, ← Nat.add_assoc]
      rw [if_pos hi, hpos, List.getD_eq_getElem?_getD, List.getElem?_eq_getElem hi]
      exact hget
    · rw [if_neg hi, List.getD_eq_getElem?_getD, List.getElem?_eq_none (not_lt.mp hi)]
      rfl
  have hline : parseEntry c h (u32 q) = some (r.line q) := by
    rw [parseEntry, hhdr]
    dsimp only
    rw [if_neg (not_not_intro hsig), hoff, if_neg (not_lt.mpr hfmt), hnum,
      if_neg (not_lt.mpr r.params_le), hmod, hlevel, hstr]
    simp only [hparam]
    rfl
  refine ⟨hline, ?_⟩
  rw [nextRptr, hline, hhdr]
  dsimp only
  rw [hnum, Nat.add_assoc, u32_u32_add, LogRecord.length_words]

/-- What is printed from a reading pointer on. -/
def printedFrom (c : TraceArgs) (h : Snapshot) (r : ℕ) : List TraceLine :=
  (parseLoop c h r).2.filterMap Prod.snd

/-- **Records are printed**, each with its line. -/
lemma parseLoop_records {rs : List LogRecord} (hstores : Stores (traceSlot c) h.evt q
      (rs.flatMap LogRecord.words)) (hend : q + (rs.flatMap LogRecord.words).length = h.writePtr)
    (hnear : h.writePtr < q + 2147483648) (hfmt : ∀ r ∈ rs, r.fmt ≤ c.strSz) :
    (parseLoop c h (u32 q)).1 = u32 h.writePtr ∧
      printedFrom c h (u32 q) = (placed q rs).map fun x => x.2.line x.1 := by
  induction rs generalizing q with
  | nil =>
      obtain rfl : q = h.writePtr := hend
      rw [printedFrom, parseLoop_end]
      exact ⟨rfl, rfl⟩
  | cons r rs ih =>
      rw [List.flatMap_cons, stores_append] at hstores
      rw [List.flatMap_cons, List.length_append] at hend
      have hpos : 0 < r.words.length := Nat.succ_pos _
      obtain ⟨hline, hnext⟩ := parseEntry_record hstores.1 (hfmt r List.mem_cons_self)
      obtain ⟨hptr, hprinted⟩ := ih hstores.2 (by omega) (by omega)
        fun r' hr' => hfmt r' (List.mem_cons_of_mem r hr')
      have hstep := parseLoop_entry (c := c) (q := q) (h := h) (by omega) hnear
      rw [hline, hnext] at hstep
      rw [printedFrom, hstep]
      exact ⟨hptr, congrArg (r.line q :: ·) hprinted⟩

/-- What is left of a record is passed over. -/
lemma parseLoop_headless {xs : List ℕ} (hstores : Stores (traceSlot c) h.evt q xs)
    (hend : q + xs.length ≤ h.writePtr) (hnear : h.writePtr < q + 2147483648)
    (hheads : ∀ x ∈ xs, Headless c x) :
    (parseLoop c h (u32 q)).1 = (parseLoop c h (u32 (q + xs.length))).1 ∧
      printedFrom c h (u32 q) = printedFrom c h (u32 (q + xs.length)) := by
  induction xs generalizing q with
  | nil => exact ⟨rfl, rfl⟩
  | cons x xs ih =>
      rw [List.length_cons] at hend ⊢
      have hpos : q + (xs.length + 1) = q + 1 + xs.length := by omega
      obtain ⟨hnone, hnext⟩ := parseEntry_headless hstores.1 (hheads x List.mem_cons_self)
      obtain ⟨hptr, hprinted⟩ := ih hstores.2 (by omega) (by omega)
        fun y hy => hheads y (List.mem_cons_of_mem x hy)
      have hstep := parseLoop_entry (c := c) (q := q) (h := h) (by omega) hnear
      rw [hnone, hnext] at hstep
      rw [printedFrom, hstep, hpos]
      exact ⟨hptr, hprinted⟩

/-- The overflow test, in terms of positions. -/
lemma skipOverflow_u32 (hle : q ≤ h.writePtr) (hlt : h.writePtr < q + 4294967296) :
    skipOverflow c h.wptr (u32 q)
      = u32 (if c.logBufEntries ≤ h.writePtr - q then h.writePtr - c.logBufEntries else q) := by
  rw [skipOverflow, u32Sub_u32 hle hlt]
  split_ifs with hover
  · have hsub := u32Sub_cast h.wptr c.logBufEntries
    rw [Snapshot.wptr, u32, u32, Int.natCast_mod] at *
    omega
  · rfl

end Loop

/-! ## Where the log was cut -/

section Cut

variable {rs : List LogRecord} {p k : ℕ}

lemma le_of_mem_placed {x : ℕ × LogRecord} (hx : x ∈ placed p rs) : p ≤ x.1 := by
  induction rs generalizing p with
  | nil => exact absurd hx List.not_mem_nil
  | cons r rs ih =>
      rcases List.mem_cons.mp hx with rfl | hx
      · exact le_rfl
      · exact (Nat.le_add_right _ _).trans (ih hx)

/-- From entry `k` on there is what is left of the record that the entry belongs to, and the records
behind it. -/
lemma drop_words (rs : List LogRecord) (p : ℕ) (hk : k ≤ (rs.flatMap LogRecord.words).length) :
    ∃ cut rest, (rs.flatMap LogRecord.words).drop k = cut ++ rest.flatMap LogRecord.words ∧
      (placed p rs).filter (fun x => decide (p + k ≤ x.1)) = placed (p + k + cut.length) rest ∧
      (∀ r ∈ rest, r ∈ rs) ∧
      ∀ x ∈ cut, ∃ y ∈ placed p rs, y.1 < p + k ∧ p + k < y.1 + y.2.words.length ∧
        x ∈ y.2.params := by
  induction rs generalizing p k with
  | nil => exact ⟨[], [], by simp, rfl, fun r hr => hr, fun x hx => absurd hx List.not_mem_nil⟩
  | cons r rs ih =>
      have hafter : ∀ k, k ≤ r.words.length →
          (placed (p + r.words.length) rs).filter (fun x => decide (p + k ≤ x.1))
            = placed (p + r.words.length) rs := by
        intro k hk
        refine List.filter_eq_self.mpr fun x hx => decide_eq_true ?_
        have hpos := le_of_mem_placed hx
        omega
      rcases Nat.eq_zero_or_pos k with rfl | hpos
      · refine ⟨[], r :: rs, rfl, ?_, fun r' hr' => hr', fun x hx => absurd hx List.not_mem_nil⟩
        rw [placed, List.filter_cons_of_pos (by simp), hafter 0 (Nat.zero_le _)]
        rfl
      have hout : (placed p (r :: rs)).filter (fun x => decide (p + k ≤ x.1))
          = (placed (p + r.words.length) rs).filter (fun x => decide (p + k ≤ x.1)) :=
        List.filter_cons_of_neg (by rw [decide_eq_true_eq]; dsimp only; omega)
      by_cases hlt : k < r.words.length
      · refine ⟨r.words.drop k, rs, ?_, ?_, fun r' hr' => List.mem_cons_of_mem r hr', fun x hx => ?_⟩
        · rw [List.flatMap_cons, List.drop_append_of_le_length hlt.le]
        · have hend : p + k + (r.words.drop k).length = p + r.words.length := by
            rw [List.length_drop]
            omega
          rw [hout, hafter k hlt.le, hend]
        · refine ⟨(p, r), List.mem_cons_self, by omega, by dsimp only; omega, ?_⟩
          obtain ⟨k, rfl⟩ := Nat.exists_eq_succ_of_ne_zero hpos.ne'
          exact List.mem_of_mem_drop hx
      · rw [List.flatMap_cons, List.length_append] at hk
        obtain ⟨cut, rest, hdrop, hfilter, hmem, hcut⟩ :=
          ih (p + r.words.length) (k := k - r.words.length) (by omega)
        have hsum : p + r.words.length + (k - r.words.length) = p + k := by omega
        rw [hsum] at hfilter hcut
        refine ⟨cut, rest, ?_, ?_, fun r' hr' => List.mem_cons_of_mem r (hmem r' hr'),
          fun x hx => ?_⟩
        · rw [List.flatMap_cons, List.drop_append, List.drop_eq_nil_of_le (not_lt.mp hlt),
            List.nil_append, hdrop]
        · rw [hout, hfilter]
        · obtain ⟨y, hy, hrest⟩ := hcut x hx
          exact ⟨y, List.mem_cons_of_mem _ hy, hrest⟩

end Cut

/-! ## The simulation -/

/-- The log holds the last of the entries `log`, and the tool is where the abstract reader is. -/
structure TraceLogSim (c : TraceArgs) (s : TraceLog) (a : LogReader) (log : List ℕ) : Prop where
  kept : Kept (traceSlot c) c.logBufEntries s.log.evt log
  writePtr : s.log.writePtr = log.length
  seen : a.seen ≤ log.length
  words : (log ++ s.rest).drop a.seen = a.pending.flatMap LogRecord.words
  pending : s.pending = a.pending
  fmt : ∀ r ∈ a.pending, r.fmt ≤ c.strSz
  rptr : s.tool.rptr = u32 a.seen
  fresh : s.tool.written = none → a.seen = 0
  written : ∀ w ∈ s.tool.written, w = a.seen
  printed : s.tool.calls.flatMap TraceCall.lines = a.printed

section Sim

variable {c : TraceArgs} {s t : TraceLog} {a : LogReader} {log : List ℕ}

lemma traceLogSim_init (evt : ℕ → ℕ) : TraceLogSim c (.init evt) .init [] :=
  ⟨kept_nil _, rfl, le_rfl, rfl, rfl, fun r hr => absurd hr List.not_mem_nil, rfl, fun _ => rfl,
    fun w hw => absurd hw (by simp [TraceLog.init, TraceSys.init]), rfl⟩

namespace TraceLogSim

/-- Where the last record is written whole. -/
lemma words_eq (h : TraceLogSim c s a log) (hrest : s.rest = []) :
    log.drop a.seen = a.pending.flatMap LogRecord.words := by
  rw [← h.words, hrest, List.append_nil]

lemma length_eq (h : TraceLogSim c s a log) (hrest : s.rest = []) : log.length = a.written := by
  rw [LogReader.written, ← h.words_eq hrest, List.length_drop]
  exact (Nat.add_sub_cancel' h.seen).symm

lemma getD_written (h : TraceLogSim c s a log) : s.tool.written.getD 0 = a.seen := by
  cases hw : s.tool.written with
  | none => exact (h.fresh hw).symm
  | some w => exact h.written w hw

/-- The next entry is written. -/
lemma kept_push (h : TraceLogSim c s a log) (hdvd : c.logBufEntries ∣ 4294967296) (x : ℕ) :
    Kept (traceSlot c) c.logBufEntries (TraceLog.push c s.log x).evt (log ++ [x]) := by
  have hslot : ∀ p, traceSlot c p = p % c.logBufEntries := fun p => Nat.mod_mod_of_dvd p hdvd
  have hpos : 0 < c.logBufEntries := Nat.pos_of_dvd_of_pos hdvd (by norm_num)
  have hapart : Apart (traceSlot c) c.logBufEntries := by
    intro x y hxy hy
    rw [hslot, hslot]
    exact Circular.ne_of_window hxy hy
  simp only [TraceLog.push, h.writePtr]
  exact h.kept.push hapart hpos x

/-- The firmware begins a record. -/
lemma header (h : TraceLogSim c s a log) {r : LogRecord} (hdvd : c.logBufEntries ∣ 4294967296)
    (hfmt : r.fmt ≤ c.strSz) (ht : s.step c (.header r) = some t) :
    TraceLogSim c t (a.step c.logBufEntries (.header r)) (log ++ [r.header.word]) := by
  simp only [TraceLog.step] at ht
  split_ifs at ht with hrest
  obtain rfl := Option.some.inj ht
  have hwords := h.words_eq hrest
  refine ⟨h.kept_push hdvd _, ?_, ?_, ?_, ?_, ?_, h.rptr, h.fresh, h.written, h.printed⟩
  · simp only [TraceLog.push, h.writePtr, List.length_append, List.length_singleton]
  · exact h.seen.trans (by simp)
  · simp only [LogReader.step]
    rw [List.append_assoc, List.drop_append_of_le_length h.seen, hwords, List.flatMap_append,
      List.flatMap_singleton]
    rfl
  · simp only [LogReader.step, h.pending]
  · intro r' hr'
    rcases List.mem_append.mp hr' with hold | hnew
    · exact h.fmt r' hold
    · obtain rfl := List.mem_singleton.mp hnew
      exact hfmt

/-- The firmware goes on with a record. -/
lemma param (h : TraceLogSim c s a log) (hdvd : c.logBufEntries ∣ 4294967296)
    (ht : s.step c .param = some t) :
    ∃ x, TraceLogSim c t (a.step c.logBufEntries .param) (log ++ [x]) := by
  simp only [TraceLog.step] at ht
  cases hrest : s.rest with
  | nil => simp [hrest] at ht
  | cons x xs =>
      rw [hrest] at ht
      obtain rfl := Option.some.inj ht
      refine ⟨x, h.kept_push hdvd x, ?_, ?_, ?_, h.pending, h.fmt, h.rptr, h.fresh, h.written,
        h.printed⟩
      · simp only [TraceLog.push, h.writePtr, List.length_append, List.length_singleton]
      · exact h.seen.trans (by simp)
      · simp only [LogReader.step]
        rw [← h.words, hrest, List.append_assoc]
        rfl

/-- The reading prints the pending records that are in the log, and ends at the write pointer. -/
lemma parse (h : TraceLogSim c s a log) (hlt : c.logBufEntries < 2147483648)
    (hpos : 0 < c.logBufEntries) (hlegible : s.Legible c .read)
    (hnear : s.log.writePtr < a.seen + 4294967296) :
    (parseLoop c s.log (skipOverflow c s.log.wptr s.tool.rptr)).1 = u32 a.written ∧
      printedFrom c s.log (skipOverflow c s.log.wptr s.tool.rptr)
        = ((placed a.seen a.pending).filter
            fun x => decide (a.written ≤ x.1 + c.logBufEntries)).map fun x => x.2.line x.1 := by
  obtain ⟨⟨-, hheads⟩, hrest⟩ := hlegible
  have hwritten : s.log.writePtr = a.written := h.writePtr.trans (h.length_eq hrest)
  have hseen : a.seen ≤ s.log.writePtr := by
    rw [h.writePtr]
    exact h.seen
  rw [h.getD_written, h.pending] at hheads
  rw [h.rptr, skipOverflow_u32 hseen hnear]
  set q := if c.logBufEntries ≤ s.log.writePtr - a.seen then s.log.writePtr - c.logBufEntries
    else a.seen with hq
  -- the reading starts at `q`, from where on everything is in the log
  have hwindow : a.seen ≤ q ∧ q ≤ s.log.writePtr ∧ s.log.writePtr ≤ q + c.logBufEntries ∧
      (a.seen < q → q + c.logBufEntries = s.log.writePtr) := by
    rw [hq]
    split_ifs with hover <;> omega
  obtain ⟨hfrom, hto, hlast, hcutpos⟩ := hwindow
  have htotal : (a.pending.flatMap LogRecord.words).length = s.log.writePtr - a.seen := by
    rw [hwritten, LogReader.written]
    omega
  obtain ⟨cut, rest, hdrop, hfilter, hmem, hcut⟩ :=
    drop_words a.pending a.seen (k := q - a.seen) (by omega)
  rw [Nat.add_sub_cancel' hfrom] at hfilter hcut
  have hstores : Stores (traceSlot c) s.log.evt q (cut ++ rest.flatMap LogRecord.words) := by
    have hkept := h.kept.stores (k := q) (by rw [← h.writePtr]; exact hto)
      (by rw [← h.writePtr]; exact hlast)
    rw [← hdrop, ← h.words_eq hrest, List.drop_drop, Nat.add_sub_cancel' hfrom]
    exact hkept
  have hlength : q + (cut.length + (rest.flatMap LogRecord.words).length) = s.log.writePtr := by
    have hlen := congrArg List.length hdrop
    rw [List.length_drop, List.length_append, htotal] at hlen
    omega
  rw [stores_append] at hstores
  have hskip := parseLoop_headless (c := c) hstores.1 (by omega) (by omega) (by
    intro x hx
    obtain ⟨y, hy, hbefore, hafter, hparam⟩ := hcut x hx
    have hstart := le_of_mem_placed hy
    have hend := hcutpos (by omega)
    exact hheads y hy (by omega) (by omega) x hparam)
  have hprint := parseLoop_records (c := c) hstores.2 (by omega) (by omega)
    fun r hr => h.fmt r (hmem r hr)
  refine ⟨hskip.1.trans (hprint.1.trans (congrArg u32 hwritten)), ?_⟩
  rw [hskip.2, hprint.2, ← hfilter]
  refine congrArg (List.map _) (List.filter_congr fun x hx => ?_)
  have hstart := le_of_mem_placed hx
  rw [← hwritten, decide_eq_decide]
  rcases Nat.eq_or_lt_of_le hfrom with heq | hlt'
  · omega
  · have hend := hcutpos hlt'
    omega

/-- The tool reads the log. -/
lemma read (h : TraceLogSim c s a log) (hlt : c.logBufEntries < 2147483648)
    (hpos : 0 < c.logBufEntries) (hlegible : s.Legible c .read)
    (ht : s.step c .read = some t) :
    TraceLogSim c t (a.step c.logBufEntries .read) log := by
  simp only [TraceLog.step, TraceSys.step] at ht
  split_ifs at ht with hstep
  · obtain rfl := Option.some.inj ht
    have hnear : s.log.writePtr < a.seen + 4294967296 := by
      cases hw : s.tool.written with
      | none =>
          have hfirst := hlegible.1.1 hw
          omega
      | some w =>
          have hw' := h.written w hw
          have hsoon := (hstep w hw).2
          omega
    obtain ⟨hptr, hprinted⟩ := h.parse hlt hpos hlegible hnear
    have hrest : s.rest = [] := hlegible.2
    have hlength := h.length_eq hrest
    refine ⟨h.kept, h.writePtr, hlength.ge, ?_, rfl, fun r hr => absurd hr List.not_mem_nil, ?_,
      fun hnone => absurd hnone (by simp [TraceSys.parse]), fun w hw => ?_, ?_⟩
    · simp only [LogReader.step, hrest, List.append_nil, ← hlength, List.drop_length,
        List.flatMap_nil]
    · simp only [TraceSys.parse, TraceSys.parse_eq, LogReader.step]
      exact hptr
    · obtain rfl := Option.some.inj hw
      exact h.writePtr.trans hlength
    · simp only [TraceSys.parse, TraceSys.parse_eq, List.flatMap_append, List.flatMap_singleton,
        h.printed, LogReader.step]
      exact congrArg (a.printed ++ ·) hprinted
  · exact absurd ht (by simp)

end TraceLogSim

end Sim

/-! ## Every run -/

/-- The records that are logged. -/
def logged (as : List TraceLogAction) : List LogRecord :=
  as.filterMap fun
    | .header r => some r
    | .param | .read => none

lemma placed_append (p : ℕ) (rs rs' : List LogRecord) : placed p (rs ++ rs')
    = placed p rs ++ placed (p + (rs.flatMap LogRecord.words).length) rs' := by
  induction rs generalizing p with
  | nil => rfl
  | cons r rs ih =>
      rw [List.cons_append, placed, ih, placed, List.cons_append, List.flatMap_cons,
        List.length_append, Nat.add_assoc]

/-- The abstract reader prints records in the order they were logged, each once. -/
lemma LogReader.printed_sublist (n : ℕ) (as : List TraceLogAction) :
    ((as.foldl (LogReader.step n) .init).printed).Sublist
      ((placed 0 (logged as)).map fun x => x.2.line x.1) := by
  -- the records of the earlier readings are `done`, and the rest is pending
  have hinv : ∃ done, placed 0 (logged as) = done ++ placed (as.foldl (LogReader.step n) .init).seen
        (as.foldl (LogReader.step n) .init).pending ∧
      ((logged as).flatMap LogRecord.words).length
        = (as.foldl (LogReader.step n) .init).written ∧
      ((as.foldl (LogReader.step n) .init).printed).Sublist (done.map fun x => x.2.line x.1) := by
    induction as using List.reverseRecOn with
    | nil => exact ⟨[], rfl, rfl, List.Sublist.refl _⟩
    | append_singleton as a ih =>
        obtain ⟨done, hplaced, hlength, hprinted⟩ := ih
        rw [List.foldl_append, List.foldl_cons, List.foldl_nil]
        cases a with
        | header r =>
            have hlogged : logged (as ++ [.header r]) = logged as ++ [r] := by simp [logged]
            rw [hlogged, placed_append, hplaced]
            refine ⟨done, ?_, ?_, hprinted⟩
            · rw [List.append_assoc, Nat.zero_add, hlength, LogReader.written]
              simp only [LogReader.step, placed_append]
            · rw [List.flatMap_append, List.length_append, hlength]
              simp only [LogReader.step, LogReader.written, List.flatMap_append, List.length_append,
                Nat.add_assoc]
        | param =>
            have hlogged : logged (as ++ [.param]) = logged as := by simp [logged]
            rw [hlogged]
            exact ⟨done, hplaced, hlength, hprinted⟩
        | read =>
            have hlogged : logged (as ++ [.read]) = logged as := by simp [logged]
            rw [hlogged]
            refine ⟨_, (List.append_nil _).symm, ?_, ?_⟩
            · simp only [LogReader.step, LogReader.written, List.flatMap_nil, List.length_nil,
                Nat.add_zero]
              exact hlength
            · rw [hplaced, List.map_append]
              exact hprinted.append (List.filter_sublist.map _)
  obtain ⟨done, hplaced, -, hprinted⟩ := hinv
  rw [hplaced, List.map_append]
  exact hprinted.trans (List.sublist_append_left _ _)

/-- **The tool prints what it is for**: in every run that it can follow, it has printed what the
abstract reader prints in the same run, and so each record at most once, in the order they were
logged.  The number of entries divides `2 ^ 32`, so that the slots go on where the counter wraps. -/
theorem traceLog_refines {c : TraceArgs} (hdvd : c.logBufEntries ∣ 4294967296)
    (hlt : c.logBufEntries < 2147483648) {evt : ℕ → ℕ} {as : List TraceLogAction} {s : TraceLog}
    (h : Machine.Exec (TraceLog.step c) (TraceLog.Legible c) (.init evt) as s) :
    s.tool.calls.flatMap TraceCall.lines
        = (as.foldl (LogReader.step c.logBufEntries) .init).printed ∧
      (s.tool.calls.flatMap TraceCall.lines).Sublist
        ((placed 0 (logged as)).map fun x => x.2.line x.1) := by
  have hpos : 0 < c.logBufEntries := Nat.pos_of_dvd_of_pos hdvd (by norm_num)
  obtain ⟨log, hsim⟩ :
      ∃ log, TraceLogSim c s (as.foldl (LogReader.step c.logBufEntries) .init) log := by
    refine h.simulates (R := fun s a => ∃ log, TraceLogSim c s a log) ?_ ⟨[], traceLogSim_init evt⟩
    rintro s a x t hlegible ht ⟨log, hsim⟩
    cases x with
    | header r => exact ⟨_, hsim.header hdvd hlegible.1 ht⟩
    | param =>
        obtain ⟨x, hnext⟩ := hsim.param hdvd ht
        exact ⟨_, hnext⟩
    | read => exact ⟨_, hsim.read hlt hpos hlegible ht⟩
  refine ⟨hsim.printed, ?_⟩
  rw [hsim.printed]
  exact LogReader.printed_sublist _ as

/-- A record of the format `fmt`. -/
def plainRecord (module : Fin 16) (level : Fin 4) (fmt : Fin (2 ^ 20)) (params : List ℕ)
    (h : params.length ≤ 3) : LogRecord :=
  ⟨module, level, fmt, false, params, h⟩

/-- In a log of four entries, the second reading finds the first of two records without its
header. -/
theorem traceLog_refines_overrun : ∃ s : TraceLog,
    s.tool.calls.flatMap TraceCall.lines
        = [⟨0, 2, 1, 40, false, [7, 0, 0]⟩, ⟨5, 2, 1, 40, false, [9, 0, 0]⟩] ∧
      s.tool.calls.length = 2 := by
  have hrun : (Machine.exec (TraceLog.step ⟨4, 100⟩) (TraceLog.Legible ⟨4, 100⟩) (.init fun _ => 0)
      [.header (plainRecord 2 1 40 [7] (by decide)), .param, .read,
        .header (plainRecord 2 1 40 [1, 2] (by decide)), .param, .param,
        .header (plainRecord 2 1 40 [9] (by decide)), .param, .read]).map
          (fun s => s.tool.calls.length) = some 2 := by
    decide +kernel
  obtain ⟨s, hs, hend⟩ := Option.map_eq_some_iff.mp hrun
  refine ⟨s, (traceLog_refines (by decide) (by decide) (.of_exec hs)).1.trans ?_, hend⟩
  decide +kernel

/-- A reading falls between the header of a record and its parameter, and the next one finds nothing
new: the record is printed twice, both times without its parameter. -/
theorem not_traceLog_refines : ¬ ∀ (c : TraceArgs), c.logBufEntries ∣ 4294967296 →
    c.logBufEntries < 2147483648 → ∀ (evt : ℕ → ℕ) (as : List TraceLogAction) (s : TraceLog),
      Machine.Exec (TraceLog.step c) (TraceLog.Plain c) (.init evt) as s →
        (s.tool.calls.flatMap TraceCall.lines).Sublist
          ((placed 0 (logged as)).map fun x => x.2.line x.1) := by
  intro h
  have hrun : (Machine.exec (TraceLog.step ⟨4, 100⟩) (TraceLog.Plain ⟨4, 100⟩) (.init fun _ => 0)
      [.header (plainRecord 2 1 40 [7] (by decide)), .read, .read, .param]).map
        (fun s => s.tool.calls.flatMap TraceCall.lines)
      = some [⟨0, 2, 1, 40, false, [0, 0, 0]⟩, ⟨0, 2, 1, 40, false, [0, 0, 0]⟩] := by
    decide +kernel
  obtain ⟨s, hs, hlines⟩ := Option.map_eq_some_iff.mp hrun
  have hsub := h ⟨4, 100⟩ (by decide) (by decide) _ _ s (.of_exec hs)
  rw [hlines] at hsub
  exact absurd hsub.length_le (by decide)

end Wil6210
