import Wil6210.Kernel
import Wil6210.Lib.Machine
import Wil6210.Lib.Serial

/-!
# The firmware trace reader

`tools/trace.c`: the tool reads snapshots of a circular log that the firmware writes, and prints the
records it has not printed yet.  The log counts its entries in `write_ptr`, a `u32` that wraps; the
tool keeps a `u32` of its own, `rptr`.

A run is over the snapshots that the tool reads.  Their write pointer is counted without wrapping,
and so is the position of an entry (`Snapshot.position`): entry 0 is the first that was written.

`traceOnce_run` says that no entry is taken for a header twice in a run where no call finds the read
pointer past the write pointer and takes this for an overflow (`Overrun`).  The read pointer is left
there by a record whose parameters are not written yet.
-/

namespace Wil6210

/-- The difference of two `u32`s. -/
def u32Sub (a b : ℕ) : ℕ := Serial.sub 4294967296 a b

lemma u32Sub_cast (a b : ℕ) : (u32Sub a b : ℤ) = ((a : ℤ) - b) % 4294967296 :=
  Serial.sub_cast (by norm_num) a b

/-- Going on by `n` brings the read pointer up to, or past, the write pointer. -/
lemma u32Sub_add {n : ℕ} (hn : n ≤ 4) (w r : ℕ) : u32Sub w (u32 (r + n))
    = if n ≤ u32Sub w r then u32Sub w r - n else 4294967296 + u32Sub w r - n := by
  have hold := u32Sub_cast w r
  have hnew := u32Sub_cast w (u32 (r + n))
  rw [u32, Int.natCast_mod] at hnew
  rw [u32]
  split_ifs <;> omega

/-! ## The log -/

/-- `struct log_trace_header` -/
structure LogTraceHeader where
  word : ℕ
  deriving DecidableEq, Repr

namespace LogTraceHeader

def strringOffset (h : LogTraceHeader) : ℕ := wilGetBits h.word 0 19
def module (h : LogTraceHeader) : ℕ := wilGetBits h.word 20 23
def level (h : LogTraceHeader) : ℕ := wilGetBits h.word 24 25
def parametersNum (h : LogTraceHeader) : ℕ := wilGetBits h.word 26 27
def isString (h : LogTraceHeader) : Bool := wilGetBits h.word 28 28 = 1
def signature (h : LogTraceHeader) : ℕ := wilGetBits h.word 29 31

lemma parametersNum_le (h : LogTraceHeader) : h.parametersNum ≤ 3 := Nat.and_le_right

end LogTraceHeader

/-- A snapshot of the log; `writePtr` counts all entries that were written. -/
structure Snapshot where
  writePtr : ℕ
  evt : ℕ → ℕ

/-- `h->write_ptr` -/
def Snapshot.wptr (h : Snapshot) : ℕ := u32 h.writePtr

/-- What the tool is run with: the entries in the log buffer, and the size of the string file. -/
structure TraceArgs where
  logBufEntries : ℕ
  strSz : ℕ
  deriving DecidableEq, Repr

/-- A line of the output.  With `isString` the parameters are offsets in the string file. -/
structure TraceLine where
  rptr : ℕ
  module : ℕ
  level : ℕ
  fmt : ℕ
  isString : Bool
  params : List ℕ
  deriving DecidableEq, Repr

/-! ## The reader -/

variable (c : TraceArgs) (h : Snapshot)

/-- The overflow test, of `do_parse` and of `main`: try to parse the last wrap. -/
def skipOverflow (wptr rptr : ℕ) : ℕ :=
  if c.logBufEntries ≤ u32Sub wptr rptr then u32Sub wptr c.logBufEntries else rptr

/-- `evt->hdr` of the entry at `rptr` -/
def hdrAt (rptr : ℕ) : LogTraceHeader := ⟨h.evt (rptr % c.logBufEntries)⟩

/-- The line that is printed for the entry at `rptr`; `none` is `continue`. -/
def parseEntry (rptr : ℕ) : Option TraceLine :=
  let hdr := hdrAt c h rptr
  if hdr.signature ≠ 5 then none
  else if c.strSz < hdr.strringOffset then none
  else if 3 < hdr.parametersNum then none
  else
    let p := (List.range 3).map fun i =>
      if i < hdr.parametersNum then h.evt (u32 (rptr + i + 1) % c.logBufEntries) else 0
    some {
      rptr := rptr
      module := hdr.module
      level := hdr.level
      fmt := hdr.strringOffset
      isString := hdr.isString
      params := if hdr.isString then p.map (· &&& 0xffff) else p }

/-- The read pointer after the entry at `rptr`. -/
def nextRptr (rptr : ℕ) : ℕ :=
  match parseEntry c h rptr with
  | none => u32 (rptr + 1)
  | some _ => u32 (rptr + (hdrAt c h rptr).parametersNum + 1)

/-- `(s32)(wptr - rptr) > 0` -/
def behind (wptr rptr : ℕ) : Prop := 0 < u32Sub wptr rptr ∧ u32Sub wptr rptr < 2147483648

instance (wptr rptr : ℕ) : Decidable (behind wptr rptr) := inferInstanceAs (Decidable (_ ∧ _))

/-- An entry is one to four ahead of the next one. -/
lemma nextRptr_eq (rptr : ℕ) : ∃ n, 1 ≤ n ∧ n ≤ 4 ∧ nextRptr c h rptr = u32 (rptr + n) := by
  rw [nextRptr]
  split
  · exact ⟨1, le_rfl, by omega, rfl⟩
  · exact ⟨(hdrAt c h rptr).parametersNum + 1, by omega,
      Nat.succ_le_succ (hdrAt c h rptr).parametersNum_le, rfl⟩

/-- How far the loop has to go. -/
def remaining (wptr rptr : ℕ) : ℕ := if behind wptr rptr then u32Sub wptr rptr else 0

lemma remaining_nextRptr_lt {rptr : ℕ} (hlt : behind h.wptr rptr) :
    remaining h.wptr (nextRptr c h rptr) < remaining h.wptr rptr := by
  obtain ⟨n, h1, h4, hn⟩ := nextRptr_eq c h rptr
  rw [remaining, remaining, if_pos hlt, hn]
  obtain ⟨hpos, hhalf⟩ := hlt
  by_cases hgo : behind h.wptr (u32 (rptr + n))
  · rw [if_pos hgo]
    obtain ⟨-, hnew⟩ := hgo
    rw [u32Sub_add h4] at hnew ⊢
    split_ifs at hnew ⊢ <;> omega
  · rw [if_neg hgo]
    exact hpos

/-- The loop of `do_parse`: the read pointer in the end, and the entries that were taken for headers,
each with the line that was printed for it. -/
def parseLoop (rptr : ℕ) : ℕ × List (ℕ × Option TraceLine) :=
  if _h : behind h.wptr rptr then
    let q := parseLoop (nextRptr c h rptr)
    (q.1, (rptr, parseEntry c h rptr) :: q.2)
  else (rptr, [])
  termination_by remaining h.wptr rptr
  decreasing_by exact remaining_nextRptr_lt c h _h

/-- `do_parse` -/
def doParse (rptr : ℕ) : ℕ × List (ℕ × Option TraceLine) :=
  parseLoop c h (skipOverflow c h.wptr rptr)

/-! ## The tool -/

/-- The position of the entry at `rptr` in all that was written: entries of the last wrap, behind the
write pointer. -/
def Snapshot.position (h : Snapshot) (rptr : ℕ) : ℤ := h.writePtr - u32Sub h.wptr rptr

/-- A call of `do_parse`: whether anything was written since the last one, and what it printed. -/
structure TraceCall where
  newData : Bool
  lines : List TraceLine
  deriving DecidableEq, Repr

/-- The tool between two snapshots.  What it took for headers so far and what it printed is kept in
`heads` and `calls`; nothing reads them. -/
structure TraceSys where
  rptr : ℕ
  /-- `writePtr` of the last snapshot -/
  written : Option ℕ
  heads : List ℤ
  calls : List TraceCall
  deriving DecidableEq, Repr

/-- One call.  In front of the first one, `main` makes the overflow test as well. -/
def TraceSys.parse (s : TraceSys) : TraceSys :=
  let p := doParse c h (if s.written = none then skipOverflow c h.wptr s.rptr else s.rptr)
  { rptr := p.1
    written := some h.writePtr
    heads := s.heads ++ p.2.map fun e => h.position e.1
    calls := s.calls ++ [⟨s.written ≠ some h.writePtr, p.2.filterMap Prod.snd⟩] }

/-- One step: the write pointer never goes back, and is less than half of its range ahead of the
last snapshot. -/
def TraceSys.step (c : TraceArgs) (s : TraceSys) (h : Snapshot) : Option TraceSys :=
  if ∀ w ∈ s.written, w ≤ h.writePtr ∧ h.writePtr < w + 2147483648 then
    some (s.parse c h)
  else none

def TraceSys.init : TraceSys := ⟨0, none, [], []⟩

/-- **What must hold**: no entry is taken for a header twice, and where nothing was written since the
last call nothing is printed. -/
structure TraceOnce (s : TraceSys) : Prop where
  once : s.heads.Nodup
  quiet : ∀ call ∈ s.calls, call.newData = false → call.lines = []

/-- The read pointer is past the write pointer, as a record leaves it whose parameters are not
written yet, and the overflow test takes this for an overflow. -/
def Overrun (c : TraceArgs) (s : TraceSys) (h : Snapshot) : Prop :=
  ∃ w ∈ s.written, h.writePtr - w < u32Sub s.rptr (u32 w) ∧ u32Sub s.rptr (u32 w) ≤ 3 ∧
    c.logBufEntries ≤ u32Sub h.wptr s.rptr

instance (c : TraceArgs) (s : TraceSys) (h : Snapshot) : Decidable (Overrun c s h) :=
  inferInstanceAs (Decidable (∃ w ∈ s.written, _))

/-! ## One call -/

section Call

variable {c : TraceArgs} {h : Snapshot} {r : ℕ} {pos : ℤ}

/-- A read pointer is the residue of a position. -/
def AtPosition (r : ℕ) (pos : ℤ) : Prop := (r : ℤ) = pos % 4294967296

lemma skipOverflow_twice (wptr rptr : ℕ) :
    skipOverflow c wptr (skipOverflow c wptr rptr) = skipOverflow c wptr rptr := by
  simp only [skipOverflow]
  split_ifs <;> rfl

/-- How far a position is behind. -/
lemma AtPosition.sub (hr : AtPosition r pos) :
    (u32Sub h.wptr r : ℤ) = (h.writePtr - pos) % 4294967296 := by
  rw [u32Sub_cast, hr, Snapshot.wptr, u32, Int.natCast_mod]
  push_cast
  omega

lemma AtPosition.next (hr : AtPosition r pos) (n : ℕ) : AtPosition (u32 (r + n)) (pos + n) := by
  rw [AtPosition] at *
  rw [u32, Int.natCast_mod]
  push_cast
  omega

/-- **The loop** from a position that is not half of the range behind: the entries are taken in
order, and the loop ends at most three positions past the write pointer. -/
lemma parseLoop_positions (c : TraceArgs) (hr : AtPosition r pos)
    (hnear : h.writePtr - pos < 2147483648) (hpast : pos ≤ h.writePtr + 3) :
    ∃ upto, AtPosition (parseLoop c h r).1 upto ∧ pos ≤ upto ∧
      h.writePtr ≤ max pos upto ∧ upto ≤ h.writePtr + 3 ∧ ¬ behind h.wptr (parseLoop c h r).1 ∧
      ((parseLoop c h r).2.map fun e => h.position e.1).Pairwise (· < ·) ∧
      ∀ x ∈ (parseLoop c h r).2.map fun e => h.position e.1, pos ≤ x ∧ x < upto := by
  induction r using parseLoop.induct c h generalizing pos with
  | case1 r hlt ih =>
      have hd := hr.sub (h := h)
      obtain ⟨n, h1, h4, hn⟩ := nextRptr_eq c h r
      obtain ⟨hpos, hhalf⟩ := hlt
      have hbehind : (u32Sub h.wptr r : ℤ) = h.writePtr - pos := by omega
      have hnext := hr.next n
      rw [← hn] at hnext
      obtain ⟨upto, hat, hle, hreach, hend, hstop, hinc, hin⟩ := ih hnext (by omega) (by omega)
      have hx : h.position r = pos := by
        rw [Snapshot.position, hbehind]
        omega
      rw [parseLoop, dif_pos ⟨hpos, hhalf⟩]
      refine ⟨upto, hat, by omega, by omega, hend, hstop, ?_, ?_⟩
      · rw [List.map_cons, List.pairwise_cons, hx]
        exact ⟨fun x hmem => by have := (hin x hmem).1; omega, hinc⟩
      · rw [List.map_cons, List.forall_mem_cons, hx]
        exact ⟨⟨le_rfl, by omega⟩, fun x hmem => by have := hin x hmem; omega⟩
  | case2 r hlt =>
      rw [parseLoop, dif_neg hlt]
      have hd := hr.sub (h := h)
      refine ⟨pos, hr, le_rfl, ?_, hpast, hlt, by simp, by simp⟩
      rw [behind] at hlt
      rw [max_self]
      omega

/-- A read pointer that is not overrun starts no earlier than it left off, or the loop does not
run. -/
lemma skipOverflow_position (hr : AtPosition r pos)
    (hok : pos ≤ h.writePtr ∨ u32Sub h.wptr r < c.logBufEntries ∧ pos ≤ h.writePtr + 3) :
    ∃ start, AtPosition (skipOverflow c h.wptr r) start ∧ pos ≤ start ∧
      (behind h.wptr (skipOverflow c h.wptr r) → start = h.position (skipOverflow c h.wptr r)) ∧
      (start ≤ h.writePtr ∨ start = pos) := by
  have hd := hr.sub (h := h)
  rw [skipOverflow]
  split_ifs with hover
  · have hlt : c.logBufEntries < 4294967296 := by omega
    have hat : AtPosition (u32Sub h.wptr c.logBufEntries) (h.writePtr - c.logBufEntries) := by
      rw [AtPosition, u32Sub_cast, Snapshot.wptr, u32, Int.natCast_mod]
      push_cast
      omega
    have hback := hat.sub (h := h)
    refine ⟨h.writePtr - c.logBufEntries, hat, ?_, fun _ => ?_, Or.inl (by omega)⟩
    · rcases hok with hle | ⟨hlow, -⟩
      · omega
      · omega
    · rw [Snapshot.position, hback]
      omega
  · by_cases hgo : behind h.wptr r
    · obtain ⟨hpos, hhalf⟩ := hgo
      have hle : pos ≤ h.writePtr := by
        rcases hok with hle | ⟨-, hle⟩
        · exact hle
        · omega
      refine ⟨h.position r, ?_, ?_, fun _ => rfl, Or.inl ?_⟩
      · rw [AtPosition, Snapshot.position, hd]
        rw [AtPosition] at hr
        omega
      · rw [Snapshot.position, hd]
        omega
      · rw [Snapshot.position]
        omega
    · exact ⟨pos, hr, le_rfl, fun hgo' => absurd hgo' hgo, Or.inr rfl⟩

end Call

/-! ## Every run -/

/-- Between two snapshots: the read pointer is that of a position behind all that was taken for a
header.  A call that finds the same snapshot again has nothing to do. -/
structure TraceInv (c : TraceArgs) (s : TraceSys) (upto : ℤ) : Prop where
  rptr : AtPosition s.rptr upto
  heads_lt : ∀ x ∈ s.heads, x < upto
  increasing : s.heads.Pairwise (· < ·)
  start : s.written = none → upto = 0
  upto_le : ∀ w ∈ s.written, upto ≤ w + 3
  settled : ∀ w ∈ s.written, ¬ behind (u32 w) s.rptr ∧
    (upto ≤ w → skipOverflow c (u32 w) s.rptr = s.rptr)
  quiet : ∀ call ∈ s.calls, call.newData = false → call.lines = []

variable {c : TraceArgs} {s t : TraceSys} {h : Snapshot} {upto : ℤ}

lemma TraceInv.traceOnce (hinv : TraceInv c s upto) : TraceOnce s :=
  ⟨hinv.increasing.imp ne_of_lt, hinv.quiet⟩

/-- The loop of a call starts behind one overflow test, also in the first call. -/
lemma TraceSys.parse_eq (c : TraceArgs) (h : Snapshot) (s : TraceSys) :
    doParse c h (if s.written = none then skipOverflow c h.wptr s.rptr else s.rptr)
      = parseLoop c h (skipOverflow c h.wptr s.rptr) := by
  rw [doParse]
  split_ifs
  · rw [skipOverflow_twice]
  · rfl

/-- A read pointer past the write pointer is not taken for an overflow. -/
lemma TraceInv.not_overrun (hinv : TraceInv c s upto)
    (hstep : ∀ w ∈ s.written, w ≤ h.writePtr ∧ h.writePtr < w + 2147483648)
    (hok : ¬ Overrun c s h) : upto ≤ h.writePtr ∨
      u32Sub h.wptr s.rptr < c.logBufEntries ∧ upto ≤ h.writePtr + 3 := by
  by_cases hle : upto ≤ h.writePtr
  · exact Or.inl hle
  · cases hw : s.written with
    | none =>
        rw [hinv.start hw] at hle
        omega
    | some w =>
        have hupto := hinv.upto_le w hw
        obtain ⟨hback, -⟩ := hstep w hw
        have hahead : (u32Sub s.rptr (u32 w) : ℤ) = (upto - w) % 4294967296 := by
          have hr := hinv.rptr
          rw [AtPosition] at hr
          rw [u32Sub_cast, hr, u32, Int.natCast_mod]
          push_cast
          omega
        refine Or.inr ⟨not_le.mp fun hover => hok ⟨w, hw, ?_, ?_, hover⟩, ?_⟩ <;> omega

/-- Where nothing was written since the last call, the loop does not run. -/
lemma TraceInv.quiet_call (hinv : TraceInv c s upto) (hw : s.written = some h.writePtr)
    (hok : upto ≤ h.writePtr ∨
      u32Sub h.wptr s.rptr < c.logBufEntries ∧ upto ≤ h.writePtr + 3) :
    ¬ behind h.wptr (skipOverflow c h.wptr s.rptr) := by
  obtain ⟨hstop, hsame⟩ := hinv.settled _ hw
  have hskip : skipOverflow c h.wptr s.rptr = s.rptr := by
    rcases hok with hle | ⟨hlt, -⟩
    · exact hsame hle
    · rw [skipOverflow, if_neg (by omega)]
  rw [hskip]
  exact hstop

/-- At the write pointer there is nothing to skip. -/
lemma skipOverflow_at {r : ℕ} (hr : AtPosition r h.writePtr) :
    skipOverflow c h.wptr r = r := by
  have hd := hr.sub (h := h)
  rw [sub_self] at hd
  rw [skipOverflow]
  split_ifs with hover
  · have hzero := u32Sub_cast h.wptr c.logBufEntries
    rw [AtPosition] at hr
    rw [Snapshot.wptr, u32, Int.natCast_mod] at hzero
    rw [Snapshot.wptr, u32]
    omega
  · rfl

/-- **One call** keeps the invariant. -/
lemma TraceInv.step (hinv : TraceInv c s upto) (ht : s.step c h = some t) (hok : ¬ Overrun c s h) :
    ∃ upto', TraceInv c t upto' := by
  rw [TraceSys.step] at ht
  split_ifs at ht with hstep
  obtain rfl := Option.some.inj ht
  have hnear := hinv.not_overrun hstep hok
  obtain ⟨start, hat, hle, hgo, hstart⟩ := skipOverflow_position hinv.rptr hnear
  have hquiet := fun hw => hinv.quiet_call (h := h) hw hnear
  simp only [TraceSys.parse, TraceSys.parse_eq]
  set r := skipOverflow c h.wptr s.rptr with hr
  by_cases hrun : behind h.wptr r
  · have hpos := hgo hrun
    obtain ⟨hd, hhalf⟩ := hrun
    have hback : h.writePtr - start = u32Sub h.wptr r := by
      rw [hpos, Snapshot.position]
      omega
    obtain ⟨upto', hat', hfrom, hreach, hend, hstop, hinc, hin⟩ :=
      parseLoop_positions (h := h) c hat (by omega) (by omega)
    refine ⟨upto', hat', ?_, ?_, by simp, ?_, ?_, ?_⟩
    · intro x hx
      rcases List.mem_append.mp hx with hold | hnew
      · have hlt := hinv.heads_lt x hold
        omega
      · exact (hin x hnew).2
    · refine List.pairwise_append.mpr ⟨hinv.increasing, hinc, fun x hx y hy => ?_⟩
      have hlt := hinv.heads_lt x hx
      have hge := (hin y hy).1
      omega
    · rintro w ⟨⟩
      exact hend
    · rintro w ⟨⟩
      refine ⟨hstop, fun hupto => skipOverflow_at ?_⟩
      have hreached : upto' = h.writePtr := by
        rcases le_max_iff.mp hreach with hmax | hmax <;> omega
      rw [hreached] at hat'
      exact hat'
    · intro call hcall hold
      rcases List.mem_append.mp hcall with hmem | hnew
      · exact hinv.quiet call hmem hold
      · obtain rfl := List.mem_singleton.mp hnew
        exact absurd ⟨hd, hhalf⟩ (hquiet (by simpa using hold))
  · rw [parseLoop, dif_neg hrun]
    simp only [List.map_nil, List.append_nil, List.filterMap_nil]
    refine ⟨start, hat, fun x hx => lt_of_lt_of_le (hinv.heads_lt x hx) hle, hinv.increasing,
      by simp, ?_, ?_, ?_⟩
    · rintro w ⟨⟩
      rcases hnear with hnear | ⟨-, hnear⟩ <;> omega
    · rintro w ⟨⟩
      exact ⟨hrun, fun _ => skipOverflow_twice _ _⟩
    · intro call hcall hold
      rcases List.mem_append.mp hcall with hmem | hnew
      · exact hinv.quiet call hmem hold
      · obtain rfl := List.mem_singleton.mp hnew
        rfl

lemma TraceInv.init (c : TraceArgs) : TraceInv c TraceSys.init 0 :=
  ⟨rfl, by simp [TraceSys.init], by simp [TraceSys.init], fun _ => rfl, by simp [TraceSys.init],
    by simp [TraceSys.init], by simp [TraceSys.init]⟩

/-- **Each record is printed once**, in every run where no call takes a read pointer past the write
pointer for an overflow. -/
theorem traceOnce_run {c : TraceArgs} {hs : List Snapshot} {t : TraceSys}
    (h : Machine.Exec (TraceSys.step c) (fun s h => ¬ Overrun c s h) TraceSys.init hs t) :
    TraceOnce t := by
  obtain ⟨upto, hinv⟩ : ∃ upto, TraceInv c t upto :=
    h.invariant (I := fun s => ∃ upto, TraceInv c s upto)
      (fun _ _ _ hok ht ⟨_, hinv⟩ => hinv.step ht hok) ⟨0, TraceInv.init c⟩
  exact hinv.traceOnce

/-- The header of a record with one parameter. -/
def oneParam : ℕ := 5 <<< 29 + 1 <<< 26

/-- A record with its parameter, read twice. -/
theorem traceOnce_run_two : TraceOnce
    ⟨2, some 2, [0], [⟨true, [⟨0, 0, 0, 0, false, [7, 0, 0]⟩]⟩, ⟨false, []⟩]⟩ :=
  traceOnce_run (show Machine.Exec (TraceSys.step ⟨4, 0⟩) (fun s h => ¬ Overrun ⟨4, 0⟩ s h)
      TraceSys.init (List.replicate 2 ⟨2, fun i => if i = 0 then oneParam else 7⟩) _ from
    .of_exec (by decide +kernel))

/-- In a log of four entries the header of a record is written, and its parameter is not.  The next
call finds the same snapshot and takes the read pointer for overrun: it prints the record again. -/
theorem not_traceOnce : ¬ ∀ (c : TraceArgs) (hs : List Snapshot) (t : TraceSys),
    4 ≤ c.logBufEntries →
    Machine.Exec (TraceSys.step c) (fun _ _ => True) TraceSys.init hs t → TraceOnce t := by
  intro h
  have hrun : Machine.Exec (TraceSys.step ⟨4, 0⟩) (fun _ _ => True) TraceSys.init
      (List.replicate 2 ⟨1, fun i => if i = 0 then oneParam else 0⟩)
      ⟨2, some 1, [0, -3, -2, -1, 0], [⟨true, [⟨0, 0, 0, 0, false, [0, 0, 0]⟩]⟩,
        ⟨false, [⟨0, 0, 0, 0, false, [0, 0, 0]⟩]⟩]⟩ :=
    Machine.Exec.of_exec (by decide +kernel)
  have hbad := (h _ _ _ le_rfl hrun).once
  exact absurd hbad (by decide)

end Wil6210
