import Wil6210.Wmi.Receive

/-!
# The event drain loop ends

`wmi_recv_cmd` leaves its loop where `tail` equals `head`.  A corrupt `head` need never be reached;
what ends the loop then is that each pass clears the `sync` of the descriptor it took, and the next
visit of this descriptor finds it clear.

`recvCmd_returns` is about the call on its own, with the firmware quiescent: the memory of the card
is arbitrary, and so is the outcome of each allocation.  The measure is the number of descriptors
whose `sync` is set.  Clearing a word never sets another one, so all that is asked of the ring is
that the mailbox registers, where the loop writes `tail`, are not in it.
-/

namespace Wil6210

open ByteMemory

/-! ## The loop on its own -/

/-- The address of descriptor `k` of a ring, as the driver computes it. -/
def MboxArea.descAddr (r : MboxArea) (k : ℕ) : ℕ := u32 (r.base + 8 * k)

namespace RecvSys

/-- `n` steps of `wmi_recv_cmd`, or fewer where it returns; `kmallocOk` is the outcome of an
allocation in each step. -/
def recvRun (s : RecvSys) (kmallocOk : ℕ → Bool) : ℕ → RecvSys
  | 0 => s
  | n + 1 => ((s.recvRun kmallocOk n).step (.recv (kmallocOk n))).getD (s.recvRun kmallocOk n)

/-- How many descriptors have their `sync` set. -/
def waiting (s : RecvSys) : ℕ :=
  ((Finset.range s.wil.rx.slots).filter fun k =>
    read32 s.wil.mem (hostaddr (s.wil.rx.descAddr k)) ≠ 0).card

end RecvSys

/-- **A ring that the loop can walk**: whole descriptors, `tail` at one of them, and the mailbox
registers elsewhere.  `base` is a `u32` and `size` a `u16`. -/
structure RingWalk (s : RecvSys) : Prop where
  base_lt : s.wil.rx.base < 4294967296
  size_lt : s.wil.rx.size < 65536
  size_pos : 0 < s.wil.rx.size
  size_dvd : 8 ∣ s.wil.rx.size
  tail : ∃ i < s.wil.rx.slots, s.wil.rx.tail = s.wil.rx.descAddr i
  ctl : ∀ k < s.wil.rx.slots,
    Apart (hostaddr (s.wil.rx.descAddr k)) 8 hostMbox sizeofMboxCtl

/-! ## One step -/

section Step

variable {s : RecvSys}

/-- What the ring and the control block have to do with a step: where the descriptors are. -/
lemma RingWalk.congr {t : RecvSys} (h : RingWalk s)
    (harea : t.wil.rx.toMboxArea = s.wil.rx.toMboxArea) (htail : t.wil.rx.tail = s.wil.rx.tail) :
    RingWalk t := by
  refine ⟨?_, ?_, ?_, ?_, ?_, ?_⟩
  · rw [harea]; exact h.base_lt
  · rw [harea]; exact h.size_lt
  · rw [harea]; exact h.size_pos
  · rw [harea]; exact h.size_dvd
  · rw [harea, htail]; exact h.tail
  · rw [harea]; exact h.ctl

lemma RecvSys.waiting_congr {t : RecvSys} (harea : t.wil.rx.toMboxArea = s.wil.rx.toMboxArea)
    (hmem : t.wil.mem = s.wil.mem) : t.waiting = s.waiting := by
  rw [waiting, waiting, harea, hmem]

/-- `tail` goes on to the next descriptor. -/
lemma RingWalk.next (h : RingWalk s) :
    ∃ i < s.wil.rx.slots, s.wil.rx.next s.wil.rx.tail = s.wil.rx.descAddr i := by
  obtain ⟨i, hi, htail⟩ := h.tail
  have hbase := h.base_lt
  have hsize := h.size_lt
  have hslots : s.wil.rx.size = 8 * s.wil.rx.slots := (Nat.mul_div_cancel' h.size_dvd).symm
  have hdist : u32 (s.wil.rx.tail + 4294967296 - s.wil.rx.base) = 8 * i := by
    rw [htail, MboxArea.descAddr]
    unfold u32
    omega
  refine ⟨(i + 1) % s.wil.rx.slots, Nat.mod_lt _ (by omega), ?_⟩
  rw [MboxArea.next, hdist, hslots, sizeofMboxRingDesc, ← Nat.mul_succ, Nat.mul_mod_mul_left]
  rfl

lemma RingWalk.advance {t : RecvSys} (h : RingWalk s)
    (harea : t.wil.rx.toMboxArea = s.wil.rx.toMboxArea)
    (htail : t.wil.rx.tail = s.wil.rx.next s.wil.rx.tail) : RingWalk t := by
  refine ⟨?_, ?_, ?_, ?_, ?_, ?_⟩ <;> rw [harea]
  · exact h.base_lt
  · exact h.size_lt
  · exact h.size_pos
  · exact h.size_dvd
  · rw [htail]; exact h.next
  · exact h.ctl

/-- Clearing the `sync` at `tail` leaves one less that is set. -/
lemma RingWalk.waiting_clear (h : RingWalk s)
    (hsync : read32 s.wil.mem (hostaddr s.wil.rx.tail) ≠ 0) {t : RecvSys}
    (harea : t.wil.rx.toMboxArea = s.wil.rx.toMboxArea)
    (hmem : t.wil.mem = write32 s.wil.mem (hostaddr s.wil.rx.tail) 0) :
    t.waiting < s.waiting := by
  obtain ⟨i, hi, htail⟩ := h.tail
  rw [RecvSys.waiting, RecvSys.waiting, harea, hmem]
  have hsub := Finset.monotone_filter_right (Finset.range s.wil.rx.slots)
    (p := fun k => read32 (write32 s.wil.mem (hostaddr s.wil.rx.tail) 0)
      (hostaddr (s.wil.rx.descAddr k)) ≠ 0)
    (q := fun k => read32 s.wil.mem (hostaddr (s.wil.rx.descAddr k)) ≠ 0)
    fun k _ hk hzero => hk (read32_write32_zero hzero _)
  refine Finset.card_lt_card ((Finset.ssubset_iff_of_subset hsub).mpr ⟨i, ?_, fun hcleared => ?_⟩)
  · exact Finset.mem_filter.mpr ⟨Finset.mem_range.mpr hi, htail ▸ hsync⟩
  · rw [Finset.mem_filter, ← htail, read32_write32 _ _ (by norm_num)] at hcleared
    exact hcleared.2 rfl

/-- Storing `tail` in the control block is seen in no descriptor. -/
lemma RingWalk.waiting_tail (h : RingWalk s) {v : ℕ} {t : RecvSys}
    (harea : t.wil.rx.toMboxArea = s.wil.rx.toMboxArea)
    (hmem : t.wil.mem = write32 s.wil.mem mboxRxTail v) : t.waiting = s.waiting := by
  rw [RecvSys.waiting, RecvSys.waiting, harea, hmem]
  refine congrArg Finset.card (Finset.filter_congr fun k hk => ?_)
  have hctl := h.ctl k (Finset.mem_range.mp hk)
  have htail := mboxRxTail_ctl
  rw [write32, read32_write_apart]
  rw [length_le32]
  unfold Apart at *
  omega

/-- The steps that are left of a pass. -/
def RecvPc.rank : RecvPc → ℕ
  | .clear _ => 1
  | .copy _ _ => 2
  | .alloc _ _ => 3
  | .hdr _ => 4
  | .desc => 5
  | .head => 6
  | .queue => 7
  | .add _ => 8
  | .tail _ => 9

/-- The event that was taken is not on the list yet. -/
def RecvPc.carries : RecvPc → ℕ
  | .tail _ | .add _ => 1
  | _ => 0

/-- The descriptor at `tail` was found with its `sync` set. -/
def RecvPc.found : RecvPc → Bool
  | .hdr _ | .alloc _ _ | .copy _ _ | .clear _ => true
  | _ => false

/-- In the loop, with `steps` more steps at most and `events` more events at most. -/
structure DrainInv (s : RecvSys) (steps events : ℕ) : Prop where
  walk : RingWalk s
  found : ∀ pc ∈ s.recv, pc.found = true → read32 s.wil.mem (hostaddr s.wil.rx.tail) ≠ 0
  steps_le : ∀ pc ∈ s.recv, 9 * s.waiting + pc.rank ≤ steps
  events_le : s.wil.pending.length + s.waiting + ((s.recv.map RecvPc.carries).getD 0) ≤ events

lemma RecvPc.rank_pos (pc : RecvPc) : 0 < pc.rank := by
  cases pc <;> exact Nat.succ_pos _

variable {steps events : ℕ} {t : RecvSys}

lemma DrainInv.pos (h : DrainInv s steps events) {pc : RecvPc} (hpc : s.recv = some pc) :
    0 < steps := by
  have hle := h.steps_le pc hpc
  have hpos := pc.rank_pos
  omega

/-- A step that writes nothing of what the driver and the firmware share. -/
lemma DrainInv.goto (h : DrainInv s steps events) {pc : RecvPc} (hpc : s.recv = some pc)
    (harea : t.wil.rx.toMboxArea = s.wil.rx.toMboxArea) (htail : t.wil.rx.tail = s.wil.rx.tail)
    (hmem : t.wil.mem = s.wil.mem) (hpending : t.wil.pending = s.wil.pending)
    (hfound : ∀ pc' ∈ t.recv, pc'.found = true →
      read32 s.wil.mem (hostaddr s.wil.rx.tail) ≠ 0)
    (hnext : ∀ pc' ∈ t.recv, pc'.rank < pc.rank ∧ pc'.carries = 0) :
    DrainInv t (steps - 1) events := by
  have hsteps := h.steps_le pc hpc
  have hevents := h.events_le
  have hsame := RecvSys.waiting_congr harea hmem
  have hcarries : (t.recv.map RecvPc.carries).getD 0 = 0 := by
    cases ht : t.recv with
    | none => rfl
    | some pc' => exact (hnext pc' ht).2
  refine ⟨h.walk.congr harea htail, ?_, fun pc' hpc' => ?_, ?_⟩
  · rw [hmem, htail]
    exact hfound
  · have hrank := (hnext pc' hpc').1
    omega
  · rw [hpending, hsame, hcarries]
    omega

/-- A step to a place that is nearer to the end, and behind the test of the descriptor. -/
lemma DrainInv.next (h : DrainInv s steps events) {pc pc' : RecvPc} (hpc : s.recv = some pc)
    (hrecv : t.recv = some pc') (hwalk : RingWalk t) (hfound : pc'.found = false)
    (hrank : 9 * t.waiting + pc'.rank < 9 * s.waiting + pc.rank)
    (hevents : t.wil.pending.length + t.waiting + pc'.carries
      ≤ s.wil.pending.length + s.waiting + pc.carries) :
    DrainInv t (steps - 1) events := by
  have hsteps := h.steps_le pc hpc
  have hold := h.events_le
  rw [hpc, Option.map_some, Option.getD_some] at hold
  refine ⟨hwalk, fun pc hpc' hpcFound => ?_, fun pc hpc' => ?_, ?_⟩
  · obtain rfl := Option.some.inj (hrecv.symm.trans hpc')
    exact absurd (hfound.symm.trans hpcFound) (by simp)
  · obtain rfl := Option.some.inj (hrecv.symm.trans hpc')
    omega
  · rw [hrecv, Option.map_some, Option.getD_some]
    omega

/-- `sync` is cleared: the event is taken. -/
lemma DrainInv.clear (h : DrainInv s steps events) {evt : List UInt8}
    (hpc : s.recv = some (.clear evt)) (hrecv : t.recv = some (.tail evt))
    (harea : t.wil.rx.toMboxArea = s.wil.rx.toMboxArea) (htail : t.wil.rx.tail = s.wil.rx.tail)
    (hmem : t.wil.mem = write32 s.wil.mem (hostaddr s.wil.rx.tail) 0)
    (hpending : t.wil.pending = s.wil.pending) : DrainInv t (steps - 1) events := by
  have hless := h.walk.waiting_clear (h.found _ hpc rfl) harea hmem
  refine h.next hpc hrecv (h.walk.congr harea htail) rfl ?_ ?_
  · simp only [RecvPc.rank]
    omega
  · rw [hpending]
    simp only [RecvPc.carries]
    omega

/-- `sync` is cleared, at the offset `off` of the descriptor. -/
lemma DrainInv.setClear (h : DrainInv s steps events) {evt : List UInt8}
    (hpc : s.recv = some (.clear evt)) {off : ℕ} (hoff : off = hostaddr s.wil.rx.tail)
    {mem : ℕ → UInt8} (hmem : mem = write32 s.wil.mem off 0) :
    DrainInv { s with wil := { s.wil with mem := mem }, recv := some (.tail evt) }
      (steps - 1) events :=
  h.clear hpc rfl rfl rfl (by rw [hmem, hoff]) rfl

/-- `tail` advances. -/
lemma DrainInv.advance (h : DrainInv s steps events) {evt : List UInt8}
    (hpc : s.recv = some (.tail evt)) (hrecv : t.recv = some (.add evt))
    (harea : t.wil.rx.toMboxArea = s.wil.rx.toMboxArea)
    (htail : t.wil.rx.tail = s.wil.rx.next s.wil.rx.tail)
    (hmem : t.wil.mem = write32 s.wil.mem mboxRxTail (s.wil.rx.next s.wil.rx.tail))
    (hpending : t.wil.pending = s.wil.pending) : DrainInv t (steps - 1) events := by
  have hsame := h.walk.waiting_tail harea hmem
  refine h.next hpc hrecv (h.walk.advance harea htail) rfl ?_ ?_
  · simp only [RecvPc.rank]
    omega
  · rw [hpending, hsame]
    simp only [RecvPc.carries, le_refl]

/-- `tail` is written. -/
lemma DrainInv.setTail (h : DrainInv s steps events) {evt : List UInt8}
    (hpc : s.recv = some (.tail evt)) {tail : ℕ} (htail : tail = s.wil.rx.next s.wil.rx.tail)
    {mem : ℕ → UInt8} (hmem : mem = write32 s.wil.mem mboxRxTail tail) :
    DrainInv { s with
      wil := { s.wil with rx := { s.wil.rx with tail := tail }, mem := mem }
      recv := some (.add evt) } (steps - 1) events :=
  h.advance hpc rfl rfl htail (by rw [hmem, htail]) rfl

/-- The event is added to the list. -/
lemma DrainInv.add (h : DrainInv s steps events) {evt : List UInt8}
    (hpc : s.recv = some (.add evt)) (hrecv : t.recv = some .queue)
    (harea : t.wil.rx.toMboxArea = s.wil.rx.toMboxArea) (htail : t.wil.rx.tail = s.wil.rx.tail)
    (hmem : t.wil.mem = s.wil.mem) (hpending : t.wil.pending = s.wil.pending ++ [evt]) :
    DrainInv t (steps - 1) events := by
  have hsame := RecvSys.waiting_congr harea hmem
  refine h.next hpc hrecv (h.walk.congr harea htail) rfl ?_ ?_
  · simp only [RecvPc.rank]
    omega
  · rw [hpending, hsame, List.length_append, List.length_singleton]
    simp only [RecvPc.carries]
    omega

/-- **One step** is one less. -/
lemma DrainInv.recvStep (h : DrainInv s steps events) {pc : RecvPc} (hpc : s.recv = some pc)
    (ok : Bool) : DrainInv (s.recvStep ok pc) (steps - 1) events := by
  have hread := h.found pc hpc
  cases pc with
  | head =>
      have hnext : ∀ pc' ∈ (s.recvStep ok .head).recv, pc' = .desc := fun pc' hpc' => by
        simp only [RecvSys.recvStep, Option.mem_def, Option.ite_none_left_eq_some] at hpc'
        exact (Option.some.inj hpc'.2).symm
      refine h.goto hpc rfl rfl rfl rfl (fun pc' hpc' hfound => ?_) fun pc' hpc' => ?_
      · obtain rfl := hnext pc' hpc'
        cases hfound
      · obtain rfl := hnext pc' hpc'
        exact ⟨by decide, rfl⟩
  | desc =>
      refine h.goto hpc rfl rfl rfl rfl (fun pc' hpc' _ => ?_) fun pc' hpc' => ?_ <;>
        simp only [RecvSys.recvStep, Option.mem_def, Option.ite_none_left_eq_some] at hpc'
      · exact hpc'.1
      · obtain rfl := Option.some.inj hpc'.2
        exact ⟨Nat.lt_succ_self 4, rfl⟩
  | hdr addr =>
      refine h.goto hpc rfl rfl rfl rfl (fun _ _ _ => hread rfl) fun pc' hpc' => ?_
      rw [RecvSys.recvStep] at hpc'
      cases hbuf : wmiBuffer addr with
      | none =>
          rw [hbuf] at hpc'
          cases hpc'
      | some src =>
          rw [hbuf] at hpc'
          obtain rfl := Option.some.inj hpc'
          exact ⟨Nat.lt_succ_self 3, rfl⟩
  | alloc src hdr =>
      refine h.goto hpc rfl rfl rfl rfl (fun _ _ _ => hread rfl) fun pc' hpc' => ?_
      simp only [RecvSys.recvStep, Option.mem_def, Option.ite_none_right_eq_some] at hpc'
      obtain rfl := Option.some.inj hpc'.2
      exact ⟨Nat.lt_succ_self 2, rfl⟩
  | copy src hdr =>
      refine h.goto hpc rfl rfl rfl rfl (fun _ _ _ => hread rfl) fun pc' hpc' => ?_
      obtain rfl := Option.some.inj hpc'
      exact ⟨Nat.lt_succ_self 1, rfl⟩
  | clear evt => exact h.setClear hpc rfl rfl
  | tail evt => exact h.setTail hpc rfl rfl
  | add evt => exact h.add hpc rfl rfl rfl rfl rfl
  | queue =>
      refine h.goto hpc rfl rfl rfl rfl (fun pc' hpc' hfound => ?_) fun pc' hpc' => ?_
      · obtain rfl := Option.some.inj hpc'
        cases hfound
      · obtain rfl := Option.some.inj hpc'
        exact ⟨Nat.lt_succ_self 6, rfl⟩

/-- **The whole run**: it has returned, or has as many steps less to go. -/
lemma DrainInv.recvRun (h : DrainInv s steps events) (ok : ℕ → Bool) (n : ℕ) :
    DrainInv (s.recvRun ok n) (steps - n) events := by
  induction n with
  | zero => exact h
  | succ n ih =>
      rw [RecvSys.recvRun, RecvSys.step]
      cases hpc : (s.recvRun ok n).recv with
      | none =>
          refine ⟨ih.walk, ih.found, fun pc hpc' => ?_, ih.events_le⟩
          exact absurd (hpc.symm.trans hpc') (by simp)
      | some pc => exact ih.recvStep hpc (ok n)

/-- So it returns. -/
lemma DrainInv.returned (h : DrainInv s steps events) (ok : ℕ → Bool) :
    (s.recvRun ok steps).recv = none := by
  by_contra hne
  obtain ⟨pc, hpc⟩ := Option.ne_none_iff_exists'.mp hne
  have hpos := (h.recvRun ok steps).pos hpc
  omega

end Step

/-! ## A call -/

/-- What `wmi_recv_cmd` has done when it returned: the events that it took were in the ring. -/
structure Drained (s t : RecvSys) : Prop where
  returned : t.recv = none
  events_le : t.wil.pending.length ≤ s.wil.pending.length + s.waiting

/-- **`wmi_recv_cmd` returns**, where nothing else takes a step: whatever `head` is, and the
descriptors, their buffers and the outcome of each allocation. -/
theorem recvCmd_returns {s : RecvSys} (h : RingWalk s) (hidle : s.recv = none)
    (kmallocOk : ℕ → Bool) :
    ∃ t, s.step .recvStart = some t ∧
      ∃ n ≤ 9 * s.waiting + 6, Drained s (t.recvRun kmallocOk n) := by
  have hstart : s.step .recvStart
      = some { s with recv := if s.wil.resetDone then some .head else none } := by
    rw [RecvSys.step, hidle]
    rfl
  have hinv : ∀ v : Option RecvPc, (∀ pc ∈ v, pc = .head) →
      DrainInv { s with recv := v } (9 * s.waiting + 6) (s.wil.pending.length + s.waiting) := by
    intro v hv
    refine ⟨h.congr rfl rfl, fun pc hpc hfound => ?_, fun pc hpc => ?_, ?_⟩
    · obtain rfl := hv pc hpc
      cases hfound
    · obtain rfl := hv pc hpc
      exact le_rfl
    · cases v with
      | none => exact le_rfl
      | some pc =>
          obtain rfl := hv pc rfl
          exact le_rfl
  have hinv := hinv (if s.wil.resetDone then some .head else none) fun pc hpc => by
    rw [Option.mem_def, Option.ite_none_right_eq_some] at hpc
    exact (Option.some.inj hpc.2).symm
  refine ⟨_, hstart, _, le_rfl, hinv.returned kmallocOk, ?_⟩
  have hle := (hinv.recvRun kmallocOk (9 * s.waiting + 6)).events_le
  omega

/-- A ring of two descriptors with an event in each, and a `head` that `tail` never comes to. -/
def drainTwo : RecvSys where
  wil := ⟨write32 (write32 (write32 (write32 (write32 (fun _ => 0) 0x500 1) 0x504 0x800100)
    0x508 1) 0x50c 0x800110) mboxRxHead 1, true, ⟨eventsTwo, 0x880508, 0⟩, []⟩
  recv := none
  queued := false
  worker := .idle
  fw := .idle
  posted := []
  dispatched := []

lemma drainTwo_walk : RingWalk drainTwo where
  base_lt := by decide
  size_lt := by decide
  size_pos := by decide
  size_dvd := by decide
  tail := ⟨1, by decide, rfl⟩
  ctl := by decide

theorem recvCmd_returns_corrupt :
    drainTwo.waiting = 2 ∧ ∃ t, drainTwo.step .recvStart = some t ∧
      ∃ n ≤ 9 * drainTwo.waiting + 6, Drained drainTwo (t.recvRun (fun _ => true) n) :=
  ⟨by decide +kernel, recvCmd_returns drainTwo_walk rfl fun _ => true⟩

end Wil6210
