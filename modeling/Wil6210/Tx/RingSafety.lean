import Wil6210.Lib.Machine
import Wil6210.Tx.Cleanup

/-!
# Tx ring safety

`wil_tx_vring`, the hardware and `wil_tx_complete` advance over one ring.  `TxSys` adds to the
state of the driver how many descriptors were ever posted, passed by the hardware, and released;
these counts never wrap, and the ring's own `swhead` and `swtail` are their residues
(`RingInv`).  The hardware passes descriptors in ring order.  It marks only descriptors it has
passed, at once or later, and a descriptor with the EOP bit at once.

`txRing_safe` is the result: in every reachable state no call of `wil_tx_vring` touches a posted
slot, no call of `wil_tx_complete` releases a slot that the hardware has not passed, and every
posted slot holds one reference to its buffer.
-/

namespace Wil6210

open Circular (slots mem_slots)

/-! ## The three actors -/

/-- The ring, the counts of descriptors posted, passed and released, and the trace. -/
structure TxSys where
  tx : TxState
  posted : ℕ
  passed : ℕ
  released : ℕ
  log : List TxEvent

inductive TxAction
  /-- A call of `wil_tx_vring`. -/
  | xmit (q : TxRequest)
  /-- The hardware passes the next descriptor, marking it or not. -/
  | hwPass (du : Bool) (error : ℕ)
  /-- The hardware marks descriptor `k`, which it passed before. -/
  | hwMark (k error : ℕ)
  /-- A call of `wil_tx_complete`. -/
  | complete

/-- The hardware writes back a descriptor as done. -/
def Vring.writeBack (v : Vring) (i error : ℕ) : Vring :=
  v.setDesc i { v.desc i with error := error, status := (v.desc i).status ||| txDmaStatusDu }

/-- The next descriptor for the hardware. -/
def TxSys.next (s : TxSys) : VringTxDesc := s.tx.vring.desc (s.passed % s.tx.vring.size)

/-- One step of the driver or of the hardware. -/
def TxSys.step (s : TxSys) : TxAction → Option TxSys
  | .xmit q =>
      let r := wilTxVring s.tx q
      some { s with
        tx := r.1
        posted := s.posted + (if r.2.2 = 0 then q.nrFrags + 1 else 0)
        log := s.log ++ r.2.1 }
  | .hwPass du error =>
      if s.passed < s.posted ∧ (s.next.eop → du = true) then
        some { s with
          tx := if du then
              { s.tx with vring := s.tx.vring.writeBack (s.passed % s.tx.vring.size) error }
            else s.tx
          passed := s.passed + 1 }
      else none
  | .hwMark k error =>
      if s.released ≤ k ∧ k < s.passed then
        some { s with tx := { s.tx with vring := s.tx.vring.writeBack (k % s.tx.vring.size) error } }
      else none
  | .complete =>
      let r := wilTxComplete s.tx
      some { s with tx := r.1, released := s.released + r.2.2, log := s.log ++ r.2.1 }

/-- A ring of `size` descriptors fresh from `wil_vring_alloc`; the rest of the state is arbitrary. -/
def TxSys.init (s : TxState) (size : ℕ) : TxSys :=
  { tx := { s with vring := (wilVringAlloc true { s.vring with size := size }).1 }
    posted := 0
    passed := 0
    released := 0
    log := [] }

/-! ## The invariant -/

/-- The slots of `[swtail, swhead)`. -/
def Vring.postedSlots (v : Vring) : List ℕ := slots v.size v.swtail v.used

/-- What holds between two steps. -/
structure RingInv (s : TxSys) : Prop where
  va : s.tx.vring.va = true
  ring : RingAt s.tx.vring s.released s.passed s.posted
  refs : ∀ p, taken p s.log
    = dropped p s.log + heldRefs s.tx.vring p s.released (s.posted - s.released)

variable {s t : TxSys}

lemma ringInv_init (s : TxState) {size : ℕ} (hsize : 0 < size) : RingInv (TxSys.init s size) := by
  refine ⟨rfl, ⟨?_, ?_, le_rfl, le_rfl, ?_, ?_, ?_⟩, ?_⟩
  · show 0 = 0 % size
    simp
  · show 0 = 0 % size
    simp
  · show 0 < 0 + size
    omega
  · intro k _ hk
    exact absurd hk (Nat.not_lt_zero k)
  · intro k _ hk
    exact absurd hk (Nat.not_lt_zero k)
  · intro p
    simp [TxSys.init, heldRefs]

/-- A call of `wil_tx_vring` keeps the invariant. -/
lemma RingInv.xmit (h : RingInv s) (q : TxRequest) (ht : s.step (.xmit q) = some t) :
    RingInv t := by
  obtain ⟨n, hn⟩ := txPosting s.tx q (by
    rw [h.ring.swhead]
    exact Nat.mod_lt _ h.ring.size_pos)
  have hcount : (if (wilTxVring s.tx q).2.2 = 0 then q.nrFrags + 1 else 0)
      = if (wilTxVring s.tx q).2.2 = 0 then n else 0 := by
    split_ifs with hrc
    · exact (hn.success hrc).1.symm
    · rfl
  obtain rfl := Option.some.inj ht
  simp only [hcount]
  refine ⟨hn.va.trans h.va, h.ring.posting hn.ring, fun p => ?_⟩
  have hrefs := h.ring.posting_refs hn.ring p
  have hlog := h.refs p
  simp only [taken_append, dropped_append]
  omega

/-- A write-back keeps the ring as it is, in front of the position written back. -/
lemma RingAt.writeBack {v : Vring} {released passed posted k : ℕ}
    (h : RingAt v released passed posted) (hk : released ≤ k) (hkp : k < passed) (error : ℕ) :
    RingAt (v.writeBack (k % v.size) error) released passed posted := by
  have hroom := h.room
  refine ⟨h.swtail, h.swhead, h.released_le, h.passed_le, hroom, ?_, h.held⟩
  intro j hj hjp
  have hne : j % v.size ≠ k % v.size := (Circular.ne_of_window (by omega) (by omega)).symm
  simpa [Vring.writeBack, Vring.setDesc, hne] using h.clear j hj hjp

/-- Passing the next descriptor leaves one unpassed descriptor less to speak of. -/
lemma RingAt.pass {v : Vring} {released passed posted : ℕ}
    (h : RingAt v released passed posted) (hlt : passed < posted) :
    RingAt v released (passed + 1) posted :=
  ⟨h.swtail, h.swhead, h.released_le.trans (Nat.le_succ _), hlt, h.room,
    fun k hk => h.clear k (by omega), h.held⟩

/-- A step of the hardware keeps the invariant. -/
lemma RingInv.hwPass (h : RingInv s) (du : Bool) (error : ℕ)
    (ht : s.step (.hwPass du error) = some t) : RingInv t := by
  simp only [TxSys.step] at ht
  split_ifs at ht with hlt hdu
  · obtain rfl := Option.some.inj ht
    exact ⟨h.va, (h.ring.pass hlt.1).writeBack h.ring.released_le (Nat.lt_succ_self _) error,
      h.refs⟩
  · obtain rfl := Option.some.inj ht
    exact ⟨h.va, h.ring.pass hlt.1, h.refs⟩

/-- A late mark keeps the invariant. -/
lemma RingInv.hwMark (h : RingInv s) (k error : ℕ) (ht : s.step (.hwMark k error) = some t) :
    RingInv t := by
  simp only [TxSys.step] at ht
  split_ifs at ht with hk
  obtain rfl := Option.some.inj ht
  exact ⟨h.va, h.ring.writeBack hk.1 hk.2 error, h.refs⟩

/-- A call of `wil_tx_complete` keeps the invariant. -/
lemma RingInv.complete (h : RingInv s) (ht : s.step .complete = some t) : RingInv t := by
  obtain ⟨n, hn⟩ := txCompletion h.va h.ring
  obtain rfl := Option.some.inj ht
  simp only [hn.done]
  refine ⟨hn.va.trans h.va, h.ring.completion hn, fun p => ?_⟩
  have hrefs := h.ring.completion_refs hn p
  have hlog := h.refs p
  simp only [taken_append, dropped_append, hn.taken]
  omega

/-- **Every step keeps the invariant.** -/
theorem RingInv.step (h : RingInv s) {a : TxAction} (ht : s.step a = some t) : RingInv t := by
  cases a with
  | xmit q => exact h.xmit q ht
  | hwPass du error => exact h.hwPass du error ht
  | hwMark k error => exact h.hwMark k error ht
  | complete => exact h.complete ht

/-! ## Safety -/

/-- What is safe about a state: the registers, the room, the next calls, the references. -/
structure RingSafe (s : TxSys) : Prop where
  swhead_lt : s.tx.vring.swhead < s.tx.vring.size
  swtail_lt : s.tx.vring.swtail < s.tx.vring.size
  /-- As many slots are posted as `swhead - swtail` says, and not all of the ring. -/
  used_eq : s.tx.vring.used = s.posted - s.released
  used_le : s.posted - s.released ≤ s.tx.vring.size - 1
  /-- The next `wil_tx_vring` writes no posted slot. -/
  write : ∀ q i, .write i ∈ (wilTxVring s.tx q).2.1 → i ∉ s.tx.vring.postedSlots
  /-- The next `wil_tx_complete` releases slots that the hardware has passed. -/
  release : ∀ i, .release i ∈ (wilTxComplete s.tx).2.1 →
    ∃ k, s.released ≤ k ∧ k < s.passed ∧ s.passed ≤ s.posted ∧ k % s.tx.vring.size = i
  /-- Every posted slot holds a buffer. -/
  held : ∀ i ∈ s.tx.vring.postedSlots, ∃ skb, s.tx.vring.ctx i = some skb
  /-- The references taken and not dropped are those of the posted slots, buffer by buffer. -/
  refs : ∀ p, taken p s.log
    = dropped p s.log + s.tx.vring.postedSlots.countP fun i => (s.tx.vring.ctx i).any p
  /-- One for each slot. -/
  refs_all : taken (fun _ => true) s.log = dropped (fun _ => true) s.log + s.tx.vring.used

/-- The invariant is what makes the state safe. -/
lemma RingInv.safe (h : RingInv s) : RingSafe s := by
  have hpos := h.ring.size_pos
  have hroom := h.ring.room
  have hslots : s.tx.vring.postedSlots
      = slots s.tx.vring.size s.released (s.posted - s.released) := by
    rw [Vring.postedSlots, h.ring.used_eq, h.ring.swtail, Circular.slots_mod]
  have hhead : s.tx.vring.swhead < s.tx.vring.size := by
    rw [h.ring.swhead]
    exact Nat.mod_lt _ hpos
  have hheld : ∀ i ∈ s.tx.vring.postedSlots, ∃ skb, s.tx.vring.ctx i = some skb := by
    intro i hi
    rw [hslots] at hi
    obtain ⟨k, hk, hk', rfl⟩ := mem_slots.mp hi
    exact h.ring.held k hk (by omega)
  have hrefs : ∀ p, taken p s.log
      = dropped p s.log + s.tx.vring.postedSlots.countP fun i => (s.tx.vring.ctx i).any p := by
    intro p
    rw [h.refs p, hslots, slots, List.countP_map]
    rfl
  refine ⟨hhead, ?_, h.ring.used_eq, by omega, ?_, ?_, hheld, hrefs, ?_⟩
  · rw [h.ring.swtail]
    exact Nat.mod_lt _ hpos
  · intro q i hi hmem
    obtain ⟨n, hn⟩ := txPosting s.tx q hhead
    have hnroom := hn.room
    rw [wilVringAvailTx, h.ring.used_eq] at hnroom
    rw [hslots] at hmem
    obtain ⟨k, hk, hk', rfl⟩ := mem_slots.mp hmem
    have hwrite := hn.write _ hi
    rw [h.ring.swhead, Circular.slots_mod] at hwrite
    exact Circular.notMem_slots (by omega) (by omega) hwrite
  · intro i hi
    obtain ⟨n, hn⟩ := txCompletion h.va h.ring
    have hpassed := hn.passed_le
    obtain ⟨k, hk, hk', rfl⟩ := mem_slots.mp (hn.release i hi)
    exact ⟨k, hk, by omega, h.ring.passed_le, rfl⟩
  · rw [hrefs, List.countP_eq_length.mpr, Vring.postedSlots]
    · simp [slots]
    · intro i hi
      obtain ⟨skb, hskb⟩ := hheld i hi
      simp [hskb]

/-- **Tx ring safety.**  Whatever packets are sent, however many fragments they have and whichever
of them cannot be mapped, and however far the hardware and the cleanup are: every state that a
run can reach is safe. -/
theorem txRing_safe {size : ℕ} (hsize : 2 ≤ size) (tx : TxState) (as : List TxAction)
    (h : Machine.Exec TxSys.step (fun _ _ => True) (TxSys.init tx size) as s) : RingSafe s := by
  have hinv : RingInv s :=
    h.invariant (fun _ _ _ _ ht hi => hi.step ht) (ringInv_init tx (by omega))
  exact hinv.safe

/-- A ring that was not written yet. -/
def blankTx : TxState :=
  ⟨⟨false, fun _ => ⟨0, 0, 0, 0, 0, 0, 0, 0, 0, 0, 0⟩, 0, 0, 0, 0, fun _ => none⟩, fun _ => ⟨0, 0⟩,
    ⟨0, 0, 0⟩, ⟨0, 0, 0⟩⟩

/-- A packet of one piece, which is mapped. -/
def onePiece : TxRequest :=
  ⟨⟨7, 60, 60, [], false, 0, 0, 0, 0, 0⟩, 0, false, fun _ => some 4096⟩

/-- A ring of four: a packet of two pieces, one whose fragment cannot be mapped, both descriptors
passed, a cleanup. -/
theorem txRing_safe_four :
    ∃ s, RingSafe s ∧ (s.posted, s.passed, s.released) = (2, 2, 1) := by
  let skb : TxSkb := ⟨7, 100, 60, [40], false, 0, 0, 0, 0, 0⟩
  let as : List TxAction := [.xmit ⟨skb, 0, false, fun _ => some 4096⟩,
    .xmit ⟨skb, 0, false, fun f => if f = 0 then some 4096 else none⟩,
    .hwPass false 0, .hwPass true 0, .complete]
  have hrun : (Machine.exec TxSys.step (fun _ _ => True) (TxSys.init blankTx 4) as).map
      (fun s => (s.posted, s.passed, s.released)) = some (2, 2, 1) := by
    decide +kernel
  obtain ⟨s, hs, hcounts⟩ := Option.map_eq_some_iff.mp hrun
  exact ⟨s, txRing_safe (by norm_num) blankTx as (.of_exec hs), hcounts⟩

end Wil6210
