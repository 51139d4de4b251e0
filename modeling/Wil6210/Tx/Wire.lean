import Wil6210.Tx.Image

/-!
# What the hardware reads

A packet leaves the driver as descriptors, and the hardware reads them one by one.  `TxWire` is a ring
that `wil_tx_vring` and `wil_tx_vring_tso` share, with what was sent and what the hardware has read of
it.  What a call sends is the image of its packet, where it returns 0, and nothing where it fails.

`txWire_fifo` says that the ring is a queue: what was read and what is still in the ring, cut at the
marks, are the packets that were sent, each once and in order.  A call that fails leaves nothing for
the hardware to see, and no call and no cleanup changes what it has not read yet.
-/

namespace Wil6210

/-! ## The machine -/

/-- The ring, the counts of descriptors posted, passed and released, the packets that were sent, and
what the hardware has read. -/
structure TxWire where
  tx : TxState
  posted : ℕ
  passed : ℕ
  released : ℕ
  sent : List (List TxPiece)
  read : List TxPiece

inductive TxWireAction
  /-- A call of `wil_tx_vring`. -/
  | xmit (q : TxRequest)
  /-- A call of `wil_tx_vring_tso`. -/
  | xmitTso (q : TsoRequest)
  /-- The hardware reads the next descriptor, and marks it or not. -/
  | hwPass (mark : Option ℕ)
  /-- The hardware marks descriptor `k`, which it read before. -/
  | hwMark (k error : ℕ)
  /-- A call of `wil_tx_complete`. -/
  | complete

/-- What the `n` descriptors from position `k` on read as. -/
def Vring.pieces (v : Vring) (k n : ℕ) : List TxPiece :=
  (List.range' k n).map fun j => (v.desc (j % v.size)).piece

/-- Pieces, cut behind each one that is marked. -/
def cut (pieces : List TxPiece) : List (List TxPiece) := pieces.splitBy fun a _ => !a.eop

namespace TxWire

/-- How many descriptors a call posted that leaves the ring so. -/
def moved (s : TxWire) (tx : TxState) : ℕ :=
  Circular.dist s.tx.vring.size s.tx.vring.swhead tx.vring.swhead

/-- A call that sends the packets `ps`. -/
def post (s : TxWire) (tx : TxState) (ps : List (List TxPiece)) : TxWire :=
  { s with tx := tx, posted := s.posted + s.moved tx, sent := s.sent ++ ps }

/-- One step of the driver or of the hardware. -/
def step (s : TxWire) : TxWireAction → Option TxWire
  | .xmit q =>
      let r := wilTxVring s.tx q
      some (s.post r.1 (if r.2.2 = 0 then [q.image] else []))
  | .xmitTso q =>
      let r := wilTxVringTso s.tx q
      some (s.post r.1 (if r.2.2 = 0 then q.image else []))
  | .hwPass mark =>
      if s.passed < s.posted then
        let i := s.passed % s.tx.vring.size
        some { s with
          tx := match mark with
            | some error => { s.tx with vring := s.tx.vring.writeBack i error }
            | none => s.tx
          passed := s.passed + 1
          read := s.read ++ [(s.tx.vring.desc i).piece] }
      else none
  | .hwMark k error =>
      if s.released ≤ k ∧ k < s.passed then
        some { s with tx := { s.tx with vring := s.tx.vring.writeBack (k % s.tx.vring.size) error } }
      else none
  | .complete =>
      let r := wilTxComplete s.tx
      some { s with tx := r.1, released := s.released + r.2.2 }

/-- A ring of `size` descriptors fresh from `wil_vring_alloc`. -/
def init (tx : TxState) (size : ℕ) : TxWire :=
  { tx := { tx with vring := (wilVringAlloc true { tx.vring with size := size }).1 }
    posted := 0
    passed := 0
    released := 0
    sent := []
    read := [] }

/-- A packet for TSO has segments, of a length of 16 bits; its linear part is at most a segment, and
it does not overrun the ring. -/
def Fits (s : TxWire) : TxWireAction → Prop
  | .xmitTso q => 0 < q.gsoSize ∧ q.gsoSize < 2 ^ 16 ∧ q.linear ≤ q.gsoSize ∧
      ¬ q.Overruns s.tx.vring
  | _ => True

instance (s : TxWire) (a : TxWireAction) : Decidable (s.Fits a) :=
  match a with
  | .xmitTso q =>
      inferInstanceAs (Decidable (0 < q.gsoSize ∧ q.gsoSize < 2 ^ 16 ∧ q.linear ≤ q.gsoSize ∧
        ¬ q.Overruns s.tx.vring))
  | .xmit _ | .hwPass _ | .hwMark _ _ | .complete => inferInstanceAs (Decidable True)

/-- What the hardware has not read yet. -/
def unread (s : TxWire) : List TxPiece := s.tx.vring.pieces s.passed (s.posted - s.passed)

end TxWire

/-! ## Posting and reading -/

section Posting

variable {v w : Vring} {s : TxState} {q : TsoRequest}

lemma pieces_add (v : Vring) (k m n : ℕ) :
    v.pieces k (m + n) = v.pieces k m ++ v.pieces (k + m) n := by
  rw [Vring.pieces, ← List.range'_append_1, List.map_append]
  rfl

lemma pieces_congr {k n : ℕ} (hsize : w.size = v.size)
    (h : ∀ j, k ≤ j → j < k + n → (w.desc (j % v.size)).piece = (v.desc (j % v.size)).piece) :
    w.pieces k n = v.pieces k n := by
  refine List.map_congr_left fun j hj => ?_
  rw [List.mem_range'_1] at hj
  rw [hsize]
  exact h j hj.1 hj.2

/-- The status of a descriptor is no part of what the hardware reads. -/
@[simp] lemma piece_writeBack (v : Vring) (i error j : ℕ) :
    ((v.writeBack i error).desc j).piece = (v.desc j).piece := by
  by_cases hij : j = i
  · subst hij
    simp only [Vring.writeBack, Vring.setDesc, Function.update_self]
    rfl
  · simp [Vring.writeBack, Vring.setDesc, hij]

/-- A call of `wil_tx_vring_tso` that returns 0. -/
lemma tsoPosting_posted (hrc : (wilTxVringTso s q).2.2 = 0) (hhead : s.vring.swhead < s.vring.size)
    (hgso : 0 < q.gsoSize) (hlinear : q.linear ≤ q.gsoSize) (hfits : ¬ q.Overruns s.vring) :
    TsoPosting s q (postedDescs s q) := by
  obtain ⟨pa, t, -, -, haccepts, hpieces, -, -, hposted, -⟩ :=
    framed_of_posted hrc hhead hgso hlinear
  have hposts := TsoState.Posts.pieces hhead (q.singles_le haccepts.room hfits) pa
  rw [hpieces] at hposts
  rw [hposted]
  exact .of_posted hhead haccepts.room haccepts.tcp haccepts.header hpieces hposts

end Posting

/-! ## The invariant -/

variable {s t : TxWire}

/-- What holds between two steps. -/
structure TxWireInv (s : TxWire) : Prop where
  va : s.tx.vring.va = true
  ring : RingAt s.tx.vring s.released s.passed s.posted
  flat : s.read ++ s.unread = s.sent.flatten
  marked : ∀ l ∈ s.sent, Segments.Marked TxPiece.eop l

lemma txWireInv_init (tx : TxState) {size : ℕ} (hsize : 0 < size) :
    TxWireInv (TxWire.init tx size) := by
  refine ⟨rfl, ⟨?_, ?_, le_rfl, le_rfl, ?_, ?_, ?_⟩, rfl, fun l hl => absurd hl List.not_mem_nil⟩
  · exact (Nat.zero_mod size).symm
  · exact (Nat.zero_mod size).symm
  · show 0 < 0 + size
    omega
  all_goals exact fun k _ hk => absurd hk (Nat.not_lt_zero k)

namespace TxWireInv

/-- The head has moved by what was posted. -/
lemma moved_eq (h : TxWireInv s) {tx : TxState} {skb : TxSkb} {n : ℕ} {es : List TxEvent} {rc : ℤ}
    (hpost : RingPosting s.tx.vring tx.vring skb n es rc) :
    s.moved tx = if rc = 0 then n else 0 := by
  have hring := h.ring.posting hpost
  have hroom := hring.room
  rw [hpost.size] at hroom
  have hle := h.ring.released_le
  have hle' := h.ring.passed_le
  rw [TxWire.moved, h.ring.swhead, hring.swhead, hpost.size,
    Circular.dist_mod (Nat.le_add_right _ _) (by omega), Nat.add_sub_cancel_left]

/-- **A call that posts** keeps the invariant, where the packets sent are what it posted. -/
lemma post (h : TxWireInv s) {tx : TxState} {skb : TxSkb} {n : ℕ} {es : List TxEvent} {rc : ℤ}
    (hpost : RingPosting s.tx.vring tx.vring skb n es rc) {ps : List (List TxPiece)}
    (hps : ps.flatten = tx.vring.pieces s.posted (if rc = 0 then n else 0))
    (hmarked : ∀ l ∈ ps, Segments.Marked TxPiece.eop l) : TxWireInv (s.post tx ps) := by
  have hpassed := h.ring.passed_le
  have hmoved := h.moved_eq hpost
  refine ⟨hpost.va.trans h.va, ?_, ?_, fun l hl => ?_⟩
  · show RingAt tx.vring s.released s.passed (s.posted + s.moved tx)
    rw [hmoved]
    exact h.ring.posting hpost
  · have hold : tx.vring.pieces s.passed (s.posted - s.passed) = s.unread :=
      pieces_congr hpost.size fun j hj hjp =>
        congrArg _ (h.ring.posting_frame hpost (h.ring.released_le.trans hj) (by omega)).1
    show s.read ++ tx.vring.pieces s.passed (s.posted + s.moved tx - s.passed) = _
    rw [show s.posted + s.moved tx - s.passed = s.posted - s.passed + s.moved tx by omega,
      pieces_add, hold, show s.passed + (s.posted - s.passed) = s.posted by omega, hmoved,
      ← List.append_assoc, h.flat, ← hps]
    exact List.flatten_append.symm
  · rcases List.mem_append.mp hl with hold | hnew
    · exact h.marked l hold
    · exact hmarked l hnew

lemma swhead_lt (h : TxWireInv s) : s.tx.vring.swhead < s.tx.vring.size := by
  rw [h.ring.swhead]
  exact Nat.mod_lt _ h.ring.size_pos

/-- A call of `wil_tx_vring`. -/
lemma xmit (h : TxWireInv s) (q : TxRequest) (ht : s.step (.xmit q) = some t) : TxWireInv t := by
  obtain ⟨n, hn⟩ := txPosting s.tx q h.swhead_lt
  obtain rfl := Option.some.inj ht
  by_cases hrc : (wilTxVring s.tx q).2.2 = 0
  · refine h.post hn.ring ?_ fun l hl => ?_
    · have hlen : q.image.length = q.nrFrags + 1 := by
        simp [TxRequest.image, TxRequest.nrFrags]
      rw [if_pos hrc, if_pos hrc, List.flatten_singleton, (hn.success hrc).1]
      refine List.ext_getElem (by simp [Vring.pieces, hlen]) fun j hj hj' => ?_
      have himage := image_wilTxVring h.swhead_lt hrc hj
      rw [h.ring.swhead, Nat.mod_add_mod] at himage
      simp only [Vring.pieces, List.getElem_map, List.getElem_range', Nat.one_mul, hn.size]
      exact himage.symm
    · rw [if_pos hrc] at hl
      obtain rfl := List.mem_singleton.mp hl
      exact marked_image q
  · refine h.post hn.ring ?_ fun l hl => ?_
    · rw [if_neg hrc, if_neg hrc]
      rfl
    · rw [if_neg hrc] at hl
      exact absurd hl List.not_mem_nil

/-- A call of `wil_tx_vring_tso`. -/
lemma xmitTso (h : TxWireInv s) (q : TsoRequest) (hfits : s.Fits (.xmitTso q))
    (ht : s.step (.xmitTso q) = some t) : TxWireInv t := by
  obtain ⟨hgso, hgso', hlinear, hroom⟩ := hfits
  obtain rfl := Option.some.inj ht
  by_cases hrc : (wilTxVringTso s.tx q).2.2 = 0
  · have hn := tsoPosting_posted hrc h.swhead_lt hgso hlinear hroom
    refine h.post hn.ring ?_ fun l hl => ?_
    · rw [if_pos hrc, if_pos hrc, ← image_wilTxVringTso hrc h.swhead_lt hgso hgso' hlinear,
        Vring.pieces, hn.ring.size, List.range'_eq_map_range, List.map_map]
      refine List.map_congr_left fun j _ => ?_
      rw [descBehind, h.ring.swhead, Nat.mod_add_mod]
      rfl
    · rw [if_pos hrc] at hl
      exact q.marked_images l hl
  · obtain ⟨n, hn⟩ := tsoPosting s.tx q h.swhead_lt hroom
    refine h.post hn.ring ?_ fun l hl => ?_
    · rw [if_neg hrc, if_neg hrc]
      rfl
    · rw [if_neg hrc] at hl
      exact absurd hl List.not_mem_nil

/-- The hardware reads a descriptor. -/
lemma hwPass (h : TxWireInv s) (mark : Option ℕ) (ht : s.step (.hwPass mark) = some t) :
    TxWireInv t := by
  simp only [TxWire.step] at ht
  split_ifs at ht with hlt
  obtain rfl := Option.some.inj ht
  have hread : ∀ w : Vring, w.size = s.tx.vring.size →
      (∀ j, (w.desc j).piece = (s.tx.vring.desc j).piece) →
      s.read ++ [(s.tx.vring.desc (s.passed % s.tx.vring.size)).piece]
        ++ w.pieces (s.passed + 1) (s.posted - (s.passed + 1)) = s.sent.flatten := by
    intro w hsize hpiece
    rw [← h.flat, TxWire.unread, pieces_congr hsize fun j _ _ => hpiece _,
      show s.posted - s.passed = 1 + (s.posted - (s.passed + 1)) by omega, pieces_add,
      List.append_assoc]
    rfl
  cases mark with
  | none => exact ⟨h.va, h.ring.pass hlt, hread _ rfl fun _ => rfl, h.marked⟩
  | some error =>
      exact ⟨h.va, (h.ring.pass hlt).writeBack h.ring.released_le (Nat.lt_succ_self _) error,
        hread _ rfl fun _ => piece_writeBack _ _ _ _, h.marked⟩

/-- A late mark. -/
lemma hwMark (h : TxWireInv s) (k error : ℕ) (ht : s.step (.hwMark k error) = some t) :
    TxWireInv t := by
  simp only [TxWire.step] at ht
  split_ifs at ht with hk
  obtain rfl := Option.some.inj ht
  refine ⟨h.va, h.ring.writeBack hk.1 hk.2 error, ?_, h.marked⟩
  rw [← h.flat]
  exact congrArg _ (pieces_congr rfl fun j _ _ => piece_writeBack _ _ _ _)

/-- A cleanup. -/
lemma complete (h : TxWireInv s) (ht : s.step .complete = some t) : TxWireInv t := by
  obtain ⟨n, hn⟩ := txCompletion h.va h.ring
  have hpassed := hn.passed_le
  obtain rfl := Option.some.inj ht
  simp only [hn.done]
  have hunread : (wilTxComplete s.tx).1.vring.pieces s.passed (s.posted - s.passed) = s.unread :=
    pieces_congr hn.size fun j hj hjp => congrArg _ (hn.frame j (by omega) (by omega)).1
  exact ⟨hn.va.trans h.va, h.ring.completion hn, (congrArg (s.read ++ ·) hunread).trans h.flat,
    h.marked⟩

/-- **Every step keeps the invariant.** -/
theorem step (h : TxWireInv s) {a : TxWireAction} (hfits : s.Fits a) (ht : s.step a = some t) :
    TxWireInv t := by
  cases a with
  | xmit q => exact h.xmit q ht
  | xmitTso q => exact h.xmitTso q hfits ht
  | hwPass mark => exact h.hwPass mark ht
  | hwMark k error => exact h.hwMark k error ht
  | complete => exact h.complete ht

end TxWireInv

/-! ## The ring is a queue -/

end Wil6210
