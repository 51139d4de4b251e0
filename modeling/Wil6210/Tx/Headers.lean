import Wil6210.Tx.RingSafety
import Wil6210.Tx.TsoPost

/-!
# Headers that make no completion

A ring that `wil_tx_vring` and `wil_tx_vring_tso` share, and the hardware, which marks any posted
descriptor at any time.  `PacketSys` keeps, for every position, the packet it belongs to.

The hardware does not mark the descriptor with the headers of a TSO packet, and `wil_tx_vring_tso`
has `wil_tx_last_desc` set the EOP bit in it.  So it is what the second loop of `wil_tx_complete`
stops at, a descriptor that ends a packet and is not marked; `nodma_comp`, which was to tell the two
apart, is set behind that test.  `headersReleased_iff` says when this matters.
-/

namespace Wil6210

/-! ## The machine -/

/-- A packet on the ring: where it starts, its last piece mapped with `dma_map_single`, and whether
`wil_tx_vring_tso` posted it. -/
structure TxPacket where
  start : ℕ
  lastSingle : ℕ
  tso : Bool

/-- The ring, the counts of descriptors posted and released, and the packet of each position. -/
structure PacketSys where
  tx : TxState
  posted : ℕ
  released : ℕ
  packet : ℕ → TxPacket

inductive PacketAction
  /-- A call of `wil_tx_vring`. -/
  | xmit (q : TxRequest)
  /-- A call of `wil_tx_vring_tso`. -/
  | xmitTso (q : TsoRequest)
  /-- The hardware marks the descriptor at position `k`. -/
  | hwMark (k error : ℕ)
  /-- A call of `wil_tx_complete`. -/
  | complete

namespace PacketSys

/-- The descriptor at position `k`. -/
def descAt (s : PacketSys) (k : ℕ) : VringTxDesc := s.tx.vring.desc (k % s.tx.vring.size)

/-- A call that may have posted packet `p`. -/
def post (s : PacketSys) (tx : TxState) (p : TxPacket) : PacketSys :=
  { s with
    tx := tx
    posted := s.posted + Circular.dist s.tx.vring.size s.tx.vring.swhead tx.vring.swhead
    packet := fun k => if s.posted ≤ k then p else s.packet k }

/-- One step of the driver or of the hardware. -/
def step (s : PacketSys) : PacketAction → Option PacketSys
  | .xmit q => some (s.post (wilTxVring s.tx q).1 ⟨s.posted, s.posted, false⟩)
  | .xmitTso q =>
      some (s.post (wilTxVringTso s.tx q).1 ⟨s.posted, s.posted + q.singles - 1, true⟩)
  | .hwMark k error =>
      if s.released ≤ k ∧ k < s.posted then
        some { s with
          tx := { s.tx with vring := s.tx.vring.writeBack (k % s.tx.vring.size) error } }
      else none
  | .complete =>
      let r := wilTxComplete s.tx
      some { s with tx := r.1, released := s.released + r.2.2 }

/-- A ring of `size` descriptors fresh from `wil_vring_alloc`. -/
def init (tx : TxState) (size : ℕ) : PacketSys :=
  { tx := { tx with vring := (wilVringAlloc true { tx.vring with size := size }).1 }
    posted := 0
    released := 0
    packet := fun _ => ⟨0, 0, false⟩ }

/-- The packet that is posted does not overrun the ring. -/
def Fits (s : PacketSys) : PacketAction → Prop
  | .xmitTso q => ¬ q.Overruns s.tx.vring
  | _ => True

instance (s : PacketSys) (a : PacketAction) : Decidable (s.Fits a) :=
  match a with
  | .xmitTso q => inferInstanceAs (Decidable (¬ q.Overruns s.tx.vring))
  | .xmit _ | .hwMark _ _ | .complete => inferInstanceAs (Decidable True)

/-- The headers of a TSO packet are at position `k`. -/
def Header (s : PacketSys) (k : ℕ) : Prop := (s.packet k).tso = true ∧ (s.packet k).start = k

end PacketSys

instance (s : PacketSys) (k : ℕ) : Decidable (s.Header k) :=
  inferInstanceAs (Decidable (_ ∧ _))

variable {s t : PacketSys}

/-! ## The invariant -/

/-- What holds between two steps. -/
structure PacketInv (s : PacketSys) : Prop where
  va : s.tx.vring.va = true
  ring : RingAt s.tx.vring s.released s.posted s.posted
  /-- A packet is shorter than the ring. -/
  start_le : ∀ k, s.released ≤ k → k < s.posted → (s.packet k).start ≤ k
  lt_size : ∀ k, s.released ≤ k → k < s.posted → k < (s.packet k).start + s.tx.vring.size
  single : ∀ k, s.released ≤ k → k < s.posted → (s.packet k).start ≤ (s.packet k).lastSingle ∧
    (s.packet k).lastSingle < (s.packet k).start + s.tx.vring.size
  header : ∀ k, s.released ≤ k → k < s.posted → s.Header k → (s.descAt k).eop

lemma packetInv_init (tx : TxState) {size : ℕ} (hsize : 0 < size) :
    PacketInv (PacketSys.init tx size) := by
  have hnone : ∀ k, ¬ k < (PacketSys.init tx size).posted := fun k => Nat.not_lt_zero k
  refine ⟨rfl, ⟨?_, ?_, le_rfl, le_rfl, ?_, ?_, ?_⟩, ?_, ?_, ?_, ?_⟩
  · exact (Nat.zero_mod size).symm
  · exact (Nat.zero_mod size).symm
  · show 0 < 0 + size
    omega
  all_goals exact fun k _ hk => absurd hk (hnone k)

/-- The head has moved by what was posted. -/
lemma PacketInv.posted_eq (h : PacketInv s) {tx : TxState} {skb : TxSkb} {n : ℕ}
    {es : List TxEvent} {rc : ℤ} (hpost : RingPosting s.tx.vring tx.vring skb n es rc)
    (p : TxPacket) : (s.post tx p).posted = s.posted + if rc = 0 then n else 0 := by
  have hring := h.ring.posting hpost
  have hroom := hring.room
  rw [hpost.size] at hroom
  have hle := h.ring.released_le
  show s.posted + Circular.dist _ _ _ = _
  rw [h.ring.swhead, hring.swhead, hpost.size,
    Circular.dist_mod (Nat.le_add_right _ _) (by omega), Nat.add_sub_cancel_left]

/-- A call that posts keeps the invariant, where its packet is as it should be. -/
lemma PacketInv.post (h : PacketInv s) {tx : TxState} {skb : TxSkb} {n : ℕ} {es : List TxEvent}
    {rc : ℤ} (hpost : RingPosting s.tx.vring tx.vring skb n es rc) {p : TxPacket}
    (hstart : p.start = s.posted)
    (hsingle : rc = 0 → p.start ≤ p.lastSingle ∧ p.lastSingle < p.start + s.tx.vring.size)
    (hheader : rc = 0 → p.tso = true → (tx.vring.desc (s.posted % s.tx.vring.size)).eop) :
    PacketInv (s.post tx p) := by
  have hposted := h.posted_eq hpost p
  have hring := h.ring.posting hpost
  have hsize : (s.post tx p).tx.vring.size = s.tx.vring.size := hpost.size
  have hreleased : (s.post tx p).released = s.released := rfl
  have hroom := hpost.room
  rw [wilVringAvailTx, h.ring.used_eq] at hroom
  have hused := h.ring.room
  have hle := h.ring.released_le
  -- what was there belongs to the packet it belonged to, the rest to the new one
  have hold : ∀ k, k < s.posted → (s.post tx p).packet k = s.packet k := by
    intro k hk
    simp [PacketSys.post, Nat.not_le.mpr hk]
  have hnew : ∀ k, s.posted ≤ k → k < (s.post tx p).posted →
      rc = 0 ∧ k < s.posted + n ∧ (s.post tx p).packet k = p := by
    intro k hk hkp
    rw [hposted] at hkp
    by_cases hrc : rc = 0
    · rw [if_pos hrc] at hkp
      exact ⟨hrc, hkp, if_pos hk⟩
    · rw [if_neg hrc] at hkp
      omega
  refine ⟨hpost.va.trans h.va, ?_, fun k hk hkp => ?_, fun k hk hkp => ?_, fun k hk hkp => ?_,
    fun k hk hkp hheaderk => ?_⟩
  · rw [hposted, hreleased]
    refine ⟨hring.swtail, hring.swhead, by omega, le_rfl, hring.room, fun k hk hk' => ?_,
      hring.held⟩
    omega
  all_goals
    rw [hreleased] at hk
    rcases Nat.lt_or_ge k s.posted with hkold | hknew
  · rw [hold k hkold]
    exact h.start_le k hk hkold
  · obtain ⟨-, -, hp⟩ := hnew k hknew hkp
    rw [hp, hstart]
    exact hknew
  · rw [hold k hkold, hsize]
    exact h.lt_size k hk hkold
  · obtain ⟨-, hlt, hp⟩ := hnew k hknew hkp
    rw [hp, hstart, hsize]
    omega
  · rw [hold k hkold, hsize]
    exact h.single k hk hkold
  · obtain ⟨hrc, -, hp⟩ := hnew k hknew hkp
    rw [hp, hsize]
    exact hsingle hrc
  · rw [PacketSys.Header, hold k hkold] at hheaderk
    have hdesc := (h.ring.posting_frame hpost hk hkold).1
    rw [PacketSys.descAt, hsize]
    exact hdesc ▸ h.header k hk hkold hheaderk
  · obtain ⟨hrc, -, hp⟩ := hnew k hknew hkp
    rw [PacketSys.Header, hp, hstart] at hheaderk
    obtain ⟨htso, rfl⟩ := hheaderk
    rw [PacketSys.descAt, hsize]
    exact hheader hrc htso

/-- **Every step keeps the invariant**, as long as packets fit. -/
theorem PacketInv.step (h : PacketInv s) {a : PacketAction} (hfits : s.Fits a)
    (ht : s.step a = some t) : PacketInv t := by
  have hhead : s.tx.vring.swhead < s.tx.vring.size := by
    rw [h.ring.swhead]
    exact Nat.mod_lt _ h.ring.size_pos
  cases a with
  | xmit q =>
      obtain ⟨n, hn⟩ := txPosting s.tx q hhead
      obtain rfl := Option.some.inj ht
      refine h.post hn.ring rfl (fun _ => ⟨le_rfl, ?_⟩) fun _ htso => absurd htso (by simp)
      exact Nat.lt_add_of_pos_right h.ring.size_pos
  | xmitTso q =>
      obtain ⟨n, hn⟩ := tsoPosting s.tx q hhead hfits
      obtain rfl := Option.some.inj ht
      refine h.post hn.ring rfl (fun hrc => ?_) fun hrc _ => ?_
      · have hused := hn.used_pos hrc
        have hroom := hn.ring.room
        rw [wilVringAvailTx] at hroom
        show s.posted ≤ s.posted + q.singles - 1 ∧ s.posted + q.singles - 1 < s.posted + _
        rw [TsoRequest.singles]
        split_ifs <;> omega
      · rw [← h.ring.swhead]
        exact hn.header hrc
  | hwMark k error =>
      simp only [PacketSys.step] at ht
      split_ifs at ht with hk
      obtain rfl := Option.some.inj ht
      refine ⟨h.va, h.ring.writeBack hk.1 hk.2 error, h.start_le, h.lt_size, h.single, ?_⟩
      intro j hj hjp hheader
      have hold := h.header j hj hjp hheader
      by_cases hjk : j % s.tx.vring.size = k % s.tx.vring.size
      · simpa [PacketSys.descAt, Vring.writeBack, Vring.setDesc, hjk, VringTxDesc.eop] using hold
      · simpa [PacketSys.descAt, Vring.writeBack, Vring.setDesc, hjk] using hold
  | complete =>
      obtain ⟨n, hn⟩ := txCompletion h.va h.ring
      have hdone := hn.done
      have hring := h.ring.completion hn
      obtain rfl := Option.some.inj ht
      refine ⟨hn.va.trans h.va, ?_, ?_, ?_, ?_, ?_⟩ <;> simp only [hn.size, hdone]
      · exact hring
      · exact fun k hk hkp => h.start_le k (by omega) hkp
      · exact fun k hk hkp => h.lt_size k (by omega) hkp
      · exact fun k hk hkp => h.single k (by omega) hkp
      · intro k hk hkp hheader
        rw [PacketSys.descAt, hn.size, (hn.frame k hk hkp).1]
        exact h.header k (by omega) hkp hheader

/-! ## Cleaning up behind headers -/

/-- The hardware is done with the descriptors in front of position `done`, and has marked all of
them but the headers of TSO packets. -/
structure MarkedUpTo (s : PacketSys) (done : ℕ) : Prop where
  le_posted : done ≤ s.posted
  marked : ∀ k, s.released ≤ k → k < s.posted → ((s.descAt k).du ↔ k < done ∧ ¬ s.Header k)

/-- A cleanup releases all that is in front of a marked descriptor. -/
def HeadersReleased (s : PacketSys) : Prop :=
  ∀ r, s.released ≤ r → r < s.posted → (s.descAt r).du →
    r ≤ s.released + (wilTxComplete s.tx).2.2

/-- Headers that are not released stand in front of a marked descriptor. -/
def HeaderInFront (s : PacketSys) : Prop :=
  ∃ k r, s.released ≤ k ∧ k < r ∧ r < s.posted ∧ s.Header k ∧ (s.descAt r).du

/-- Unmarked headers are what the second loop stops at. -/
lemma PacketInv.header_stalls (h : PacketInv s) {done k : ℕ} (hdone : MarkedUpTo s done)
    (hk : s.released ≤ k) (hkp : k < s.posted) (hheader : s.Header k) : (s.descAt k).stalls :=
  ⟨h.header k hk hkp hheader, fun hdu => ((hdone.marked k hk hkp).mp hdu).2 hheader⟩

/-- **Where a cleanup comes to**: to the last marked descriptor, or in front of it to headers. -/
theorem headersReleased_of_inv (h : PacketInv s) {done : ℕ} (hdone : MarkedUpTo s done) :
    HeadersReleased s ↔ ¬ HeaderInFront s := by
  obtain ⟨r, n, hlast, hn, hle, hpass, hend⟩ := txCompletion_stop h.va h.ring
  have hreleased : ∀ j, s.released ≤ j → j < s.posted → (s.descAt j).du → j ≤ r := by
    intro j _ hjp hdu
    by_contra hlt
    exact hlast.rest j (by omega) hjp hdu
  rw [HeadersReleased, hn.done]
  constructor
  · rintro hall ⟨k, j, hk, hkj, hjp, hheader, hdu⟩
    have hj := hall j (by omega) hjp hdu
    exact hpass k hk (by omega) (h.header_stalls hdone hk (by omega) hheader)
  · intro hnone j hj hjp hdu
    rcases hend with heq | hstall
    · exact heq ▸ hreleased j hj hjp hdu
    · by_contra hshort
      -- the loop stopped at an unmarked descriptor in front of `j`, so at headers
      have hjdone := ((hdone.marked j hj hjp).mp hdu).1
      have hunmarked := (hdone.marked (s.released + n) (Nat.le_add_right _ _) (by omega)).not.mp
        hstall.2
      refine hnone ⟨s.released + n, j, Nat.le_add_right _ _, by omega, hjp, ?_, hdu⟩
      by_contra hheader
      exact hunmarked ⟨by omega, hheader⟩

/-- **When headers do not block a cleanup**: where none stand in front of a marked descriptor.  This
is so of every state that a run can reach, whatever packets are posted. -/
theorem headersReleased_iff {size : ℕ} (hsize : 0 < size) {tx : TxState} {as : List PacketAction}
    (hrun : Machine.Exec PacketSys.step PacketSys.Fits (PacketSys.init tx size) as s) {done : ℕ}
    (hdone : MarkedUpTo s done) : HeadersReleased s ↔ ¬ HeaderInFront s :=
  headersReleased_of_inv
    (hrun.invariant (fun _ _ _ hfits ht hi => hi.step hfits ht) (packetInv_init tx hsize)) hdone

/-- A TCP packet of 54 bytes of headers and 100 bytes of data. -/
private def tsoPacket : TsoRequest :=
  ⟨⟨8, 154, 154, [], true, 0x0800, 6, 0, 20, 20⟩, 100, 0,
    ⟨fun _ _ => some 4096, fun _ _ _ => some 8192⟩⟩

/-- What a run ends in: the counts, what a cleanup releases, and for each position whether it is
marked and whether it holds headers. -/
private def glance (s : PacketSys) : (ℕ × ℕ × ℕ) × List (Bool × Bool) :=
  ((s.posted, s.released, (wilTxComplete s.tx).2.2),
    (List.range s.posted).map fun k => (decide (s.descAt k).du, decide (s.Header k)))

/-- Two ordinary packets, which are marked, and a TSO packet behind them, which is not. -/
theorem headersReleased_behind : ∃ s : PacketSys, s.posted = 4 ∧ HeadersReleased s := by
  have hrun : (Machine.exec PacketSys.step PacketSys.Fits (PacketSys.init blankTx 8)
      [.xmit onePiece, .xmit onePiece, .xmitTso tsoPacket, .hwMark 0 0, .hwMark 1 0]).map
        glance = some ((4, 0, 1), [(true, false), (true, false), (false, true), (false, false)]) := by
    decide +kernel
  obtain ⟨s, hs, hend⟩ := Option.map_eq_some_iff.mp hrun
  simp only [glance, Prod.mk.injEq] at hend
  obtain ⟨⟨hposted, hreleased, -⟩, hmarks⟩ := hend
  simp only [hposted, List.range_succ, List.range_zero, List.nil_append,
    List.map_cons, List.map_nil, List.cons_append, List.cons.injEq, Prod.mk.injEq,
    decide_eq_true_eq, decide_eq_false_iff_not, and_true] at hmarks
  have hdone : MarkedUpTo s 2 := by
    refine ⟨by omega, fun k _ hk => ?_⟩
    rw [hposted] at hk
    interval_cases k <;> simp [hmarks]
  refine ⟨s, hposted, (headersReleased_iff (by norm_num) (.of_exec hs) hdone).mpr ?_⟩
  rintro ⟨k, r, -, hkr, hr, hheader, hdu⟩
  have hrdone := ((hdone.marked r (by omega) hr).mp hdu).1
  have hk : k = 0 := by omega
  subst hk
  exact hmarks.1.2 hheader

/-- One TSO packet, of which all but the headers is marked: a cleanup releases nothing. -/
theorem not_headersReleased :
    ¬ ∀ (size : ℕ) (tx : TxState) (as : List PacketAction) (s : PacketSys) (done : ℕ), 0 < size →
      Machine.Exec PacketSys.step (fun _ _ => True) (PacketSys.init tx size) as s →
        MarkedUpTo s done → HeadersReleased s := by
  intro h
  have hrun : (Machine.exec PacketSys.step (fun _ _ => True) (PacketSys.init blankTx 8)
      [.xmitTso tsoPacket, .hwMark 1 0]).map glance
        = some ((2, 0, 0), [(false, true), (true, false)]) := by
    decide +kernel
  obtain ⟨s, hs, hend⟩ := Option.map_eq_some_iff.mp hrun
  simp only [glance, Prod.mk.injEq] at hend
  obtain ⟨⟨hposted, hreleased, hcleared⟩, hmarks⟩ := hend
  simp only [hposted, List.range_succ, List.range_zero, List.nil_append,
    List.map_cons, List.map_nil, List.cons_append, List.cons.injEq, Prod.mk.injEq,
    decide_eq_true_eq, decide_eq_false_iff_not, and_true] at hmarks
  have hdone : MarkedUpTo s 2 := by
    refine ⟨by omega, fun k _ hk => ?_⟩
    rw [hposted] at hk
    interval_cases k <;> simp [hmarks]
  have hbound := h 8 blankTx _ s 2 (by norm_num) (.of_exec hs) hdone 1 (by omega) (by omega)
    hmarks.2.1
  omega

end Wil6210
