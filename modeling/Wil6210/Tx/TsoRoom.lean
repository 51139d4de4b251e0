import Wil6210.Tx.RingSafety
import Wil6210.Tx.TsoPost

/-!
# The room for a packet with segmentation offload

`wil_tx_vring_tso` computes on entry how many descriptors are free.  The loop over the fragments
compares the number of used descriptors with it, but the headers and the data behind them are posted
outside of this loop.  The check at the start asks for enough where there is a fragment, and not
where there is none (`TsoRequest.Overruns`): then the head comes round to the tail, and the full ring
looks empty.  `tsoFits_iff` says that nothing else overruns the ring.
-/

namespace Wil6210

variable {s : TxState} {q : TsoRequest} {v : Vring} {t : TsoState}

/-! ## Calls that return 0 -/

namespace TsoRequest

/-- `wil_tx_vring_tso` takes the packet: it passes the check at the start, it is TCP, and the headers
are mapped, at `pa`. -/
structure Accepts (q : TsoRequest) (v : Vring) (pa : ℕ) : Prop where
  room : ¬ wilVringAvailTx v < q.nrFrags * 3 + 1
  tcp : (wilTxDescOffloadSetup (v.desc v.swhead) q.skb 0).2 ≠ 0
  header : q.dma.single 0 q.hdrlen = some pa

/-- The header of the packet is TCP, and what is in the linear part is mapped. -/
def SinglesMap (q : TsoRequest) (v : Vring) : Prop :=
  (wilTxDescOffloadSetup (v.desc v.swhead) q.skb 0).2 ≠ 0 ∧ q.dma.single 0 q.hdrlen ≠ none ∧
    q.dma.single q.hdrlen q.linear ≠ none

instance (q : TsoRequest) (v : Vring) : Decidable (q.SinglesMap v) :=
  inferInstanceAs (Decidable (_ ∧ _ ∧ _))

end TsoRequest

/-- What a call stores and takes once all pieces are posted. -/
lemma wilTxVringTso_posted {pa : ℕ} (h : q.Accepts s.vring pa)
    (hpieces : tsoPieces q s.vring pa = (t, true)) :
    (wilTxVringTso s q).2.2 = 0 ∧
      (wilTxVringTso s q).1.vring
        = wilVringAdvanceHead (t.finish q s.vring.swhead) t.descsUsed ∧
      ∀ p, taken p (wilTxVringTso s q).2.1 = taken p t.events := by
  have hused := (t.endChunk_keeps q).2.1
  have htaken : ∀ p, taken p (t.endChunk q).events = taken p t.events := by
    intro p
    simp only [TsoState.endChunk]
    cases t.sgDesc <;> simp
  simp only [wilTxVringTso, if_neg h.room, if_neg h.tcp, h.header, hpieces, TsoState.finish, hused]
  refine ⟨trivial, trivial, fun p => ?_⟩
  simp [htaken, TxEvent.takes]

/-- A call that returns 0 comes to the end of its loops. -/
lemma accepts_of_posted (h : (wilTxVringTso s q).2.2 = 0) :
    ∃ pa t, q.Accepts s.vring pa ∧ tsoPieces q s.vring pa = (t, true) := by
  by_cases hroom : wilVringAvailTx s.vring < q.nrFrags * 3 + 1
  · rw [wilTxVringTso, if_pos hroom] at h
    exact absurd h (show eNomem ≠ 0 by decide)
  by_cases htcp : (wilTxDescOffloadSetup (s.vring.desc s.vring.swhead) q.skb 0).2 = 0
  · rw [wilTxVringTso, if_neg hroom, if_pos htcp] at h
    exact absurd h (show eInval ≠ 0 by decide)
  cases hmap : q.dma.single 0 q.hdrlen with
  | none =>
      simp only [wilTxVringTso, if_neg hroom, if_neg htcp, hmap] at h
      exact absurd h (show eInval ≠ 0 by decide)
  | some pa =>
      cases hpieces : tsoPieces q s.vring pa with
      | mk t ok =>
          cases ok with
          | true => exact ⟨pa, t, ⟨hroom, htcp, hmap⟩, hpieces⟩
          | false =>
              simp only [wilTxVringTso, if_neg hroom, if_neg htcp, hmap, hpieces] at h
              exact absurd h (show eInval ≠ 0 by decide)

/-- Where a packet is posted, the data behind its headers was mapped. -/
lemma single_of_posted {pa : ℕ} (hpieces : tsoPieces q v pa = (t, true)) (hdata : q.linear ≠ 0) :
    ∃ pa', q.dma.single q.hdrlen q.linear = some pa' := by
  refine Option.ne_none_iff_exists'.mp fun hnone => ?_
  rw [TsoRequest.linear] at hnone
  rw [tsoPieces, tsoLinear, if_neg (show ¬ q.skb.headlen - q.hdrlen = 0 from hdata), hnone] at hpieces
  exact absurd (Prod.mk.inj hpieces).2 (by simp)

/-- Every posted piece takes a reference. -/
lemma taken_tsoPieces (q : TsoRequest) (v : Vring) (pa : ℕ) :
    taken (fun _ => true) (tsoPieces q v pa).1.events = (tsoPieces q v pa).1.descsUsed := by
  refine tsoPieces_rule (I := fun t => taken (fun _ => true) t.events = t.descsUsed) ?_
    (fun pa' _ => ?_) (fun t ht => ?_) (fun t pa len rem ht _ => ?_)
  · simp [tsoHeader, TsoState.post]
  · simp [TsoState.postLinear, tsoHeader, TsoState.post]
  · simp only [TsoState.nextChunk, TsoState.endChunk]
    split_ifs
    · cases t.sgDesc <;> simpa using ht
    · exact ht
  · simpa [TsoState.postFrag, TsoState.post] using ht

/-! ## The room -/

/-- Where a call returns 0, it posted no more descriptors than were free, with one reference for
each, and the ring is not empty behind it. -/
def TsoFits (s : TxState) (q : TsoRequest) : Prop :=
  (wilTxVringTso s q).2.2 = 0 →
    taken (fun _ => true) (wilTxVringTso s q).2.1 ≤ wilVringAvailTx s.vring ∧
      ¬ wilVringIsEmpty (wilTxVringTso s q).1.vring

/-- A head that advances over free slots does not come to the tail. -/
lemma advanceHead_ne {n : ℕ} (hhead : v.swhead < v.size) (htail : v.swtail < v.size) (hn : 0 < n)
    (hfree : n ≤ wilVringAvailTx v) : (v.swhead + n) % v.size ≠ v.swtail := by
  rw [wilVringAvailTx, Vring.used] at hfree
  rcases Nat.lt_or_ge v.swhead v.swtail with hlt | hge
  · rw [Nat.mod_eq_of_lt (by omega : v.size + v.swhead - v.swtail < v.size)] at hfree
    rw [Nat.mod_eq_of_lt (by omega)]
    omega
  · rw [Nat.mod_eq_sub_mod (by omega), Nat.mod_eq_of_lt (by omega)] at hfree
    rcases Nat.lt_or_ge (v.swhead + n) v.size with hlap | hlap
    · rw [Nat.mod_eq_of_lt hlap]
      omega
    · rw [Nat.mod_eq_sub_mod hlap, Nat.mod_eq_of_lt (by omega)]
      omega

/-- A packet without fragments is its headers, and the data behind them. -/
lemma tsoPieces_of_overruns (h : q.Overruns v) (pa : ℕ) {pa' : ℕ}
    (hmap : q.dma.single q.hdrlen q.linear = some pa') :
    tsoPieces q v pa = ((tsoHeader q v pa).postLinear q v.swhead pa', true) := by
  have hfrags : q.skb.frags = [] := List.eq_nil_of_length_eq_zero h.1
  have hlinear : tsoLinear q v.swhead (tsoHeader q v pa)
      = ((tsoHeader q v pa).postLinear q v.swhead pa', true) := by
    rw [tsoLinear, if_neg (show ¬ q.skb.headlen - q.hdrlen = 0 from h.2.1)]
    rw [TsoRequest.linear] at hmap
    rw [hmap]
    rfl
  simp only [tsoPieces, hlinear, hfrags, tsoFrags]

/-- **When a packet with segmentation offload fits.**  A call overruns the ring where one
descriptor is free and a TCP packet without fragments takes two, both mapped, and nowhere else. -/
theorem tsoFits_iff (s : TxState) (q : TsoRequest) (hhead : s.vring.swhead < s.vring.size)
    (htail : s.vring.swtail < s.vring.size) :
    TsoFits s q ↔ ¬ (q.Overruns s.vring ∧ q.SinglesMap s.vring) := by
  constructor
  · rintro hfits ⟨hover, htcp, hheader, hlinear⟩
    obtain ⟨pa, hpa⟩ := Option.ne_none_iff_exists'.mp hheader
    obtain ⟨pa', hpa'⟩ := Option.ne_none_iff_exists'.mp hlinear
    have hroom : ¬ wilVringAvailTx s.vring < q.nrFrags * 3 + 1 := by
      rw [hover.1, hover.2.2]
      decide
    have hpieces := tsoPieces_of_overruns hover pa hpa'
    obtain ⟨hrc, -, htaken⟩ := wilTxVringTso_posted ⟨hroom, htcp, hpa⟩ hpieces
    have hused := taken_tsoPieces q s.vring pa
    rw [hpieces] at hused
    have hle := (hfits hrc).1
    rw [htaken, hused, hover.2.2] at hle
    exact absurd hle (show ¬ 0 + 1 + 1 ≤ 1 by decide)
  · intro hnot hrc
    obtain ⟨pa, t, haccepts, hpieces⟩ := accepts_of_posted hrc
    have hfits : ¬ q.Overruns s.vring := by
      intro hover
      obtain ⟨pa', hpa'⟩ := single_of_posted hpieces hover.2.1
      exact hnot ⟨hover, haccepts.tcp, by simp [haccepts.header], by simp [hpa']⟩
    have ht := TsoState.Posts.pieces hhead (q.singles_le haccepts.room hfits) pa
    rw [hpieces] at ht
    obtain ⟨-, hvring, htaken⟩ := wilTxVringTso_posted haccepts hpieces
    have hring := ht.finish hhead
    refine ⟨?_, ?_⟩
    · rw [htaken, ht.taken]
      exact ht.used_le
    · rw [wilVringIsEmpty, hvring]
      show ¬ (_ + _) % _ = (t.finish q s.vring.swhead).swtail
      rw [hring.same.swhead, hring.same.size, hring.same.swtail]
      exact advanceHead_ne hhead htail ht.used_pos ht.used_le

/-- A TCP packet with 54 bytes of headers, `data` bytes behind them, and these fragments; every
mapping succeeds. -/
def tcpPacket (gsoSize data : ℕ) (frags : List ℕ) : TsoRequest :=
  ⟨⟨7, 54 + data + frags.sum, 54 + data, frags, true, 0x0800, 6, 0, 20, 20⟩, gsoSize, 0,
    ⟨fun offset _ => some (4096 + offset), fun f offset _ => some (65536 * (f + 1) + offset.toNat)⟩⟩

/-- A ring of four with two packets on it. -/
def busyRing : TxState :=
  (wilTxVring (wilTxVring (TxSys.init blankTx 4).tx onePiece).1 onePiece).1

/-- A packet with a fragment fits on a ring of eight: the headers, the data behind them, and the
fragment in two pieces. -/
theorem tsoFits_eight : (wilTxVringTso (TxSys.init blankTx 8).tx (tcpPacket 100 60 [80])).2.2 = 0 ∧
    TsoFits (TxSys.init blankTx 8).tx (tcpPacket 100 60 [80]) :=
  ⟨by decide +kernel, (tsoFits_iff _ _ (by decide +kernel) (by decide +kernel)).mpr
    (by decide +kernel)⟩

/-- One of four descriptors is free, and a packet of headers and data takes two: the full ring looks
empty. -/
theorem not_tsoFits : ¬ ∀ (s : TxState) (q : TsoRequest), s.vring.swhead < s.vring.size →
    s.vring.swtail < s.vring.size → 0 < q.gsoSize → TsoFits s q := by
  intro h
  have hrc : (wilTxVringTso busyRing (tcpPacket 100 60 [])).2.2 = 0 := by
    decide +kernel
  have hempty : wilVringIsEmpty (wilTxVringTso busyRing (tcpPacket 100 60 [])).1.vring := by
    decide +kernel
  exact (h busyRing (tcpPacket 100 60 []) (by decide +kernel) (by decide +kernel)
    (by decide +kernel) hrc).2 hempty

end Wil6210
