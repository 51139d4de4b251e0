import Wil6210.Lib.Segments
import Wil6210.Tx.TsoCalls

/-!
# A packet with segmentation offload is covered

The pieces that `wil_tx_vring_tso` maps behind the headers are the payload, from its first byte to its
last, and the descriptors hold them.

Two invariants carry this through the loops.  `PiecesHeld` says of every packet that the descriptors
behind the head hold the mapped pieces, one each.  `Covered` says how far the payload is covered and
what is left of the segment; it begins with a linear part of at most a segment.  A longer one makes
`rem_data` negative, and then the first piece of the fragments has a negative length
(`tsoCovers_iff`).
-/

namespace Wil6210

open Segments (room spans spansAll)

variable {q : TsoRequest} {s : TxState} {v w : Vring} {t u : TsoState} {skb : TxSkb} {a b : ℤ}
  {p : TsoPiece} {ps : List TsoPiece} {cs : List TsoCall} {swhead f P n : ℕ} {size : ℤ}

/-! ## Pieces of a packet -/

namespace TsoPiece

/-- The position in the packet at which a piece begins. -/
def start (skb : TxSkb) (p : TsoPiece) : ℤ :=
  match p.frag with
  | none => p.offset
  | some f => (skb.headlen + (skb.frags.take f).sum : ℕ) + p.offset

/-- The piece is inside of the linear part, or of its fragment. -/
def Inside (skb : TxSkb) (p : TsoPiece) : Prop :=
  0 ≤ p.offset ∧
    match p.frag with
    | none => p.offset + p.len ≤ skb.headlen
    | some f => ∃ size : ℕ, skb.frags[f]? = some size ∧ p.offset + p.len ≤ size

end TsoPiece

/-- The pieces follow one another from position `a` to position `b`. -/
def Consecutive (skb : TxSkb) : ℤ → List TsoPiece → ℤ → Prop
  | a, [], b => a = b
  | a, p :: ps, b => p.start skb = a ∧ Consecutive skb (a + p.len) ps b

lemma Consecutive.concat (h : Consecutive skb a ps b) (hp : p.start skb = b) :
    Consecutive skb a (ps ++ [p]) (b + p.len) := by
  induction ps generalizing a with
  | nil =>
      obtain rfl : a = b := h
      exact ⟨hp, rfl⟩
  | cons p' ps ih => exact ⟨h.1, ih h.2⟩

lemma Consecutive.sum_len (h : Consecutive skb a ps b) : (ps.map TsoPiece.len).sum = b - a := by
  induction ps generalizing a with
  | nil =>
      obtain rfl : a = b := h
      exact (sub_self a).symm
  | cons p ps ih =>
      rw [List.map_cons, List.sum_cons, ih h.2]
      ring

/-! ## What the descriptors hold -/

/-- The descriptor is that of a mapped piece. -/
def VringTxDesc.Holds (d : VringTxDesc) (p : TsoPiece) : Prop :=
  d.addrLow = p.pa % 2 ^ 32 ∧ d.addrHigh = u16 (p.pa >>> 32) ∧
    d.length = u16 (p.len % 2 ^ 32).toNat

/-- The descriptors of `w` hold the buffers that those of `v` hold. -/
def SameBuffers (v w : Vring) : Prop :=
  ∀ k, (w.desc k).addrLow = (v.desc k).addrLow ∧ (w.desc k).addrHigh = (v.desc k).addrHigh ∧
    (w.desc k).length = (v.desc k).length

lemma SameBuffers.trans {x : Vring} (h : SameBuffers v w) (h' : SameBuffers w x) :
    SameBuffers v x :=
  fun k => ⟨(h' k).1.trans (h k).1, (h' k).2.1.trans (h k).2.1, (h' k).2.2.trans (h k).2.2⟩

/-- A store to the other words of a descriptor. -/
lemma SameBuffers.setDesc (v : Vring) (i d0 macD2 : ℕ) :
    SameBuffers v (v.setDesc i { v.desc i with d0 := d0, macD2 := macD2 }) := by
  intro k
  by_cases hk : k = i
  · subst hk
    simp [Vring.setDesc]
  · simp [Vring.setDesc, hk]

lemma sameBuffers_endChunk (q : TsoRequest) (t : TsoState) :
    SameBuffers t.vring (t.endChunk q).vring := by
  rw [TsoState.endChunk]
  cases t.sgDesc with
  | none => exact SameBuffers.setDesc t.vring t.i _ (t.vring.desc t.i).macD2
  | some j =>
      exact (SameBuffers.setDesc t.vring t.i _ (t.vring.desc t.i).macD2).trans
        (SameBuffers.setDesc _ j (_ : VringTxDesc).d0 _)

lemma sameBuffers_nextChunk (q : TsoRequest) (t : TsoState) :
    SameBuffers t.vring (t.nextChunk q).vring := by
  rw [TsoState.nextChunk]
  split_ifs
  · exact sameBuffers_endChunk q t
  · exact fun k => ⟨rfl, rfl, rfl⟩

lemma sameBuffers_finish (q : TsoRequest) (t : TsoState) :
    SameBuffers t.vring (t.finish q swhead) :=
  ((sameBuffers_endChunk q t).trans (SameBuffers.setDesc _ _ _
    ((t.endChunk q).vring.desc (t.endChunk q).i).macD2)).trans
      (SameBuffers.setDesc _ swhead (_ : VringTxDesc).d0 _)

/-- The slots behind the head hold the mapped pieces, one each. -/
structure PiecesHeld (v : Vring) (cs : List TsoCall) (t : TsoState) : Prop where
  same : SameRing v t.vring
  used : t.descsUsed = (mappedPieces cs).length
  fits : t.descsUsed ≤ v.size
  held : ∀ j p, (mappedPieces cs)[j]? = some p →
    (t.vring.desc ((v.swhead + j) % v.size)).Holds p

lemma sameRing_endChunk (q : TsoRequest) (t : TsoState) :
    SameRing t.vring (t.endChunk q).vring := by
  rw [TsoState.endChunk]
  cases t.sgDesc <;> exact ⟨rfl, rfl, rfl, rfl, rfl⟩

lemma PiecesHeld.nextChunk (h : PiecesHeld v cs t) :
    PiecesHeld v (cs ++ t.nextChunkCalls) (t.nextChunk q) := by
  have hsame : SameRing t.vring (t.nextChunk q).vring := by
    rw [TsoState.nextChunk]
    split_ifs
    · exact sameRing_endChunk q t
    · exact SameRing.refl _
  have hbuf := sameBuffers_nextChunk q t
  have hused := (t.nextChunk_keeps q).1
  refine ⟨h.same.trans hsame, ?_, by rw [hused]; exact h.fits, fun j p hp => ?_⟩
  · rw [hused, h.used, mappedPieces_append, mappedPieces_nextChunkCalls, List.append_nil]
  · rw [mappedPieces_append, mappedPieces_nextChunkCalls, List.append_nil] at hp
    rw [VringTxDesc.Holds, (hbuf _).1, (hbuf _).2.1, (hbuf _).2.2]
    exact h.held j p hp

/-- What is written for a piece. -/
lemma holds_post (d : VringTxDesc) (q : TsoRequest) (p : TsoPiece) (tsoDescType : ℤ) :
    (wilTxDescOffloadSetup (wilTxDescMap d p.pa (p.len % 2 ^ 32).toNat q.vringIndex) q.skb
      tsoDescType).1.Holds p := by
  simp only [wilTxDescOffloadSetup]
  split_ifs <;> exact ⟨rfl, rfl, rfl⟩

/-- An entry of a list with one more at its end. -/
lemma getElem?_concat_cases {α : Type*} {l : List α} {x y : α} {j : ℕ}
    (h : (l ++ [x])[j]? = some y) : j < l.length ∧ l[j]? = some y ∨ j = l.length ∧ x = y := by
  rcases Nat.lt_trichotomy j l.length with hlt | rfl | hgt
  · rw [List.getElem?_append_left hlt] at h
    exact .inl ⟨hlt, h⟩
  · rw [List.getElem?_append_right le_rfl, Nat.sub_self, List.getElem?_cons_zero] at h
    exact .inr ⟨rfl, Option.some.inj h⟩
  · rw [List.getElem?_eq_none (by rw [List.length_append, List.length_singleton]; omega)] at h
    exact absurd h (by simp)

/-- A piece is posted in the next slot. -/
lemma PiecesHeld.post (h : PiecesHeld v cs t) (hroom : t.descsUsed < v.size) {p : TsoPiece}
    {k : ℤ}
    (hvring : u.vring = (t.post q ((v.swhead + t.descsUsed) % v.size) p.pa p.len k).vring)
    (hused : u.descsUsed = t.descsUsed + 1) : PiecesHeld v (cs ++ [.map p]) u := by
  have hsame : SameRing t.vring u.vring := by
    rw [hvring]
    exact ⟨rfl, rfl, rfl, rfl, rfl⟩
  have hlen : (mappedPieces (cs ++ [.map p])).length = t.descsUsed + 1 := by
    rw [mappedPieces_append, List.length_append, h.used, mappedPieces_map, List.length_singleton]
  refine ⟨h.same.trans hsame, by rw [hused, hlen], by omega, fun j p' hp' => ?_⟩
  rw [mappedPieces_append, mappedPieces_map] at hp'
  rw [hvring]
  obtain ⟨hold, hp⟩ | ⟨hnew, rfl⟩ := getElem?_concat_cases hp'
  · rw [← h.used] at hold
    have hne : (v.swhead + j) % v.size ≠ (v.swhead + t.descsUsed) % v.size :=
      Circular.ne_of_window (by omega) (by omega)
    simpa [TsoState.post, Vring.setDesc, Vring.setCtx, hne] using h.held j p' hp
  · rw [← h.used] at hnew
    subst hnew
    simpa [TsoState.post, Vring.setDesc, Vring.setCtx] using
      holds_post (t.vring.desc ((v.swhead + t.descsUsed) % v.size)) q p k

/-- The headers are posted in the first slot. -/
lemma PiecesHeld.header (q : TsoRequest) (hhead : v.swhead < v.size) (pa : ℕ) :
    PiecesHeld v [.map ⟨none, 0, q.hdrlen, pa⟩] (tsoHeader q v pa) := by
  refine ⟨⟨rfl, rfl, rfl, rfl, rfl⟩, rfl, (show 0 + 1 ≤ v.size by omega), fun j p hp => ?_⟩
  rw [mappedPieces_map] at hp
  cases j with
  | zero =>
      obtain rfl := Option.some.inj hp
      rw [Nat.add_zero, Nat.mod_eq_of_lt hhead]
      simpa [tsoHeader, TsoState.post, Vring.setDesc, Vring.setCtx, wilTxLastDesc,
        VringTxDesc.Holds] using holds_post (v.desc v.swhead) q ⟨none, 0, q.hdrlen, pa⟩ 0
  | succ j =>
      rw [List.getElem?_cons_succ, List.getElem?_nil] at hp
      exact absurd hp (by simp)

/-- **What the descriptors of a posted packet hold.** -/
theorem piecesHeld_tsoPieces {pa : ℕ} (hhead : v.swhead < v.size)
    (hroom : ¬ wilVringAvailTx v < q.nrFrags * 3 + 1) (hpieces : tsoPieces q v pa = (t, true)) :
    PiecesHeld v (tsoPiecesCalls q v pa) t := by
  have hsize : wilVringAvailTx v < v.size := by
    rw [wilVringAvailTx] at hroom ⊢
    omega
  have hheader := PiecesHeld.header q hhead pa
  refine tsoPieces_run (J := fun _ cs t => PiecesHeld v cs t) hpieces (fun _ => hheader)
    (fun pa' _ _ => ?_) fun f size cs t u _ ht hfrag => ?_
  · exact hheader.post (p := ⟨none, q.hdrlen, q.linear, pa'⟩) (k := 1)
      (show 1 < v.size by omega) rfl rfl
  · have hpiece : ∀ (len : ℤ) cs t pa, t.descsUsed < wilVringAvailTx v → PiecesHeld v cs t →
        PiecesHeld v (cs ++ (t.nextChunkCalls ++ [.map ⟨some f, size - len, t.lenmss q len, pa⟩]))
          (t.postPiece q v.swhead len pa) := by
      intro len cs t pa hused ht
      have hnext := ht.nextChunk (q := q)
      have hkeeps := (t.nextChunk_keeps q).1
      rw [← List.append_assoc]
      refine hnext.post (p := ⟨some f, size - len, t.lenmss q len, pa⟩) (q := q)
        (k := if (t.nextChunk q).firstdata then 2 else 1) (by omega) ?_ rfl
      rw [← hnext.same.size]
      rfl
    obtain ⟨-, -, hend⟩ := tsoFrag_run (I := fun _ cs t => PiecesHeld v cs t)
      (fun len cs t pa _ hused _ ht => hpiece len cs t pa hused ht) le_rfl ht hfrag
    exact hend

/-! ## How far the payload is covered -/

lemma remData_nextChunk (q : TsoRequest) (t : TsoState) :
    (t.nextChunk q).remData = if t.remData = 0 then (q.gsoSize : ℤ) else t.remData := by
  rw [TsoState.nextChunk]
  split_ifs <;> rfl

/-- Where the payload begins: behind the headers. -/
def TsoRequest.dataStart (q : TsoRequest) : ℕ := q.skb.headlen - q.linear

/-- The first `P` bytes of the payload are covered by pieces behind the headers, none of them longer
than a segment, and the rest of the segment is left. -/
structure Covered (q : TsoRequest) (header : TsoPiece) (P : ℕ) (cs : List TsoCall) (t : TsoState) :
    Prop where
  left : (t.nextChunk q).remData = (room q.gsoSize P : ℕ)
  pieces : ∃ data, mappedPieces cs = header :: data ∧
    Consecutive q.skb q.dataStart data ((q.dataStart + P : ℕ) : ℤ) ∧
    ∀ p ∈ data, 0 < p.len ∧ p.len ≤ q.gsoSize ∧ p.Inside q.skb

/-- A piece is what is left of the fragment, or of the segment. -/
lemma lenmss_eq (hleft : (t.nextChunk q).remData = (room q.gsoSize P : ℕ)) (n : ℕ) :
    t.lenmss q n = (min n (room q.gsoSize P) : ℕ) := by
  rw [TsoState.lenmss, hleft]
  split_ifs <;> omega

/-- A piece is posted. -/
lemma Covered.piece {header : TsoPiece} (hgso : 0 < q.gsoSize) (h : Covered q header P cs t)
    (hn : 0 < n) (hlen : p.len = (min n (room q.gsoSize P) : ℕ))
    (hstart : p.start q.skb = (q.dataStart + P : ℕ)) (hinside : p.Inside q.skb) (pa : ℕ) :
    Covered q header (P + min n (room q.gsoSize P)) (cs ++ (t.nextChunkCalls ++ [.map p]))
      (t.postPiece q swhead n pa) := by
  have hroom := Segments.room_pos hgso P
  have hroomle := Segments.room_le q.gsoSize P
  obtain ⟨data, hdata, hcons, hall⟩ := h.pieces
  refine ⟨?_, data ++ [p], ?_, ?_, ?_⟩
  · have hrem : (t.postPiece q swhead n pa).remData
        = (t.nextChunk q).remData - t.lenmss q n := rfl
    rw [remData_nextChunk, hrem, lenmss_eq h.left, h.left, Segments.room_cut hgso]
    split_ifs <;> omega
  · rw [mappedPieces_append, mappedPieces_append, hdata, mappedPieces_nextChunkCalls]
    rfl
  · have hnext := hcons.concat hstart
    rw [hlen] at hnext
    rwa [← Nat.add_assoc, Nat.cast_add]
  · intro p' hp'
    rcases List.mem_append.mp hp' with hold | hnew
    · exact hall p' hold
    · obtain rfl := List.mem_singleton.mp hnew
      exact ⟨by omega, by omega, hinside⟩

/-- The descriptors that a packet takes: one for the headers, and one for each segment that the linear
part or a fragment has a part of. -/
def TsoRequest.descsNeeded (q : TsoRequest) : ℕ :=
  1 + spansAll q.gsoSize 0 (q.linear :: q.skb.frags)

/-- The next piece of a fragment of which `l` bytes are left. -/
lemma Covered.fragPiece {header : TsoPiece} {size l : ℕ} (hgso : 0 < q.gsoSize)
    (hsize : q.skb.frags[f]? = some size) (hl : 0 < l) (hle : l ≤ size)
    (h : Covered q header (q.linear + (q.skb.frags.take f).sum + (size - l)) cs t) (pa : ℕ) :
    Covered q header (q.linear + (q.skb.frags.take f).sum + (size - l)
        + min l (room q.gsoSize (q.linear + (q.skb.frags.take f).sum + (size - l))))
      (cs ++ (t.nextChunkCalls ++ [.map ⟨some f, size - l, t.lenmss q l, pa⟩]))
      (t.postPiece q swhead l pa) := by
  have hlenmss := lenmss_eq h.left l
  have hstart : q.dataStart + (q.linear + (q.skb.frags.take f).sum)
      = q.skb.headlen + (q.skb.frags.take f).sum := by
    rw [TsoRequest.dataStart, TsoRequest.linear]
    omega
  have hinside : TsoPiece.Inside q.skb ⟨some f, size - l, t.lenmss q l, pa⟩ :=
    ⟨show (0 : ℤ) ≤ size - l by omega, size, hsize,
      show (size : ℤ) - l + t.lenmss q l ≤ size by omega⟩
  refine h.piece hgso hl hlenmss ?_ hinside pa
  rw [← Nat.add_assoc, hstart, Nat.cast_add, Nat.cast_sub hle]
  rfl

/-- A fragment behind `P` bytes of payload is covered, with one descriptor for each segment that it
has a part of. -/
lemma Covered.frag {header : TsoPiece} {size : ℕ} (hgso : 0 < q.gsoSize)
    (hsize : q.skb.frags[f]? = some size)
    (h : Covered q header (q.linear + (q.skb.frags.take f).sum) cs t)
    (hfrag : tsoFrag q swhead f size n size t = (u, true)) {avail : ℕ}
    (hn : n ≤ avail - t.descsUsed) :
    Covered q header (q.linear + (q.skb.frags.take f).sum + size)
        (cs ++ tsoFragCalls q swhead f size n size t) u ∧
      u.descsUsed = t.descsUsed
        + spans q.gsoSize (q.linear + (q.skb.frags.take f).sum) size := by
  set P₀ := q.linear + (q.skb.frags.take f).sum with hP
  have hpiece : ∀ (len : ℤ) cs w pa, 0 < len →
      (∃ l : ℕ, len = l ∧ l ≤ size ∧ Covered q header (P₀ + (size - l)) cs w ∧
        w.descsUsed + spans q.gsoSize (P₀ + (size - l)) l
          = t.descsUsed + spans q.gsoSize P₀ size) →
      ∃ l : ℕ, len - w.lenmss q len = l ∧ l ≤ size ∧
        Covered q header (P₀ + (size - l))
          (cs ++ (w.nextChunkCalls ++ [.map ⟨some f, size - len, w.lenmss q len, pa⟩]))
          (w.postPiece q swhead len pa) ∧
        (w.postPiece q swhead len pa).descsUsed + spans q.gsoSize (P₀ + (size - l)) l
          = t.descsUsed + spans q.gsoSize P₀ size := by
    rintro len cs w pa hpos ⟨l, rfl, hle, hcov, hcount⟩
    have hlenmss := lenmss_eq hcov.left l
    have hcut := Segments.spans_cut (p := P₀ + (size - l)) hgso (Nat.cast_pos.mp hpos)
    set m := min l (room q.gsoSize (P₀ + (size - l))) with hm
    have hml : m ≤ l := Nat.min_le_left _ _
    have hpos' : P₀ + (size - l) + m = P₀ + (size - (l - m)) := by omega
    rw [hpos'] at hcut
    refine ⟨l - m, by omega, by omega, ?_, ?_⟩
    · rw [← hpos']
      exact hcov.fragPiece hgso hsize (Nat.cast_pos.mp hpos) hle pa
    · rw [descsUsed_postPiece]
      omega
  obtain ⟨len, hlen, l, rfl, -, hcov, hcount⟩ := tsoFrag_run
    (fun len cs w pa hpos _ _ h => hpiece len cs w pa hpos h) hn
    ⟨size, rfl, le_rfl, by rwa [Nat.sub_self, Nat.add_zero], by rw [Nat.sub_self, Nat.add_zero]⟩
    hfrag
  obtain rfl : l = 0 := by omega
  exact ⟨hcov, hcount⟩

/-- The headers alone. -/
lemma Covered.ofHeader (hgso : 0 < q.gsoSize) (pa : ℕ) :
    Covered q ⟨none, 0, q.hdrlen, pa⟩ 0 [.map ⟨none, 0, q.hdrlen, pa⟩] (tsoHeader q v pa) := by
  refine ⟨?_, [], rfl, rfl, by simp⟩
  have hrem : (tsoHeader q v pa).remData = q.gsoSize := rfl
  rw [remData_nextChunk, hrem, if_neg (Nat.cast_ne_zero.mpr hgso.ne'), Segments.room_zero]

/-- And the data behind them. -/
lemma Covered.ofLinear (hgso : 0 < q.gsoSize) (hlinear : q.linear ≤ q.gsoSize)
    (hdata : q.linear ≠ 0) (pa pa' : ℕ) :
    Covered q ⟨none, 0, q.hdrlen, pa⟩ q.linear
      [.map ⟨none, 0, q.hdrlen, pa⟩, .map ⟨none, q.hdrlen, q.linear, pa'⟩]
      ((tsoHeader q v pa).postLinear q v.swhead pa') := by
  have hpos : 0 < q.linear := Nat.pos_of_ne_zero hdata
  have hroom : q.linear ≤ room q.gsoSize 0 := by
    rwa [Segments.room_zero]
  have hstart : q.dataStart = q.hdrlen := by
    rw [TsoRequest.linear] at hpos
    rw [TsoRequest.dataStart, TsoRequest.linear]
    omega
  have hend : q.hdrlen + q.linear = q.skb.headlen := by
    rw [TsoRequest.linear] at hpos ⊢
    omega
  refine ⟨?_, [⟨none, q.hdrlen, q.linear, pa'⟩], rfl, ⟨?_, ?_⟩, ?_⟩
  · have hcut := Segments.room_cut (p := 0) (n := q.linear) hgso
    rw [Nat.zero_add, Nat.min_eq_left hroom, Segments.room_zero] at hcut
    have hrem : ((tsoHeader q v pa).postLinear q v.swhead pa').remData
        = (q.gsoSize : ℤ) - (q.linear : ℕ) := rfl
    rw [remData_nextChunk, hrem, hcut]
    split_ifs <;> omega
  · exact congrArg Nat.cast hstart.symm
  · rw [Nat.cast_add]
    rfl
  · intro p hp
    obtain rfl := List.mem_singleton.mp hp
    exact ⟨Nat.cast_pos.mpr hpos, Nat.cast_le.mpr hlinear, Int.natCast_nonneg _,
      show (q.hdrlen : ℤ) + q.linear ≤ q.skb.headlen by omega⟩

/-- **A posted packet is covered**, where its linear part is at most a segment. -/
theorem covered_tsoPieces {pa : ℕ} (hgso : 0 < q.gsoSize) (hlinear : q.linear ≤ q.gsoSize)
    (hpieces : tsoPieces q v pa = (t, true)) :
    Covered q ⟨none, 0, q.hdrlen, pa⟩ (q.linear + q.skb.frags.sum) (tsoPiecesCalls q v pa) t ∧
      t.descsUsed = q.descsNeeded := by
  set header : TsoPiece := ⟨none, 0, q.hdrlen, pa⟩ with hheader
  have hrun := tsoPieces_run (J := fun f cs t =>
    Covered q header (q.linear + (q.skb.frags.take f).sum) cs t ∧
      t.descsUsed + spansAll q.gsoSize (q.linear + (q.skb.frags.take f).sum)
        (q.skb.frags.drop f) = q.descsNeeded) hpieces ?_ ?_ ?_
  · obtain ⟨hcov, hcount⟩ := hrun
    rw [TsoRequest.nrFrags, List.take_length] at hcov
    rw [TsoRequest.nrFrags, List.drop_length] at hcount
    exact ⟨hcov, hcount⟩
  · -- the headers alone
    intro hnone
    have hused : (tsoHeader q v pa).descsUsed = 1 := rfl
    rw [List.take_zero, List.sum_nil, hnone, List.drop_zero]
    refine ⟨.ofHeader hgso pa, ?_⟩
    rw [TsoRequest.descsNeeded, spansAll, hnone, Segments.spans_zero, Nat.zero_add, hused,
      Nat.zero_add]
  · -- and the data behind them
    intro pa' hdata _
    have hroom : q.linear ≤ room q.gsoSize 0 := by
      rwa [Segments.room_zero]
    have hused : ((tsoHeader q v pa).postLinear q v.swhead pa').descsUsed = 1 + 1 := rfl
    rw [List.take_zero, List.sum_nil, Nat.add_zero, List.drop_zero]
    refine ⟨.ofLinear hgso hlinear hdata pa pa', ?_⟩
    rw [TsoRequest.descsNeeded, spansAll,
      Segments.spans_of_le hgso (Nat.pos_of_ne_zero hdata) hroom, Nat.zero_add, hused,
      Nat.add_assoc]
  · -- every fragment
    rintro f size cs w u hsize ⟨hcov, hcount⟩ hfrag
    obtain ⟨hnext, hused⟩ := hcov.frag hgso hsize hfrag le_rfl
    have htake : (q.skb.frags.take (f + 1)).sum = (q.skb.frags.take f).sum + size := by
      rw [List.take_add_one, hsize, List.sum_append]
      simp
    have hdrop : q.skb.frags.drop f = size :: q.skb.frags.drop (f + 1) := by
      obtain ⟨hlt, rfl⟩ := List.getElem?_eq_some_iff.mp hsize
      exact List.drop_eq_getElem_cons hlt
    rw [hdrop, spansAll] at hcount
    rw [htake, ← Nat.add_assoc]
    exact ⟨hnext, by omega⟩

/-! ## Longer linear parts -/

/-- Empty fragments are not mapped. -/
lemma tsoFragsCalls_empty {avail : ℕ} {sizes : List ℕ} (hempty : ∀ size ∈ sizes, size = 0) :
    ∀ f t, tsoFragsCalls q swhead avail f sizes t = [] := by
  induction sizes with
  | nil => exact fun f t => rfl
  | cons size sizes ih =>
      intro f t
      obtain ⟨rfl, hrest⟩ := List.forall_mem_cons.mp hempty
      have hnone : tsoFragCalls q swhead f (0 : ℕ) (avail - t.descsUsed) (0 : ℕ) t = [] ∧
          tsoFrag q swhead f (0 : ℕ) (avail - t.descsUsed) (0 : ℕ) t = (t, true) := by
        cases avail - t.descsUsed <;> exact ⟨rfl, rfl⟩
      rw [tsoFragsCalls, hnone.1, hnone.2, if_pos rfl, List.nil_append]
      exact ih hrest (f + 1) t

/-- Behind a linear part that is longer than a segment, the first piece of the fragments has a
negative length. -/
lemma exists_neg_piece {pa : ℕ} (hlinear : q.gsoSize < q.linear)
    (hpieces : tsoPieces q v pa = (t, true)) (hdata : ¬ ∀ size ∈ q.skb.frags, size = 0) :
    ∃ p ∈ mappedPieces (tsoPiecesCalls q v pa), p.len < 0 := by
  have hrun := tsoPieces_run (J := fun f cs t =>
    ((∀ size ∈ q.skb.frags.take f, size = 0) ∧ t.remData = q.gsoSize - (q.linear : ℕ)) ∨
      ∃ p ∈ mappedPieces cs, p.len < 0) hpieces (fun hnone => absurd hnone (by omega))
    (fun pa' _ _ => .inl ⟨by simp, rfl⟩) ?_
  · rcases hrun with ⟨hempty, -⟩ | hneg
    · rw [TsoRequest.nrFrags, List.take_length] at hempty
      exact absurd hempty hdata
    · exact hneg
  · intro f size cs w u hsize hw hfrag
    have hmono : (∃ p ∈ mappedPieces cs, p.len < 0) → ∃ p ∈ mappedPieces (cs ++ tsoFragCalls q
        v.swhead f size (wilVringAvailTx v - w.descsUsed) size w), p.len < 0 := by
      rintro ⟨p, hp, hneg⟩
      refine ⟨p, ?_, hneg⟩
      rw [mappedPieces_append]
      exact List.mem_append_left _ hp
    rcases hw with ⟨hempty, hrem⟩ | hneg
    · obtain ⟨hsize0, rfl, -⟩ | ⟨m, pa', -, hpos, -, -, hcalls⟩ := tsoFrag_cases hfrag
      · refine .inl ⟨fun size' hmem => ?_, hrem⟩
        rw [List.take_add_one, hsize] at hmem
        rcases List.mem_append.mp hmem with hold | hnew
        · exact hempty size' hold
        · obtain rfl := List.mem_singleton.mp hnew
          omega
      · refine .inr ⟨⟨some f, size - size, w.lenmss q size, pa'⟩, ?_, ?_⟩
        · simp only [mappedPieces_append, hcalls, mappedPieces_map, List.mem_append,
            List.mem_singleton]
          exact .inr (.inl (.inr trivial))
        · have hnext : w.nextChunk q = w := if_neg (by omega)
          show w.lenmss q size < 0
          rw [TsoState.lenmss, hnext]
          split_ifs <;> omega
    · exact .inr (hmono hneg)

/-! ## Every packet -/

/-- The pieces behind the headers. -/
def dataPieces (s : TxState) (q : TsoRequest) : List TsoPiece :=
  (mappedPieces (wilTxVringTsoCalls s q)).tail

/-- **What must hold.**  The loops end; the pieces behind the headers are not empty, follow one
another from the end of the headers to the end of the packet, and are inside of their fragments; and
the descriptors behind that of the headers hold them. -/
structure TsoCovers (s : TxState) (q : TsoRequest) : Prop where
  ends : ∀ (f : ℕ) (size len : ℤ) (t : TsoState), t.descsUsed ≤ wilVringAvailTx s.vring →
    ∃ n, tsoFragWhile q s.vring.swhead (wilVringAvailTx s.vring) f size n len t
      = some (tsoFrag q s.vring.swhead f size (wilVringAvailTx s.vring - t.descsUsed) len t)
  positive : ∀ p ∈ dataPieces s q, 0 < p.len
  inside : ∀ p ∈ dataPieces s q, p.Inside q.skb
  consecutive : Consecutive q.skb q.hdrlen (dataPieces s q) q.skb.len
  sum : ((dataPieces s q).map TsoPiece.len).sum = q.skb.len - q.hdrlen
  held : ∀ j p, (dataPieces s q)[j]? = some p →
    ((wilTxVringTso s q).1.vring.desc ((s.vring.swhead + (j + 1)) % s.vring.size)).Holds p ∧
      (((wilTxVringTso s q).1.vring.desc
        ((s.vring.swhead + (j + 1)) % s.vring.size)).length : ℤ) = p.len

/-- What the posted descriptors hold behind the call. -/
lemma holds_wilTxVringTso {pa : ℕ} (hhead : s.vring.swhead < s.vring.size)
    (haccepts : q.Accepts s.vring pa) (hpieces : tsoPieces q s.vring pa = (t, true)) {j : ℕ}
    {p : TsoPiece} (hp : (mappedPieces (tsoPiecesCalls q s.vring pa))[j]? = some p) :
    ((wilTxVringTso s q).1.vring.desc ((s.vring.swhead + j) % s.vring.size)).Holds p := by
  have hheld := (piecesHeld_tsoPieces hhead haccepts.room hpieces).held j p hp
  have hbuf : SameBuffers t.vring (t.finish q s.vring.swhead) := sameBuffers_finish q t
  rw [(wilTxVringTso_posted haccepts hpieces).2.1]
  show ((t.finish q s.vring.swhead).desc _).Holds p
  rw [VringTxDesc.Holds, (hbuf _).1, (hbuf _).2.1, (hbuf _).2.2]
  exact hheld

/-- The calls begin with the headers and the data behind them; without fragments these are all. -/
lemma mappedPieces_tsoPiecesCalls {pa : ℕ} (hpieces : tsoPieces q v pa = (t, true))
    (hdata : q.linear ≠ 0) : ∃ pa' rest, mappedPieces (tsoPiecesCalls q v pa)
        = ⟨none, 0, q.hdrlen, pa⟩ :: ⟨none, q.hdrlen, q.linear, pa'⟩ :: rest ∧
      ((∀ size ∈ q.skb.frags, size = 0) → rest = []) := by
  obtain ⟨pa', hmap⟩ := single_of_posted hpieces hdata
  have hcalls : tsoLinearCalls q = [.map ⟨none, q.hdrlen, q.linear, pa'⟩] := by
    rw [tsoLinearCalls, if_neg hdata, hmap]
  refine ⟨pa', _, by rw [tsoPiecesCalls, hcalls, mappedPieces_append]; rfl, fun hempty => ?_⟩
  rw [tsoFragsCalls_empty hempty]
  split_ifs <;> rfl

/-- The pieces of a posted packet. -/
lemma dataPieces_posted {pa : ℕ} (haccepts : q.Accepts s.vring pa)
    (hpieces : tsoPieces q s.vring pa = (t, true)) :
    dataPieces s q = (mappedPieces (tsoPiecesCalls q s.vring pa)).tail := by
  rw [dataPieces, wilTxVringTsoCalls_posted haccepts hpieces]
  simp

/-- Pieces that cover the payload, none of them too long for the length of a descriptor. -/
lemma TsoCovers.of_consecutive {pa : ℕ} {data : List TsoPiece}
    (hhead : s.vring.swhead < s.vring.size) (hgso : 0 < q.gsoSize) (haccepts : q.Accepts s.vring pa)
    (hpieces : tsoPieces q s.vring pa = (t, true)) {header : TsoPiece}
    (hmapped : mappedPieces (tsoPiecesCalls q s.vring pa) = header :: data)
    (hcons : Consecutive q.skb q.hdrlen data q.skb.len)
    (hall : ∀ p ∈ data, 0 < p.len ∧ p.len < 2 ^ 16 ∧ p.Inside q.skb) : TsoCovers s q := by
  have hdata : dataPieces s q = data := by
    rw [dataPieces_posted haccepts hpieces, hmapped, List.tail_cons]
  have hsum := hcons.sum_len
  rw [← hdata] at hcons hall hsum
  refine ⟨fun f size len t hused => tsoFragWhile_eq hgso len t hused, fun p hp => (hall p hp).1,
    fun p hp => (hall p hp).2.2, hcons, hsum, fun j p hp => ?_⟩
  have hholds := holds_wilTxVringTso hhead haccepts hpieces (j := j + 1) (p := p) (by
    rw [hmapped, List.getElem?_cons_succ, ← hdata, hp])
  obtain ⟨hpos, hlt, -⟩ := hall p (List.mem_of_getElem? hp)
  refine ⟨hholds, ?_⟩
  rw [hholds.2.2, u16]
  omega

/-- **When a packet with segmentation offload is covered.**  A call that returns 0 covers the payload
where the linear part is at most a segment, or where there is nothing else and a descriptor can hold
its length; otherwise the pieces go wrong. -/
theorem tsoCovers_iff (s : TxState) (q : TsoRequest) (hrc : (wilTxVringTso s q).2.2 = 0)
    (hhead : s.vring.swhead < s.vring.size) (hhdrlen : q.hdrlen ≤ q.skb.headlen)
    (hlen : q.skb.len = q.skb.headlen + q.skb.frags.sum) (hgso : 0 < q.gsoSize)
    (hgso' : q.gsoSize < 2 ^ 16) : TsoCovers s q ↔
      q.linear ≤ q.gsoSize ∨ (∀ size ∈ q.skb.frags, size = 0) ∧ q.linear < 2 ^ 16 := by
  obtain ⟨pa, t, haccepts, hpieces⟩ := accepts_of_posted hrc
  have hstart : q.hdrlen + q.linear = q.skb.headlen := by
    rw [TsoRequest.linear]
    omega
  constructor
  · intro hcovers
    by_cases hlinear : q.linear ≤ q.gsoSize
    · exact .inl hlinear
    · have hdata := dataPieces_posted haccepts hpieces
      obtain ⟨pa', rest, hmapped, -⟩ := mappedPieces_tsoPiecesCalls hpieces (by omega)
      rw [hmapped, List.tail_cons] at hdata
      refine .inr ⟨?_, ?_⟩
      · by_contra hsome
        obtain ⟨p, hp, hneg⟩ := exists_neg_piece (not_le.mp hlinear) hpieces hsome
        rw [hmapped, ← hdata, List.mem_cons] at hp
        rcases hp with rfl | hp
        · exact absurd hneg (not_lt.mpr (Int.natCast_nonneg q.hdrlen))
        · exact absurd (hcovers.positive p hp) (by omega)
      · -- the descriptor of the linear part holds its length
        obtain ⟨hholds, hlength⟩ := hcovers.held 0 ⟨none, q.hdrlen, q.linear, pa'⟩ (by rw [hdata]; rfl)
        rw [hholds.2.2, u16] at hlength
        simp only at hlength
        omega
  · intro hcase
    by_cases hlinear : q.linear ≤ q.gsoSize
    · obtain ⟨⟨-, data, hmapped, hcons, hall⟩, -⟩ := covered_tsoPieces hgso hlinear hpieces
      have hdataStart : q.dataStart = q.hdrlen := by
        rw [TsoRequest.dataStart]
        omega
      rw [hdataStart, ← Nat.add_assoc, hstart, ← hlen] at hcons
      refine .of_consecutive hhead hgso haccepts hpieces hmapped hcons fun p hp => ?_
      obtain ⟨hpos, hle, hinside⟩ := hall p hp
      exact ⟨hpos, by omega, hinside⟩
    · obtain ⟨hempty, hfits⟩ := hcase.resolve_left hlinear
      have hsum : q.skb.frags.sum = 0 := List.sum_eq_zero hempty
      obtain ⟨pa', rest, hmapped, hrest⟩ := mappedPieces_tsoPiecesCalls hpieces (by omega)
      rw [hrest hempty] at hmapped
      refine .of_consecutive hhead hgso haccepts hpieces hmapped ⟨rfl, ?_⟩ fun p hp => ?_
      · rw [hlen, hsum, Nat.add_zero, ← hstart, Nat.cast_add]
        rfl
      · obtain rfl := List.mem_singleton.mp hp
        exact ⟨show (0 : ℤ) < q.linear by omega, show (q.linear : ℤ) < 2 ^ 16 by omega,
          Int.natCast_nonneg _, show (q.hdrlen : ℤ) + q.linear ≤ q.skb.headlen by omega⟩

/-- Sixty bytes behind the headers and a fragment of eighty, in segments of a hundred. -/
theorem tsoCovers_eight : TsoCovers (TxSys.init blankTx 8).tx (tcpPacket 100 60 [80]) :=
  (tsoCovers_iff _ _ (by decide +kernel) (by decide +kernel) (by decide +kernel) (by decide +kernel)
    (by decide +kernel) (by decide +kernel)).mpr (.inl (by decide +kernel))

/-- With a linear part of a hundred and fifty bytes, minus fifty bytes of the fragment are mapped. -/
theorem not_tsoCovers : ¬ ∀ (s : TxState) (q : TsoRequest), (wilTxVringTso s q).2.2 = 0 →
    s.vring.swhead < s.vring.size → q.hdrlen ≤ q.skb.headlen →
    q.skb.len = q.skb.headlen + q.skb.frags.sum → 0 < q.gsoSize → q.gsoSize < 2 ^ 16 →
    TsoCovers s q := by
  intro h
  have hcovers := h (TxSys.init blankTx 8).tx (tcpPacket 100 150 [80]) (by decide +kernel)
    (by decide +kernel) (by decide +kernel) (by decide +kernel) (by decide +kernel)
    (by decide +kernel)
  have hpiece : (⟨some 0, 0, -50, 65536⟩ : TsoPiece)
      ∈ dataPieces (TxSys.init blankTx 8).tx (tcpPacket 100 150 [80]) := by
    decide +kernel
  exact absurd (hcovers.positive _ hpiece) (by decide)

end Wil6210
