import Wil6210.Tx.Tso

/-!
# What `wil_tx_vring_tso` does

`tsoPieces_rule` is the induction over its loops: what the headers establish and what every posted
piece and every finished chunk keep, holds behind the loops.  `TsoState.Posts` is what is kept: the
slots from the head on are written, one for each descriptor used, and hold the buffer.  From it,
`tsoPosting` says what a call does to its ring, as `txPosting` says it of `wil_tx_vring`.

The check at its start asks for three descriptors for each fragment and one for the headers.  Where
there is no fragment, data behind the headers takes a second one, which nothing asks for
(`TsoRequest.Overruns`).
-/

namespace Wil6210

open Circular (slots mem_slots mem_slots_succ)

variable {q : TsoRequest} {v w : Vring} {t : TsoState} {skb : TxSkb} {n : ℕ}

/-! ## The request -/

namespace TsoRequest

/-- The data behind the headers in the linear part. -/
def linear (q : TsoRequest) : ℕ := q.skb.headlen - q.hdrlen

/-- The pieces mapped with `dma_map_single`: the headers, and the data behind them. -/
def singles (q : TsoRequest) : ℕ := if q.linear = 0 then 1 else 2

/-- The packet takes two descriptors, and only one is free. -/
def Overruns (q : TsoRequest) (v : Vring) : Prop :=
  q.nrFrags = 0 ∧ q.linear ≠ 0 ∧ wilVringAvailTx v = 1

instance (q : TsoRequest) (v : Vring) : Decidable (q.Overruns v) :=
  inferInstanceAs (Decidable (_ ∧ _ ∧ _))

/-- There is room for the pieces that are always there. -/
lemma singles_le (hroom : ¬ wilVringAvailTx v < q.nrFrags * 3 + 1) (hfits : ¬ q.Overruns v) :
    q.singles ≤ wilVringAvailTx v := by
  rw [Overruns] at hfits
  rw [singles]
  split_ifs with hlinear
  · omega
  · have hfrags : q.nrFrags = 0 → wilVringAvailTx v ≠ 1 := fun h h' => hfits ⟨h, hlinear, h'⟩
    omega

end TsoRequest

/-! ## The rule of the loops -/

namespace TsoState

/-- The data behind the headers is posted. -/
def postLinear (q : TsoRequest) (swhead : ℕ) (t : TsoState) (pa : ℕ) : TsoState :=
  let i := (swhead + 1) % t.vring.size
  { t.post q i pa q.linear 1 with
    cb := { t.cb with snglMapped := i }
    sgDesc := some i
    sgDescCnt := 1
    remData := q.gsoSize - (q.linear : ℕ)
    firstdata := true }

/-- A piece of a fragment is posted. -/
def postFrag (q : TsoRequest) (swhead : ℕ) (t : TsoState) (pa : ℕ) (len remData : ℤ) : TsoState :=
  let i := (swhead + t.descsUsed) % t.vring.size
  { t.post q i pa len (if t.firstdata then 2 else 1) with
    sgDesc := some (t.sgDesc.getD i)
    sgDescCnt := t.sgDescCnt + 1
    remData := remData
    firstdata := true }

lemma endChunk_keeps (q : TsoRequest) (t : TsoState) :
    (t.endChunk q).i = t.i ∧ (t.endChunk q).descsUsed = t.descsUsed ∧ (t.endChunk q).cb = t.cb := by
  rw [endChunk]
  cases t.sgDesc <;> exact ⟨rfl, rfl, rfl⟩

lemma nextChunk_keeps (q : TsoRequest) (t : TsoState) :
    (t.nextChunk q).descsUsed = t.descsUsed ∧ (t.nextChunk q).cb = t.cb := by
  rw [nextChunk]
  split_ifs
  · exact (t.endChunk_keeps q).2
  · exact ⟨rfl, rfl⟩

end TsoState

section Rule

variable {I : TsoState → Prop} {swhead avail : ℕ}

/-- The loop over the chunks of a fragment. -/
lemma tsoFrag_rule (hnext : ∀ t, I t → I (t.nextChunk q))
    (hpost : ∀ t pa len rem, I t → t.descsUsed < avail → I (t.postFrag q swhead pa len rem))
    (f : ℕ) (size : ℤ) :
    ∀ n len t, n ≤ avail - t.descsUsed → I t → I (tsoFrag q swhead f size n len t).1 := by
  intro n
  induction n with
  | zero =>
      intro len t _ ht
      simp only [tsoFrag]
      split_ifs
      · exact ht
      · exact hnext t ht
  | succ n ih =>
      intro len t hn ht
      have hused := (t.nextChunk_keeps q).1
      have hchunk := hnext t ht
      rw [tsoFrag]
      by_cases hlen : len ≤ 0
      · rw [if_pos hlen]
        exact ht
      · rw [if_neg hlen]
        dsimp only
        generalize t.nextChunk q = u at hused hchunk
        generalize (if len > u.remData then u.remData else len) = lenmss
        cases q.dma.frag f (size - len) lenmss with
        | none => exact hchunk
        | some pa =>
            refine ih _ (u.postFrag q swhead pa lenmss (u.remData - lenmss)) ?_
              (hpost u pa lenmss _ hchunk (by omega))
            show n ≤ avail - (u.descsUsed + 1)
            omega

/-- The loop over the fragments. -/
lemma tsoFrags_rule (hnext : ∀ t, I t → I (t.nextChunk q))
    (hpost : ∀ t pa len rem, I t → t.descsUsed < avail → I (t.postFrag q swhead pa len rem))
    (sizes : List ℕ) : ∀ f t, I t → I (tsoFrags q swhead avail f sizes t).1 := by
  induction sizes with
  | nil =>
      intro f t ht
      exact ht
  | cons size sizes ih =>
      intro f t ht
      have hfrag := tsoFrag_rule hnext hpost f size (avail - t.descsUsed) size t le_rfl ht
      simp only [tsoFrags]
      split <;> rename_i hend <;> rw [hend] at hfrag
      · exact hfrag
      · exact ih (f + 1) _ hfrag

/-- **The rule of the loops.** -/
theorem tsoPieces_rule {pa : ℕ} (hheader : I (tsoHeader q v pa))
    (hlinear : ∀ pa', q.linear ≠ 0 → I ((tsoHeader q v pa).postLinear q v.swhead pa'))
    (hnext : ∀ t, I t → I (t.nextChunk q))
    (hpost : ∀ t pa len rem, I t → t.descsUsed < wilVringAvailTx v →
      I (t.postFrag q v.swhead pa len rem)) : I (tsoPieces q v pa).1 := by
  have hdata : I (tsoLinear q v.swhead (tsoHeader q v pa)).1 := by
    simp only [tsoLinear]
    split_ifs with hlen
    · exact hheader
    · cases q.dma.single q.hdrlen (q.skb.headlen - q.hdrlen) with
      | none => exact hheader
      | some pa' => exact hlinear pa' hlen
  simp only [tsoPieces]
  split <;> rename_i hend <;> rw [hend] at hdata
  · exact hdata
  · exact tsoFrags_rule hnext hpost _ 0 _ hdata

end Rule

/-! ## What the loops keep -/

/-- `w` is `v` with `n` pieces of the packet behind the head, the first of them the headers. -/
structure PiecesOn (skb : TxSkb) (v w : Vring) (n : ℕ) : Prop where
  same : SameRing v w
  frame : ∀ i ∉ slots v.size v.swhead n, w.desc i = v.desc i ∧ w.ctx i = v.ctx i
  fresh : ∀ i ∈ slots v.size v.swhead n, (w.desc i).status = 0 ∧ w.ctx i = some skb
  header : (w.desc v.swhead).eop

namespace PiecesOn

/-- One of the descriptors is written again. -/
lemma touch (h : PiecesOn skb v w n) {i : ℕ} (hi : i ∈ slots v.size v.swhead n) {d : VringTxDesc}
    (hstatus : d.status = (w.desc i).status) (heop : (w.desc i).eop → d.eop) :
    PiecesOn skb v (w.setDesc i d) n := by
  refine ⟨h.same.trans (SameRing.setDesc w i d), fun j hj => ?_, fun j hj => ?_, ?_⟩
  · have hne : j ≠ i := fun heq => hj (heq ▸ hi)
    simpa [Vring.setDesc, hne] using h.frame j hj
  · by_cases hji : j = i
    · subst hji
      simpa [Vring.setDesc, hstatus] using h.fresh j hj
    · simpa [Vring.setDesc, hji] using h.fresh j hj
  · by_cases hhead : v.swhead = i
    · subst hhead
      simpa [Vring.setDesc] using heop h.header
    · simpa [Vring.setDesc, hhead] using h.header

/-- One more piece is posted. -/
lemma post (h : PiecesOn skb v w n) (hhead : v.swhead < v.size) (hn : 0 < n) (hsize : n < v.size)
    {d : VringTxDesc} (hstatus : d.status = 0) :
    PiecesOn skb v ((w.setDesc ((v.swhead + n) % v.size) d).setCtx ((v.swhead + n) % v.size)
      (some skb)) (n + 1) := by
  set i := (v.swhead + n) % v.size with hi
  have hne : v.swhead ≠ i := by
    have hwindow : v.swhead % v.size ≠ (v.swhead + n) % v.size :=
      Circular.ne_of_window (by omega) (by omega)
    rwa [Nat.mod_eq_of_lt hhead] at hwindow
  refine ⟨(h.same.trans (SameRing.setDesc w i d)).trans (SameRing.setCtx _ i _), fun j hj => ?_,
    fun j hj => ?_, ?_⟩
  · rw [mem_slots_succ, not_or, ← hi] at hj
    simpa [Vring.setDesc, Vring.setCtx, hj.2] using h.frame j hj.1
  · by_cases hji : j = i
    · subst hji
      simp [Vring.setDesc, Vring.setCtx, hstatus]
    · have hold := h.fresh j ((mem_slots_succ.mp hj).resolve_right hji)
      simpa [Vring.setDesc, Vring.setCtx, hji] using hold
  · simpa [Vring.setDesc, Vring.setCtx, hne] using h.header

end PiecesOn

lemma eop_or {a b : ℕ} (h : (a ||| b) &&& descTx0CmdEop = 0) : a &&& descTx0CmdEop = 0 := by
  rw [Nat.and_or_distrib_right] at h
  exact (Nat.or_eq_zero_iff.mp h).1

lemma eop_wilTxLastDesc (d : VringTxDesc) (i : ℕ) : (wilTxLastDesc d i).eop := by
  intro h
  simp only [wilTxLastDesc, Nat.or_assoc] at h
  rw [Nat.or_comm, Nat.or_assoc] at h
  exact absurd (eop_or h) (by decide)

/-- What the loops keep. -/
structure TsoState.Posts (q : TsoRequest) (v : Vring) (t : TsoState) : Prop where
  ring : PiecesOn q.skb v t.vring t.descsUsed
  used_pos : 0 < t.descsUsed
  used_le : t.descsUsed ≤ wilVringAvailTx v
  last : t.i ∈ slots v.size v.swhead t.descsUsed
  first : ∀ j, t.sgDesc = some j → j ∈ slots v.size v.swhead t.descsUsed
  events : ∀ e ∈ t.events, e = .skbGet q.skb ∨ ∃ i, e = .write i
  taken : ∀ p, taken p t.events = if p q.skb then t.descsUsed else 0

namespace TsoState.Posts

lemma header (hhead : v.swhead < v.size) (havail : 1 ≤ wilVringAvailTx v) (pa : ℕ) :
    (tsoHeader q v pa).Posts q v := by
  have hmem : v.swhead ∈ slots v.size v.swhead 1 :=
    mem_slots.mpr ⟨v.swhead, le_rfl, Nat.lt_succ_self _, Nat.mod_eq_of_lt hhead⟩
  have hslot : ∀ j ∈ slots v.size v.swhead 1, j = v.swhead := by
    intro j hj
    obtain ⟨k, hk, hk', rfl⟩ := mem_slots.mp hj
    rw [show k = v.swhead by omega, Nat.mod_eq_of_lt hhead]
  refine ⟨⟨⟨rfl, rfl, rfl, rfl, rfl⟩, fun j hj => ?_, fun j hj => ?_, ?_⟩, Nat.one_pos, havail,
    hmem, fun j hj => absurd hj (by simp [tsoHeader, TsoState.post]), fun e he => ?_, fun p => ?_⟩
  · have hne : j ≠ v.swhead := fun heq => hj (heq ▸ hmem)
    simp [tsoHeader, TsoState.post, Vring.setDesc, Vring.setCtx, hne]
  · obtain rfl := hslot j hj
    simp [tsoHeader, TsoState.post, Vring.setDesc, Vring.setCtx]
  · simpa [tsoHeader, TsoState.post, Vring.setDesc, Vring.setCtx] using eop_wilTxLastDesc _ _
  · simp only [tsoHeader, TsoState.post, List.nil_append, List.mem_cons, List.not_mem_nil,
      or_false] at he
    exact he.symm.imp_right fun h => ⟨_, h⟩
  · simp only [tsoHeader, TsoState.post, List.nil_append, taken_cons, taken_nil, takes_skbGet,
      takes_write]
    split_ifs <;> simp_all

/-- A piece is posted in the next slot; what is noted about its chunk names that slot. -/
lemma post (h : t.Posts q v) (hhead : v.swhead < v.size) (hroom : t.descsUsed < wilVringAvailTx v)
    (pa : ℕ) (len tsoDescType : ℤ) {u : TsoState}
    (hvring : u.vring = (t.post q ((v.swhead + t.descsUsed) % v.size) pa len tsoDescType).vring)
    (hi : u.i = (v.swhead + t.descsUsed) % v.size) (hused : u.descsUsed = t.descsUsed + 1)
    (hevents : u.events = t.events ++ [.write u.i, .skbGet q.skb])
    (hfirst : ∀ j, u.sgDesc = some j → t.sgDesc = some j ∨ j = u.i) : u.Posts q v := by
  have hsize : t.descsUsed < v.size := by
    rw [wilVringAvailTx] at hroom
    omega
  have hnew : u.i ∈ slots v.size v.swhead u.descsUsed := by
    rw [hused, hi]
    exact mem_slots_succ.mpr (.inr rfl)
  refine ⟨?_, by omega, by omega, hnew, fun j hj => ?_, fun e he => ?_, fun p => ?_⟩
  · rw [hvring, hused]
    exact h.ring.post hhead h.used_pos hsize (by simp)
  · rcases hfirst j hj with hj | rfl
    · rw [hused]
      exact mem_slots_succ.mpr (.inl (h.first j hj))
    · exact hnew
  · rw [hevents, List.mem_append, List.mem_pair] at he
    rcases he with he | rfl | rfl
    · exact h.events e he
    · exact .inr ⟨_, rfl⟩
    · exact .inl rfl
  · rw [hevents, taken_append, h.taken, hused]
    by_cases hp : p q.skb = true <;> simp [hp]

lemma endChunk (h : t.Posts q v) : (t.endChunk q).Posts q v := by
  have hlast : PiecesOn q.skb v (t.vring.setDesc t.i (wilTxLastDesc (t.vring.desc t.i)
      q.vringIndex)) t.descsUsed :=
    h.ring.touch h.last (status_wilTxLastDesc _ _) fun _ => eop_wilTxLastDesc _ _
  simp only [TsoState.endChunk]
  cases hfirst : t.sgDesc with
  | none =>
      refine ⟨hlast, h.used_pos, h.used_le, h.last, fun k hk => absurd hk (by simp),
        fun e he => ?_, fun p => ?_⟩
      · rcases List.mem_append.mp he with he | he
        · exact h.events e he
        · exact .inr ⟨_, List.mem_singleton.mp he⟩
      · simp [h.taken]
  | some j =>
      refine ⟨hlast.touch (h.first j hfirst) rfl id, h.used_pos, h.used_le, h.last,
        fun k hk => h.first k (hfirst.trans hk), fun e he => ?_, fun p => ?_⟩
      · rw [List.mem_append, List.mem_pair] at he
        rcases he with he | rfl | rfl
        · exact h.events e he
        · exact .inr ⟨_, rfl⟩
        · exact .inr ⟨_, rfl⟩
      · simp [h.taken]

lemma nextChunk (h : t.Posts q v) : (t.nextChunk q).Posts q v := by
  simp only [TsoState.nextChunk]
  split_ifs
  · have hend := h.endChunk
    exact ⟨hend.ring, hend.used_pos, hend.used_le, hend.last, by simp, hend.events, hend.taken⟩
  · exact h

/-- **What the loops keep**, as long as there is room. -/
lemma pieces (hhead : v.swhead < v.size) (hsingles : q.singles ≤ wilVringAvailTx v) (pa : ℕ) :
    (tsoPieces q v pa).1.Posts q v := by
  have havail : 1 ≤ wilVringAvailTx v := by
    rw [TsoRequest.singles] at hsingles
    split_ifs at hsingles <;> omega
  have hheader : (tsoHeader q v pa).Posts q v := .header hhead havail pa
  refine tsoPieces_rule hheader (fun pa' hlinear => ?_) (fun t ht => ht.nextChunk)
    fun t pa len rem ht hroom => ?_
  · have hroom : 1 < wilVringAvailTx v := by
      rw [TsoRequest.singles, if_neg hlinear] at hsingles
      omega
    exact hheader.post hhead hroom pa' q.linear 1 rfl rfl rfl rfl
      fun j hj => .inr (Option.some.inj hj).symm
  · have hsize : t.vring.size = v.size := ht.ring.same.size
    refine ht.post hhead hroom pa len (if t.firstdata then 2 else 1) ?_ ?_ rfl rfl fun j hj => ?_
    · simp only [TsoState.postFrag, hsize]
    · simp only [TsoState.postFrag, TsoState.post, hsize]
    · simp only [TsoState.postFrag, Option.some.injEq] at hj
      cases hfirst : t.sgDesc with
      | none =>
          rw [hfirst] at hj
          exact .inr hj.symm
      | some k =>
          rw [hfirst] at hj
          exact .inl (congrArg some hj)

end TsoState.Posts

/-- Where all is posted, the `cb` names the headers and the last piece of the linear part. -/
lemma cb_tsoPieces (pa : ℕ) (hhead : v.swhead < v.size) (h : (tsoPieces q v pa).2 = true) :
    (tsoPieces q v pa).1.cb = ⟨(v.swhead + q.singles - 1) % v.size, v.swhead⟩ := by
  have hlinear : (tsoLinear q v.swhead (tsoHeader q v pa)).2 = true →
      (tsoLinear q v.swhead (tsoHeader q v pa)).1.cb
        = ⟨(v.swhead + q.singles - 1) % v.size, v.swhead⟩ := by
    intro h
    by_cases hdata : q.linear = 0
    · rw [tsoLinear, if_pos (show q.skb.headlen - q.hdrlen = 0 from hdata), TsoRequest.singles,
        if_pos hdata, Nat.add_sub_cancel, Nat.mod_eq_of_lt hhead]
      rfl
    · rw [tsoLinear, if_neg (show ¬ q.skb.headlen - q.hdrlen = 0 from hdata)] at h ⊢
      rw [TsoRequest.singles, if_neg hdata]
      cases hmap : q.dma.single q.hdrlen (q.skb.headlen - q.hdrlen) with
      | none =>
          rw [hmap] at h
          exact absurd h (by simp)
      | some pa' => rfl
  simp only [tsoPieces] at h ⊢
  split at h <;> rename_i hend
  · exact absurd h (by simp)
  · simp only [hend] at hlinear ⊢
    exact tsoFrags_rule (I := fun t => t.cb = _) (fun t ht => (t.nextChunk_keeps q).2.trans ht)
      (fun t pa len rem ht _ => ht) _ 0 _ (hlinear trivial)

/-! ## The events of a call -/

/-- The loop behind `dma_error` is that of `wil_tx_vring`, one slot further. -/
lemma tsoDmaError_eq (cb : WilSkbCb) (skb : TxSkb) (swhead n : ℕ) (v : Vring) :
    tsoDmaError cb skb swhead n v = txDmaError cb skb (swhead + 1) n v := by
  induction n generalizing v with
  | zero => rfl
  | succ n ih =>
      have hslot : swhead + 1 + (n + 1) - 1 = swhead + (n + 1) := by omega
      simp only [tsoDmaError, txDmaError, ih, hslot]

/-- On its way, `wil_tx_vring_tso` moves neither end of the ring, and works on the ring only. -/
structure TsoState.Local (v : Vring) (t : TsoState) : Prop where
  same : SameRing v t.vring
  onRing : ∀ e ∈ t.events, e.onRing

namespace TsoState.Local

lemma post (h : t.Local v) (i pa : ℕ) (len tsoDescType : ℤ) :
    (t.post q i pa len tsoDescType).Local v :=
  ⟨(h.same.trans (SameRing.setDesc _ _ _)).trans (SameRing.setCtx _ _ _),
    List.forall_mem_append.mpr ⟨h.onRing, List.forall_mem_cons.mpr ⟨rfl,
      List.forall_mem_singleton.mpr rfl⟩⟩⟩

lemma endChunk (h : t.Local v) : (t.endChunk q).Local v := by
  rw [TsoState.endChunk]
  cases t.sgDesc with
  | none =>
      exact ⟨h.same.trans (SameRing.setDesc _ _ _),
        List.forall_mem_append.mpr ⟨h.onRing, List.forall_mem_singleton.mpr rfl⟩⟩
  | some j =>
      exact ⟨(h.same.trans (SameRing.setDesc _ _ _)).trans (SameRing.setDesc _ _ _),
        List.forall_mem_append.mpr ⟨h.onRing, List.forall_mem_cons.mpr ⟨rfl,
          List.forall_mem_singleton.mpr rfl⟩⟩⟩

lemma nextChunk (h : t.Local v) : (t.nextChunk q).Local v := by
  rw [TsoState.nextChunk]
  split_ifs
  · have hend : (t.endChunk q).Local v := h.endChunk
    exact ⟨hend.same, hend.onRing⟩
  · exact h

lemma header (pa : ℕ) : (tsoHeader q v pa).Local v := by
  have hstart : TsoState.Local v ⟨v, ⟨v.swhead, v.swhead⟩, v.swhead, 0, none, 0, q.gsoSize, 1,
      false, []⟩ := ⟨SameRing.refl v, List.forall_mem_nil _⟩
  have hpost := hstart.post (q := q) v.swhead pa q.hdrlen 0
  exact ⟨hpost.same.trans (SameRing.setDesc _ _ _), hpost.onRing⟩

lemma pieces (pa : ℕ) : (tsoPieces q v pa).1.Local v := by
  refine tsoPieces_rule (header pa) (fun pa' _ => ?_) (fun t ht => ht.nextChunk)
    (fun t pa len rem ht _ => ?_)
  · have hpost := (header (q := q) (v := v) pa).post (q := q)
      ((v.swhead + 1) % (tsoHeader q v pa).vring.size) pa' (q.linear : ℕ) 1
    exact ⟨hpost.same, hpost.onRing⟩
  · have hpost := ht.post (q := q) ((v.swhead + t.descsUsed) % t.vring.size) pa len
      (if t.firstdata then 2 else 1)
    exact ⟨hpost.same, hpost.onRing⟩

end TsoState.Local

/-- **What a call of `wil_tx_vring_tso` does outside of the ring.** -/
theorem wilTxVringTso_events (s : TxState) (q : TsoRequest) :
    CallEvents s.vring (wilTxVringTso s q).2.1 := by
  rw [wilTxVringTso]
  split_ifs with hroom htcp
  · exact .nothing _
  · exact .nothing _
  · cases q.dma.single 0 q.hdrlen with
    | none => exact .nothing _
    | some pa =>
        have hpieces : (tsoPieces q s.vring pa).1.Local s.vring := .pieces pa
        dsimp only
        cases hend : tsoPieces q s.vring pa with
        | mk t ok =>
            rw [hend] at hpieces
            cases ok with
            | false =>
                dsimp only
                rw [tsoDmaError_eq]
                exact .failed hpieces.onRing (onRing_txDmaError _ _ _ _ _)
            | true =>
                have hlast : (t.endChunk q).Local s.vring := hpieces.endChunk
                have hstores : ∀ i j, ∀ e ∈ [TxEvent.write i, .write j], e.onRing :=
                  fun i j => List.forall_mem_cons.mpr ⟨rfl, List.forall_mem_singleton.mpr rfl⟩
                exact .posted hlast.onRing (hstores _ _) hlast.same.hwtail _

/-! ## The whole call -/

/-- The whole packet is posted. -/
def TsoState.finish (q : TsoRequest) (swhead : ℕ) (t : TsoState) : Vring :=
  let t := t.endChunk q
  let d := t.vring.desc t.i
  let w := t.vring.setDesc t.i { d with d0 := d.d0 ||| (3 <<< 11) }
  w.setDesc swhead (wilSetTxDescCount (w.desc swhead) t.descsUsed)

lemma TsoState.Posts.finish (h : t.Posts q v) (hhead : v.swhead < v.size) :
    PiecesOn q.skb v (t.finish q v.swhead) t.descsUsed := by
  have hend := h.endChunk
  rw [← (t.endChunk_keeps q).2.1]
  have hmem : v.swhead ∈ slots v.size v.swhead (t.endChunk q).descsUsed :=
    mem_slots.mpr ⟨v.swhead, le_rfl, by have := hend.used_pos; omega, Nat.mod_eq_of_lt hhead⟩
  refine (hend.ring.touch hend.last (d := { (t.endChunk q).vring.desc (t.endChunk q).i with
    d0 := ((t.endChunk q).vring.desc (t.endChunk q).i).d0 ||| (3 <<< 11) }) rfl ?_).touch hmem rfl id
  exact fun heop h0 => heop (eop_or h0)

/-- What a call did: besides what it did to the ring, the first descriptor of a posted packet ends
a packet, and the `cb` names the headers and the last piece of the linear part. -/
structure TsoPosting (s : TxState) (q : TsoRequest) (n : ℕ) : Prop where
  ring : RingPosting s.vring (wilTxVringTso s q).1.vring q.skb n (wilTxVringTso s q).2.1
    (wilTxVringTso s q).2.2
  header : (wilTxVringTso s q).2.2 = 0 →
    ((wilTxVringTso s q).1.vring.desc s.vring.swhead).eop
  used_pos : (wilTxVringTso s q).2.2 = 0 → 0 < n
  cb : (wilTxVringTso s q).2.2 = 0 → (wilTxVringTso s q).1.cb q.skb.id
    = ⟨(s.vring.swhead + q.singles - 1) % s.vring.size, s.vring.swhead⟩
  cb_frame : ∀ id, id ≠ q.skb.id → (wilTxVringTso s q).1.cb id = s.cb id

/-- A call that gives up before it writes anything. -/
lemma TsoPosting.of_nothing {s : TxState} {rc : ℤ}
    (h : wilTxVringTso s q = (s, txStop s.vring, rc)) (hrc : rc ≠ 0) : TsoPosting s q 0 := by
  have hnot : (wilTxVringTso s q).2.2 ≠ 0 := by
    rw [h]
    exact hrc
  refine ⟨?_, fun h0 => absurd h0 hnot, fun h0 => absurd h0 hnot, fun h0 => absurd h0 hnot, ?_⟩
  · rw [h]
    exact ⟨Nat.zero_le _, rfl, rfl, rfl, fun _ _ => ⟨rfl, rfl⟩, fun h0 => absurd h0 hrc,
      fun _ => rfl, fun p => by simp⟩
  · intro id _
    rw [h]

/-- A trace without a release drops nothing. -/
lemma dropped_eq_zero {es : List TxEvent} {skb : TxSkb}
    (h : ∀ e ∈ es, e = .skbGet skb ∨ ∃ i, e = .write i) (p : TxSkb → Bool) : dropped p es = 0 := by
  refine List.countP_eq_zero.mpr fun e he => ?_
  rcases h e he with rfl | ⟨i, rfl⟩ <;> simp

/-- A call that posts the whole packet. -/
lemma TsoPosting.of_posted {s : TxState} {pa : ℕ} (hhead : s.vring.swhead < s.vring.size)
    (hroom : ¬ wilVringAvailTx s.vring < q.nrFrags * 3 + 1)
    (htcp : (wilTxDescOffloadSetup (s.vring.desc s.vring.swhead) q.skb 0).2 ≠ 0)
    (hmap : q.dma.single 0 q.hdrlen = some pa) (hpieces : tsoPieces q s.vring pa = (t, true))
    (ht : t.Posts q s.vring) : TsoPosting s q t.descsUsed := by
  have hend := ht.endChunk
  obtain ⟨-, hused, hcb⟩ := t.endChunk_keeps q
  have hring := ht.finish hhead
  have hcall : wilTxVringTso s q =
      ({ s with
          vring := wilVringAdvanceHead (t.finish q s.vring.swhead) t.descsUsed
          cb := Function.update s.cb q.skb.id t.cb },
        txStop s.vring ++ (t.endChunk q).events ++ [.write (t.endChunk q).i, .write s.vring.swhead,
          .iowriteHwtail (t.finish q s.vring.swhead).hwtail
            (wilVringAdvanceHead (t.finish q s.vring.swhead) t.descsUsed).swhead], 0) := by
    simp only [wilTxVringTso, if_neg hroom, if_neg htcp, hmap, hpieces, TsoState.finish, hused, hcb]
    rfl
  have hcbs : t.cb = ⟨(s.vring.swhead + q.singles - 1) % s.vring.size, s.vring.swhead⟩ := by
    simpa [hpieces] using cb_tsoPieces (q := q) pa hhead (by rw [hpieces])
  refine ⟨?_, fun _ => ?_, fun _ => ht.used_pos, fun _ => ?_, fun id hid => ?_⟩ <;> rw [hcall]
  · refine ⟨ht.used_le, hring.same.size, hring.same.swtail, hring.same.va, fun i hi => ?_,
      fun _ => ⟨?_, fun i hi => ?_⟩, fun h => absurd rfl h, fun p => ?_⟩
    · exact hring.frame i fun hmem => hi (mem_slots_succ.mpr (.inl hmem))
    · show (_ + _) % _ = _
      rw [hring.same.swhead, hring.same.size]
    · exact ⟨not_du_of_status (hring.fresh i hi).1, (hring.fresh i hi).2⟩
    · simp [hend.taken, dropped_eq_zero hend.events, hused, TxEvent.takes, TxEvent.drops]
  · exact hring.header
  · simp [hcbs]
  · simp [hid]

/-- A call that takes back what it did. -/
lemma TsoPosting.of_failed {s : TxState} {pa : ℕ}
    (hroom : ¬ wilVringAvailTx s.vring < q.nrFrags * 3 + 1)
    (htcp : (wilTxDescOffloadSetup (s.vring.desc s.vring.swhead) q.skb 0).2 ≠ 0)
    (hmap : q.dma.single 0 q.hdrlen = some pa) (hpieces : tsoPieces q s.vring pa = (t, false))
    (ht : t.Posts q s.vring) : TsoPosting s q t.descsUsed := by
  obtain ⟨hsame, hctx, hdesc, -, htaken, hdropped⟩ :=
    txDmaError_undoes t.cb q.skb (s.vring.swhead + 1) t.descsUsed t.vring
  set u := txDmaError t.cb q.skb (s.vring.swhead + 1) t.descsUsed t.vring with hu
  have hcall : wilTxVringTso s q =
      ({ s with vring := u.1, cb := Function.update s.cb q.skb.id t.cb },
        txStop s.vring ++ t.events ++ u.2, eInval) := by
    simp only [wilTxVringTso, if_neg hroom, if_neg htcp, hmap, hpieces, tsoDmaError_eq, ← hu]
  have hnot : (wilTxVringTso s q).2.2 ≠ 0 := by
    rw [hcall]
    exact show eInval ≠ 0 by decide
  rw [ht.ring.same.size] at hdesc
  have hring := ht.ring.same.trans hsame
  refine ⟨?_, fun h0 => absurd h0 hnot, fun h0 => absurd h0 hnot, fun h0 => absurd h0 hnot,
    fun id hid => ?_⟩ <;> rw [hcall]
  · refine ⟨ht.used_le, hring.size, hring.swtail, hring.va, fun i hi => ?_,
      fun h0 => absurd h0 (show eInval ≠ 0 by decide), fun _ => hring.swhead, fun p => ?_⟩
    · have hpieces : i ∉ slots s.vring.size s.vring.swhead t.descsUsed :=
        fun hmem => hi (mem_slots_succ.mpr (.inl hmem))
      have herror : i ∉ slots s.vring.size (s.vring.swhead + 1) t.descsUsed := by
        intro hmem
        obtain ⟨k, hk, hk', heq⟩ := mem_slots.mp hmem
        exact hi (mem_slots.mpr ⟨k, by omega, by omega, heq⟩)
      rw [hdesc i herror, hctx]
      exact ht.ring.frame i hpieces
    · have hrc : eInval ≠ 0 := by decide
      simp [ht.taken, dropped_eq_zero ht.events, htaken, hdropped, hrc]
  · simp [hid]

/-- **One call of `wil_tx_vring_tso`.** -/
theorem tsoPosting (s : TxState) (q : TsoRequest) (hhead : s.vring.swhead < s.vring.size)
    (hfits : ¬ q.Overruns s.vring) : ∃ n, TsoPosting s q n := by
  by_cases hroom : wilVringAvailTx s.vring < q.nrFrags * 3 + 1
  · exact ⟨0, .of_nothing (by simp [wilTxVringTso, hroom]) (show eNomem ≠ 0 by decide)⟩
  by_cases htcp : (wilTxDescOffloadSetup (s.vring.desc s.vring.swhead) q.skb 0).2 = 0
  · exact ⟨0, .of_nothing (by simp [wilTxVringTso, hroom, htcp])
      (show eInval ≠ 0 by decide)⟩
  cases hmap : q.dma.single 0 q.hdrlen with
  | none =>
      exact ⟨0, .of_nothing (by simp [wilTxVringTso, hroom, htcp, hmap])
        (show eInval ≠ 0 by decide)⟩
  | some pa =>
      have ht := TsoState.Posts.pieces hhead (q.singles_le hroom hfits) pa
      generalize hpieces : tsoPieces q s.vring pa = r at ht
      obtain ⟨t, _ | _⟩ := r
      · exact ⟨_, .of_failed hroom htcp hmap hpieces ht⟩
      · exact ⟨_, .of_posted hhead hroom htcp hmap hpieces ht⟩

end Wil6210
