import Wil6210.Tx.TsoRoom

/-!
# What `wil_tx_vring_tso` calls

The pieces a packet is mapped in, and the counts that are stored in its descriptors, are not kept
anywhere.  `wilTxVringTsoCalls` lists them in the order of the calls: it follows the loops of
`wil_tx_vring_tso` state by state and notes what each step maps or counts.

`tsoFrag_run` and `tsoFrags_run` are the inductions over the loops of a packet that is posted:
what every piece keeps, of the state and of the calls up to it, holds behind them.

The loop over a fragment closes a full chunk and posts a piece in separate passes, and stops where
`descs_used` comes to `avail`.  `tsoFragWhile` is this loop, and `tsoFragWhile_eq` says that it ends,
as `tsoFrag` does.
-/

namespace Wil6210

variable {q : TsoRequest} {s : TxState} {v : Vring} {t u : TsoState} {swhead avail f : ℕ} {size : ℤ}

/-! ## The calls -/

/-- A piece that is mapped: so many bytes, from `offset` on, of a fragment or of `skb->data`. -/
structure TsoPiece where
  frag : Option ℕ
  offset : ℤ
  len : ℤ
  pa : ℕ
  deriving DecidableEq, Repr

inductive TsoCall
  /-- `dma_map_single` or `skb_frag_dma_map`, with the address it returned -/
  | map (p : TsoPiece)
  /-- `wil_set_tx_desc_count` of the descriptor in `slot` -/
  | setCount (slot cnt : ℕ)
  deriving DecidableEq, Repr

/-- The pieces that were mapped. -/
def mappedPieces (cs : List TsoCall) : List TsoPiece :=
  cs.filterMap fun c => match c with
    | .map p => some p
    | .setCount _ _ => none

/-- The counts that were stored, each with its slot. -/
def storedCounts (cs : List TsoCall) : List (ℕ × ℕ) :=
  cs.filterMap fun c => match c with
    | .map _ => none
    | .setCount slot cnt => some (slot, cnt)

namespace TsoState

/-- The count `endChunk` stores. -/
def endChunkCalls (t : TsoState) : List TsoCall :=
  match t.sgDesc with
  | none => []
  | some j => [.setCount j (t.sgDescCnt + t.endOfFirstChunk)]

/-- The count `nextChunk` stores. -/
def nextChunkCalls (t : TsoState) : List TsoCall :=
  if t.remData = 0 then t.endChunkCalls else []

/-- `lenmss` for the next piece of a fragment of which `len` bytes are left. -/
def lenmss (q : TsoRequest) (t : TsoState) (len : ℤ) : ℤ :=
  if len > (t.nextChunk q).remData then (t.nextChunk q).remData else len

/-- The next piece of a fragment is posted, in the next chunk where a segment is full. -/
def postPiece (q : TsoRequest) (swhead : ℕ) (t : TsoState) (len : ℤ) (pa : ℕ) : TsoState :=
  (t.nextChunk q).postFrag q swhead pa (t.lenmss q len) ((t.nextChunk q).remData - t.lenmss q len)

end TsoState

/-- The calls of `tsoLinear`. -/
def tsoLinearCalls (q : TsoRequest) : List TsoCall :=
  if q.linear = 0 then []
  else
    match q.dma.single q.hdrlen q.linear with
    | none => []
    | some pa => [.map ⟨none, q.hdrlen, q.linear, pa⟩]

/-- The calls of `tsoFrag`. -/
def tsoFragCalls (q : TsoRequest) (swhead f : ℕ) (size : ℤ) : ℕ → ℤ → TsoState → List TsoCall
  | 0, len, t => if len ≤ 0 then [] else t.nextChunkCalls
  | n + 1, len, t =>
      if len ≤ 0 then []
      else
        match q.dma.frag f (size - len) (t.lenmss q len) with
        | none => t.nextChunkCalls
        | some pa =>
            t.nextChunkCalls ++ [.map ⟨some f, size - len, t.lenmss q len, pa⟩]
              ++ tsoFragCalls q swhead f size n (len - t.lenmss q len) (t.postPiece q swhead len pa)

/-- The calls of `tsoFrags`. -/
def tsoFragsCalls (q : TsoRequest) (swhead avail : ℕ) :
    ℕ → List ℕ → TsoState → List TsoCall
  | _, [], _ => []
  | f, size :: sizes, t =>
      let r := tsoFrag q swhead f size (avail - t.descsUsed) size t
      tsoFragCalls q swhead f size (avail - t.descsUsed) size t
        ++ if r.2 then tsoFragsCalls q swhead avail (f + 1) sizes r.1 else []

/-- The calls of `tsoPieces`, and the mapping of the headers in front of it. -/
def tsoPiecesCalls (q : TsoRequest) (v : Vring) (pa : ℕ) : List TsoCall :=
  let r := tsoLinear q v.swhead (tsoHeader q v pa)
  [.map ⟨none, 0, q.hdrlen, pa⟩] ++ tsoLinearCalls q
    ++ if r.2 then tsoFragsCalls q v.swhead (wilVringAvailTx v) 0 q.skb.frags r.1 else []

/-- The calls of `wilTxVringTso`. -/
def wilTxVringTsoCalls (s : TxState) (q : TsoRequest) : List TsoCall :=
  let v := s.vring
  if wilVringAvailTx v < q.nrFrags * 3 + 1 then []
  else if (wilTxDescOffloadSetup (v.desc v.swhead) q.skb 0).2 = 0 then []
  else
    match q.dma.single 0 q.hdrlen with
    | none => []
    | some pa =>
        let r := tsoPieces q v pa
        tsoPiecesCalls q v pa
          ++ if r.2 then r.1.endChunkCalls ++ [.setCount v.swhead r.1.descsUsed] else []

@[simp] lemma mappedPieces_append (cs ds : List TsoCall) :
    mappedPieces (cs ++ ds) = mappedPieces cs ++ mappedPieces ds :=
  List.filterMap_append

@[simp] lemma storedCounts_append (cs ds : List TsoCall) :
    storedCounts (cs ++ ds) = storedCounts cs ++ storedCounts ds :=
  List.filterMap_append

@[simp] lemma mappedPieces_map (p : TsoPiece) : mappedPieces [.map p] = [p] := rfl

@[simp] lemma mappedPieces_setCount (slot cnt : ℕ) :
    mappedPieces [.setCount slot cnt] = [] := rfl

@[simp] lemma storedCounts_map (p : TsoPiece) : storedCounts [.map p] = [] := rfl

@[simp] lemma storedCounts_setCount (slot cnt : ℕ) :
    storedCounts [.setCount slot cnt] = [(slot, cnt)] := rfl

@[simp] lemma mappedPieces_endChunkCalls (t : TsoState) : mappedPieces t.endChunkCalls = [] := by
  rw [TsoState.endChunkCalls]
  cases t.sgDesc <;> rfl

@[simp] lemma mappedPieces_nextChunkCalls (t : TsoState) : mappedPieces t.nextChunkCalls = [] := by
  rw [TsoState.nextChunkCalls]
  split_ifs
  · exact mappedPieces_endChunkCalls t
  · rfl

/-! ## Where the whole packet is posted -/

/-- A fragment of which nothing is left, or a piece and the rest of it. -/
lemma tsoFrag_cases {n : ℕ} {len : ℤ} (h : tsoFrag q swhead f size n len t = (u, true)) :
    (len ≤ 0 ∧ u = t ∧ tsoFragCalls q swhead f size n len t = []) ∨
      ∃ m pa, n = m + 1 ∧ 0 < len ∧ q.dma.frag f (size - len) (t.lenmss q len) = some pa ∧
        tsoFrag q swhead f size m (len - t.lenmss q len) (t.postPiece q swhead len pa) = (u, true) ∧
        tsoFragCalls q swhead f size n len t = t.nextChunkCalls
          ++ [.map ⟨some f, size - len, t.lenmss q len, pa⟩]
          ++ tsoFragCalls q swhead f size m (len - t.lenmss q len)
              (t.postPiece q swhead len pa) := by
  cases n with
  | zero =>
      rw [tsoFrag] at h
      by_cases hlen : len ≤ 0
      · rw [if_pos hlen] at h
        exact .inl ⟨hlen, (Prod.mk.inj h).1.symm, by rw [tsoFragCalls, if_pos hlen]⟩
      · rw [if_neg hlen] at h
        exact absurd (Prod.mk.inj h).2 (by simp)
  | succ n =>
      rw [tsoFrag] at h
      by_cases hlen : len ≤ 0
      · rw [if_pos hlen] at h
        exact .inl ⟨hlen, (Prod.mk.inj h).1.symm, by rw [tsoFragCalls, if_pos hlen]⟩
      · rw [if_neg hlen] at h
        have hmap : ∃ pa, q.dma.frag f (size - len) (t.lenmss q len) = some pa := by
          refine Option.ne_none_iff_exists'.mp fun hnone => ?_
          rw [TsoState.lenmss] at hnone
          simp only [hnone] at h
          exact absurd (Prod.mk.inj h).2 (by simp)
        obtain ⟨pa, hpa⟩ := hmap
        refine .inr ⟨n, pa, rfl, not_le.mp hlen, hpa, ?_, ?_⟩
        · rw [TsoState.lenmss] at hpa
          simp only [hpa] at h
          exact h
        · rw [tsoFragCalls, if_neg hlen, hpa]

lemma descsUsed_postPiece (q : TsoRequest) (swhead : ℕ) (t : TsoState) (len : ℤ) (pa : ℕ) :
    (t.postPiece q swhead len pa).descsUsed = t.descsUsed + 1 :=
  congrArg (· + 1) (t.nextChunk_keeps q).1

/-- **The run over a fragment.**  `I len cs t` speaks of the state `t` in which `len` bytes are left,
and of the calls so far. -/
theorem tsoFrag_run {I : ℤ → List TsoCall → TsoState → Prop}
    (hpiece : ∀ len cs t pa, 0 < len → t.descsUsed < avail →
      q.dma.frag f (size - len) (t.lenmss q len) = some pa → I len cs t →
      I (len - t.lenmss q len)
        (cs ++ (t.nextChunkCalls ++ [.map ⟨some f, size - len, t.lenmss q len, pa⟩]))
        (t.postPiece q swhead len pa)) {n : ℕ} :
    ∀ {len cs t}, n ≤ avail - t.descsUsed → I len cs t →
      tsoFrag q swhead f size n len t = (u, true) →
      ∃ len' ≤ 0, I len' (cs ++ tsoFragCalls q swhead f size n len t) u := by
  induction n with
  | zero =>
      intro len cs t _ ht h
      obtain ⟨hlen, rfl, hcalls⟩ | ⟨m, pa, hm, -⟩ := tsoFrag_cases h
      · exact ⟨len, hlen, by rwa [hcalls, List.append_nil]⟩
      · exact absurd hm (Nat.succ_ne_zero m).symm
  | succ n ih =>
      intro len cs t hn ht h
      obtain ⟨hlen, rfl, hcalls⟩ | ⟨m, pa, hm, hlen, hmap, hrest, hcalls⟩ := tsoFrag_cases h
      · exact ⟨len, hlen, by rwa [hcalls, List.append_nil]⟩
      · obtain rfl : n = m := Nat.succ.inj hm
        have hused := descsUsed_postPiece q swhead t len pa
        obtain ⟨len', hlen', hend⟩ := ih (by omega)
          (hpiece len cs t pa hlen (by omega) hmap ht) hrest
        refine ⟨len', hlen', ?_⟩
        rwa [hcalls, ← List.append_assoc]

/-- **The run over the fragments.**  `J f cs t` speaks of the state `t` in front of fragment `f`. -/
theorem tsoFrags_run {J : ℕ → List TsoCall → TsoState → Prop}
    (hfrag : ∀ (f size : ℕ) cs t u, q.skb.frags[f]? = some size → J f cs t →
      tsoFrag q swhead f size (avail - t.descsUsed) size t = (u, true) →
      J (f + 1) (cs ++ tsoFragCalls q swhead f size (avail - t.descsUsed) size t) u)
    {sizes : List ℕ} :
    ∀ {f cs t}, q.skb.frags.drop f = sizes → J f cs t →
      tsoFrags q swhead avail f sizes t = (u, true) →
      J (f + sizes.length) (cs ++ tsoFragsCalls q swhead avail f sizes t) u := by
  induction sizes with
  | nil =>
      intro f cs t _ ht h
      obtain ⟨rfl, -⟩ := Prod.mk.inj h
      rwa [tsoFragsCalls, List.append_nil]
  | cons size sizes ih =>
      intro f cs t hdrop ht h
      have hsize : q.skb.frags[f]? = some size := by
        rw [← List.head?_drop, hdrop, List.head?_cons]
      have hrest : q.skb.frags.drop (f + 1) = sizes := by
        rw [← List.tail_drop, hdrop, List.tail_cons]
      rw [tsoFrags] at h
      cases hfirst : tsoFrag q swhead f size (avail - t.descsUsed) size t with
      | mk w ok =>
          rw [hfirst] at h
          cases ok with
          | false => exact absurd (Prod.mk.inj h).2 (by simp)
          | true =>
              have hend := ih hrest (hfrag f size cs t w hsize ht hfirst) h
              rw [List.length_cons, tsoFragsCalls, hfirst, if_pos rfl, ← List.append_assoc,
                show f + (sizes.length + 1) = f + 1 + sizes.length by omega]
              exact hend

/-- The two runs behind the headers and the data behind them. -/
theorem tsoPieces_run {J : ℕ → List TsoCall → TsoState → Prop} {pa : ℕ}
    (hpieces : tsoPieces q v pa = (t, true))
    (hheader : q.linear = 0 → J 0 [.map ⟨none, 0, q.hdrlen, pa⟩] (tsoHeader q v pa))
    (hlinear : ∀ pa', q.linear ≠ 0 → q.dma.single q.hdrlen q.linear = some pa' →
      J 0 [.map ⟨none, 0, q.hdrlen, pa⟩, .map ⟨none, q.hdrlen, q.linear, pa'⟩]
        ((tsoHeader q v pa).postLinear q v.swhead pa'))
    (hfrag : ∀ (f size : ℕ) cs t u, q.skb.frags[f]? = some size → J f cs t →
      tsoFrag q v.swhead f size (wilVringAvailTx v - t.descsUsed) size t = (u, true) →
      J (f + 1)
        (cs ++ tsoFragCalls q v.swhead f size (wilVringAvailTx v - t.descsUsed) size t) u) :
    J q.nrFrags (tsoPiecesCalls q v pa) t := by
  have hstart : ∃ w, tsoLinear q v.swhead (tsoHeader q v pa) = (w, true) ∧
      J 0 ([.map ⟨none, 0, q.hdrlen, pa⟩] ++ tsoLinearCalls q) w := by
    rw [tsoLinear, tsoLinearCalls]
    change ∃ w, (if q.linear = 0 then _ else _) = _ ∧ _
    by_cases hdata : q.linear = 0
    · rw [if_pos hdata, if_pos hdata]
      exact ⟨_, rfl, hheader hdata⟩
    · rw [if_neg hdata, if_neg hdata]
      obtain ⟨pa', hmap⟩ := single_of_posted hpieces hdata
      rw [hmap]
      refine ⟨_, ?_, hlinear pa' hdata hmap⟩
      rw [TsoRequest.linear] at hmap
      rw [hmap]
      rfl
  obtain ⟨w, hw, hJ⟩ := hstart
  rw [tsoPieces, hw] at hpieces
  have hend := tsoFrags_run hfrag (List.drop_zero) hJ hpieces
  rw [tsoPiecesCalls, hw, if_pos rfl]
  rwa [Nat.zero_add] at hend

/-- The calls of a packet that is posted. -/
lemma wilTxVringTsoCalls_posted {pa : ℕ} (h : q.Accepts s.vring pa)
    (hpieces : tsoPieces q s.vring pa = (t, true)) :
    wilTxVringTsoCalls s q = tsoPiecesCalls q s.vring pa
      ++ (t.endChunkCalls ++ [.setCount s.vring.swhead t.descsUsed]) := by
  rw [wilTxVringTsoCalls]
  simp only [if_neg h.room, if_neg h.tcp, h.header, hpieces, if_true]

/-! ## The loop as it is written -/

/-- One pass of `while (len > 0)`: the full chunk is closed, or a piece is posted, or the loop
ends. -/
def tsoFragPass (q : TsoRequest) (swhead avail f : ℕ) (size len : ℤ) (t : TsoState) :
    (ℤ × TsoState) ⊕ (TsoState × Bool) :=
  if len ≤ 0 then .inr (t, true)
  else if t.remData = 0 then .inl (len, t.nextChunk q)
  else if t.descsUsed = avail then .inr (t, false)
  else
    let lenmss := if len > t.remData then t.remData else len
    match q.dma.frag f (size - len) lenmss with
    | none => .inr (t, false)
    | some pa => .inl (len - lenmss, t.postFrag q swhead pa lenmss (t.remData - lenmss))

/-- The loop, with at most `n` passes; `none` where it takes more. -/
def tsoFragWhile (q : TsoRequest) (swhead avail f : ℕ) (size : ℤ) :
    ℕ → ℤ → TsoState → Option (TsoState × Bool)
  | 0, _, _ => none
  | n + 1, len, t =>
      match tsoFragPass q swhead avail f size len t with
      | .inr r => some r
      | .inl (len, t) => tsoFragWhile q swhead avail f size n len t

/-- In a chunk that is not full, a pass is a step of `tsoFrag`. -/
lemma tsoFragWhile_open {k : ℕ} {len : ℤ} (hlen : 0 < len) (hrem : t.remData ≠ 0)
    (hk : avail - t.descsUsed = k) (hused : t.descsUsed ≤ avail)
    (hrest : ∀ len u, u.descsUsed = t.descsUsed + 1 → u.descsUsed ≤ avail →
      ∃ n, tsoFragWhile q swhead avail f size n len u
        = some (tsoFrag q swhead f size (avail - u.descsUsed) len u)) :
    ∃ n, tsoFragWhile q swhead avail f size n len t
      = some (tsoFrag q swhead f size k len t) := by
  have hnext : t.nextChunk q = t := if_neg hrem
  cases k with
  | zero =>
      refine ⟨1, ?_⟩
      simp only [tsoFragWhile, tsoFragPass, tsoFrag, if_neg (not_le.mpr hlen), if_neg hrem,
        if_pos (show t.descsUsed = avail by omega), hnext]
  | succ k =>
      simp only [tsoFrag, if_neg (not_le.mpr hlen), hnext]
      generalize hlenmss : (if len > t.remData then t.remData else len) = lenmss
      have hpass : tsoFragPass q swhead avail f size len t
          = match q.dma.frag f (size - len) lenmss with
            | none => .inr (t, false)
            | some pa =>
                .inl (len - lenmss, t.postFrag q swhead pa lenmss (t.remData - lenmss)) := by
        rw [tsoFragPass, if_neg (not_le.mpr hlen), if_neg hrem,
          if_neg (show ¬ t.descsUsed = avail by omega), hlenmss]
      cases hmap : q.dma.frag f (size - len) lenmss with
      | none =>
          rw [hmap] at hpass
          exact ⟨1, by simp only [tsoFragWhile, hpass]⟩
      | some pa =>
          rw [hmap] at hpass
          set w := t.postFrag q swhead pa lenmss (t.remData - lenmss) with hw
          have hwused : w.descsUsed = t.descsUsed + 1 := rfl
          obtain ⟨n, hn⟩ := hrest (len - lenmss) w hwused (by omega)
          rw [show avail - w.descsUsed = k by omega] at hn
          refine ⟨n + 1, ?_⟩
          simp only [tsoFragWhile, hpass]
          exact hn

/-- A chunk is closed once. -/
lemma nextChunk_nextChunk (hgso : 0 < q.gsoSize) (t : TsoState) :
    (t.nextChunk q).remData ≠ 0 ∧ (t.nextChunk q).nextChunk q = t.nextChunk q := by
  have hrem : (t.nextChunk q).remData ≠ 0 := by
    rw [TsoState.nextChunk]
    split_ifs with hfull
    · exact Nat.cast_ne_zero.mpr hgso.ne'
    · exact hfull
  exact ⟨hrem, if_neg hrem⟩

lemma tsoFrag_nextChunk (hgso : 0 < q.gsoSize) {n : ℕ} {len : ℤ} (hlen : 0 < len) (t : TsoState) :
    tsoFrag q swhead f size n len (t.nextChunk q) = tsoFrag q swhead f size n len t := by
  have hnext := (nextChunk_nextChunk hgso t).2
  cases n with
  | zero => rw [tsoFrag, tsoFrag, if_neg (not_le.mpr hlen), if_neg (not_le.mpr hlen), hnext]
  | succ n => rw [tsoFrag, tsoFrag, if_neg (not_le.mpr hlen), if_neg (not_le.mpr hlen), hnext]

/-- **The loop over a fragment ends**, as `tsoFrag` does. -/
theorem tsoFragWhile_eq (hgso : 0 < q.gsoSize) (len : ℤ) (t : TsoState)
    (hused : t.descsUsed ≤ avail) : ∃ n, tsoFragWhile q swhead avail f size n len t
      = some (tsoFrag q swhead f size (avail - t.descsUsed) len t) := by
  induction hk : avail - t.descsUsed using Nat.strong_induction_on generalizing len t with
  | _ k ih =>
      by_cases hlen : len ≤ 0
      · refine ⟨1, ?_⟩
        cases k <;> simp only [tsoFragWhile, tsoFragPass, tsoFrag, if_pos hlen]
      · have hpos := not_le.mp hlen
        have hrest : ∀ len u, u.descsUsed = t.descsUsed + 1 → u.descsUsed ≤ avail →
            ∃ n, tsoFragWhile q swhead avail f size n len u
              = some (tsoFrag q swhead f size (avail - u.descsUsed) len u) :=
          fun len u hu hle => ih _ (by omega) len u hle rfl
        by_cases hrem : t.remData = 0
        · -- the full chunk is closed first
          obtain ⟨hnext, -⟩ := nextChunk_nextChunk hgso t
          rw [← (t.nextChunk_keeps q).1] at hk hused hrest
          obtain ⟨n, hn⟩ := tsoFragWhile_open hpos hnext hk hused hrest
          refine ⟨n + 1, ?_⟩
          have hpass : tsoFragPass q swhead avail f size len t = .inl (len, t.nextChunk q) := by
            rw [tsoFragPass, if_neg hlen, if_pos hrem]
          rw [tsoFrag_nextChunk hgso hpos] at hn
          simp only [tsoFragWhile, hpass]
          exact hn
        · exact tsoFragWhile_open hpos hrem hk hused hrest

end Wil6210
