import Wil6210.Tx.Logged

/-!
# What the statistics count

`wil_tx_complete` accounts inside of its loop over the descriptors: one packet, and the length of
the whole packet, for every descriptor that it releases.  A packet with fragments is on several
descriptors, so it is counted several times.

The statistics are compared with the packets wherever the descriptors of the first packets are
released and no others.  A cleanup never releases the last descriptor that is posted
(`released_lt_posted`), so all of the packets are never among these.  `countsPackets_iff` says that
the statistics are right exactly where none of the packets has a fragment.
-/

namespace Wil6210

open Circular (slots mem_slots)

/-! ## Packets and their descriptors -/

/-- The descriptors of these packets. -/
def descriptors (skbs : List TxSkb) : ℕ := (skbs.map fun skb => skb.frags.length + 1).sum

/-- The packet of each descriptor, in order. -/
def owners (skbs : List TxSkb) : List TxSkb :=
  skbs.flatMap fun skb => List.replicate (skb.frags.length + 1) skb

/-- The statistics with these packets counted. -/
def TxStats.plus (t : TxStats) (skbs : List TxSkb) : TxStats :=
  { t with
    txPackets := t.txPackets + skbs.length
    txBytes := t.txBytes + (skbs.map TxSkb.len).sum }

lemma owners_append (skbs skbs' : List TxSkb) : owners (skbs ++ skbs') = owners skbs ++ owners skbs' :=
  List.flatMap_append

lemma length_owners (skbs : List TxSkb) : (owners skbs).length = descriptors skbs := by
  simp [owners, descriptors, List.length_flatMap]

/-- The descriptors of the first packets are the first descriptors. -/
lemma take_owners (skbs : List TxSkb) (m : ℕ) :
    (owners skbs).take (descriptors (skbs.take m)) = owners (skbs.take m) := by
  have hsplit : owners skbs = owners (skbs.take m) ++ owners (skbs.drop m) := by
    rw [← owners_append, List.take_append_drop]
  rw [hsplit, ← length_owners, List.take_left']
  rfl

/-- There are more descriptors than packets as soon as one of them has a fragment. -/
lemma descriptors_eq_length_iff (skbs : List TxSkb) :
    descriptors skbs = skbs.length ↔ ∀ skb ∈ skbs, skb.frags = [] := by
  have hle : ∀ skbs : List TxSkb, skbs.length ≤ descriptors skbs := by
    intro skbs
    induction skbs with
    | nil => exact le_rfl
    | cons skb skbs ih =>
        simp only [descriptors, List.map_cons, List.sum_cons, List.length_cons] at ih ⊢
        omega
  induction skbs with
  | nil => simp [descriptors]
  | cons skb skbs ih =>
      have hrest := hle skbs
      rw [List.forall_mem_cons, ← List.length_eq_zero_iff]
      refine Iff.trans ?_ (and_congr_right fun _ => ih)
      simp only [descriptors, List.map_cons, List.sum_cons, List.length_cons] at hrest ⊢
      omega

/-- Without fragments, each packet is on a descriptor of its own. -/
lemma owners_eq_self {skbs : List TxSkb} (h : ∀ skb ∈ skbs, skb.frags = []) : owners skbs = skbs := by
  induction skbs with
  | nil => rfl
  | cons skb skbs ih =>
      obtain ⟨hskb, hrest⟩ := List.forall_mem_cons.mp h
      rw [owners, List.flatMap_cons, ← owners, ih hrest, hskb]
      rfl

lemma plus_append (t : TxStats) (skbs skbs' : List TxSkb) :
    t.plus (skbs ++ skbs') = (t.plus skbs).plus skbs' := by
  simp [TxStats.plus, Nat.add_assoc]

/-! ## Descriptors without errors -/

variable {q : TxRequest} {v w : Vring} {s t : LoggedTx} {tx : TxState}

lemma error_txSegment (q : TxRequest) (i pa len : ℕ) (v : Vring) :
    ((txSegment q i pa len v).desc i).error = 0 ∧
      ∀ j, j ≠ i → ((txSegment q i pa len v).desc j).error = (v.desc j).error := by
  refine ⟨?_, fun j hj => ?_⟩
  · simp only [txSegment, Vring.setCtx, Vring.setDesc, Function.update_self, txSegmentDesc,
      wilTxDescOffloadSetup]
    split_ifs <;> rfl
  · simp [txSegment, Vring.setCtx, Vring.setDesc, hj]

/-- The pieces of a packet are posted without an error. -/
lemma error_txFrags (q : TxRequest) (swhead : ℕ) (frags : List ℕ) : ∀ (i f : ℕ) (v : Vring),
    (∀ j, (v.desc j).error = 0 → ((txFrags q swhead i f frags v).1.1.desc j).error = 0) ∧
      ∀ j, .write j ∈ (txFrags q swhead i f frags v).2 →
        ((txFrags q swhead i f frags v).1.1.desc j).error = 0 := by
  induction frags with
  | nil => exact fun i f v => ⟨fun _ h => h, fun _ h => absurd h (by simp [txFrags])⟩
  | cons len frags ih =>
      intro i f v
      cases hmap : q.dmaMap (f + 1) with
      | none =>
          simp only [txFrags, hmap]
          exact ⟨fun _ h => h, fun _ h => absurd h (by simp)⟩
      | some pa =>
          simp only [txFrags, hmap]
          set k := (swhead + f + 1) % v.size
          obtain ⟨hkeep, hnew⟩ := ih k (f + 1) (txSegment q k pa len v)
          have hk := error_txSegment q k pa len v
          refine ⟨fun j hj => hkeep j ?_, fun j hj => ?_⟩
          · by_cases hjk : j = k
            · exact hjk ▸ hk.1
            · exact (hk.2 j hjk).trans hj
          · rcases List.mem_cons.mp hj with heq | hj
            · obtain rfl := TxEvent.write.inj heq
              exact hkeep _ hk.1
            · exact hnew j (by simpa using hj)

/-- Every slot of a packet that is posted is without an error. -/
lemma error_wilTxVring {s : TxState} (hhead : s.vring.swhead < s.vring.size)
    (hrc : (wilTxVring s q).2.2 = 0) : ∀ i ∈ slots s.vring.size s.vring.swhead (q.nrFrags + 1),
      ((wilTxVring s q).1.vring.desc i).error = 0 := by
  rw [wilTxVring] at hrc ⊢
  by_cases hroom : wilVringAvailTx s.vring < 1 + q.nrFrags
  · rw [if_pos hroom] at hrc
    exact absurd hrc (show eNomem ≠ 0 by decide)
  · rw [if_neg hroom] at hrc ⊢
    cases hmap : q.dmaMap 0 with
    | none =>
        simp only [hmap] at hrc
        exact absurd hrc (show eInval ≠ 0 by decide)
    | some pa =>
        obtain ⟨m, -, -, -, hev, hend⟩ := txPieces_posted q pa hhead
        obtain ⟨hnone, rfl⟩ | ⟨hsome, -⟩ := hend
        · simp only [hnone]
          have herror : ∀ i ∈ slots s.vring.size s.vring.swhead (q.nrFrags + 1),
              ((txPieces q pa s.vring).1.1.desc i).error = 0 := by
            intro i hi
            obtain ⟨hkeep, hnew⟩ := error_txFrags q s.vring.swhead q.skb.frags s.vring.swhead 0
              (txSegment q s.vring.swhead pa q.skb.headlen s.vring)
            have hmem : .write i ∈ (txPieces q pa s.vring).2 := by
              rw [hev]
              exact List.mem_flatMap.mpr ⟨i, hi, List.mem_cons_self⟩
            rcases List.mem_cons.mp hmem with heq | hmem
            · obtain rfl := TxEvent.write.inj heq
              exact hkeep _ (error_txSegment q s.vring.swhead pa q.skb.headlen s.vring).1
            · exact hnew i (by simpa using hmem)
          intro i hi
          by_cases hlast : i = (txPieces q pa s.vring).1.2.1
          · subst hlast
            simpa [wilVringAdvanceHead, Vring.setDesc, wilTxLastDesc] using herror _ hi
          · simpa [wilVringAdvanceHead, Vring.setDesc, hlast] using herror i hi
        · simp only [hmap, hsome] at hrc
          exact absurd hrc (show eInval ≠ 0 by decide)

/-- Posting counts nothing. -/
lemma stats_wilTxVring (s : TxState) (q : TxRequest) :
    (wilTxVring s q).1.ndevStats = s.ndevStats ∧ (wilTxVring s q).1.staStats = s.staStats := by
  simp only [wilTxVring]
  split_ifs
  · exact ⟨rfl, rfl⟩
  · cases q.dmaMap 0 with
    | none => exact ⟨rfl, rfl⟩
    | some pa =>
        dsimp only
        split <;> exact ⟨rfl, rfl⟩

/-- A step in which the hardware reports no error. -/
def NoTxError (_ : LoggedTx) : LoggedAction → Prop
  | .hwMark _ error => error = 0
  | _ => True

instance (s : LoggedTx) (a : LoggedAction) : Decidable (NoTxError s a) :=
  match a with
  | .hwMark _ error => inferInstanceAs (Decidable (error = 0))
  | .xmit _ | .complete => inferInstanceAs (Decidable True)

/-! ## The invariant -/

/-- What holds between two steps, from statistics `ndevStats` and `staStats` on: one packet is
counted for every descriptor that was released. -/
structure AccountInv (tx : TxState) (s : LoggedTx) : Prop extends LoggedInv s where
  posted_eq : s.posted = descriptors s.skbs
  ctx : ∀ k, s.released ≤ k → k < s.posted →
    s.tx.vring.ctx (k % s.tx.vring.size) = (owners s.skbs)[k]?
  error : ∀ k, s.released ≤ k → k < s.posted →
    (s.tx.vring.desc (k % s.tx.vring.size)).error = 0
  ndev : s.tx.ndevStats = tx.ndevStats.plus ((owners s.skbs).take s.released)
  sta : s.tx.staStats = tx.staStats.plus ((owners s.skbs).take s.released)
  /-- The last descriptor is never released. -/
  short : s.posted = 0 ∨ s.released < s.posted

lemma accountInv_init (tx : TxState) {size : ℕ} (hsize : 0 < size) :
    AccountInv tx (LoggedTx.init tx size) :=
  ⟨loggedInv_init tx hsize, rfl, fun k _ hk => absurd hk (Nat.not_lt_zero k),
    fun k _ hk => absurd hk (Nat.not_lt_zero k), rfl, rfl, .inl rfl⟩

/-- Accounting the descriptors of `n` positions counts a packet for each of them. -/
lemma AccountInv.foldl_accounted (h : AccountInv tx s) (t : TxStats) {n : ℕ}
    (hn : s.released + n ≤ s.posted) :
    (List.range' s.released n).foldl s.tx.vring.accounted
        (t.plus ((owners s.skbs).take s.released))
      = t.plus ((owners s.skbs).take (s.released + n)) := by
  induction n with
  | zero => rfl
  | succ n ih =>
      have hctx := h.ctx (s.released + n) (by omega) (by omega)
      have herror := h.error (s.released + n) (by omega) (by omega)
      obtain ⟨skb, hskb⟩ := h.ring.held (s.released + n) (by omega) (by omega)
      rw [hskb] at hctx
      rw [List.range'_concat, List.foldl_append, ih (by omega), Nat.one_mul, ← Nat.add_assoc,
        List.take_add_one, ← hctx, Option.toList_some, plus_append]
      simp [Vring.accounted, hskb, TxStats.account, herror, TxStats.plus]

/-- A call of `wil_tx_vring` keeps the invariant. -/
lemma AccountInv.xmit (h : AccountInv tx s) (ht : s.step (.xmit q) = some t) : AccountInv tx t := by
  have hinv := h.toLoggedInv.step ht
  have hle := h.ring.released_le
  obtain ⟨n, hn⟩ := txPosting s.tx q h.swhead_lt
  obtain ⟨hndev, hsta⟩ := stats_wilTxVring s.tx q
  have hframe := fun k hk hkp => h.ring.posting_frame hn.ring (k := k) hk hkp
  have hlength := length_owners s.skbs
  rw [← h.posted_eq] at hlength
  obtain rfl := Option.some.inj ht
  by_cases hrc : (wilTxVring s.tx q).2.2 = 0
  · obtain ⟨hnfrags, -⟩ := hn.success hrc
    simp only [if_pos hrc] at hinv ⊢
    have howners : owners (s.skbs ++ [q.skb])
        = owners s.skbs ++ List.replicate (q.nrFrags + 1) q.skb := by
      rw [owners_append]
      simp [owners, TxRequest.nrFrags]
    refine ⟨hinv, ?_, fun k hk (hkp : k < s.posted + (q.nrFrags + 1)) => ?_,
      fun k hk (hkp : k < s.posted + (q.nrFrags + 1)) => ?_, ?_, ?_, .inr ?_⟩
    · show s.posted + (q.nrFrags + 1) = _
      rw [h.posted_eq]
      simp [descriptors, TxRequest.nrFrags]
    · rw [hn.size, howners]
      rcases Nat.lt_or_ge k s.posted with hlt | hge
      · rw [(hframe k hk hlt).2, h.ctx k hk hlt, List.getElem?_append_left (by omega)]
      · rw [(h.ring.posting_fresh hn.ring hrc hge (by omega)).2,
          List.getElem?_append_right (by omega), List.getElem?_replicate, if_pos (by omega)]
    · rw [hn.size]
      rcases Nat.lt_or_ge k s.posted with hlt | hge
      · rw [(hframe k hk hlt).1]
        exact h.error k hk hlt
      · refine error_wilTxVring h.swhead_lt hrc _ ?_
        rw [h.ring.swhead, Circular.slots_mod]
        exact mem_slots.mpr ⟨k, hge, hkp, rfl⟩
    · show _ = tx.ndevStats.plus ((owners (s.skbs ++ [q.skb])).take s.released)
      rw [howners, List.take_append_of_le_length (by omega), hndev]
      exact h.ndev
    · show _ = tx.staStats.plus ((owners (s.skbs ++ [q.skb])).take s.released)
      rw [howners, List.take_append_of_le_length (by omega), hsta]
      exact h.sta
    · show s.released < s.posted + (q.nrFrags + 1)
      omega
  · simp only [if_neg hrc, List.append_nil, Nat.add_zero] at hinv ⊢
    refine ⟨hinv, h.posted_eq, fun k hk hkp => ?_, fun k hk hkp => ?_, hndev.trans h.ndev,
      hsta.trans h.sta, h.short⟩
    · rw [hn.size, (hframe k hk hkp).2]
      exact h.ctx k hk hkp
    · rw [hn.size, (hframe k hk hkp).1]
      exact h.error k hk hkp

/-- A call of `wil_tx_complete` keeps the invariant. -/
lemma AccountInv.complete (h : AccountInv tx s) (ht : s.step .complete = some t) :
    AccountInv tx t := by
  have hinv := h.toLoggedInv.step ht
  obtain ⟨r, n, hlast, hn, hle, -, -⟩ := txCompletion_stop h.va h.ring
  obtain ⟨-, hndev, hsta⟩ := wilTxComplete_slots h.va h.ring
  have hpassed := hn.passed_le
  obtain rfl := Option.some.inj ht
  simp only [hn.done] at hinv hndev hsta ⊢
  refine ⟨hinv, h.posted_eq, fun k (hk : s.released + n ≤ k) hkp => ?_,
    fun k (hk : s.released + n ≤ k) hkp => ?_, ?_, ?_, ?_⟩
  · rw [hn.size, (hn.frame k hk hkp).2]
    exact h.ctx k (by omega) hkp
  · rw [hn.size, (hn.frame k hk hkp).1]
    exact h.error k (by omega) hkp
  · rw [hndev, h.ndev]
    exact h.foldl_accounted _ hpassed
  · rw [hsta, h.sta]
    exact h.foldl_accounted _ hpassed
  · refine h.short.imp_right fun hshort => ?_
    show s.released + n < s.posted
    rcases hlast.marked with heq | ⟨hlt, -⟩ <;> omega

/-- **Every step without an error keeps the invariant.** -/
theorem AccountInv.step (h : AccountInv tx s) {a : LoggedAction} (herror : NoTxError s a)
    (ht : s.step a = some t) : AccountInv tx t := by
  cases a with
  | xmit q => exact h.xmit ht
  | hwMark k error =>
      have hinv := h.toLoggedInv.step ht
      obtain rfl : error = 0 := herror
      simp only [LoggedTx.step] at ht
      split_ifs at ht
      obtain rfl := Option.some.inj ht
      refine ⟨hinv, h.posted_eq, h.ctx, fun j hj hjp => ?_, h.ndev, h.sta, h.short⟩
      have hold := h.error j hj hjp
      by_cases hjk : j % s.tx.vring.size = k % s.tx.vring.size
      · simp [Vring.writeBack, Vring.setDesc, hjk]
      · simpa [Vring.writeBack, Vring.setDesc, hjk] using hold
  | complete => exact h.complete ht

/-! ## The statistics -/

section Runs

variable {size : ℕ} {as : List LoggedAction}

/-- The last descriptor is never released, as long as there is one. -/
theorem released_lt_posted (hsize : 0 < size)
    (hrun : Machine.Exec LoggedTx.step NoTxError (LoggedTx.init tx size) as s) (hskbs : s.skbs ≠ []) :
    s.released < s.posted := by
  have h : AccountInv tx s := hrun.invariant (fun _ _ _ herror ht h => h.step herror ht)
    (accountInv_init tx hsize)
  refine h.short.resolve_left fun hzero => ?_
  rw [h.posted_eq] at hzero
  obtain ⟨skb, skbs, heq⟩ := List.exists_cons_of_ne_nil hskbs
  rw [heq, descriptors, List.map_cons, List.sum_cons] at hzero
  omega

/-- **What must hold** where the descriptors of the first `m` packets are released, and no others: the
statistics have grown by these packets. -/
structure CountsPackets (tx : TxState) (s : LoggedTx) (m : ℕ) : Prop where
  ndev : s.tx.ndevStats = tx.ndevStats.plus (s.skbs.take m)
  sta : s.tx.staStats = tx.staStats.plus (s.skbs.take m)

/-- **When the statistics count packets.**  In every run without errors, wherever the descriptors of
the first `m` packets are released: exactly where none of these packets has a fragment. -/
theorem countsPackets_iff (hsize : 0 < size)
    (hrun : Machine.Exec LoggedTx.step NoTxError (LoggedTx.init tx size) as s) {m : ℕ}
    (hreleased : s.released = descriptors (s.skbs.take m)) :
    CountsPackets tx s m ↔ ∀ skb ∈ s.skbs.take m, skb.frags = [] := by
  have h : AccountInv tx s := hrun.invariant (fun _ _ _ herror ht h => h.step herror ht)
    (accountInv_init tx hsize)
  have hndev := h.ndev
  have hsta := h.sta
  rw [hreleased, take_owners] at hndev hsta
  constructor
  · intro hcounts
    have hpackets := congrArg TxStats.txPackets (hndev.symm.trans hcounts.ndev)
    rw [← descriptors_eq_length_iff, ← length_owners]
    exact Nat.add_left_cancel hpackets
  · intro hfrags
    rw [owners_eq_self hfrags] at hndev hsta
    exact ⟨hndev, hsta⟩

end Runs

/-- Three packets of one piece, all of them marked: two are released, and counted. -/
theorem countsPackets_two : ∃ s : LoggedTx, s.released = 2 ∧ CountsPackets blankTx s 2 := by
  have hrun : (Machine.exec LoggedTx.step NoTxError (LoggedTx.init blankTx 8)
      [.xmit onePiece, .xmit onePiece, .xmit onePiece, .hwMark 0 0, .hwMark 1 0, .hwMark 2 0,
        .complete]).map (fun s => (s.released, s.skbs))
        = some (2, [onePiece.skb, onePiece.skb, onePiece.skb]) := by
    decide +kernel
  obtain ⟨s, hs, hend⟩ := Option.map_eq_some_iff.mp hrun
  obtain ⟨hreleased, hskbs⟩ := Prod.mk.inj hend
  refine ⟨s, hreleased, (countsPackets_iff (by norm_num) (.of_exec hs) ?_).mpr ?_⟩
  · rw [hreleased, hskbs]
    rfl
  · rw [hskbs]
    simp [onePiece]

/-- A packet of 100 bytes, 40 of them in a fragment, and one behind it: of the first, two packets are
counted. -/
theorem not_countsPackets :
    ¬ ∀ (size : ℕ) (tx : TxState) (as : List LoggedAction) (s : LoggedTx) (m : ℕ), 0 < size →
      Machine.Exec LoggedTx.step NoTxError (LoggedTx.init tx size) as s →
      s.released = descriptors (s.skbs.take m) → CountsPackets tx s m := by
  intro h
  have hrun : (Machine.exec LoggedTx.step NoTxError (LoggedTx.init blankTx 8)
      [.xmit ⟨⟨7, 100, 60, [40], false, 0, 0, 0, 0, 0⟩, 0, false, fun _ => some 4096⟩,
        .xmit onePiece, .hwMark 0 0, .hwMark 1 0, .hwMark 2 0, .complete]).map
        (fun s => (s.released, descriptors (s.skbs.take 1), s.tx.ndevStats))
        = some (2, 2, ⟨2, 200, 0⟩) := by
    decide +kernel
  obtain ⟨s, hs, hend⟩ := Option.map_eq_some_iff.mp hrun
  simp only [Prod.mk.injEq] at hend
  obtain ⟨hreleased, hfirst, hstats⟩ := hend
  have hcounts := h 8 blankTx _ s 1 (by norm_num) (.of_exec hs) (hreleased.trans hfirst.symm)
  have hpackets := congrArg TxStats.txPackets (hstats.symm.trans hcounts.ndev)
  have htake : (s.skbs.take 1).length ≤ 1 := by simp
  have hsum : 2 = 0 + (s.skbs.take 1).length := hpackets
  omega

end Wil6210
