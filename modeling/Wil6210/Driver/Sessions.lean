import Wil6210.Driver.BlockAck
import Wil6210.Rx.Conserve

/-!
# What the sessions hold

A session holds frames of its own station and TID, each in a slot of its window, so that
`wil_tid_ampdu_rx_free` hands over every stored frame once.  `SessionsOk` says so of all sessions,
and every step of `BackSys` keeps it.

An ADDBA request may make a session of size zero.  It has no slot, and so it holds nothing, whatever
is received; in the driver `reorder_index` divides by zero at its first frame.
-/

namespace Wil6210

/-! ## One session -/

/-- A session of size zero. -/
structure NoSlots (r : WilTidAmpduRx) : Prop where
  bufSize_eq : r.bufSize = 0
  buf_eq : r.reorderBuf = []

/-- A session of a station and a TID, between two frames. -/
structure SessionOk (cid : Cid) (tid : Fin 16) (r : WilTidAmpduRx) : Prop where
  window : (WindowInv r ∧ r.bufSize < 256) ∨ NoSlots r
  own : ∀ f ∈ r.frames, f.cid = cid ∧ f.tid = tid

variable {r r' : WilTidAmpduRx} {skb : RxSkb} {cid : Cid} {tid : Fin 16}

lemma NoSlots.frames_eq (h : NoSlots r) : r.frames = [] := by
  rw [WilTidAmpduRx.frames, h.buf_eq]
  rfl

/-- The release loops keep the slots. -/
lemma length_advanceN (n : ℕ) (r : WilTidAmpduRx) :
    (advanceN n r).1.reorderBuf.length = r.reorderBuf.length := by
  induction n generalizing r with
  | zero => rfl
  | succ n ih =>
      rw [advanceN_succ, ih, advance, wilReleaseReorderFrame_buf, List.length_set]

lemma length_wilRxReorderStore (r : WilTidAmpduRx) (skb : RxSkb) :
    (wilRxReorderStore r skb).1.reorderBuf.length = r.reorderBuf.length := by
  rw [wilRxReorderStore_eq]
  split_ifs
  · rfl
  · rfl
  · obtain ⟨n, heq, -, -⟩ := wilReorderRelease_eq (storeFrame r skb)
    rw [heq, length_advanceN]
    exact List.length_set

/-- A frame leaves the slots of its session. -/
lemma length_wilRxReorder (h : (wilRxReorder (some r) skb).1 = some r') :
    r'.reorderBuf.length = r.reorderBuf.length := by
  rw [wilRxReorder_some] at h
  split_ifs at h
  · exact Option.some.inj h ▸ rfl
  · exact Option.some.inj h ▸ length_wilRxReorderStore r skb
  · rw [← Option.some.inj h, length_wilRxReorderStore, length_advanceN]

/-- A session of size zero stays one. -/
lemma NoSlots.rx (h : NoSlots r) (hr : (wilRxReorder (some r) skb).1 = some r') : NoSlots r' := by
  have hlength := length_wilRxReorder hr
  have hsize := bufSize_wilRxReorder (some r) skb
  rw [hr, Option.map_some, Option.map_some, h.bufSize_eq] at hsize
  rw [h.buf_eq] at hlength
  exact ⟨Option.some.inj hsize, List.length_eq_zero_iff.mp hlength⟩

/-- Its end hands over nothing. -/
lemma NoSlots.flushed (h : NoSlots r) :
    (handedOver (wilTidAmpduRxFree (some r))).Perm r.frames ∧
      freed (wilTidAmpduRxFree (some r)) = [] := by
  rw [wilTidAmpduRxFree, wilReleaseReorderFrames_eq]
  refine ⟨List.perm_iff_count.mpr fun f => ?_, freed_advanceN _ _⟩
  have hf := copies_advanceN f (releaseCount r (u16 (r.headSeqNum + r.bufSize))) r
  rw [copies, h.frames_eq, List.count_nil] at hf
  rw [h.frames_eq, List.count_nil]
  omega

/-- **The end of a session** hands over what it holds, each frame once, and frees nothing. -/
lemma SessionOk.flushed (h : SessionOk cid tid r) :
    (handedOver (wilTidAmpduRxFree (some r))).Perm r.frames ∧
      freed (wilTidAmpduRxFree (some r)) = [] := by
  rcases h.window with ⟨hinv, hsize⟩ | hnone
  · exact hinv.flushed hsize
  · exact hnone.flushed

/-- A new session. -/
lemma sessionOk_alloc {size ssn : ℕ} {ok : Bool} (hsize : size < 256) (hssn : ssn < 4096)
    (hr : wilTidAmpduRxAlloc ok size ssn = some r) : SessionOk cid tid r := by
  obtain ⟨rfl, hbuf⟩ := bufSize_wilTidAmpduRxAlloc hr
  have hnone : r.frames = [] := frames_eq_nil (slot_alloc hr)
  refine ⟨?_, by simp [hnone]⟩
  rcases Nat.eq_zero_or_pos size with rfl | hpos
  · right
    simp only [wilTidAmpduRxAlloc, if_true, Option.some.injEq] at hr
    subst hr
    exact ⟨rfl, rfl⟩
  · left
    obtain ⟨hinv, hsize', -⟩ := windowInv_alloc hpos (by omega) hssn hr
    exact ⟨hinv, by omega⟩

/-- **A frame for its session.** -/
lemma SessionOk.rx (h : SessionOk skb.cid skb.tid r)
    (hr : (wilRxReorder (some r) skb).1 = some r') : SessionOk skb.cid skb.tid r' := by
  rcases h.window with ⟨hinv, hsize⟩ | hnone
  · obtain ⟨r'', hr'', hcall⟩ := conservingCall hinv hsize skb
    obtain rfl : r'' = r' := Option.some.inj (hr''.symm.trans hr)
    refine ⟨.inl ⟨hcall.inv, hcall.bufSize_eq ▸ hsize⟩, fun f hf => ?_⟩
    -- the session held it before, or it is the frame that came
    have hcount := hcall.copies_eq f
    have hpos := List.count_pos_iff.mpr hf
    simp only [copies] at hcount
    split_ifs at hcount with hskb
    · exact hskb ▸ ⟨rfl, rfl⟩
    · exact h.own f (List.count_pos_iff.mp (by omega))
  · have hstill := hnone.rx hr
    exact ⟨.inr hstill, by simp [hstill.frames_eq]⟩

/-! ## All sessions -/

/-- Every session is as it should be. -/
def SessionsOk (s : Wil) : Prop := ∀ c i r, (s.sta c).tidRx i = some r → SessionOk c i r

/-- The frames of a session, if there is one. -/
def sessionFrames (o : Option WilTidAmpduRx) : List RxSkb := o.elim [] WilTidAmpduRx.frames

/-- Of a trace, what concerns the sessions. -/
def rxEvents (es : List DrvEvent) : List RxEvent :=
  es.filterMap fun
    | .rx e => some e
    | _ => none

@[simp] lemma rxEvents_append (es fs : List DrvEvent) :
    rxEvents (es ++ fs) = rxEvents es ++ rxEvents fs :=
  List.filterMap_append

@[simp] lemma rxEvents_map_rx (es : List RxEvent) : rxEvents (es.map .rx) = es := by
  induction es with
  | nil => rfl
  | cons e es ih => exact congrArg (e :: ·) ih

variable {s u : Wil}

lemma SessionsOk.flushed (h : SessionsOk s) (c : Cid) (i : Fin 16) :
    (handedOver (wilTidAmpduRxFree ((s.sta c).tidRx i))).Perm (sessionFrames ((s.sta c).tidRx i)) ∧
      freed (wilTidAmpduRxFree ((s.sta c).tidRx i)) = [] := by
  cases hr : (s.sta c).tidRx i with
  | none => exact ⟨.refl _, rfl⟩
  | some r => exact (h c i r hr).flushed

/-- No session is made. -/
lemma SessionsOk.kept (h : SessionsOk s)
    (hkept : ∀ c i r, (u.sta c).tidRx i = some r → (s.sta c).tidRx i = some r) : SessionsOk u :=
  fun c i r hr => h c i r (hkept c i r hr)

/-- One session is replaced. -/
lemma SessionsOk.setTidRx (h : SessionsOk s) {o : Option WilTidAmpduRx}
    (ho : ∀ r, o = some r → SessionOk cid tid r) : SessionsOk (s.setTidRx cid tid o) := by
  intro c i r hr
  rw [tidRx_setTidRx] at hr
  split_ifs at hr with hci
  · obtain ⟨rfl, rfl⟩ := hci
    exact ho r hr
  · exact h c i r hr

lemma SessionsOk.rx (h : SessionsOk s) (skb : RxSkb) :
    SessionsOk (wilRxReorderSta s skb).1 := by
  refine h.setTidRx fun r' hr' => ?_
  cases hr : (s.sta skb.cid).tidRx skb.tid with
  | none =>
      rw [hr] at hr'
      exact absurd hr' (by simp [wilRxReorder])
  | some r =>
      rw [hr] at hr'
      exact (h _ _ r hr).rx hr'

lemma SessionsOk.baStatus (h : SessionsOk s) (evt : WmiVringBaStatusEvent)
    (allocOk : Fin 16 → Bool) : SessionsOk (wmiEvtBaStatus s evt allocOk).1 := by
  intro c i r hr
  simp only [wmiEvtBaStatus] at hr
  split at hr
  · exact h c i r hr
  · rename_i ringid cid _
    by_cases hc : c = cid
    · subst hc
      simp only [Function.update_self] at hr
      split_ifs at hr
      exact sessionOk_alloc evt.aggWsize.toNat_lt (by decide) hr
    · simp only [Function.update_of_ne hc] at hr
      exact h c i r hr

/-- The starting sequence number has 12 bits. -/
lemma WilPendingBack.ssn_lt (req : WilPendingBack) : req.baSeqCtrl.toNat >>> 4 < 4096 := by
  have hlt := req.baSeqCtrl.toNat_lt
  rw [Nat.shiftRight_eq_div_pow]
  omega

lemma SessionsOk.backEnd (h : SessionsOk s) (w : BackWait) (reply : AddbaReply) (allocOk : Bool) :
    SessionsOk (wilBackHandleEnd s w reply allocOk).1 := by
  rw [wilBackHandleEnd]
  split_ifs
  · exact h
  · have hsize : w.req.aggWsize < 256 := lt_of_le_of_lt (Nat.min_le_left _ _) (by decide)
    exact h.setTidRx fun r hr => sessionOk_alloc hsize w.req.ssn_lt hr

/-- **Every step keeps the sessions.** -/
theorem SessionsOk.step {s t : BackSys} (h : SessionsOk s.conn.wil) {a : BackAction}
    (ht : s.step a = some t) : SessionsOk t.conn.wil := by
  cases a with
  | conn a =>
      obtain ⟨htraffic, c', hc', rfl⟩ := BackSys.step_conn ht
      exact h.kept fun c i r hr => tidRx_of_conn htraffic hc' hr
  | addbaRequest req allocOk =>
      obtain rfl := Option.some.inj ht
      exact h
  | back =>
      obtain ⟨req, rest, -, -, rfl⟩ := BackSys.step_back ht
      exact h
  | backReply reply allocOk =>
      obtain ⟨w, -, rfl⟩ := BackSys.step_backReply ht
      exact h.backEnd w reply allocOk
  | baStatus evt allocOk =>
      obtain rfl := Option.some.inj ht
      exact h.baStatus evt allocOk
  | rx skb =>
      obtain rfl := Option.some.inj ht
      exact h.rx skb

/-- At first there is no session. -/
lemma sessionsOk_init (iftype : Iftype) (devAddr : Option MacAddr) :
    SessionsOk (wilPrivInit iftype devAddr) := by
  intro c i r hr
  simp [wilPrivInit] at hr

/-- **Every run.** -/
lemma sessionsOk_run {s t : BackSys} {as : List BackAction} (h : SessionsOk s.conn.wil)
    (hrun : Machine.Exec BackSys.step (fun _ _ => True) s as t) : SessionsOk t.conn.wil :=
  hrun.invariant (I := fun s => SessionsOk s.conn.wil) (fun _ _ _ _ ht hs => hs.step ht) h

end Wil6210
