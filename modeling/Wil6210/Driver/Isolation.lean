import Wil6210.Driver.Sessions
import Wil6210.Driver.TxQueues
import Wil6210.Driver.XmitRefs

/-!
# Disconnecting one station

`wil_disconnect_cid` frees the rings whose entry in `vring2cid_tid` is the CID of the station.
Nothing clears an entry, and the entries start as zero, which is a CID, so the table names a station
for every ring, allocated or not.  `disconnect_isolated` says that one disconnect takes down the
sessions and the rings of its own station and of no other.

`StationSys` is the driver with both workers, its rings and the hardware.  It keeps which station the
worker allocated each ring for, and nothing reads that; in every state the entry of an allocated
ring is that station.
-/

namespace Wil6210

/-! ## Rings that come and go -/

/-- A ring between two steps: where it is not allocated, its ends are the same. -/
structure RingClean (v : Vring) : Prop extends RingOk v where
  idle : v.va = false → v.swhead = v.swtail

section Ring

variable {v : Vring}

lemma RingClean.hwtail (h : RingClean v) (n : ℕ) : RingClean { v with hwtail := n } := by
  refine ⟨⟨fun hva => ?_, h.empty⟩, h.idle⟩
  obtain ⟨hswtail, hswhead, hle, hle', hroom, hdone, hheld⟩ := h.sound hva
  exact ⟨hswtail, hswhead, hle, hle', hroom, hdone, hheld⟩

lemma RingClean.alloc (h : RingClean v) (hva : v.va = false) {size : ℕ} (hsize : 0 < size)
    (allocOk : Bool) : RingClean (wilVringAlloc allocOk { v with size := size }).1 :=
  ⟨(h.toRingOk.alloc hva hsize allocOk).ok, fun _ => by cases allocOk <;> rfl⟩

/-- **A ring is freed**, allocated or not: the references it holds are dropped. -/
lemma RingClean.free (h : RingClean v) (cb : ℕ → WilSkbCb) :
    RingClean (wilVringFree cb v).1 ∧ ∀ p, dropped p (wilVringFree cb v).2 = v.held p ∧
      taken p (wilVringFree cb v).2 = 0 := by
  by_cases hva : v.va = true
  · have hsound := h.sound hva
    obtain ⟨hevents, -, hhead, htail⟩ := wilVringFree_spec cb hsound
    refine ⟨⟨(hsound.free cb).ok, fun _ => hhead.trans htail.symm⟩, fun p => ?_⟩
    rw [hevents, Nat.add_sub_cancel_left]
    exact dropped_released v cb p v.swtail v.used
  · have hfree : v.va = false := by simpa using hva
    have hends := h.idle hfree
    have hnothing : wilVringFree cb v = ({ v with va := false, ctx := fun _ => none }, []) := by
      have hloop := Circular.loop_stop v.size v.swhead (wilVringFreeSlot cb) v.size (v, [])
      rw [wilVringFree, ← hends, hloop]
    rw [hnothing]
    refine ⟨⟨⟨fun hnew => absurd hnew Bool.false_ne_true, fun _ => h.empty hfree⟩,
      fun _ => hends⟩, fun p => ?_⟩
    rw [held_of_empty (h.empty hfree)]
    exact ⟨rfl, rfl⟩

end Ring

/-- The rings and the sessions of the driver are as they should be. -/
structure WilOk (s : Wil) : Prop where
  sessions : SessionsOk s
  rings : ∀ i, RingClean (s.vringTx i)

variable {s u : Wil}

lemma RingClean.fini (h : ∀ i, RingClean (s.vringTx i)) (i : RingId) :
    RingClean (wilVringFiniTx s i).1 ∧ ∀ p, dropped p (wilVringFiniTx s i).2
      = (s.vringTx i).held p ∧ taken p (wilVringFiniTx s i).2 = 0 := by
  rw [wilVringFiniTx]
  split_ifs with hva
  · exact (h i).free s.cb
  · refine ⟨h i, fun p => ?_⟩
    rw [held_of_empty ((h i).empty (by simpa using hva))]
    exact ⟨rfl, rfl⟩

lemma WilOk.ringsOk (h : WilOk s) : RingsOk s := fun i => (h.rings i).toRingOk

/-- Neither rings nor sessions are touched. -/
lemma WilOk.same (h : WilOk s) (hrings : u.vringTx = s.vringTx)
    (hsessions : ∀ c, (u.sta c).tidRx = (s.sta c).tidRx) : WilOk u := by
  refine ⟨h.sessions.kept fun c i r hr => ?_, fun i => ?_⟩
  · rwa [hsessions] at hr
  · rw [hrings]
    exact h.rings i

lemma WilOk.wilDisconnectCid (h : WilOk s) (cid : Cid) : WilOk (wilDisconnectCid s cid).1 := by
  refine ⟨h.sessions.kept fun c i r hr => ?_, fun i => ?_⟩
  · rw [tidRx_wilDisconnectCid] at hr
    split_ifs at hr
    exact hr
  · show RingClean (if s.owner i = cid.val then (wilVringFiniTx s i).1 else s.vringTx i)
    split_ifs
    · exact (RingClean.fini h.rings i).1
    · exact h.rings i

lemma WilOk.disconnect (h : WilOk s) (bssid : Option MacAddr) :
    WilOk (wil6210Disconnect s bssid).1 := by
  have hstations : WilOk (disconnectStations s bssid).1 := by
    simp only [disconnectStations]
    cases bssid.bind (wilFindCid s) with
    | some cid => exact h.wilDisconnectCid cid
    | none =>
        dsimp only
        split_ifs
        · exact Machine.run_invariant (I := WilOk)
            (fun u cid hu => WilOk.wilDisconnectCid hu cid) h _
        · exact h
        · exact h
  exact hstations.same (vringTx_disconnectLink _ _) fun c => by
    rw [wil6210Disconnect, sta_disconnectLink]

lemma owner_wil6210Disconnect (s : Wil) (bssid : Option MacAddr) :
    (wil6210Disconnect s bssid).1.owner = s.owner := by
  have hstations : (disconnectStations s bssid).1.owner = s.owner := by
    simp only [disconnectStations]
    cases bssid.bind (wilFindCid s) with
    | some cid => rfl
    | none =>
        dsimp only
        split_ifs
        · exact owner_run s _
        · rfl
        · rfl
  exact (owner_disconnectLink _ _).trans hstations

/-- The first half of `wil_vring_init_tx`. -/
lemma WilOk.initBegin (h : WilOk s) (id : RingId) (size : ℕ) (hsize : 0 < size) (cid tid : ℕ)
    (allocOk : Bool) : WilOk (wilVringInitTxBegin s id size cid tid allocOk).1 := by
  refine ⟨h.sessions.kept fun c i r hr => ?_, fun i => ?_⟩
  · rwa [sta_wilVringInitTxBegin] at hr
  · simp only [wilVringInitTxBegin]
    split_ifs with hva hrc
    · exact h.rings i
    all_goals
      have hfree : (s.vringTx id).va = false := by simpa using hva
      dsimp only
      rw [Function.update_apply]
      split_ifs
      · exact (h.rings id).alloc hfree hsize allocOk
      · exact h.rings i

/-- The second half. -/
lemma WilOk.initEnd (h : WilOk s) (id : RingId) (reply : VringCfgReply) :
    WilOk (wilVringInitTxEnd s id reply).1 := by
  refine ⟨h.sessions.kept fun c i r hr => ?_, fun i => ?_⟩
  · rwa [sta_wilVringInitTxEnd] at hr
  · simp only [wilVringInitTxEnd]
    split_ifs
    all_goals
      dsimp only
      rw [Function.update_apply]
      split_ifs
    · exact ((h.rings id).free s.cb).1
    · exact h.rings i
    · exact ((h.rings id).free s.cb).1
    · exact h.rings i
    · exact (h.rings id).hwtail _
    · exact h.rings i

/-! ## Sending -/

/-- From `s` to `u` only the contents of allocated rings change. -/
structure TxOnly (s u : Wil) : Prop where
  sta_eq : u.sta = s.sta
  map_eq : u.vring2cidTid = s.vring2cidTid
  idle : ∀ i, (s.vringTx i).va = false → u.vringTx i = s.vringTx i

lemma TxOnly.refl (s : Wil) : TxOnly s s := ⟨rfl, rfl, fun _ _ => rfl⟩

lemma TxOnly.trans {v : Wil} (h : TxOnly s u) (h' : TxOnly u v) : TxOnly s v := by
  refine ⟨h'.sta_eq.trans h.sta_eq, h'.map_eq.trans h.map_eq, fun i hva => ?_⟩
  have hsame := h.idle i hva
  rw [h'.idle i (by rwa [hsame]), hsame]

lemma TxOnly.setTx {i : RingId} (hva : (s.vringTx i).va = true) (t : TxState) :
    TxOnly s (s.setTx i t) := by
  refine ⟨rfl, rfl, fun j hj => frame_setTx s i t j ?_⟩
  rintro rfl
  exact absurd (hva.symm.trans hj) (by decide)

lemma txOnly_txBcastCopy (q : XmitRequest) (skb : XmitSkb) (s : Wil) (i : RingId) :
    TxOnly s (txBcastCopy q skb s i).1 := by
  rw [txBcastCopy]
  by_cases hva : (s.vringTx i).va = true
  · rw [if_pos hva]
    cases q.skbCopy i with
    | none => exact .refl s
    | some id => exact .setTx hva _
  · rw [if_neg hva]
    exact .refl s

lemma txOnly_xmitReturn (h : TxOnly s u) (skb : XmitSkb) (es : List XmitEvent) (rc : ℤ) :
    TxOnly s (xmitReturn u skb es rc).wil := by
  rw [xmitReturn]
  split_ifs <;> exact h

lemma txOnly_xmitOn (h : TxOnly s u) {i : RingId} (hva : (u.vringTx i).va = true)
    (q : XmitRequest) (skb : XmitSkb) (es : List XmitEvent) :
    TxOnly s (xmitOn u q i skb es).wil := by
  simp only [xmitOn]
  split_ifs
  · exact txOnly_xmitReturn (h.trans (.setTx hva _)) skb _ _
  · exact txOnly_xmitReturn (h.trans (.setTx hva _)) skb _ _

/-- **One call of `wil_start_xmit`.** -/
lemma txOnly_wilStartXmit (s : Wil) (q : XmitRequest) : TxOnly s (wilStartXmit s q).wil := by
  by_cases hbcast : GoesToBcast s q
  · rw [wilStartXmit_bcast hbcast]
    cases hfirst : wilFindFirstTxVring s with
    | none => exact .refl s
    | some i =>
        have hrun : TxOnly s
            (Machine.run (txBcastCopy q (bcastSkb s q i)) s (ringsBehind i)).1 :=
          Machine.run_invariant (I := TxOnly s)
            (fun u j hu => hu.trans (txOnly_txBcastCopy q _ u j)) (.refl s) _
        have hnodup : (ringsBehind i).Nodup := (List.nodup_finRange 24).filter _
        have hsame := (posting_run q (bcastSkb s q i) hnodup s).frame i (by simp [ringsBehind])
        exact txOnly_xmitOn hrun (by rw [hsame]; exact va_of_wilFindFirstTxVring hfirst) q _ _
  · obtain ⟨hgoes, -⟩ | ⟨-, hcall | hcall | ⟨i, -, hfind, hcall⟩⟩ := wilStartXmit_cases s q
    · exact absurd hgoes hbcast
    · rw [hcall]
      exact .refl s
    · rw [hcall]
      exact txOnly_xmitReturn (.refl s) _ _ _
    · rw [hcall]
      exact txOnly_xmitOn (.refl s) (va_of_wilFindTxVring hfind) q _ _

lemma WilOk.xmit (h : WilOk s) {q : XmitRequest} (hgso : q.skb.gsoSize = 0) :
    WilOk (wilStartXmit s q).wil := by
  have honly := txOnly_wilStartXmit s q
  have hok := (keeps_wilStartXmit h.ringsOk q fun i _ hne => absurd hgso hne).ok
  refine ⟨h.sessions.kept fun c i r hr => honly.sta_eq ▸ hr, fun i => ⟨hok i, fun hva => ?_⟩⟩
  have hfree : (s.vringTx i).va = false := by
    by_contra hnot
    obtain ⟨l, hpost⟩ := posting_wilStartXmit s q
    have hva' : (s.vringTx i).va = true := by simpa using hnot
    have hadv := hpost.ring i ((h.rings i).sound hva').head_lt
    exact absurd (hadv.va.trans hva' |>.symm.trans hva) (by decide)
  rw [honly.idle i hfree]
  exact (h.rings i).idle hfree

/-- The hardware marks a descriptor. -/
lemma WilOk.writeBack (h : WilOk s) {i : RingId} {k : ℕ} (hva : (s.vringTx i).va = true)
    (hk : (s.vringTx i).swtail ≤ k) (hk' : k < (s.vringTx i).swtail + (s.vringTx i).used)
    (error : ℕ) :
    WilOk { s with
      vringTx := Function.update s.vringTx i
        ((s.vringTx i).writeBack (k % (s.vringTx i).size) error) } := by
  refine ⟨h.sessions, fun j => ?_⟩
  dsimp only
  rw [Function.update_apply]
  split_ifs
  · have hring := (((h.rings i).sound hva).writeBack hva hk hk' error).ok
    exact ⟨hring, fun hfree => absurd (hva.symm.trans hfree) (by decide)⟩
  · exact h.rings j

/-- `wil_tx_complete` -/
lemma WilOk.complete (h : WilOk s) (i : RingId) :
    WilOk (s.setTx i (wilTxComplete (s.txState i)).1) ∧
      ∀ j, ((s.setTx i (wilTxComplete (s.txState i)).1).vringTx j).va = (s.vringTx j).va := by
  have hring : RingClean (wilTxComplete (s.txState i)).1.vring ∧
      (wilTxComplete (s.txState i)).1.vring.va = (s.vringTx i).va := by
    by_cases hva : (s.vringTx i).va = true
    · have hsound : (s.txState i).vring.Sound := (h.rings i).sound hva
      obtain ⟨n, hn⟩ := txCompletion (s := s.txState i) hva hsound
      have hva' : (wilTxComplete (s.txState i)).1.vring.va = true := hn.va.trans hva
      refine ⟨⟨(hsound.complete hva).ok, fun hfree => ?_⟩, hn.va⟩
      exact absurd (hva'.symm.trans hfree) (by decide)
    · have hnothing : wilTxComplete (s.txState i) = (s.txState i, [], 0) := by
        simp [wilTxComplete, Wil.txState, hva]
      rw [hnothing]
      exact ⟨h.rings i, rfl⟩
  have hring_eq := vringTx_setTx s i (wilTxComplete (s.txState i)).1
  have hframe := frame_setTx s i (wilTxComplete (s.txState i)).1
  refine ⟨⟨h.sessions, fun j => ?_⟩, fun j => ?_⟩
  · by_cases hji : j = i
    · rw [hji, hring_eq]
      exact hring.1
    · rw [hframe j hji]
      exact h.rings j
  · by_cases hji : j = i
    · rw [hji, hring_eq]
      exact hring.2
    · rw [hframe j hji]

/-! ## The machine -/

/-- The driver with its workers and its rings. -/
structure StationSys where
  back : BackSys
  /-- the station that `connect_worker` last allocated each ring for -/
  cfg : RingId → Option Cid

inductive StationAction
  /-- An event, a step of one of the workers, or a received frame. -/
  | back (a : BackAction)
  /-- `wil6210_disconnect`, called by cfg80211 or by the connect timer. -/
  | disconnect (bssid : Option MacAddr)
  /-- `sme_state` and `tid_to_use` are set from outside. -/
  | config (smeState : SmeState) (tidToUse : ℕ)
  | xmit (q : XmitRequest)
  /-- The hardware marks the descriptor at position `k` of ring `i`. -/
  | hwDone (i : RingId) (k error : ℕ)
  /-- `wil_tx_complete` -/
  | complete (i : RingId)
  /-- Traffic is counted in the statistics of the stations. -/
  | count (stats : Cid → WilNetStats)

/-- The ring that the worker has allocated and configures. -/
def record (cfg : RingId → Option Cid) : Worker → RingId → Option Cid
  | .waiting cid id => Function.update cfg id (some cid)
  | _ => cfg

namespace StationSys

def wil (s : StationSys) : Wil := s.back.conn.wil

/-- The driver, where its workers stay as they are. -/
def setWil (s : StationSys) (w : Wil) : StationSys :=
  { s with back := { s.back with conn := { s.back.conn with wil := w } } }

/-- One step. -/
def step (s : StationSys) : StationAction → Option StationSys
  | .back a => (s.back.step a).map fun b => ⟨b, record s.cfg b.conn.worker⟩
  | .disconnect bssid => some (s.setWil (wil6210Disconnect s.wil bssid).1)
  | .config smeState tidToUse =>
      some (s.setWil { s.wil with smeState := smeState, tidToUse := tidToUse })
  | .xmit q => some (s.setWil (wilStartXmit s.wil q).wil)
  | .hwDone i k error =>
      let v := s.wil.vringTx i
      if v.va ∧ v.swtail ≤ k ∧ k < v.swtail + v.used then
        some (s.setWil { s.wil with
          vringTx := Function.update s.wil.vringTx i (v.writeBack (k % v.size) error) })
      else none
  | .complete i => some (s.setWil (s.wil.setTx i (wilTxComplete (s.wil.txState i)).1))
  | .count stats =>
      some (s.setWil { s.wil with sta := fun c => { s.wil.sta c with stats := stats c } })

/-- Nothing connected yet. -/
def init (iftype : Iftype) (devAddr : Option MacAddr) : StationSys :=
  ⟨BackSys.init iftype devAddr, fun _ => none⟩

/-- `connect_worker` finds a free ring, and no packet is for TSO. -/
def Fits (s : StationSys) : StationAction → Prop
  | .back (.conn .start) => s.wil.pendingConnectCid ≠ none → wilFindFreeVring s.wil ≠ none
  | .xmit q => q.skb.gsoSize = 0
  | _ => True

instance (s : StationSys) (a : StationAction) : Decidable (s.Fits a) := by
  unfold Fits
  split <;> infer_instance

end StationSys

/-! ## The invariant -/

/-- A step of the connection that allocates no ring: rings may go. -/
structure RingsKept (c d : ConnSys) : Prop where
  owner_eq : d.wil.owner = c.wil.owner
  alloc : ∀ i, (d.wil.vringTx i).va = true → (c.wil.vringTx i).va = true
  waiting : ∀ x i, d.worker = .waiting x i → c.worker = .waiting x i

/-- A step of the worker that allocates ring `id` for station `cid`. -/
structure RingAllocated (c d : ConnSys) (cid : Cid) (id : RingId) : Prop where
  worker_eq : d.worker = .waiting cid id
  owner_eq : ∀ i, d.wil.owner i = if i = id then cid.val else c.wil.owner i
  alloc : ∀ i, i ≠ id → (d.wil.vringTx i).va = true → (c.wil.vringTx i).va = true

/-- What a step of the connection does to the rings. -/
lemma ConnSys.step_rings {c d : ConnSys} {a : ConnAction} (ha : ∀ w, a ≠ .traffic w)
    (hd : c.step a = some d) (h : WilOk c.wil) :
    WilOk d.wil ∧ (RingsKept c d ∨ ∃ cid id, RingAllocated c d cid id) := by
  cases a with
  | connect evt len =>
      obtain ⟨-, rfl⟩ | ⟨cid, haccept, rfl⟩ := ConnSys.step_connect hd
      · exact ⟨h, .inl ⟨rfl, fun _ hva => hva, fun _ _ hw => hw⟩⟩
      · obtain ⟨-, -, -, hring, hmap⟩ := wmiEvtConnect_accepted evt len cid haccept
        refine ⟨h.same hring fun x => ?_, .inl ⟨hmap, fun i hva => ?_, fun _ _ hw => hw⟩⟩
        · funext i
          exact tidRx_wmiEvtConnect x i evt len
        · rwa [← hring]
  | disconnect bssid =>
      obtain rfl := Option.some.inj hd
      obtain ⟨-, -, -, hring, hmap⟩ := wmiEvtDisconnect_spec c.wil bssid
      have hgen : WilOk { c.wil with sinfoGen := c.wil.sinfoGen + 1 } := h.same rfl fun _ => rfl
      refine ⟨hgen.disconnect (some bssid), .inl ⟨hmap, fun i hva => ?_, fun _ _ hw => hw⟩⟩
      simp only [hring] at hva
      split_ifs at hva
      exact hva
  | start =>
      obtain ⟨-, -, rfl⟩ := ConnSys.step_start hd
      exact ⟨h, .inl ⟨rfl, fun _ hva => hva, by simp⟩⟩
  | alloc ok =>
      obtain ⟨cid, tid, id, hw, hd⟩ := ConnSys.step_alloc hd
      have hok := h.initBegin id wil6210TxRingSize (by decide) cid tid ok
      rcases wilVringInitTxBegin_cases c.wil id wil6210TxRingSize cid tid ok with
        ⟨hrc, -, hring, hmap⟩ | ⟨hrc, hring, hmap⟩
      · rw [if_pos hrc] at hd
        subst hd
        refine ⟨hok, .inr ⟨cid, id, rfl, hmap, fun i hi hva => ?_⟩⟩
        simpa [hring, hi] using hva
      · rw [if_neg hrc] at hd
        subst hd
        refine ⟨hok, .inl ⟨hmap, fun i hva => ?_, by simp⟩⟩
        simpa [hring] using hva
  | reply r =>
      obtain ⟨cid, id, hw, rfl⟩ := ConnSys.step_reply hd
      refine ⟨h.initEnd id r, .inl ⟨owner_wilVringInitTxEnd id r c.wil, fun i hva => ?_,
        by simp⟩⟩
      rcases wilVringInitTxEnd_cases c.wil id r with ⟨-, hring⟩ | ⟨-, hring⟩
      · simpa [hring] using hva
      · simp only [hring] at hva
        split_ifs at hva
        exact hva
  | clear =>
      obtain ⟨cid, rc, hw, rfl⟩ := ConnSys.step_clear hd
      exact ⟨h.same rfl fun _ => rfl, .inl ⟨rfl, fun _ hva => hva, by simp⟩⟩
  | finish =>
      obtain ⟨cid, rc, hw, rfl⟩ := ConnSys.step_finish hd
      refine ⟨h.same rfl fun x => ?_, .inl ⟨rfl, fun _ hva => hva, by simp⟩⟩
      funext i
      exact tidRx_connectFinish cid x i rc
  | traffic w => exact absurd rfl (ha w)

/-- **The table names the owners**: the entry of an allocated ring is the station that the worker
allocated it for. -/
structure StationInv (s : StationSys) : Prop where
  ok : WilOk s.wil
  owned : ∀ i, (s.wil.vringTx i).va = true → ∃ c, s.cfg i = some c ∧ s.wil.owner i = c.val
  waiting : ∀ c i, s.back.conn.worker = .waiting c i → s.cfg i = some c ∧ s.wil.owner i = c.val

section Invariant

variable {s t : StationSys}

/-- No ring comes, and the workers stay. -/
lemma StationInv.setWil (h : StationInv s) {w : Wil} (hok : WilOk w) (howner : w.owner = s.wil.owner)
    (halloc : ∀ i, (w.vringTx i).va = true → (s.wil.vringTx i).va = true) :
    StationInv (s.setWil w) := by
  refine ⟨hok, fun i hva => ?_, fun c i hw => ?_⟩
  · obtain ⟨c, hcfg, hc⟩ := h.owned i (halloc i hva)
    exact ⟨c, hcfg, (congrFun howner i).trans hc⟩
  · obtain ⟨hcfg, hc⟩ := h.waiting c i hw
    exact ⟨hcfg, (congrFun howner i).trans hc⟩

/-- While the worker waits, what it has recorded stays. -/
lemma record_eq {cfg : RingId → Option Cid} {worker : Worker}
    (h : ∀ c i, worker = .waiting c i → cfg i = some c) : record cfg worker = cfg := by
  cases worker with
  | waiting c i =>
      rw [record, ← h c i rfl]
      exact Function.update_eq_self i cfg
  | _ => rfl

/-- A step that leaves the rings, or takes some away. -/
lemma StationInv.kept (h : StationInv s) {b : BackSys} (hok : WilOk b.conn.wil)
    (hkept : RingsKept s.back.conn b.conn) : StationInv ⟨b, record s.cfg b.conn.worker⟩ := by
  have hrecord : record s.cfg b.conn.worker = s.cfg :=
    record_eq fun c i hw => (h.waiting c i (hkept.waiting c i hw)).1
  rw [hrecord]
  refine ⟨hok, fun i hva => ?_, fun c i hw => ?_⟩
  · obtain ⟨c, hcfg, hc⟩ := h.owned i (hkept.alloc i hva)
    exact ⟨c, hcfg, (congrFun hkept.owner_eq i).trans hc⟩
  · obtain ⟨hcfg, hc⟩ := h.waiting c i (hkept.waiting c i hw)
    exact ⟨hcfg, (congrFun hkept.owner_eq i).trans hc⟩

/-- A step that allocates a ring records for whom. -/
lemma StationInv.allocated (h : StationInv s) {b : BackSys} (hok : WilOk b.conn.wil) {cid : Cid}
    {id : RingId} (halloc : RingAllocated s.back.conn b.conn cid id) :
    StationInv ⟨b, record s.cfg b.conn.worker⟩ := by
  have hrecord : record s.cfg b.conn.worker = Function.update s.cfg id (some cid) := by
    rw [halloc.worker_eq]
    rfl
  rw [hrecord]
  have hself : Function.update s.cfg id (some cid) id = some cid ∧ b.conn.wil.owner id = cid.val :=
    ⟨Function.update_self .., by rw [halloc.owner_eq, if_pos rfl]⟩
  refine ⟨hok, fun i hva => ?_, fun c i hw => ?_⟩
  · by_cases hi : i = id
    · exact ⟨cid, hi ▸ hself⟩
    · obtain ⟨c, hcfg, hc⟩ := h.owned i (halloc.alloc i hi hva)
      refine ⟨c, (Function.update_of_ne hi ..).trans hcfg, ?_⟩
      exact (halloc.owner_eq i).trans ((if_neg hi).trans hc)
  · obtain ⟨rfl, rfl⟩ := Worker.waiting.inj (halloc.worker_eq.symm.trans hw)
    exact hself

/-- A step of `BackSys` that is not one of the connection leaves the rings. -/
lemma BackSys.step_rings {b d : BackSys} {a : BackAction} (ha : ∀ e, a ≠ .conn e)
    (hd : b.step a = some d) (h : WilOk b.conn.wil) :
    WilOk d.conn.wil ∧ RingsKept b.conn d.conn := by
  have hkept : d.conn.wil.vringTx = b.conn.wil.vringTx ∧ d.conn.wil.owner = b.conn.wil.owner ∧
      d.conn.worker = b.conn.worker := by
    cases a with
    | conn e => exact absurd rfl (ha e)
    | addbaRequest req allocOk =>
        obtain rfl := Option.some.inj hd
        exact ⟨rfl, rfl, rfl⟩
    | back =>
        obtain ⟨req, rest, -, -, rfl⟩ := BackSys.step_back hd
        exact ⟨rfl, rfl, rfl⟩
    | backReply reply allocOk =>
        obtain ⟨w, -, rfl⟩ := BackSys.step_backReply hd
        unfold wilBackHandleEnd
        split_ifs <;> exact ⟨rfl, rfl, rfl⟩
    | baStatus evt allocOk =>
        simp only [BackSys.step, wmiEvtBaStatus, Option.some.injEq] at hd
        split at hd <;> exact hd ▸ ⟨rfl, rfl, rfl⟩
    | rx skb =>
        obtain rfl := Option.some.inj hd
        exact ⟨rfl, rfl, rfl⟩
  obtain ⟨hrings, howner, hworker⟩ := hkept
  refine ⟨⟨h.sessions.step hd, fun i => ?_⟩, howner, fun i hva => ?_, fun x i hw => ?_⟩
  · rw [hrings]
    exact h.rings i
  · rwa [← hrings]
  · rwa [← hworker]

/-- **Every step keeps the invariant.** -/
theorem StationInv.step (h : StationInv s) {a : StationAction} (hfits : s.Fits a)
    (ht : s.step a = some t) : StationInv t := by
  cases a with
  | back a =>
      obtain ⟨b, hb, rfl⟩ := Option.map_eq_some_iff.mp ht
      by_cases hconn : ∃ e, a = .conn e
      · obtain ⟨e, rfl⟩ := hconn
        obtain ⟨htraffic, d, hd, rfl⟩ := BackSys.step_conn hb
        obtain ⟨hok, hkept | ⟨cid, id, halloc⟩⟩ := ConnSys.step_rings htraffic hd h.ok
        · exact h.kept hok hkept
        · exact h.allocated hok halloc
      · obtain ⟨hok, hkept⟩ := BackSys.step_rings (fun e he => hconn ⟨e, he⟩) hb h.ok
        exact h.kept hok hkept
  | disconnect bssid =>
      obtain rfl := Option.some.inj ht
      refine h.setWil (h.ok.disconnect bssid) (owner_wil6210Disconnect s.wil bssid)
        fun i hva => ?_
      have hsame := freesOnly_wil6210Disconnect s.wil bssid i hva
      rwa [← hsame]
  | config smeState tidToUse =>
      obtain rfl := Option.some.inj ht
      exact h.setWil (h.ok.same rfl fun _ => rfl) rfl fun _ hva => hva
  | xmit q =>
      obtain rfl := Option.some.inj ht
      obtain ⟨l, hpost⟩ := posting_wilStartXmit s.wil q
      refine h.setWil (h.ok.xmit hfits) ?_ hpost.alloc
      funext i
      rw [Wil.owner, Wil.owner, (txOnly_wilStartXmit s.wil q).map_eq]
  | hwDone i k error =>
      simp only [StationSys.step, Option.ite_none_right_eq_some, Option.some.injEq] at ht
      obtain ⟨⟨hva, hk, hk'⟩, rfl⟩ := ht
      refine h.setWil (h.ok.writeBack hva hk hk' error) rfl fun j hj => ?_
      by_cases hji : j = i
      · exact hji ▸ hva
      · simpa [hji] using hj
  | complete i =>
      obtain rfl := Option.some.inj ht
      obtain ⟨hok, hva⟩ := h.ok.complete i
      exact h.setWil hok rfl fun j hj => hva j ▸ hj
  | count stats =>
      obtain rfl := Option.some.inj ht
      exact h.setWil (h.ok.same rfl fun _ => rfl) rfl fun _ hva => hva

/-- **Every reachable state.** -/
lemma stationInv_run {iftype : Iftype} {devAddr : Option MacAddr} {as : List StationAction}
    (h : Machine.Exec StationSys.step StationSys.Fits (StationSys.init iftype devAddr) as s) :
    StationInv s := by
  refine h.invariant (fun _ _ _ hfits ht hs => hs.step hfits ht) ?_
  refine ⟨⟨sessionsOk_init iftype devAddr, fun i => ?_⟩, ?_, ?_⟩
  · exact ⟨⟨fun hva => absurd hva Bool.false_ne_true, fun _ => rfl⟩, fun _ => rfl⟩
  · rintro i hva
    exact absurd hva Bool.false_ne_true
  · rintro c i hw
    exact absurd hw (by simp [StationSys.init, BackSys.init, ConnSys.init])

end Invariant

/-! ## One disconnect -/

/-- Of a trace, what concerns the rings. -/
def ringEvents (es : List DrvEvent) : List TxEvent :=
  es.filterMap fun
    | .tx e => some e
    | _ => none

/-- `wil_netif_rx_any`, as far as the station of the frame is concerned; `received` is whether
`netif_receive_skb` returns `NET_RX_SUCCESS`. -/
def wilNetifRxAny (received : RxSkb → Bool) (s : Wil) (skb : RxSkb) : Wil :=
  let stats := (s.sta skb.cid).stats
  { s with
    sta := Function.update s.sta skb.cid
      { s.sta skb.cid with
        stats :=
          if received skb then
            { stats with
              rxPackets := stats.rxPackets + 1
              rxBytes := stats.rxBytes + skb.data.length }
          else { stats with rxDropped := stats.rxDropped + 1 } } }

/-- The station is gone, and so are the rings allocated for it; its frames are handed over, each
once, and the references of its rings are dropped. -/
structure TornDown (cfg : RingId → Option Cid) (c : Cid) (s : Wil) (p : Wil × List DrvEvent) :
    Prop extends Disconnected p.1 c where
  stats : (p.1.sta c).stats = ⟨0, 0, 0, 0, 0, 0, 0⟩
  freed_rings : ∀ i, cfg i = some c → (p.1.vringTx i).va = false
  delivered : (handedOver (rxEvents p.2)).Perm
    ((List.finRange 16).flatMap fun i => sessionFrames ((s.sta c).tidRx i)) ∧
      freed (rxEvents p.2) = []
  refs : ∀ q, dropped q (ringEvents p.2)
      = (∑ i, if (s.vringTx i).va = true ∧ cfg i = some c then (s.vringTx i).held q else 0) ∧
    taken q (ringEvents p.2) = 0

/-- The other stations, and all rings but those allocated for the station, are as they were. -/
structure OthersKept (cfg : RingId → Option Cid) (c : Cid) (s : Wil) (p : Wil × List DrvEvent) :
    Prop where
  sta_eq : ∀ d, d ≠ c → p.1.sta d = s.sta d
  ring_eq : ∀ i, cfg i ≠ some c → p.1.vringTx i = s.vringTx i
  map_eq : p.1.vring2cidTid = s.vring2cidTid
  txData_eq : p.1.vringTxData = s.vringTxData
  /-- No frame that is handed over is counted for another station. -/
  counted : ∀ received d, d ≠ c →
    ((handedOver (rxEvents p.2)).foldl (wilNetifRxAny received) s).sta d = s.sta d

@[simp] lemma ringEvents_append (es fs : List DrvEvent) :
    ringEvents (es ++ fs) = ringEvents es ++ ringEvents fs :=
  List.filterMap_append

@[simp] lemma ringEvents_map_tx (es : List TxEvent) : ringEvents (es.map .tx) = es := by
  induction es with
  | nil => rfl
  | cons e es ih => exact congrArg (e :: ·) ih

@[simp] lemma ringEvents_map_rx (es : List RxEvent) : ringEvents (es.map .rx) = [] := by
  induction es with
  | nil => rfl
  | cons e es ih => exact ih

@[simp] lemma rxEvents_map_tx (es : List TxEvent) : rxEvents (es.map .tx) = [] := by
  induction es with
  | nil => rfl
  | cons e es ih => exact ih

/-- The link state concerns neither. -/
lemma events_disconnectLink (s : Wil) (bssid : Option MacAddr) :
    rxEvents (disconnectLink s bssid).2 = [] ∧ ringEvents (disconnectLink s bssid).2 = [] := by
  simp only [disconnectLink]
  cases s.iftype <;> cases s.smeState <;> cases bssid <;> exact ⟨rfl, rfl⟩

/-- What `wil_disconnect_cid` does to the sessions and to the rings. -/
lemma events_wilDisconnectCid (s : Wil) (cid : Cid) :
    rxEvents (wilDisconnectCid s cid).2
        = (List.finRange 16).flatMap (fun i => wilTidAmpduRxFree ((s.sta cid).tidRx i)) ∧
      ringEvents (wilDisconnectCid s cid).2
        = (List.finRange 24).flatMap fun i =>
            if s.owner i = cid.val then (wilVringFiniTx s i).2 else [] := by
  have hdeauth : ∀ es : List DrvEvent,
      es = (if (s.sta cid).status ≠ .unused then
        [DrvEvent.wmiDisconnectSta (s.sta cid).addr wlanReasonDeauthLeaving] else []) →
      rxEvents es = [] ∧ ringEvents es = [] := by
    rintro es rfl
    split_ifs <;> exact ⟨rfl, rfl⟩
  obtain ⟨hrx, htx⟩ := hdeauth _ rfl
  have hfini : ∀ i, rxEvents (if s.owner i = cid.val then (wilVringFiniTx s i).2.map DrvEvent.tx
        else []) = [] ∧
      ringEvents (if s.owner i = cid.val then (wilVringFiniTx s i).2.map DrvEvent.tx else [])
        = if s.owner i = cid.val then (wilVringFiniTx s i).2 else [] := by
    intro i
    split_ifs
    · exact ⟨rxEvents_map_tx _, ringEvents_map_tx _⟩
    · exact ⟨rfl, rfl⟩
  have hrxFlat : ∀ (n : ℕ) (f : Fin n → List DrvEvent), rxEvents ((List.finRange n).flatMap f)
      = (List.finRange n).flatMap fun i => rxEvents (f i) :=
    fun n f => List.filterMap_flatMap
  have htxFlat : ∀ (n : ℕ) (f : Fin n → List DrvEvent), ringEvents ((List.finRange n).flatMap f)
      = (List.finRange n).flatMap fun i => ringEvents (f i) :=
    fun n f => List.filterMap_flatMap
  simp only [wilDisconnectCid, rxEvents_append, ringEvents_append, hrx, htx, hrxFlat, htxFlat,
    rxEvents_map_rx, ringEvents_map_rx, hfini, List.nil_append]
  refine ⟨?_, ?_⟩
  · simp
  · simp

/-- The disconnect of a station that is found. -/
lemma wil6210Disconnect_found {mac : MacAddr} {c : Cid} (hc : wilFindCid s mac = some c) :
    wil6210Disconnect s (some mac)
      = ((disconnectLink (wilDisconnectCid s c).1 (some mac)).1,
          .delTimerSync :: (wilDisconnectCid s c).2
            ++ (disconnectLink (wilDisconnectCid s c).1 (some mac)).2) := by
  simp [wil6210Disconnect, disconnectStations, hc]

lemma events_found {mac : MacAddr} {c : Cid} (hc : wilFindCid s mac = some c) :
    rxEvents (wil6210Disconnect s (some mac)).2 = rxEvents (wilDisconnectCid s c).2 ∧
      ringEvents (wil6210Disconnect s (some mac)).2 = ringEvents (wilDisconnectCid s c).2 := by
  obtain ⟨hrx, htx⟩ := events_disconnectLink (wilDisconnectCid s c).1 (some mac)
  have htimer : rxEvents [.delTimerSync] = [] ∧ ringEvents [.delTimerSync] = [] := ⟨rfl, rfl⟩
  rw [wil6210Disconnect_found hc]
  dsimp only
  rw [← List.singleton_append, rxEvents_append, ringEvents_append, rxEvents_append,
    ringEvents_append, hrx, htx, htimer.1, htimer.2]
  simp

/-- The sessions of a station hand over what they hold. -/
lemma SessionsOk.delivered (h : SessionsOk s) (c : Cid) :
    (handedOver (rxEvents (wilDisconnectCid s c).2)).Perm
        ((List.finRange 16).flatMap fun i => sessionFrames ((s.sta c).tidRx i)) ∧
      freed (rxEvents (wilDisconnectCid s c).2) = [] := by
  rw [(events_wilDisconnectCid s c).1, handedOver, freed, List.filterMap_flatMap,
    List.filterMap_flatMap]
  refine ⟨List.Perm.flatMap_left _ fun i _ => (h.flushed c i).1, ?_⟩
  exact List.flatMap_eq_nil_iff.mpr fun i _ => (h.flushed c i).2

/-- All of these are frames of the station. -/
lemma SessionsOk.delivered_cid (h : SessionsOk s) (c : Cid) :
    ∀ f ∈ handedOver (rxEvents (wilDisconnectCid s c).2), f.cid = c := by
  intro f hf
  obtain ⟨i, -, hi⟩ := List.mem_flatMap.mp ((h.delivered c).1.mem_iff.mp hf)
  cases hr : (s.sta c).tidRx i with
  | none => simp [sessionFrames, hr] at hi
  | some r =>
      rw [hr] at hi
      exact ((h c i r hr).own f hi).1

/-- Frames of one station are counted for no other one. -/
lemma sta_foldl_wilNetifRxAny {received : RxSkb → Bool} {c d : Cid} (hd : d ≠ c)
    {fs : List RxSkb} (hfs : ∀ f ∈ fs, f.cid = c) :
    (fs.foldl (wilNetifRxAny received) s).sta d = s.sta d := by
  induction fs generalizing s with
  | nil => rfl
  | cons f fs ih =>
      have hf : d ≠ f.cid := hfs f List.mem_cons_self ▸ hd
      rw [List.foldl_cons, ih fun g hg => hfs g (List.mem_cons_of_mem _ hg)]
      exact Function.update_of_ne hf ..

/-- The rings that `wil_disconnect_cid` finds are those allocated for the station. -/
lemma StationInv.found_iff {s : StationSys} (h : StationInv s) (c : Cid) {i : RingId}
    (hva : (s.wil.vringTx i).va = true) : s.wil.owner i = c.val ↔ s.cfg i = some c := by
  obtain ⟨d, hcfg, hd⟩ := h.owned i hva
  rw [hcfg, hd, Option.some.injEq, Fin.val_inj]

/-- The references that `wil_disconnect_cid` drops. -/
lemma StationInv.refs {s : StationSys} (h : StationInv s) (c : Cid) (q : TxSkb → Bool) :
    dropped q (ringEvents (wilDisconnectCid s.wil c).2)
        = (∑ i, if (s.wil.vringTx i).va = true ∧ s.cfg i = some c then (s.wil.vringTx i).held q
            else 0) ∧
      taken q (ringEvents (wilDisconnectCid s.wil c).2) = 0 := by
  have hring : ∀ i, dropped q (if s.wil.owner i = c.val then (wilVringFiniTx s.wil i).2 else [])
        = (if (s.wil.vringTx i).va = true ∧ s.cfg i = some c then (s.wil.vringTx i).held q else 0) ∧
      taken q (if s.wil.owner i = c.val then (wilVringFiniTx s.wil i).2 else []) = 0 := by
    intro i
    obtain ⟨hdropped, htaken⟩ := (RingClean.fini h.ok.rings i).2 q
    by_cases hva : (s.wil.vringTx i).va = true
    · have hfound := h.found_iff c hva
      by_cases howner : s.wil.owner i = c.val
      · rw [if_pos howner, if_pos ⟨hva, hfound.mp howner⟩]
        exact ⟨hdropped, htaken⟩
      · rw [if_neg howner, if_neg fun hboth => howner (hfound.mpr hboth.2)]
        exact ⟨rfl, rfl⟩
    · have hheld := held_of_empty ((h.ok.rings i).empty (by simpa using hva)) q
      have hnone : (if (s.wil.vringTx i).va = true ∧ s.cfg i = some c then
          (s.wil.vringTx i).held q else 0) = 0 := if_neg fun hboth => hva hboth.1
      rw [hnone]
      split_ifs
      · exact ⟨hdropped.trans hheld, htaken⟩
      · exact ⟨rfl, rfl⟩
  rw [(events_wilDisconnectCid s.wil c).2, dropped, taken, List.countP_flatMap,
    List.countP_flatMap, Fin.sum_univ_def]
  refine ⟨congrArg List.sum (List.map_congr_left fun i _ => (hring i).1), ?_⟩
  refine List.sum_eq_zero fun n hn => ?_
  obtain ⟨i, -, rfl⟩ := List.mem_map.mp hn
  exact (hring i).2

/-- **Disconnecting one station touches no other.**  In every run of connects, of
`connect_worker`, of disconnects, ADDBA requests, BA status events and traffic: a disconnect of a
station that is found tears it down, and leaves the others. -/
theorem disconnect_isolated {iftype : Iftype} {devAddr : Option MacAddr} {s : StationSys}
    {as : List StationAction}
    (hs : Machine.Exec StationSys.step StationSys.Fits (StationSys.init iftype devAddr) as s)
    {mac : MacAddr} {c : Cid} (hc : wilFindCid s.wil mac = some c) :
    TornDown s.cfg c s.wil (wil6210Disconnect s.wil (some mac)) ∧
      OthersKept s.cfg c s.wil (wil6210Disconnect s.wil (some mac)) := by
  have h := stationInv_run hs
  obtain ⟨hrx, htx⟩ := events_found hc
  have hsta : (wil6210Disconnect s.wil (some mac)).1.sta = (wilDisconnectCid s.wil c).1.sta := by
    rw [wil6210Disconnect_found hc, sta_disconnectLink]
  have hrings : (wil6210Disconnect s.wil (some mac)).1.vringTx
      = (wilDisconnectCid s.wil c).1.vringTx := by
    rw [wil6210Disconnect_found hc, vringTx_disconnectLink]
  have hdown : Disconnected (wil6210Disconnect s.wil (some mac)).1 c := by
    rw [wil6210Disconnect_found hc, disconnected_disconnectLink]
    exact disconnected_self s.wil c
  refine ⟨⟨hdown, ?_, fun i hcfg => ?_, ?_, fun q => ?_⟩, ⟨fun d hd => ?_, fun i hcfg => ?_, ?_,
    ?_, fun received d hd => ?_⟩⟩
  · rw [hsta]
    simp [wilDisconnectCid]
  · rw [hrings, va_wilDisconnectCid]
    split_ifs with howner
    · rfl
    · by_contra hva
      exact howner ((h.found_iff c (by simpa using hva)).mpr hcfg)
  · rw [hrx]
    exact h.ok.sessions.delivered c
  · rw [htx]
    exact h.refs c q
  · rw [hsta]
    exact Function.update_of_ne hd ..
  · rw [hrings]
    show (if s.wil.owner i = c.val then (wilVringFiniTx s.wil i).1 else s.wil.vringTx i) = _
    split_ifs with howner
    · -- the entry is of the station, but the ring is not allocated
      have hfree : ¬ (s.wil.vringTx i).va = true := fun hva =>
        hcfg ((h.found_iff c hva).mp howner)
      rw [wilVringFiniTx, if_neg hfree]
    · rfl
  · rw [wil6210Disconnect_found hc]
    simp only [disconnectLink]
    split <;> rfl
  · rw [wil6210Disconnect_found hc]
    simp only [disconnectLink]
    split <;> rfl
  · rw [hrx]
    exact sta_foldl_wilNetifRxAny hd (h.ok.sessions.delivered_cid c)

/-- Two stations connect; a session of the first one holds a frame. -/
private def twoStations : List BackAction :=
  askForSession 0x1002 ++ [.rx ⟨⟨3 ||| (1 <<< 16)⟩, []⟩, .conn (bareConnect 3 1), .conn .start,
    .conn (.alloc true), .conn (.reply ⟨0, 0, 0⟩), .conn .clear, .conn .finish]

/-- A packet is sent to both, and the first one is disconnected. -/
theorem disconnect_isolated_two :
    ∃ s : StationSys, OthersKept s.cfg 0 s.wil (wil6210Disconnect s.wil (some 2)) ∧
      (handedOver (rxEvents (wil6210Disconnect s.wil (some 2)).2)).length = 1 ∧
      dropped (atAddr 7) (ringEvents (wil6210Disconnect s.wil (some 2)).2) = 1 ∧
      ((wil6210Disconnect s.wil (some 2)).1.vringTx 1).held (atAddr 9) = 1 := by
  have hrun : (Machine.exec StationSys.step StationSys.Fits (StationSys.init .ap (some 1))
      (twoStations.map .back ++ [.xmit (bcastRequest true)])).map
        (fun s => (wilFindCid s.wil 2, s.cfg 1,
          ((List.finRange 16).flatMap fun i => sessionFrames ((s.wil.sta 0).tidRx i)).length,
          (∑ i, if (s.wil.vringTx i).va = true ∧ s.cfg i = some 0 then
            (s.wil.vringTx i).held (atAddr 7) else 0), (s.wil.vringTx 1).held (atAddr 9)))
      = some (some 0, some 1, 1, 1, 1) := by
    decide +kernel
  obtain ⟨s, hs, hend⟩ := Option.map_eq_some_iff.mp hrun
  simp only [Prod.mk.injEq] at hend
  obtain ⟨hfound, hcfg, hframes, hrefs, hheld⟩ := hend
  obtain ⟨hdown, hkept⟩ := disconnect_isolated (.of_exec hs) hfound
  refine ⟨s, hkept, ?_, ?_, ?_⟩
  · rw [hdown.delivered.1.length_eq, hframes]
  · rw [(hdown.refs (atAddr 7)).1, hrefs]
  · rw [hkept.ring_eq 1 (by simp [hcfg]), hheld]

end Wil6210
