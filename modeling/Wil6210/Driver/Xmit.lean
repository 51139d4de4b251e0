import Wil6210.Driver.State
import Wil6210.Tx.Watermark

/-!
# Sending a packet

`wil_start_xmit` sends an EAPOL packet through a WMI command, a packet to one station on the ring of
that station, and any other packet on the first ring that is allocated, with a copy on each of the
others.  A return code that is neither success nor `-ENOMEM` ends at `drop_err`, which stops the
queues; the comment at its `default` says `goto drop`, the label behind.

`Posting` says what all these have in common: they post on some rings, each at most once, and where
they stop the queues for lack of space one of these rings was near full.  `posting_wilStartXmit`
proves it of the whole function.
-/

namespace Wil6210

/-! ## Requests -/

/-- What `wil_start_xmit` reads of a `struct sk_buff`. -/
structure XmitSkb extends TxSkb where
  /-- `eth->h_dest` -/
  hDest : MacAddr
  /-- `skb_shinfo(skb)->gso_size` -/
  gsoSize : ℕ

/-- `is_unicast_ether_addr`; the first octet of an address is its highest byte. -/
def isUnicastEtherAddr (mac : MacAddr) : Bool := !mac.getLsbD 40

/-- `ETH_P_PAE` -/
def ethPPae : ℕ := 0x888e

/-- One call of `wil_start_xmit`. -/
structure XmitRequest where
  skb : XmitSkb
  /-- `wil_status_fwready` -/
  fwready : Bool
  /-- `ndev->features & NETIF_F_HW_CSUM` -/
  hwCsum : Bool
  dma : DmaMapping
  /-- the outcome of `kzalloc` in `wmi_tx_eapol` -/
  kzallocOk : Bool
  /-- what `wmi_send` returns -/
  wmiSend : ℤ
  /-- the address of the copy for a ring, `none` where `skb_copy` fails -/
  skbCopy : RingId → Option ℕ
  copyDma : RingId → DmaMapping

/-- `netdev_tx_t` -/
inductive NetdevTx
  | netdevTxOk
  | netdevTxBusy
  | netXmitDrop
  deriving DecidableEq, Repr

/-- What sending does outside of the tables. -/
inductive XmitEvent
  | tx (e : TxEvent)
  /-- A copy of the packet, for ring `i`. -/
  | skbCopy (i : RingId) (copy : XmitSkb)
  /-- `WMI_EAPOL_TX_CMDID` -/
  | wmiEapolTx (hDest : MacAddr)
  /-- `netif_tx_stop_all_queues`, at `drop_err` -/
  | stopAllQueues
  /-- `ndev->stats.tx_dropped++` -/
  | txDropped

/-! ## On one ring -/

/-- The state of ring `i`; posting reads no statistics. -/
def Wil.txState (w : Wil) (i : RingId) : TxState := ⟨w.vringTx i, w.cb, ⟨0, 0, 0⟩, ⟨0, 0, 0⟩⟩

/-- The state of ring `i` is stored back. -/
def Wil.setTx (w : Wil) (i : RingId) (t : TxState) : Wil :=
  { w with vringTx := Function.update w.vringTx i t.vring, cb := t.cb }

/-- `wil_tx_vring` on ring `i`. -/
def Wil.txVring (w : Wil) (i : RingId) (skb : XmitSkb) (hwCsum : Bool) (dma : DmaMapping) :
    Wil × List XmitEvent × ℤ :=
  let dmaMap : ℕ → Option ℕ
    | 0 => dma.single 0 skb.headlen
    | f + 1 => dma.frag f 0 (skb.frags.getD f 0)
  let r := wilTxVring (w.txState i) ⟨skb.toTxSkb, i, hwCsum, dmaMap⟩
  (w.setTx i r.1, r.2.1.map .tx, r.2.2)

/-- `wil_tx_vring_tso` on ring `i`. -/
def Wil.txVringTso (w : Wil) (i : RingId) (skb : XmitSkb) (dma : DmaMapping) :
    Wil × List XmitEvent × ℤ :=
  let r := wilTxVringTso (w.txState i) ⟨skb.toTxSkb, skb.gsoSize, i, dma⟩
  (w.setTx i r.1, r.2.1.map .tx, r.2.2)

/-! ## On all rings -/

/-- `wil_find_first_tx_vring` -/
def wilFindFirstTxVring (w : Wil) : Option RingId := Fin.find? fun i => (w.vringTx i).va

/-- `wil_set_da_for_vring`; the CID of a ring is below `WIL6210_MAX_CID`. -/
def wilSetDaForVring (w : Wil) (skb : XmitSkb) (i : RingId) : XmitSkb :=
  if h : w.owner i < 8 then { skb with hDest := (w.sta ⟨w.owner i, h⟩).addr } else skb

/-- `bcast_to_ucast` -/
def bcastToUcast (w : Wil) : Bool :=
  match w.iftype with
  | .station | .p2pClient => false
  | _ => true

/-- `skb_copy`: the copy, at address `id`, is linear. -/
def XmitSkb.copyAt (skb : XmitSkb) (id : ℕ) : XmitSkb :=
  { skb with id := id, frags := [], headlen := skb.len }

/-- One pass of the loop of `wil_tx_bcast`: a copy of `skb` on ring `i`. -/
def txBcastCopy (q : XmitRequest) (skb : XmitSkb) (w : Wil) (i : RingId) :
    Wil × List XmitEvent :=
  if (w.vringTx i).va then
    match q.skbCopy i with
    | none => (w, [])
    | some id =>
        let skb2 := skb.copyAt id
        let skb2 := if bcastToUcast w then wilSetDaForVring w skb2 i else skb2
        let r := w.txVring i skb2 q.hwCsum (q.copyDma i)
        (r.1, .skbCopy i skb2 :: r.2.1)
  else (w, [])

/-- The rings behind ring `i`, in order. -/
def ringsBehind (i : RingId) : List RingId := (List.finRange 24).filter (i < ·)

/-- `wil_tx_bcast`: the ring for the packet itself, and the packet, whose address it may replace. -/
def wilTxBcast (w : Wil) (q : XmitRequest) :
    Option (RingId × XmitSkb) × Wil × List XmitEvent :=
  match wilFindFirstTxVring w with
  | none => (none, w, [])
  | some i =>
      let skb := if bcastToUcast w then wilSetDaForVring w q.skb i else q.skb
      (some (i, skb), Machine.run (txBcastCopy q skb) w (ringsBehind i))

/-- `wmi_tx_eapol` -/
def wmiTxEapol (w : Wil) (q : XmitRequest) : ℤ × List XmitEvent :=
  match wilFindCid w q.skb.hDest with
  | none => (eInval, [])
  | some _ => if q.kzallocOk then (q.wmiSend, [.wmiEapolTx q.skb.hDest]) else (eInval, [])

/-- What `wil_start_xmit` returns, the driver after it, the packet, and what was done outside. -/
structure Xmitted where
  ret : NetdevTx
  wil : Wil
  skb : XmitSkb
  events : List XmitEvent

/-- The label `drop`. -/
def xmitDrop (w : Wil) (skb : XmitSkb) (es : List XmitEvent) : Xmitted :=
  ⟨.netXmitDrop, w, skb, es ++ [.txDropped, .tx (.kfreeSkb skb.toTxSkb)]⟩

/-- The label `drop_err`. -/
def xmitDropErr (w : Wil) (skb : XmitSkb) (es : List XmitEvent) : Xmitted :=
  xmitDrop w skb (es ++ [.stopAllQueues])

/-- The `switch` over the return code. -/
def xmitReturn (w : Wil) (skb : XmitSkb) (es : List XmitEvent) (rc : ℤ) : Xmitted :=
  if rc = 0 then ⟨.netdevTxOk, w, skb, es ++ [.tx (.kfreeSkb skb.toTxSkb)]⟩
  else if rc = eNomem then ⟨.netdevTxBusy, w, skb, es⟩
  else xmitDropErr w skb es

/-- The packet is posted on ring `i`. -/
def xmitOn (w : Wil) (q : XmitRequest) (i : RingId) (skb : XmitSkb) (es : List XmitEvent) :
    Xmitted :=
  -- skb_is_gso
  let r := if skb.gsoSize ≠ 0 then w.txVringTso i skb q.dma else w.txVring i skb q.hwCsum q.dma
  xmitReturn r.1 skb (es ++ r.2.1) r.2.2

/-- `wil_start_xmit` -/
def wilStartXmit (w : Wil) (q : XmitRequest) : Xmitted :=
  if ¬ q.fwready then xmitDrop w q.skb []
  else if ¬ w.fwConnected then xmitDrop w q.skb []
  else if w.iftype = .monitor then xmitDrop w q.skb []
  else if q.skb.protocol = ethPPae then
    let r := wmiTxEapol w q
    xmitReturn w q.skb r.2 r.1
  else if isUnicastEtherAddr q.skb.hDest then
    match wilFindTxVring w q.skb.hDest with
    | none => xmitDrop w q.skb []
    | some i => xmitOn w q i q.skb []
  else
    match wilTxBcast w q with
    | (none, w, es) => xmitDropErr w q.skb es
    | (some (i, skb), w, es) => xmitOn w q i skb es

/-! ## Where a packet goes -/

/-- The packet is for `wil_tx_bcast`. -/
def GoesToBcast (w : Wil) (q : XmitRequest) : Prop :=
  q.fwready = true ∧ w.fwConnected = true ∧ w.iftype ≠ .monitor ∧ q.skb.protocol ≠ ethPPae ∧
    isUnicastEtherAddr q.skb.hDest = false

instance (w : Wil) (q : XmitRequest) : Decidable (GoesToBcast w q) :=
  inferInstanceAs (Decidable (_ ∧ _))

/-- A packet goes to `wil_tx_bcast`, or it is dropped at once, sent through a WMI command, or posted
on the ring of its station. -/
lemma wilStartXmit_cases (w : Wil) (q : XmitRequest) :
    (GoesToBcast w q ∧ wilStartXmit w q =
      match wilTxBcast w q with
      | (none, w, es) => xmitDropErr w q.skb es
      | (some (i, skb), w, es) => xmitOn w q i skb es) ∨
    (¬ GoesToBcast w q ∧
      (wilStartXmit w q = xmitDrop w q.skb [] ∨
        wilStartXmit w q = xmitReturn w q.skb (wmiTxEapol w q).2 (wmiTxEapol w q).1 ∨
        ∃ i, isUnicastEtherAddr q.skb.hDest = true ∧ wilFindTxVring w q.skb.hDest = some i ∧
          wilStartXmit w q = xmitOn w q i q.skb [])) := by
  rw [wilStartXmit, GoesToBcast]
  by_cases hready : ¬ q.fwready = true
  · rw [if_pos hready]
    exact .inr ⟨fun h => hready h.1, .inl rfl⟩
  rw [if_neg hready]
  by_cases hconnected : ¬ w.fwConnected = true
  · rw [if_pos hconnected]
    exact .inr ⟨fun h => hconnected h.2.1, .inl rfl⟩
  rw [if_neg hconnected]
  by_cases hmonitor : w.iftype = .monitor
  · rw [if_pos hmonitor]
    exact .inr ⟨fun h => h.2.2.1 hmonitor, .inl rfl⟩
  rw [if_neg hmonitor]
  by_cases hpae : q.skb.protocol = ethPPae
  · rw [if_pos hpae]
    exact .inr ⟨fun h => h.2.2.2.1 hpae, .inr (.inl rfl)⟩
  rw [if_neg hpae]
  by_cases hunicast : isUnicastEtherAddr q.skb.hDest = true
  · rw [if_pos hunicast]
    refine .inr ⟨fun h => absurd (hunicast.symm.trans h.2.2.2.2) (by decide), ?_⟩
    cases hfind : wilFindTxVring w q.skb.hDest with
    | none => exact .inl rfl
    | some i => exact .inr (.inr ⟨i, hunicast, rfl, rfl⟩)
  · rw [if_neg hunicast]
    exact .inl ⟨⟨not_not.mp hready, not_not.mp hconnected, hmonitor, hpae,
      Bool.eq_false_iff.mpr hunicast⟩, rfl⟩

/-- `wmi_tx_eapol` sends one command, or none. -/
lemma wmiTxEapol_events (w : Wil) (q : XmitRequest) :
    (wmiTxEapol w q).2 = [] ∨ (wmiTxEapol w q).2 = [.wmiEapolTx q.skb.hDest] := by
  unfold wmiTxEapol
  split
  · exact .inl rfl
  · split_ifs
    · exact .inr rfl
    · exact .inl rfl

/-! ## What sending does -/

/-- A step from `w` to `u` posts on the rings of `l`, each at most once: it moves no tail, and where
it stops the queues for lack of space, one of these rings is near full. -/
structure Posting (w u : Wil) (l : List RingId) (es : List XmitEvent) : Prop where
  ring : ∀ i, (w.vringTx i).swhead < (w.vringTx i).size →
    Advanced (w.vringTx i) (u.vringTx i)
  frame : ∀ i ∉ l, u.vringTx i = w.vringTx i
  alloc : ∀ i, (u.vringTx i).va = true → (w.vringTx i).va = true
  stop : .tx .stopAllQueues ∈ es →
    ∃ i ∈ l, (w.vringTx i).va = true ∧ (w.vringTx i).nearFull ≤ (w.vringTx i).used

variable {w u v : Wil} {l m : List RingId} {es fs : List XmitEvent}

lemma Posting.nothing (w : Wil) (hes : .tx .stopAllQueues ∉ es) : Posting w w [] es :=
  ⟨fun _ _ => .refl _, fun _ _ => rfl, fun _ => id, fun h => absurd h hes⟩

/-- Posting on other rings, and what else is done. -/
lemma Posting.append (h : Posting w u l es) (h' : Posting u v m fs) (hlm : ∀ i ∈ m, i ∉ l) :
    Posting w v (l ++ m) (es ++ fs) := by
  refine ⟨fun i hlt => ?_, fun i hi => ?_, fun i hva => h.alloc i (h'.alloc i hva),
    fun hstop => ?_⟩
  · by_cases hi : i ∈ m
    · have hsame := h.frame i (hlm i hi)
      have hring := h'.ring i (by rwa [hsame])
      rwa [hsame] at hring
    · rw [h'.frame i hi]
      exact h.ring i hlt
  · rw [List.mem_append, not_or] at hi
    rw [h'.frame i hi.2, h.frame i hi.1]
  · rcases List.mem_append.mp hstop with hstop | hstop
    · obtain ⟨i, hi, hva, hfull⟩ := h.stop hstop
      exact ⟨i, List.mem_append_left _ hi, hva, hfull⟩
    · obtain ⟨i, hi, hva, hfull⟩ := h'.stop hstop
      rw [h.frame i (hlm i hi)] at hva hfull
      exact ⟨i, List.mem_append_right _ hi, hva, hfull⟩

/-- What is done besides does not stop the queues for lack of space. -/
lemma Posting.also (h : Posting w u l es) (hfs : .tx .stopAllQueues ∉ fs) :
    Posting w u l (es ++ fs) := by
  have happend := h.append (Posting.nothing u hfs) (by simp)
  rwa [List.append_nil] at happend

lemma mem_map_tx {e : TxEvent} {ts : List TxEvent} :
    XmitEvent.tx e ∈ ts.map XmitEvent.tx ↔ e ∈ ts := by
  simp

/-- A call of `wil_tx_vring` or `wil_tx_vring_tso` on an allocated ring. -/
lemma posting_setTx {i : RingId} {t : TxState} {ts : List TxEvent}
    (hva : (w.vringTx i).va = true)
    (hring : (w.vringTx i).swhead < (w.vringTx i).size → Advanced (w.vringTx i) t.vring)
    (hqueues : queueEvents ts = txStop (w.vringTx i)) :
    Posting w (w.setTx i t) [i] (ts.map .tx) := by
  refine ⟨fun j hlt => ?_, fun j hj => ?_, fun j hj => ?_,
    fun hstop => ⟨i, List.mem_singleton_self i, hva, ?_⟩⟩
  · by_cases hji : j = i
    · subst hji
      simpa [Wil.setTx] using hring hlt
    · simpa [Wil.setTx, hji] using Advanced.refl (w.vringTx j)
  · have hji : j ≠ i := by simpa using hj
    simp [Wil.setTx, hji]
  · by_cases hji : j = i
    · exact hji ▸ hva
    · simpa [Wil.setTx, hji] using hj
  · refine nearFull_le_of_stop ?_
    rw [← hqueues]
    exact List.mem_filter.mpr ⟨mem_map_tx.mp hstop, rfl⟩

lemma posting_txVring {i : RingId} (hva : (w.vringTx i).va = true) (skb : XmitSkb) (hwCsum : Bool)
    (dma : DmaMapping) :
    Posting w (w.txVring i skb hwCsum dma).1 [i] (w.txVring i skb hwCsum dma).2.1 :=
  posting_setTx hva (fun hlt => advanced_wilTxVring (s := w.txState i) _ hlt)
    (queueEvents_wilTxVring _ _)

lemma posting_txVringTso {i : RingId} (hva : (w.vringTx i).va = true) (skb : XmitSkb)
    (dma : DmaMapping) :
    Posting w (w.txVringTso i skb dma).1 [i] (w.txVringTso i skb dma).2.1 :=
  posting_setTx hva (fun _ => (wilTxVringTso_spec (w.txState i) _).1)
    (wilTxVringTso_spec (w.txState i) _).2

/-- A pass of the loop of `wil_tx_bcast`. -/
lemma posting_txBcastCopy (q : XmitRequest) (skb : XmitSkb) (w : Wil) (i : RingId) :
    Posting w (txBcastCopy q skb w i).1 [i] (txBcastCopy q skb w i).2 := by
  have hnothing : Posting w w [i] [] :=
    ⟨fun _ _ => .refl _, fun _ _ => rfl, fun _ => id, by simp⟩
  rw [txBcastCopy]
  by_cases hva : (w.vringTx i).va = true
  · rw [if_pos hva]
    cases q.skbCopy i with
    | none => exact hnothing
    | some id =>
        dsimp only
        generalize (if bcastToUcast w then wilSetDaForVring w (skb.copyAt id) i
          else skb.copyAt id) = skb2
        have hpost := posting_txVring hva skb2 q.hwCsum (q.copyDma i)
        refine ⟨hpost.ring, hpost.frame, hpost.alloc, fun hstop => hpost.stop ?_⟩
        exact (List.mem_cons.mp hstop).resolve_left (by simp)
  · rw [if_neg hva]
    exact hnothing

/-- **The loop of `wil_tx_bcast`.** -/
lemma posting_run (q : XmitRequest) (skb : XmitSkb) (hnodup : l.Nodup) :
    ∀ w, Posting w (Machine.run (txBcastCopy q skb) w l).1 l
      (Machine.run (txBcastCopy q skb) w l).2 := by
  induction l with
  | nil =>
      intro w
      exact Posting.nothing w (by simp)
  | cons i l ih =>
      intro w
      obtain ⟨hi, hl⟩ := List.nodup_cons.mp hnodup
      rw [Machine.run_cons]
      refine (posting_txBcastCopy q skb w i).append (ih hl _) fun j hj hmem => ?_
      exact hi (List.mem_singleton.mp hmem ▸ hj)

lemma posting_xmitReturn (h : Posting w u l es) (skb : XmitSkb) (rc : ℤ) :
    Posting w (xmitReturn u skb es rc).wil l (xmitReturn u skb es rc).events := by
  simp only [xmitReturn, xmitDropErr, xmitDrop]
  split_ifs
  · exact h.also (by simp)
  · exact h
  · exact (h.also (by simp)).also (by simp)

lemma posting_xmitOn (h : Posting w u l es) (q : XmitRequest) {i : RingId}
    (hva : (u.vringTx i).va = true) (hi : i ∉ l) (skb : XmitSkb) :
    Posting w (xmitOn u q i skb es).wil (l ++ [i]) (xmitOn u q i skb es).events := by
  have hother : ∀ j ∈ [i], j ∉ l := by simpa using hi
  simp only [xmitOn]
  split_ifs
  · exact posting_xmitReturn (h.append (posting_txVringTso hva skb q.dma) hother) skb _
  · exact posting_xmitReturn (h.append (posting_txVring hva skb q.hwCsum q.dma) hother) skb _

lemma va_of_wilFindTxVring {mac : MacAddr} {i : RingId} (h : wilFindTxVring w mac = some i) :
    (w.vringTx i).va = true := by
  obtain ⟨-, -, -, hva⟩ := wilFindTxVring_eq_some.mp h
  exact hva

lemma va_of_wilFindFirstTxVring {i : RingId} (h : wilFindFirstTxVring w = some i) :
    (w.vringTx i).va = true := by
  simpa using Fin.eq_true_of_find?_eq_some h

/-- A packet that is not for one station. -/
lemma posting_wilTxBcast (w : Wil) (q : XmitRequest) :
    ∃ l, Posting w (wilTxBcast w q).2.1 l (wilTxBcast w q).2.2 ∧
      ∀ p, (wilTxBcast w q).1 = some p →
        p.1 ∉ l ∧ ((wilTxBcast w q).2.1.vringTx p.1).va = true := by
  unfold wilTxBcast
  cases hfirst : wilFindFirstTxVring w with
  | none => exact ⟨[], Posting.nothing w (by simp), by simp⟩
  | some i =>
      dsimp only
      generalize (if bcastToUcast w then wilSetDaForVring w q.skb i else q.skb) = skb
      have hi : i ∉ ringsBehind i := by simp [ringsBehind]
      have hnodup : (ringsBehind i).Nodup := (List.nodup_finRange 24).filter _
      have hrun := posting_run q skb hnodup w
      refine ⟨ringsBehind i, hrun, fun p hp => ?_⟩
      obtain rfl := Option.some.inj hp
      refine ⟨hi, ?_⟩
      rw [hrun.frame i hi]
      exact va_of_wilFindFirstTxVring hfirst

/-- **One call of `wil_start_xmit`.** -/
theorem posting_wilStartXmit (w : Wil) (q : XmitRequest) :
    ∃ l, Posting w (wilStartXmit w q).wil l (wilStartXmit w q).events := by
  obtain ⟨-, h⟩ | ⟨-, h | h | ⟨i, -, hfind, h⟩⟩ := wilStartXmit_cases w q
  · obtain ⟨l, hpost, hring⟩ := posting_wilTxBcast w q
    rw [h]
    generalize wilTxBcast w q = r at hpost hring
    obtain ⟨_ | ⟨i, skb⟩, u, es⟩ := r
    · exact ⟨l, (hpost.also (by simp)).also (by simp)⟩
    · obtain ⟨hi, hva⟩ := hring _ rfl
      exact ⟨_, posting_xmitOn hpost q hva hi skb⟩
  · rw [h]
    exact ⟨[], Posting.nothing w (by simp [xmitDrop])⟩
  · rw [h]
    refine ⟨[], posting_xmitReturn (Posting.nothing w ?_) q.skb _⟩
    rcases wmiTxEapol_events w q with hes | hes <;> simp [hes]
  · rw [h]
    exact ⟨_, posting_xmitOn (Posting.nothing w (by simp)) q (va_of_wilFindTxVring hfind)
      (by simp) q.skb⟩

end Wil6210
