import Wil6210.Kernel
import Wil6210.Lib.Circular

/-!
# The Tx descriptor ring

The transmit half of `txrx.c`: `wil_tx_vring` maps the pieces of a packet and posts one descriptor
for each, the hardware sets the DU bit of the descriptors it is done with, and `wil_tx_complete`
hands finished slots back.

The arrays `va[size]` and `ctx[size]` are functions of the index.  A socket buffer is the record of
what the Tx path reads of it, `id` being its address; its `skb->cb`, which the driver writes, is
kept in the state under that `id`.  The outcome of every DMA mapping is an input.  What the
functions do to the outside world is a list of `TxEvent`s in program order.

Cycle counters, traces and the text of debug messages are left out.
-/

namespace Wil6210

/-! ## Buffers and descriptors -/

/-- What the Tx path reads of a `struct sk_buff`. -/
structure TxSkb where
  id : ℕ
  len : ℕ
  /-- `skb_headlen` -/
  headlen : ℕ
  /-- the sizes of `skb_shinfo(skb)->frags` -/
  frags : List ℕ
  /-- `ip_summed == CHECKSUM_PARTIAL` -/
  csumPartial : Bool
  protocol : ℕ
  /-- `ip_hdr(skb)->protocol` -/
  ipProtocol : ℕ
  /-- what `ipv6_find_hdr` finds -/
  ipv6Hdr : ℕ
  networkHeaderLen : ℕ
  tcpHdrlen : ℕ
  deriving DecidableEq, Repr

/-- `struct wil_skb_cb` -/
structure WilSkbCb where
  snglMapped : ℕ
  nodmaDesc : ℤ
  deriving DecidableEq, Repr

/-- `struct vring_tx_desc` -/
structure VringTxDesc where
  macD0 : ℕ
  macD1 : ℕ
  macD2 : ℕ
  ucodeCmd : ℕ
  d0 : ℕ
  addrLow : ℕ
  addrHigh : ℕ
  offloadCfg : ℕ
  error : ℕ
  status : ℕ
  length : ℕ
  deriving DecidableEq, Repr

/-- `TX_DMA_STATUS_DU` -/
def txDmaStatusDu : ℕ := bit 0

/-- `BIT(DMA_CFG_DESC_TX_0_CMD_EOP_POS)` -/
def descTx0CmdEop : ℕ := bit 8

/-- `d->dma.status & TX_DMA_STATUS_DU` -/
def VringTxDesc.du (d : VringTxDesc) : Prop := d.status &&& txDmaStatusDu ≠ 0

/-- `d->dma.d0 & BIT(DMA_CFG_DESC_TX_0_CMD_EOP_POS)` -/
def VringTxDesc.eop (d : VringTxDesc) : Prop := d.d0 &&& descTx0CmdEop ≠ 0

instance (d : VringTxDesc) : Decidable d.du := inferInstanceAs (Decidable (_ ≠ _))
instance (d : VringTxDesc) : Decidable d.eop := inferInstanceAs (Decidable (_ ≠ _))

/-- The DMA address a descriptor holds. -/
def VringTxDesc.pa (d : VringTxDesc) : ℕ := d.addrLow ||| (d.addrHigh <<< 32)

/-- `wil_tx_desc_map` -/
def wilTxDescMap (d : VringTxDesc) (pa len vringIndex : ℕ) : VringTxDesc :=
  { d with
    addrLow := pa % 2 ^ 32
    addrHigh := u16 (pa >>> 32)
    offloadCfg := 0
    error := 0
    status := 0
    length := u16 len
    d0 := vringIndex <<< 16
    macD0 := 0
    macD1 := bit 20 ||| (0 <<< 16)
    macD2 := bit 20 ||| (1 <<< 18)
    ucodeCmd := 0 }

/-- `wil_tx_desc_offload_setup`: the descriptor, and the protocol (0 - not TCP, 1 - TCPv4,
2 - TCPv6), which is all the source asks for with a NULL descriptor. -/
def wilTxDescOffloadSetup (d : VringTxDesc) (skb : TxSkb) (tsoDescType : ℤ) : VringTxDesc × ℕ :=
  let isIp4 := skb.protocol == 0x0800
  let isIp6 := skb.protocol == 0x86dd
  let isTcp := (isIp4 && skb.ipProtocol == 6) || (isIp6 && skb.ipv6Hdr == 6)
  let isUdp := (isIp4 && skb.ipProtocol == 17) || (isIp6 && skb.ipv6Hdr == 17)
  let ip := if isIp4 then { d with offloadCfg := d.offloadCfg ||| bit 15 } else d
  let ip := { ip with
    offloadCfg := ip.offloadCfg ||| (skb.networkHeaderLen &&& 0xff) ||| (0x0e <<< 8) }
  -- checksum and pseudo-header
  let l4 := { ip with d0 := ip.d0 ||| bit 15 ||| bit 21 }
  let tcp := { l4 with d0 := l4.d0 ||| (2 <<< 30) ||| (skb.tcpHdrlen &&& 0xff) }
  let tso := { tcp with
    d0 := tcp.d0 ||| (bit 13 ||| (tsoDescType.toNat <<< 11)) ||| (if isIp4 then bit 14 else 0)
    macD2 := tcp.macD2 ||| (1 <<< 0) }
  let udp := { l4 with d0 := l4.d0 ||| (8 &&& 0xff) }
  (if isIp4 || isIp6 then
      if isTcp then if tsoDescType ≠ -1 then tso else tcp
      else if isUdp then udp
      else ip
    else d,
    if isTcp then if isIp4 then 1 else 2 else 0)

/-- `wil_tx_last_desc`: end of packet, the undocumented bit 9, interrupt. -/
def wilTxLastDesc (d : VringTxDesc) (vringIndex : ℕ) : VringTxDesc :=
  { d with d0 := d.d0 ||| (descTx0CmdEop ||| bit 9 ||| bit 10 ||| (vringIndex <<< 16)) }

@[simp] lemma status_wilTxDescMap (d : VringTxDesc) (pa len i : ℕ) :
    (wilTxDescMap d pa len i).status = 0 := rfl

@[simp] lemma status_wilTxDescOffloadSetup (d : VringTxDesc) (skb : TxSkb) (t : ℤ) :
    (wilTxDescOffloadSetup d skb t).1.status = d.status := by
  simp only [wilTxDescOffloadSetup]
  split_ifs <;> rfl

@[simp] lemma status_wilTxLastDesc (d : VringTxDesc) (i : ℕ) :
    (wilTxLastDesc d i).status = d.status := rfl

lemma not_du_of_status {d : VringTxDesc} (h : d.status = 0) : ¬ d.du := by
  simp [VringTxDesc.du, h]

/-! ## Rings -/

/-- `struct vring`; `va` is whether `vring->va` is there, `desc` is what it points to. -/
structure Vring where
  va : Bool
  desc : ℕ → VringTxDesc
  size : ℕ
  swtail : ℕ
  swhead : ℕ
  hwtail : ℕ
  ctx : ℕ → Option TxSkb

/-- `vring->va[i].tx = d` -/
def Vring.setDesc (v : Vring) (i : ℕ) (d : VringTxDesc) : Vring :=
  { v with desc := Function.update v.desc i d }

/-- `vring->ctx[i] = skb` -/
def Vring.setCtx (v : Vring) (i : ℕ) (skb : Option TxSkb) : Vring :=
  { v with ctx := Function.update v.ctx i skb }

/-- `wil_vring_is_empty` -/
def wilVringIsEmpty (v : Vring) : Prop := v.swhead = v.swtail

instance (v : Vring) : Decidable (wilVringIsEmpty v) := inferInstanceAs (Decidable (_ = _))

/-- `wil_vring_advance_head` -/
def wilVringAdvanceHead (v : Vring) (n : ℕ) : Vring :=
  { v with swhead := (v.swhead + n) % v.size }

/-- `used` of `wil_vring_avail_tx`. -/
def Vring.used (v : Vring) : ℕ := (v.size + v.swhead - v.swtail) % v.size

/-- Between `swtail` and `swhead` there are `used` positions. -/
lemma Vring.head_mod {v : Vring} (hhead : v.swhead < v.size) (htail : v.swtail < v.size) :
    v.used < v.size ∧ v.swtail % v.size = v.swtail ∧ (v.swtail + v.used) % v.size = v.swhead := by
  have hpos : 0 < v.size := by omega
  refine ⟨Nat.mod_lt _ hpos, Nat.mod_eq_of_lt htail, ?_⟩
  rw [Vring.used, Nat.add_mod_mod, show v.swtail + (v.size + v.swhead - v.swtail)
    = v.size + v.swhead by omega, Nat.add_mod_left, Nat.mod_eq_of_lt hhead]

/-- `wil_vring_avail_tx` -/
def wilVringAvailTx (v : Vring) : ℕ := v.size - v.used - 1

/-- What the Tx path does to the ring, to the references of a buffer, and to the outside. -/
inductive TxEvent
  /-- `wil_tx_vring` stores to `va[slot]` or `ctx[slot]`. -/
  | write (slot : ℕ)
  /-- `wil_tx_complete` clears `va[slot]` and `ctx[slot]`. -/
  | release (slot : ℕ)
  | skbGet (skb : TxSkb)
  | kfreeSkb (skb : TxSkb)
  | dmaUnmapSingle (pa length : ℕ)
  | dmaUnmapPage (pa length : ℕ)
  | stopAllQueues
  | wakeAllQueues
  /-- `iowrite32(vring->swhead, wil->csr + HOSTADDR(vring->hwtail))` -/
  | iowriteHwtail (hwtail swhead : ℕ)
  deriving DecidableEq, Repr

/-- Undo the mapping of a slot: the linear part of the packet, or a page. -/
def dmaUnmap (cb : WilSkbCb) (i : ℕ) (d : VringTxDesc) : TxEvent :=
  if i ≤ cb.snglMapped then .dmaUnmapSingle d.pa d.length else .dmaUnmapPage d.pa d.length

/-- `wil_vring_alloc`; `allocOk` is the outcome of the two allocations. -/
def wilVringAlloc (allocOk : Bool) (v : Vring) : Vring × ℤ :=
  if allocOk then
    ({ v with
        va := true
        swhead := 0
        swtail := 0
        ctx := fun _ => none
        desc := fun i => { v.desc i with status := txDmaStatusDu } }, 0)
  else ({ v with va := false, swhead := 0, swtail := 0, ctx := fun _ => none }, eNomem)

/-- One pass of the Tx branch of `wil_vring_free`. -/
def wilVringFreeSlot (cb : ℕ → WilSkbCb) (i : ℕ) (p : Vring × List TxEvent) :
    Option (Vring × List TxEvent) :=
  match p.1.ctx i with
  | none => some p
  | some skb =>
      some (p.1.setCtx i none, p.2 ++ [dmaUnmap (cb skb.id) i (p.1.desc i), .kfreeSkb skb])

/-- `wil_vring_free` of a Tx ring. -/
def wilVringFree (cb : ℕ → WilSkbCb) (v : Vring) : Vring × List TxEvent :=
  let p := Circular.loop v.size v.swhead (wilVringFreeSlot cb) v.size v.swtail (v, [])
  ({ p.2.1 with swtail := p.1, va := false, ctx := fun _ => none }, p.2.2)

/-! ## Posting a packet -/

/-- `tx_packets`, `tx_bytes` and `tx_errors`. -/
structure TxStats where
  txPackets : ℕ
  txBytes : ℕ
  txErrors : ℕ
  deriving DecidableEq, Repr

/-- What the Tx path of one ring runs on: the ring, the `cb` of every buffer, the statistics of the
device and of the station. -/
structure TxState where
  vring : Vring
  cb : ℕ → WilSkbCb
  ndevStats : TxStats
  staStats : TxStats

/-- One call of `wil_tx_vring`.  `dmaMap 0` is the address at which the linear part is mapped and
`dmaMap (f + 1)` that of fragment `f`, `none` where the mapping fails. -/
structure TxRequest where
  skb : TxSkb
  vringIndex : ℕ
  /-- `ndev->features & NETIF_F_HW_CSUM` -/
  hwCsum : Bool
  dmaMap : ℕ → Option ℕ

/-- `skb_shinfo(skb)->nr_frags` -/
def TxRequest.nrFrags (q : TxRequest) : ℕ := q.skb.frags.length

/-- The descriptor of one mapped piece. -/
def txSegmentDesc (q : TxRequest) (d : VringTxDesc) (pa len : ℕ) : VringTxDesc :=
  let d := wilTxDescMap d pa len q.vringIndex
  let d := if q.skb.csumPartial && q.hwCsum then (wilTxDescOffloadSetup d q.skb (-1)).1 else d
  { d with macD2 := d.macD2 ||| ((q.nrFrags + 1) <<< 0) }

@[simp] lemma status_txSegmentDesc (q : TxRequest) (d : VringTxDesc) (pa len : ℕ) :
    (txSegmentDesc q d pa len).status = 0 := by
  simp only [txSegmentDesc]
  split_ifs <;> simp

/-- Post one mapped piece in slot `i`, with a reference to the buffer. -/
def txSegment (q : TxRequest) (i pa len : ℕ) (v : Vring) : Vring :=
  (v.setDesc i (txSegmentDesc q (v.desc i) pa len)).setCtx i (some q.skb)

/-- The loop over the fragments from `f` on; `i` is the slot of the piece before.  The result is
the ring, the slot of the last piece, and the fragment whose mapping failed, if any. -/
def txFrags (q : TxRequest) (swhead : ℕ) :
    ℕ → ℕ → List ℕ → Vring → (Vring × ℕ × Option ℕ) × List TxEvent
  | i, _, [], v => ((v, i, none), [])
  | i, f, len :: frags, v =>
      match q.dmaMap (f + 1) with
      | none => ((v, i, some f), [])
      | some pa =>
          let i := (swhead + f + 1) % v.size
          let r := txFrags q swhead i (f + 1) frags (txSegment q i pa len v)
          (r.1, .write i :: .skbGet q.skb :: r.2)

/-- The linear part, mapped at `pa`, and the fragments. -/
def txPieces (q : TxRequest) (pa : ℕ) (v : Vring) : (Vring × ℕ × Option ℕ) × List TxEvent :=
  let r := txFrags q v.swhead v.swhead 0 q.skb.frags (txSegment q v.swhead pa q.skb.headlen v)
  (r.1, .write v.swhead :: .skbGet q.skb :: r.2)

/-- The loop behind `dma_error`: `f` pieces are unmapped, from the last to the first. -/
def txDmaError (cb : WilSkbCb) (skb : TxSkb) (swhead : ℕ) : ℕ → Vring → Vring × List TxEvent
  | 0, v => (v, [])
  | f + 1, v =>
      let i := (swhead + (f + 1) - 1) % v.size
      let d := { v.desc i with status := txDmaStatusDu }
      let r := txDmaError cb skb swhead f (v.setDesc i d)
      (r.1, .write i :: dmaUnmap cb i d :: .kfreeSkb skb :: r.2)

/-- Stop the queues where an eighth of the ring or less is left. -/
def txStop (v : Vring) : List TxEvent :=
  if wilVringAvailTx v < v.size / 8 then [.stopAllQueues] else []

/-- Wake the queues where more than a quarter of the ring is free. -/
def txWake (v : Vring) : List TxEvent :=
  if wilVringAvailTx v > v.size / 4 then [.wakeAllQueues] else []

/-- `wil_tx_vring` -/
def wilTxVring (s : TxState) (q : TxRequest) : TxState × List TxEvent × ℤ :=
  let v := s.vring
  let swhead := v.swhead
  let avail := wilVringAvailTx v
  if avail < 1 + q.nrFrags then (s, txStop v, eNomem)
  else
    let cb : WilSkbCb := ⟨swhead, -1⟩
    let s := { s with cb := Function.update s.cb q.skb.id cb }
    match q.dmaMap 0 with
    | none => (s, txStop v, eInval)
    | some pa =>
        let r := txPieces q pa v
        match r.1.2.2 with
        | some f =>
            let u := txDmaError cb q.skb swhead (f + 1) r.1.1
            ({ s with vring := u.1 }, txStop v ++ r.2 ++ u.2, eInval)
        | none =>
            let i := r.1.2.1
            let w := wilVringAdvanceHead
              (r.1.1.setDesc i (wilTxLastDesc (r.1.1.desc i) q.vringIndex)) (q.nrFrags + 1)
            ({ s with vring := w },
              txStop v ++ r.2 ++ [.write i, .iowriteHwtail w.hwtail w.swhead], 0)

/-! ## Cleaning up -/

/-- `wil_tx_complete` on its way through the ring. -/
structure TxCleanup where
  state : TxState
  done : ℕ
  events : List TxEvent

/-- Count a packet, or an error. -/
def TxStats.account (t : TxStats) (d : VringTxDesc) (skb : TxSkb) : TxStats :=
  if d.error = 0 then { t with txPackets := t.txPackets + 1, txBytes := t.txBytes + skb.len }
  else { t with txErrors := t.txErrors + 1 }

/-- Clear the descriptor and the context of a slot. -/
def txClearSlot (i : ℕ) (v : Vring) : Vring :=
  (v.setCtx i none).setDesc i
    { v.desc i with addrLow := 0, addrHigh := 0, length := 0, status := 0, offloadCfg := 0 }

/-- One pass of the second loop of `wil_tx_complete`; `none` is its `break`.  The source's
`nodma_comp` is set behind its only test and reset before the next, so it decides nothing. -/
def txCompleteSlot (i : ℕ) (c : TxCleanup) : Option TxCleanup :=
  let s := c.state
  let d := s.vring.desc i
  if d.eop ∧ ¬ d.du then none
  else
    match s.vring.ctx i with
    | none =>
        some ⟨{ s with vring := txClearSlot i s.vring }, c.done + 1, c.events ++ [.release i]⟩
    | some skb =>
        some ⟨{ s with
            vring := txClearSlot i s.vring
            ndevStats := s.ndevStats.account d skb
            staStats := s.staStats.account d skb },
          c.done + 1,
          c.events ++ [dmaUnmap (s.cb skb.id) i d, .kfreeSkb skb, .release i]⟩

/-- `swtail_to_rel`: the last descriptor of the ring that the hardware has marked. -/
def swtailToRel (v : Vring) : ℕ :=
  (Circular.loop v.size v.swhead (fun i rel => some (if (v.desc i).du then i else rel))
    v.size v.swtail v.swtail).2

/-- `wil_tx_complete`; the result is the number of descriptors cleared. -/
def wilTxComplete (s : TxState) : TxState × List TxEvent × ℕ :=
  if ¬ s.vring.va then (s, [], 0)
  else
    let p := Circular.loop s.vring.size (swtailToRel s.vring) txCompleteSlot s.vring.size
      s.vring.swtail ⟨s, 0, []⟩
    let v := { p.2.state.vring with swtail := p.1 }
    ({ p.2.state with vring := v },
      p.2.events ++ txWake v, p.2.done)

end Wil6210
