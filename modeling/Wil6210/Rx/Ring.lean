import Wil6210.Lib.Circular
import Wil6210.Rx.Reorder

/-!
# The Rx descriptor ring

The receive half of `txrx.c`: `wil_rx_refill` posts empty buffers at `swtail`, the hardware fills
them and sets the DU bit, `wil_vring_reap_rx` takes the buffer at `swhead` back.

The arrays `va[size]` and `ctx[size]` are functions of the index, as in the Tx ring.  A buffer is
known by the number of its allocation.  Every call of `dev_alloc_skb` and of `dma_map_single` has
its outcome as an input; an address that the DMA API gives out is one that the device can reach,
and the descriptor has 48 bits for it.

The radiotap header of the monitor mode and the statistics of the last rate are left out.
-/

namespace Wil6210

/-! ## Buffers and descriptors -/

/-- `RX_BUF_LEN` -/
def rxBufLen : ℕ := 2048

/-- `RX_DMA_STATUS_DU` -/
def rxDmaStatusDu : ℕ := bit 0

/-- `RX_DMA_STATUS_L4_IDENT` -/
def rxDmaStatusL4Ident : ℕ := bit 5

/-- `RX_DMA_ERROR_L4_ERR` -/
def rxDmaErrorL4Err : ℕ := bit 5

/-- `RX_DMA_D0_CMD_DMA_IT` -/
def rxDmaD0CmdDmaIt : ℕ := bit 10

/-- `IEEE80211_FTYPE_DATA` -/
def ieee80211FtypeData : ℕ := 8

/-- `ETH_HLEN` -/
def ethHlen : ℕ := 14

/-- `struct vring_rx_desc` as it lies in the ring, with its DMA part. -/
structure RxRingDesc where
  macD0 : ℕ
  macD1 : ℕ
  d0 : ℕ
  addrLow : ℕ
  addrHigh : ℕ
  error : ℕ
  status : ℕ
  length : ℕ
  deriving DecidableEq, Repr

/-- What the reorder path reads of it. -/
def RxRingDesc.toVringRxDesc (d : RxRingDesc) : VringRxDesc := ⟨d.macD0⟩

def wilRxdescFtype (d : RxRingDesc) : ℕ := wilGetBits d.macD0 10 11
def wilRxdescDsBits (d : RxRingDesc) : ℕ := wilGetBits d.macD1 8 9

/-- `d->dma.status & RX_DMA_STATUS_DU` -/
def RxRingDesc.du (d : RxRingDesc) : Prop := d.status &&& rxDmaStatusDu ≠ 0

instance RxRingDesc.decidableDu (d : RxRingDesc) : Decidable d.du := inferInstanceAs (Decidable (_ ≠ _))

/-- `d->dma.addr_low | ((u64)d->dma.addr_high << 32)` -/
def RxRingDesc.pa (d : RxRingDesc) : ℕ := d.addrLow ||| (d.addrHigh <<< 32)

/-- An Rx `struct sk_buff`: the number of its allocation, `len`, what the hardware wrote to it, the
descriptor in its `cb`, and whether `ip_summed` is `CHECKSUM_UNNECESSARY`. -/
structure RxBuf where
  id : ℕ
  len : ℕ
  data : List UInt8
  rxdesc : Option RxRingDesc
  csumUnnecessary : Bool
  deriving DecidableEq, Repr

/-- The outcome of `dev_alloc_skb` and of `dma_map_single` for one buffer. -/
inductive RxAlloc
  | noSkb
  | noMapping
  | mapped (pa : Fin (2 ^ 48))
  deriving DecidableEq, Repr

/-- `struct vring` of the Rx ring; `va` is whether `vring->va` is there, `desc` is what it points
to. -/
structure RxVring where
  va : Bool
  desc : ℕ → RxRingDesc
  size : ℕ
  swtail : ℕ
  swhead : ℕ
  hwtail : ℕ
  ctx : ℕ → Option RxBuf

/-- What the receive path of the driver runs on: the ring, and how many buffers were ever asked
for. -/
structure RxState where
  vring : RxVring
  allocs : ℕ

/-- What the Rx ring code does outside of the ring. -/
inductive RxRingEvent
  | dmaMapSingle (pa length : ℕ)
  | dmaUnmapSingle (pa length : ℕ)
  /-- `vring->ctx[i] = skb`, with the address in the descriptor -/
  | post (id pa : ℕ)
  | kfreeSkb (id : ℕ)
  /-- `iowrite32(v->swtail, wil->csr + HOSTADDR(v->hwtail))` -/
  | iowriteHwtail (hwtail swtail : ℕ)
  deriving DecidableEq, Repr

/-! ## The ring -/

/-- `vring->va[i].rx = d` -/
def RxVring.setDesc (v : RxVring) (i : ℕ) (d : RxRingDesc) : RxVring :=
  { v with desc := Function.update v.desc i d }

/-- `vring->ctx[i] = skb` -/
def RxVring.setCtx (v : RxVring) (i : ℕ) (skb : Option RxBuf) : RxVring :=
  { v with ctx := Function.update v.ctx i skb }

/-- `wil_vring_is_empty` -/
def RxVring.isEmpty (v : RxVring) : Prop := v.swhead = v.swtail

instance (v : RxVring) : Decidable v.isEmpty := inferInstanceAs (Decidable (_ = _))

/-- `wil_vring_next_tail` -/
def RxVring.nextTail (v : RxVring) : ℕ := (v.swtail + 1) % v.size

/-- `wil_vring_alloc`; `allocOk` is the outcome of the two allocations. -/
def rxVringAlloc (allocOk : Bool) (v : RxVring) : RxVring × ℤ :=
  if allocOk then
    ({ v with
        va := true
        swhead := 0
        swtail := 0
        ctx := fun _ => none
        desc := fun i => { v.desc i with status := rxDmaStatusDu } }, 0)
  else ({ v with va := false, swhead := 0, swtail := 0, ctx := fun _ => none }, eNomem)

/-- One pass of the Rx branch of `wil_vring_free`, over slot `i`.  The descriptor is the one at
`swtail`, in every pass. -/
def rxVringFreeSlot (i : ℕ) (p : RxVring × List RxRingEvent) :
    Option (RxVring × List RxRingEvent) :=
  let d := p.1.desc p.1.swtail
  let kfree := match p.1.ctx i with
    | some skb => [RxRingEvent.kfreeSkb skb.id]
    | none => []
  some (p.1, p.2 ++ .dmaUnmapSingle d.pa d.length :: kfree)

/-- `wil_vring_free` of an Rx ring. -/
def rxVringFree (v : RxVring) : RxVring × List RxRingEvent :=
  let p := Circular.loop v.size v.swtail rxVringFreeSlot v.size v.swhead (v, [])
  ({ p.2.1 with swhead := p.1, va := false, ctx := fun _ => none }, p.2.2)

/-- How many buffers are posted. -/
def RxVring.used (v : RxVring) : ℕ := Circular.dist v.size v.swhead v.swtail

/-- The slots of `[swhead, swtail)`. -/
def RxVring.postedSlots (v : RxVring) : List ℕ := Circular.slots v.size v.swhead v.used

/-- The buffers in the posted slots, each with the address that the descriptor holds. -/
def RxVring.held (v : RxVring) : List (ℕ × ℕ) :=
  v.postedSlots.filterMap fun i => (v.ctx i).map fun skb => (skb.id, (v.desc i).pa)

/-! ## Posting buffers -/

/-- The descriptor of an empty buffer, owned by the hardware. -/
def rxPostDesc (d : RxRingDesc) (pa : ℕ) : RxRingDesc :=
  { d with
    d0 := bit 9 ||| rxDmaD0CmdDmaIt
    addrLow := pa % 2 ^ 32
    addrHigh := u16 (pa >>> 32)
    status := 0
    length := rxBufLen }

/-- `wil_vring_alloc_skb` -/
def wilVringAllocSkb (s : RxState) (i : ℕ) (outcome : RxAlloc) :
    RxState × List RxRingEvent × ℤ :=
  let t := { s with allocs := s.allocs + 1 }
  match outcome with
  | .noSkb => (t, [], eNomem)
  | .noMapping => (t, [.kfreeSkb s.allocs], eNomem)
  | .mapped pa =>
      ({ t with
          vring := (s.vring.setDesc i (rxPostDesc (s.vring.desc i) pa)).setCtx i
            (some ⟨s.allocs, rxBufLen, [], none, false⟩) },
        [.dmaMapSingle pa rxBufLen, .post s.allocs pa], 0)

/-- The loop of `wil_rx_refill`; `outcome` is asked by the number of the allocation. -/
def rxRefillLoop (outcome : ℕ → RxAlloc) : ℕ → RxState → RxState × List RxRingEvent × ℤ
  | 0, s => (s, [], 0)
  | n + 1, s =>
      if s.vring.nextTail = s.vring.swhead then (s, [], 0)
      else
        let r := wilVringAllocSkb s s.vring.swtail (outcome s.allocs)
        if r.2.2 ≠ 0 then r
        else
          let q := rxRefillLoop outcome n
            { r.1 with vring := { r.1.vring with swtail := s.vring.nextTail } }
          (q.1, r.2.1 ++ q.2.1, q.2.2)

/-- `wil_rx_refill` -/
def wilRxRefill (s : RxState) (count : ℤ) (outcome : ℕ → RxAlloc) :
    RxState × List RxRingEvent × ℤ :=
  let r := rxRefillLoop outcome count.toNat s
  (r.1, r.2.1 ++ [.iowriteHwtail r.1.vring.hwtail r.1.vring.swtail], r.2.2)

/-! ## Taking buffers back -/

/-- The `struct net_device`, as far as the Rx ring code reads it: whether `type` is `ARPHRD_ETHER`,
and whether `NETIF_F_RXCSUM` is on. -/
structure RxNdev where
  ether : Bool
  rxcsum : Bool
  deriving DecidableEq, Repr

/-- `wil_swap_ethaddr` -/
def wilSwapEthaddr (data : List UInt8) : List UInt8 :=
  (data.drop 6).take 6 ++ data.take 6 ++ data.drop 12

/-- The buffer that the hardware filled: trimmed to the length of the descriptor, which is copied
to its `cb`. -/
def rxTrim (skb : RxBuf) (d : RxRingDesc) : RxBuf :=
  { skb with len := min skb.len d.length, rxdesc := some d }

/-- The end of `wil_vring_reap_rx`: what the caller gets of a data frame. -/
def rxAccept (ndev : RxNdev) (skb : RxBuf) (d : RxRingDesc) : RxBuf :=
  -- HW bug - in ToDS mode, addresses get swapped
  let skb := if wilRxdescDsBits d = 1 then { skb with data := wilSwapEthaddr skb.data } else skb
  if ndev.rxcsum ∧ d.status &&& rxDmaStatusL4Ident ≠ 0 ∧ d.error &&& rxDmaErrorL4Err = 0 then
    { skb with csumUnnecessary := true }
  else skb

/-- `wil_vring_reap_rx` -/
def wilVringReapRx (ndev : RxNdev) (s : RxState) :
    RxState × List RxRingEvent × Option RxBuf :=
  let v := s.vring
  let d := v.desc v.swhead
  if v.isEmpty then (s, [], none)
  -- it is not error, we just reached end of Rx done area
  else if ¬ d.du then (s, [], none)
  else
    match v.ctx v.swhead with
    -- no posted slot is without a buffer, by `RxRingInv`
    | none => (s, [], none)
    | some skb =>
        let skb := rxTrim skb d
        let t := { s with
          vring := { v.setCtx v.swhead none with swhead := (v.swhead + 1) % v.size } }
        let unmap := RxRingEvent.dmaUnmapSingle d.pa rxBufLen
        -- no extra checks if in sniffer mode
        if ¬ ndev.ether then (t, [unmap], some skb)
        else if wilRxdescFtype d <<< 2 ≠ ieee80211FtypeData then
          (t, [unmap, .kfreeSkb skb.id], none)
        else if skb.len < ethHlen then (t, [unmap, .kfreeSkb skb.id], none)
        else (t, [unmap], some (rxAccept ndev skb d))

/-! ## The life of the ring -/

/-- The outcome of the WMI call of `wmi_rx_chain_add`: its return code, and the status and the tail
pointer of the reply. -/
structure RxChainReply where
  rc : ℤ
  status : ℕ
  rxRingTailPtr : ℕ
  deriving DecidableEq, Repr

/-- `WMI_CFG_RX_CHAIN_SUCCESS` -/
def wmiCfgRxChainSuccess : ℕ := 1

/-- `wmi_rx_chain_add` -/
def wmiRxChainAdd (v : RxVring) (reply : RxChainReply) : RxVring × ℤ :=
  if reply.rc ≠ 0 then (v, reply.rc)
  else
    ({ v with hwtail := reply.rxRingTailPtr },
      if reply.status ≠ wmiCfgRxChainSuccess then eInval else 0)

/-- `WIL6210_RX_RING_SIZE` -/
def wil6210RxRingSize : ℕ := 128

/-- `wil_rx_init` -/
def wilRxInit (s : RxState) (allocOk : Bool) (reply : RxChainReply) (outcome : ℕ → RxAlloc) :
    RxState × List RxRingEvent × ℤ :=
  let a := rxVringAlloc allocOk { s.vring with size := wil6210RxRingSize }
  if a.2 ≠ 0 then ({ s with vring := a.1 }, [], a.2)
  else
    let c := wmiRxChainAdd a.1 reply
    if c.2 ≠ 0 then
      let f := rxVringFree c.1
      ({ s with vring := f.1 }, f.2, c.2)
    else
      let r := wilRxRefill { s with vring := c.1 } c.1.size outcome
      if r.2.2 ≠ 0 then
        let f := rxVringFree r.1.vring
        ({ r.1 with vring := f.1 }, r.2.1 ++ f.2, r.2.2)
      else r

/-- `wil_rx_fini` -/
def wilRxFini (s : RxState) : RxState × List RxRingEvent :=
  if s.vring.va then
    let f := rxVringFree s.vring
    ({ s with vring := f.1 }, f.2)
  else (s, [])

end Wil6210
