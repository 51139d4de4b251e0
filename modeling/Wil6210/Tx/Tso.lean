import Wil6210.Tx.Post

/-!
# TCP segmentation offload

`wil_tx_vring_tso` posts a packet that the hardware cuts into segments of `gso_size` bytes: a
descriptor for the headers, one for what else is in the linear part, and the fragments, each cut
where a segment is full.  Descriptors of one segment form a chunk; its first one says how many they
are and its last one is marked.

It is called for GSO packets, so `gso_size` is not zero.  A linear part longer than a segment makes
`rem_data` negative, which is why lengths are integers here.

The header fields of the packet that are zeroed for the hardware are left out.
-/

namespace Wil6210

/-! ## The request -/

/-- The outcomes of the DMA mappings of a packet: the address, or `none` where it fails. -/
structure DmaMapping where
  /-- `dma_map_single` of `len` bytes of `skb->data` from `offset` on -/
  single (offset len : ℕ) : Option ℕ
  /-- `skb_frag_dma_map` of `len` bytes of fragment `f` from `offset` on -/
  frag (f : ℕ) (offset len : ℤ) : Option ℕ

/-- One call of `wil_tx_vring_tso`. -/
structure TsoRequest where
  skb : TxSkb
  /-- `skb_shinfo(skb)->gso_size` -/
  gsoSize : ℕ
  vringIndex : ℕ
  dma : DmaMapping

namespace TsoRequest

/-- `skb_shinfo(skb)->nr_frags` -/
def nrFrags (q : TsoRequest) : ℕ := q.skb.frags.length

/-- The lengths of the MAC, the IP and the TCP header. -/
def hdrlen (q : TsoRequest) : ℕ := 0x0e + q.skb.networkHeaderLen + q.skb.tcpHdrlen

end TsoRequest

/-- `wil_set_tx_desc_count` -/
def wilSetTxDescCount (d : VringTxDesc) (cnt : ℕ) : VringTxDesc :=
  { d with macD2 := (d.macD2 &&& 0xffffff00) ||| (cnt <<< 0) }

/-! ## The pieces -/

/-- The variables of `wil_tx_vring_tso`; `i` is the slot of the last descriptor. -/
structure TsoState where
  vring : Vring
  cb : WilSkbCb
  i : ℕ
  descsUsed : ℕ
  /-- the slot of the first descriptor of the chunk -/
  sgDesc : Option ℕ
  sgDescCnt : ℕ
  remData : ℤ
  endOfFirstChunk : ℕ
  /-- whether the first data descriptor is there -/
  firstdata : Bool
  events : List TxEvent

namespace TsoState

/-- Post one mapped piece, of type `tsoDescType`, in slot `i`, with a reference to the buffer. -/
def post (q : TsoRequest) (t : TsoState) (i pa : ℕ) (len tsoDescType : ℤ) : TsoState :=
  let d := wilTxDescMap (t.vring.desc i) pa (len % 2 ^ 32).toNat q.vringIndex
  { t with
    vring := (t.vring.setDesc i (wilTxDescOffloadSetup d q.skb tsoDescType).1).setCtx i
      (some q.skb)
    i := i
    descsUsed := t.descsUsed + 1
    events := t.events ++ [.write i, .skbGet q.skb] }

/-- Mark the last descriptor of a chunk, and store the length of the chunk in its first one. -/
def endChunk (q : TsoRequest) (t : TsoState) : TsoState :=
  let v := t.vring.setDesc t.i (wilTxLastDesc (t.vring.desc t.i) q.vringIndex)
  match t.sgDesc with
  | none => { t with vring := v, events := t.events ++ [.write t.i] }
  | some j =>
      { t with
        vring := v.setDesc j (wilSetTxDescCount (v.desc j) (t.sgDescCnt + t.endOfFirstChunk))
        events := t.events ++ [.write t.i, .write j] }

/-- Begin the next chunk where a segment is full. -/
def nextChunk (q : TsoRequest) (t : TsoState) : TsoState :=
  if t.remData = 0 then
    { t.endChunk q with remData := q.gsoSize, sgDesc := none, sgDescCnt := 0, endOfFirstChunk := 0 }
  else t

end TsoState

/-- The headers, mapped at `pa`. -/
def tsoHeader (q : TsoRequest) (v : Vring) (pa : ℕ) : TsoState :=
  let t := TsoState.post q
    { vring := v
      cb := ⟨v.swhead, v.swhead⟩
      i := v.swhead
      descsUsed := 0
      sgDesc := none
      sgDescCnt := 0
      remData := q.gsoSize
      endOfFirstChunk := 1
      firstdata := false
      events := [] } v.swhead pa q.hdrlen 0
  { t with
    vring := t.vring.setDesc v.swhead (wilTxLastDesc (t.vring.desc v.swhead) q.vringIndex) }

/-- The data behind the headers, if there is any; `false` where it cannot be mapped. -/
def tsoLinear (q : TsoRequest) (swhead : ℕ) (t : TsoState) : TsoState × Bool :=
  let len := q.skb.headlen - q.hdrlen
  if len = 0 then (t, true)
  else
    match q.dma.single q.hdrlen len with
    | none => (t, false)
    | some pa =>
        let i := (swhead + 1) % t.vring.size
        ({ t.post q i pa len 1 with
            cb := { t.cb with snglMapped := i }
            sgDesc := some i
            sgDescCnt := 1
            remData := q.gsoSize - len
            firstdata := true }, true)

/-- The loop over the chunks of fragment `f` of `size` bytes, of which `len` are left; the first
argument is how many descriptors may still be used.  `false` is a failure. -/
def tsoFrag (q : TsoRequest) (swhead f : ℕ) (size : ℤ) : ℕ → ℤ → TsoState → TsoState × Bool
  | 0, len, t => if len ≤ 0 then (t, true) else (t.nextChunk q, false)
  | n + 1, len, t =>
      if len ≤ 0 then (t, true)
      else
        let t := t.nextChunk q
        let lenmss := if len > t.remData then t.remData else len
        let i := (swhead + t.descsUsed) % t.vring.size
        match q.dma.frag f (size - len) lenmss with
        | none => (t, false)
        | some pa =>
            tsoFrag q swhead f size n (len - lenmss)
              { t.post q i pa lenmss (if t.firstdata then 2 else 1) with
                sgDesc := some (t.sgDesc.getD i)
                sgDescCnt := t.sgDescCnt + 1
                remData := t.remData - lenmss
                firstdata := true }

/-- The loop over the fragments from `f` on. -/
def tsoFrags (q : TsoRequest) (swhead avail : ℕ) :
    ℕ → List ℕ → TsoState → TsoState × Bool
  | _, [], t => (t, true)
  | f, size :: sizes, t =>
      match tsoFrag q swhead f size (avail - t.descsUsed) size t with
      | (t, false) => (t, false)
      | (t, true) => tsoFrags q swhead avail (f + 1) sizes t

/-- The headers and the data; `false` is a failure. -/
def tsoPieces (q : TsoRequest) (v : Vring) (pa : ℕ) : TsoState × Bool :=
  match tsoLinear q v.swhead (tsoHeader q v pa) with
  | (t, false) => (t, false)
  | (t, true) => tsoFrags q v.swhead (wilVringAvailTx v) 0 q.skb.frags t

/-- The loop behind `dma_error`, over `descsUsed`. -/
def tsoDmaError (cb : WilSkbCb) (skb : TxSkb) (swhead : ℕ) : ℕ → Vring → Vring × List TxEvent
  | 0, v => (v, [])
  | n + 1, v =>
      let i := (swhead + (n + 1)) % v.size
      let d := { v.desc i with status := txDmaStatusDu }
      let r := tsoDmaError cb skb swhead n (v.setDesc i d)
      (r.1, .write i :: dmaUnmap cb i d :: .kfreeSkb skb :: r.2)

/-- `wil_tx_vring_tso` -/
def wilTxVringTso (s : TxState) (q : TsoRequest) : TxState × List TxEvent × ℤ :=
  let v := s.vring
  let swhead := v.swhead
  if wilVringAvailTx v < q.nrFrags * 3 + 1 then (s, txStop v, eNomem)
  else if (wilTxDescOffloadSetup (v.desc swhead) q.skb 0).2 = 0 then (s, txStop v, eInval)
  else
    match q.dma.single 0 q.hdrlen with
    | none => (s, txStop v, eInval)
    | some pa =>
        match tsoPieces q v pa with
        | (t, false) =>
            let u := tsoDmaError t.cb q.skb swhead t.descsUsed t.vring
            ({ s with vring := u.1, cb := Function.update s.cb q.skb.id t.cb },
              txStop v ++ t.events ++ u.2, eInval)
        | (t, true) =>
            let t := t.endChunk q
            let i := t.i
            let d := t.vring.desc i
            let w := t.vring.setDesc i { d with d0 := d.d0 ||| (3 <<< 11) }
            let w := w.setDesc swhead (wilSetTxDescCount (w.desc swhead) t.descsUsed)
            let w := wilVringAdvanceHead w t.descsUsed
            ({ s with vring := w, cb := Function.update s.cb q.skb.id t.cb },
              txStop v ++ t.events ++ [.write i, .write swhead, .iowriteHwtail w.hwtail w.swhead],
              0)

end Wil6210
