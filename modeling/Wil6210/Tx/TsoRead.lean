import Wil6210.Tx.TsoFrames

/-!
# What the hardware reads of a packet with segmentation offload

Behind the loops `wil_tx_vring_tso` closes the last chunk, gives its last segment a type of its own,
and stores in the headers how many descriptors there are.  `Framed.shows_posted` says what the
descriptors show then.

`tsoFramed` is what the hardware reads, of a packet in at most 255 descriptors.  The headers count all
of them in a field of eight bits, and nothing limits a packet to what the field can hold but the room
on the ring: `tsoCountsFit_iff`.
-/

namespace Wil6210

variable {q : TsoRequest} {s : TxState} {v w : Vring} {t : TsoState} {cs : List TsoCall} {j : ℕ}

/-! ## The end of a packet -/

/-- The last chunk of a packet, with the type of its last segment. -/
def lastChunk (extra : ℕ) (chunk : List TsoFrame) : List TsoFrame :=
  (closeChunk extra chunk).modify (chunk.length - 1) TsoFrame.setLast

/-- The type is all that is different. -/
lemma getElem?_lastChunk {extra : ℕ} {chunk : List TsoFrame} {f : TsoFrame}
    (h : (lastChunk extra chunk)[j]? = some f) : ∃ g, (closeChunk extra chunk)[j]? = some g ∧
      f.len = g.len ∧ f.eop = g.eop ∧ f.count = g.count ∧
      f.segment = if j + 1 = chunk.length then 3 else g.segment := by
  rw [lastChunk, List.getElem?_modify, Option.map_eq_map, Option.map_eq_some_iff] at h
  obtain ⟨g, hg, rfl⟩ := h
  obtain ⟨hlt, -⟩ := List.getElem?_eq_some_iff.mp hg
  rw [length_closeChunk] at hlt
  refine ⟨g, hg, ?_⟩
  by_cases hj : chunk.length - 1 = j
  · rw [if_pos hj, if_pos (show j + 1 = chunk.length by omega)]
    exact ⟨rfl, rfl, rfl, rfl⟩
  · rw [if_neg hj, if_neg (show ¬ j + 1 = chunk.length by omega)]
    exact ⟨rfl, rfl, rfl, rfl⟩

@[simp] lemma length_lastChunk (extra : ℕ) (chunk : List TsoFrame) :
    (lastChunk extra chunk).length = chunk.length := by
  simp [lastChunk]

namespace Framed

variable {closed : List (List TsoFrame)} {chunk : List TsoFrame}

/-- The slots of a packet are different from that of its headers. -/
lemma slot_ne (h : Framed q v closed chunk cs t) (hhead : v.swhead < v.size) (hj : 0 < j)
    (hlt : j < t.descsUsed) : v.swhead ≠ (v.swhead + j) % v.size := by
  have hfits := h.fits
  exact Circular.ne_add_mod hhead hj (by omega)

/-- The stores behind the loops, where there are data: the last chunk is closed, its last segment
gets its type, and the headers get their count. -/
lemma shows_finish (h : Framed q v closed chunk cs t) (hhead : v.swhead < v.size)
    (hne : chunk ≠ []) : ShowsFrom v (t.finish q v.swhead)
        (closed.flatten ++ lastChunk (if closed = [] then 1 else 0) chunk) ∧
      ((t.finish q v.swhead).desc v.swhead).Shows ⟨true, t.descsUsed, 0, q.hdrlen⟩ := by
  have hpos : 0 < chunk.length := List.length_pos_iff.mpr hne
  have hfits := h.fits
  have hused := h.used
  obtain ⟨hlastSlot, hcount, -⟩ := t.endChunk_keeps q
  have hlen : (closed.flatten ++ closeChunk (if closed = [] then 1 else 0) chunk).length
      = closed.flatten.length + chunk.length := by
    rw [List.length_append, length_closeChunk]
  have hlen' : (closed.flatten ++ chunk).length = closed.flatten.length + chunk.length :=
    List.length_append
  have hshows := h.shows_endChunk hne
  have hlast := hshows.modify (j := closed.flatten.length + (chunk.length - 1)) (by omega)
    (by omega) (g := TsoFrame.setLast) fun f hf => (hshows _ f hf).lastSegment (by
      have hsegment := (h.frames_closeChunk hf).2.2.2
      split_ifs at hsegment <;> omega)
  have hslot : (v.swhead + (closed.flatten.length + (chunk.length - 1) + 1)) % v.size
      = (t.endChunk q).i := by
    rw [hlastSlot, h.last, hlen']
    congr 2
    omega
  rw [modify_append, hslot] at hlast
  refine ⟨hlast.setHeader hhead ?_, ?_⟩
  · rw [List.length_append, List.length_modify, length_closeChunk]
    omega
  · have hheader := h.header_endChunk hhead hne
    have hi : v.swhead ≠ (t.endChunk q).i := by
      rw [hlastSlot, h.last]
      exact h.slot_ne hhead (by omega) (by omega)
    simp only [TsoState.finish, Vring.setDesc, Function.update_self, Function.update_of_ne hi,
      hcount]
    exact hheader.setCount rfl _

/-- Without data, they are stores to the headers. -/
lemma shows_finish_empty (h : Framed q v [] [] cs t) (hhead : v.swhead < v.size) :
    ((t.finish q v.swhead).desc v.swhead).Shows ⟨true, t.descsUsed, 3, q.hdrlen⟩ := by
  have hi : t.i = v.swhead := by
    rw [h.last]
    exact Nat.mod_eq_of_lt hhead
  have hlast := (h.header.last q.vringIndex).lastSegment (show 0 < 4 by norm_num)
  have hend := hlast.setCount rfl t.descsUsed
  simpa [TsoState.finish, TsoState.endChunk, h.sgDesc, hi, Vring.setDesc] using hend

end Framed

/-! ## What the hardware reads -/

/-- The descriptors that a call posted, the headers included: one reference is taken for each. -/
def postedDescs (s : TxState) (q : TsoRequest) : ℕ :=
  taken (fun _ => true) (wilTxVringTso s q).2.1

/-- The descriptor at `j` behind the head, as the call leaves it. -/
def descBehind (s : TxState) (q : TsoRequest) (j : ℕ) : VringTxDesc :=
  (wilTxVringTso s q).1.vring.desc ((s.vring.swhead + j) % s.vring.size)

/-- What the hardware reads of the data descriptors, in order. -/
def dataFrames (s : TxState) (q : TsoRequest) : List TsoFrame :=
  (List.range (postedDescs s q - 1)).map fun j => (descBehind s q (j + 1)).frame

/-- The frames, cut after each one that is marked. -/
def chunksOf (frames : List TsoFrame) : List (List TsoFrame) :=
  frames.splitBy fun f _ => !f.eop

/-- **What must hold** of the descriptors of a packet. -/
structure TsoFramed (s : TxState) (q : TsoRequest) : Prop where
  header : (descBehind s q 0).eop ∧ (descBehind s q 0).numOfDescriptors = postedDescs s q
  full : ∀ chunk ∈ (chunksOf (dataFrames s q)).dropLast,
    (chunk.map TsoFrame.len).sum = q.gsoSize
  last : ∀ chunk ∈ (chunksOf (dataFrames s q)).getLast?,
    1 ≤ (chunk.map TsoFrame.len).sum ∧ (chunk.map TsoFrame.len).sum ≤ q.gsoSize
  eop : ∀ chunk ∈ chunksOf (dataFrames s q), ∀ (i : ℕ) (h : i < chunk.length),
    chunk[i].eop = true ↔ i + 1 = chunk.length
  count : ∀ k chunk f, (chunksOf (dataFrames s q))[k]? = some chunk → chunk[0]? = some f →
    f.count = chunk.length + if k = 0 then 1 else 0
  segment : ∀ j f, (dataFrames s q)[j]? = some f →
    f.segment = if j + 1 = (dataFrames s q).length then 3 else if j = 0 then 1 else 2

/-- Descriptors that show frames are read as them, where counts and lengths fit. -/
lemma ShowsFrom.read {frames : List TsoFrame} (h : ShowsFrom v w frames)
    (hfit : ∀ f ∈ frames, f.count < 2 ^ 8 ∧ f.len < 2 ^ 16) :
    ((List.range frames.length).map fun j => (w.desc ((v.swhead + (j + 1)) % v.size)).frame)
      = frames := by
  refine List.ext_getElem (by simp) fun j hj hj' => ?_
  obtain ⟨hcount, hlen⟩ := hfit _ (List.getElem_mem hj')
  rw [List.getElem_map, List.getElem_range]
  exact (h j _ (List.getElem?_eq_getElem hj')).frame_eq hcount hlen

namespace Framed

variable {closed : List (List TsoFrame)} {chunk : List TsoFrame}

/-- The frames of the packet in the end. -/
lemma frames_lastChunk (h : Framed q v closed chunk cs t) {f : TsoFrame}
    (hf : (closed.flatten ++ lastChunk (if closed = [] then 1 else 0) chunk)[j]? = some f) :
    0 < f.len ∧ f.len ≤ q.gsoSize ∧ f.count ≤ t.descsUsed ∧
      (chunk ≠ [] → f.segment = if j + 1 = (closed.flatten ++ chunk).length then 3
        else if j = 0 then 1 else 2) := by
  rcases Nat.lt_or_ge j closed.flatten.length with hold | hnew
  · rw [List.getElem?_append_left hold] at hf
    obtain ⟨hpos, hle, hcount, hsegment⟩ := h.frames j f (by
      rw [List.getElem?_append_left hold, hf])
    refine ⟨hpos, hle, hcount, fun hne => ?_⟩
    have hchunk := List.length_pos_iff.mpr hne
    rw [if_neg (by rw [List.length_append]; omega), hsegment]
  · rw [List.getElem?_append_right hnew] at hf
    obtain ⟨g, hg, hlen, -, hcnt, hseg⟩ := getElem?_lastChunk hf
    obtain ⟨hpos, hle, hcount, hsegment⟩ := h.frames_closeChunk (j := j) (f := g) (by
      rw [List.getElem?_append_right hnew, hg])
    rw [hlen, hcnt]
    refine ⟨hpos, hle, hcount, fun hne => ?_⟩
    rw [hseg, hsegment, List.length_append]
    congr 1
    rw [eq_iff_iff]
    omega

/-- The last chunk in the end. -/
lemma marked_lastChunk (h : Framed q v closed chunk cs t) (hne : chunk ≠ []) :
    Segments.Marked TsoFrame.eop (lastChunk (if closed = [] then 1 else 0) chunk) := by
  obtain ⟨-, hmark⟩ : Segments.Marked TsoFrame.eop
      (closeChunk (if closed = [] then 1 else 0) chunk) :=
    marked_closeChunk hne fun f hf => (h.isOpen f hf).1
  refine ⟨fun hnil => hne ?_, fun j hj => ?_⟩
  · rwa [← List.length_eq_zero_iff, length_lastChunk, List.length_eq_zero_iff] at hnil
  · obtain ⟨g, hg, -, heop, -⟩ := getElem?_lastChunk (List.getElem?_eq_getElem hj)
    obtain ⟨hlt, rfl⟩ := List.getElem?_eq_some_iff.mp hg
    rw [heop, hmark j hlt, length_closeChunk, length_lastChunk]

/-- The chunks in the end, each marked at its last frame. -/
lemma marked_chunks (h : Framed q v closed chunk cs t) (hne : chunk ≠ []) :
    ∀ c ∈ closed ++ [lastChunk (if closed = [] then 1 else 0) chunk],
      Segments.Marked TsoFrame.eop c := by
  intro c hc
  rcases List.mem_append.mp hc with hold | hnew
  · obtain ⟨k, hk⟩ := List.getElem?_of_mem hold
    exact (h.isClosed k c hk).marked
  · obtain rfl := List.mem_singleton.mp hnew
    exact h.marked_lastChunk hne

/-- The bytes of the last chunk are those of the chunk that was open. -/
lemma sum_lastChunk (extra : ℕ) (chunk : List TsoFrame) :
    ((lastChunk extra chunk).map TsoFrame.len).sum = (chunk.map TsoFrame.len).sum := by
  rw [← sum_closeChunk extra chunk]
  congr 1
  refine List.ext_getElem (by simp) fun j hj hj' => ?_
  rw [List.length_map] at hj hj'
  obtain ⟨g, hg, hlen, -⟩ := getElem?_lastChunk (List.getElem?_eq_getElem hj)
  obtain ⟨_, rfl⟩ := List.getElem?_eq_some_iff.mp hg
  simpa using hlen

/-- The counts that are stored are those of the frames in the end. -/
lemma stored_lastChunk (h : Framed q v closed chunk cs t) {slot cnt : ℕ}
    (hmem : (slot, cnt) ∈ storedCounts (cs ++ t.endChunkCalls)) :
    ∃ j f, (closed.flatten ++ lastChunk (if closed = [] then 1 else 0) chunk)[j]? = some f ∧
      slot = (v.swhead + (j + 1)) % v.size ∧ f.count = cnt := by
  by_cases hne : chunk = []
  · have hnone : t.endChunkCalls = [] := by
      rw [TsoState.endChunkCalls, h.sgDesc, if_pos hne]
    rw [hnone, List.append_nil] at hmem
    obtain ⟨j, f, hf, hslot, hcnt⟩ := h.stored slot cnt hmem
    obtain ⟨hlt, -⟩ := List.getElem?_eq_some_iff.mp hf
    exact ⟨j, f, by rw [List.getElem?_append_left hlt, hf], hslot, hcnt⟩
  · obtain ⟨j, f, hf, hslot, hcnt⟩ := h.stored_closeChunk hne hmem
    obtain ⟨hlt, -⟩ := List.getElem?_eq_some_iff.mp hf
    rw [List.length_append, length_closeChunk] at hlt
    have hlast := List.getElem?_eq_getElem (l := closed.flatten ++ lastChunk (if closed = [] then 1
      else 0) chunk) (i := j) (by rwa [List.length_append, length_lastChunk])
    refine ⟨j, _, hlast, hslot, ?_⟩
    rw [← hcnt]
    rcases Nat.lt_or_ge j closed.flatten.length with hold | hnew
    · rw [List.getElem?_append_left hold] at hf
      rw [List.getElem?_append_left hold, hf] at hlast
      exact congrArg TsoFrame.count (Option.some.inj hlast).symm
    · rw [List.getElem?_append_right hnew] at hf hlast
      obtain ⟨g, hg, -, -, hcount, -⟩ := getElem?_lastChunk hlast
      rw [hcount, Option.some.inj (hg.symm.trans hf)]

/-- What the descriptors show in the end. -/
lemma shows_posted (h : Framed q v closed chunk cs t) (hhead : v.swhead < v.size)
    (hempty : chunk = [] → closed = []) : ShowsFrom v (t.finish q v.swhead)
        (closed.flatten ++ lastChunk (if closed = [] then 1 else 0) chunk) ∧
      ∃ segment, ((t.finish q v.swhead).desc v.swhead).Shows
        ⟨true, t.descsUsed, segment, q.hdrlen⟩ := by
  by_cases hne : chunk = []
  · obtain rfl := hempty hne
    subst hne
    exact ⟨fun j f hf => absurd hf (by simp [lastChunk, closeChunk]), 3,
      h.shows_finish_empty hhead⟩
  · obtain ⟨hshows, hheader⟩ := h.shows_finish hhead hne
    exact ⟨hshows, 0, hheader⟩

end Framed

/-- A call that returns 0, with the chunks behind its loops. -/
lemma framed_of_posted (hrc : (wilTxVringTso s q).2.2 = 0) (hhead : s.vring.swhead < s.vring.size)
    (hgso : 0 < q.gsoSize) (hlinear : q.linear ≤ q.gsoSize) : ∃ pa t closed chunk,
      q.Accepts s.vring pa ∧ tsoPieces q s.vring pa = (t, true) ∧ (chunk = [] → closed = []) ∧
      Framed q s.vring closed chunk (tsoPiecesCalls q s.vring pa) t ∧
      postedDescs s q = t.descsUsed ∧ ∀ j, descBehind s q j
        = (t.finish q s.vring.swhead).desc ((s.vring.swhead + j) % s.vring.size) := by
  obtain ⟨pa, t, haccepts, hpieces⟩ := accepts_of_posted hrc
  obtain ⟨closed, chunk, hempty, hframed⟩ :=
    framed_tsoPieces hgso hhead haccepts hlinear hpieces
  obtain ⟨-, hvring, htaken⟩ := wilTxVringTso_posted haccepts hpieces
  refine ⟨pa, t, closed, chunk, haccepts, hpieces, hempty, hframed, ?_, fun j => ?_⟩
  · have hused := taken_tsoPieces q s.vring pa
    rw [hpieces] at hused
    rw [postedDescs, htaken, hused]
  · rw [descBehind, hvring]
    rfl

/-- A packet with data has a piece behind its headers, so a chunk. -/
lemma Framed.chunk_ne_nil {closed : List (List TsoFrame)} {chunk : List TsoFrame} {pa : ℕ}
    (h : Framed q v closed chunk (tsoPiecesCalls q v pa) t) (haccepts : q.Accepts v pa)
    (hpieces : tsoPieces q v pa = (t, true)) (hhead : v.swhead < v.size) (hgso : 0 < q.gsoSize)
    (hlinear : q.linear ≤ q.gsoSize) (hempty : chunk = [] → closed = [])
    (hdata : 0 < q.linear + q.skb.frags.sum) : chunk ≠ [] := by
  intro hchunk
  obtain ⟨⟨-, data, hmapped, hcons, -⟩, -⟩ := covered_tsoPieces hgso hlinear hpieces
  have hcount := (piecesHeld_tsoPieces hhead haccepts.room hpieces).used
  rw [h.used, hmapped, hchunk, hempty hchunk] at hcount
  obtain rfl : data = [] := List.eq_nil_of_length_eq_zero (by simpa using hcount.symm)
  have hstart : (q.dataStart : ℤ) = (q.dataStart + (q.linear + q.skb.frags.sum) : ℕ) := hcons
  omega

/-- What the hardware reads behind the headers, and the chunks that it cuts it into. -/
lemma Framed.read_posted {closed : List (List TsoFrame)} {chunk : List TsoFrame}
    (h : Framed q s.vring closed chunk cs t) (hhead : s.vring.swhead < s.vring.size)
    (hgso' : q.gsoSize < 2 ^ 16) (hne : chunk ≠ []) (hposted : postedDescs s q = t.descsUsed)
    (hfits : t.descsUsed ≤ 255) (hdesc : ∀ j, descBehind s q j
      = (t.finish q s.vring.swhead).desc ((s.vring.swhead + j) % s.vring.size)) :
    dataFrames s q = closed.flatten ++ lastChunk (if closed = [] then 1 else 0) chunk ∧
      chunksOf (dataFrames s q)
        = closed ++ [lastChunk (if closed = [] then 1 else 0) chunk] := by
  obtain ⟨hshows, -⟩ := h.shows_finish hhead hne
  set last := lastChunk (if closed = [] then 1 else 0) chunk with hlast
  have hlen : (closed.flatten ++ last).length = (closed.flatten ++ chunk).length := by
    rw [List.length_append, List.length_append, length_lastChunk]
  have hframes : dataFrames s q = closed.flatten ++ last := by
    have hread := hshows.read fun f hf => by
      obtain ⟨j, hj⟩ := List.getElem?_of_mem hf
      obtain ⟨-, hle, hcount, -⟩ := h.frames_lastChunk hj
      exact ⟨by omega, by omega⟩
    rw [← hread, dataFrames, hposted, h.used, hlen, Nat.add_sub_cancel]
    simp only [hdesc]
  refine ⟨hframes, ?_⟩
  rw [hframes, chunksOf, ← Segments.splitBy_flatten_of_marked (h.marked_chunks hne),
    List.flatten_append, List.flatten_singleton]

/-- **Framing.**  A packet with data, with a linear part of at most a segment, and posted in at most
255 descriptors, is framed as the hardware asks for. -/
theorem tsoFramed (s : TxState) (q : TsoRequest) (hrc : (wilTxVringTso s q).2.2 = 0)
    (hhead : s.vring.swhead < s.vring.size) (hgso : 0 < q.gsoSize) (hgso' : q.gsoSize < 2 ^ 16)
    (hlinear : q.linear ≤ q.gsoSize) (hdata : 0 < q.linear + q.skb.frags.sum)
    (hfits : postedDescs s q ≤ 255) : TsoFramed s q := by
  obtain ⟨pa, t, closed, chunk, haccepts, hpieces, hempty, hframed, hposted, hdesc⟩ :=
    framed_of_posted hrc hhead hgso hlinear
  have hused := hframed.used
  have hne := hframed.chunk_ne_nil haccepts hpieces hhead hgso hlinear hempty hdata
  obtain ⟨-, hheader⟩ := hframed.shows_finish hhead hne
  obtain ⟨hframes, hchunks⟩ :=
    hframed.read_posted hhead hgso' hne hposted (by omega) hdesc
  have hmarked : ∀ c ∈ chunksOf (dataFrames s q), Segments.Marked TsoFrame.eop c := by
    intro c hc
    rw [hchunks] at hc
    exact hframed.marked_chunks hne c hc
  set last := lastChunk (if closed = [] then 1 else 0) chunk with hlast
  refine ⟨?_, ?_, ?_, ?_, ?_, ?_⟩
  · have hzero : descBehind s q 0 = (t.finish q s.vring.swhead).desc s.vring.swhead := by
      rw [hdesc, Nat.add_zero, Nat.mod_eq_of_lt hhead]
    rw [hzero, hposted]
    exact ⟨hheader.eop.mpr rfl, (hheader.fields (by show t.descsUsed < 2 ^ 8; omega)).1⟩
  · intro c hc
    rw [hchunks, List.dropLast_concat] at hc
    obtain ⟨k, hk⟩ := List.getElem?_of_mem hc
    exact (hframed.isClosed k c hk).sum
  · intro c hc
    rw [hchunks, List.getLast?_concat, Option.mem_some_iff] at hc
    subst hc
    rw [hlast, Framed.sum_lastChunk]
    refine ⟨?_, hframed.sum_le⟩
    obtain ⟨f, rest, rfl⟩ := List.exists_cons_of_ne_nil hne
    have hpos := (hframed.frames closed.flatten.length f (by
      rw [List.getElem?_append_right le_rfl, Nat.sub_self, List.getElem?_cons_zero])).1
    rw [List.map_cons, List.sum_cons]
    omega
  · intro c hc i hi
    exact (hmarked c hc).2 i hi
  · intro k c f hc hf
    rw [hchunks] at hc
    obtain ⟨-, hc⟩ | ⟨rfl, rfl⟩ := getElem?_concat_cases hc
    · exact (hframed.isClosed k c hc).count f hf
    · obtain ⟨g, hg, -, -, hcount, -⟩ := getElem?_lastChunk hf
      obtain ⟨_, -, -, -, -, hclose⟩ := getElem?_closeChunk hg
      rw [hcount, hclose, if_pos rfl, length_lastChunk]
      simp only [List.length_eq_zero_iff]
  · intro j f hf
    rw [hframes] at hf ⊢
    rw [List.length_append, hlast, length_lastChunk, ← List.length_append]
    exact (hframed.frames_lastChunk hf).2.2.2 hne

/-- Headers, sixty bytes behind them and a fragment of eighty, in segments of a hundred. -/
theorem tsoFramed_eight : TsoFramed (TxSys.init blankTx 8).tx (tcpPacket 100 60 [80]) :=
  tsoFramed _ _ (by decide +kernel) (by decide +kernel) (by decide +kernel) (by decide +kernel)
    (by decide +kernel) (by decide +kernel) (by decide +kernel)

/-! ## Counts -/

/-- **What must hold** of the counts: each one that is stored fits its field and is read back, and the
reserved bits behind it stay zero. -/
structure TsoCountsFit (s : TxState) (q : TsoRequest) : Prop where
  fits : ∀ slot cnt, (slot, cnt) ∈ storedCounts (wilTxVringTsoCalls s q) → cnt < 2 ^ 8
  read : ∀ slot cnt, (slot, cnt) ∈ storedCounts (wilTxVringTsoCalls s q) →
    ((wilTxVringTso s q).1.vring.desc slot).numOfDescriptors = cnt
  reserved : ∀ j < postedDescs s q, (descBehind s q j).reserved = 0

/-- The counts of a posted packet: those of its chunks, and that of its headers. -/
lemma storedCounts_posted {pa : ℕ} (haccepts : q.Accepts s.vring pa)
    (hpieces : tsoPieces q s.vring pa = (t, true)) : storedCounts (wilTxVringTsoCalls s q)
      = storedCounts (tsoPiecesCalls q s.vring pa ++ t.endChunkCalls)
        ++ [(s.vring.swhead, t.descsUsed)] := by
  rw [wilTxVringTsoCalls_posted haccepts hpieces, ← List.append_assoc, storedCounts_append,
    storedCounts_setCount]

/-- The headers count all descriptors. -/
lemma TsoCountsFit.descsNeeded_le (h : TsoCountsFit s q) (hrc : (wilTxVringTso s q).2.2 = 0)
    (hgso : 0 < q.gsoSize) (hlinear : q.linear ≤ q.gsoSize) : q.descsNeeded ≤ 255 := by
  obtain ⟨pa, t, haccepts, hpieces⟩ := accepts_of_posted hrc
  have hneeded := (covered_tsoPieces hgso hlinear hpieces).2
  have hlt := h.fits s.vring.swhead t.descsUsed (by
    rw [storedCounts_posted haccepts hpieces]
    exact List.mem_append_right _ (List.mem_singleton.mpr rfl))
  omega

/-- **When the counts fit.**  The headers count all descriptors of a packet, so the counts fit where
the packet takes at most 255: one, and one for each segment that the linear part or a fragment has a
part of. -/
theorem tsoCountsFit_iff (s : TxState) (q : TsoRequest) (hrc : (wilTxVringTso s q).2.2 = 0)
    (hhead : s.vring.swhead < s.vring.size) (hgso : 0 < q.gsoSize)
    (hlinear : q.linear ≤ q.gsoSize) : TsoCountsFit s q ↔ q.descsNeeded ≤ 255 := by
  obtain ⟨pa, t, closed, chunk, haccepts, hpieces, hempty, hframed, hposted, hdesc⟩ :=
    framed_of_posted hrc hhead hgso hlinear
  have hneeded := (covered_tsoPieces hgso hlinear hpieces).2
  have hcalls := storedCounts_posted haccepts hpieces
  constructor
  · exact fun hfit => hfit.descsNeeded_le hrc hgso hlinear
  · intro hle
    obtain ⟨hshows, segment, hheader⟩ := hframed.shows_posted hhead hempty
    have hfields := hheader.fields (show t.descsUsed < 2 ^ 8 by omega)
    have hvring := (wilTxVringTso_posted haccepts hpieces).2.1
    have hread : ∀ slot cnt, (slot, cnt) ∈ storedCounts (wilTxVringTsoCalls s q) → cnt < 2 ^ 8 ∧
        ((wilTxVringTso s q).1.vring.desc slot).numOfDescriptors = cnt := by
      intro slot cnt hmem
      rw [hvring]
      rw [hcalls, List.mem_append, List.mem_singleton] at hmem
      rcases hmem with hmem | hmem
      · obtain ⟨j, f, hf, rfl, rfl⟩ := hframed.stored_lastChunk hmem
        have hcount := (hframed.frames_lastChunk hf).2.2.1
        have hlt : f.count < 2 ^ 8 := by omega
        exact ⟨hlt, ((hshows j f hf).fields hlt).1⟩
      · obtain ⟨rfl, rfl⟩ := Prod.mk.inj hmem
        exact ⟨by omega, hfields.1⟩
    refine ⟨fun slot cnt hmem => (hread slot cnt hmem).1, fun slot cnt hmem =>
      (hread slot cnt hmem).2, fun j hj => ?_⟩
    rw [hdesc]
    cases j with
    | zero =>
        rw [Nat.add_zero, Nat.mod_eq_of_lt hhead]
        exact hfields.2
    | succ j =>
        have hused := hframed.used
        have hlt : j < (closed.flatten
            ++ lastChunk (if closed = [] then 1 else 0) chunk).length := by
          rw [List.length_append, length_lastChunk, ← List.length_append]
          omega
        have hf := List.getElem?_eq_getElem hlt
        have hcount := (hframed.frames_lastChunk hf).2.2.1
        exact ((hshows j _ hf).fields (by omega)).2

/-- The same packet takes four descriptors. -/
theorem tsoCountsFit_eight : TsoCountsFit (TxSys.init blankTx 8).tx (tcpPacket 100 60 [80]) :=
  (tsoCountsFit_iff _ _ (by decide +kernel) (by decide +kernel) (by decide +kernel)
    (by decide +kernel)).mpr (by decide +kernel)

/-- On a ring of 512, nearly 64 KB in segments of two hundred bytes take 323 descriptors, and the
headers are to count them. -/
theorem not_tsoCountsFit : ¬ ∀ (s : TxState) (q : TsoRequest), (wilTxVringTso s q).2.2 = 0 →
    s.vring.swhead < s.vring.size → s.vring.size = 512 → q.skb.len ≤ 2 ^ 16 → 0 < q.gsoSize →
    q.linear ≤ q.gsoSize → TsoCountsFit s q := by
  intro h
  have hfit := h (TxSys.init blankTx 512).tx (tcpPacket 200 0 (List.replicate 15 4096))
    (by decide +kernel) (by decide +kernel) (by decide +kernel) (by decide +kernel)
    (by decide +kernel) (by decide +kernel)
  have hle := hfit.descsNeeded_le (by decide +kernel) (by decide +kernel) (by decide +kernel)
  exact absurd hle (by decide +kernel)

end Wil6210
