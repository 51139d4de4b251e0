import Wil6210.Driver.Cfg80211

/-!
# The life cycle of a scan request

A scan request is cfg80211's again when the scan call returns an error, or when
`cfg80211_scan_done` is called.  So a request that was accepted is completed once, and one that was
refused is neither completed nor kept in `wil->scan_request`.

The first half holds in every run.  The second one fails where a command of the scan call fails: a
P2P search calls `cfg80211_scan_done` with any return code, and an ordinary scan leaves its request
in `wil->scan_request`, to be completed by the next SCAN_COMPLETE or stop.  `scanLaw_iff` says that
these are the only ways.
-/

namespace Wil6210

/-! ## What became of the requests -/

/-- The event completes the request. -/
def CfgEvent.completes (id : ℕ) : CfgEvent → Bool
  | .scanDone request _ => request = id
  | _ => false

/-- The request in `wil->scan_request`, how often each request was completed, and what its call
returned. -/
structure ScanBook where
  held : Option ℕ
  completions : ℕ → ℕ
  returned : ℕ → Option ScanReturn

def CfgSys.book (s : CfgSys) : ScanBook :=
  ⟨s.wil.scanRequest, fun id => s.log.countP (CfgEvent.completes id), s.returned⟩

/-- A request whose call returned 0 is completed at most once, and exactly once when it is not held
any more.  One whose call returned an error is never completed, and the call left
`wil->scan_request` as it was. -/
def ScanBook.Law (b : ScanBook) : Prop :=
  ∀ id r, b.returned id = some r →
    (r.rc = 0 → b.completions id ≤ 1 ∧ (b.held ≠ some id → b.completions id = 1)) ∧
    (r.rc ≠ 0 → b.completions id = 0 ∧ r.after = r.before)

namespace ScanBook

/-- `cfg80211_scan_done` -/
def complete (b : ScanBook) (i : ℕ) : ScanBook :=
  { b with completions := fun id => b.completions id + if id = i then 1 else 0 }

/-- The scan call returns. -/
def ret (b : ScanBook) (i : ℕ) (r : ScanReturn) : ScanBook :=
  { b with returned := Function.update b.returned i (some r) }

/-- How many there are that complete the request, or have done so. -/
def owners (b : ScanBook) (id : ℕ) : ℕ := b.completions id + if b.held = some id then 1 else 0

/-- The requests of the calls so far have one owner each, unless their call returned an error. -/
structure Sound (b : ScanBook) (calls : ℕ) : Prop where
  fresh : ∀ id, calls ≤ id → b.returned id = none ∧ b.owners id = 0
  held : ∀ id, b.held = some id → b.completions id = 0 ∧
    ∀ r, b.returned id = some r → r.rc = 0 ∨ r.after ≠ r.before
  settled : ∀ id r, b.returned id = some r → r.rc = 0 → b.owners id = 1

variable {b : ScanBook} {calls i : ℕ} {r : ScanReturn}

/-- Only the requests that were refused can break the law. -/
lemma Sound.law_iff (h : b.Sound calls) :
    b.Law ↔ ∀ id r, b.returned id = some r → r.rc ≠ 0 →
      b.completions id = 0 ∧ r.after = r.before := by
  refine ⟨fun hl id r hr => (hl id r hr).2, fun hl id r hr => ⟨fun hrc => ?_, hl id r hr⟩⟩
  have hone := h.settled id r hr hrc
  simp only [owners] at hone
  refine ⟨by omega, fun hne => ?_⟩
  rw [if_neg hne] at hone
  omega

/-- The completion takes the place of the holder. -/
lemma owners_release (hheld : b.held = some i) (id : ℕ) :
    ({ b.complete i with held := none } : ScanBook).owners id = b.owners id := by
  simp only [owners, complete, hheld, Option.some.injEq, eq_comm (a := i), reduceCtorEq, if_false,
    Nat.add_zero]

/-- A request that is held is completed. -/
lemma Sound.release (h : b.Sound calls) (hheld : b.held = some i) :
    ({ b.complete i with held := none } : ScanBook).Sound calls ∧
      (({ b.complete i with held := none } : ScanBook).Law ↔ b.Law) := by
  have howners := owners_release hheld
  have hsound : ({ b.complete i with held := none } : ScanBook).Sound calls := by
    refine ⟨fun id hid => ?_, by simp, fun id r hr hrc => ?_⟩
    · exact ⟨(h.fresh id hid).1, (howners id).trans (h.fresh id hid).2⟩
    · exact (howners id).trans (h.settled id r hr hrc)
  refine ⟨hsound, ?_⟩
  rw [hsound.law_iff, h.law_iff]
  refine forall_congr' fun id => forall_congr' fun r => imp_congr_right fun hr =>
    imp_congr_right fun hrc => ?_
  by_cases hid : id = i
  · subst hid
    obtain ⟨-, hafter⟩ := h.held id hheld
    have hne := (hafter r hr).resolve_left hrc
    exact ⟨fun hl => absurd hl.2 hne, fun hl => absurd hl.2 hne⟩
  · simp [complete, hid]

/-- A call completes its request before it returns. -/
lemma Sound.complete (h : b.Sound calls) (hi : i < calls) (hnew : b.returned i = none)
    (hheld : b.held = none) :
    (b.complete i).Sound calls ∧ ((b.complete i).Law ↔ b.Law) := by
  have hother : ∀ id, id ≠ i → (b.complete i).completions id = b.completions id := by
    intro id hid
    simp [ScanBook.complete, hid]
  have hne : ∀ id r', b.returned id = some r' → id ≠ i := by
    rintro id r' hr' rfl
    simp [hnew] at hr'
  have hsound : (b.complete i).Sound calls := by
    refine ⟨fun id hid => ⟨(h.fresh id hid).1, ?_⟩, fun id hid => ?_, fun id r' hr' hrc => ?_⟩
    · have hid' : id ≠ i := by omega
      have hzero := (h.fresh id hid).2
      simp only [owners, hother id hid'] at hzero ⊢
      exact hzero
    · exact absurd (hheld.symm.trans hid) (by simp)
    · have hone := h.settled id r' hr' hrc
      simp only [owners, hother id (hne id r' hr')] at hone ⊢
      exact hone
  refine ⟨hsound, ?_⟩
  rw [hsound.law_iff, h.law_iff]
  refine forall_congr' fun id => forall_congr' fun r' => imp_congr_right fun hr' => ?_
  rw [hother id (hne id r' hr')]

/-- A call returns. -/
lemma Sound.return (h : b.Sound calls) (hi : i < calls) (hnew : b.returned i = none)
    (hrc : r.rc = 0 → b.owners i = 1)
    (hheld : b.held = some i → b.completions i = 0 ∧ (r.rc = 0 ∨ r.after ≠ r.before)) :
    (b.ret i r).Sound calls ∧
      ((b.ret i r).Law ↔ b.Law ∧
        (r.rc ≠ 0 → b.completions i = 0 ∧ r.after = r.before)) := by
  have hret : ∀ id r', (b.ret i r).returned id = some r' ↔
      (id = i ∧ r = r') ∨ (id ≠ i ∧ b.returned id = some r') := by
    intro id r'
    simp only [ret, Function.update_apply]
    by_cases hid : id = i <;> simp [hid]
  have hsound : (b.ret i r).Sound calls := by
    refine ⟨fun id hid => ?_, fun id hid => ?_, fun id r' hr' hrc' => ?_⟩
    · refine ⟨?_, (h.fresh id hid).2⟩
      have hne : id ≠ i := by omega
      simpa [ret, hne] using (h.fresh id hid).1
    · by_cases hne : id = i
      · subst hne
        refine ⟨(hheld hid).1, fun r' hr' => ?_⟩
        rcases (hret id r').mp hr' with ⟨-, rfl⟩ | ⟨hne, -⟩
        · exact (hheld hid).2
        · exact absurd rfl hne
      · refine ⟨(h.held id hid).1, fun r' hr' => ?_⟩
        rcases (hret id r').mp hr' with ⟨heq, -⟩ | ⟨-, hr'⟩
        · exact absurd heq hne
        · exact (h.held id hid).2 r' hr'
    · rcases (hret id r').mp hr' with ⟨rfl, rfl⟩ | ⟨-, hr'⟩
      · exact hrc hrc'
      · exact h.settled id r' hr' hrc'
  refine ⟨hsound, ?_⟩
  rw [hsound.law_iff, h.law_iff]
  constructor
  · intro hl
    refine ⟨fun id r' hr' hrc' => ?_, fun hrc' => hl i r ((hret i r).mpr (.inl ⟨rfl, rfl⟩)) hrc'⟩
    have hne : id ≠ i := by
      rintro rfl
      simp [hnew] at hr'
    exact hl id r' ((hret id r').mpr (.inr ⟨hne, hr'⟩)) hrc'
  · rintro ⟨hl, hlast⟩ id r' hr' hrc'
    rcases (hret id r').mp hr' with ⟨rfl, rfl⟩ | ⟨-, hr'⟩
    · exact hlast hrc'
    · exact hl id r' hr' hrc'

/-- A call begins. -/
lemma Sound.begin (h : b.Sound calls) : b.Sound (calls + 1) :=
  ⟨fun id hid => h.fresh id (by omega), h.held, h.settled⟩

/-- A call begins, and its request is held. -/
lemma Sound.hold (h : b.Sound calls) (hheld : b.held = none) :
    ({ b with held := some calls } : ScanBook).Sound (calls + 1) ∧
      ({ b with held := some calls } : ScanBook).owners calls = 1 ∧
      (({ b with held := some calls } : ScanBook).Law ↔ b.Law) := by
  obtain ⟨hnew, hzero⟩ := h.fresh calls le_rfl
  simp only [owners, hheld, reduceCtorEq, if_false, Nat.add_zero] at hzero
  have hsound : ({ b with held := some calls } : ScanBook).Sound (calls + 1) := by
    refine ⟨fun id hid => ?_, fun id hid => ?_, fun id r hr hrc => ?_⟩
    · obtain ⟨hret, hown⟩ := h.fresh id (by omega)
      have hne : calls ≠ id := by omega
      simpa [owners, hheld, hne] using And.intro hret hown
    · obtain rfl := Option.some.inj hid
      exact ⟨hzero, fun r hr => absurd (hnew.symm.trans hr) (by simp)⟩
    · have hne : calls ≠ id := by
        rintro rfl
        exact absurd (hnew.symm.trans hr) (by simp)
      simpa [owners, hheld, hne] using h.settled id r hr hrc
  exact ⟨hsound, by simp [owners, hzero], by rw [hsound.law_iff, h.law_iff]⟩

end ScanBook

/-! ## Every step -/

/-- The request that an ordinary scan has handed to the firmware. -/
def CfgOp.sending : CfgOp → Option ℕ
  | .startScan id _ => some id
  | _ => none

/-- The request that a P2P search is at work on. -/
def CfgOp.searching : CfgOp → Option ℕ
  | .search id _ _ => some id
  | _ => none

structure ScanInv (s : CfgSys) : Prop where
  sound : s.book.Sound s.calls
  sending : ∀ id, s.op.sending = some id →
    id < s.calls ∧ s.returned id = none ∧ s.book.owners id = 1 ∧ s.entry = none
  searching : ∀ id, s.op.searching = some id →
    id < s.calls ∧ s.returned id = none ∧ s.book.owners id = 0 ∧ s.entry = none ∧
      s.wil.scanRequest = none

/-- With the return of a command, the scan call returns an error. -/
def CfgOp.refuses (rc : ℤ) : CfgOp → Bool
  | .startScan _ _ => rc ≠ 0
  | .search _ _ .p2pCfg => rc ≠ 0
  | .search _ _ (.stop rc') => rc' ≠ 0
  | _ => false

/-- No scan call returns with a command failed. -/
def CommandsSucceed (s : CfgSys) : CfgAction → Prop
  | .reply rc => s.op.refuses rc = false
  | _ => True

section Steps

variable {s t : CfgSys} {usePcpForAp : Bool}

lemma scanInv_init (iftype : Iftype) : ScanInv (CfgSys.init iftype) :=
  ⟨⟨by simp [CfgSys.init, CfgSys.book, ScanBook.owners], by simp [CfgSys.init, CfgSys.book],
    by simp [CfgSys.init, CfgSys.book]⟩, by simp [CfgSys.init, CfgOp.sending],
    by simp [CfgSys.init, CfgOp.searching]⟩

/-- A step that has nothing to do with a request. -/
lemma ScanInv.frame (h : ScanInv s) (hbook : t.book = s.book) (hcalls : t.calls = s.calls)
    (hentry : t.entry = s.entry) (hsend : t.op.sending = s.op.sending ∨ t.op.sending = none)
    (hsearch : t.op.searching = s.op.searching ∨ t.op.searching = none) :
    ScanInv t ∧ (t.book.Law ↔ s.book.Law) := by
  have hreturned : t.returned = s.returned := congrArg ScanBook.returned hbook
  have hheld : t.wil.scanRequest = s.wil.scanRequest := congrArg ScanBook.held hbook
  refine ⟨⟨by rw [hbook, hcalls]; exact h.sound, fun id hid => ?_, fun id hid => ?_⟩, by rw [hbook]⟩
  · rcases hsend with heq | hnone
    · rw [hbook, hcalls, hentry, hreturned]
      exact h.sending id (heq ▸ hid)
    · simp [hnone] at hid
  · rcases hsearch with heq | hnone
    · rw [hbook, hcalls, hentry, hreturned, hheld]
      exact h.searching id (heq ▸ hid)
    · simp [hnone] at hid

/-- `log` with events that complete no request. -/
lemma CfgSys.book_of_log (hheld : t.wil.scanRequest = s.wil.scanRequest)
    (hreturned : t.returned = s.returned) {events : List CfgEvent}
    (hlog : t.log = s.log ++ events) (hquiet : ∀ e ∈ events, ∀ id, e.completes id = false) :
    t.book = s.book := by
  simp only [CfgSys.book, hheld, hreturned, hlog, ScanBook.mk.injEq, true_and, and_true]
  funext id
  have hnone : events.countP (CfgEvent.completes id) = 0 :=
    List.countP_eq_zero.mpr fun e he => by simp [hquiet e he id]
  rw [List.countP_append, hnone, Nat.add_zero]

/-- `log` with the completion of a request. -/
lemma CfgSys.completions_append (log : List CfgEvent) (i : ℕ) (aborted : Bool) (id : ℕ) :
    (log ++ [CfgEvent.scanDone i aborted]).countP (CfgEvent.completes id)
      = log.countP (CfgEvent.completes id) + if id = i then 1 else 0 := by
  simp [List.countP_append, List.countP_cons, CfgEvent.completes, eq_comm]

/-- The tests pass only where no request is held. -/
lemma scanRequest_of_check {w : CfgWil} (h : scanCheck w = 0) : w.scanRequest = none := by
  simp only [scanCheck] at h
  split_ifs at h with hheld
  · exact absurd h (by decide)
  · simpa using hheld
  · simpa using hheld
  · simpa using hheld

lemma ScanInv.scan (h : ScanInv s) (request : Cfg80211ScanRequest) :
    ScanInv (s.scan request) ∧ ((s.scan request).book.Law ↔ s.book.Law) := by
  obtain ⟨hnew, hzero⟩ := h.sound.fresh s.calls le_rfl
  have hfree : s.book.completions s.calls = 0 ∧ s.book.held ≠ some s.calls := by
    simp only [ScanBook.owners] at hzero
    split_ifs at hzero with hheld
    exact ⟨hzero, hheld⟩
  by_cases hcheck : scanCheck s.wil = 0
  · have hnone := scanRequest_of_check hcheck
    cases hsearch : wilScanIsP2pSearch request with
    | false =>
        have hscan : s.scan request = { s with
            calls := s.calls + 1
            entry := s.wil.scanRequest
            wil := { s.wil with scanRequest := some s.calls }
            op := .startScan s.calls (startScanChannels request) } := by
          simp [CfgSys.scan, hcheck, hsearch]
        obtain ⟨hsound, hone, hlaw⟩ := h.sound.hold hnone
        rw [hscan]
        refine ⟨⟨hsound, fun id hid => ?_, by simp [CfgOp.searching]⟩, hlaw⟩
        obtain rfl := Option.some.inj hid
        exact ⟨Nat.lt_succ_self _, hnew, hone, hnone⟩
    | true =>
        have hscan : s.scan request = { s with
            calls := s.calls + 1
            entry := s.wil.scanRequest
            wil := { s.wil with dontscan := true }
            op := .search s.calls request .p2pCfg } := by
          simp [CfgSys.scan, wmiP2pCfg, hcheck, hsearch, hnone]
        rw [hscan]
        refine ⟨⟨h.sound.begin, by simp [CfgOp.sending], fun id hid => ?_⟩, Iff.rfl⟩
        obtain rfl := Option.some.inj hid
        exact ⟨Nat.lt_succ_self _, hnew, hzero, hnone, hnone⟩
  · have hscan : s.scan request = { s with
        calls := s.calls + 1
        entry := s.wil.scanRequest
        op := .idle
        returned := Function.update s.returned s.calls
          (some ⟨scanCheck s.wil, s.wil.scanRequest, s.wil.scanRequest⟩) } := by
      simp [CfgSys.scan, CfgSys.scanReturn, hcheck]
    obtain ⟨hsound, hlaw⟩ := h.sound.begin.return (i := s.calls)
      (r := ⟨scanCheck s.wil, s.wil.scanRequest, s.wil.scanRequest⟩) (Nat.lt_succ_self _) hnew
      (fun hrc => absurd hrc hcheck) (fun hheld => absurd hheld hfree.2)
    rw [hscan]
    refine ⟨⟨hsound, by simp [CfgOp.sending], by simp [CfgOp.searching]⟩, hlaw.trans ?_⟩
    exact ⟨And.left, fun hl => ⟨hl, fun _ => ⟨hfree.1, rfl⟩⟩⟩

/-- An ordinary scan returns: all is well if and only if the command was sent. -/
lemma ScanInv.scanReturn (h : ScanInv s) {id : ℕ} (hop : s.op.sending = some id) (rc : ℤ) :
    ScanInv (s.scanReturn id rc) ∧ ((s.scanReturn id rc).book.Law ↔ s.book.Law ∧ rc = 0) := by
  obtain ⟨hlt, hnew, hone, hentry⟩ := h.sending id hop
  have hheld : s.book.held = some id → s.book.completions id = 0 := fun hheld =>
    (h.sound.held id hheld).1
  have hnone : s.book.completions id = 0 → s.wil.scanRequest ≠ none := by
    intro hc hnone
    have hheld' : s.book.held = none := hnone
    simp [ScanBook.owners, hc, hheld'] at hone
  obtain ⟨hsound, hlaw⟩ := h.sound.return (i := id) (r := ⟨rc, s.entry, s.wil.scanRequest⟩) hlt
    hnew (fun _ => hone) (fun hh => ⟨hheld hh, .inr (hentry ▸ hnone (hheld hh))⟩)
  refine ⟨⟨hsound, by simp [CfgSys.scanReturn, CfgOp.sending],
    by simp [CfgSys.scanReturn, CfgOp.searching]⟩, hlaw.trans ?_⟩
  refine and_congr_right fun _ => ⟨fun hl => ?_, fun hrc hne => absurd hrc hne⟩
  by_contra hrc
  obtain ⟨hc, hafter⟩ := hl hrc
  exact hnone hc (hafter.trans hentry)

/-- A search returns: all is well if and only if none of its commands failed. -/
lemma ScanInv.searchOut (h : ScanInv s) {id : ℕ} (hop : s.op.searching = some id) (rc : ℤ) :
    ScanInv (s.searchOut id rc) ∧ ((s.searchOut id rc).book.Law ↔ s.book.Law ∧ rc = 0) := by
  obtain ⟨hlt, hnew, hzero, hentry, hnone⟩ := h.searching id hop
  have hheld : s.book.held = none := hnone
  have hbook : (s.searchOut id rc).book
      = (s.book.complete id).ret id ⟨rc, s.entry, s.wil.scanRequest⟩ := by
    simp only [CfgSys.searchOut, CfgSys.scanReturn, CfgSys.book, ScanBook.complete, ScanBook.ret,
      CfgSys.completions_append]
  have hone : (s.book.complete id).owners id = 1 := by
    simp only [ScanBook.owners, ScanBook.complete, hheld, if_true, reduceCtorEq, if_false] at hzero ⊢
    omega
  obtain ⟨hcomplete, hlaw⟩ := h.sound.complete hlt hnew hheld
  obtain ⟨hsound, hlaw'⟩ := hcomplete.return (r := ⟨rc, s.entry, s.wil.scanRequest⟩) hlt hnew
    (fun _ => hone) (fun hh => absurd (hheld.symm.trans hh) (by simp))
  refine ⟨⟨by rw [hbook]; exact hsound, by simp [CfgSys.searchOut, CfgSys.scanReturn, CfgOp.sending],
    by simp [CfgSys.searchOut, CfgSys.scanReturn, CfgOp.searching]⟩, ?_⟩
  rw [hbook, hlaw', hlaw]
  refine and_congr_right fun _ => ⟨fun hl => ?_, fun hrc hne => absurd hrc hne⟩
  by_contra hrc
  have hc := (hl hrc).1
  simp [ScanBook.complete] at hc

/-- What completes the request that is held, if any, and does nothing else. -/
def Releases (w : CfgWil) (p : CfgWil × List CfgEvent) : Prop :=
  p.1.scanRequest = none ∧
    (w.scanRequest = none ∧ p.2 = [] ∨
      ∃ id aborted, w.scanRequest = some id ∧ p.2 = [.scanDone id aborted])

lemma scanRequest_cfgDisconnect (w : CfgWil) : (cfgDisconnect w).scanRequest = w.scanRequest := by
  simp only [cfgDisconnect]
  split_ifs <;> rfl

lemma releases_wmiEvtScanComplete (w : CfgWil) (status : ℕ) :
    Releases w (wmiEvtScanComplete w status) := by
  rw [wmiEvtScanComplete]
  cases hheld : w.scanRequest with
  | none => exact ⟨hheld, .inl ⟨hheld, rfl⟩⟩
  | some id => exact ⟨rfl, .inr ⟨id, _, hheld, rfl⟩⟩

lemma releases_cfgDown (w : CfgWil) : Releases w (cfgDown w) := by
  rw [cfgDown]
  cases hheld : w.scanRequest with
  | none => exact ⟨(scanRequest_cfgDisconnect w).trans hheld, .inl ⟨hheld, rfl⟩⟩
  | some id => exact ⟨scanRequest_cfgDisconnect _, .inr ⟨id, _, hheld, rfl⟩⟩

/-- The request that is held, if any, is completed. -/
lemma ScanInv.release (h : ScanInv s) {p : CfgWil × List CfgEvent} (hp : Releases s.wil p)
    (attempt : Bool) :
    ScanInv { s with wil := p.1, log := s.log ++ p.2, attempt := attempt } ∧
      (({ s with wil := p.1, log := s.log ++ p.2, attempt := attempt } : CfgSys).book.Law ↔
        s.book.Law) := by
  obtain ⟨hnone', ⟨hnone, hlog⟩ | ⟨i, aborted, hheld, hlog⟩⟩ := hp
  · refine h.frame ?_ rfl rfl (.inl rfl) (.inl rfl)
    simp only [CfgSys.book, hnone, hnone', hlog, List.append_nil]
  · set t : CfgSys := { s with wil := p.1, log := s.log ++ p.2, attempt := attempt } with ht
    have hbook : t.book = { s.book.complete i with held := none } := by
      simp only [ht, CfgSys.book, ScanBook.complete, hnone', hlog, CfgSys.completions_append]
    have hown : ∀ id, t.book.owners id = s.book.owners id := by
      rw [hbook]
      exact ScanBook.owners_release hheld
    obtain ⟨hsound, hlaw⟩ := h.sound.release (i := i) hheld
    refine ⟨⟨by rw [hbook]; exact hsound, fun id hid => ?_, fun id hid => ?_⟩,
      by rw [hbook]; exact hlaw⟩
    · rw [hown]
      exact h.sending id hid
    · obtain ⟨-, -, -, -, hnone⟩ := h.searching id hid
      exact absurd (hnone.symm.trans hheld) (by simp)

/-- The end of a remain-on-channel start completes no request. -/
lemma quiet_rocFinish (w : CfgWil) (rc : ℤ) :
    ∀ e ∈ (rocFinish w rc).2, ∀ id, CfgEvent.completes id e = false := by
  have htx : ∀ e ∈ (if w.roc.mgmtTxCookie ≠ 0 then
      [CfgEvent.mgmtTxStatus w.roc.mgmtTxCookie (rc = 0)] else []),
      ∀ id, CfgEvent.completes id e = false := by
    intro e he id
    split_ifs at he
    · obtain rfl := List.mem_singleton.mp he
      rfl
    · exact absurd he List.not_mem_nil
  intro e he id
  simp only [rocFinish] at he
  by_cases hrc : rc = 0
  · rw [if_pos hrc] at he
    rcases List.mem_append.mp he with he | he
    · exact htx e he id
    · split_ifs at he
      · obtain rfl := List.mem_singleton.mp he
        rfl
      · exact absurd he List.not_mem_nil
  · rw [if_neg hrc] at he
    exact htx e he id

/-- Nor does the end of a remain-on-channel. -/
lemma quiet_rocCancelled (w : CfgWil) :
    ∀ e ∈ (rocCancelled w).2, ∀ id, CfgEvent.completes id e = false := by
  intro e he id
  simp only [rocCancelled] at he
  split_ifs at he
  · obtain rfl := List.mem_singleton.mp he
    rfl
  · exact absurd he List.not_mem_nil

/-- The end of a remain-on-channel start. -/
lemma ScanInv.rocOut (h : ScanInv s) (rc : ℤ) :
    ScanInv (s.rocOut rc) ∧ ((s.rocOut rc).book.Law ↔ s.book.Law) := by
  have hheld : (rocFinish s.wil rc).1.scanRequest = s.wil.scanRequest := by
    simp only [rocFinish]
    split_ifs <;> rfl
  exact h.frame (CfgSys.book_of_log hheld rfl rfl (quiet_rocFinish s.wil rc)) rfl rfl (.inr rfl)
    (.inr rfl)

lemma ScanInv.searchReply (h : ScanInv s) {id : ℕ} {request : Cfg80211ScanRequest}
    {stage : SearchStage} (hop : s.op = .search id request stage) (rc : ℤ) :
    ScanInv (s.searchReply id request rc stage) ∧
      ((s.searchReply id request rc stage).book.Law ↔ s.book.Law ∧ s.op.refuses rc = false) := by
  have hsearching : s.op.searching = some id := by rw [hop]; rfl
  have hgoto : ∀ stage', s.op.refuses rc = false →
      ScanInv { s with op := .search id request stage' } ∧
        (({ s with op := .search id request stage' } : CfgSys).book.Law ↔
          s.book.Law ∧ s.op.refuses rc = false) := by
    intro stage' hrefuses
    obtain ⟨hinv, hlaw⟩ := h.frame (t := { s with op := .search id request stage' }) rfl rfl rfl
      (.inr rfl) (.inl hsearching.symm)
    exact ⟨hinv, hlaw.trans (by simp [hrefuses])⟩
  cases stage with
  | p2pCfg =>
      by_cases hrc : rc = 0
      · simp only [CfgSys.searchReply, hrc, ne_eq, not_true_eq_false, if_false]
        exact hrc ▸ hgoto .setSsid (by simp [hop, CfgOp.refuses, hrc])
      · obtain ⟨hinv, hlaw⟩ := h.searchOut hsearching rc
        simp only [CfgSys.searchReply, hrc, ne_eq, not_false_eq_true, if_true]
        exact ⟨hinv, hlaw.trans (by simp [hop, CfgOp.refuses])⟩
  | setSsid =>
      have hrefuses : s.op.refuses rc = false := by rw [hop]; rfl
      simp only [CfgSys.searchReply]
      split_ifs
      · exact hgoto (.stop rc) hrefuses
      · exact hgoto .setIe hrefuses
      · exact hgoto .startSearch hrefuses
  | setIe =>
      have hrefuses : s.op.refuses rc = false := by rw [hop]; rfl
      simp only [CfgSys.searchReply]
      split_ifs
      · exact hgoto (.stop rc) hrefuses
      · exact hgoto .startSearch hrefuses
  | startSearch => exact hgoto (.stop rc) (by rw [hop]; rfl)
  | stop rc' =>
      obtain ⟨hinv, hlaw⟩ := h.frame (t := { s with wil := wmiStopDiscovery s.wil }) rfl rfl rfl
        (.inl rfl) (.inl rfl)
      obtain ⟨hinv', hlaw'⟩ := hinv.searchOut hsearching rc'
      refine ⟨hinv', ?_⟩
      rw [CfgSys.searchReply, hlaw', hlaw]
      simp [hop, CfgOp.refuses]

lemma ScanInv.rocReply (h : ScanInv s) {stage : RocStage} (rc : ℤ) :
    ScanInv (s.rocReply rc stage) ∧ ((s.rocReply rc stage).book.Law ↔ s.book.Law) := by
  have hgoto : ∀ stage', ScanInv { s with op := .roc stage' } ∧
      (({ s with op := .roc stage' } : CfgSys).book.Law ↔ s.book.Law) :=
    fun stage' => h.frame rfl rfl rfl (.inr rfl) (.inr rfl)
  cases stage with
  | p2pCfg =>
      simp only [CfgSys.rocReply]
      split_ifs
      · exact h.rocOut rc
      · exact hgoto .setSsid
  | setSsid =>
      simp only [CfgSys.rocReply]
      split_ifs
      · exact hgoto (.stop rc)
      · exact hgoto .startListen
  | startListen =>
      simp only [CfgSys.rocReply]
      split_ifs
      · exact hgoto (.stop rc)
      · obtain ⟨hinv, hlaw⟩ := h.frame (t := { s with work := .queued }) rfl rfl rfl (.inl rfl)
          (.inl rfl)
        exact ⟨(hinv.rocOut 0).1, (hinv.rocOut 0).2.trans hlaw⟩
  | stop rc' =>
      obtain ⟨hinv, hlaw⟩ := h.frame (t := { s with wil := wmiStopDiscovery s.wil }) rfl rfl rfl
        (.inl rfl) (.inl rfl)
      exact ⟨(hinv.rocOut rc').1, (hinv.rocOut rc').2.trans hlaw⟩

lemma ScanInv.connectSend (h : ScanInv s) (sme : Cfg80211ConnectParams) (bss : Cfg80211Bss)
    (ssid : List UInt8) :
    ScanInv (s.connectSend usePcpForAp sme bss ssid) ∧
      ((s.connectSend usePcpForAp sme bss ssid).book.Law ↔ s.book.Law) := by
  simp only [CfgSys.connectSend]
  split
  · exact h.frame rfl rfl rfl (.inr rfl) (.inr rfl)
  · exact h.frame rfl rfl rfl (.inr rfl) (.inr rfl)

/-- The operation goes on. -/
lemma ScanInv.reply (h : ScanInv s) {rc : ℤ} (ht : s.reply usePcpForAp rc = some t) :
    ScanInv t ∧ (t.book.Law ↔ s.book.Law ∧ s.op.refuses rc = false) := by
  have hother : ∀ u : CfgSys, s.op.refuses rc = false →
      (ScanInv u ∧ (u.book.Law ↔ s.book.Law)) →
      ScanInv u ∧ (u.book.Law ↔ s.book.Law ∧ s.op.refuses rc = false) := by
    rintro u hrefuses ⟨hinv, hlaw⟩
    exact ⟨hinv, hlaw.trans (by simp [hrefuses])⟩
  cases hop : s.op with
  | idle => simp [CfgSys.reply, hop] at ht
  | cancelRoc => simp [CfgSys.reply, hop] at ht
  | startScan id channels =>
      simp only [CfgSys.reply, hop, Option.some.injEq] at ht
      have hsending : s.op.sending = some id := by
        rw [hop]
        rfl
      obtain ⟨hinv, hlaw⟩ := h.scanReturn hsending rc
      subst ht
      exact ⟨hinv, hlaw.trans (by simp [CfgOp.refuses])⟩
  | search id request stage =>
      simp only [CfgSys.reply, hop, Option.some.injEq] at ht
      subst ht
      exact hop ▸ h.searchReply hop rc
  | delCipherKey sme bss ssid =>
      rw [← hop]
      simp only [CfgSys.reply, hop] at ht
      refine hother t (by rw [hop]; rfl) ?_
      split_ifs at ht <;> obtain rfl := Option.some.inj ht
      · exact h.frame rfl rfl rfl (.inr rfl) (.inr rfl)
      · exact h.frame rfl rfl rfl (.inr rfl) (.inr rfl)
  | setAppie sme bss ssid =>
      rw [← hop]
      simp only [CfgSys.reply, hop] at ht
      refine hother t (by rw [hop]; rfl) ?_
      split_ifs at ht <;> obtain rfl := Option.some.inj ht
      · exact h.frame rfl rfl rfl (.inr rfl) (.inr rfl)
      · exact h.connectSend sme bss ssid
  | connect cmd =>
      rw [← hop]
      simp only [CfgSys.reply, hop, Option.some.injEq] at ht
      subst ht
      exact hother _ (by rw [hop]; rfl) (h.frame rfl rfl rfl (.inr rfl) (.inr rfl))
  | roc stage =>
      rw [← hop]
      simp only [CfgSys.reply, hop, Option.some.injEq] at ht
      subst ht
      exact hother _ (by rw [hop]; rfl) (h.rocReply rc)

lemma ScanInv.connect (h : ScanInv s) (sme : Cfg80211ConnectParams) :
    ScanInv (s.connect usePcpForAp sme) ∧
      ((s.connect usePcpForAp sme).book.Law ↔ s.book.Law) := by
  simp only [CfgSys.connect]
  split
  · exact h.frame rfl rfl rfl (.inl rfl) (.inl rfl)
  · split
    · exact h.frame rfl rfl rfl (.inl rfl) (.inl rfl)
    · split_ifs
      · exact h.frame rfl rfl rfl (.inl rfl) (.inl rfl)
      · exact h.frame rfl rfl rfl (.inr rfl) (.inr rfl)
      · exact h.connectSend _ _ _

lemma ScanInv.remainOnChannel (h : ScanInv s) (buf : Option ℕ) :
    ScanInv (s.remainOnChannel buf) ∧ ((s.remainOnChannel buf).book.Law ↔ s.book.Law) := by
  simp only [CfgSys.remainOnChannel]
  split_ifs
  · exact h.frame rfl rfl rfl (.inl rfl) (.inl rfl)
  · obtain ⟨hinv, hlaw⟩ := h.frame (t := { s with wil := rocPrepare s.wil buf }) rfl rfl rfl
      (.inl rfl) (.inl rfl)
    cases hcfg : wmiP2pCfg (rocPrepare s.wil buf) with
    | none => exact ⟨(hinv.rocOut eAgain).1, (hinv.rocOut eAgain).2.trans hlaw⟩
    | some w =>
        have hw : w.scanRequest = s.wil.scanRequest := by
          simp only [wmiP2pCfg] at hcfg
          split_ifs at hcfg
          obtain rfl := Option.some.inj hcfg
          rfl
        have hbook : ({ s with wil := w, op := .roc .p2pCfg } : CfgSys).book = s.book := by
          simp only [CfgSys.book, hw]
        exact h.frame hbook rfl rfl (.inr rfl) (.inr rfl)

/-- **One step**: it breaks the law if and only if it is the return of a scan call with a command
failed, and nothing repairs the law. -/
theorem ScanInv.step (h : ScanInv s) {a : CfgAction} (ht : s.step usePcpForAp a = some t) :
    ScanInv t ∧ (t.book.Law ↔ s.book.Law ∧ CommandsSucceed s a) := by
  cases a with
  | reply rc => exact h.reply ht
  | scan request =>
      obtain ⟨-, rfl⟩ := CfgSys.step_cases ht
      simpa [CommandsSucceed] using h.scan request
  | connect sme =>
      obtain ⟨-, rfl⟩ := CfgSys.step_cases ht
      simpa [CommandsSucceed] using h.connect sme
  | remainOnChannel buf =>
      obtain ⟨-, rfl⟩ := CfgSys.step_cases ht
      simpa [CommandsSucceed] using h.remainOnChannel buf
  | cancelRoc =>
      obtain ⟨-, rfl⟩ := CfgSys.step_cases ht
      simpa [CommandsSucceed] using
        h.frame (t := { s with op := .cancelRoc }) rfl rfl rfl (.inr rfl) (.inr rfl)
  | cancelled =>
      obtain ⟨-, rfl⟩ := CfgSys.step_cases ht
      simpa [CommandsSucceed] using
        h.frame (t := { s with op := .idle }) rfl rfl rfl (.inr rfl) (.inr rfl)
  | changeIface iftype =>
      obtain ⟨-, rfl⟩ := CfgSys.step_cases ht
      simpa [CommandsSucceed] using
        h.frame (t := { s with wil := { s.wil with iftype := iftype } }) rfl rfl rfl (.inl rfl)
          (.inl rfl)
  | rocTimer =>
      obtain ⟨-, rfl⟩ := CfgSys.step_cases ht
      simpa [CommandsSucceed] using
        h.frame (t := { s with work := .running }) rfl rfl rfl (.inl rfl) (.inl rfl)
  | rocCancelled =>
      obtain ⟨-, rfl⟩ := CfgSys.step_cases ht
      simpa [CommandsSucceed] using
        h.frame (t := { s with
          wil := (rocCancelled s.wil).1
          work := .idle
          log := s.log ++ (rocCancelled s.wil).2 })
          (CfgSys.book_of_log rfl rfl rfl (quiet_rocCancelled s.wil)) rfl rfl (.inl rfl) (.inl rfl)
  | scanComplete status =>
      obtain rfl := Option.some.inj ht
      simpa [CommandsSucceed] using
        h.release (releases_wmiEvtScanComplete s.wil status) s.attempt
  | down =>
      obtain ⟨-, rfl⟩ := CfgSys.step_cases ht
      simpa [CommandsSucceed] using h.release (releases_cfgDown s.wil) false
  | disconnect =>
      obtain rfl := Option.some.inj ht
      have hbook : ({ s with wil := cfgDisconnect s.wil, attempt := false } : CfgSys).book
          = s.book := by
        simp only [CfgSys.book, scanRequest_cfgDisconnect]
      simpa [CommandsSucceed] using h.frame hbook rfl rfl (.inl rfl) (.inl rfl)
  | reset =>
      obtain rfl := Option.some.inj ht
      simpa [CommandsSucceed] using
        h.frame (t := { s with wil := { s.wil with dontscan := false }, attempt := false }) rfl rfl
          rfl (.inl rfl) (.inl rfl)

end Steps

/-! ## Every run -/

/-- **When the requests fare as they should**: if and only if no scan call of the run returns with
a command failed. -/
theorem scanLaw_iff {iftype : Iftype} {usePcpForAp : Bool} {as : List CfgAction} {s : CfgSys}
    (h : Machine.Exec (CfgSys.step usePcpForAp) (fun _ _ => True) (CfgSys.init iftype) as s) :
    s.book.Law ↔
      Machine.Exec (CfgSys.step usePcpForAp) CommandsSucceed (CfgSys.init iftype) as s := by
  have hlaw : (CfgSys.init iftype).book.Law := by
    intro id r hr
    exact absurd hr (by simp [CfgSys.init, CfgSys.book])
  rw [Machine.Exec.law_iff (I := ScanInv) (L := fun s => s.book.Law) (G := CommandsSucceed)
    (fun _ _ _ ht hi => (hi.step ht).1) (fun _ _ _ ht hi => (hi.step ht).2)
    (scanInv_init iftype) h]
  exact ⟨And.right, fun hexec => ⟨hlaw, hexec⟩⟩

instance (s : CfgSys) : (a : CfgAction) → Decidable (CommandsSucceed s a)
  | .reply _ => inferInstanceAs (Decidable (_ = _))
  | .scan _ | .connect _ | .remainOnChannel _ | .cancelRoc | .cancelled | .changeIface _
  | .rocTimer | .rocCancelled | .scanComplete _ | .down | .disconnect | .reset =>
      inferInstanceAs (Decidable True)

/-- A request for a scan of channel 1. -/
def scanRequestOne : Cfg80211ScanRequest := ⟨[[]], [⟨58320, 1⟩], []⟩

/-- A request for a P2P search. -/
def searchRequest : Cfg80211ScanRequest := ⟨[p2pSsid], [⟨60480, 2⟩], []⟩

/-- A scan, its completion, a search, and a scan that the stop of the interface ends. -/
theorem scanLaw_three :
    ∃ s : CfgSys, s.book.Law ∧ s.log = [.scanDone 0 false, .scanDone 1 true, .scanDone 2 true] := by
  let as : List CfgAction := [.scan scanRequestOne, .reply 0, .scanComplete 0,
    .scan searchRequest, .reply 0, .reply 0, .reply 0, .reply 0, .scan scanRequestOne, .reply 0,
    .down]
  have hrun : (Machine.exec (CfgSys.step false) CommandsSucceed (CfgSys.init .station) as).map
      (fun s => s.log) = some [.scanDone 0 false, .scanDone 1 true, .scanDone 2 true] := by
    decide +kernel
  obtain ⟨s, hs, hlog⟩ := Option.map_eq_some_iff.mp hrun
  have hexec := Machine.Exec.of_exec hs
  exact ⟨s, (scanLaw_iff (hexec.weaken fun _ _ _ => trivial)).mpr hexec, hlog⟩

/-- The command of an ordinary scan is not sent; the request stays. -/
theorem not_scanLaw :
    ¬ ∀ (iftype : Iftype) (usePcpForAp : Bool) (as : List CfgAction) (s : CfgSys),
      Machine.Exec (CfgSys.step usePcpForAp) (fun _ _ => True) (CfgSys.init iftype) as s →
        s.book.Law := by
  intro h
  let as : List CfgAction := [.scan scanRequestOne, .reply eBusy]
  have hrun : (Machine.exec (CfgSys.step false) (fun _ _ => True) (CfgSys.init .station) as).map
      (fun s => s.returned 0) = some (some ⟨eBusy, none, some 0⟩) := by
    decide +kernel
  obtain ⟨s, hs, hret⟩ := Option.map_eq_some_iff.mp hrun
  obtain ⟨-, hafter⟩ := (h _ _ as s (.of_exec hs) 0 _ hret).2 (by decide)
  exact absurd hafter (by decide)

end Wil6210
