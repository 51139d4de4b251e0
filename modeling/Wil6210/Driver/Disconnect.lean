import Wil6210.Driver.State

/-!
# Disconnecting all

`wil6210_disconnect(wil, NULL)` is how reset, down, deinit and the connect timeout take every
station down: the debug message of that case is "all", and so is the comment of its branch.  The
branch is behind a test that a NULL address never passes, so the call takes nothing down
(`allDisconnected_null_iff`).  Called with the own address of the device, the same branch does
what it says (`allDisconnected_own`).
-/

namespace Wil6210

variable {s : Wil}

/-- Nothing is left of a station: it is unused, has no reorder session, and no allocated ring is
mapped to it. -/
structure Disconnected (s : Wil) (cid : Cid) : Prop where
  unused : (s.sta cid).status = .unused
  sessions : ∀ tid, (s.sta cid).tidRx tid = none
  rings : ∀ i, s.owner i = cid.val → (s.vringTx i).va = false

/-- Nothing is left of any station. -/
def AllDisconnected (s : Wil) : Prop := ∀ cid, Disconnected s cid

/-- `wil_disconnect_cid` does its job for its own station. -/
lemma disconnected_self (s : Wil) (cid : Cid) : Disconnected (wilDisconnectCid s cid).1 cid := by
  refine ⟨by simp, by simp, ?_⟩
  intro i hi
  rw [owner_wilDisconnectCid] at hi
  simp [hi]

/-- It does not bring another one back. -/
lemma Disconnected.wilDisconnectCid {c : Cid} (h : Disconnected s c) (cid : Cid) :
    Disconnected (wilDisconnectCid s cid).1 c := by
  by_cases hc : c = cid
  · exact hc ▸ disconnected_self s cid
  · refine ⟨?_, ?_, ?_⟩
    · simpa [hc] using h.unused
    · simpa [hc] using h.sessions
    · intro i hi
      rw [owner_wilDisconnectCid] at hi
      simp [h.rings i hi]

/-- The loop over the CIDs leaves nothing of the stations it visits. -/
lemma disconnected_run (cids : List Cid) :
    ∀ (s : Wil) (c : Cid), c ∈ cids ∨ Disconnected s c →
      Disconnected (Machine.run wilDisconnectCid s cids).1 c := by
  induction cids with
  | nil =>
      intro s c hc
      simpa using hc
  | cons cid cids ih =>
      intro s c hc
      rw [Machine.run_cons]
      refine ih _ c ?_
      rcases hc with hc | hc
      · rcases List.mem_cons.mp hc with rfl | hc
        · exact .inr (disconnected_self s c)
        · exact .inl hc
      · exact .inr (hc.wilDisconnectCid cid)

lemma disconnected_disconnectLink (bssid : Option MacAddr) (cid : Cid) :
    Disconnected (disconnectLink s bssid).1 cid ↔ Disconnected s cid := by
  constructor
  · intro h
    exact ⟨by simpa using h.unused, by simpa using h.sessions, by simpa using h.rings⟩
  · intro h
    exact ⟨by simpa using h.unused, by simpa using h.sessions, by simpa using h.rings⟩

/-- With the address of the device, which is no station's, the branch takes every station down. -/
theorem allDisconnected_own {mac : MacAddr} (hdev : s.devAddr = some mac)
    (hnone : wilFindCid s mac = none) :
    AllDisconnected (wil6210Disconnect s (some mac)).1 := by
  intro cid
  rw [wil6210Disconnect, disconnected_disconnectLink]
  simp only [disconnectStations, Option.bind_some, hnone, hdev, Option.isSome_some, and_self,
    if_true]
  exact disconnected_run _ s cid (.inl (List.mem_finRange cid))

/-- **With a NULL address nothing is taken down**: the call disconnects all if and only if nothing
was connected before it. -/
theorem allDisconnected_null_iff (s : Wil) :
    AllDisconnected (wil6210Disconnect s none).1 ↔ AllDisconnected s := by
  refine forall_congr' fun cid => ?_
  rw [wil6210Disconnect, disconnected_disconnectLink]
  simp [disconnectStations]

/-- One connected station with a ring of its own: it stays, and so does its ring. -/
theorem not_allDisconnected_null :
    ¬ ∀ s : Wil, AllDisconnected (wil6210Disconnect s none).1 := by
  intro h
  let start := wilPrivInit .ap (some 1)
  let s : Wil := { start with
    sta := Function.update start.sta 0 { start.sta 0 with addr := 2, status := .connected }
    vringTx := Function.update start.vringTx 0 { start.vringTx 0 with va := true, size := 512 } }
  have hunused := (h s 0).unused
  exact absurd hunused (by decide)

end Wil6210
