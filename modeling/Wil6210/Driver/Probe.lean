import Wil6210.Kernel
import Wil6210.Lib.Unwind
import Wil6210.Wmi.Mailbox

/-!
# What a probe sets up, and what is left of it

`wil_pcie_probe` sets the driver up in a ladder of calls, each of which can fail, and
`wil_pcie_remove` takes it down.  The functions are modelled by what they acquire, use and release
(`Lib/Unwind`), for every outcome of the calls.

`probes_run` is the account of every run of probes and removes.  Nothing is released twice.  Two
failures leave something behind: without its last workqueue `wil_priv_init` forgets the one before
it, and `wil_if_pcie_enable` leaves MSI enabled where the interrupts cannot be requested.  Two
things are used when they are gone: the `net_device` by `wil_priv_deinit`, behind `free_netdev`, and
`wil` by `wil_pcie_remove`, behind `wil_wdev_free`.

Where `alloc_netdev` fails, `wil_priv_deinit` reads a `net_device` that is NULL.  This is an oops:
the probe does not return, all it acquired stays, and the task that died holds the lock of the
device, so that it is neither probed nor removed again.
-/

namespace Wil6210

open Unwind

/-- `-ENODEV` -/
def eNodev : ℤ := -19

/-- What the driver holds of the kernel, for one device. -/
inductive Res
  /-- `pci_enable_device` -/
  | pdev
  | region
  /-- the mapping of BAR 0 -/
  | csr
  | wdev
  /-- the wiphy, with the `struct wil6210_priv` in it -/
  | wiphy
  | wiphyReg
  | wmiWq
  | wmiWqConn
  | backWq
  | rocWq
  | ndev
  /-- The device is a bus master. -/
  | master
  | msi
  | irq (i : ℕ)
  | netdevReg
  | debugfs
  deriving DecidableEq

abbrev ResOp := Op Res

/-- What the calls of a probe return; a pointer is there or not. -/
structure ProbeOutcome where
  barLen : ℕ
  enableDevice : ℤ
  requestRegion : ℤ
  ioremap : Bool
  wdev : Bool
  wiphy : Bool
  wiphyRegister : ℤ
  wmiWq : Bool
  wmiWqConn : Bool
  backWq : Bool
  rocWq : Bool
  netdev : Bool
  /-- `pci_enable_msi_block`, for a number of interrupts -/
  enableMsiBlock : ℕ → ℤ
  /-- `request_irq`, for `irq + i` -/
  requestIrq : ℕ → ℤ
  /-- `wil_wait_for_fw_ready` -/
  fwReady : ℤ
  registerNetdev : ℤ
  debugfs : Bool

/-- The return code of a call that returns a pointer. -/
def ptrErr (ptr : Bool) (err : ℤ) : ℤ := if ptr then 0 else err

/-- A return code that is an error where it is negative. -/
def negErr (rc : ℤ) : ℤ := if rc < 0 then rc else 0

/-! ## The functions -/

section Functions

variable (o : ProbeOutcome)

/-- `wil_cfg80211_init` -/
def wilCfg80211Init : ℤ × List ResOp :=
  ladder [call .wdev (ptrErr o.wdev eNomem), call .wiphy (ptrErr o.wiphy eNomem),
    call .wiphyReg (negErr o.wiphyRegister)]

/-- `wil_wdev_free` -/
def wilWdevFree : List ResOp :=
  [.use .wiphy, .use .wdev, .release .wiphyReg, .release .wiphy, .release .wdev]

/-- `wil_priv_init`.  The failure of the last workqueue has no label of its own. -/
def wilPrivInitUses : ℤ × List ResOp :=
  let p := ladder [call .wmiWq (ptrErr o.wmiWq eAgain), call .wmiWqConn (ptrErr o.wmiWqConn eAgain),
    call .backWq (ptrErr o.backWq eAgain)]
  if p.1 ≠ 0 then (eAgain, .use .wiphy :: p.2)
  else if ¬ o.rocWq then
    (eAgain, .use .wiphy :: (p.2 ++ [.release .wmiWqConn, .release .wmiWq]))
  else (0, .use .wiphy :: (p.2 ++ [.acquire .rocWq]))

/-- `wil6210_disconnect` for no address: the `net_device` is read in any mode. -/
def wil6210DisconnectUses : List ResOp := [.use .wiphy, .use .wdev, .use .ndev]

/-- `wil_priv_deinit`, where there was a `net_device`. -/
def wilPrivDeinit : List ResOp :=
  wil6210DisconnectUses ++
    [.release .rocWq, .release .wmiWqConn, .release .wmiWq, .release .backWq]

/-- `wil_if_alloc`, up to `alloc_netdev` -/
def wilIfAllocPriv : ℤ × List ResOp :=
  ladder [⟨(wilCfg80211Init o).1, (wilCfg80211Init o).2, wilWdevFree⟩,
    ⟨(wilPrivInitUses o).1, (wilPrivInitUses o).2, []⟩]

/-- `wil_if_alloc`.  Without a `net_device` it does not return: `wil_priv_deinit` gets as far as
`wil6210_disconnect`, and `ndev->dev_addr` is an oops. -/
def wilIfAlloc : Option ℤ × List ResOp :=
  let p := wilIfAllocPriv o
  if p.1 ≠ 0 then (some p.1, p.2)
  else if o.netdev then (some 0, p.2 ++ [.acquire .ndev])
  else (none, p.2 ++ wil6210DisconnectUses)

/-- `wil_if_free`, behind a `wil_if_alloc` that succeeded. -/
def wilIfFree : List ResOp :=
  [.use .wiphy, .use .wdev, .release .ndev] ++ (wilPrivDeinit ++ wilWdevFree)

/-- `wil->n_msi`, as `wil_if_pcie_enable` settles it: a `use_msi` other than 0, 1 and 3 is 1. -/
def nMsi (useMsi : ℤ) : ℕ :=
  let n := if useMsi = 3 then 3 else if useMsi = 0 then 0 else 1
  if n = 0 ∨ o.enableMsiBlock n = 0 then n
  else if n = 3 ∧ o.enableMsiBlock 1 = 0 then 1
  else 0

/-- `wil6210_request_3msi` -/
def wil6210Request3msi : ℤ × List ResOp :=
  ladder [call (.irq 0) (o.requestIrq 0), call (.irq 1) (o.requestIrq 1),
    call (.irq 2) (o.requestIrq 2)]

/-- `wil6210_init_irq`; `wil6210_enable_irq` writes to the card. -/
def wil6210InitIrq (nMsi : ℕ) : ℤ × List ResOp :=
  let p := if nMsi = 3 then wil6210Request3msi o else ladder [call (.irq 0) (o.requestIrq 0)]
  if p.1 ≠ 0 then p else (0, p.2 ++ [.use .csr])

/-- `wil6210_fini_irq` -/
def wil6210FiniIrq (nMsi : ℕ) : List ResOp :=
  .use .csr :: .release (.irq 0) ::
    if nMsi = 3 then [.release (.irq 1), .release (.irq 2)] else []

/-- `pci_disable_msi`, which is safe where MSI is not enabled. -/
def pciDisableMsi (nMsi : ℕ) : List ResOp := if nMsi = 0 then [] else [.release .msi]

/-- `wil_reset` -/
def wilResetUses : List ResOp :=
  wil6210DisconnectUses ++ [.use .csr, .use .wmiWqConn, .use .wmiWq, .use .backWq, .use .csr]

/-- `wil_if_pcie_enable`.  What enables MSI has no label of its own. -/
def wilIfPcieEnable (useMsi : ℤ) (debugFw : Bool) : ℤ × List ResOp :=
  let n := nMsi o useMsi
  ladder [call .master 0,
    ⟨0, .use .wiphy :: if n = 0 then [] else [.acquire .msi], []⟩,
    ⟨(wil6210InitIrq o n).1, (wil6210InitIrq o n).2, wil6210FiniIrq n ++ pciDisableMsi n⟩,
    ⟨if debugFw then 0 else o.fwReady, wilResetUses, []⟩]

/-- `wil_if_pcie_disable` -/
def wilIfPcieDisable (nMsi : ℕ) : List ResOp :=
  .release .master :: (wil6210FiniIrq nMsi ++ pciDisableMsi nMsi)

/-- `wil_if_add` -/
def wilIfAdd : ℤ × List ResOp :=
  if o.registerNetdev < 0 then (o.registerNetdev, [.use .ndev])
  else (0, [.use .ndev, .acquire .netdevReg, .use .ndev])

/-- `wil6210_debugfs_init`, whose outcome the probe does not look at. -/
def wil6210DebugfsInit : List ResOp := .use .wiphy :: if o.debugfs then [.acquire .debugfs] else []

/-- `wil6210_debugfs_remove` -/
def wil6210DebugfsRemove (debugfs : Bool) : List ResOp :=
  .use .wiphy :: if debugfs then [.release .debugfs] else []

/-- `wmi_echo`, whose outcome the probe does not look at. -/
def wmiEchoUses : List ResOp := [.use .wiphy, .use .csr]

/-- The calls of `wil_pcie_probe` up to `wil_if_alloc`, with what follows. -/
def probeCalls (rest : List (Rung Res)) : ℤ × List ResOp :=
  ladder (call .pdev (if o.enableDevice = 0 then 0 else eNodev) :: call .region o.requestRegion ::
    call .csr (ptrErr o.ioremap eNodev) :: rest)

/-- The calls behind `wil_if_alloc` -/
def probeRest (useMsi : ℤ) (debugFw : Bool) : List (Rung Res) :=
  [⟨(wilIfPcieEnable o useMsi debugFw).1, (wilIfPcieEnable o useMsi debugFw).2,
      wilIfPcieDisable (nMsi o useMsi)⟩,
    ⟨(wilIfAdd o).1, (wilIfAdd o).2, []⟩,
    ⟨0, wil6210DebugfsInit o ++ wmiEchoUses, []⟩]

/-- `wil_pcie_probe`.  Where `wil_if_alloc` does not return, it does not either. -/
def wilPcieProbe (useMsi : ℤ) (debugFw : Bool) : Option ℤ × List ResOp :=
  if o.barLen ≠ wil6210MemSize then (some eNodev, [])
  else
    match wilIfAlloc o with
    | (none, ops) =>
        let p := probeCalls o []
        if p.1 ≠ 0 then (some p.1, p.2) else (none, p.2 ++ ops)
    | (some rc, ops) =>
        let p := probeCalls o (⟨rc, ops, wilIfFree⟩ :: probeRest o useMsi debugFw)
        (some p.1, p.2)

/-- `wil_pcie_remove` -/
def wilPcieRemove (nMsi : ℕ) (debugfs : Bool) : List ResOp :=
  wil6210DebugfsRemove debugfs ++ (wilIfPcieDisable nMsi ++ ([.use .ndev, .release .netdevReg] ++
    (wilIfFree ++ [.use .wiphy, .release .csr, .release .region, .release .pdev])))

end Functions

/-! ## What each function leaves -/

section Attempts

variable {o : ProbeOutcome}

/-- What `wil_if_alloc` holds behind `wil_cfg80211_init`, -/
def cfgHeld : Multiset Res := {.wiphyReg, .wiphy, .wdev}

/-- behind `wil_priv_init`, -/
def privHeld : Multiset Res := {.rocWq, .backWq, .wmiWqConn, .wmiWq} + cfgHeld

/-- and in the end. -/
def ifHeld : Multiset Res := .ndev ::ₘ privHeld

/-- The last workqueue fails, and it alone. -/
def ProbeOutcome.RocFails (o : ProbeOutcome) : Prop :=
  o.wmiWq = true ∧ o.wmiWqConn = true ∧ o.backWq = true ∧ o.rocWq = false

instance (o : ProbeOutcome) : Decidable o.RocFails := inferInstanceAs (Decidable (_ ∧ _))

lemma wilCfg80211Init_attempt (o : ProbeOutcome) :
    Attempt 0 (wilCfg80211Init o) cfgHeld 0 [] := by
  refine Restores.attempt ?_
  exact .call (.call (.call rfl))

/-- Where the last workqueue fails, the one before it is left. -/
lemma wilPrivInitUses_attempt (o : ProbeOutcome) : Attempt cfgHeld (wilPrivInitUses o) privHeld
    ((if o.RocFails then {.backWq} else 0) + cfgHeld) [] := by
  have hqueues : Attempt cfgHeld (ladder [call .wmiWq (ptrErr o.wmiWq eAgain),
      call .wmiWqConn (ptrErr o.wmiWqConn eAgain), call .backWq (ptrErr o.backWq eAgain)])
      (.backWq ::ₘ .wmiWqConn ::ₘ .wmiWq ::ₘ cfgHeld) cfgHeld [] := by
    refine Restores.attempt ?_
    exact .call (.call (.call rfl))
  have hagain : eAgain ≠ 0 := by decide
  have hall : (ladder [call Res.wmiWq (ptrErr o.wmiWq eAgain),
      call .wmiWqConn (ptrErr o.wmiWqConn eAgain), call .backWq (ptrErr o.backWq eAgain)]).1 = 0
        ↔ o.wmiWq = true ∧ o.wmiWqConn = true ∧ o.backWq = true := by
    rw [ladder_eq_zero]
    cases o.wmiWq <;> cases o.wmiWqConn <;> cases o.backWq <;> simp [call, ptrErr, eAgain]
  rw [wilPrivInitUses]
  by_cases hrc : (ladder [call Res.wmiWq (ptrErr o.wmiWq eAgain),
      call .wmiWqConn (ptrErr o.wmiWqConn eAgain), call .backWq (ptrErr o.backWq eAgain)]).1 = 0
  · rw [if_neg (not_not_intro hrc)]
    obtain ⟨hwmi, hconn, hback⟩ := hall.mp hrc
    by_cases hroc : o.rocWq = true
    · rw [if_neg (not_not_intro hroc)]
      refine ⟨fun _ => .use (by decide) ?_, fun hne => absurd rfl hne⟩
      exact (hqueues.ok hrc).append (.acquire (.nil _))
    · rw [if_pos hroc]
      have hfails : o.RocFails := ⟨hwmi, hconn, hback, Bool.eq_false_iff.mpr hroc⟩
      rw [if_pos hfails]
      refine ⟨fun hok => absurd hok hagain, fun _ => .use (by decide) ?_⟩
      exact (hqueues.ok hrc).append (by decide)
  · rw [if_pos hrc, if_neg fun hfails => hrc (hall.mpr ⟨hfails.1, hfails.2.1, hfails.2.2.1⟩),
      zero_add]
    exact ⟨fun hok => absurd hok hagain, fun _ => .use (by decide) (hqueues.failed hrc)⟩

lemma wilPrivInitUses_eq_zero : (wilPrivInitUses o).1 = 0 → ¬ o.RocFails := by
  intro hrc hfails
  obtain ⟨hwmi, hconn, hback, hroc⟩ := hfails
  simp [wilPrivInitUses, ladder, call, ptrErr, hwmi, hconn, hback, hroc, eAgain] at hrc

/-- There is no `net_device`, behind `wil_priv_init`. -/
def ProbeOutcome.NoNetdev (o : ProbeOutcome) : Prop :=
  (wilCfg80211Init o).1 = 0 ∧ (wilPrivInitUses o).1 = 0 ∧ o.netdev = false

instance (o : ProbeOutcome) : Decidable o.NoNetdev := inferInstanceAs (Decidable (_ ∧ _))

lemma wilIfAllocPriv_eq_zero :
    (wilIfAllocPriv o).1 = 0 ↔ (wilCfg80211Init o).1 = 0 ∧ (wilPrivInitUses o).1 = 0 := by
  rw [wilIfAllocPriv, ladder_eq_zero, List.forall_mem_cons, List.forall_mem_singleton]

lemma wilIfAllocPriv_attempt (o : ProbeOutcome) : Attempt 0 (wilIfAllocPriv o) privHeld
    (if (wilCfg80211Init o).1 = 0 ∧ o.RocFails then {.backWq} else 0) [] := by
  have hempty : Attempt privHeld (ladder ([] : List (Rung Res))) privHeld
      ((if o.RocFails then {.backWq} else 0) + cfgHeld) [] :=
    ⟨fun _ => .nil _, fun hne => absurd rfl hne⟩
  have hpriv := (wilPrivInitUses_attempt o).rung
    (r := ⟨(wilPrivInitUses o).1, (wilPrivInitUses o).2, []⟩) (fun _ => hempty)
    fun _ _ => .nil _
  rw [ite_self, List.append_nil, ite_self] at hpriv
  have hfree : Yields ((if o.RocFails then {.backWq} else 0) + cfgHeld) wilWdevFree
      (if o.RocFails then {.backWq} else 0) [] := by
    have hown : Yields cfgHeld wilWdevFree 0 [] := by decide
    have hall := hown.frame (if o.RocFails then {.backWq} else 0)
      fun _ hf => absurd hf List.not_mem_nil
    rwa [zero_add, add_comm] at hall
  have hcfg := (wilCfg80211Init_attempt o).rung
    (r := ⟨(wilCfg80211Init o).1, (wilCfg80211Init o).2, wilWdevFree⟩) (fun _ => hpriv)
    fun _ _ => hfree
  rw [List.append_nil, ite_self] at hcfg
  rw [wilIfAllocPriv, ite_and]
  exact hcfg

/-- `wil_if_alloc`, where it returns. -/
lemma wilIfAlloc_attempt {rc : ℤ} {ops : List ResOp} (h : wilIfAlloc o = (some rc, ops)) :
    Attempt 0 (rc, ops) ifHeld
      (if (wilCfg80211Init o).1 = 0 ∧ o.RocFails then {.backWq} else 0) [] := by
  have hpriv := wilIfAllocPriv_attempt o
  rw [wilIfAlloc] at h
  by_cases hrc : (wilIfAllocPriv o).1 = 0
  · rw [if_neg (not_not_intro hrc)] at h
    cases hndev : o.netdev with
    | true =>
        rw [hndev, if_pos rfl] at h
        obtain ⟨hrc', rfl⟩ := Prod.mk.inj h
        obtain rfl := Option.some.inj hrc'
        exact ⟨fun _ => (hpriv.ok hrc).append (.acquire (.nil _)), fun hne => absurd rfl hne⟩
    | false => simp [hndev] at h
  · rw [if_pos hrc] at h
    obtain ⟨hrc', rfl⟩ := Prod.mk.inj h
    obtain rfl := Option.some.inj hrc'
    exact ⟨fun hok => absurd hok hrc, hpriv.failed⟩

/-- Where it returns there is a `net_device`, or it failed before. -/
lemma wilIfAlloc_some {rc : ℤ} {ops : List ResOp} (h : wilIfAlloc o = (some rc, ops)) :
    ¬ o.NoNetdev ∧ (rc = 0 ↔ (wilCfg80211Init o).1 = 0 ∧ (wilPrivInitUses o).1 = 0) := by
  rw [← wilIfAllocPriv_eq_zero]
  rw [wilIfAlloc] at h
  by_cases hrc : (wilIfAllocPriv o).1 = 0
  · rw [if_neg (not_not_intro hrc)] at h
    cases hndev : o.netdev with
    | true =>
        rw [hndev, if_pos rfl] at h
        obtain rfl := Option.some.inj (Prod.mk.inj h).1
        exact ⟨fun hno => absurd (hndev.symm.trans hno.2.2) (by decide), iff_of_true rfl hrc⟩
    | false => simp [hndev] at h
  · rw [if_pos hrc] at h
    obtain rfl := Option.some.inj (Prod.mk.inj h).1
    exact ⟨fun hno => hrc (wilIfAllocPriv_eq_zero.mpr ⟨hno.1, hno.2.1⟩), Iff.rfl⟩

/-- Without a `net_device` it does not, and all that was acquired stays. -/
lemma wilIfAlloc_none {ops : List ResOp} (h : wilIfAlloc o = (none, ops)) :
    o.NoNetdev ∧ Yields 0 ops privHeld [.use .ndev] := by
  have hpriv := wilIfAllocPriv_attempt o
  rw [wilIfAlloc] at h
  by_cases hrc : (wilIfAllocPriv o).1 = 0
  · rw [if_neg (not_not_intro hrc)] at h
    cases hndev : o.netdev with
    | true => simp [hndev] at h
    | false =>
        rw [hndev, if_neg Bool.false_ne_true] at h
        obtain ⟨-, rfl⟩ := Prod.mk.inj h
        obtain ⟨hcfg, hpriv'⟩ := wilIfAllocPriv_eq_zero.mp hrc
        exact ⟨⟨hcfg, hpriv', hndev⟩, (hpriv.ok hrc).append (by decide)⟩
  · rw [if_pos hrc] at h
    exact absurd (Prod.mk.inj h).1 (by simp)

/-- What `wil_if_alloc` starts from, -/
def barHeld : Multiset Res := {.csr, .region, .pdev}

/-- what `wil_if_pcie_enable` starts from, -/
def allocHeld : Multiset Res := ifHeld + barHeld

def msiHeld (n : ℕ) : Multiset Res := if n = 0 then 0 else {.msi}

def irqHeld (n : ℕ) : Multiset Res := if n = 3 then {.irq 2, .irq 1, .irq 0} else {.irq 0}

/-- and what it holds in the end. -/
def busHeld (n : ℕ) : Multiset Res := irqHeld n + (msiHeld n + .master ::ₘ allocHeld)

lemma mem_msiHeld {n : ℕ} {r : Res} (hr : r ∈ msiHeld n) : r = .msi := by
  rw [msiHeld] at hr
  split_ifs at hr
  · exact absurd hr (Multiset.notMem_zero _)
  · exact Multiset.mem_singleton.mp hr

lemma wil6210InitIrq_attempt (o : ProbeOutcome) (n : ℕ) {held : Multiset Res}
    (hcsr : Res.csr ∈ held) :
    Attempt held (wil6210InitIrq o n) (irqHeld n + held) held [] := by
  have hrequest : Attempt held
      (if n = 3 then wil6210Request3msi o else ladder [call (.irq 0) (o.requestIrq 0)])
      (irqHeld n + held) held [] := by
    by_cases hn : n = 3
    · rw [if_pos hn, irqHeld, if_pos hn]
      refine Restores.attempt ?_
      exact .call (.call (.call (by simp only [Restores, Multiset.insert_eq_cons, Multiset.cons_add,
        Multiset.singleton_add])))
    · rw [if_neg hn, irqHeld, if_neg hn]
      refine Restores.attempt ?_
      exact .call (by simp only [Restores, Multiset.singleton_add])
  rw [wil6210InitIrq]
  by_cases hrc : (if n = 3 then wil6210Request3msi o
      else ladder [call (.irq 0) (o.requestIrq 0)]).1 = 0
  · rw [if_neg (not_not_intro hrc)]
    refine ⟨fun _ => ?_, fun hne => absurd rfl hne⟩
    exact (hrequest.ok hrc).append (.use (Multiset.mem_add.mpr (.inr hcsr)) (.nil _))
  · rw [if_pos hrc]
    exact hrequest

/-- Taking the interrupts back. -/
lemma wil6210FiniIrq_yields (n : ℕ) {held : Multiset Res} (hcsr : Res.csr ∈ held) :
    Yields (irqHeld n + (msiHeld n + held)) (wil6210FiniIrq n ++ pciDisableMsi n) held [] := by
  have hown : Yields (irqHeld n + (msiHeld n + {.csr})) (wil6210FiniIrq n ++ pciDisableMsi n)
      {.csr} [] := by
    rw [irqHeld, msiHeld, wil6210FiniIrq, pciDisableMsi]
    by_cases hzero : n = 0
    · subst hzero
      decide
    · by_cases hn : n = 3
      · rw [if_neg hzero, if_neg hzero, if_pos hn, if_pos hn]
        decide
      · rw [if_neg hzero, if_neg hzero, if_neg hn, if_neg hn]
        decide
  obtain ⟨rest, rfl⟩ := Multiset.exists_cons_of_mem hcsr
  have hall := hown.frame rest fun _ hf => absurd hf List.not_mem_nil
  rwa [add_assoc, add_assoc, Multiset.singleton_add] at hall

lemma wilIfPcieDisable_yields (n : ℕ) :
    Yields (busHeld n) (wilIfPcieDisable n) allocHeld [] := by
  rw [busHeld, Multiset.add_cons, Multiset.add_cons]
  exact .release (wil6210FiniIrq_yields n (by decide))

/-- Where the interrupts cannot be requested, MSI stays enabled. -/
lemma wilIfPcieEnable_attempt (o : ProbeOutcome) (useMsi : ℤ) (debugFw : Bool) :
    Attempt allocHeld (wilIfPcieEnable o useMsi debugFw) (busHeld (nMsi o useMsi))
      ((if (wil6210InitIrq o (nMsi o useMsi)).1 = 0 then 0 else msiHeld (nMsi o useMsi))
        + allocHeld) [] := by
  rw [wilIfPcieEnable]
  generalize nMsi o useMsi = n
  have hcsr : Res.csr ∈ msiHeld n + .master ::ₘ allocHeld :=
    Multiset.mem_add.mpr (.inr (by decide))
  have hreset : Yields (busHeld n) wilResetUses (busHeld n) [] := by
    have hown : Yields (.master ::ₘ allocHeld) wilResetUses (.master ::ₘ allocHeld) [] := by decide
    have hall := hown.frame (irqHeld n + msiHeld n) fun _ hf => absurd hf List.not_mem_nil
    rwa [add_comm, add_assoc] at hall
  have hlast : Attempt (busHeld n) (ladder [⟨if debugFw then 0 else o.fwReady, wilResetUses, []⟩])
      (busHeld n) (busHeld n) [] :=
    Restores.attempt ⟨busHeld n, ⟨fun _ => hreset, fun _ => hreset⟩, .nil _, rfl⟩
  have hirq := (wil6210InitIrq_attempt o n hcsr).rung
    (r := ⟨(wil6210InitIrq o n).1, (wil6210InitIrq o n).2, wil6210FiniIrq n ++ pciDisableMsi n⟩)
    (fun _ => hlast) fun _ _ => wil6210FiniIrq_yields n (by decide)
  have hmsi : Yields (.master ::ₘ allocHeld)
      (.use .wiphy :: if n = 0 then [] else [.acquire .msi])
      (msiHeld n + .master ::ₘ allocHeld) [] := by
    refine .use (by decide) ?_
    by_cases hzero : n = 0
    · rw [msiHeld, if_pos hzero, if_pos hzero, zero_add]
      exact .nil _
    · rw [msiHeld, if_neg hzero, if_neg hzero]
      exact .acquire (.nil _)
  have hrest : Attempt (.master ::ₘ allocHeld) (ladder [
      ⟨0, .use .wiphy :: if n = 0 then [] else [.acquire .msi], []⟩,
      ⟨(wil6210InitIrq o n).1, (wil6210InitIrq o n).2, wil6210FiniIrq n ++ pciDisableMsi n⟩,
      ⟨if debugFw then 0 else o.fwReady, wilResetUses, []⟩]) (busHeld n)
      ((if (wil6210InitIrq o n).1 = 0 then 0 else msiHeld n) + .master ::ₘ allocHeld) [] := by
    convert hirq.step hmsi using 1
    · by_cases hrc : (wil6210InitIrq o n).1 = 0
      · rw [if_pos hrc, if_pos hrc, zero_add]
      · rw [if_neg hrc, if_neg hrc]
    · rw [List.append_nil, ite_self]
  have hmaster := Attempt.call allocHeld .master 0 fun _ => hrest
  rwa [if_pos rfl, ite_self] at hmaster

lemma wilIfPcieEnable_eq_zero {useMsi : ℤ} {debugFw : Bool}
    (hrc : (wilIfPcieEnable o useMsi debugFw).1 = 0) :
    (wil6210InitIrq o (nMsi o useMsi)).1 = 0 :=
  ladder_eq_zero.mp hrc _ (List.mem_cons_of_mem _ (List.mem_cons_of_mem _ List.mem_cons_self))

lemma wilIfAdd_attempt (o : ProbeOutcome) {held : Multiset Res} (hndev : Res.ndev ∈ held) :
    Attempt held (wilIfAdd o) (.netdevReg ::ₘ held) held [] := by
  rw [wilIfAdd]
  by_cases hrc : o.registerNetdev < 0
  · rw [if_pos hrc]
    exact ⟨fun hok => absurd hok hrc.ne, fun _ => .use hndev (.nil _)⟩
  · rw [if_neg hrc]
    refine ⟨fun _ => .use hndev (.acquire (.use ?_ (.nil _))), fun hne => absurd rfl hne⟩
    exact Multiset.mem_cons_of_mem hndev

def debugfsHeld (debugfs : Bool) : Multiset Res := if debugfs then {.debugfs} else 0

/-- What a driver that is bound to its device holds. -/
def boundHeld (n : ℕ) (debugfs : Bool) : Multiset Res :=
  debugfsHeld debugfs + .netdevReg ::ₘ busHeld n

/-- The probe gets to `wil_if_alloc`. -/
def ProbeOutcome.Mapped (o : ProbeOutcome) : Prop :=
  o.barLen = wil6210MemSize ∧ o.enableDevice = 0 ∧ o.requestRegion = 0 ∧ o.ioremap = true

instance (o : ProbeOutcome) : Decidable o.Mapped := inferInstanceAs (Decidable (_ ∧ _))

/-- **What a probe leaves behind**, where it does not succeed: of an oops, all. -/
def ProbeOutcome.lost (o : ProbeOutcome) (useMsi : ℤ) : Multiset Res :=
  if o.Mapped then
    if (wilCfg80211Init o).1 = 0 ∧ o.RocFails then {.backWq}
    else if o.NoNetdev then privHeld + barHeld
    else if (wilIfAlloc o).1 = some 0 ∧ (wil6210InitIrq o (nMsi o useMsi)).1 ≠ 0 then
      msiHeld (nMsi o useMsi)
    else 0
  else 0

/-- **What a probe uses that is not there**, or not any more: it fails behind `wil_priv_init`. -/
def ProbeOutcome.stale (o : ProbeOutcome) (useMsi : ℤ) (debugFw : Bool) : List ResOp :=
  if o.Mapped ∧ (wilCfg80211Init o).1 = 0 ∧ (wilPrivInitUses o).1 = 0 ∧
      (wilPcieProbe o useMsi debugFw).1 ≠ some 0 then [.use .ndev]
  else []

/-- From a `wil_if_alloc` that returns. -/
lemma wilPcieProbe_alloc (useMsi : ℤ) (debugFw : Bool) {rc : ℤ} {ops : List ResOp}
    (h : wilIfAlloc o = (some rc, ops)) :
    Attempt barHeld (ladder (⟨rc, ops, wilIfFree⟩ :: probeRest o useMsi debugFw))
      (boundHeld (nMsi o useMsi) o.debugfs)
      ((if (wilCfg80211Init o).1 = 0 ∧ o.RocFails then {.backWq}
        else if rc = 0 ∧ (wil6210InitIrq o (nMsi o useMsi)).1 ≠ 0 then msiHeld (nMsi o useMsi)
        else 0) + barHeld)
      (if rc = 0 then [.use .ndev] else []) := by
  rw [probeRest]
  have hirq := wilIfPcieEnable_attempt o useMsi debugFw
  have henabled : (wilIfPcieEnable o useMsi debugFw).1 = 0 →
      (wil6210InitIrq o (nMsi o useMsi)).1 = 0 := wilIfPcieEnable_eq_zero
  generalize nMsi o useMsi = n at *
  have hmem : ∀ r : Res, r ∈ Res.master ::ₘ allocHeld → r ∈ busHeld n := fun r hr =>
    Multiset.mem_add.mpr (.inr (Multiset.mem_add.mpr (.inr hr)))
  have hlast : Yields (.netdevReg ::ₘ busHeld n) (wil6210DebugfsInit o ++ wmiEchoUses)
      (boundHeld n o.debugfs) [] := by
    have hinit : Yields (.netdevReg ::ₘ busHeld n) (wil6210DebugfsInit o)
        (boundHeld n o.debugfs) [] := by
      refine .use (Multiset.mem_cons_of_mem (hmem _ (by decide))) ?_
      cases hdebug : o.debugfs with
      | true => exact .acquire (.nil _)
      | false =>
          rw [boundHeld, debugfsHeld, if_neg Bool.false_ne_true, if_neg Bool.false_ne_true,
            zero_add]
          exact .nil _
    have huses : ∀ r : Res, r ∈ Res.master ::ₘ allocHeld → r ∈ boundHeld n o.debugfs := fun r hr =>
      Multiset.mem_add.mpr (.inr (Multiset.mem_cons_of_mem (hmem r hr)))
    exact hinit.append (.use (huses _ (by decide)) (.use (huses _ (by decide)) (.nil _)))
  have hadd : Attempt (busHeld n) (ladder [⟨(wilIfAdd o).1, (wilIfAdd o).2, []⟩,
      ⟨0, wil6210DebugfsInit o ++ wmiEchoUses, []⟩]) (boundHeld n o.debugfs) (busHeld n) [] := by
    have hempty : Attempt (boundHeld n o.debugfs) (ladder ([] : List (Rung Res)))
        (boundHeld n o.debugfs) (busHeld n) [] := ⟨fun _ => .nil _, fun hne => absurd rfl hne⟩
    have hrung := (wilIfAdd_attempt o (hmem _ (by decide))).rung
      (r := ⟨(wilIfAdd o).1, (wilIfAdd o).2, []⟩) (fun _ => hempty.step hlast) fun _ _ => .nil _
    rwa [ite_self, List.append_nil, ite_self] at hrung
  have henable : Attempt allocHeld (ladder
      [⟨(wilIfPcieEnable o useMsi debugFw).1, (wilIfPcieEnable o useMsi debugFw).2,
        wilIfPcieDisable n⟩,
      ⟨(wilIfAdd o).1, (wilIfAdd o).2, []⟩, ⟨0, wil6210DebugfsInit o ++ wmiEchoUses, []⟩])
      (boundHeld n o.debugfs)
      ((if (wil6210InitIrq o n).1 = 0 then 0 else msiHeld n) + allocHeld) [] := by
    have hrung := hirq.rung (r := ⟨(wilIfPcieEnable o useMsi debugFw).1,
      (wilIfPcieEnable o useMsi debugFw).2, wilIfPcieDisable n⟩) (fun _ => hadd)
      fun _ _ => wilIfPcieDisable_yields n
    convert hrung using 1
    · by_cases hrc : (wilIfPcieEnable o useMsi debugFw).1 = 0
      · rw [if_pos hrc, if_pos (henabled hrc), zero_add]
      · rw [if_neg hrc]
    · rw [List.append_nil, ite_self]
  have hfree : Yields ((if (wil6210InitIrq o n).1 = 0 then 0 else msiHeld n) + allocHeld) wilIfFree
      ((if (wil6210InitIrq o n).1 = 0 then 0 else msiHeld n) + barHeld) [.use .ndev] := by
    have hown : Yields allocHeld wilIfFree barHeld [.use .ndev] := by decide
    rw [add_comm, add_comm _ barHeld]
    refine hown.frame _ fun f hf hmem => ?_
    obtain rfl := List.mem_singleton.mp hf
    split_ifs at hmem
    · exact Multiset.notMem_zero _ hmem
    · exact absurd (mem_msiHeld hmem) (by decide)
  have halloc := ((wilIfAlloc_attempt h).frame barHeld fun _ hf => absurd hf List.not_mem_nil).rung
    (r := ⟨rc, ops, wilIfFree⟩) (fun _ => henable) fun _ _ => hfree
  rw [zero_add, List.nil_append] at halloc
  convert halloc using 1
  by_cases hrc : rc = 0
  · have hroc := wilPrivInitUses_eq_zero ((wilIfAlloc_some h).2.mp hrc).2
    rw [if_pos hrc, if_neg fun hfails => hroc hfails.2]
    simp only [hrc, true_and]
    by_cases hirqs : (wil6210InitIrq o n).1 = 0
    · rw [if_neg (not_not_intro hirqs), if_pos hirqs]
    · rw [if_pos hirqs, if_neg hirqs]
  · rw [if_neg hrc]
    simp only [hrc, false_and, if_false]

lemma probeCalls_attempt (o : ProbeOutcome) {rest : List (Rung Res)} {done lost : Multiset Res}
    {faults : List ResOp} (hbar : o.barLen = wil6210MemSize)
    (h : Attempt barHeld (ladder rest) done (lost + barHeld) faults) :
    Attempt 0 (probeCalls o rest) done (if o.Mapped then lost else 0)
      (if o.Mapped then faults else []) := by
  have hcsr := Attempt.call {Res.region, Res.pdev} .csr (ptrErr o.ioremap eNodev) fun _ => h
  have hregion := Attempt.call {Res.pdev} .region o.requestRegion fun _ => hcsr
  have hcalls := Attempt.call 0 Res.pdev (if o.enableDevice = 0 then 0 else eNodev)
    fun _ => hregion
  have hmapped : o.Mapped ↔ (if o.enableDevice = 0 then 0 else eNodev) = 0 ∧
      o.requestRegion = 0 ∧ ptrErr o.ioremap eNodev = 0 := by
    have herr : eNodev ≠ 0 := by decide
    simp [ProbeOutcome.Mapped, hbar, ptrErr, herr]
  rw [if_congr hmapped rfl rfl, if_congr hmapped rfl rfl, ite_and, ite_and, ite_and, ite_and]
  rwa [add_zero] at hcalls

/-- The ladder gets to `wil_if_alloc`, or the probe fails before. -/
lemma probeCalls_eq_zero {rest : List (Rung Res)} (hbar : o.barLen = wil6210MemSize) :
    (probeCalls o rest).1 = 0 ↔ o.Mapped ∧ ∀ r ∈ rest, r.rc = 0 := by
  have herr : eNodev ≠ 0 := by decide
  rw [probeCalls, ladder_eq_zero]
  simp [ProbeOutcome.Mapped, hbar, call, ptrErr, herr, and_assoc]

lemma probeCalls_nil (hbar : o.barLen = wil6210MemSize) :
    (probeCalls o []).1 = 0 ↔ o.Mapped := by
  rw [probeCalls_eq_zero hbar, and_iff_left fun _ hr => absurd hr List.not_mem_nil]

section Probe

variable {useMsi : ℤ} {debugFw : Bool} {rc : ℤ} {ops : List ResOp}

lemma wilPcieProbe_of_some (hbar : o.barLen = wil6210MemSize)
    (h : wilIfAlloc o = (some rc, ops)) :
    wilPcieProbe o useMsi debugFw =
      (some (probeCalls o (⟨rc, ops, wilIfFree⟩ :: probeRest o useMsi debugFw)).1,
        (probeCalls o (⟨rc, ops, wilIfFree⟩ :: probeRest o useMsi debugFw)).2) := by
  rw [wilPcieProbe, if_neg (not_not_intro hbar), h]

lemma wilPcieProbe_of_none (hbar : o.barLen = wil6210MemSize) (h : wilIfAlloc o = (none, ops)) :
    wilPcieProbe o useMsi debugFw = if (probeCalls o []).1 ≠ 0 then
      (some (probeCalls o []).1, (probeCalls o []).2) else (none, (probeCalls o []).2 ++ ops) := by
  rw [wilPcieProbe, if_neg (not_not_intro hbar), h]

/-- A probe does not return where it gets to `alloc_netdev`, and that fails. -/
lemma wilPcieProbe_eq_none :
    (wilPcieProbe o useMsi debugFw).1 = none ↔ o.Mapped ∧ o.NoNetdev := by
  by_cases hbar : o.barLen = wil6210MemSize
  · rcases halloc : wilIfAlloc o with ⟨_ | rc, ops⟩
    · have hno := (wilIfAlloc_none halloc).1
      rw [wilPcieProbe_of_none hbar halloc]
      by_cases hrc : (probeCalls o []).1 = 0
      · rw [if_neg (not_not_intro hrc)]
        exact iff_of_true rfl ⟨(probeCalls_nil hbar).mp hrc, hno⟩
      · rw [if_pos hrc]
        exact iff_of_false (Option.some_ne_none _) fun h => hrc ((probeCalls_nil hbar).mpr h.1)
    · rw [wilPcieProbe_of_some hbar halloc]
      exact iff_of_false (Option.some_ne_none _) fun h => (wilIfAlloc_some halloc).1 h.2
  · rw [wilPcieProbe, if_pos hbar]
    exact iff_of_false (Option.some_ne_none _) fun h => hbar h.1.1

/-- **A probe that succeeds** holds all. -/
lemma wilPcieProbe_ok (hrc : (wilPcieProbe o useMsi debugFw).1 = some 0) :
    Yields 0 (wilPcieProbe o useMsi debugFw).2 (boundHeld (nMsi o useMsi) o.debugfs) [] := by
  by_cases hbar : o.barLen = wil6210MemSize
  · rcases halloc : wilIfAlloc o with ⟨_ | rc, ops⟩
    · rw [wilPcieProbe_of_none hbar halloc] at hrc
      split_ifs at hrc with hcalls
      exact absurd (Option.some.inj hrc) hcalls
    · rw [wilPcieProbe_of_some hbar halloc] at hrc ⊢
      have hprobe := probeCalls_attempt o hbar (wilPcieProbe_alloc useMsi debugFw halloc)
      exact hprobe.ok (Option.some.inj hrc)
  · rw [wilPcieProbe, if_pos hbar] at hrc
    exact absurd (Option.some.inj hrc) (by decide)

/-- **A probe that does not** leaves what is lost. -/
lemma wilPcieProbe_failed (hrc : (wilPcieProbe o useMsi debugFw).1 ≠ some 0) :
    Yields 0 (wilPcieProbe o useMsi debugFw).2 (o.lost useMsi) (o.stale useMsi debugFw) := by
  rw [ProbeOutcome.stale]
  simp only [hrc, ne_eq, not_false_eq_true, and_true]
  by_cases hbar : o.barLen = wil6210MemSize
  · rcases halloc : wilIfAlloc o with ⟨_ | rc, ops⟩
    · obtain ⟨hno, hops⟩ := wilIfAlloc_none halloc
      have hfails : ¬ ((wilCfg80211Init o).1 = 0 ∧ o.RocFails) := fun h =>
        wilPrivInitUses_eq_zero hno.2.1 h.2
      have hempty : Attempt barHeld (ladder ([] : List (Rung Res))) barHeld (0 + barHeld) [] :=
        ⟨fun _ => .nil _, fun hne => absurd rfl hne⟩
      have hcalls := probeCalls_attempt o hbar hempty
      rw [ProbeOutcome.lost, if_neg hfails, if_pos hno, wilPcieProbe_of_none hbar halloc]
      by_cases hrc' : (probeCalls o []).1 = 0
      · have hmap := (probeCalls_nil hbar).mp hrc'
        rw [if_neg (not_not_intro hrc'), if_pos hmap, if_pos ⟨hmap, hno.1, hno.2.1⟩]
        refine (hcalls.ok hrc').append ?_
        have hall := hops.frame barHeld fun f hf => by
          obtain rfl := List.mem_singleton.mp hf
          decide
        rwa [zero_add] at hall
      · have hmap : ¬ o.Mapped := fun hmap => hrc' ((probeCalls_nil hbar).mpr hmap)
        have hfail := hcalls.failed hrc'
        rw [if_pos hrc', if_neg hmap, if_neg fun h => hmap h.1]
        rwa [if_neg hmap, if_neg hmap] at hfail
    · obtain ⟨hno, hzero⟩ := wilIfAlloc_some halloc
      have hprobe := probeCalls_attempt o hbar (wilPcieProbe_alloc useMsi debugFw halloc)
      rw [wilPcieProbe_of_some hbar halloc] at hrc ⊢
      have hfail := hprobe.failed fun h => hrc (congrArg some h)
      rw [ProbeOutcome.lost, if_neg hno, halloc]
      simp only [Option.some.injEq]
      rw [if_congr (and_congr Iff.rfl hzero.symm) rfl rfl]
      rwa [← ite_and] at hfail
  · have hlost : o.lost useMsi = 0 := if_neg fun h => hbar h.1
    rw [wilPcieProbe, if_pos hbar, hlost, if_neg fun h => hbar h.1.1]
    exact .nil _

/-- A probe that succeeds loses nothing. -/
lemma ProbeOutcome.lost_eq_zero (hrc : (wilPcieProbe o useMsi debugFw).1 = some 0) :
    o.lost useMsi = 0 := by
  by_cases hbar : o.barLen = wil6210MemSize
  · rcases halloc : wilIfAlloc o with ⟨_ | rc, ops⟩
    · rw [wilPcieProbe_of_none hbar halloc] at hrc
      split_ifs at hrc with hcalls
      exact absurd (Option.some.inj hrc) hcalls
    · rw [wilPcieProbe_of_some hbar halloc] at hrc
      obtain ⟨hno, hzero⟩ := wilIfAlloc_some halloc
      have hcalls := ((probeCalls_eq_zero hbar).mp (Option.some.inj hrc)).2
      rw [List.forall_mem_cons, probeRest, List.forall_mem_cons] at hcalls
      obtain ⟨hrc', henable, -⟩ := hcalls
      have hroc := wilPrivInitUses_eq_zero (hzero.mp hrc').2
      have hirq := wilIfPcieEnable_eq_zero henable
      simp only [ProbeOutcome.lost, hno, hroc, hirq, ne_eq, not_true_eq_false, and_false, if_false,
        ite_self]
  · exact if_neg fun h => hbar h.1

/-- What a probe loses that returns is one of two things. -/
lemma ProbeOutcome.mem_lost {r : Res} (hret : ¬ (o.Mapped ∧ o.NoNetdev))
    (hr : r ∈ o.lost useMsi) : r = .backWq ∨ r = .msi := by
  rw [ProbeOutcome.lost] at hr
  split_ifs at hr with hmapped hroc hno
  · exact .inl (Multiset.mem_singleton.mp hr)
  · exact absurd ⟨hmapped, hno⟩ hret
  · exact .inr (mem_msiHeld hr)
  · exact absurd hr (Multiset.notMem_zero r)
  · exact absurd hr (Multiset.notMem_zero r)

end Probe

lemma wilPcieRemove_yields (n : ℕ) (debugfs : Bool) :
    Yields (boundHeld n debugfs) (wilPcieRemove n debugfs) 0 [.use .ndev, .use .wiphy] := by
  have hdebug : Yields (boundHeld n debugfs) (wil6210DebugfsRemove debugfs)
      (.netdevReg ::ₘ busHeld n) [] := by
    have hwiphy : Res.wiphy ∈ boundHeld n debugfs :=
      Multiset.mem_add.mpr (.inr (Multiset.mem_cons_of_mem (Multiset.mem_add.mpr
        (.inr (Multiset.mem_add.mpr (.inr (by decide)))))))
    refine .use hwiphy ?_
    cases debugfs with
    | true => exact .release (.nil _)
    | false =>
        rw [boundHeld, debugfsHeld, if_neg Bool.false_ne_true, if_neg Bool.false_ne_true, zero_add]
        exact .nil _
  have hdisable : Yields (.netdevReg ::ₘ busHeld n) (wilIfPcieDisable n)
      (.netdevReg ::ₘ allocHeld) [] := by
    have hall := (wilIfPcieDisable_yields n).frame {.netdevReg}
      fun _ hf => absurd hf List.not_mem_nil
    rwa [add_comm, add_comm allocHeld, Multiset.singleton_add, Multiset.singleton_add] at hall
  have hrest : Yields (.netdevReg ::ₘ allocHeld) ([.use .ndev, .release .netdevReg] ++ (wilIfFree ++
      [.use .wiphy, .release .csr, .release .region, .release .pdev])) 0
      [.use .ndev, .use .wiphy] := by
    decide
  exact hdebug.append (hdisable.append hrest)

end Attempts

/-! ## Probes and removes -/

/-- Where a device stands with its driver. -/
inductive ProbeState
  | unbound
  /-- `n_msi`, and whether there is a debugfs directory -/
  | bound (nMsi : ℕ) (debugfs : Bool)
  /-- A probe did not return, and the lock of the device is held for good. -/
  | oops
  deriving DecidableEq

structure ProbeSys where
  state : ProbeState
  held : Multiset Res
  faults : List ResOp

inductive ProbeAction
  | probe (o : ProbeOutcome)
  | remove

/-- Where a probe leaves the device. -/
def probeState (o : ProbeOutcome) (useMsi : ℤ) : Option ℤ → ProbeState
  | none => .oops
  | some rc => if rc = 0 then .bound (nMsi o useMsi) o.debugfs else .unbound

namespace ProbeSys

/-- These operations ran. -/
def did (s : ProbeSys) (ops : List ResOp) (state : ProbeState) : ProbeSys :=
  ⟨state, (Machine.run hold s.held ops).1, s.faults ++ (Machine.run hold s.held ops).2⟩

/-- One step: the driver core probes a device that is not bound, and removes one that is. -/
def step (useMsi : ℤ) (debugFw : Bool) (s : ProbeSys) : ProbeAction → Option ProbeSys
  | .probe o =>
      match s.state with
      | .unbound =>
          let p := wilPcieProbe o useMsi debugFw
          some (s.did p.2 (probeState o useMsi p.1))
      | .bound _ _ | .oops => none
  | .remove =>
      match s.state with
      | .bound nMsi debugfs => some (s.did (wilPcieRemove nMsi debugfs) .unbound)
      | .unbound | .oops => none

def init : ProbeSys := ⟨.unbound, 0, []⟩

/-- What is held for the device that is bound. -/
def holds (s : ProbeSys) : Multiset Res :=
  match s.state with
  | .bound nMsi debugfs => boundHeld nMsi debugfs
  | .unbound | .oops => 0

end ProbeSys

/-- What a step leaves behind, -/
def ProbeAction.lost (useMsi : ℤ) : ProbeAction → Multiset Res
  | .probe o => o.lost useMsi
  | .remove => 0

/-- what it uses that is not there, -/
def ProbeAction.stale (useMsi : ℤ) (debugFw : Bool) : ProbeAction → List ResOp
  | .probe o => o.stale useMsi debugFw
  | .remove => [.use .ndev, .use .wiphy]

/-- and whether it is the last. -/
def ProbeAction.Oops : ProbeAction → Prop
  | .probe o => o.Mapped ∧ o.NoNetdev
  | .remove => False

section Runs

variable {useMsi : ℤ} {debugFw : Bool} {s t : ProbeSys} {a : ProbeAction} {lost : Multiset Res}

lemma ProbeAction.mem_stale {f : ResOp} (hf : f ∈ a.stale useMsi debugFw) :
    f = .use .ndev ∨ f = .use .wiphy := by
  cases a with
  | probe o =>
      simp only [ProbeAction.stale, ProbeOutcome.stale] at hf
      split_ifs at hf
      · exact .inl (List.mem_singleton.mp hf)
      · exact absurd hf List.not_mem_nil
  | remove => simpa [ProbeAction.stale] using hf

lemma probeState_eq_oops {o : ProbeOutcome} {rc : Option ℤ} :
    probeState o useMsi rc = .oops ↔ rc = none := by
  cases rc with
  | none => exact iff_of_true rfl rfl
  | some rc =>
      rw [probeState]
      split_ifs <;> simp

/-- The account of one step. -/
lemma ProbeSys.step_account (hlost : ∀ r ∈ lost, r = .backWq ∨ r = .msi)
    (hs : s.held = s.holds + lost) (ht : s.step useMsi debugFw a = some t) :
    t.held = t.holds + (a.lost useMsi + lost) ∧ t.faults = s.faults ++ a.stale useMsi debugFw := by
  have hframe : ∀ f ∈ a.stale useMsi debugFw, f.res ∉ lost := by
    intro f hf hmem
    rcases ProbeAction.mem_stale hf with rfl | rfl <;>
      exact absurd (hlost _ hmem) (by decide)
  have hdid : ∀ {held ops held'} (state : ProbeState),
      Yields held ops held' (a.stale useMsi debugFw) → s.held = held + lost →
      (s.did ops state).held = held' + lost ∧
        (s.did ops state).faults = s.faults ++ a.stale useMsi debugFw := by
    intro held ops held' state hyields hheld
    have hrun := hyields.frame lost hframe
    rw [← hheld] at hrun
    rw [ProbeSys.did, hrun]
    exact ⟨rfl, rfl⟩
  cases a with
  | probe o =>
      cases hstate : s.state with
      | unbound =>
          simp only [ProbeSys.step, hstate] at ht
          obtain rfl := Option.some.inj ht
          have hzero : s.held = 0 + lost := by
            rw [hs, ProbeSys.holds, hstate]
          by_cases hrc : (wilPcieProbe o useMsi debugFw).1 = some 0
          · have hstale : (ProbeAction.probe o).stale useMsi debugFw = [] :=
              if_neg fun h => h.2.2.2 hrc
            rw [hrc, ProbeAction.lost, ProbeOutcome.lost_eq_zero hrc, zero_add]
            refine hdid (.bound (nMsi o useMsi) o.debugfs) ?_ hzero
            rw [hstale]
            exact wilPcieProbe_ok hrc
          · obtain ⟨hheld, hfaults⟩ := hdid (probeState o useMsi (wilPcieProbe o useMsi debugFw).1)
              (wilPcieProbe_failed hrc) hzero
            refine ⟨hheld.trans ?_, hfaults⟩
            have hholds : ∀ ret : Option ℤ, ret ≠ some 0 →
                (s.did (wilPcieProbe o useMsi debugFw).2 (probeState o useMsi ret)).holds = 0 := by
              intro ret hret
              rcases ret with _ | rc
              · rfl
              · rw [probeState, if_neg fun h => hret (congrArg some h)]
                rfl
            rw [hholds _ hrc, zero_add]
            rfl
      | bound n debugfs => simp [ProbeSys.step, hstate] at ht
      | oops => simp [ProbeSys.step, hstate] at ht
  | remove =>
      cases hstate : s.state with
      | bound n debugfs =>
          simp only [ProbeSys.step, hstate] at ht
          obtain rfl := Option.some.inj ht
          rw [ProbeSys.holds, hstate] at hs
          obtain ⟨hheld, hfaults⟩ := hdid .unbound (wilPcieRemove_yields n debugfs) hs
          refine ⟨hheld.trans ?_, hfaults⟩
          rw [ProbeAction.lost, zero_add lost]
          exact (zero_add lost).symm
      | unbound => simp [ProbeSys.step, hstate] at ht
      | oops => simp [ProbeSys.step, hstate] at ht

/-- A step leaves the device stuck where its probe does not return, -/
lemma ProbeSys.step_oops (ht : s.step useMsi debugFw a = some t) : t.state = .oops ↔ a.Oops := by
  cases a with
  | probe o =>
      cases hstate : s.state with
      | unbound =>
          simp only [ProbeSys.step, hstate] at ht
          obtain rfl := Option.some.inj ht
          exact probeState_eq_oops.trans wilPcieProbe_eq_none
      | bound n debugfs => simp [ProbeSys.step, hstate] at ht
      | oops => simp [ProbeSys.step, hstate] at ht
  | remove =>
      cases hstate : s.state with
      | bound n debugfs =>
          simp only [ProbeSys.step, hstate] at ht
          obtain rfl := Option.some.inj ht
          exact iff_of_false (fun h => nomatch h) id
      | unbound => simp [ProbeSys.step, hstate] at ht
      | oops => simp [ProbeSys.step, hstate] at ht

/-- and then there is no other. -/
lemma ProbeSys.step_of_oops (h : s.state = .oops) : s.step useMsi debugFw a = none := by
  cases a <;> simp [ProbeSys.step, h]

/-- A step that returns loses a workqueue or MSI. -/
lemma ProbeAction.mem_lost (ha : ¬ a.Oops) {r : Res} (hr : r ∈ a.lost useMsi) :
    r = .backWq ∨ r = .msi := by
  cases a with
  | probe o => exact o.mem_lost ha hr
  | remove => exact absurd hr (Multiset.notMem_zero r)

/-- So a run is stuck where one of its probes does not return. -/
lemma ProbeSys.run_oops {as : List ProbeAction}
    (h : Machine.Exec (ProbeSys.step useMsi debugFw) (fun _ _ => True) s as t) :
    t.state = .oops ↔ s.state = .oops ∨ ∃ a ∈ as, a.Oops := by
  induction as generalizing s with
  | nil =>
      obtain rfl : s = t := h
      simp
  | cons a as ih =>
      obtain ⟨-, u, hu, hrest⟩ := h
      have hs : s.state ≠ .oops := fun hoops =>
        absurd (hu.symm.trans (ProbeSys.step_of_oops hoops)) (Option.some_ne_none u)
      rw [ih hrest, ProbeSys.step_oops hu, List.exists_mem_cons_iff, or_iff_right hs]

/-- The account of a run, from any state that is not stuck. -/
lemma ProbeSys.run_account {as : List ProbeAction} (lost : Multiset Res)
    (hlost : ∀ r ∈ lost, r = .backWq ∨ r = .msi) (hs : s.held = s.holds + lost)
    (h : Machine.Exec (ProbeSys.step useMsi debugFw) (fun _ _ => True) s as t) :
    t.held = t.holds + ((as.map (ProbeAction.lost useMsi)).sum + lost) ∧
      t.faults = s.faults ++ as.flatMap (ProbeAction.stale useMsi debugFw) := by
  induction as generalizing s lost with
  | nil =>
      obtain rfl : s = t := h
      simpa using hs
  | cons a as ih =>
      obtain ⟨-, u, hu, hrest⟩ := h
      obtain ⟨hheld, hfaults⟩ := ProbeSys.step_account hlost hs hu
      by_cases hoops : a.Oops
      · cases as with
        | nil =>
            obtain rfl : u = t := hrest
            simpa using ⟨hheld, hfaults⟩
        | cons b bs =>
            obtain ⟨-, w, hw, -⟩ := hrest
            rw [ProbeSys.step_of_oops ((ProbeSys.step_oops hu).mpr hoops)] at hw
            exact absurd hw (Option.some_ne_none w).symm
      · have hlost' : ∀ r ∈ a.lost useMsi + lost, r = .backWq ∨ r = .msi := by
          intro r hr
          rcases Multiset.mem_add.mp hr with hr | hr
          · exact ProbeAction.mem_lost hoops hr
          · exact hlost r hr
        obtain ⟨hheld', hfaults'⟩ := ih _ hlost' hheld hrest
        refine ⟨hheld'.trans ?_, hfaults'.trans ?_⟩
        · rw [List.map_cons, List.sum_cons]
          abel
        · rw [hfaults, List.flatMap_cons, List.append_assoc]

/-- All calls succeed. -/
def allSucceed : ProbeOutcome :=
  ⟨wil6210MemSize, 0, 0, true, true, true, 0, true, true, true, true, true, fun _ => 0, fun _ => 0,
    0, 0, true⟩

end Runs

end Wil6210
