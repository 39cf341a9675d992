/-
**Memory that can be addressed.**

Where no more than 4 GiB can be addressed, a bring-up that finds 4 GiB or more reports the limit of
the platform in place of what it found. What it finds is measured from the first address of the
memory, but what can be addressed is measured from zero. This module says which memory is reported
within the addresses that there are: all of it, unless the memory ends between the last address and
the size from which on the limit is reported.

Main results:

* `State.le_totalMemory_iff` — the memory reaches a size exactly when some range does;
* `State.usable_addressable_iff` — the memory that is reported for the registers of a state;
* `Session.report_addressable_iff` — **the memory that a bring-up reports** lies within 4 GiB exactly
  when all of it ends there or the limit is reported, and is what was found if that is less;
* `Session.report_beyond_addresses` — 3 GiB from 2 GiB on are reported as they are.
-/

import SdramBringup.Proofs.SizeAgreement

set_option relaxedAutoImplicit false
set_option autoImplicit false

namespace SdramBringup

variable {B : Type} [BoardHook B]

open Program

namespace State

/-- The memory that the registers tell reaches a size exactly when some range of it does. -/
theorem le_totalMemory_iff (s : State) {n : Nat} (hn : 0 < n) :
    n ≤ s.totalMemory ↔ ∃ e ∈ s.rangeEnds, s.platform.sdramBase + n ≤ (e + 1) * 2 ^ 24 := by
  have hle := s.totalMemory_le_iff (n - 1)
  constructor
  · intro h
    by_contra hnot
    have : s.totalMemory ≤ n - 1 := hle.2 fun e he => by
      by_contra hbeyond
      exact hnot ⟨e, he, by omega⟩
    omega
  · rintro ⟨e, he, hend⟩
    by_contra hnot
    have := hle.1 (by omega) e he
    omega

/-- **The memory that is reported** for the registers of a state, where no more than 4 GiB can be
addressed and the limit of the platform can. -/
theorem usable_addressable_iff (s : State) (hnarrow : s.platform.wideAddressing = false)
    (hmapped : s.platform.sdramBase + s.platform.mappedLimit ≤ 2 ^ 32) :
    s.platform.sdramBase + (BringUp.usable s.platform s.totalMemory).value ≤ 2 ^ 32 ↔
      (∀ e ∈ s.rangeEnds, (e + 1) * 2 ^ 24 ≤ 2 ^ 32) ∨
        ∃ e ∈ s.rangeEnds, s.platform.sdramBase + 2 ^ 32 ≤ (e + 1) * 2 ^ 24 := by
  have hlarge := s.le_totalMemory_iff (show 0 < 2 ^ 32 by decide)
  have hsmall := s.totalMemory_le_iff (2 ^ 32 - s.platform.sdramBase)
  have hbase : s.platform.sdramBase + (2 ^ 32 - s.platform.sdramBase) = 2 ^ 32 := by omega
  rw [hbase] at hsmall
  rw [Session.value_usable]
  by_cases hlimit : 2 ^ 32 ≤ s.totalMemory
  · rw [if_pos ⟨hnarrow, hlimit⟩]
    exact iff_of_true hmapped (.inr (hlarge.1 hlimit))
  · rw [if_neg fun h => hlimit h.2, or_iff_left (mt hlarge.2 hlimit), ← hsmall]
    omega

end State

namespace Session

/-- A configuration that succeeds comes to the size that its registers tell. -/
theorem total_configure_of_ok {s : Session B} {total : Nat} (h : s.configure.2 = .ok total) :
    total = s.configure.1.state.totalMemory := by
  obtain ⟨⟨sized, result⟩, hsized⟩ : ∃ ran, s.runFrom .readImages true = ran := ⟨_, rfl⟩
  cases result with
  | error f =>
      rw [configure_of_error hsized] at h
      exact absurd h (by simp)
  | ok size =>
      obtain ⟨hstate, hresult⟩ := configure_of_ok hsized
      rw [hresult] at h
      rw [hstate]
      exact (Except.ok.inj h).symm

/-- A bring-up that succeeds reports what can be used of the size that the registers tell. -/
theorem totalMemory_bringUp_of_ok {σ : Type} (d : Device σ) (s : Session B) (t : Traced σ)
    (hok : (s.bringUp.run d t).1.2.failure = none) :
    (s.bringUp.run d t).1.2.totalMemory =
      (BringUp.usable s.state.platform (s.bringUp.run d t).1.1.state.totalMemory).value := by
  obtain ⟨-, hplatform⟩ := bringUp_keeps d s t
  obtain ⟨events, hyields, -⟩ := yields_run d s.bringUp t
  generalize s.bringUp.run d t = ran at *
  obtain ⟨⟨after, report⟩, trace⟩ := ran
  obtain ⟨_, state, -, -, hstate, hend⟩ := yields_bringUp hyields
  have htotal : ∀ total, (configure { s.restart with state }).2 = .ok total →
      total = (configure { s.restart with state }).1.state.totalMemory :=
    fun _ => total_configure_of_ok
  generalize configure { s.restart with state } = configured at hstate hend htotal
  obtain ⟨configured, result⟩ := configured
  cases result with
  | error f => exact absurd (hend.2.1.symm.trans hok) (by simp)
  | ok total =>
      obtain ⟨_, _, _, -, -, -, -, hreport⟩ := hend
      simp only at hplatform hstate
      rw [hreport, hplatform, hstate, htotal total rfl]

/-- **The memory that a bring-up reports can be addressed** exactly when all that is mapped ends
within 4 GiB, or something reaches 4 GiB beyond the first address of the memory, so that the limit of
the platform is reported: wherever no more than 4 GiB can be addressed and the limit of the platform
can. Less than 4 GiB are reported as they are. -/
theorem report_addressable_iff {σ : Type} (d : Device σ) (s : Session B) (t : Traced σ)
    (hnarrow : s.state.platform.wideAddressing = false)
    (hmapped : s.state.platform.sdramBase + s.state.platform.mappedLimit ≤ 2 ^ 32)
    (hok : (s.bringUp.run d t).1.2.failure = none) :
    (s.state.platform.sdramBase + (s.bringUp.run d t).1.2.totalMemory ≤ 2 ^ 32 ↔
      (∀ e ∈ (s.bringUp.run d t).1.1.state.rangeEnds, (e + 1) * 2 ^ 24 ≤ 2 ^ 32) ∨
        ∃ e ∈ (s.bringUp.run d t).1.1.state.rangeEnds,
          s.state.platform.sdramBase + 2 ^ 32 ≤ (e + 1) * 2 ^ 24) ∧
      ((s.bringUp.run d t).1.1.state.totalMemory < 2 ^ 32 →
        (s.bringUp.run d t).1.2.totalMemory = (s.bringUp.run d t).1.1.state.totalMemory) := by
  obtain ⟨-, hplatform⟩ := bringUp_keeps d s t
  have hreport := totalMemory_bringUp_of_ok d s t hok
  rw [← hplatform] at hnarrow hmapped hreport ⊢
  rw [hreport]
  refine ⟨(s.bringUp.run d t).1.1.state.usable_addressable_iff hnarrow hmapped, ?_⟩
  intro hless
  rw [value_usable, if_neg fun h => Nat.not_le_of_gt hless h.2]

/-- One controller with two slots, memory from 2 GiB on, and no addresses beyond 4 GiB. -/
def narrowPlatform : Platform :=
  { Platform.singleSlot with slotCount := 2, wideAddressing := false }

/-- The image of a module of one rank, whose devices hold 256 MiB shifted by a code. -/
def rankImage (code : UInt8) : Spd.Image :=
  Spd.Image.withCrc (.ofBytes [0, 0, 0x0B, 2, code, 0, 0, 1, 3, 0, 0, 1, 0, 0, 1])

/-- Two modules on the platform, of sizes given by their codes. -/
def narrowModules (code₀ code₁ : UInt8) : Session (Option Board) :=
  .start
    { Setup.bare 1600000000 with
      images := fun _ slot => some (rankImage (if slot = 0 then code₀ else code₁)) }
    narrowPlatform

set_option maxRecDepth 100000 in
/-- Two modules of 1 GiB end with the last address, and are reported as they are. -/
theorem report_addressable_narrowModules :
    (narrowModules 2 2).state.platform.wideAddressing = false ∧
      (narrowModules 2 2).state.platform.sdramBase +
        (narrowModules 2 2).state.platform.mappedLimit ≤ 2 ^ 32 ∧
      ((narrowModules 2 2).bringUp.run .silent { state := () }).1.2.failure = none ∧
      (narrowModules 2 2).state.platform.sdramBase +
        ((narrowModules 2 2).bringUp.run .silent { state := () }).1.2.totalMemory ≤ 2 ^ 32 := by
  have hrun : ((narrowModules 2 2).bringUp.run .silent { state := () }).1.2.failure = none ∧
      ∀ e ∈ ((narrowModules 2 2).bringUp.run .silent { state := () }).1.1.state.rangeEnds,
        (e + 1) * 2 ^ 24 ≤ 2 ^ 32 := by
    decide +kernel
  obtain ⟨hok, hends⟩ := hrun
  exact ⟨by decide, by decide, hok,
    (report_addressable_iff .silent _ { state := () } (by decide) (by decide) hok).1.2
      (.inl hends)⟩

set_option maxRecDepth 100000 in
/-- **Modules of 2 GiB and 1 GiB reach beyond the last address**, and are reported as they are, since
they are less than 4 GiB. -/
theorem report_beyond_addresses :
    (narrowModules 3 2).state.platform.wideAddressing = false ∧
      (narrowModules 3 2).state.platform.sdramBase +
        (narrowModules 3 2).state.platform.mappedLimit ≤ 2 ^ 32 ∧
      ((narrowModules 3 2).bringUp.run .silent { state := () }).1.2.failure = none ∧
      ((narrowModules 3 2).bringUp.run .silent { state := () }).1.2.totalMemory = 3 * 2 ^ 30 ∧
      ¬(narrowModules 3 2).state.platform.sdramBase +
        ((narrowModules 3 2).bringUp.run .silent { state := () }).1.2.totalMemory ≤ 2 ^ 32 := by
  have hrun : ((narrowModules 3 2).bringUp.run .silent { state := () }).1.2.failure = none ∧
      ((narrowModules 3 2).bringUp.run .silent { state := () }).1.2.totalMemory = 3 * 2 ^ 30 := by
    decide +kernel
  obtain ⟨hok, htotal⟩ := hrun
  refine ⟨by decide, by decide, hok, htotal, ?_⟩
  rw [htotal]
  decide

end Session

end SdramBringup
