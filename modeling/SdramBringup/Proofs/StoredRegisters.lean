/-
**What the programming leaves in the registers.**

The write phase commits about eighty registers, some of them only if they have a value, and the enable
phase touches one of them again. On a device that stores what is written to it, the words in the end
can be told register by register, because no two registers have the same offset and none is written
twice. Such a device may still change some of its words by itself when they are read, as a controller
does that ends the data initialization.

Main definitions:

* `Event.write?`, `writes` — the writes among some events;
* `Device.Stores` — **a device that stores writes**, by the words that it holds;
* `Register.KeptIfZero` — the registers that are left alone if they have no value;
* `Programming.Committed` — **the promise** for the words after the write phase;
* `Programming.CommitsOnce` — **the promise** for its events;
* `Programming.SwitchedOn` — **the promise** for the enable phase.

Main results:

* `Register.offset_injective` — no two registers have the same offset;
* `Device.Stores.contents_run_storeAll` — values into registers, one after another;
* `Device.Stores.contents_run_of_silent` — programs that write nothing;
* `Programming.committed_stored`, `Programming.commitsOnce_writeEvents` — the write phase;
* `Programming.exists_switchedOn` — the enable phase;
* `Programming.program_stores` — **both phases**, one after the other.
-/

import Mathlib.Data.List.Nodup
import SdramBringup.Proofs.Cells
import SdramBringup.Proofs.Programming

set_option relaxedAutoImplicit false
set_option autoImplicit false

namespace SdramBringup

open Program

/-! ### Registers and their offsets -/

namespace Register

/-- Every register has its turn in the write phase. -/
theorem mem_commitOrder (r : Register) : r ∈ commitOrder := by
  cases r with
  | bounds cs | config cs | config2 cs => revert cs; decide
  | modeVariant i => revert i; decide
  | debug i => revert i; decide +kernel
  | _ => decide

theorem commitOrder_eq_append :
    commitOrder = commitOrder.dropLast.dropLast ++ [.sdramConfig, .sdramConfig2] := by
  decide +kernel

theorem nodup_map_offset_commitOrder : (commitOrder.map offset).Nodup := by decide +kernel

/-- **No two registers have the same offset.** -/
theorem offset_injective : Function.Injective offset := fun r q h =>
  List.inj_on_of_nodup_map nodup_map_offset_commitOrder (mem_commitOrder r) (mem_commitOrder q) h

/-- None of the registers is one of those that identify the controller. -/
theorem offset_ne_identification (r : Register) :
    r.offset ≠ Identification.revision ∧ r.offset ≠ Identification.errata := by
  cases r <;> simp only [offset, Identification.revision, Identification.errata] <;> omega

/-- The registers that are left alone if they have no value: the one for optimizations, two of those
for write leveling, and those for debugging. -/
def KeptIfZero (r : Register) : Prop :=
  r = .optimization ∨ r = .writeLeveling2 ∨ r = .writeLeveling3 ∨ ∃ i, r = .debug i

theorem optional_iff {r : Register} : r.optional = true ↔ r.KeptIfZero := by
  cases r <;> simp [optional, KeptIfZero]

end Register

namespace RegisterFile

variable {f : RegisterFile} {r : Register}

/-- A register has its turn unless it is left alone. -/
theorem not_optional_and_eq_true_iff :
    (!(r.optional && f.value r == 0)) = true ↔ ¬(r.KeptIfZero ∧ f.value r = 0) := by
  rw [Bool.not_eq_true', Bool.eq_false_iff, ne_eq, Bool.and_eq_true, beq_iff_eq,
    Register.optional_iff]

theorem mem_commits_iff {v : Word} :
    (r, v) ∈ f.commits ↔ ¬(r.KeptIfZero ∧ f.value r = 0) ∧ v = f.committed r := by
  simp only [commits, List.mem_map, List.mem_filter, Prod.mk.injEq, not_optional_and_eq_true_iff]
  constructor
  · rintro ⟨q, ⟨-, hq⟩, rfl, rfl⟩
    exact ⟨hq, rfl⟩
  · rintro ⟨hr, rfl⟩
    exact ⟨r, ⟨r.mem_commitOrder, hr⟩, rfl, rfl⟩

/-- No register is committed twice. -/
theorem nodup_map_fst_commits (f : RegisterFile) : (f.commits.map Prod.fst).Nodup := by
  have hfst : f.commits.map Prod.fst =
      Register.commitOrder.filter fun r => !(r.optional && f.value r == 0) := by
    rw [commits, List.map_map]
    exact List.map_id _
  rw [hfst]
  exact (Register.nodup_map_offset_commitOrder.of_map _).filter _

theorem committed_of_ne (h : r ≠ .sdramConfig) : f.committed r = f.value r := by
  cases r <;> first | rfl | exact absurd rfl h

/-- The two configuration registers come last. -/
theorem exists_commits_eq (f : RegisterFile) :
    ∃ first, f.commits =
      first ++ [(.sdramConfig, f.sdramConfig &&& ~~~Bits.memoryEnable),
        (.sdramConfig2, f.sdramConfig2)] := by
  rw [commits, Register.commitOrder_eq_append, List.filter_append, List.map_append]
  exact ⟨_, rfl⟩

end RegisterFile

/-! ### Devices that store writes -/

/-- The address and the value of a write. -/
def Event.write? : Event → Option (Nat × Word)
  | .did (.write address value) => some (address, value)
  | _ => none

/-- The writes among some events, in order. -/
def writes (events : List Event) : List (Nat × Word) := events.filterMap Event.write?

theorem writes_append (first second : List Event) :
    writes (first ++ second) = writes first ++ writes second :=
  List.filterMap_append

/-- Words after some writes to them. -/
def stored (ws : List (Nat × Word)) (m : Nat → Word) : Nat → Word :=
  ws.foldl (fun m w => Function.update m w.1 w.2) m

theorem stored_of_not_mem {ws : List (Nat × Word)} {a : Nat} (h : a ∉ ws.map Prod.fst)
    (m : Nat → Word) : stored ws m a = m a := by
  induction ws generalizing m with
  | nil => rfl
  | cons w ws ih =>
      obtain ⟨hne, hrest⟩ := not_or.1 (mt List.mem_cons.2 h)
      exact (ih hrest _).trans (Function.update_of_ne hne _ _)

/-- Of writes to different addresses, every one is still there in the end. -/
theorem stored_of_mem {ws : List (Nat × Word)} (hws : (ws.map Prod.fst).Nodup) {a : Nat} {v : Word}
    (h : (a, v) ∈ ws) (m : Nat → Word) : stored ws m a = v := by
  induction ws generalizing m with
  | nil => exact absurd h List.not_mem_nil
  | cons w ws ih =>
      obtain ⟨hfresh, hws⟩ := List.nodup_cons.1 hws
      rcases List.mem_cons.1 h with rfl | h
      · exact (stored_of_not_mem hfresh _).trans (Function.update_self ..)
      · exact ih hws h _

/-- A device that keeps every word that is written to it, and answers a read by the word that it
holds. Live words may be answered otherwise, and change when they are read; no other words do. -/
structure Device.Stores {σ : Type} (d : Device σ) (contents : σ → Nat → Word) (live : Nat → Prop) :
    Prop where
  write : ∀ address value x, contents (d.act (.write address value) x) =
    Function.update (contents x) address value
  quiet : ∀ action x, (Event.did action).write? = none → contents (d.act action x) = contents x
  answer : ∀ address x, ¬live address → (d.read address x).1 = contents x address
  still : ∀ address x a, a ≠ address ∨ ¬live a → contents (d.read address x).2 a = contents x a

namespace Device.Stores

variable {σ α : Type} {d : Device σ} {contents : σ → Nat → Word} {live : Nat → Prop}
  (h : d.Stores contents live)
include h

theorem contents_run_storeAll (ws : List (Nat × Word)) (t : Traced σ) :
    contents ((storeAll ws).run d t).2.state = stored ws (contents t.state) := by
  induction ws generalizing t with
  | nil => rfl
  | cons w ws ih =>
      refine (ih ⟨d.act (.write w.1 w.2) t.state, .did (.write w.1 w.2) :: t.past⟩).trans ?_
      rw [h.write]
      rfl

/-- **Programs that write nothing** leave all words alone, but for live ones that they read. -/
theorem contents_run_of_silent {A : Nat → Prop} {p : Program α}
    (hp : Only (fun e => e.write? = none ∧ ∀ b, e.readAddress? = some b → A b) p) {a : Nat}
    (ha : live a → ¬A a) (t : Traced σ) :
    contents (p.run d t).2.state a = contents t.state a := by
  induction p generalizing t with
  | done result => rfl
  | read address next ih =>
      obtain ⟨⟨-, hread⟩, hnext⟩ := only_read_iff.1 hp (d.read address t.state).1
      have hother : a ≠ address ∨ ¬live a := by
        by_contra hsame
        obtain ⟨rfl, hlive⟩ := by simpa using hsame
        exact ha hlive (hread _ rfl)
      exact (ih _ hnext _).trans (h.still address t.state a hother)
  | act action next ih =>
      obtain ⟨⟨hsilent, -⟩, hnext⟩ := only_act_iff.1 hp
      exact (ih hnext _).trans (congrFun (h.quiet action t.state hsilent) a)

end Device.Stores

/-- Registers that answer with the word that they keep store writes, and none is live. -/
theorem Cell.stores_keeping : (Device.cells Cell.keeping).Stores (fun m => m) fun _ => False where
  write _ _ _ := rfl
  quiet action x h := by
    cases action with
    | write => exact absurd h (by simp [Event.write?])
    | fence | delay | assertReset | releaseReset => rfl
  answer _ _ _ := rfl
  still address x a _ := congrFun (Function.update_eq_self address x) a

/-- The bank that can be run stores writes, and the polled registers are live. -/
theorem RegisterBank.stores_device :
    RegisterBank.device.Stores RegisterBank.contents fun a => isPolled a = true where
  write address value x := funext fun a => (Function.update_apply x.contents address value a).symm
  quiet action x h := by
    cases action with
    | write => exact absurd h (by simp [Event.write?])
    | fence | delay | assertReset | releaseReset => rfl
  answer address x h := by
    change (answer address x).1 = _
    rw [answer, if_neg h]
  still address x a h := by
    change (answer address x).2.contents a = _
    rw [answer]
    split
    · rename_i hpolled
      have hne : a ≠ address := by
        rintro rfl
        exact h.elim (fun hne => hne rfl) fun hlive => hlive hpolled
      split
      · rfl
      · rfl
      · exact if_neg hne
    · rfl

namespace Programming

/-! ### The write phase -/

/-- The words after the write phase of the controller at `base`: every register has the value that
is computed for it, but for the configuration, which leaves the controller disabled, and for registers
that are left alone. No other word changes. -/
structure Committed (base : Nat) (f : RegisterFile) (before after : Nat → Word) : Prop where
  disabled : after (base + Register.sdramConfig.offset) = f.sdramConfig &&& ~~~Bits.memoryEnable
  written : ∀ r : Register, r ≠ .sdramConfig → ¬(r.KeptIfZero ∧ f.value r = 0) →
    after (base + r.offset) = f.value r
  kept : ∀ r : Register, r.KeptIfZero → f.value r = 0 →
    after (base + r.offset) = before (base + r.offset)
  identification : after (base + Identification.revision) = before (base + Identification.revision) ∧
    after (base + Identification.errata) = before (base + Identification.errata)
  elsewhere : ∀ a, (∀ r : Register, a ≠ base + r.offset) → after a = before a

/-- The events of the write phase: nothing is read, no address is written twice, and the
configuration is written last. -/
structure CommitsOnce (base : Nat) (f : RegisterFile) (events : List Event) : Prop where
  unread : ∀ e ∈ events, e.readAddress? = none
  once : ((writes events).map Prod.fst).Nodup
  last : ∃ first, writes events = first ++
    [(base + Register.sdramConfig.offset, f.sdramConfig &&& ~~~Bits.memoryEnable),
      (base + Register.sdramConfig2.offset, f.sdramConfig2)]

/-- The writes of the write phase. -/
def commitWrites (base : Nat) (f : RegisterFile) : List (Nat × Word) :=
  f.commits.map fun w => (base + w.1.offset, w.2)

variable {base : Nat} {f : RegisterFile}

/-- A register is written with its committed value, or is left alone. -/
theorem mem_commitWrites_iff {r : Register} {v : Word} :
    (base + r.offset, v) ∈ commitWrites base f ↔
      ¬(r.KeptIfZero ∧ f.value r = 0) ∧ v = f.committed r := by
  rw [← RegisterFile.mem_commits_iff, commitWrites, List.mem_map]
  constructor
  · rintro ⟨w, hw, heq⟩
    obtain ⟨hoffset, rfl⟩ := Prod.mk.inj heq
    rwa [← Register.offset_injective (Nat.add_left_cancel hoffset)]
  · exact fun h => ⟨(r, v), h, rfl⟩

theorem exists_of_mem_commitWrites {w : Nat × Word} (h : w ∈ commitWrites base f) :
    ∃ r : Register, w.1 = base + r.offset := by
  obtain ⟨⟨r, v⟩, -, rfl⟩ := List.mem_map.1 h
  exact ⟨r, rfl⟩

theorem nodup_map_fst_commitWrites (base : Nat) (f : RegisterFile) :
    ((commitWrites base f).map Prod.fst).Nodup := by
  have hfst : (commitWrites base f).map Prod.fst =
      (f.commits.map Prod.fst).map fun r : Register => base + r.offset := by
    rw [commitWrites, List.map_map, List.map_map]
    rfl
  rw [hfst]
  exact f.nodup_map_fst_commits.map fun r q h => Register.offset_injective (Nat.add_left_cancel h)

theorem stored_commitWrites (m : Nat → Word) (r : Register)
    (h : ¬(r.KeptIfZero ∧ f.value r = 0)) :
    stored (commitWrites base f) m (base + r.offset) = f.committed r :=
  stored_of_mem (nodup_map_fst_commitWrites base f) (mem_commitWrites_iff.2 ⟨h, rfl⟩) m

/-- **The words after the write phase.** -/
theorem committed_stored (m : Nat → Word) : Committed base f m (stored (commitWrites base f) m) := by
  have helsewhere : ∀ a, (∀ r : Register, a ≠ base + r.offset) →
      stored (commitWrites base f) m a = m a := by
    refine fun a ha => stored_of_not_mem (fun hmem => ?_) m
    obtain ⟨w, hw, rfl⟩ := List.mem_map.1 hmem
    obtain ⟨r, hr⟩ := exists_of_mem_commitWrites hw
    exact ha r hr
  constructor
  case disabled => exact stored_commitWrites m .sdramConfig (by simp [Register.KeptIfZero])
  case written =>
    intro r hconfig hkept
    rw [stored_commitWrites m r hkept, RegisterFile.committed_of_ne hconfig]
  case kept =>
    refine fun r hkept hzero => stored_of_not_mem (fun hmem => ?_) m
    obtain ⟨⟨a, v⟩, hw, rfl⟩ := List.mem_map.1 hmem
    exact (mem_commitWrites_iff.1 hw).1 ⟨hkept, hzero⟩
  case identification =>
    constructor
    · exact helsewhere _ fun r h => r.offset_ne_identification.1 (Nat.add_left_cancel h).symm
    · exact helsewhere _ fun r h => r.offset_ne_identification.2 (Nat.add_left_cancel h).symm
  case elsewhere => exact helsewhere

theorem writes_writeEvents (base : Nat) (f : RegisterFile) :
    writes (writeEvents base f) = commitWrites base f := by
  rw [writeEvents, writes_append, commitEvents, writes, List.filterMap_map, commitWrites]
  exact (List.append_nil _).trans (congrFun List.filterMap_eq_map' f.commits)

/-- **The events of the write phase.** -/
theorem commitsOnce_writeEvents (base : Nat) (f : RegisterFile) :
    CommitsOnce base f (writeEvents base f) where
  unread e he := by
    rcases mem_writeEvents he with he | rfl | rfl
    · obtain ⟨r, rfl⟩ := mem_commitEvents he
      rfl
    · rfl
    · rfl
  once := by
    rw [writes_writeEvents]
    exact nodup_map_fst_commitWrites base f
  last := by
    obtain ⟨first, hfirst⟩ := f.exists_commits_eq
    rw [writes_writeEvents, commitWrites, hfirst, List.map_append]
    exact ⟨_, rfl⟩

/-! ### The enable phase -/

/-- The enable phase of the controller at `base`: its configuration is written twice, first without
the bit that skips the initialization and then with the one that enables the controller. No other
word changes, but for live ones that are waited for or asked for. -/
structure SwitchedOn (base : Nat) (register : Option Nat) (live : Nat → Prop)
    (before after : Nat → Word) (events : List Event) : Prop where
  writes : writes events =
    [(base + Register.sdramConfig.offset,
        before (base + Register.sdramConfig.offset) &&& ~~~Bits.bypassInit),
      (base + Register.sdramConfig.offset,
        before (base + Register.sdramConfig.offset) &&& ~~~Bits.bypassInit ||| Bits.memoryEnable)]
  configuration : after (base + Register.sdramConfig.offset) =
    before (base + Register.sdramConfig.offset) &&& ~~~Bits.bypassInit ||| Bits.memoryEnable
  elsewhere : ∀ a, a ≠ base + Register.sdramConfig.offset →
    (live a → a ≠ base + Register.sdramConfig2.offset ∧ register ≠ some a) → after a = before a

/-- What follows on enabling a controller writes nothing, and reads two registers at most. -/
theorem only_wait (base : Nat) (f : RegisterFile) (clock : Clock) (register : Option Nat) :
    Only (fun e => e.write? = none ∧ ∀ b, e.readAddress? = some b →
        b = base + Register.sdramConfig2.offset ∨ register = some b)
      (threeWayEnabled register >>= fun threeWay =>
        poll (base + Register.sdramConfig2.offset) (pollBudget (sizeUnits f threeWay) f clock)) := by
  refine only_bind (only_threeWayEnabled ?_) fun threeWay => only_poll ?_ ?_ _
  · exact fun address value hregister =>
      ⟨rfl, fun b hb => .inr (hregister.trans (congrArg some (Option.some.inj hb)))⟩
  · exact fun value => ⟨rfl, fun b hb => .inl (Option.some.inj hb).symm⟩
  · exact ⟨rfl, fun b hb => absurd hb nofun⟩

section Stores

variable {σ : Type} {d : Device σ} {contents : σ → Nat → Word} {live : Nat → Prop}
  (h : d.Stores contents live)
include h

/-- The words after a controller was enabled. -/
theorem contents_run_switchOn (hlive : ¬live (base + Register.sdramConfig.offset)) (t : Traced σ) :
    contents ((switchOn base).run d t).2.state = Function.update (contents t.state)
      (base + Register.sdramConfig.offset)
      (contents t.state (base + Register.sdramConfig.offset) &&& ~~~Bits.bypassInit |||
        Bits.memoryEnable) := by
  have hfence : ∀ x, contents (d.act .fence x) = contents x := fun x => h.quiet .fence x rfl
  have hread : ∀ x, contents (d.read (base + Register.sdramConfig.offset) x).2 = contents x :=
    fun x => funext fun a => h.still _ x a (or_iff_not_imp_left.2 fun ha => by rwa [not_not.1 ha])
  change contents (d.act .fence (d.act (.write _ _) (d.act .fence (d.act (.write _ _)
    (d.read _ (d.act .fence t.state)).2)))) = _
  rw [hfence, h.write, hfence, h.write, hread, h.answer _ _ hlive, hfence, Function.update_idem]

/-- **The enable phase.** -/
theorem exists_switchedOn (hlive : ¬live (base + Register.sdramConfig.offset)) (f : RegisterFile)
    (clock : Clock) (register : Option Nat) (t : Traced σ) :
    ∃ events, ((enablePhase base f clock register).run d t).2.events = t.events ++ events ∧
      SwitchedOn base register live (contents t.state)
        (contents ((enablePhase base f clock register).run d t).2.state) events := by
  have hword : (d.read (base + Register.sdramConfig.offset) (d.act .fence t.state)).1 =
      contents t.state (base + Register.sdramConfig.offset) := by
    rw [h.answer _ _ hlive, h.quiet .fence _ rfl]
  have hswitch := events_run_switchOn d base t
  have hcontents := contents_run_switchOn h hlive t
  rw [enablePhase_eq, run_bind]
  generalize (switchOn base).run d t = ready at hswitch hcontents
  have hwait := only_wait base f clock register
  obtain ⟨polls, hyields, hevents⟩ := yields_run d (threeWayEnabled register >>= fun threeWay =>
    poll (base + Register.sdramConfig2.offset) (pollBudget (sizeUnits f threeWay) f clock)) ready.2
  have hsilent : writes polls = [] := List.filterMap_eq_nil_iff.2 fun e he =>
    (hwait polls _ hyields e he).1
  refine ⟨_, hevents.trans (by rw [hswitch, List.append_assoc]), ?_⟩
  constructor
  case writes =>
    rw [writes_append, hsilent, hword]
    rfl
  case configuration =>
    rw [h.contents_run_of_silent hwait (fun ha => absurd ha hlive), hcontents,
      Function.update_self]
  case elsewhere =>
    intro a hne ha
    rw [h.contents_run_of_silent hwait, hcontents, Function.update_of_ne hne]
    rintro hlive' (rfl | hregister)
    · exact (ha hlive').1 rfl
    · exact (ha hlive').2 hregister

/-- The words after the write phase are those that it stores. -/
theorem contents_run_writePhase (t : Traced σ) :
    contents ((writePhase base f).run d t).2.state =
      stored (commitWrites base f) (contents t.state) := by
  rw [writePhase, run_bind, run_bind]
  change contents (d.act .fence (d.act (.delay settleTime) _)) = _
  rw [h.quiet .fence _ rfl, h.quiet (.delay settleTime) _ rfl, h.contents_run_storeAll]
  rfl

end Stores

/-- **Both phases, one after the other**, on a device that stores writes. The write phase gives every
register its value and leaves the controller disabled; it writes no address twice, reads nothing and
writes the configuration last. The enable phase after it changes nothing but the configuration, by two
writes. -/
theorem program_stores {σ : Type} {d : Device σ} {contents : σ → Nat → Word} {live : Nat → Prop}
    (h : d.Stores contents live) {base : Nat}
    (hlive : ¬live (base + Register.sdramConfig.offset)) (f : RegisterFile) (clock : Clock)
    (register : Option Nat) (t : Traced σ) :
    let wrote := (program base f clock .writeOnly register).run d t
    let enabled := (program base f clock .enableOnly register).run d wrote.2
    wrote.1.progress = .written ∧ enabled.1.progress = .enabled ∧
      ∃ first second, wrote.2.events = t.events ++ first ∧
        enabled.2.events = wrote.2.events ++ second ∧ CommitsOnce base f first ∧
        Committed base f (contents t.state) (contents wrote.2.state) ∧
        SwitchedOn base register live (contents wrote.2.state) (contents enabled.2.state)
          second := by
  intro wrote enabled
  have hwrote : wrote = (⟨.written, true⟩, ((writePhase base f).run d t).2) := by
    simp only [wrote, program, run_bind, run_pure]
  have henabled := run_program_enableOnly d base f clock register wrote.2
  obtain ⟨first, hyields, hfirst⟩ := yields_run d (writePhase base f) t
  obtain ⟨second, hsecond, hswitched⟩ := exists_switchedOn h hlive f clock register wrote.2
  refine ⟨by rw [hwrote], congrArg (·.1.progress) henabled, first, second, ?_, ?_, ?_, ?_, ?_⟩
  · rw [hwrote]
    exact hfirst
  · exact (congrArg (·.2.events) henabled).trans hsecond
  · rw [yields_writePhase_iff.1 hyields]
    exact commitsOnce_writeEvents base f
  · rw [hwrote, contents_run_writePhase h]
    exact committed_stored (contents t.state)
  · exact (congrArg (·.2.state) henabled) ▸ hswitched

/-- On registers none of which is live, a configuration that skips the initialization is stored
disabled, and only that word changes when the controller is enabled. -/
theorem program_stores_bypassed :
    (Device.cells Cell.keeping).Stores (fun m => m) (fun _ => False) ∧ ¬False ∧
      let f : RegisterFile := { sdramConfig := 0xC7000001#32 }
      let wrote := (program 0x1080000 f ⟨1600000000⟩ .writeOnly none).run (.cells Cell.keeping)
        ⟨fun _ => 0x5A#32, []⟩
      let enabled := (program 0x1080000 f ⟨1600000000⟩ .enableOnly none).run (.cells Cell.keeping)
        wrote.2
      wrote.2.state 0x1080110 = 0x47000001#32 ∧ wrote.2.state 0x1080F00 = 0x5A#32 ∧
        enabled.2.state 0x1080110 = 0xC7000000#32 ∧
        ∀ a ≠ 0x1080110, enabled.2.state a = wrote.2.state a := by
  obtain ⟨-, -, first, second, -, -, -, hcommitted, hswitched⟩ :=
    @program_stores _ _ _ _ Cell.stores_keeping 0x1080000 not_false
      { sdramConfig := 0xC7000001#32 } ⟨1600000000⟩ none ⟨fun _ => 0x5A#32, []⟩
  have hwrote := hcommitted.disabled
  refine ⟨Cell.stores_keeping, not_false, hwrote, ?_, ?_, fun a ha => ?_⟩
  · exact hcommitted.kept (.debug 0) (by simp [Register.KeptIfZero]) (by decide)
  · exact hswitched.configuration.trans (by rw [hwrote]; decide)
  · exact hswitched.elsewhere a ha False.elim

end Programming

end SdramBringup
