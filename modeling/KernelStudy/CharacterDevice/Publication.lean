import KernelStudy.Foundations.LabelledRun
import KernelStudy.CharacterDevice.Handlers

namespace KernelStudy
namespace CharacterDevice

open LabelledRun

/-!
# Publishing a device before its buffer

Both drivers publish their device first and set up the buffer afterwards:
`mycdev_init` calls `cdev_add` and `mymdev_init` calls `misc_register` before
`vmalloc`, `memset` and `sprintf`.  From its publication to its removal the
device takes calls of any user process, also while the init function is still
running.

A step of the model is one statement of an init or exit function with its
outcome, or one complete call of a user process.  The statements from `vmalloc`
on are the same in both drivers.
-/

/-! ## The two drivers -/

inductive Driver where
  | mycdev
  | mymdev
deriving DecidableEq, Repr

/-- The statement of an init or exit function that was executed last. -/
inductive ModulePoint where
  | unloaded
  | regionAllocated
  | cdevAllocated
  | cdevInitialised
  | published
  | bufferAllocated
  | bufferZeroed
  | loaded
  | oopsed
  | cdevFail
  | unregisterChrdev
  | loadedEmpty
  | failed
  | removed
  | unregistered
  | exited
deriving DecidableEq, Repr

/-- `zeroed` says that the buffer behind `pbuf` has gone through `memset`.
`writes` are the bytes given by the users whose writes have reached the
buffer, and `delivered` the results of the reads. -/
structure State where
  point : ModulePoint
  ret : Int32
  pbuf : Option Buffer
  zeroed : Bool
  writes : List (List UInt8)
  delivered : List (Option (List UInt8 × Int64))

/-- Before the module is loaded. -/
def initial : State := ⟨.unloaded, 0, none, false, [], []⟩

/-- A label that carries an error code is the failure of its call. -/
inductive Label where
  | allocChrdevRegion
  | allocChrdevRegionFails (code : Int32)
  | cdevAlloc
  | cdevAllocFails
  | cdevInit
  | cdevAdd
  | cdevAddFails (code : Int32)
  | miscRegister
  | miscRegisterFails (code : Int32)
  | vmalloc (contents : Buffer)
  | vmallocFails
  | memset
  | sprintf
  | cdevDel
  | unregisterChrdevRegion
  | miscDeregister
  | vfree
  | userOpen (process : Nat)
  | userRead (process writable : Nat) (lbuf : UInt64)
  | userWrite (process : Nat) (readable : List UInt8) (count : UInt64)
deriving DecidableEq

/-- The device can be opened.  A driver whose init function dies leaves it so. -/
def ModulePoint.reachable : ModulePoint -> Bool
  | .published | .bufferAllocated | .bufferZeroed | .loaded | .oopsed => true
  | .unloaded | .regionAllocated | .cdevAllocated | .cdevInitialised | .cdevFail
  | .unregisterChrdev | .loadedEmpty | .failed | .removed | .unregistered | .exited => false

def Enabled (driver : Driver) (state : State) : Label -> Prop
  | .allocChrdevRegion => driver = .mycdev /\ state.point = .unloaded
  | .allocChrdevRegionFails code => driver = .mycdev /\ state.point = .unloaded /\ code ≠ 0
  | .cdevAlloc | .cdevAllocFails => state.point = .regionAllocated
  | .cdevInit => state.point = .cdevAllocated
  | .cdevAdd => state.point = .cdevInitialised
  | .cdevAddFails code => state.point = .cdevInitialised /\ code ≠ 0
  | .miscRegister => driver = .mymdev /\ state.point = .unloaded
  | .miscRegisterFails code => driver = .mymdev /\ state.point = .unloaded /\ code ≠ 0
  | .vmalloc _ | .vmallocFails => state.point = .published
  | .memset => state.point = .bufferAllocated
  | .sprintf => state.point = .bufferZeroed
  -- at the label `cdev_fail`, and in the exit function when `my_cdev` is set
  | .cdevDel => driver = .mycdev /\ (state.point = .cdevFail \/ state.point = .loaded)
  | .unregisterChrdevRegion => driver = .mycdev /\ (state.point = .unregisterChrdev \/
      state.point = .removed \/ state.point = .loadedEmpty)
  | .miscDeregister => driver = .mymdev /\ state.point = .loaded
  | .vfree => state.point = .unregistered
  | .userOpen _ | .userRead _ _ _ | .userWrite _ _ _ => state.point.reachable = true

instance enabledDecidable (driver : Driver) (state : State) :
    (label : Label) -> Decidable (Enabled driver state label)
  | .allocChrdevRegion | .allocChrdevRegionFails _ | .cdevAddFails _ | .miscRegister
  | .miscRegisterFails _ | .cdevDel | .unregisterChrdevRegion | .miscDeregister =>
      inferInstanceAs (Decidable (_ /\ _))
  | .cdevAlloc | .cdevAllocFails | .cdevInit | .cdevAdd | .vmalloc _ | .vmallocFails | .memset
  | .sprintf | .vfree | .userOpen _ | .userRead _ _ _ | .userWrite _ _ _ =>
      inferInstanceAs (Decidable (_ = _))

/-- What `sprintf(pbuf, "value from kernel ....")` stores. -/
def greeting : List UInt8 :=
  "value from kernel ....".toList.map (fun char => UInt8.ofNat char.toNat) ++ [0]

theorem greeting_fits : greeting.length ≤ 1024 := by decide

/-- `memset(pbuf, 0x0, 1024)`.  Without a buffer the init function dies. -/
def memset (state : State) : State :=
  match state.pbuf with
  | none => { state with point := .oopsed }
  | some buffer =>
      { state with
        point := .bufferZeroed
        pbuf := some (buffer.overwrite (List.replicate 1024 0) (by rw [List.length_replicate]))
        zeroed := true }

def sprintf (state : State) : State :=
  { state with
    point := .loaded
    pbuf := state.pbuf.map fun buffer => buffer.overwrite greeting greeting_fits }

/-- Run `mycdev_write`; a write through `NULL` changes nothing. -/
def userWrite (state : State) (readable : List UInt8) (count : UInt64) : State :=
  match mycdevWrite state.pbuf readable count with
  | none => state
  | some (buffer, _) =>
      { state with pbuf := some buffer, writes := state.writes ++ [readable] }

def effect (state : State) : Label -> State
  | .allocChrdevRegion => { state with point := .regionAllocated, ret := 0 }
  | .allocChrdevRegionFails code => { state with point := .failed, ret := code }
  | .cdevAlloc => { state with point := .cdevAllocated }
  | .cdevAllocFails => { state with point := .unregisterChrdev }
  | .cdevInit => { state with point := .cdevInitialised }
  | .cdevAdd => { state with point := .published, ret := 0 }
  | .cdevAddFails code => { state with point := .cdevFail, ret := code }
  | .miscRegister => { state with point := .published, ret := 0 }
  | .miscRegisterFails code => { state with point := .failed, ret := code }
  | .vmalloc contents =>
      { state with point := .bufferAllocated, pbuf := some contents, zeroed := false }
  | .vmallocFails => { state with point := .bufferAllocated, pbuf := none, zeroed := false }
  | .memset => memset state
  | .sprintf => sprintf state
  | .cdevDel =>
      { state with point := if state.point = .cdevFail then .unregisterChrdev else .removed }
  -- after a failed init function the module counts as loaded when `ret` is zero
  | .unregisterChrdevRegion =>
      { state with
        point := if state.point = .unregisterChrdev then
            if state.ret = 0 then .loadedEmpty else .failed
          else .unregistered }
  | .miscDeregister => { state with point := .unregistered }
  | .vfree => { state with point := .exited, pbuf := none, zeroed := false }
  | .userOpen _ => state
  | .userRead _ writable lbuf =>
      { state with delivered := state.delivered ++ [mycdevRead state.pbuf writable lbuf] }
  | .userWrite _ readable count => userWrite state readable count

def step (driver : Driver) : State -> Label -> Option State :=
  guarded (Enabled driver) effect

/-! ## The property and its condition -/

/-- `pbuf` points to a buffer that was zeroed and holds the greeting or the
data of an earlier write. -/
def BufferReady (state : State) : Prop :=
  state.zeroed = true /\
    Exists fun buffer => state.pbuf = some buffer /\
      (buffer = .image greeting greeting_fits \/
        Exists fun readable => readable ∈ state.writes /\
          buffer = .image (copyFromUser readable) (copyFromUser_fits readable))

/-- Reads and writes find the buffer ready, and the statements that set up the
buffer find no write that they would overwrite. -/
def BufferRespected (state : State) : Label -> Prop
  | .userRead _ _ _ | .userWrite _ _ _ => BufferReady state
  | .vmalloc _ | .vmallocFails | .memset | .sprintf => state.writes = []
  | .allocChrdevRegion | .allocChrdevRegionFails _ | .cdevAlloc | .cdevAllocFails | .cdevInit
  | .cdevAdd | .cdevAddFails _ | .miscRegister | .miscRegisterFails _ | .cdevDel
  | .unregisterChrdevRegion | .miscDeregister | .vfree | .userOpen _ => True

/-- Reads and writes come after the last statement of the init function. -/
def CalledWhenLoaded (state : State) : Label -> Prop
  | .userRead _ _ _ | .userWrite _ _ _ => state.point = .loaded
  | .vmalloc _ | .vmallocFails | .memset | .sprintf | .allocChrdevRegion
  | .allocChrdevRegionFails _ | .cdevAlloc | .cdevAllocFails | .cdevInit | .cdevAdd
  | .cdevAddFails _ | .miscRegister | .miscRegisterFails _ | .cdevDel | .unregisterChrdevRegion
  | .miscDeregister | .vfree | .userOpen _ => True

/-! ## What holds at each point -/

/-- No buffer has been set up and no user has written. -/
def Untouched (state : State) : Prop :=
  state.pbuf = none /\ state.zeroed = false /\ state.writes = []

/-- What is known of the buffer at each point of a run that takes reads and
writes only when the driver is loaded. -/
def PreparedAt (state : State) : ModulePoint -> Prop
  | .unloaded | .regionAllocated | .cdevAllocated | .cdevInitialised | .published => Untouched state
  | .bufferAllocated => state.zeroed = false /\ state.writes = []
  | .bufferZeroed => state.zeroed = true /\ state.writes = [] /\
      state.pbuf = some (.image [] (Nat.zero_le 1024))
  | .loaded => BufferReady state
  | .oopsed => state.zeroed = false
  | .cdevFail | .unregisterChrdev | .loadedEmpty | .failed | .removed | .unregistered
  | .exited => True

def Prepared (state : State) : Prop := PreparedAt state state.point

theorem prepared_initial : Prepared initial :=
  ⟨rfl, rfl, rfl⟩

theorem Prepared.at_point {state : State} {point : ModulePoint} (prepared : Prepared state)
    (here : state.point = point) : PreparedAt state point :=
  here ▸ prepared

/-- Zeroing any buffer gives the buffer of zeros. -/
theorem overwrite_zeros (buffer : Buffer) (fits : (List.replicate 1024 (0 : UInt8)).length ≤ 1024) :
    buffer.overwrite (List.replicate 1024 0) fits = .image [] (Nat.zero_le 1024) := by
  apply Buffer.ext
  unfold Buffer.overwrite Buffer.image
  simp only
  rw [List.length_replicate, List.drop_eq_nil_of_le (Nat.le_of_eq buffer.size), List.append_nil,
    List.nil_append, List.length_nil, Nat.sub_zero]

/-- The buffer of zeros does not hold the greeting. -/
theorem image_nil_ne_greeting :
    Buffer.image [] (Nat.zero_le 1024) ≠ .image greeting greeting_fits := by
  intro same
  have first := congrArg (fun buffer => buffer.bytes.head?) same
  exact absurd first (by decide)

/-- A write to a ready buffer leaves its data in a ready buffer. -/
theorem bufferReady_userWrite {state : State} (ready : BufferReady state) (readable : List UInt8)
    (count : UInt64) : BufferReady (userWrite state readable count) := by
  rcases ready with ⟨zeroed, buffer, pointed, holds⟩
  have written : buffer.overwrite (copyFromUser readable) (copyFromUser_fits readable) =
      .image (copyFromUser readable) (copyFromUser_fits readable) := by
    rcases holds with greeted | ⟨earlier, _member, stored⟩
    · rw [greeted]
      exact Buffer.overwrite_image (by rw [length_copyFromUser]; decide) (copyFromUser_fits readable)
    · rw [stored]
      exact Buffer.overwrite_image (by rw [length_copyFromUser, length_copyFromUser])
        (copyFromUser_fits readable)
  unfold userWrite mycdevWrite
  rw [pointed, Option.map_some, written]
  refine ⟨zeroed, _, rfl, Or.inr ⟨readable, ?_, rfl⟩⟩
  exact List.mem_append_right _ List.mem_cons_self

/-- The statement after `vmalloc` zeroes the buffer or dies. -/
theorem prepared_memset {state : State} (unzeroed : state.zeroed = false)
    (unwritten : state.writes = []) : Prepared (memset state) := by
  unfold memset
  cases state.pbuf with
  | none => exact unzeroed
  | some buffer =>
      refine ⟨rfl, unwritten, ?_⟩
      simp only [overwrite_zeros]

/-- The last statement of the init function makes the buffer ready. -/
theorem prepared_sprintf {state : State} (zeroed : state.zeroed = true)
    (pointed : state.pbuf = some (.image [] (Nat.zero_le 1024))) : Prepared (sprintf state) := by
  refine ⟨zeroed, .image greeting greeting_fits, ?_, Or.inl rfl⟩
  unfold sprintf
  rw [pointed, Option.map_some, Option.some.injEq]
  exact Buffer.overwrite_image (Nat.zero_le _) greeting_fits

/-- Every step that meets the condition keeps the buffer prepared. -/
theorem prepared_step (driver : Driver) (state : State) (label : Label) (next : State)
    (prepared : Prepared state) (called : CalledWhenLoaded state label)
    (taken : step driver state label = some next) : Prepared next := by
  rcases guarded_eq_some.mp taken with ⟨enabled, same⟩
  subst next
  cases label with
  | allocChrdevRegion => exact prepared.at_point enabled.2
  | miscRegister => exact prepared.at_point enabled.2
  | cdevAlloc => exact prepared.at_point enabled
  | cdevInit => exact prepared.at_point enabled
  | cdevAdd => exact prepared.at_point enabled
  | vmalloc contents => exact ⟨rfl, (prepared.at_point enabled).2.2⟩
  | vmallocFails => exact ⟨rfl, (prepared.at_point enabled).2.2⟩
  | memset =>
      have known := prepared.at_point enabled
      exact prepared_memset known.1 known.2
  | sprintf =>
      have known := prepared.at_point enabled
      exact prepared_sprintf known.1 known.2.2
  | userOpen process => exact prepared
  | userRead process writable lbuf =>
      have ready := prepared.at_point called
      have here : (effect state (.userRead process writable lbuf)).point = .loaded := called
      rw [Prepared, here]
      exact ready
  | userWrite process readable count =>
      have ready := bufferReady_userWrite (prepared.at_point called) readable count
      have here : (effect state (.userWrite process readable count)).point = .loaded := by
        rw [effect, userWrite]
        split <;> exact called
      rw [Prepared, here]
      exact ready
  | allocChrdevRegionFails code => trivial
  | miscRegisterFails code => trivial
  | cdevAllocFails => trivial
  | cdevAddFails code => trivial
  | miscDeregister => trivial
  | vfree => trivial
  | cdevDel =>
      unfold Prepared effect
      simp only
      split <;> trivial
  | unregisterChrdevRegion =>
      unfold Prepared effect
      simp only
      split_ifs <;> trivial

/-- Inside prepared states a reachable device has a ready buffer exactly when
the init function has come to its end. -/
theorem bufferReady_iff_loaded {state : State} (prepared : Prepared state)
    (reachable : state.point.reachable = true) : BufferReady state <-> state.point = .loaded := by
  constructor
  · rintro ⟨zeroed, buffer, pointed, holds⟩
    cases here : state.point with
    | loaded => rfl
    | published =>
        have known := prepared.at_point here
        rw [known.2.1] at zeroed
        cases zeroed
    | bufferAllocated =>
        have known := prepared.at_point here
        rw [known.1] at zeroed
        cases zeroed
    | oopsed =>
        have known : state.zeroed = false := prepared.at_point here
        rw [known] at zeroed
        cases zeroed
    | bufferZeroed =>
        rcases prepared.at_point here with ⟨_, unwritten, blank⟩
        have same := Option.some.inj (blank.symm.trans pointed)
        rcases holds with greeted | ⟨readable, member, _⟩
        · exact absurd (same.trans greeted) image_nil_ne_greeting
        · rw [unwritten] at member
          cases member
    | unloaded | regionAllocated | cdevAllocated | cdevInitialised | cdevFail | unregisterChrdev
    | loadedEmpty | failed | removed | unregistered | exited =>
        rw [here] at reachable
        cases reachable
  · exact fun here => prepared.at_point here

theorem respected_iff_called (driver : Driver) (state : State) (label : Label) (next : State)
    (prepared : Prepared state) (taken : step driver state label = some next) :
    BufferRespected state label <-> CalledWhenLoaded state label := by
  rcases guarded_eq_some.mp taken with ⟨enabled, _same⟩
  cases label with
  | userRead | userWrite => exact bufferReady_iff_loaded prepared enabled
  | vmalloc | vmallocFails => exact iff_true_intro (prepared.at_point enabled).2.2
  | memset => exact iff_true_intro (prepared.at_point enabled).2
  | sprintf => exact iff_true_intro (prepared.at_point enabled).2.1
  | allocChrdevRegion | allocChrdevRegionFails | cdevAlloc | cdevAllocFails | cdevInit | cdevAdd
  | cdevAddFails | miscRegister | miscRegisterFails | cdevDel | unregisterChrdevRegion
  | miscDeregister | vfree | userOpen => exact Iff.rfl

/-- For both drivers and every interleaving with user calls, all reads and
writes find the buffer ready, and no write is overwritten, exactly when they
come after the last statement of the init function. -/
theorem buffer_respected_iff (driver : Driver) (labels : List Label) :
    RunMeets (step driver) BufferRespected initial labels <->
      RunMeets (step driver) CalledWhenLoaded initial labels :=
  runMeets_congr (step driver) (prepared_step driver) (respected_iff_called driver) labels
    prepared_initial

/-- A user opens the device right after its publication and reads through
`NULL`. -/
theorem early_read_finds_null :
    ¬ forall (driver : Driver) (labels : List Label),
      RunMeets (step driver) BufferRespected initial labels := by
  intro always
  have met := always .mymdev [.miscRegister, .userOpen 1, .userRead 1 64 64]
  have opened := (met _ rfl).2
  have read := (opened _ rfl).2
  exact absurd (read _ rfl).1.1 nofun

end CharacterDevice
end KernelStudy
