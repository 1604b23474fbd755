import KernelStudy.Foundations.CellMemory
import KernelStudy.Foundations.LabelledRun
import KernelStudy.Foundations.Numeral
import KernelStudy.AddressSpace.Memmap

namespace KernelStudy
namespace AddressSpace
namespace SharedArea

open CellMemory LabelledRun Numeral

/-!
# One kernel area in many address spaces

The `memmap` driver exists so that processes share the pages of its area.
`my_write` maps ten pages and prints a text into the first one, `my_read` maps
all of them and prints what it finds.  A process reaches the area through its
own page table, which is empty after `mmap`; the first access to a page faults,
and the driver's handler decides which page of the area is installed.

A private mapping that is written gets copies of its pages, and its process no
longer sees the others.  `my_memmap_map` refuses to map such an area.  This and
the choice of pages by the handler are what makes all mappings windows of one
array.  Areas are mapped and unmapped as a whole here, as the programs do.
-/

/-! ## The area of a loaded driver -/

/-- The text of page `i`, `"test: %d"` with its NUL. -/
def pageText (i : Nat) : List UInt8 :=
  ['t', 'e', 's', 't', ':', ' '].map charByte ++ decimal i ++ [0]

/-- One turn of the loop of `my_memmap_drv_init`. -/
def initPage (area : Nat -> UInt8) (i : Nat) : Nat -> UInt8 :=
  store area (4096 * i) (pageText i)

/-- The area as `my_memmap_drv_init` leaves it.  `vmalloc` does not clear it. -/
def myMemmapDrvInit (garbage : Nat -> UInt8) : Nat -> UInt8 :=
  (List.range pageCnt).foldl initPage garbage

/-! ## Address spaces -/

def vmRead : UInt64 := 0x1

def Readable (vma : Vma) : Prop :=
  vma.vmFlags &&& (vmRead ||| vmWrite) ≠ 0

def Writable (vma : Vma) : Prop :=
  vma.vmFlags &&& vmWrite ≠ 0

instance : DecidablePred Readable :=
  fun _ => inferInstanceAs (Decidable (_ ≠ _))

instance : DecidablePred Writable :=
  fun _ => inferInstanceAs (Decidable (_ ≠ _))

/-- What a page table entry names: a page of the area, or a private copy. -/
inductive Frame where
  | kernel (page : Nat)
  | copied (bytes : Nat -> UInt8)

/-- A mapped area with its page table, by the number of the page in the area
of the process. -/
structure UserMapping where
  vma : Vma
  table : Nat -> Option Frame

namespace UserMapping

def page (mapping : UserMapping) (address : Nat) : Nat :=
  (address - mapping.vma.vmStart) / 4096

def install (mapping : UserMapping) (page : Nat) (frame : Frame) : UserMapping :=
  { mapping with table := Function.update mapping.table page (some frame) }

/-- The entry for an address.  Without one the driver resolves the fault; a
signal or an address outside the area gives nothing. -/
def resolve (area : UInt64) (mapping : UserMapping) (address : Nat) : Option (Frame × UserMapping) :=
  match mapping.table (mapping.page address) with
  | some frame => some (frame, mapping)
  | none =>
      match (myMemmapVmaOpsFault area mapping.vma address (mapping.vma.pgoff address)).outcome with
      | .resolved (some page) _ =>
          some (.kernel page, mapping.install (mapping.page address) (.kernel page))
      | .resolved none _ | .oops | .sigbus => none

/-- A store through an entry.  A private mapping writes to a copy. -/
def write (contents : Nat -> UInt8) (mapping : UserMapping) (frame : Frame) (address : Nat)
    (byte : UInt8) : (Nat -> UInt8) × UserMapping :=
  match frame with
  | .copied bytes =>
      (contents, mapping.install (mapping.page address) (.copied (store bytes (address % 4096) [byte])))
  | .kernel page =>
      if mapping.vma.vmFlags &&& vmShared ≠ 0 then
        (store contents (4096 * page + address % 4096) [byte], mapping)
      else
        (contents, mapping.install (mapping.page address) (.copied
          (store (fun offset => contents (4096 * page + offset)) (address % 4096) [byte])))

end UserMapping

def Frame.read (contents : Nat -> UInt8) (frame : Frame) (offset : Nat) : UInt8 :=
  match frame with
  | .kernel page => contents (4096 * page + offset)
  | .copied bytes => bytes offset

/-- An access as its process sees it: the distance from the start of the
mapping, and the byte that was read or written.  No byte is a signal. -/
structure Access where
  distance : Nat
  stores : Bool
  byte : Option UInt8
deriving DecidableEq

/-- The area of the driver while it is loaded, the mappings of all processes,
and the accesses since the driver was loaded. -/
structure System where
  contents : Option (Nat -> UInt8)
  mappings : List UserMapping
  accesses : List Access

inductive Event where
  | insmod (garbage : Nat -> UInt8)
  | rmmod
  | mmap (vma : Vma)
  | munmap (index : Nat)
  | load (index address : Nat)
  | store (index address : Nat) (byte : UInt8)

/-- An access of a process through one of its mappings.  What it does to the
area and to the mapping is passed in, with the byte that it moves. -/
def access (area : UInt64) (system : System) (index address : Nat) (stores : Bool)
    (allowed : Vma -> Prop) [DecidablePred allowed]
    (effect : (Nat -> UInt8) -> Frame -> UserMapping -> (Nat -> UInt8) × UserMapping × UInt8) :
    Option System :=
  system.contents.bind fun contents => (system.mappings[index]?).bind fun mapping =>
    if mapping.vma.Contains address /\ allowed mapping.vma then
      match mapping.resolve area address with
      | none => some { system with
          accesses := system.accesses ++ [⟨address - mapping.vma.vmStart, stores, none⟩] }
      | some (frame, resolved) =>
          let done := effect contents frame resolved
          some { contents := some done.1
                 mappings := system.mappings.set index done.2.1
                 accesses := system.accesses ++
                   [⟨address - mapping.vma.vmStart, stores, some done.2.2⟩] }
    else none

/-- One event.  An open mapping holds a reference to the module, which can
then not be removed. -/
def systemStep (area : UInt64) (system : System) : Event -> Option System
  | .insmod garbage =>
      if system.contents.isNone then some ⟨some (myMemmapDrvInit garbage), system.mappings, []⟩ else none
  | .rmmod =>
      if system.contents.isSome /\ system.mappings.length = 0 then some ⟨none, [], system.accesses⟩ else none
  | .mmap vma => system.contents.bind fun _ =>
      if (myMemmapMap vma).1 = 0 then
        some { system with mappings := system.mappings ++ [⟨(myMemmapMap vma).2, fun _ => none⟩] }
      else none
  | .munmap index => (system.mappings[index]?).map fun _ =>
      { system with mappings := system.mappings.eraseIdx index }
  | .load index address =>
      access area system index address false Readable fun contents frame resolved =>
        (contents, resolved, frame.read contents (address % 4096))
  | .store index address byte =>
      access area system index address true Writable fun contents frame resolved =>
        let written := resolved.write contents frame address byte
        (written.1, written.2, byte)

/-- Nothing is loaded and nothing is mapped. -/
def System.start : System := ⟨none, [], []⟩

/-! ## What the driver is for -/

/-- A process's view of the area: the addresses from `start` up to `stop` are
the bytes of the array from its beginning. -/
structure Window where
  start : Nat
  stop : Nat
  readable : Bool
  writable : Bool

/-- One array, and the windows onto it. -/
structure Shared where
  contents : Option (Nat -> UInt8)
  windows : List Window
  accesses : List Access

def windowOf (vma : Vma) : Window :=
  ⟨vma.vmStart, vma.vmEnd, decide (Readable vma), decide (Writable vma)⟩

def sharedAccess (shared : Shared) (index address : Nat) (stores : Bool) (allowed : Window -> Bool)
    (effect : (Nat -> UInt8) -> Nat -> (Nat -> UInt8) × UInt8) : Option Shared :=
  shared.contents.bind fun contents => (shared.windows[index]?).bind fun window =>
    if (window.start ≤ address /\ address < window.stop) /\ allowed window = true then
      let done := effect contents (address - window.start)
      some { contents := some done.1
             windows := shared.windows
             accesses := shared.accesses ++ [⟨address - window.start, stores, some done.2⟩] }
    else none

def sharedStep (shared : Shared) : Event -> Option Shared
  | .insmod garbage =>
      if shared.contents.isNone then some ⟨some (myMemmapDrvInit garbage), shared.windows, []⟩ else none
  | .rmmod =>
      if shared.contents.isSome /\ shared.windows.length = 0 then some ⟨none, [], shared.accesses⟩ else none
  | .mmap vma => shared.contents.bind fun _ =>
      if (myMemmapMap vma).1 = 0 then
        some { shared with windows := shared.windows ++ [windowOf (myMemmapMap vma).2] }
      else none
  | .munmap index => (shared.windows[index]?).map fun _ =>
      { shared with windows := shared.windows.eraseIdx index }
  | .load index address =>
      sharedAccess shared index address false Window.readable fun contents distance =>
        (contents, contents distance)
  | .store index address byte =>
      sharedAccess shared index address true Window.writable fun contents distance =>
        (store contents distance [byte], byte)

def System.shared (system : System) : Shared :=
  ⟨system.contents, system.mappings.map fun mapping => windowOf mapping.vma, system.accesses⟩

/-! ## Page tables only name the right pages -/

/-- What holds of every mapping that the driver accepted. -/
structure Backed (mapping : UserMapping) : Prop where
  first : mapping.vma.vmPgoff = 0
  fits : mapping.vma.vmEnd - mapping.vma.vmStart ≤ mapLen.toNat
  shared : Writable mapping.vma -> mapping.vma.vmFlags &&& vmShared ≠ 0
  entries : forall page frame, mapping.table page = some frame -> frame = .kernel page

/-- The flag that the driver adds is neither of the two that it tests. -/
theorem faultLocked_and {flags bit : UInt64} (other : vmFaultLocked &&& bit = 0) :
    (flags ||| vmFaultLocked) &&& bit = flags &&& bit := by
  apply UInt64.toBitVec_inj.mp
  have zero := congrArg UInt64.toBitVec other
  rw [UInt64.toBitVec_and] at zero
  rw [UInt64.toBitVec_and, UInt64.toBitVec_or, BitVec.and_or_distrib_right, zero, UInt64.toBitVec_and]
  exact BitVec.or_zero

theorem accepted_backed {vma : Vma} (accepted : (myMemmapMap vma).1 = 0) :
    Backed ⟨(myMemmapMap vma).2, fun _ => none⟩ := by
  rcases accepted_mapping accepted with ⟨first, _installed, fits⟩
  refine ⟨first, fits, ?_, fun page frame impossible => absurd impossible.symm (Option.some_ne_none frame)⟩
  intro writable
  have flags : (myMemmapMap vma).2.vmFlags = vma.vmFlags ||| vmFaultLocked /\
      ¬ (vma.vmFlags &&& vmWrite ≠ 0 /\ vma.vmFlags &&& vmShared = 0) := by
    unfold myMemmapMap at accepted ⊢
    by_cases tooBig : UInt64.ofNat vma.vmEnd - UInt64.ofNat vma.vmStart > mapLen
    · simp only [if_pos tooBig] at accepted
      exact absurd accepted (by decide)
    by_cases private_ : vma.vmFlags &&& vmWrite ≠ 0 /\ vma.vmFlags &&& vmShared = 0
    · simp only [if_neg tooBig, if_pos private_] at accepted
      exact absurd accepted (by decide)
    by_cases zero : UInt64.ofNat vma.vmPgoff <<< 12 = 0
    · simp only [if_neg tooBig, if_neg private_, if_pos zero]
      exact ⟨trivial, private_⟩
    · simp only [if_neg tooBig, if_neg private_, if_neg zero] at accepted
      exact absurd accepted (by decide)
  rw [Writable, flags.1, faultLocked_and (by decide)] at writable
  rw [flags.1, faultLocked_and (by decide)]
  exact fun private_ => flags.2 ⟨writable, private_⟩

/-- A new entry for the page that belongs there. -/
theorem Backed.install {mapping : UserMapping} (backed : Backed mapping) (page : Nat) :
    Backed (mapping.install page (.kernel page)) := by
  refine ⟨backed.first, backed.fits, backed.shared, ?_⟩
  intro other frame entry
  by_cases same : other = page
  · subst other
    simp only [UserMapping.install, Function.update_self] at entry
    exact (Option.some.inj entry).symm
  · simp only [UserMapping.install, Function.update_of_ne same] at entry
    exact backed.entries other frame entry

/-- An access to an accepted mapping finds the page at its distance, and
leaves the mapping as it should be. -/
theorem Backed.resolve {area : UInt64} (allocated : area ≠ 0) {mapping : UserMapping}
    (backed : Backed mapping) {address : Nat} (inside : mapping.vma.Contains address) :
    Exists fun resolved => mapping.resolve area address =
        some (.kernel (mapping.page address), resolved) /\
      Backed resolved /\ resolved.vma = mapping.vma := by
  cases entry : mapping.table (mapping.page address) with
  | some frame =>
      refine ⟨mapping, ?_, backed, rfl⟩
      rw [UserMapping.resolve, entry, backed.entries _ frame entry]
  | none =>
      have length : mapLen.toNat = 4096000 := rfl
      have count : pageCnt = 1000 := rfl
      have fits := backed.fits
      have lower := inside.1
      have upper := inside.2
      have offset : mapping.vma.pgoff address = mapping.page address := by
        rw [Vma.pgoff, backed.first, Nat.zero_add, UserMapping.page]
      have inArea : mapping.vma.pgoff address < pageCnt := by
        rw [offset, UserMapping.page]
        omega
      refine ⟨mapping.install (mapping.page address) (.kernel (mapping.page address)), ?_,
        backed.install _, rfl⟩
      rw [UserMapping.resolve, entry, fault_resolved allocated inside inArea]
      rfl

/-- A page and the offset in it are the distance from the start. -/
theorem page_add_offset (mapping : UserMapping) {address : Nat} (inside : mapping.vma.Contains address) :
    4096 * mapping.page address + address % 4096 = address - mapping.vma.vmStart := by
  have aligned := mapping.vma.start_aligned
  have lower := inside.1
  rw [UserMapping.page]
  omega

/-- A store of an accepted mapping goes to the area. -/
theorem Backed.write {mapping : UserMapping} (backed : Backed mapping) (writable : Writable mapping.vma)
    {address : Nat} (inside : mapping.vma.Contains address) (contents : Nat -> UInt8) (byte : UInt8) :
    mapping.write contents (.kernel (mapping.page address)) address byte =
      (store contents (address - mapping.vma.vmStart) [byte], mapping) := by
  simp only [UserMapping.write, if_pos (backed.shared writable), page_add_offset mapping inside]

/-- Every mapping was accepted. -/
def AllBacked (system : System) : Prop :=
  forall mapping, mapping ∈ system.mappings -> Backed mapping

/-- Putting a mapping of the same area back changes no window. -/
theorem windows_set {mappings : List UserMapping} {index : Nat} {mapping resolved : UserMapping}
    (found : mappings[index]? = some mapping) (same : resolved.vma = mapping.vma) :
    (mappings.set index resolved).map (fun mapping => windowOf mapping.vma) =
      mappings.map fun mapping => windowOf mapping.vma := by
  rw [List.map_set, same]
  apply List.ext_getElem?
  intro other
  rw [List.getElem?_set]
  split_ifs with here bound
  · rw [← here, List.getElem?_map, found, Option.map_some]
  · rw [← here]
    exact (List.getElem?_eq_none (Nat.le_of_not_lt bound)).symm
  · rfl

theorem allBacked_set {mappings : List UserMapping}
    (sound : forall mapping, mapping ∈ mappings -> Backed mapping) (index : Nat)
    {resolved : UserMapping} (backed : Backed resolved) :
    forall mapping, mapping ∈ mappings.set index resolved -> Backed mapping := by
  intro mapping member
  rcases List.mem_or_eq_of_mem_set member with earlier | now
  · exact sound mapping earlier
  · exact now ▸ backed

/-! ## The simulation -/

section Simulation

variable {area : UInt64} (allocated : area ≠ 0) {system : System} (sound : AllBacked system)

include allocated sound

/-- An access is an access to the array, if its effect on a page of the area
is its effect on the array. -/
theorem access_shared (index address : Nat) (stores : Bool) {allowed : Vma -> Prop}
    [DecidablePred allowed] {windowAllowed : Window -> Bool}
    (agree : forall vma, windowAllowed (windowOf vma) = decide (allowed vma))
    {effect : (Nat -> UInt8) -> Frame -> UserMapping -> (Nat -> UInt8) × UserMapping × UInt8}
    {arrayEffect : (Nat -> UInt8) -> Nat -> (Nat -> UInt8) × UInt8}
    (same : forall contents mapping, Backed mapping -> mapping.vma.Contains address ->
      allowed mapping.vma -> effect contents (.kernel (mapping.page address)) mapping =
        ((arrayEffect contents (address - mapping.vma.vmStart)).1, mapping,
          (arrayEffect contents (address - mapping.vma.vmStart)).2)) :
    (access area system index address stores allowed effect).map System.shared =
        sharedAccess system.shared index address stores windowAllowed arrayEffect /\
      forall next, access area system index address stores allowed effect = some next -> AllBacked next := by
  cases loaded : system.contents with
  | none =>
      simp only [access, sharedAccess, System.shared, loaded, Option.bind_none, Option.map_none,
        reduceCtorEq, false_implies, implies_true, and_self]
  | some contents =>
      cases found : system.mappings[index]? with
      | none =>
          simp only [access, sharedAccess, System.shared, loaded, found, List.getElem?_map,
            Option.bind_some, Option.bind_none, Option.map_none, reduceCtorEq, false_implies,
            implies_true, and_self]
      | some mapping =>
          have sameTest : (((windowOf mapping.vma).start ≤ address /\
              address < (windowOf mapping.vma).stop) /\ windowAllowed (windowOf mapping.vma) = true) <->
                mapping.vma.Contains address /\ allowed mapping.vma := by
            rw [agree, decide_eq_true_iff]
            exact Iff.rfl
          simp only [access, sharedAccess, System.shared, loaded, found, List.getElem?_map,
            Option.bind_some, Option.map_some]
          by_cases permitted : mapping.vma.Contains address /\ allowed mapping.vma
          · have backed := sound mapping (List.mem_of_getElem? found)
            rcases backed.resolve allocated permitted.1 with ⟨resolved, entry, stillBacked, sameArea⟩
            have result := same contents resolved stillBacked (by rw [sameArea]; exact permitted.1)
              (by rw [sameArea]; exact permitted.2)
            have samePage : resolved.page address = mapping.page address := by
              rw [UserMapping.page, UserMapping.page, sameArea]
            rw [samePage, sameArea] at result
            simp only [if_pos permitted, if_pos (sameTest.mpr permitted), entry, result, Option.map_some]
            refine ⟨?_, fun next taken => ?_⟩
            · rw [System.shared, windows_set found sameArea]
              rfl
            · rw [← Option.some.inj taken]
              exact allBacked_set sound index stillBacked
          · rw [if_neg permitted]
            refine ⟨?_, fun next impossible => absurd impossible.symm (Option.some_ne_none next)⟩
            rw [Option.map_none, if_neg (fun claimed => permitted (sameTest.mp claimed))]

/-- Every event does to the array what it does to the address spaces. -/
theorem systemStep_shared (event : Event) :
    (systemStep area system event).map System.shared = sharedStep system.shared event /\
      forall next, systemStep area system event = some next -> AllBacked next := by
  cases event with
  | insmod garbage =>
      cases absent : system.contents.isNone with
      | true =>
          simp only [systemStep, sharedStep, System.shared, absent, if_true]
          refine ⟨rfl, fun next taken => ?_⟩
          rw [← Option.some.inj taken]
          exact sound
      | false =>
          simp only [systemStep, sharedStep, System.shared, absent, Bool.false_eq_true, if_false]
          exact ⟨rfl, fun next impossible => absurd impossible.symm (Option.some_ne_none next)⟩
  | rmmod =>
      simp only [systemStep, sharedStep, System.shared, List.length_map]
      by_cases unused : system.contents.isSome = true /\ system.mappings.length = 0
      · simp only [if_pos unused]
        refine ⟨rfl, fun next taken => ?_⟩
        rw [← Option.some.inj taken]
        exact List.forall_mem_nil _
      · simp only [if_neg unused]
        exact ⟨rfl, fun next impossible => absurd impossible.symm (Option.some_ne_none next)⟩
  | mmap vma =>
      simp only [systemStep, sharedStep, System.shared]
      cases system.contents with
      | none => exact ⟨rfl, fun next impossible => absurd impossible.symm (Option.some_ne_none next)⟩
      | some contents =>
          simp only [Option.bind_some]
          by_cases accepted : (myMemmapMap vma).1 = 0
          · simp only [if_pos accepted]
            refine ⟨by simp only [Option.map_some, System.shared, List.map_append, List.map_cons,
              List.map_nil], fun next taken => ?_⟩
            rw [← Option.some.inj taken]
            intro mapping member
            rcases List.mem_append.mp member with earlier | now
            · exact sound mapping earlier
            · rw [List.mem_singleton.mp now]
              exact accepted_backed accepted
          · simp only [if_neg accepted]
            exact ⟨rfl, fun next impossible => absurd impossible.symm (Option.some_ne_none next)⟩
  | munmap index =>
      simp only [systemStep, sharedStep, System.shared, List.getElem?_map, Option.map_map]
      cases system.mappings[index]? with
      | none => exact ⟨rfl, fun next impossible => absurd impossible.symm (Option.some_ne_none next)⟩
      | some mapping =>
          refine ⟨by simp only [Option.map_some, Function.comp_apply, System.shared,
            List.eraseIdx_map], fun next taken => ?_⟩
          rw [← Option.some.inj taken]
          intro other member
          exact sound other (List.mem_of_mem_eraseIdx member)
  | load index address =>
      have readable : forall vma, Window.readable (windowOf vma) = decide (Readable vma) := fun _ => rfl
      simp only [systemStep, sharedStep]
      apply access_shared allocated sound index address false readable
      intro contents mapping _backed inside _readable
      simp only [Frame.read, page_add_offset mapping inside]
  | store index address byte =>
      have writable : forall vma, Window.writable (windowOf vma) = decide (Writable vma) := fun _ => rfl
      simp only [systemStep, sharedStep]
      apply access_shared allocated sound index address true writable
      intro contents mapping backed inside writable
      simp only [backed.write writable inside]

end Simulation

/-- Runs of the address spaces are runs of the array. -/
theorem run_shared {area : UInt64} (allocated : area ≠ 0) (events : List Event) :
    (run (systemStep area) System.start events).map System.shared =
      run sharedStep System.start.shared events := by
  apply run_map (systemStep area) sharedStep System.shared AllBacked
  · intro system event sound
    exact (systemStep_shared allocated sound event).1
  · intro system event next sound taken
    exact (systemStep_shared allocated sound event).2 next taken
  · exact List.forall_mem_nil _

theorem sharedAccess_cases {shared next : Shared} {index address : Nat} {stores : Bool}
    {allowed : Window -> Bool} {effect : (Nat -> UInt8) -> Nat -> (Nat -> UInt8) × UInt8}
    (taken : sharedAccess shared index address stores allowed effect = some next) :
    Exists fun contents => Exists fun window : Window => shared.contents = some contents /\
      shared.windows[index]? = some window /\
      next = ⟨some (effect contents (address - window.start)).1, shared.windows, shared.accesses ++
        [⟨address - window.start, stores, some (effect contents (address - window.start)).2⟩]⟩ := by
  simp only [sharedAccess, Option.bind_eq_some_iff, Option.ite_none_right_eq_some,
    Option.some.injEq] at taken
  rcases taken with ⟨contents, loaded, window, found, _allowed, same⟩
  exact ⟨contents, window, loaded, found, same.symm⟩

/-- The array serves every access. -/
theorem sharedStep_served {shared next : Shared} {event : Event}
    (served : forall access, access ∈ shared.accesses -> access.byte.isSome = true)
    (taken : sharedStep shared event = some next) :
    forall access, access ∈ next.accesses -> access.byte.isSome = true := by
  have extended : forall access : Access, access.byte.isSome = true ->
      forall other, other ∈ shared.accesses ++ [access] -> other.byte.isSome = true := by
    intro access now other member
    rcases List.mem_append.mp member with before | isNow
    · exact served other before
    · rw [List.mem_singleton.mp isNow]
      exact now
  cases event with
  | insmod garbage =>
      simp only [sharedStep, Option.ite_none_right_eq_some, Option.some.injEq] at taken
      rw [← taken.2]
      exact List.forall_mem_nil _
  | rmmod =>
      simp only [sharedStep, Option.ite_none_right_eq_some, Option.some.injEq] at taken
      rw [← taken.2]
      exact served
  | mmap vma =>
      simp only [sharedStep, Option.bind_eq_some_iff, Option.ite_none_right_eq_some,
        Option.some.injEq] at taken
      rcases taken with ⟨_contents, _loaded, _accepted, same⟩
      rw [← same]
      exact served
  | munmap index =>
      simp only [sharedStep, Option.map_eq_some_iff] at taken
      rcases taken with ⟨_window, _found, same⟩
      rw [← same]
      exact served
  | load index address =>
      simp only [sharedStep] at taken
      rcases sharedAccess_cases taken with ⟨contents, window, _loaded, _found, same⟩
      rw [same]
      exact extended _ rfl
  | store index address byte =>
      simp only [sharedStep] at taken
      rcases sharedAccess_cases taken with ⟨contents, window, _loaded, _found, same⟩
      rw [same]
      exact extended _ rfl

/-- The mappings of all processes are windows of one array.  For every order in
which the driver is loaded and removed and processes map, read, write and unmap
the area, each through its own page table, the driver serves exactly the
accesses of a shared array with the same results.  No access gets a signal, and
no page table ever names another page than the one at its place, or a copy. -/
theorem area_is_shared (area : UInt64) (allocated : area ≠ 0) (events : List Event) :
    (run (systemStep area) System.start events).map System.shared =
        run sharedStep System.start.shared events /\
      forall final, run (systemStep area) System.start events = some final ->
        (forall access, access ∈ final.accesses -> access.byte.isSome = true) /\
        forall mapping, mapping ∈ final.mappings -> forall page frame,
          mapping.table page = some frame -> frame = .kernel page := by
  refine ⟨run_shared allocated events, fun final reached => ⟨?_, ?_⟩⟩
  · have shared := run_shared allocated events
    rw [reached, Option.map_some] at shared
    exact invariant_of_run sharedStep
      (fun shared => forall access, access ∈ shared.accesses -> access.byte.isSome = true)
      (fun _ _ _ served taken => sharedStep_served served taken) (List.forall_mem_nil _) shared.symm
  · have begun : AllBacked System.start := List.forall_mem_nil _
    have sound := invariant_of_run (systemStep area) AllBacked
      (fun system event next sound taken => (systemStep_shared allocated sound event).2 next taken)
      begun reached
    intro mapping member
    exact (sound mapping member).entries

/-- The driver is loaded, a process maps two pages and reads the second one. -/
def readerEvents : List Event :=
  [.insmod fun _ => 0, .mmap twoPages, .load 0 0x7F0000001000]

theorem readerEvents_shared :
    (run sharedStep System.start.shared readerEvents).map Shared.accesses =
      some [⟨4096, false, some (myMemmapDrvInit (fun _ => 0) 4096)⟩] := by
  have accepted : (myMemmapMap twoPages).1 = 0 := by decide
  have allowed : ((windowOf (myMemmapMap twoPages).2).start ≤ 0x7F0000001000 /\
      0x7F0000001000 < (windowOf (myMemmapMap twoPages).2).stop) /\
      (windowOf (myMemmapMap twoPages).2).readable = true := by decide
  have distance : 0x7F0000001000 - (windowOf (myMemmapMap twoPages).2).start = 4096 := by decide
  simp only [readerEvents, run, sharedStep, sharedAccess, System.start, System.shared,
    Option.isNone_none, if_true, Option.bind_some, if_pos accepted, List.map_nil, List.nil_append,
    List.getElem?_cons_zero, if_pos allowed, distance, Option.map_some]

/-- The reader finds in its second page what the driver has put there. -/
theorem area_is_shared_reader :
    (run (systemStep 0xFFFFC90000000000) System.start readerEvents).map
        (fun system => system.shared.accesses) =
      some [⟨4096, false, some (myMemmapDrvInit (fun _ => 0) 4096)⟩] := by
  have shared := (area_is_shared 0xFFFFC90000000000 (by decide) readerEvents).1
  have computed := readerEvents_shared
  rw [← shared, Option.map_map] at computed
  exact computed

/-! ## The two programs -/

/-- `sprintf(uaddr, "write my context from write userspace")` in `my_write`. -/
def writerText : List UInt8 :=
  ['w', 'r', 'i', 't', 'e', ' ', 'm', 'y', ' ', 'c', 'o', 'n', 't', 'e', 'x', 't', ' ', 'f', 'r', 'o', 'm',
    ' ', 'w', 'r', 'i', 't', 'e', ' ', 'u', 's', 'e', 'r', 's', 'p', 'a', 'c', 'e'].map charByte ++ [0]

/-- Every store is one that `my_write` makes. -/
def WriterOnly (system : System) : Event -> Prop
  | .store index address byte => forall mapping, system.mappings[index]? = some mapping ->
      writerText[address - mapping.vma.vmStart]? = some byte
  | .insmod _ | .rmmod | .mmap _ | .munmap _ | .load _ _ => True

theorem length_decimal {value : Nat} (small : value < 1000) : (decimal value).length ≤ 3 := by
  rw [decimal]
  split
  · decide
  · rw [List.length_map, List.length_reverse]
    exact (Nat.digits_length_le_iff (by decide) value).mpr small

theorem length_pageText {i : Nat} (inArea : i < pageCnt) : (pageText i).length ≤ 4096 := by
  have digits : (decimal i).length ≤ 3 := length_decimal inArea
  rw [pageText, List.length_append, List.length_append, List.length_map]
  simp only [List.length_cons, List.length_nil]
  omega

/-- The loop of the driver leaves its text in every page. -/
theorem myMemmapDrvInit_text (garbage : Nat -> UInt8) {page j : Nat} {byte : UInt8}
    (inArea : page < pageCnt) (text : (pageText page)[j]? = some byte) :
    myMemmapDrvInit garbage (4096 * page + j) = byte := by
  have inText : j < (pageText page).length := (List.getElem?_eq_some_iff.mp text).1
  have after : forall count, count ≤ pageCnt -> page < count ->
      (List.range count).foldl initPage garbage (4096 * page + j) = byte := by
    intro count
    induction count with
    | zero =>
        intro _ impossible
        exact absurd impossible (Nat.not_lt_zero page)
    | succ count inductionHypothesis =>
        intro within reached
        rw [List.range_succ, List.foldl_append, List.foldl_cons, List.foldl_nil, initPage]
        have short := length_pageText inArea
        by_cases last : page = count
        · subst count
          rw [store, if_pos (by omega), Nat.add_sub_cancel_left, text, Option.getD_some]
        · rw [store_below _ _ (by omega)]
          exact inductionHypothesis (by omega) (by omega)
  exact after pageCnt (Nat.le_refl _) inArea

/-- What the accesses show while only `my_write` stores. -/
structure Printed (shared : Shared) : Prop where
  unread : shared.contents = none \/ Exists fun contents => shared.contents = some contents /\
    (forall page j byte, page < pageCnt -> (pageText page)[j]? = some byte ->
      contents (4096 * page + j) = byte \/ (page = 0 /\ writerText[j]? = some (contents j))) /\
    forall access, access ∈ shared.accesses -> access.stores = true ->
      access.byte = some (contents access.distance)
  written : forall access, access ∈ shared.accesses -> access.stores = true ->
    access.byte = writerText[access.distance]?
  served : forall access, access ∈ shared.accesses -> access.byte.isSome = true
  texts : forall access, access ∈ shared.accesses -> forall page j byte, page < pageCnt ->
    (pageText page)[j]? = some byte -> access.distance = 4096 * page + j ->
    access.byte = some byte \/ (page = 0 /\ access.byte = writerText[j]?)
  later : shared.accesses.Pairwise fun earlier access =>
    earlier.stores = true -> access.distance = earlier.distance -> access.byte = earlier.byte

theorem store_single (contents : Nat -> UInt8) (place : Nat) (byte : UInt8) (address : Nat) :
    store contents place [byte] address = if address = place then byte else contents address := by
  split
  · rename_i here
    subst address
    rw [store, if_pos (Nat.le_refl place), Nat.sub_self, List.getElem?_cons_zero, Option.getD_some]
  · exact store_outside contents (by rw [List.length_singleton]; omega)

/-- One more access with the byte that the array holds there. -/
theorem Printed.append {shared : Shared} (printed : Printed shared) {contents after : Nat -> UInt8}
    (loaded : shared.contents = some contents) {access : Access}
    (moved : access.byte = some (after access.distance))
    (stored : access.stores = true -> access.byte = writerText[access.distance]?)
    (same : forall address, address ≠ access.distance \/ access.stores = false ->
      after address = contents address) :
    Printed ⟨some after, shared.windows, shared.accesses ++ [access]⟩ := by
  rcases printed.unread with absent | ⟨held, isHeld, texts, stores⟩
  · exact absurd (absent.symm.trans loaded) (Option.some_ne_none contents).symm
  have sameContents : held = contents := Option.some.inj (isHeld.symm.trans loaded)
  subst held
  have cases_ : access.stores = false \/ access.stores = true := by
    cases access.stores
    · exact Or.inl rfl
    · exact Or.inr rfl
  -- a place that was not just written holds what it held
  have textAfter : forall page j byte, page < pageCnt -> (pageText page)[j]? = some byte ->
      after (4096 * page + j) = byte \/ (page = 0 /\ writerText[j]? = some (after j)) := by
    intro page j byte inArea text
    by_cases here : 4096 * page + j = access.distance /\ access.stores = true
    · have written := stored here.2
      rw [moved] at written
      have short : access.distance < writerText.length :=
        (List.getElem?_eq_some_iff.mp written.symm).1
      have small : writerText.length = 38 := by decide
      have first : page = 0 := by omega
      have place : j = access.distance := by omega
      exact Or.inr ⟨first, by rw [place, ← written]⟩
    · have kept : forall address, address = 4096 * page + j -> after address = contents address := by
        intro address isPlace
        apply same
        rcases cases_ with loads | isStore
        · exact Or.inr loads
        · left
          intro atPlace
          exact here ⟨by omega, isStore⟩
      rcases texts page j byte inArea text with unchanged | ⟨first, written⟩
      · exact Or.inl ((kept _ rfl).trans unchanged)
      · exact Or.inr ⟨first, by rw [kept j (by omega)]; exact written⟩
  have storesAfter : forall earlier, earlier ∈ shared.accesses -> earlier.stores = true ->
      earlier.byte = some (after earlier.distance) := by
    intro earlier member isStore
    by_cases here : earlier.distance = access.distance /\ access.stores = true
    · rw [printed.written earlier member isStore, here.1, ← stored here.2, moved]
    · rw [same earlier.distance]
      · exact stores earlier member isStore
      · rcases cases_ with loads | nowStores
        · exact Or.inr loads
        · exact Or.inl fun samePlace => here ⟨samePlace, nowStores⟩
  refine ⟨Or.inr ⟨after, rfl, textAfter, ?_⟩, ?_, ?_, ?_, ?_⟩
  · intro earlier member isStore
    rcases List.mem_append.mp member with before | now
    · exact storesAfter earlier before isStore
    · rw [List.mem_singleton.mp now]
      exact moved
  · intro earlier member isStore
    rcases List.mem_append.mp member with before | now
    · exact printed.written earlier before isStore
    · rw [List.mem_singleton.mp now] at isStore ⊢
      exact stored isStore
  · intro earlier member
    rcases List.mem_append.mp member with before | now
    · exact printed.served earlier before
    · rw [List.mem_singleton.mp now, moved]
      rfl
  · intro earlier member page j byte inArea text distance
    rcases List.mem_append.mp member with before | now
    · exact printed.texts earlier before page j byte inArea text distance
    · rw [List.mem_singleton.mp now] at distance ⊢
      rw [moved, distance]
      rcases textAfter page j byte inArea text with unchanged | ⟨first, written⟩
      · exact Or.inl (by rw [unchanged])
      · refine Or.inr ⟨first, ?_⟩
        rw [written, first, Nat.mul_zero, Nat.zero_add]
  · apply List.pairwise_append.mpr
    refine ⟨printed.later, List.pairwise_singleton _ _, ?_⟩
    intro earlier member now isNow isStore samePlace
    rw [List.mem_singleton.mp isNow] at samePlace ⊢
    rw [moved, samePlace]
    exact (storesAfter earlier member isStore).symm

theorem printed_step {shared next : Shared} {event : Event} (printed : Printed shared)
    (writes : forall index address byte, event = .store index address byte -> forall window : Window,
      shared.windows[index]? = some window -> writerText[address - window.start]? = some byte)
    (taken : sharedStep shared event = some next) : Printed next := by
  cases event with
  | insmod garbage =>
      simp only [sharedStep, Option.ite_none_right_eq_some, Option.some.injEq] at taken
      rw [← taken.2]
      refine ⟨Or.inr ⟨_, rfl, ?_, List.forall_mem_nil _⟩, List.forall_mem_nil _, List.forall_mem_nil _,
        List.forall_mem_nil _, List.Pairwise.nil⟩
      intro page j byte inArea text
      exact Or.inl (myMemmapDrvInit_text garbage inArea text)
  | rmmod =>
      simp only [sharedStep, Option.ite_none_right_eq_some, Option.some.injEq] at taken
      rw [← taken.2]
      exact ⟨Or.inl rfl, printed.written, printed.served, printed.texts, printed.later⟩
  | mmap vma =>
      simp only [sharedStep, Option.bind_eq_some_iff, Option.ite_none_right_eq_some,
        Option.some.injEq] at taken
      rcases taken with ⟨_contents, _loaded, _accepted, same⟩
      rw [← same]
      exact ⟨printed.unread, printed.written, printed.served, printed.texts, printed.later⟩
  | munmap index =>
      simp only [sharedStep, Option.map_eq_some_iff] at taken
      rcases taken with ⟨_window, _found, same⟩
      rw [← same]
      exact ⟨printed.unread, printed.written, printed.served, printed.texts, printed.later⟩
  | load index address =>
      simp only [sharedStep] at taken
      rcases sharedAccess_cases taken with ⟨contents, window, loaded, _found, same⟩
      rw [same]
      apply printed.append loaded
      · rfl
      · intro impossible
        cases impossible
      · intro _ _
        rfl
  | store index address byte =>
      simp only [sharedStep] at taken
      rcases sharedAccess_cases taken with ⟨contents, window, loaded, found, same⟩
      rw [same]
      apply printed.append loaded
      · simp only [store_single, if_true]
      · intro _
        exact (writes index address byte rfl window found).symm
      · intro other elsewhere
        rcases elsewhere with different | impossible
        · exact (store_single _ _ _ _).trans (if_neg different)
        · cases impossible

/-- A step in which nobody but `my_write` stores. -/
theorem printed_preserved {area : UInt64} (allocated : area ≠ 0) (system : System) (event : Event)
    (next : System) (holds : AllBacked system /\ Printed system.shared) (writer : WriterOnly system event)
    (taken : systemStep area system event = some next) : AllBacked next /\ Printed next.shared := by
  rcases systemStep_shared allocated holds.1 event with ⟨same, keeps⟩
  refine ⟨keeps next taken, printed_step holds.2 ?_ (by rw [← same, taken, Option.map_some])⟩
  intro index address byte isStore window found
  subst event
  simp only [System.shared, List.getElem?_map, Option.map_eq_some_iff] at found
  rcases found with ⟨mapping, isMapping, sameWindow⟩
  rw [← sameWindow]
  exact writer mapping isMapping

/-- `my_read` and `my_write` in every interleaving, with any number of each and
any loads and removals of the driver, as long as nobody else stores.  Every
access is served.  A byte of the text `test: <page>` that is read from a page is
that of the driver; only in the first page it may be the writer's instead.  And
once a byte has been written, every later access finds it. -/
theorem readers_see_texts (area : UInt64) (allocated : area ≠ 0) (events : List Event)
    (writers : RunMeets (systemStep area) WriterOnly System.start events) (final : System)
    (reached : run (systemStep area) System.start events = some final) :
    (forall access, access ∈ final.accesses -> access.byte.isSome = true) /\
    (forall access, access ∈ final.accesses -> forall page j byte, page < pageCnt ->
      (pageText page)[j]? = some byte -> access.distance = 4096 * page + j ->
      access.byte = some byte \/ (page = 0 /\ access.byte = writerText[j]?)) /\
    final.accesses.Pairwise fun earlier access =>
      earlier.stores = true -> access.distance = earlier.distance -> access.byte = earlier.byte := by
  have begun : AllBacked System.start /\ Printed System.start.shared :=
    ⟨List.forall_mem_nil _, Or.inl rfl, List.forall_mem_nil _, List.forall_mem_nil _,
      List.forall_mem_nil _, List.Pairwise.nil⟩
  have along := alongRun_of_meets (systemStep area) (printed_preserved allocated)
    (fun _ both => both.2) begun writers
  have printed : Printed final.shared := AlongRun.final (systemStep area) along reached
  exact ⟨printed.served, printed.texts, printed.later⟩

/-- The ten pages of `my_write`, shared and to be written only. -/
def writerPages : Vma :=
  ⟨0x7D0000000000, 0x7D000000A000, 0, 0xA, false, by decide, by decide, by decide, by decide, by decide⟩

/-- A reader and the writer map the area; the first byte of the text is stored, and
read back, and then the first byte of the second page is read. -/
def writerEvents : List Event :=
  [.insmod fun _ => 0, .mmap twoPages, .mmap writerPages, .store 1 0x7D0000000000 (charByte 'w'),
    .load 0 0x7F0000000000, .load 0 0x7F0000001000]

theorem writerEvents_shared :
    (run sharedStep System.start.shared writerEvents).map Shared.accesses =
      some [⟨0, true, some (charByte 'w')⟩,
        ⟨0, false, some (store (myMemmapDrvInit fun _ => 0) 0 [charByte 'w'] 0)⟩,
        ⟨4096, false, some (store (myMemmapDrvInit fun _ => 0) 0 [charByte 'w'] 4096)⟩] := by
  have reader : (myMemmapMap twoPages).1 = 0 := by decide
  have writer : (myMemmapMap writerPages).1 = 0 := by decide
  have stored : ((windowOf (myMemmapMap writerPages).2).start ≤ 0x7D0000000000 /\
      0x7D0000000000 < (windowOf (myMemmapMap writerPages).2).stop) /\
      (windowOf (myMemmapMap writerPages).2).writable = true := by decide
  have first : ((windowOf (myMemmapMap twoPages).2).start ≤ 0x7F0000000000 /\
      0x7F0000000000 < (windowOf (myMemmapMap twoPages).2).stop) /\
      (windowOf (myMemmapMap twoPages).2).readable = true := by decide
  have second : ((windowOf (myMemmapMap twoPages).2).start ≤ 0x7F0000001000 /\
      0x7F0000001000 < (windowOf (myMemmapMap twoPages).2).stop) /\
      (windowOf (myMemmapMap twoPages).2).readable = true := by decide
  have storedAt : 0x7D0000000000 - (windowOf (myMemmapMap writerPages).2).start = 0 := by decide
  have firstAt : 0x7F0000000000 - (windowOf (myMemmapMap twoPages).2).start = 0 := by decide
  have secondAt : 0x7F0000001000 - (windowOf (myMemmapMap twoPages).2).start = 4096 := by decide
  simp only [writerEvents, run, sharedStep, sharedAccess, System.start, System.shared,
    Option.isNone_none, if_true, Option.bind_some, if_pos reader, if_pos writer, List.map_nil,
    List.nil_append, List.cons_append, List.getElem?_cons_zero, List.getElem?_cons_succ, if_pos stored,
    if_pos first, if_pos second, storedAt, firstAt, secondAt, Option.map_some]

/-- The only store is the first byte of the text of `my_write`. -/
theorem writerEvents_writerOnly (area : UInt64) :
    RunMeets (systemStep area) WriterOnly System.start writerEvents := by
  intro loaded taken
  cases taken
  refine ⟨trivial, fun reader taken => ⟨trivial, fun writer taken' => ⟨trivial, fun stored _ =>
    ⟨?_, fun _ _ => ⟨trivial, fun _ _ => ⟨trivial, trivial⟩⟩⟩⟩⟩⟩
  cases taken
  cases taken'
  intro mapping found
  cases found
  decide

/-- The reader finds the writer's byte in the first page, and the first byte of the
driver's text in the second one. -/
theorem readers_see_texts_written :
    Exists fun final => run (systemStep 0xFFFFC90000000000) System.start writerEvents = some final /\
      final.accesses = [⟨0, true, some (charByte 'w')⟩, ⟨0, false, some (charByte 'w')⟩,
        ⟨4096, false, some (charByte 't')⟩] := by
  have shared := run_shared (by decide : (0xFFFFC90000000000 : UInt64) ≠ 0) writerEvents
  have computed := writerEvents_shared
  rw [← shared, Option.map_map] at computed
  rcases Option.map_eq_some_iff.mp computed with ⟨final, reached, accesses⟩
  have accesses : final.accesses = _ := accesses
  have seen := readers_see_texts 0xFFFFC90000000000 (by decide) writerEvents (writerEvents_writerOnly _) final
    reached
  rw [accesses] at seen
  have written := List.rel_of_pairwise_cons seen.2.2 List.mem_cons_self rfl rfl
  have text := seen.2.1 _ (List.mem_cons_of_mem _ (List.mem_cons_of_mem _ List.mem_cons_self)) 1 0
    (charByte 't') (by decide) (by rfl) rfl
  refine ⟨final, reached, ?_⟩
  rw [accesses]
  rcases text with driver | ⟨impossible, _⟩
  · rw [show store (myMemmapDrvInit fun _ => 0) 0 [charByte 'w'] 0 = charByte 'w' from Option.some.inj written,
      show store (myMemmapDrvInit fun _ => 0) 0 [charByte 'w'] 4096 = charByte 't' from Option.some.inj driver]
  · cases impossible

end SharedArea
end AddressSpace
end KernelStudy
