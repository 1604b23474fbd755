import KernelStudy.Foundations.MachineWord
import KernelStudy.Foundations.LabelledRun

namespace KernelStudy
namespace AddressSpace

/-!
# Mapping a kernel area into user space

The `memmap` driver hands the pages of one `vmalloc` area to user processes.
`my_memmap_map` accepts a mapping, and `my_memmap_vma_ops_fault` resolves
each later page fault.  The fault handler computes a page twice: the page it
hands out comes from the distance of the fault to `vm_start`, and the page it
logs comes from `vmf->pgoff`.

Between the two the core kernel may reshape the mapping.  It splits an area,
drops a part, moves one or enlarges it, and always keeps the rule that the
page offset of an address is `vm_pgoff` plus its distance from `vm_start` in
pages.  A user address is a natural number below the user limit; the handler
calculates with `unsigned long`, modelled by 64-bit words.
-/

/-! ## Areas of the user address space -/

def pageCnt : Nat := 1000

/-- `MAP_LEN`, in bytes. -/
def mapLen : UInt64 := 4096000

def vmWrite : UInt64 := 0x2
def vmShared : UInt64 := 0x8
def vmFaultLocked : UInt64 := 0x200
def enxio : Int32 := 6
def einval : Int32 := 22

/-- The fields of a `vm_area_struct` that the driver and the kernel use here.
`vmOps` says whether the driver's operations are installed. -/
structure Vma where
  vmStart : Nat
  vmEnd : Nat
  vmPgoff : Nat
  vmFlags : UInt64
  vmOps : Bool
  start_aligned : 4096 ∣ vmStart
  end_aligned : 4096 ∣ vmEnd
  nonempty : vmStart < vmEnd
  in_user_space : vmEnd ≤ 2 ^ 47
  pgoff_fits : vmPgoff + (vmEnd - vmStart) / 4096 ≤ 2 ^ 52

namespace Vma

def Contains (vma : Vma) (address : Nat) : Prop :=
  vma.vmStart ≤ address /\ address < vma.vmEnd

instance (vma : Vma) (address : Nat) : Decidable (vma.Contains address) :=
  inferInstanceAs (Decidable (_ /\ _))

/-- The rule that the core kernel keeps: the page offset of an address. -/
def pgoff (vma : Vma) (address : Nat) : Nat :=
  vma.vmPgoff + (address - vma.vmStart) / 4096

/-- A number of pages after which the area can be cut in two. -/
def CutsAt (vma : Vma) (pages : Nat) : Prop :=
  0 < pages /\ vma.vmStart + 4096 * pages < vma.vmEnd

instance (vma : Vma) (pages : Nat) : Decidable (vma.CutsAt pages) :=
  inferInstanceAs (Decidable (_ /\ _))

/-- The first `pages` pages of the area. -/
def front (vma : Vma) (pages : Nat) (cuts : vma.CutsAt pages) : Vma where
  vmStart := vma.vmStart
  vmEnd := vma.vmStart + 4096 * pages
  vmPgoff := vma.vmPgoff
  vmFlags := vma.vmFlags
  vmOps := vma.vmOps
  start_aligned := vma.start_aligned
  end_aligned := Nat.dvd_add vma.start_aligned (Nat.dvd_mul_right 4096 pages)
  nonempty := by have positive := cuts.1; omega
  in_user_space := Nat.le_trans (Nat.le_of_lt cuts.2) vma.in_user_space
  pgoff_fits := by have fits := vma.pgoff_fits; have below := cuts.2; omega

/-- The pages behind a cut.  Their offsets continue where the front ends. -/
def back (vma : Vma) (pages : Nat) (cuts : vma.CutsAt pages) : Vma where
  vmStart := vma.vmStart + 4096 * pages
  vmEnd := vma.vmEnd
  vmPgoff := vma.vmPgoff + pages
  vmFlags := vma.vmFlags
  vmOps := vma.vmOps
  start_aligned := Nat.dvd_add vma.start_aligned (Nat.dvd_mul_right 4096 pages)
  end_aligned := vma.end_aligned
  nonempty := cuts.2
  in_user_space := vma.in_user_space
  pgoff_fits := by have fits := vma.pgoff_fits; have below := cuts.2; omega

/-- A page-aligned place with room for the whole area. -/
def FitsAt (vma : Vma) (newStart : Nat) : Prop :=
  4096 ∣ newStart /\ newStart + (vma.vmEnd - vma.vmStart) ≤ 2 ^ 47

instance (vma : Vma) (newStart : Nat) : Decidable (vma.FitsAt newStart) :=
  inferInstanceAs (Decidable (_ /\ _))

/-- The same pages at another place. -/
def moved (vma : Vma) (newStart : Nat) (fits : vma.FitsAt newStart) : Vma where
  vmStart := newStart
  vmEnd := newStart + (vma.vmEnd - vma.vmStart)
  vmPgoff := vma.vmPgoff
  vmFlags := vma.vmFlags
  vmOps := vma.vmOps
  start_aligned := fits.1
  end_aligned := Nat.dvd_add fits.1 (Nat.dvd_sub vma.end_aligned vma.start_aligned)
  nonempty := by have nonempty := vma.nonempty; omega
  in_user_space := fits.2
  pgoff_fits := by have fits := vma.pgoff_fits; omega

/-- Room for `pages` more pages at the end. -/
def GrowsBy (vma : Vma) (pages : Nat) : Prop :=
  vma.vmEnd + 4096 * pages ≤ 2 ^ 47 /\
    vma.vmPgoff + (vma.vmEnd + 4096 * pages - vma.vmStart) / 4096 ≤ 2 ^ 52

instance (vma : Vma) (pages : Nat) : Decidable (vma.GrowsBy pages) :=
  inferInstanceAs (Decidable (_ /\ _))

/-- The area with `pages` more pages at its end. -/
def grown (vma : Vma) (pages : Nat) (grows : vma.GrowsBy pages) : Vma where
  vmStart := vma.vmStart
  vmEnd := vma.vmEnd + 4096 * pages
  vmPgoff := vma.vmPgoff
  vmFlags := vma.vmFlags
  vmOps := vma.vmOps
  start_aligned := vma.start_aligned
  end_aligned := Nat.dvd_add vma.end_aligned (Nat.dvd_mul_right 4096 pages)
  nonempty := by have nonempty := vma.nonempty; omega
  in_user_space := grows.1
  pgoff_fits := grows.2

end Vma

/-! ## The driver -/

/-- The result code, and the area as the driver leaves it. -/
def myMemmapMap (vma : Vma) : Int32 × Vma :=
  let offset := UInt64.ofNat vma.vmPgoff <<< 12
  let size := UInt64.ofNat vma.vmEnd - UInt64.ofNat vma.vmStart
  if size > mapLen then (-enxio, vma)
  else if vma.vmFlags &&& vmWrite ≠ 0 /\ vma.vmFlags &&& vmShared = 0 then (-einval, vma)
  else
    let vma := { vma with vmFlags := vma.vmFlags ||| vmFaultLocked }
    if offset = 0 then (0, { vma with vmOps := true }) else (-enxio, vma)

/-- `vmalloc_to_page`, as the number of the page inside the area of
`PAGE_CNT` pages; an address outside it has none of these pages, and directly behind
it `vmalloc` leaves a guard page without any. -/
def vmallocToPage (area address : UInt64) : Option Nat :=
  let distance := (address - area).toNat
  if distance < mapLen.toNat then some (distance / 4096) else none

/-- How a fault ends: with a signal, with an oops of the kernel, or with a page in
`vmf->page`.  The second page is the one named in the log. -/
inductive FaultOutcome where
  | sigbus
  | oops
  | resolved (page logged : Option Nat)
deriving DecidableEq, Repr

/-- The outcome of a fault with the pages that it has taken a reference to. -/
structure Fault where
  outcome : FaultOutcome
  references : List Nat
deriving DecidableEq, Repr

/-- `get_page`.  The count is a field of the page, and `NULL` has none. -/
def getPage (references : List Nat) : Option Nat -> Option (List Nat)
  | none => none
  | some page => some (references ++ [page])

/-- The handler, with `s_vmalloc_area` passed in.  The test of `vmf->vma` for
`NULL` comes after its first use and is not separated. -/
def myMemmapVmaOpsFault (area : UInt64) (vma : Vma) (address pgoff : Nat) : Fault :=
  let offset := UInt64.ofNat address - UInt64.ofNat vma.vmStart
  let kernVirtStart := area + (UInt64.ofNat pgoff <<< 12)
  if area = 0 then ⟨.sigbus, []⟩
  else if offset > mapLen then ⟨.sigbus, []⟩
  else
    let page := vmallocToPage area (area + offset)
    match getPage [] page with
    | none => ⟨.oops, []⟩
    | some references => ⟨.resolved page (vmallocToPage area kernVirtStart), references⟩

/-! ## What one fault does -/

/-- The distance of a fault from the start of its area is exact. -/
theorem toNat_distance {vma : Vma} {address : Nat} (inside : vma.Contains address) :
    (UInt64.ofNat address - UInt64.ofNat vma.vmStart).toNat = address - vma.vmStart := by
  have limit := vma.in_user_space
  have above := inside.1
  have below := inside.2
  rw [UInt64.toNat_sub, UInt64.toNat_ofNat_of_lt' (by simp only [UInt64.size]; omega),
    UInt64.toNat_ofNat_of_lt' (by simp only [UInt64.size]; omega)]
  omega

/-- A distance inside the area names the page that many pages in. -/
theorem vmallocToPage_add (area : UInt64) {distance : UInt64} (inside : distance.toNat < mapLen.toNat) :
    vmallocToPage area (area + distance) = some (distance.toNat / 4096) := by
  have cancel : area + distance - area = distance := by
    rw [UInt64.add_comm, UInt64.add_sub_cancel]
  simp only [vmallocToPage, cancel, if_pos inside]

/-- The page named in the log is the page of the offset. -/
theorem logged_page (area : UInt64) {pgoff : Nat} (inside : pgoff < pageCnt) :
    vmallocToPage area (area + (UInt64.ofNat pgoff <<< 12)) = some pgoff := by
  have count : pageCnt = 1000 := rfl
  have length : mapLen.toNat = 4096000 := rfl
  have shifted : (UInt64.ofNat pgoff <<< 12).toNat = pgoff * 4096 := by
    rw [UInt64.toNat_shiftLeft, UInt64.toNat_ofNat_of_lt' (by simp only [UInt64.size]; omega)]
    have twelve : (12 : UInt64).toNat % 64 = 12 := rfl
    rw [twelve, Nat.shiftLeft_eq]
    omega
  rw [vmallocToPage_add area (by omega), shifted, Nat.mul_div_cancel _ (by decide)]

/-- The handler hands out the page at the distance from `vm_start` with one reference to
it, and logs the page at the offset. -/
theorem fault_resolved {area : UInt64} (allocated : area ≠ 0) {vma : Vma} {address : Nat}
    (inside : vma.Contains address) (inArea : vma.pgoff address < pageCnt) :
    myMemmapVmaOpsFault area vma address (vma.pgoff address) =
      ⟨.resolved (some ((address - vma.vmStart) / 4096)) (some (vma.pgoff address)),
        [(address - vma.vmStart) / 4096]⟩ := by
  have distance := toNat_distance inside
  have count : pageCnt = 1000 := rfl
  have length : mapLen.toNat = 4096000 := rfl
  have offset : vma.pgoff address = vma.vmPgoff + (address - vma.vmStart) / 4096 := rfl
  have near : (UInt64.ofNat address - UInt64.ofNat vma.vmStart).toNat < mapLen.toNat := by omega
  have notBeyond : ¬ UInt64.ofNat address - UInt64.ofNat vma.vmStart > mapLen := by
    rw [gt_iff_lt, UInt64.lt_iff_toNat_lt]
    omega
  unfold myMemmapVmaOpsFault
  simp only [if_neg allocated, if_neg notBeyond]
  rw [vmallocToPage_add area near, logged_page area inArea, distance]
  rfl

/-! ## Runs of faults and reshaping operations -/

/-- An operation of the core kernel on one of the areas, or a page fault. -/
inductive Event where
  | split (index pages : Nat)
  | unmap (index : Nat)
  | protect (index : Nat) (flags : UInt64)
  | move (index newStart : Nat)
  | grow (index pages : Nat)
  | fault (index address : Nat)

/-- The areas that stem from one mapping, and for every fault so far the
offset of its page with what the handler did. -/
structure Mapping where
  vmas : List Vma
  faults : List (Nat × Fault)

def Mapping.replace (mapping : Mapping) (index : Nat) (vmas : List Vma) : Mapping :=
  { mapping with vmas := mapping.vmas.eraseIdx index ++ vmas }

def mappingStep (area : UInt64) (mapping : Mapping) : Event -> Option Mapping
  | .split index pages => (mapping.vmas[index]?).bind fun vma =>
      if cuts : vma.CutsAt pages then
        some (mapping.replace index [vma.front pages cuts, vma.back pages cuts])
      else none
  | .unmap index => (mapping.vmas[index]?).map fun _ => mapping.replace index []
  | .protect index flags => (mapping.vmas[index]?).map fun vma =>
      mapping.replace index [{ vma with vmFlags := flags }]
  | .move index newStart => (mapping.vmas[index]?).bind fun vma =>
      if fits : vma.FitsAt newStart then some (mapping.replace index [vma.moved newStart fits])
      else none
  | .grow index pages => (mapping.vmas[index]?).bind fun vma =>
      if grows : vma.GrowsBy pages then some (mapping.replace index [vma.grown pages grows])
      else none
  | .fault index address => (mapping.vmas[index]?).bind fun vma =>
      if vma.Contains address then
        some { mapping with faults := mapping.faults ++
          [(vma.pgoff address, myMemmapVmaOpsFault area vma address (vma.pgoff address))] }
      else none

/-- Every fault whose page offset lies in the area got the page of that
offset, with a reference to it, which is also the page in the log. -/
def ResolvedByOffset (mapping : Mapping) : Prop :=
  forall fault, fault ∈ mapping.faults -> fault.1 < pageCnt ->
    fault.2 = ⟨.resolved (some fault.1) (some fault.1), [fault.1]⟩

/-- A fault happens in an area that still begins with page zero. -/
def FrontKept (mapping : Mapping) : Event -> Prop
  | .fault index address => forall vma, mapping.vmas[index]? = some vma ->
      vma.pgoff address < pageCnt -> vma.vmPgoff = 0
  | .split _ _ | .unmap _ | .protect _ _ | .move _ _ | .grow _ _ => True

/-- A reshaping operation records no fault. -/
theorem mappingStep_faults {area : UInt64} {mapping next : Mapping} {event : Event}
    (taken : mappingStep area mapping event = some next)
    (reshapes : forall index address, event ≠ .fault index address) :
    next.faults = mapping.faults := by
  cases event with
  | fault index address => exact absurd rfl (reshapes index address)
  | unmap index | protect index =>
      simp only [mappingStep, Option.map_eq_some_iff] at taken
      rcases taken with ⟨vma, _found, same⟩
      exact same ▸ rfl
  | split index | move index | grow index =>
      simp only [mappingStep, Option.bind_eq_some_iff, Option.dite_none_right_eq_some,
        Option.some.injEq] at taken
      rcases taken with ⟨vma, _found, _allowed, same⟩
      exact same ▸ rfl

/-- One event keeps every fault resolved by its offset exactly when it is not
a fault in an area whose front has been cut off. -/
theorem mappingStep_resolved_iff {area : UInt64} (allocated : area ≠ 0) (mapping : Mapping)
    (event : Event) (next : Mapping) (resolved : ResolvedByOffset mapping)
    (taken : mappingStep area mapping event = some next) :
    ResolvedByOffset next <-> FrontKept mapping event := by
  cases event with
  | fault index address =>
      simp only [mappingStep, Option.bind_eq_some_iff, Option.ite_none_right_eq_some,
        Option.some.injEq] at taken
      rcases taken with ⟨vma, found, inside, same⟩
      subst next
      constructor
      · intro after other foundOther inArea
        have sameVma : vma = other := Option.some.inj (found.symm.trans foundOther)
        subst other
        have outcome := after (vma.pgoff address, _) (List.mem_append.mpr (Or.inr List.mem_cons_self)) inArea
        simp only [fault_resolved allocated inside inArea, Fault.mk.injEq, FaultOutcome.resolved.injEq,
          Option.some.injEq, and_true] at outcome
        have handedOut := outcome.1
        have offset : vma.pgoff address = vma.vmPgoff + (address - vma.vmStart) / 4096 := rfl
        omega
      · intro kept fault member inArea
        rcases List.mem_append.mp member with earlier | now
        · exact resolved fault earlier inArea
        · have same := List.mem_singleton.mp now
          subst fault
          simp only at inArea ⊢
          have front := kept vma found inArea
          have offset : vma.pgoff address = (address - vma.vmStart) / 4096 := by
            rw [Vma.pgoff, front, Nat.zero_add]
          rw [fault_resolved allocated inside inArea, ← offset]
  | split | unmap | protect | move | grow =>
      have same := mappingStep_faults taken (by intro index address impossible; cases impossible)
      refine ⟨fun _ => trivial, fun _ => ?_⟩
      rw [ResolvedByOffset, same]
      exact resolved

/-- An accepted mapping begins with page zero of the area, is not longer than
the area, and has the driver's fault handler installed. -/
theorem accepted_mapping {vma : Vma} (accepted : (myMemmapMap vma).1 = 0) :
    (myMemmapMap vma).2.vmPgoff = 0 /\ (myMemmapMap vma).2.vmOps = true /\
      (myMemmapMap vma).2.vmEnd - (myMemmapMap vma).2.vmStart ≤ mapLen.toNat := by
  have fits := vma.pgoff_fits
  have nonempty := vma.nonempty
  have limit := vma.in_user_space
  have aligned := vma.start_aligned
  have endAligned := vma.end_aligned
  unfold myMemmapMap at accepted ⊢
  by_cases tooBig : UInt64.ofNat vma.vmEnd - UInt64.ofNat vma.vmStart > mapLen
  · simp only [if_pos tooBig] at accepted
    exact absurd accepted (by decide)
  by_cases private_ : vma.vmFlags &&& vmWrite ≠ 0 /\ vma.vmFlags &&& vmShared = 0
  · simp only [if_neg tooBig, if_pos private_] at accepted
    exact absurd accepted (by decide)
  by_cases zero : UInt64.ofNat vma.vmPgoff <<< 12 = 0
  · simp only [if_neg tooBig, if_neg private_, if_pos zero]
    refine ⟨?_, trivial, ?_⟩
    · -- an offset below `2 ^ 52` pages cannot be shifted out of the word
      have shifted := congrArg UInt64.toNat zero
      have twelve : (12 : UInt64).toNat % 64 = 12 := rfl
      rw [UInt64.toNat_shiftLeft, twelve, Nat.shiftLeft_eq, UInt64.toNat_zero,
        UInt64.toNat_ofNat_of_lt' (by simp only [UInt64.size]; omega)] at shifted
      omega
    · rw [gt_iff_lt, UInt64.lt_iff_toNat_lt, UInt64.toNat_sub,
        UInt64.toNat_ofNat_of_lt' (by simp only [UInt64.size]; omega),
        UInt64.toNat_ofNat_of_lt' (by simp only [UInt64.size]; omega)] at tooBig
      omega
  · simp only [if_neg tooBig, if_neg private_, if_neg zero] at accepted
    exact absurd accepted (by decide)

/-- The state right after the driver has accepted a mapping. -/
def Mapping.fresh (vma : Vma) : Mapping :=
  ⟨[(myMemmapMap vma).2], []⟩

/-- A fresh mapping begins with page zero.  From there on, in every sequence
of reshaping operations and faults, all faults get the page of their offset
exactly when every fault happens in an area that still begins with page zero. -/
theorem faults_by_offset_iff (area : UInt64) (allocated : area ≠ 0) (vma : Vma)
    (accepted : (myMemmapMap vma).1 = 0) (events : List Event) :
    (myMemmapMap vma).2.vmPgoff = 0 /\
      (LabelledRun.AlongRun (mappingStep area) ResolvedByOffset (Mapping.fresh vma) events <->
        LabelledRun.RunMeets (mappingStep area) FrontKept (Mapping.fresh vma) events) := by
  refine ⟨(accepted_mapping accepted).1, ?_⟩
  have begun : ResolvedByOffset (Mapping.fresh vma) := by
    intro fault member
    cases member
  exact LabelledRun.alongRun_iff_runMeets (mappingStep area) ResolvedByOffset FrontKept
    (mappingStep_resolved_iff allocated) events begun

/-- Two readable pages. -/
def twoPages : Vma :=
  ⟨0x7F0000000000, 0x7F0000002000, 0, 0x1, false, by decide, by decide, by decide, by decide,
    by decide⟩

theorem twoPages_cut : (myMemmapMap twoPages).2.CutsAt 1 := by decide

/-- The two pages after a split between them. -/
def splitPages : Mapping :=
  ⟨[(myMemmapMap twoPages).2.front 1 twoPages_cut, (myMemmapMap twoPages).2.back 1 twoPages_cut], []⟩

theorem split_twoPages (area : UInt64) :
    mappingStep area (Mapping.fresh twoPages) (.split 0 1) = some splitPages := by
  simp only [mappingStep, Mapping.fresh, List.getElem?_cons_zero, Option.bind_some,
    dif_pos twoPages_cut]
  rfl

/-- The mapping of two pages is accepted.  When it has been split, and its front
protected against everything but reading, a fault in the front still gets its page. -/
theorem faults_by_offset_twoPages :
    (myMemmapMap twoPages).1 = 0 /\
      LabelledRun.AlongRun (mappingStep 0xFFFFC90000000000) ResolvedByOffset (Mapping.fresh twoPages)
        [.split 0 1, .protect 0 0x1, .fault 1 0x7F0000000000] := by
  refine ⟨by decide, (faults_by_offset_iff _ (by decide) twoPages (by decide) _).2.mpr ?_⟩
  intro next taken
  cases (split_twoPages _).symm.trans taken
  refine ⟨trivial, ?_⟩
  intro protected_ reprotected
  cases reprotected
  refine ⟨trivial, ?_⟩
  intro final faulted
  refine ⟨?_, trivial⟩
  intro vma found _inArea
  cases found
  rfl

/-- After the first of two pages has been split off, a fault in the second one
gets the first page of the area although its offset is one. -/
theorem fault_after_split_wrong :
    ¬ forall (area : UInt64) (vma : Vma), area ≠ 0 -> (myMemmapMap vma).1 = 0 -> forall events,
      LabelledRun.AlongRun (mappingStep area) ResolvedByOffset (Mapping.fresh vma) events := by
  intro always
  have along := always 0xFFFFC90000000000 twoPages (by decide) (by decide)
    [.split 0 1, .fault 1 0x7F0000001000]
  have later := along.2 splitPages (split_twoPages _)
  have inside : ((myMemmapMap twoPages).2.back 1 twoPages_cut).Contains 0x7F0000001000 := by decide
  have final := later.2 { splitPages with faults := [(1, ⟨.resolved (some 0) (some 1), [0]⟩)] } (by
    simp only [mappingStep, splitPages, List.getElem?_cons_succ, List.getElem?_cons_zero,
      Option.bind_some, if_pos inside]
    rfl)
  have wanted := final (1, ⟨.resolved (some 0) (some 1), [0]⟩) List.mem_cons_self (by decide)
  exact absurd wanted (by decide)

end AddressSpace
end KernelStudy
