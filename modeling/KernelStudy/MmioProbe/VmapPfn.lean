import KernelStudy.Foundations.MachineWord
import KernelStudy.Foundations.CellMemory
import KernelStudy.Foundations.BoundedLoop

namespace KernelStudy
namespace MmioProbe

open CellMemory

/-!
# Mapping a physical range

`qgpu_vmap_pfn` collects the page frames of a physical range and maps them one
after the other.  The range is given by an address and a size.  The first page
is the one that contains the address, the number of pages is computed from the
size alone, and the loop counts them in an `unsigned int`.  The address that
`vmap` returns is passed on as it is.

The allocator and `vmap` belong to the kernel.  What the code relies on is
stated about them separately: `vmap` returns a page-aligned address and maps
the pages of the array from there on.
-/

def pageShift : UInt64 := 12

def pageSize : UInt64 := 4096

/-- `offset_in_page`. -/
def offsetInPage (address : UInt64) : UInt64 :=
  address &&& 4095

/-- A virtual area: its address, and the page frame behind each virtual page. -/
structure Area where
  vaddr : UInt64
  pageTable : Nat -> Option UInt64

/-- The kernel calls: whether an array of so many pointers can be allocated,
what it then holds, and the area for an array of page frames. -/
structure Kernel where
  kmallocArray : UInt64 -> Bool
  garbage : Nat -> UInt64
  vmap : List UInt64 -> Option Area

/-! ## The function -/

/-- The loop variable and the array. -/
structure PagesState where
  i : UInt32
  pages : Nat -> UInt64

/-- The number of pages, in `unsigned long`. -/
def pageCount (size : UInt64) : UInt64 :=
  (size + pageSize - 1) / pageSize

def physAddrStart (physAddr : UInt64) : UInt64 :=
  physAddr - offsetInPage physAddr

def pagesGuard (nPage : UInt64) (state : PagesState) : Bool :=
  state.i.toUInt64 < nPage

/-- `pages[i] = pfn_to_page(addr >> PAGE_SHIFT)`; the page is named by its
frame number. -/
def pagesBody (start : UInt64) (state : PagesState) : PagesState :=
  let addr := start + state.i.toUInt64 * pageSize
  ⟨state.i + 1, store state.pages state.i.toNat [addr >>> pageShift]⟩

/-- The outer result `none` says that the loop has not ended within the
budget, the inner one is a `NULL` pointer. -/
def qgpuVmapPfn (kernel : Kernel) (fuel : Nat) (physAddr size : UInt64) : Option (Option Area) :=
  let nPage := pageCount size
  if kernel.kmallocArray nPage = false then some none
  else
    (BoundedLoop.loop (pagesGuard nPage) (pagesBody (physAddrStart physAddr)) fuel
      ⟨0, kernel.garbage⟩).map fun state => kernel.vmap (load state.pages 0 nPage.toNat)

/-! ## What is mapped -/

/-- The physical address behind a virtual one. -/
def Area.translate (area : Area) (vaddr : Nat) : Option Nat :=
  (area.pageTable (vaddr / 4096)).map fun frame => frame.toNat * 4096 + vaddr % 4096

/-- Every address of the range lies in one of the mapped pages and leads to
its own physical address. -/
def MapsRange (area : Area) (physAddr size : UInt64) : Prop :=
  forall k, k < size.toNat ->
    (area.vaddr.toNat + k) / 4096 < area.vaddr.toNat / 4096 + (pageCount size).toNat /\
      area.translate (area.vaddr.toNat + k) = some (physAddr.toNat + k)

/-- The function returns, and an area that it returns maps the range. -/
def MapsRequested (kernel : Kernel) (physAddr size : UInt64) : Prop :=
  Exists fun fuel => Exists fun result => qgpuVmapPfn kernel fuel physAddr size = some result /\
    forall area, result = some area -> MapsRange area physAddr size

/-- What is relied on.  No array of more than `limit` pointers is allocated,
for whatever limit the allocator has. -/
structure Kernel.Lawful (kernel : Kernel) (limit : Nat) : Prop where
  allocates : forall count, limit < count.toNat -> kernel.kmallocArray count = false
  aligned : forall pages area, kernel.vmap pages = some area -> 4096 ∣ area.vaddr.toNat
  mapped : forall pages area, kernel.vmap pages = some area -> forall j, j < pages.length ->
    area.pageTable (area.vaddr.toNat / 4096 + j) = pages[j]?

/-! ## Values of the expressions -/

theorem toNat_pageCount {size : UInt64} (bound : size.toNat ≤ 2 ^ 63) :
    (pageCount size).toNat = (size.toNat + 4095) / 4096 := by
  have unit : pageSize.toNat = 4096 := rfl
  have one : (1 : UInt64).toNat = 1 := rfl
  have sum : (size + pageSize).toNat = size.toNat + 4096 := by
    rw [UInt64.toNat_add, unit]
    omega
  have difference : (size + pageSize - 1).toNat = size.toNat + 4095 := by
    rw [UInt64.toNat_sub, sum, one]
    omega
  rw [pageCount, UInt64.toNat_div, difference, unit]

theorem toNat_physAddrStart (physAddr : UInt64) :
    (physAddrStart physAddr).toNat = 4096 * (physAddr.toNat / 4096) := by
  have offset : (offsetInPage physAddr).toNat = physAddr.toNat % 4096 := by
    rw [offsetInPage, UInt64.toNat_and]
    exact Nat.and_two_pow_sub_one_eq_mod physAddr.toNat 12
  have bound := physAddr.toNat_lt
  rw [physAddrStart, UInt64.toNat_sub, offset]
  omega

/-- The frame number that the loop stores for page `index`. -/
theorem toNat_frame {start : UInt64} {index : UInt32}
    (bound : start.toNat + index.toNat * 4096 < 2 ^ 64) :
    ((start + index.toUInt64 * pageSize) >>> pageShift).toNat =
      (start.toNat + index.toNat * 4096) / 4096 := by
  have unit : pageSize.toNat = 4096 := rfl
  have product : (index.toUInt64 * pageSize).toNat = index.toNat * 4096 := by
    rw [UInt64.toNat_mul, UInt32.toNat_toUInt64, unit]
    omega
  have sum : (start + index.toUInt64 * pageSize).toNat = start.toNat + index.toNat * 4096 := by
    rw [UInt64.toNat_add, product]
    omega
  have places : pageShift.toNat % 64 = 12 := rfl
  rw [UInt64.toNat_shiftRight, sum, places, Nat.shiftRight_eq_div_pow]

/-! ## The loop -/

section Loop

variable {start nPage : UInt64}

/-- The frames collected so far. -/
structure Collected (start nPage : UInt64) (state : PagesState) : Prop where
  bounded : state.i.toNat ≤ nPage.toNat
  frames : forall j, j < state.i.toNat -> (state.pages j).toNat = start.toNat / 4096 + j

theorem Collected.body (short : nPage.toNat < 2 ^ 32) (room : start.toNat + nPage.toNat * 4096 < 2 ^ 64)
    {state : PagesState} (collected : Collected start nPage state)
    (unfinished : pagesGuard nPage state = true) :
    (pagesBody start state).i.toNat = state.i.toNat + 1 /\
      Collected start nPage (pagesBody start state) := by
  have below : state.i.toNat < nPage.toNat := by
    have word := UInt64.lt_iff_toNat_lt.mp (of_decide_eq_true unfinished)
    rwa [UInt32.toNat_toUInt64] at word
  have next : (pagesBody start state).i.toNat = state.i.toNat + 1 := by
    have one : (1 : UInt32).toNat = 1 := rfl
    rw [pagesBody, UInt32.toNat_add, one]
    omega
  have frame : ((start + state.i.toUInt64 * pageSize) >>> pageShift).toNat =
      (start.toNat + state.i.toNat * 4096) / 4096 := by
    have earlier := Nat.mul_le_mul_right 4096 (Nat.le_of_lt below)
    exact toNat_frame (Nat.lt_of_le_of_lt (Nat.add_le_add_left earlier _) room)
  refine ⟨next, by omega, ?_⟩
  intro j inside
  rw [next] at inside
  by_cases last : j = state.i.toNat
  · have stored : (pagesBody start state).pages j =
        (start + state.i.toUInt64 * pageSize) >>> pageShift := by
      rw [last]
      simp [pagesBody, store]
    rw [stored, frame]
    omega
  · have kept : (pagesBody start state).pages j = state.pages j := store_below _ _ (by omega)
    rw [kept]
    exact collected.frames j (by omega)

/-- A number of pages below `2 ^ 32` is collected completely. -/
theorem pagesLoop_collects (short : nPage.toNat < 2 ^ 32)
    (room : start.toNat + nPage.toNat * 4096 < 2 ^ 64) (garbage : Nat -> UInt64) :
    Exists fun final =>
      BoundedLoop.loop (pagesGuard nPage) (pagesBody start) nPage.toNat ⟨0, garbage⟩ = some final /\
      forall j, j < nPage.toNat -> (final.pages j).toNat = start.toNat / 4096 + j := by
  have initial : Collected start nPage ⟨0, garbage⟩ :=
    ⟨Nat.zero_le _, fun j inside => absurd inside (Nat.not_lt_zero j)⟩
  rcases BoundedLoop.loop_total (pagesGuard nPage) (pagesBody start) (Collected start nPage)
    (fun state => nPage.toNat - state.i.toNat)
    (fun state collected unfinished => (collected.body short room unfinished).2)
    (fun state collected unfinished => by
      rcases collected.body short room unfinished with ⟨next, after⟩
      have bounded := after.bounded
      omega)
    initial (Nat.le_refl _) with ⟨final, returned, collected, finished⟩
  have reached : nPage.toNat ≤ final.i.toNat := by
    have notBelow := mt UInt64.lt_iff_toNat_lt.mpr (of_decide_eq_false finished)
    rw [UInt32.toNat_toUInt64] at notBelow
    omega
  exact ⟨final, returned, fun j inside => collected.frames j (by omega)⟩

/-- From `2 ^ 32` pages on, the counter wraps before it reaches the number. -/
theorem pagesLoop_diverges (long : 2 ^ 32 ≤ nPage.toNat) (fuel : Nat) (state : PagesState) :
    BoundedLoop.loop (pagesGuard nPage) (pagesBody start) fuel state = none := by
  apply BoundedLoop.loop_diverges (pagesGuard nPage) (pagesBody start) (fun _ => True)
    (fun _ _ => trivial) ?_ fuel trivial
  intro state _
  have small := state.i.toNat_lt
  apply decide_eq_true
  rw [UInt64.lt_iff_toNat_lt, UInt32.toNat_toUInt64]
  omega

end Loop

/-! ## The mapped range -/

section Range

variable {kernel : Kernel} {physAddr size : UInt64}

theorem mapsRequested_of_refused (refused : kernel.kmallocArray (pageCount size) = false) :
    MapsRequested kernel physAddr size := by
  refine ⟨0, none, if_pos refused, fun area returned => ?_⟩
  cases returned

/-- The array that is handed to `vmap`. -/
theorem qgpuVmapPfn_pages (granted : kernel.kmallocArray (pageCount size) = true)
    (inside : physAddr.toNat + size.toNat ≤ 2 ^ 63) (short : (pageCount size).toNat < 2 ^ 32) :
    Exists fun pages : List UInt64 => pages.length = (pageCount size).toNat /\
      (forall j, j < (pageCount size).toNat -> Exists fun frame : UInt64 =>
        pages[j]? = some frame /\ frame.toNat = physAddr.toNat / 4096 + j) /\
      qgpuVmapPfn kernel (pageCount size).toNat physAddr size = some (kernel.vmap pages) /\
      forall fuel result, qgpuVmapPfn kernel fuel physAddr size = some result ->
        result = kernel.vmap pages := by
  have count := toNat_pageCount (show size.toNat ≤ 2 ^ 63 by omega)
  have start := toNat_physAddrStart physAddr
  have notRefused := ne_false_of_eq_true granted
  have room : (physAddrStart physAddr).toNat + (pageCount size).toNat * 4096 < 2 ^ 64 := by omega
  rcases pagesLoop_collects short room kernel.garbage with ⟨final, returned, frames⟩
  refine ⟨load final.pages 0 (pageCount size).toNat, length_load _ _ _, ?_, ?_, ?_⟩
  · intro j bound
    refine ⟨final.pages (0 + j), getElem?_load final.pages bound, ?_⟩
    rw [Nat.zero_add, frames j bound, start]
    omega
  · simp only [qgpuVmapPfn, if_neg notRefused, returned, Option.map_some]
  · intro fuel result other
    simp only [qgpuVmapPfn, if_neg notRefused, Option.map_eq_some_iff] at other
    rcases other with ⟨state, ended, same⟩
    rw [← same, BoundedLoop.loop_unique _ _ ended returned]

/-- An aligned range is mapped. -/
theorem mapsRequested_of_aligned {limit : Nat} (lawful : kernel.Lawful limit)
    (inside : physAddr.toNat + size.toNat ≤ 2 ^ 63) (aligned : 4096 ∣ physAddr.toNat)
    (short : (pageCount size).toNat < 2 ^ 32) : MapsRequested kernel physAddr size := by
  cases granted : kernel.kmallocArray (pageCount size) with
  | false => exact mapsRequested_of_refused granted
  | true =>
      have count := toNat_pageCount (show size.toNat ≤ 2 ^ 63 by omega)
      rcases qgpuVmapPfn_pages granted inside short with ⟨pages, length, frames, returned, _unique⟩
      refine ⟨_, _, returned, fun area mapped k bound => ?_⟩
      have base := lawful.aligned pages area mapped
      have page : (area.vaddr.toNat + k) / 4096 = area.vaddr.toNat / 4096 + k / 4096 := by omega
      rcases frames (k / 4096) (by omega) with ⟨frame, listed, value⟩
      refine ⟨by omega, ?_⟩
      rw [Area.translate, page, lawful.mapped pages area mapped _ (by omega), listed, Option.map_some,
        value]
      congr 1
      omega

end Range

/-! ## A kernel that maps every array -/

def vmallocStart : UInt64 := 0xFFFFC90000000000

theorem vmallocStart_aligned : vmallocStart.toNat % 4096 = 0 := by decide

/-- Arrays are mapped from a fixed address on. -/
def fixedArea (pages : List UInt64) : Area :=
  { vaddr := vmallocStart
    pageTable := fun page =>
      if vmallocStart.toNat / 4096 ≤ page then pages[page - vmallocStart.toNat / 4096]? else none }

def fixedKernel (limit : Nat) : Kernel :=
  ⟨fun count => decide (count.toNat ≤ limit), fun _ => 0, fun pages => some (fixedArea pages)⟩

theorem fixedKernel_lawful (limit : Nat) : (fixedKernel limit).Lawful limit := by
  refine ⟨?_, ?_, ?_⟩
  · intro count large
    exact decide_eq_false (Nat.not_le_of_lt large)
  · intro pages area mapped
    cases mapped
    exact Nat.dvd_of_mod_eq_zero vmallocStart_aligned
  · intro pages area mapped j _inside
    cases mapped
    simp only [fixedArea, Nat.le_add_right, if_true, Nat.add_sub_cancel_left]

/-- That kernel shows both ways in which the range is missed. -/
theorem aligned_of_mapsRequested {limit : Nat} {physAddr size : UInt64} (positive : 1 ≤ size.toNat)
    (inside : physAddr.toNat + size.toNat ≤ 2 ^ 63) (within : (pageCount size).toNat ≤ limit)
    (requested : MapsRequested (fixedKernel limit) physAddr size) :
    4096 ∣ physAddr.toNat /\ (pageCount size).toNat < 2 ^ 32 := by
  have granted : (fixedKernel limit).kmallocArray (pageCount size) = true := decide_eq_true within
  have notRefused := ne_false_of_eq_true granted
  rcases requested with ⟨fuel, result, returned, maps⟩
  have short : (pageCount size).toNat < 2 ^ 32 := by
    by_contra long
    have diverges : BoundedLoop.loop (pagesGuard (pageCount size)) (pagesBody (physAddrStart physAddr))
        fuel ⟨0, (fixedKernel limit).garbage⟩ = none := pagesLoop_diverges (Nat.le_of_not_lt long) fuel _
    simp only [qgpuVmapPfn, if_neg notRefused, diverges, Option.map_none, reduceCtorEq] at returned
  refine ⟨?_, short⟩
  have count := toNat_pageCount (show size.toNat ≤ 2 ^ 63 by omega)
  rcases qgpuVmapPfn_pages granted inside short with ⟨pages, length, frames, _returned, unique⟩
  have first := (maps (fixedArea pages) (unique fuel result returned) 0 (by omega)).2
  rcases frames 0 (by omega) with ⟨frame, listed, value⟩
  have page : (fixedArea pages).pageTable ((fixedArea pages).vaddr.toNat / 4096 + 0) = pages[0]? :=
    (fixedKernel_lawful limit).mapped pages _ rfl 0 (by omega)
  have offset : (fixedArea pages).vaddr.toNat % 4096 = 0 := vmallocStart_aligned
  rw [Area.translate, Nat.add_zero, offset] at first
  rw [Nat.add_zero] at page
  rw [page, listed, Option.map_some, value] at first
  have same := Option.some.inj first
  omega

/-- The requested range is mapped, whatever the kernel does within its
contract, exactly when the address is page-aligned and the pages can be
counted in an `unsigned int`, or when the array is never allocated. -/
theorem range_mapped_iff (limit : Nat) (physAddr size : UInt64) (positive : 1 ≤ size.toNat)
    (inside : physAddr.toNat + size.toNat ≤ 2 ^ 63) :
    (forall kernel : Kernel, kernel.Lawful limit -> MapsRequested kernel physAddr size) <->
      limit < (size.toNat + 4095) / 4096 \/
        (4096 ∣ physAddr.toNat /\ (size.toNat + 4095) / 4096 < 2 ^ 32) := by
  have count := toNat_pageCount (show size.toNat ≤ 2 ^ 63 by omega)
  rw [← count]
  constructor
  · intro every
    rcases Nat.lt_or_ge limit (pageCount size).toNat with refused | within
    · exact Or.inl refused
    · exact Or.inr (aligned_of_mapsRequested positive inside within
        (every (fixedKernel limit) (fixedKernel_lawful limit)))
  · rintro (refused | ⟨aligned, short⟩) kernel lawful
    · exact mapsRequested_of_refused (lawful.allocates _ refused)
    · exact mapsRequested_of_aligned lawful inside aligned short

/-- The register range of the device that the module probes. -/
theorem range_mapped_bar :
    1 ≤ (0x1000000 : UInt64).toNat /\ MapsRequested (fixedKernel 524288) 0xFC000000 0x1000000 :=
  ⟨by decide, (range_mapped_iff 524288 0xFC000000 0x1000000 (by decide) (by decide)).mpr
    (Or.inr (by decide)) (fixedKernel 524288) (fixedKernel_lawful 524288)⟩

/-- Four bytes in the middle of a page: the returned address leads to the
beginning of the page instead. -/
theorem offset_not_mapped :
    (fixedKernel 524288).Lawful 524288 /\ ¬ MapsRequested (fixedKernel 524288) 0xFC000080 4 := by
  refine ⟨fixedKernel_lawful 524288, fun requested => ?_⟩
  have aligned := (aligned_of_mapsRequested (by decide) (by decide) (by decide) requested).1
  revert aligned
  decide

end MmioProbe
end KernelStudy
