import KernelStudy.AddressSpace.PageWalk
import KernelStudy.Fileview.Addressing
import KernelStudy.Fileview.Paging
import KernelStudy.PhysicalMemory.DramBrowsing

namespace KernelStudy
namespace AddressSpace
namespace WorkedTranslation

open CellMemory LabelledRun Fileview

/-!
# Following the log of the page walk

The module allocates a page, writes a text to it and prints every level of its
translation.  The notes next to the source then follow that log by hand: each
printed value is looked up in physical memory, with `fileview` on the `dram`
device, at the address computed from the value before it and the printed index,
and the text is found behind the last one.  The first table is left out there,
because the kernel does not let its object be read.

The module writes the text through the page tables that it then walks, and it
does so before the walk.  The page has to be free: no table of its own
translation may lie in it.
-/

/-! ## The module -/

inductive Level where
  | pgd
  | p4d
  | pud
  | pmd
  | pte
deriving DecidableEq, Repr

/-- The lines with the numbers in them, without the constants of the kernel. -/
inductive LogLine where
  | allocFailed
  | allocated (vaddr : UInt64)
  | entry (level : Level) (val index : UInt64)
  | notMappedIn (level : Level)
  | page (pageOffset pageAddr : UInt64)
  | translated (vaddr paddr : UInt64)
deriving DecidableEq, Repr

/-- `pgd_none`: with a folded level the top entry counts as present, and it is tested
as the entry of that level. -/
def pgdNone (_pgd : UInt64) : Bool :=
  false

/-- The lines that `vaddr2paddr` prints.  There is one entry in a table of the
folded level, so its index is zero. -/
def vaddr2paddrLog (memory : UInt64 -> UInt64) (pgdBase vaddr : UInt64) : List LogLine :=
  let pgd := memory (entryAddress pgdBase (pgdIndex vaddr))
  .entry .pgd pgd (pgdIndex vaddr) ::
  if pgdNone pgd then [.notMappedIn .pgd]
  else
    let p4d := pgd
    .entry .p4d p4d 0 ::
    if entryNone p4d then [.notMappedIn .p4d]
    else
      let pud := memory (entryAddress (tableOf p4d) (pudIndex vaddr))
      .entry .pud pud (pudIndex vaddr) ::
      if entryNone pud then [.notMappedIn .pud]
      else
        let pmd := memory (entryAddress (tableOf pud) (pmdIndex vaddr))
        .entry .pmd pmd (pmdIndex vaddr) ::
        if entryNone pmd then [.notMappedIn .pmd]
        else
          let pte := memory (entryAddress (tableOf pmd) (pteIndex vaddr))
          .entry .pte pte (pteIndex vaddr) ::
          if entryNone pte then [.notMappedIn .pte]
          else
            let pageAddr := pte &&& pageMask
            let pageOffset := vaddr &&& ~~~pageMask
            [.page pageOffset pageAddr, .translated vaddr (pageAddr ||| pageOffset)]

/-- The word at a physical address. -/
def wordAt (memory : Nat -> UInt8) (address : UInt64) : UInt64 :=
  UInt64.ofNat (element memory address.toNat 8)

/-- The processor stores one byte, through the tables as they are. -/
def writeByte (memory : Nat -> UInt8) (root vaddr : UInt64) (byte : UInt8) : Option (Nat -> UInt8) :=
  (translate (wordAt memory) root vaddr).map fun paddr => store memory paddr.toNat [byte]

/-- The stores of `sprintf`, in their order. -/
def writeText (memory : Nat -> UInt8) (root vaddr : UInt64) : List UInt8 -> Option (Nat -> UInt8)
  | [] => some memory
  | byte :: bytes => (writeByte memory root vaddr byte).bind fun next => writeText next root (vaddr + 1) bytes

/-- The text without its final zero. -/
def helloText : List UInt8 :=
  "hello physical memory".toList.map Numeral.charByte

/-- Physical memory, the table of the current process, and what the allocator
returns. -/
structure Machine where
  memory : Nat -> UInt8
  pgd : UInt64
  getFreePage : UInt64

structure Loaded where
  log : List LogLine
  memory : Nat -> UInt8

/-- The result `none` is a fault. -/
def v2pInit (machine : Machine) : Option Loaded :=
  if machine.getFreePage = 0 then some ⟨[.allocFailed], machine.memory⟩
  else
    (writeText machine.memory machine.pgd machine.getFreePage (helloText ++ [0])).map fun memory =>
      ⟨.allocated machine.getFreePage ::
        vaddr2paddrLog (wordAt memory) machine.pgd machine.getFreePage, memory⟩

/-! ## The notes -/

/-- The places that are looked up with the bytes that are expected there.  The
table is the one that the value printed last names. -/
def lookups : UInt64 -> List LogLine -> List (UInt64 × List UInt8)
  | _, [] => []
  | table, line :: rest =>
      match line with
      | .entry .pgd val _ | .entry .p4d val _ => lookups (tableOf val) rest
      | .entry .pud val index | .entry .pmd val index | .entry .pte val index =>
          (entryAddress table index, Numeral.bytesOf 8 val.toNat) :: lookups (tableOf val) rest
      | .translated _ paddr => (tableOf paddr, helloText) :: lookups table rest
      | .allocFailed | .allocated _ | .notMappedIn _ | .page _ _ => lookups table rest

/-- The bytes are on a screen in that format: each of them in the line that covers its
address. -/
def OnScreen (format : Int32) (screen : List ScreenLine) (address : Nat) (bytes : List UInt8) : Prop :=
  forall k, k < bytes.length -> Exists fun line => line ∈ screen /\
    lineAddress line ≤ address + k /\ (lineBytes format line)[address + k - lineAddress line]? = bytes[k]?

/-! ## Addresses of one page -/

section Page

theorem toNat_within {vaddr : UInt64} (aligned : 4096 ∣ vaddr.toNat) {k : Nat} (inside : k < 4096) :
    (vaddr + UInt64.ofNat k).toNat = vaddr.toNat + k := by
  have bound := vaddr.toNat_lt
  have small : (UInt64.ofNat k).toNat = k := UInt64.toNat_ofNat_of_lt' (Nat.lt_trans inside (by decide))
  rw [UInt64.toNat_add, small]
  omega

/-- All addresses of a page have the same indices. -/
theorem shift_within {vaddr : UInt64} (aligned : 4096 ∣ vaddr.toNat) {k : Nat} (inside : k < 4096)
    {shift : UInt64} {places : Nat} (counted : shift.toNat % 64 = 12 + places) :
    (vaddr + UInt64.ofNat k) >>> shift = vaddr >>> shift := by
  rw [← UInt64.toNat_inj, UInt64.toNat_shiftRight, UInt64.toNat_shiftRight, toNat_within aligned inside,
    counted, Nat.shiftRight_eq_div_pow, Nat.shiftRight_eq_div_pow, Nat.pow_add, ← Nat.div_div_eq_div_mul,
    ← Nat.div_div_eq_div_mul]
  congr 1
  omega

theorem walkEntries_within (memory : UInt64 -> UInt64) (root : UInt64) {vaddr : UInt64}
    (aligned : 4096 ∣ vaddr.toNat) {k : Nat} (inside : k < 4096) :
    walkEntries memory root (vaddr + UInt64.ofNat k) = walkEntries memory root vaddr := by
  have pgd : pgdIndex (vaddr + UInt64.ofNat k) = pgdIndex vaddr :=
    congrArg (· &&& 511) (shift_within aligned inside (by decide : (39 : UInt64).toNat % 64 = 12 + 27))
  have pud : pudIndex (vaddr + UInt64.ofNat k) = pudIndex vaddr :=
    congrArg (· &&& 511) (shift_within aligned inside (by decide : (30 : UInt64).toNat % 64 = 12 + 18))
  have pmd : pmdIndex (vaddr + UInt64.ofNat k) = pmdIndex vaddr :=
    congrArg (· &&& 511) (shift_within aligned inside (by decide : (21 : UInt64).toNat % 64 = 12 + 9))
  have pte : pteIndex (vaddr + UInt64.ofNat k) = pteIndex vaddr :=
    congrArg (· &&& 511) (shift_within aligned inside (by decide : (12 : UInt64).toNat % 64 = 12 + 0))
  simp only [walkEntries, pgd, pud, pmd, pte]

theorem aligned_tableOf (entry : UInt64) : 4096 ∣ (tableOf entry).toNat := by
  have low : tableOf entry &&& 4095 = 0 := by
    have masks : addressMask &&& 4095 = 0 := by decide
    rw [tableOf, UInt64.and_assoc, masks, UInt64.and_zero]
  have remainder : (tableOf entry).toNat % 4096 = 0 := by
    rw [← Nat.and_two_pow_sub_one_eq_mod _ 12]
    exact congrArg UInt64.toNat low
  exact Nat.dvd_of_mod_eq_zero remainder

/-- The page offset is added to the address of the frame. -/
theorem toNat_frame (entry : UInt64) {vaddr : UInt64} (aligned : 4096 ∣ vaddr.toNat) {k : Nat}
    (inside : k < 4096) :
    ((entry &&& addressMask) ||| ((vaddr + UInt64.ofNat k) &&& 0xFFF)).toNat = (tableOf entry).toNat + k := by
  have offset : ((vaddr + UInt64.ofNat k) &&& 0xFFF).toNat = k := by
    rw [UInt64.toNat_and, toNat_within aligned inside]
    change (vaddr.toNat + k) &&& (2 ^ 12 - 1) = k
    rw [Nat.and_two_pow_sub_one_eq_mod]
    omega
  rcases aligned_tableOf entry with ⟨frame, same⟩
  have table : (entry &&& addressMask).toNat = 2 ^ 12 * frame := same
  rw [UInt64.toNat_or, offset, table, same, ← Nat.two_pow_add_eq_or_of_lt inside]

end Page

/-! ## The tables in memory -/

section Tables

/-- Where the walk finds its four entries. -/
def entryPlaces (memory : UInt64 -> UInt64) (root vaddr : UInt64) : List UInt64 :=
  let entries := walkEntries memory root vaddr
  [entryAddress root (pgdIndex vaddr), entryAddress (tableOf entries.pgd) (pudIndex vaddr),
    entryAddress (tableOf entries.pud) (pmdIndex vaddr), entryAddress (tableOf entries.pmd) (pteIndex vaddr)]

/-- Where the frame of the last entry begins. -/
def frameOf (memory : Nat -> UInt8) (root vaddr : UInt64) : Nat :=
  (tableOf (walkEntries (wordAt memory) root vaddr).pte).toNat

/-- A page of 4 KiB in which none of its own tables lies. -/
structure FreePage (memory : Nat -> UInt8) (root vaddr : UInt64) : Prop where
  aligned : 4096 ∣ vaddr.toNat
  kind : (walkEntries (wordAt memory) root vaddr).kind = .page4K
  apart : forall place, place ∈ entryPlaces (wordAt memory) root vaddr ->
    place.toNat + 8 ≤ frameOf memory root vaddr \/ frameOf memory root vaddr + 4096 ≤ place.toNat

theorem bytesOf_wordAt (memory : Nat -> UInt8) (address : UInt64) :
    Numeral.bytesOf 8 (wordAt memory address).toNat = load memory address.toNat 8 := by
  have small : element memory address.toNat 8 < 2 ^ 64 := element_lt memory address.toNat 8
  rw [wordAt, UInt64.toNat_ofNat_of_lt' small, bytesOf_element]

theorem wordAt_store (memory : Nat -> UInt8) {start : Nat} {bytes : List UInt8} {address : UInt64}
    (apart : address.toNat + 8 ≤ start \/ start + bytes.length ≤ address.toNat) :
    wordAt (store memory start bytes) address = wordAt memory address := by
  rw [wordAt, wordAt, element, element]
  congr 3
  apply load_congr
  intro offset inside
  exact store_outside memory (by omega)

/-- Words that agree at the places of a walk lead to the same entries. -/
theorem walkEntries_congr {first second : UInt64 -> UInt64} {root vaddr : UInt64}
    (agree : forall place, place ∈ entryPlaces first root vaddr -> second place = first place) :
    walkEntries second root vaddr = walkEntries first root vaddr := by
  simp only [entryPlaces, List.forall_mem_cons, walkEntries] at agree
  rcases agree with ⟨pgd, pud, pmd, pte, _⟩
  simp only [walkEntries, pgd, pud, pmd, pte]

variable {memory : Nat -> UInt8} {root vaddr : UInt64}

/-- A store into the page leaves the translation as it is. -/
theorem FreePage.walkEntries_store (free : FreePage memory root vaddr) {k : Nat} {bytes : List UInt8}
    (inside : k + bytes.length ≤ 4096) :
    walkEntries (wordAt (store memory (frameOf memory root vaddr + k) bytes)) root vaddr =
      walkEntries (wordAt memory) root vaddr := by
  apply walkEntries_congr
  intro place member
  apply wordAt_store
  rcases free.apart place member with below | above
  · exact Or.inl (by omega)
  · exact Or.inr (by omega)

theorem FreePage.frameOf_store (free : FreePage memory root vaddr) {k : Nat} {bytes : List UInt8}
    (inside : k + bytes.length ≤ 4096) :
    frameOf (store memory (frameOf memory root vaddr + k) bytes) root vaddr = frameOf memory root vaddr :=
  congrArg (fun entries : WalkEntries => (tableOf entries.pte).toNat) (free.walkEntries_store inside)

theorem FreePage.store (free : FreePage memory root vaddr) {k : Nat} {bytes : List UInt8}
    (inside : k + bytes.length ≤ 4096) :
    FreePage (store memory (frameOf memory root vaddr + k) bytes) root vaddr := by
  have same := free.walkEntries_store inside
  have places : entryPlaces (wordAt (CellMemory.store memory (frameOf memory root vaddr + k) bytes)) root vaddr =
      entryPlaces (wordAt memory) root vaddr := by rw [entryPlaces, same, entryPlaces]
  refine ⟨free.aligned, ?_, ?_⟩
  · rw [same]
    exact free.kind
  · rw [places, free.frameOf_store inside]
    exact free.apart

theorem FreePage.translate_within (free : FreePage memory root vaddr) {k : Nat} (inside : k < 4096) :
    Exists fun paddr => translate (wordAt memory) root (vaddr + UInt64.ofNat k) = some paddr /\
      paddr.toNat = frameOf memory root vaddr + k := by
  refine ⟨_, ?_, toNat_frame (walkEntries (wordAt memory) root vaddr).pte free.aligned inside⟩
  rw [translate_walk, walkEntries_within _ _ free.aligned inside, WalkEntries.frame, free.kind]

/-- A text written into the page arrives in its frame. -/
theorem FreePage.writeText_eq (free : FreePage memory root vaddr) {k : Nat} {bytes : List UInt8}
    (inside : k + bytes.length ≤ 4096) :
    writeText memory root (vaddr + UInt64.ofNat k) bytes =
      some (CellMemory.store memory (frameOf memory root vaddr + k) bytes) := by
  induction bytes generalizing memory k with
  | nil => rw [writeText, store_nil]
  | cons byte bytes inductionHypothesis =>
      rw [List.length_cons] at inside
      rcases free.translate_within (show k < 4096 by omega) with ⟨paddr, translated, place⟩
      have room : k + [byte].length ≤ 4096 := by
        rw [List.length_singleton]
        omega
      have stored := free.store room
      have next : vaddr + UInt64.ofNat k + 1 = vaddr + UInt64.ofNat (k + 1) := by
        rw [UInt64.add_assoc, UInt64.ofNat_add]
        rfl
      rw [writeText, writeByte, translated, Option.map_some, Option.bind_some, place, next,
        inductionHypothesis stored (by omega), free.frameOf_store room, ← Nat.add_assoc, store_cons]

end Tables

/-! ## The log -/

section Log

/-- The lines for an address all of whose entries are there. -/
def mappedLog (entries : WalkEntries) (vaddr : UInt64) : List LogLine :=
  [.entry .pgd entries.pgd (pgdIndex vaddr), .entry .p4d entries.pgd 0,
    .entry .pud entries.pud (pudIndex vaddr), .entry .pmd entries.pmd (pmdIndex vaddr),
    .entry .pte entries.pte (pteIndex vaddr),
    .page (vaddr &&& ~~~pageMask) (entries.pte &&& pageMask),
    .translated vaddr ((entries.pte &&& pageMask) ||| (vaddr &&& ~~~pageMask))]

theorem vaddr2paddrLog_mapped {memory : UInt64 -> UInt64} {root vaddr : UInt64}
    (mapped : ¬ (walkEntries memory root vaddr).HasEmpty) :
    vaddr2paddrLog memory root vaddr = mappedLog (walkEntries memory root vaddr) vaddr := by
  simp only [WalkEntries.HasEmpty, walkEntries, not_or] at mapped
  rcases mapped with ⟨pgd, pud, pmd, pte⟩
  simp only [vaddr2paddrLog, mappedLog, walkEntries, pgdNone, Bool.false_eq_true, if_false, if_neg pgd,
    if_neg pud, if_neg pmd, if_neg pte]

/-- The address behind the flags of the printed one. -/
theorem tableOf_printed (pte vaddr : UInt64) :
    tableOf ((pte &&& pageMask) ||| (vaddr &&& ~~~pageMask)) = tableOf pte := by
  have high : pageMask &&& addressMask = addressMask := by decide
  have low : ~~~pageMask &&& addressMask = 0 := by decide
  rw [tableOf, MachineWord.and_join, high, low, UInt64.and_zero, UInt64.or_zero, tableOf]

variable {memory : Nat -> UInt8} {root vaddr : UInt64}

/-- The lookups of the log are those of the three lower tables and the text. -/
theorem lookups_mappedLog (table : UInt64) (entries : WalkEntries) (vaddr : UInt64) :
    lookups table (.allocated vaddr :: mappedLog entries vaddr) =
      [(entryAddress (tableOf entries.pgd) (pudIndex vaddr), Numeral.bytesOf 8 entries.pud.toNat),
        (entryAddress (tableOf entries.pud) (pmdIndex vaddr), Numeral.bytesOf 8 entries.pmd.toNat),
        (entryAddress (tableOf entries.pmd) (pteIndex vaddr), Numeral.bytesOf 8 entries.pte.toNat),
        (tableOf entries.pte, helloText)] := by
  rw [← tableOf_printed entries.pte vaddr]
  rfl

/-- Loading the module with a free page writes the text to the frame and prints
the entries as they were. -/
theorem v2pInit_free {machine : Machine} (granted : machine.getFreePage ≠ 0)
    (free : FreePage machine.memory machine.pgd machine.getFreePage) :
    v2pInit machine = some
      ⟨.allocated machine.getFreePage :: mappedLog
          (walkEntries (wordAt machine.memory) machine.pgd machine.getFreePage) machine.getFreePage,
        store machine.memory (frameOf machine.memory machine.pgd machine.getFreePage) (helloText ++ [0])⟩ := by
  have short : 0 + (helloText ++ [0]).length ≤ 4096 := by decide
  have written := free.writeText_eq short
  have kept := free.walkEntries_store short
  have begins : machine.getFreePage + UInt64.ofNat 0 = machine.getFreePage := UInt64.add_zero _
  have mapped := WalkEntries.not_hasEmpty_of_page4K free.kind
  rw [begins] at written
  rw [← kept] at mapped
  rw [v2pInit, if_neg granted, written, Option.map_some, vaddr2paddrLog_mapped mapped, kept, Nat.add_zero]

theorem walkEntries_words (memory : UInt64 -> UInt64) (root vaddr : UInt64) :
    (walkEntries memory root vaddr).pud =
        memory (entryAddress (tableOf (walkEntries memory root vaddr).pgd) (pudIndex vaddr)) /\
      (walkEntries memory root vaddr).pmd =
        memory (entryAddress (tableOf (walkEntries memory root vaddr).pud) (pmdIndex vaddr)) /\
      (walkEntries memory root vaddr).pte =
        memory (entryAddress (tableOf (walkEntries memory root vaddr).pmd) (pteIndex vaddr)) :=
  ⟨rfl, rfl, rfl⟩

/-- The bytes that a lookup expects are in memory. -/
def Found (memory : Nat -> UInt8) (lookup : UInt64 × List UInt8) : Prop :=
  load memory lookup.1.toNat lookup.2.length = lookup.2

theorem found_word (memory : Nat -> UInt8) (address : UInt64) :
    Found memory (address, Numeral.bytesOf 8 (wordAt memory address).toNat) := by
  rw [Found, bytesOf_wordAt, length_load]

theorem found_text (memory : Nat -> UInt8) (frame : UInt64) :
    Found (store memory frame.toNat (helloText ++ [0])) (frame, helloText) := by
  have whole := load_store memory frame.toNat (helloText ++ [0])
  rw [List.length_append, ← load_append] at whole
  exact (List.append_inj whole (length_load _ _ _)).1

/-- What is looked up is there. -/
theorem lookups_found (free : FreePage memory root vaddr) {lookup : UInt64 × List UInt8}
    (member : lookup ∈ lookups 0 (.allocated vaddr :: mappedLog (walkEntries (wordAt memory) root vaddr) vaddr)) :
    Found (store memory (frameOf memory root vaddr) (helloText ++ [0])) lookup := by
  have short : 0 + (helloText ++ [0]).length ≤ 4096 := by decide
  have kept := free.walkEntries_store short
  rw [Nat.add_zero] at kept
  have words := walkEntries_words
    (wordAt (store memory (frameOf memory root vaddr) (helloText ++ [0]))) root vaddr
  rw [kept] at words
  rcases words with ⟨pud, pmd, pte⟩
  rw [lookups_mappedLog] at member
  simp only [List.mem_cons, List.not_mem_nil, or_false] at member
  rcases member with first | second | third | text
  · rw [first, pud]
    exact found_word _ _
  · rw [second, pmd]
    exact found_word _ _
  · rw [third, pte]
    exact found_word _ _
  · rw [text]
    exact found_text memory _

end Log

/-! ## The screens -/

section Screens

/-- The bytes of a window are on its screen. -/
theorem onScreen_of_shows {content : Nat -> UInt8} {view : View} {address : Nat} {screen : List ScreenLine}
    (shows : Shows content view screen) {bytes : List UInt8}
    (found : load content address bytes.length = bytes) (begins : view.position.toInt.toNat ≤ address)
    (ends : address + bytes.length ≤ view.position.toInt.toNat + 256) :
    OnScreen view.format screen address bytes := by
  rcases shows with ⟨_length, lines⟩
  intro k inside
  generalize view.position.toInt.toNat = position at lines begins ends
  rcases lines ((address + k - position) / 16) (by omega) with ⟨line, row, label, shown⟩
  refine ⟨line, List.mem_of_getElem? row, by omega, ?_⟩
  have column : address + k - (position + 16 * ((address + k - position) / 16)) < 16 := by omega
  have place : position + 16 * ((address + k - position) / 16) +
      (address + k - (position + 16 * ((address + k - position) / 16))) = address + k := by omega
  have byte := congrArg (fun cells : List UInt8 => cells[k]?) found
  rw [label, shown, getElem?_load content column, place, ← getElem?_load content inside]
  exact byte

/-- After any keys, seeking to an address shows the window that holds it. -/
theorem seek_shows {Device : Type} (file : Browsable Device) {device : Device} (usable : file.Usable device)
    {content : Nat -> UInt8} (short : file.posmax.toInt + 240 < 16 ^ 13)
    (agree : forall position k, k < 256 -> file.shown position k = content (position + k))
    {keys : List Keypress} {first session : Session Device}
    (opened : openSession file.toDescriptor device = some (file.posmax, first))
    (reached : run (pressKey file.toDescriptor file.posmax) first keys = some session)
    (running : session.view.done = false) {address : Nat} {digits : List UInt8}
    (spells : Spells address digits) (small : address < 2 ^ 60) {key : Keypress}
    (seek : key.command = .seek) (typed : key.typed.map keyCode = keystrokes digits) :
    Exists fun next => pressKey file.toDescriptor file.posmax session key = some next /\
      next.view.position.toInt.toNat = min (16 * (address / 16)) file.posmax.toInt.toNat /\
      Exists fun screen => next.screens.getLast? = some screen /\ Shows content next.view screen := by
  rcases file.session_spec usable short agree keys with ⟨same, openedSame, views, _⟩
  rcases file.session_spec usable short agree (keys ++ [key]) with ⟨other, openedOther, laterViews, shows⟩
  cases openedSame.symm.trans opened
  cases openedOther.symm.trans opened
  rw [reached, Option.map_some] at views
  rcases iteration_seek file.posmax_bound running spells small seek typed with ⟨view, moved, position⟩
  have stays : view.done = false := iteration_running (by rw [seek]; decide) moved
  have pressed : run (pressKey file.toDescriptor file.posmax) first (keys ++ [key]) =
      pressKey file.toDescriptor file.posmax session key := by
    rw [run_append, reached, Option.bind_some, run]
    cases pressKey file.toDescriptor file.posmax session key with
    | none => rfl
    | some next => rfl
  have sought : run (iteration file.posmax) View.start.loopTop (keys ++ [key]) = some view := by
    rw [run_append, ← views, Option.bind_some, run, moved, Option.bind_some, run]
  rw [pressed, sought, Option.map_eq_some_iff] at laterViews
  rcases laterViews with ⟨next, taken, atView⟩
  have along := shows next (pressed.trans taken)
  rcases along.current (by rw [atView]; exact stays) with ⟨screen, last, shown⟩
  have nonneg := file.posmax_bound.nonneg
  have place : view.position.toInt.toNat = min (16 * (address / 16)) file.posmax.toInt.toNat := by
    rw [position]
    omega
  exact ⟨next, taken, (congrArg (fun other : View => other.position.toInt.toNat) atView).trans place, screen,
    last, shown⟩

end Screens

/-! ## Following the log -/

/-- The page is free, and its tables and its frame lie on the device. -/
structure Machine.Prepared (machine : Machine) : Prop where
  granted : machine.getFreePage ≠ 0
  free : FreePage machine.memory machine.pgd machine.getFreePage
  tables : forall place, place ∈ entryPlaces (wordAt machine.memory) machine.pgd machine.getFreePage ->
    place.toNat + 8 ≤ PhysicalMemory.dramSize.toNat
  frame : frameOf machine.memory machine.pgd machine.getFreePage + 4096 ≤ PhysicalMemory.dramSize.toNat

theorem Machine.Prepared.onDevice {machine : Machine} (prepared : machine.Prepared)
    {lookup : UInt64 × List UInt8}
    (member : lookup ∈ lookups 0 (.allocated machine.getFreePage :: mappedLog
      (walkEntries (wordAt machine.memory) machine.pgd machine.getFreePage) machine.getFreePage)) :
    lookup.1.toNat + lookup.2.length ≤ PhysicalMemory.dramSize.toNat /\ lookup.2.length ≤ 21 := by
  have width : forall address, (Numeral.bytesOf 8 (wordAt machine.memory address).toNat).length = 8 := by
    intro address
    rw [bytesOf_wordAt, length_load]
  have tables := prepared.tables
  simp only [entryPlaces, List.forall_mem_cons] at tables
  rcases tables with ⟨_pgd, pud, pmd, pte, _⟩
  rcases walkEntries_words (wordAt machine.memory) machine.pgd machine.getFreePage with
    ⟨pudWord, pmdWord, pteWord⟩
  rw [lookups_mappedLog] at member
  simp only [List.mem_cons, List.not_mem_nil, or_false] at member
  rcases member with first | second | third | text
  · rw [first, pudWord, width]
    exact ⟨pud, by decide⟩
  · rw [second, pmdWord, width]
    exact ⟨pmd, by decide⟩
  · rw [third, pteWord, width]
    exact ⟨pte, by decide⟩
  · have room := prepared.frame
    have length : helloText.length = 21 := by decide
    rw [text, length]
    exact ⟨Nat.le_trans (Nat.add_le_add_left (by decide) _) room, Nat.le_refl _⟩

/-- The log can be followed.  The module prints the entries of the translation and
writes its text, and then every lookup succeeds, in any order and from any point of
a session on the device: the enter key and the digits of the computed address show the
printed value, and behind the last one the text. -/
theorem log_followed (machine : Machine) (prepared : machine.Prepared) :
    Exists fun loaded => v2pInit machine = some loaded /\
      loaded.log = .allocated machine.getFreePage :: mappedLog
        (walkEntries (wordAt machine.memory) machine.pgd machine.getFreePage) machine.getFreePage /\
      forall fPos : Int64, 0 ≤ fPos.toInt -> Exists fun first =>
        openSession (PhysicalMemory.dramDescriptor loaded.memory) fPos =
          some (PhysicalMemory.lastWindow, first) /\ first.view = View.start.loopTop /\
        forall keys session,
          run (pressKey (PhysicalMemory.dramDescriptor loaded.memory) PhysicalMemory.lastWindow) first keys =
            some session -> session.view.done = false ->
        forall lookup, lookup ∈ lookups 0 loaded.log -> forall digits, Spells lookup.1.toNat digits ->
        forall key : Keypress, keyCode key.inch = 0x0A -> key.typed.map keyCode = keystrokes digits ->
          Exists fun next =>
            pressKey (PhysicalMemory.dramDescriptor loaded.memory) PhysicalMemory.lastWindow session key =
              some next /\
            Exists fun screen => next.screens.getLast? = some screen /\
              OnScreen next.view.format screen lookup.1.toNat lookup.2 := by
  refine ⟨_, v2pInit_free prepared.granted prepared.free, rfl, ?_⟩
  intro fPos nonneg
  have everyFound := fun lookup (member : lookup ∈ lookups 0 _) => lookups_found prepared.free member
  generalize store machine.memory (frameOf machine.memory machine.pgd machine.getFreePage)
    (helloText ++ [0]) = after at everyFound ⊢
  have bound : (PhysicalMemory.browsableDram after).posmax = PhysicalMemory.lastWindow :=
    PhysicalMemory.posmaxOf_dramFilesize
  have short : (PhysicalMemory.browsableDram after).posmax.toInt + 240 < 16 ^ 13 := by
    rw [bound]
    decide
  rcases (PhysicalMemory.browsableDram after).session_spec nonneg short (fun _ _ _ => rfl) [] with
    ⟨first, opened, views, _⟩
  rw [← bound]
  refine ⟨first, opened, Option.some.inj views, ?_⟩
  intro keys session reached running lookup member digits spells key enter typed
  rcases prepared.onDevice member with ⟨inside, length⟩
  have size : PhysicalMemory.dramSize.toNat = 10190061560 := rfl
  have last : PhysicalMemory.lastWindow.toInt.toNat = 10190061312 := rfl
  rcases seek_shows (PhysicalMemory.browsableDram after) nonneg short (fun _ _ _ => rfl) opened reached
    running spells (by omega) (command_of_enter enter) typed with
    ⟨next, pressed, position, screen, current, shows⟩
  rw [bound, last] at position
  exact ⟨next, pressed, screen, current,
    onScreen_of_shows shows (everyFound lookup member) (by omega) (by omega)⟩

/-- The tables of the module's own log, byte by byte. -/
def loggedMachine : Machine where
  memory := store (store (store (store (fun _ => 0)
    0x11FB20930 [0x67, 0x20, 0x60, 0x06, 0, 0, 0, 0])
    0x66024E8 [0x67, 0x60, 0x60, 0x06, 0, 0, 0, 0])
    0x66067E0 [0x63, 0x20, 0xBB, 0x1F, 0x01, 0, 0, 0])
    0x11FBB2E70 [0x63, 0xE0, 0x9C, 0x1F, 0x01, 0, 0, 0x80]
  pgd := 0x11FB20000
  getFreePage := 0xFFFF93275F9CE000

theorem loggedMachine_entries :
    walkEntries (wordAt loggedMachine.memory) loggedMachine.pgd loggedMachine.getFreePage =
      ⟨0x6602067, 0x6606067, 0x11FBB2063, 0x800000011F9CE063⟩ := by
  have pgd : wordAt loggedMachine.memory 0x11FB20930 = 0x6602067 := by decide +kernel
  have pud : wordAt loggedMachine.memory 0x66024E8 = 0x6606067 := by decide +kernel
  have pmd : wordAt loggedMachine.memory 0x66067E0 = 0x11FBB2063 := by decide +kernel
  have pte : wordAt loggedMachine.memory 0x11FBB2E70 = 0x800000011F9CE063 := by decide +kernel
  have first : entryAddress loggedMachine.pgd (pgdIndex loggedMachine.getFreePage) = 0x11FB20930 := by decide
  have second : entryAddress (tableOf 0x6602067) (pudIndex loggedMachine.getFreePage) = 0x66024E8 := by decide
  have third : entryAddress (tableOf 0x6606067) (pmdIndex loggedMachine.getFreePage) = 0x66067E0 := by decide
  have fourth : entryAddress (tableOf 0x11FBB2063) (pteIndex loggedMachine.getFreePage) = 0x11FBB2E70 := by
    decide
  simp only [walkEntries, first, pgd, second, pud, third, pmd, fourth, pte]

theorem loggedMachine_places :
    entryPlaces (wordAt loggedMachine.memory) loggedMachine.pgd loggedMachine.getFreePage =
      [0x11FB20930, 0x66024E8, 0x66067E0, 0x11FBB2E70] := by
  rw [entryPlaces, loggedMachine_entries]
  decide

theorem loggedMachine_frame :
    frameOf loggedMachine.memory loggedMachine.pgd loggedMachine.getFreePage = 0x11F9CE000 := by
  rw [frameOf, loggedMachine_entries]
  decide

theorem loggedMachine_prepared : loggedMachine.Prepared := by
  have size : PhysicalMemory.dramSize.toNat = 10190061560 := rfl
  refine ⟨by decide, ⟨by decide, ?_, ?_⟩, ?_, ?_⟩
  · rw [loggedMachine_entries]
    decide
  · rw [loggedMachine_places, loggedMachine_frame]
    simp
  · rw [loggedMachine_places, size]
    simp
  · rw [loggedMachine_frame, size]
    decide

theorem loggedMachine_lookups :
    lookups 0 (.allocated loggedMachine.getFreePage :: mappedLog
        (walkEntries (wordAt loggedMachine.memory) loggedMachine.pgd loggedMachine.getFreePage)
        loggedMachine.getFreePage) =
      [(0x66024E8, [0x67, 0x60, 0x60, 0x06, 0, 0, 0, 0]), (0x66067E0, [0x63, 0x20, 0xBB, 0x1F, 0x01, 0, 0, 0]),
        (0x11FBB2E70, [0x63, 0xE0, 0x9C, 0x1F, 0x01, 0, 0, 0x80]), (0x11F9CE000, helloText)] := by
  rw [lookups_mappedLog, loggedMachine_entries]
  decide

/-- The log of the notes.  Typing `66024E8` shows the value that was printed for the
second table, and typing `11F9CE000` the text. -/
theorem log_followed_notes : loggedMachine.Prepared /\
    Exists fun loaded => v2pInit loggedMachine = some loaded /\
      Exists fun first => openSession (PhysicalMemory.dramDescriptor loaded.memory) 0 =
          some (PhysicalMemory.lastWindow, first) /\
        (Exists fun next => pressKey (PhysicalMemory.dramDescriptor loaded.memory) PhysicalMemory.lastWindow
            first ⟨0x0A, [0x36, 0x36, 0x30, 0x32, 0x34, 0x45, 0x38, 0x0A]⟩ = some next /\
          Exists fun screen => next.screens.getLast? = some screen /\
            OnScreen next.view.format screen 0x66024E8 [0x67, 0x60, 0x60, 0x06, 0, 0, 0, 0]) /\
        Exists fun next => pressKey (PhysicalMemory.dramDescriptor loaded.memory) PhysicalMemory.lastWindow
            first ⟨0x0A, [0x31, 0x31, 0x46, 0x39, 0x43, 0x45, 0x30, 0x30, 0x30, 0x0A]⟩ = some next /\
          Exists fun screen => next.screens.getLast? = some screen /\
            OnScreen next.view.format screen 0x11F9CE000 helloText := by
  rcases log_followed loggedMachine loggedMachine_prepared with ⟨loaded, returned, log, sessions⟩
  rcases sessions 0 (by decide) with ⟨first, opened, begins, shows⟩
  have running : first.view.done = false := by rw [begins]; rfl
  refine ⟨loggedMachine_prepared, loaded, returned, first, opened, ?_, ?_⟩
  · exact shows [] first rfl running (0x66024E8, [0x67, 0x60, 0x60, 0x06, 0, 0, 0, 0])
      (by rw [log, loggedMachine_lookups]; exact List.mem_cons_self)
      [0x36, 0x36, 0x30, 0x32, 0x34, 0x45, 0x38] ⟨by decide, by decide +kernel, by decide +kernel⟩ _
      (by decide) (by decide)
  · exact shows [] first rfl running (0x11F9CE000, helloText)
      (by rw [log, loggedMachine_lookups]; simp)
      [0x31, 0x31, 0x46, 0x39, 0x43, 0x45, 0x30, 0x30, 0x30] ⟨by decide, by decide +kernel, by decide +kernel⟩ _
      (by decide) (by decide)

end WorkedTranslation
end AddressSpace
end KernelStudy
