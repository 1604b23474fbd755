import KernelStudy.Foundations.MachineWord
import KernelStudy.Foundations.BoundedLoop
import KernelStudy.Fileview.SeekPrompt

namespace KernelStudy
namespace Pcimem

/-!
# The `pcimem` command

`pcimem` maps a part of a device resource and reads a number of items from
it; with a data argument it also writes the last item and reads it back.  The
numbers on the command line are unchecked.  The offset becomes an `off_t`, the
count an `int`, and the length of the mapping, the addresses of the items and
the bound of the loop are computed from them by separate expressions.

The model keeps the type of every subexpression.  A pointer that has not been
assigned is `none`.  The page size is 4096 bytes.
-/

/-! ## Numbers on the command line -/

/-- The value of a digit in a base up to sixteen. -/
def digitValue (base : Nat) (ch : UInt8) : Option Nat :=
  (Fileview.hexValue ch).filter (fun digit => digit < base)

/-- The base that base 0 stands for: a `0x` before a hexadecimal digit means
sixteen and is skipped, another leading zero means eight. -/
def splitBase : List UInt8 -> Nat × List UInt8
  | [] => (10, [])
  | zero :: rest =>
      if zero = 0x30 then
        match rest with
        | mark :: digit :: digits =>
            if (mark = 0x78 \/ mark = 0x58) /\ (Fileview.hexValue digit).isSome then
              (16, digit :: digits)
            else (8, zero :: rest)
        | _ => (8, zero :: rest)
      else (10, zero :: rest)

/-- The value of the longest initial run of digits. -/
def leadingDigits (base : Nat) : Nat -> List UInt8 -> Nat
  | value, [] => value
  | value, ch :: rest =>
      match digitValue base ch with
      | some digit => leadingDigits base (base * value + digit) rest
      | none => value

/-- `strtoul(text, 0, 0)`, which is also `strtoull` here; a value out of range
becomes `ULONG_MAX`. -/
def strtoul (text : List UInt8) : UInt64 :=
  let signed := Fileview.splitSign (text.dropWhile Fileview.isSpace)
  let based := splitBase signed.2
  let value := leadingDigits based.1 0 based.2
  if 2 ^ 64 ≤ value then 0xFFFFFFFFFFFFFFFF
  else if signed.1 then 0 - UInt64.ofNat value
  else UInt64.ofNat value

def tolower (ch : UInt8) : UInt8 :=
  if 0x41 ≤ ch /\ ch ≤ 0x5A then ch + 0x20 else ch

/-! ## The command line -/

inductive AccessType where
  | b | h | w | d
deriving DecidableEq, Repr

def AccessType.ofChar (ch : UInt8) : Option AccessType :=
  if ch = 0x62 then some .b
  else if ch = 0x68 then some .h
  else if ch = 0x77 then some .w
  else if ch = 0x64 then some .d
  else none

def AccessType.typeWidth : AccessType -> Int32
  | .b => 1
  | .h => 2
  | .w => 4
  | .d => 8

/-- What a read of this width keeps of eight bytes. -/
def AccessType.truncate : AccessType -> UInt64 -> UInt64
  | .b, value => value &&& 0xFF
  | .h, value => value &&& 0xFFFF
  | .w, value => value &&& 0xFFFFFFFF
  | .d, value => value

structure Command where
  target : Int64
  accessType : AccessType
  itemsCount : Int32
  writeval : Option UInt64
deriving DecidableEq, Repr

/-- The third argument, `type*count`.  Of an empty argument the second
character is not looked at here: such a type is refused. -/
def parseType : List UInt8 -> UInt8 × Int32
  | [] => (0, 1)
  | ch :: rest =>
      match rest with
      | star :: count =>
          (tolower ch, if star = 0x2A then (strtoul count).toUInt32.toInt32 else 1)
      | [] => (tolower ch, 1)

/-- The command, or the status with which argument checking exits. -/
def parse (argv : List (List UInt8)) : Except Int32 Command :=
  match argv with
  | _ :: _filename :: target :: rest =>
      let typed := match rest with
        | [] => (0x77, 1)
        | text :: _ => parseType text
      match AccessType.ofChar typed.1 with
      | none => .error 2
      | some accessType =>
          .ok ⟨(strtoul target).toInt64, accessType, typed.2, rest[1]?.map strtoul⟩
  | _ => .error 1

/-! ## The mapping and the item loop -/

/-- `target & ~(sysconf(_SC_PAGE_SIZE)-1)`. -/
def Command.targetBase (command : Command) : Int64 :=
  command.target &&& ~~~(4096 - 1)

/-- `target + items_count*type_width - target_base`: the product is an `int`,
the sum an `off_t`. -/
def Command.mapEnd (command : Command) : Int64 :=
  command.target + (command.itemsCount * command.accessType.typeWidth).toInt64 - command.targetBase

/-- The `int` variable `map_size`. -/
def Command.mapSize (command : Command) : Int32 :=
  let mapSize : Int32 := 4096
  if command.mapEnd > mapSize.toInt64 then command.mapEnd.toInt32 else mapSize

/-- `map_base + target + i*type_width - target_base`. -/
def Command.itemAddress (command : Command) (mapBase : UInt64) (i : Int32) : UInt64 :=
  mapBase + command.target.toUInt64 + (i * command.accessType.typeWidth).toInt64.toUInt64 -
    command.targetBase.toUInt64

inductive AccessKind where
  | load
  | store
  | readback
deriving DecidableEq, Repr

/-- One access of `type_width` bytes through `virt_addr`. -/
structure Access where
  kind : AccessKind
  virtAddr : Option UInt64
deriving DecidableEq, Repr

/-- A line of the dump, or the line about the written value. -/
inductive Line where
  | item (address : Int32) (value : UInt64)
  | dots
  | written (value readback : UInt64)
deriving DecidableEq, Repr

/-- What the program gets from outside: whether the resource can be opened,
the result of `mmap` for a length and an offset, the bytes that each access
finds in the device, and whether the area can be unmapped. -/
structure Environment where
  opened : Bool
  mmap : Int32 -> Int64 -> Option UInt64
  device : Nat -> UInt64
  munmap : Bool

structure LoopState where
  i : Int32
  virtAddr : Option UInt64
  prevReadResult : UInt64
  readResultDupped : Bool
  accesses : List Access
  output : List Line

def LoopState.initial : LoopState := ⟨0, none, 0, false, [], []⟩

def itemGuard (command : Command) (state : LoopState) : Bool :=
  state.i < command.itemsCount

def itemBody (env : Environment) (command : Command) (mapBase : UInt64) (state : LoopState) :
    LoopState :=
  let virtAddr := some (command.itemAddress mapBase state.i)
  let readResult := command.accessType.truncate (env.device state.accesses.length)
  let fresh := readResult ≠ state.prevReadResult \/ state.i = 0
  { i := state.i + 1
    virtAddr := virtAddr
    prevReadResult := readResult
    readResultDupped := if fresh then false else true
    accesses := state.accesses ++ [⟨.load, virtAddr⟩]
    output :=
      if fresh then
        let offset := (state.i * command.accessType.typeWidth).toInt64
        state.output ++ [.item (command.target + offset).toInt32 readResult]
      else if state.readResultDupped then state.output
      else state.output ++ [.dots] }

/-- The store and the read-back of a data argument. -/
def writeData (env : Environment) (command : Command) (state : LoopState) : LoopState :=
  match command.writeval with
  | none => state
  | some writeval =>
      let readResult := command.accessType.truncate (env.device (state.accesses.length + 1))
      { state with
        accesses := state.accesses ++ [⟨.store, state.virtAddr⟩, ⟨.readback, state.virtAddr⟩]
        output := state.output ++ [.written writeval readResult] }

/-- The exit status, the length and offset given to `mmap` with its result,
the accesses made and the lines printed. -/
structure Trace where
  status : Int32
  mapCall : Option (Int32 × Int64)
  mapBase : Option UInt64
  accesses : List Access
  output : List Line

/-- An exit before the item loop. -/
def Trace.stopped (status : Int32) (mapCall : Option (Int32 × Int64)) : Trace :=
  ⟨status, mapCall, none, [], []⟩

def main (fuel : Nat) (env : Environment) (argv : List (List UInt8)) : Option Trace :=
  match parse argv with
  | .error status => some (Trace.stopped status none)
  | .ok command =>
      if env.opened = false then some (Trace.stopped 1 none)
      else
        let mapCall := some (command.mapSize, command.targetBase)
        match env.mmap command.mapSize command.targetBase with
        | none => some (Trace.stopped 1 mapCall)
        | some mapBase =>
            (BoundedLoop.loop (itemGuard command) (itemBody env command mapBase) fuel
              LoopState.initial).map fun state =>
                let state := writeData env command state
                ⟨if env.munmap then 0 else 1, mapCall, some mapBase, state.accesses, state.output⟩

end Pcimem
end KernelStudy
