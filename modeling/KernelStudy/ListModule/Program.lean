import KernelStudy.Foundations.LinkedRing

namespace KernelStudy
namespace ListModule

open LinkedRing

/-!
# The list module

`mylistopt` keeps its objects on a kernel list.  The list is threaded through
the objects and closed by the static head `myList`; deleting unlinks an object
and frees it while the list is being walked.

The heap gives every pointer its two links, and every address an object and
whether that object is allocated.  Every access is checked: a link or a field
of an object that is not allocated, or of a pointer to no object, has no
value, and neither has a second `kfree`.  A result of one of the functions
below is therefore evidence that none of these happened.  The heap also
records which objects were unlinked and which were freed, in order.
-/

/-! ## The heap -/

/-- A value of type `struct list_head *`.  The two poison values are what
`list_del` leaves in the links of an object. -/
inductive Pointer where
  | null
  | myList
  | node (address : Nat)
  | poison1
  | poison2
deriving DecidableEq, Repr

/-- The fields of `struct my_struct` apart from its links. -/
structure MyStruct where
  name : String
  pid : Int32
  id : Int32
deriving DecidableEq, Repr

inductive Event where
  | unlinked (address : Nat)
  | freed (address : Nat)
deriving DecidableEq, Repr

structure Heap where
  links : Links Pointer
  data : Nat -> MyStruct
  live : Nat -> Bool
  events : List Event

namespace Heap

def accessible (heap : Heap) : Pointer -> Bool
  | .myList => true
  | .node address => heap.live address
  | .null | .poison1 | .poison2 => false

def next (heap : Heap) (pointer : Pointer) : Option Pointer :=
  if heap.accessible pointer then some (heap.links.next pointer) else none

def prev (heap : Heap) (pointer : Pointer) : Option Pointer :=
  if heap.accessible pointer then some (heap.links.prev pointer) else none

def withNext (heap : Heap) (pointer target : Pointer) : Heap :=
  { heap with links := { heap.links with next := Function.update heap.links.next pointer target } }

def withPrev (heap : Heap) (pointer target : Pointer) : Heap :=
  { heap with links := { heap.links with prev := Function.update heap.links.prev pointer target } }

def setNext (heap : Heap) (pointer target : Pointer) : Option Heap :=
  if heap.accessible pointer then some (heap.withNext pointer target) else none

def setPrev (heap : Heap) (pointer target : Pointer) : Option Heap :=
  if heap.accessible pointer then some (heap.withPrev pointer target) else none

/-- The fields of an object. -/
def object (heap : Heap) (address : Nat) : Option MyStruct :=
  if heap.live address then some (heap.data address) else none

def record (heap : Heap) (event : Event) : Heap :=
  { heap with events := heap.events ++ [event] }

end Heap

/-- `list_entry`: the object that a list pointer is part of. -/
def listEntry : Pointer -> Option Nat
  | .node address => some address
  | .null | .myList | .poison1 | .poison2 => none

def kfree (heap : Heap) (address : Nat) : Option Heap :=
  if heap.live address then
    some ({ heap with live := Function.update heap.live address false }.record (.freed address))
  else none

/-- `kzalloc` of an object at a given address. -/
def kzalloc (heap : Heap) (address : Nat) : Heap :=
  { (heap.withNext (.node address) .null).withPrev (.node address) .null with
    data := Function.update heap.data address ⟨"", 0, 0⟩
    live := Function.update heap.live address true }

/-- `list_del`: the neighbours are joined, and the links of the entry are
poisoned. -/
def listDel (heap : Heap) (address : Nat) : Option Heap := do
  let entry := Pointer.node address
  let prev ← heap.prev entry
  let next ← heap.next entry
  let heap ← heap.setPrev next prev
  let heap ← heap.setNext prev next
  let heap ← heap.setNext entry .poison1
  let heap ← heap.setPrev entry .poison2
  return heap.record (.unlinked address)

/-- `list_add_tail(new, &myList)`. -/
def listAddTail (heap : Heap) (new : Pointer) : Option Heap := do
  let prev ← heap.prev .myList
  let heap ← heap.setPrev .myList new
  let heap ← heap.setNext new .myList
  let heap ← heap.setPrev new prev
  heap.setNext prev new

/-! ## The functions of the module -/

/-- One pass of the loop in `mylistopt_add_all`, with the address that
`kzalloc` has returned and the pid of the current process. -/
def addObject (heap : Heap) (address : Nat) (pid i : Int32) : Option Heap :=
  let heap := kzalloc heap address
  let object : MyStruct := ⟨"this is idx " ++ toString i.toInt, pid, i⟩
  listAddTail { heap with data := Function.update heap.data address object } (.node address)

/-- `list_for_each(pos, &myList)`, collecting what each object prints. -/
def listForEach (heap : Heap) : Nat -> Pointer -> Option (List MyStruct)
  | 0, pos => if pos = .myList then some [] else none
  | fuel + 1, pos =>
      if pos = .myList then some []
      else do
        let address ← listEntry pos
        let object ← heap.object address
        let pos ← heap.next pos
        let later ← listForEach heap fuel pos
        return object :: later

def mylistoptPrint (fuel : Nat) (heap : Heap) : Option (List MyStruct) := do
  let pos ← heap.next .myList
  listForEach heap fuel pos

/-- The object is unlinked and freed; its fields are printed in between. -/
def delBody (id delAll : Int32) (heap : Heap) (p : Pointer) : Option Heap := do
  let address ← listEntry p
  let object ← heap.object address
  if id = object.id \/ delAll = 1 then
    let heap ← listDel heap address
    let _printed ← heap.object address
    kfree heap address
  else return heap

/-- `list_for_each_safe(p, n, &myList)`: the following pointer `n` is read
before the body runs. -/
def listForEachSafe (body : Heap -> Pointer -> Option Heap) :
    Nat -> Heap -> Pointer -> Pointer -> Option Heap
  | 0, heap, p, _ => if p = .myList then some heap else none
  | fuel + 1, heap, p, n =>
      if p = .myList then some heap
      else do
        let heap ← body heap p
        let p := n
        let n ← heap.next p
        listForEachSafe body fuel heap p n

def mylistoptDel (fuel : Nat) (id delAll : Int32) (heap : Heap) : Option Heap := do
  let p ← heap.next .myList
  let n ← heap.next p
  listForEachSafe (delBody id delAll) fuel heap p n

end ListModule
end KernelStudy
