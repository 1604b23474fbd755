import Mathlib

namespace KernelStudy
namespace CharacterDevice

/-!
# The shared buffer of the character drivers

The character driver and the misc driver have the same file operations.  Both
work on one kernel buffer of 1024 bytes behind the static pointer `pbuf`.
Whatever length the caller asks for, `mycdev_read` copies the first 64 bytes
of the buffer to the user, and `mycdev_write` copies 64 bytes from the user to
its beginning.

A copy between the kernel and a user stops at the first user byte that cannot
be accessed.  `copy_from_user` then fills the rest of its target with zeros.
The handlers ignore the number of bytes that were not copied.
-/

/-! ## The buffer -/

/-- The memory that `vmalloc(1024)` returns. -/
@[ext] structure Buffer where
  bytes : List UInt8
  size : bytes.length = 1024
deriving DecidableEq, Repr

namespace Buffer

/-- Replace the first bytes. -/
def overwrite (buffer : Buffer) (data : List UInt8) (fits : data.length ≤ 1024) : Buffer where
  bytes := data ++ buffer.bytes.drop data.length
  size := by
    rw [List.length_append, List.length_drop, buffer.size]
    omega

/-- Some bytes at the beginning, and zeros after them. -/
def image (data : List UInt8) (fits : data.length ≤ 1024) : Buffer where
  bytes := data ++ List.replicate (1024 - data.length) 0
  size := by
    rw [List.length_append, List.length_replicate]
    omega

/-- Bytes that cover the earlier ones leave nothing of them. -/
theorem overwrite_image {earlier data : List UInt8} (shorter : earlier.length ≤ data.length)
    (fits : data.length ≤ 1024) :
    (image earlier (Nat.le_trans shorter fits)).overwrite data fits = image data fits := by
  apply Buffer.ext
  unfold overwrite image
  simp only
  rw [List.drop_append, List.drop_eq_nil_of_le shorter, List.nil_append, List.drop_replicate]
  congr 2
  omega

end Buffer

/-! ## The file operations -/

/-- The bytes that arrive when 64 bytes are copied from a user who has the
given readable bytes. -/
def copyFromUser (readable : List UInt8) : List UInt8 :=
  (readable ++ List.replicate 64 0).take 64

theorem length_copyFromUser (readable : List UInt8) : (copyFromUser readable).length = 64 := by
  unfold copyFromUser
  rw [List.length_take, List.length_append, List.length_replicate]
  omega

theorem copyFromUser_fits (readable : List UInt8) : (copyFromUser readable).length ≤ 1024 := by
  rw [length_copyFromUser]
  decide

/-- The bytes stored at a user with `writable` accessible bytes, and the
return value; `none` is an access through a `pbuf` that is `NULL`. -/
def mycdevRead (pbuf : Option Buffer) (writable : Nat) (_lbuf : UInt64) :
    Option (List UInt8 × Int64) :=
  pbuf.map fun buffer => ((buffer.bytes.take 64).take writable, 0)

/-- The buffer after the copy, and the return value. -/
def mycdevWrite (pbuf : Option Buffer) (readable : List UInt8) (_count : UInt64) :
    Option (Buffer × Int64) :=
  pbuf.map fun buffer => (buffer.overwrite (copyFromUser readable) (copyFromUser_fits readable), 0)

end CharacterDevice
end KernelStudy
