import Ppcb.Lib.CString

/-!
# The input vector

The growing buffer of `my_vec.c`. Memory is a byte string of the allocated size; a write
that would pass its end makes the operation fail (`none`). `calloc` and `malloc` are
taken to succeed: the source ends the program when they do not.
-/

set_option autoImplicit false

namespace Ppcb

open CString

def initVecSize : UInt64 := 16384
def inputBuffSize : ℕ := 32768

/-- `UINT64_MAX` -/
def uint64Max : UInt64 := 18446744073709551615

structure MyVec where
  buff : List UInt8
  buffSize : UInt64
  occupiedSize : UInt64
  firstFreeSpaceIdx : UInt64
deriving DecidableEq, Repr

/-- Zeroed memory, as `calloc` returns it. -/
def calloc (size : UInt64) : List UInt8 := List.replicate size.toNat 0

def realocateMyVec (vec : MyVec) : Option MyVec :=
  let newSize := if vec.buffSize < uint64Max / 2 then 2 * vec.buffSize else uint64Max
  let temp := vec.buff
  (writeAt (calloc newSize) 0 (strncpy temp vec.occupiedSize.toNat)).map fun buff =>
    { vec with buff := buff, buffSize := newSize }

/-- The copy of `push_back_str_to_vec`, once there is room or the vector has grown. -/
def copyStrToVec (vec : MyVec) (buff : List UInt8) (buffSize : UInt64) : Option MyVec :=
  (writeAt vec.buff vec.firstFreeSpaceIdx.toNat (strncpy buff buffSize.toNat)).map fun written =>
    { vec with
      buff := written
      firstFreeSpaceIdx := vec.firstFreeSpaceIdx + buffSize
      occupiedSize := vec.occupiedSize + buffSize }

def pushBackStrToVec (vec : MyVec) (buff : List UInt8) (buffSize : UInt64) : Option MyVec :=
  if vec.occupiedSize + buffSize ≥ vec.buffSize then
    (realocateMyVec vec).bind fun grown => copyStrToVec grown buff buffSize
  else
    copyStrToVec vec buff buffSize

def myVecInit : MyVec where
  buff := calloc initVecSize
  buffSize := initVecSize
  occupiedSize := 0
  firstFreeSpaceIdx := 0

/-- The write of `my_vec_push_back`, once there is room or the vector has grown. -/
def putInVec (vec : MyVec) (c : UInt8) : Option MyVec :=
  (writeAt vec.buff vec.firstFreeSpaceIdx.toNat [c]).map fun written =>
    { vec with
      buff := written
      firstFreeSpaceIdx := vec.firstFreeSpaceIdx + 1
      occupiedSize := vec.occupiedSize + 1 }

def myVecPushBack (vec : MyVec) (c : UInt8) : Option MyVec :=
  if vec.firstFreeSpaceIdx ≥ vec.buffSize then
    (realocateMyVec vec).bind fun grown => putInVec grown c
  else
    putInVec vec c

/-- An index out of scope gets the termination symbol; `none` is a read past the end of the
memory. -/
def myVecGet (vec : MyVec) (idx : UInt64) : Option UInt8 :=
  if idx < vec.firstFreeSpaceIdx then vec.buff[idx.toNat]? else some 0

/-- The pieces are what the successive calls of `read` return before the end of the
input. -/
def myVecReadStdin (vec : MyVec) : List (List UInt8) → Option MyVec
  | [] => some vec
  | piece :: pieces =>
      (pushBackStrToVec vec piece (UInt64.ofNat piece.length)).bind fun vec =>
        myVecReadStdin vec pieces

end Ppcb
