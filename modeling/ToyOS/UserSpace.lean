import Mathlib

namespace ToyOS.UserSpace

inductive Errno where
  | eunimp
  | enomem
  | efault
  | einval
  | enproc
  | esrch
  | echild
  | enoent
  | e2big
  | enoexec
  | enametoolong
  | enotdir
  | eisdir
  | eexist
  | enospc
  | efbig
  | ebusy
  | enxio
  | eio
  | enodev
  | exdev
  | enfile
  | eagain
  deriving DecidableEq

def pageSize : Nat := 4096
def userspacetop : Nat := 0x80000000
def userstack : Nat := userspacetop
def dumbvmStackpages : Nat := 12
def pageFrame (addr : Nat) : Nat := addr - addr % pageSize
def wrap (n : Nat) : Nat := n % 2^32

-- An array of struct pagetable_entry: its kernel block, and the paddr field of every entry. Entries not yet written
-- hold what the block held before.
structure PageTable where
  block : Nat
  paddr : Nat → Nat

structure AddrSpace where
  asVbase1 : Nat
  pagePbase1 : Option PageTable
  asNpages1 : Nat
  asVbase2 : Nat
  pagePbase2 : Option PageTable
  asNpages2 : Nat
  pageStackpbase : Option PageTable

def asCreate : AddrSpace := ⟨0,none,0,0,none,0,none⟩

def asDefineRegion (as : AddrSpace) (vaddr sz : Nat) : Except Errno AddrSpace :=
  let size := wrap (sz+vaddr % pageSize)
  let base := pageFrame vaddr
  let npages := pageFrame (wrap (size+pageSize-1)) / pageSize
  if as.asVbase1 = 0 then .ok {as with asVbase1 := base,asNpages1 := npages}
  else if as.asVbase2 = 0 then .ok {as with asVbase2 := base,asNpages2 := npages}
  else .error .eunimp

inductive Segment where
  | text
  | data
  | stack
  deriving DecidableEq

def stackbase : Nat := userstack-dumbvmStackpages*pageSize

def AddrSpace.base (as : AddrSpace) : Segment → Nat
  | .text => as.asVbase1
  | .data => as.asVbase2
  | .stack => stackbase

def AddrSpace.npages (as : AddrSpace) : Segment → Nat
  | .text => as.asNpages1
  | .data => as.asNpages2
  | .stack => dumbvmStackpages

def AddrSpace.table (as : AddrSpace) : Segment → Option PageTable
  | .text => as.pagePbase1
  | .data => as.pagePbase2
  | .stack => as.pageStackpbase

def vtop1 (as : AddrSpace) : Nat := wrap (as.asVbase1+as.asNpages1*pageSize)
def vtop2 (as : AddrSpace) : Nat := wrap (as.asVbase2+as.asNpages2*pageSize)

def segmentOf (as : AddrSpace) (page : Nat) : Option Segment :=
  if as.asVbase1 ≤ page ∧ page < vtop1 as then some .text
  else if as.asVbase2 ≤ page ∧ page < vtop2 as then some .data
  else if stackbase ≤ page ∧ page < userstack then some .stack
  else none

-- The assertions at the head of vm_fault.
structure Prepared (as : AddrSpace) : Prop where
  vbase1 : as.asVbase1 ≠ 0
  pbase1 : as.pagePbase1 ≠ none
  npages1 : as.asNpages1 ≠ 0
  pbase2 : as.pagePbase2 ≠ none
  vbase2 : as.asVbase2 ≠ 0
  npages2 : as.asNpages2 ≠ 0
  stack : as.pageStackpbase ≠ none
  aligned1 : pageFrame as.asVbase1 = as.asVbase1
  aligned2 : pageFrame as.asVbase2 = as.asVbase2

instance (as : AddrSpace) : Decidable (Prepared as) :=
  decidable_of_iff (as.asVbase1 ≠ 0 ∧ as.pagePbase1.isSome ∧ as.asNpages1 ≠ 0 ∧
    as.pagePbase2.isSome ∧ as.asVbase2 ≠ 0 ∧ as.asNpages2 ≠ 0 ∧ as.pageStackpbase.isSome ∧
    pageFrame as.asVbase1 = as.asVbase1 ∧ pageFrame as.asVbase2 = as.asVbase2) (by
      simp only [Option.isSome_iff_ne_none]
      exact ⟨fun ⟨a,b,c,d,e,f,g,h,i⟩ => ⟨a,b,c,d,e,f,g,h,i⟩,
        fun ⟨a,b,c,d,e,f,g,h,i⟩ => ⟨a,b,c,d,e,f,g,h,i⟩⟩)

lemma pageFrame_mul (n : Nat) : pageFrame (n*pageSize) = n*pageSize := by
  unfold pageFrame pageSize; omega

def smallSpace : AddrSpace :=
  {asVbase1 := 0x400000,pagePbase1 := some ⟨0x20000,fun i => (i+33)*pageSize⟩,asNpages1 := 1
   asVbase2 := 0x10000000,pagePbase2 := some ⟨0x22000,fun i => (i+35)*pageSize⟩,asNpages2 := 1
   pageStackpbase := some ⟨0x24000,fun i => (i+37)*pageSize⟩}
end ToyOS.UserSpace
