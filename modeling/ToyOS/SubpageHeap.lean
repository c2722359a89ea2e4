import ToyOS.Kmalloc
import ToyOS.Library.Linked

namespace ToyOS.SubpageHeap
open Function UserSpace Linked
open Kmalloc (nsizes sizes capacity npagerefs blocktype Slot)

-- kmalloc.c over the memory it works in. `next_samesize` and `next_all` refer to pagerefs by their index.
structure Pageref where
  nextSamesize : Option Nat
  nextAll : Option Nat
  pageaddrAndBlocktype : Nat
  freelistOffset : Nat
  nfree : Nat

def prPageaddr (pr : Pageref) : Nat := pageFrame pr.pageaddrAndBlocktype
def prBlocktype (pr : Pageref) : Nat := pr.pageaddrAndBlocktype % pageSize
def mkpab (pa blk : Nat) : Nat := pageFrame pa+blk % pageSize
def invalidOffset : Nat := 0xffff
def inuseWords : Nat := 8

-- `word` is the kernel's memory by word addresses. A free block has the address of the next one in its first word.
structure Memory where
  pagerefs : Nat → Pageref
  pagerefsInuse : Nat → BitVec 32
  sizebases : Fin nsizes → Option Nat
  allbase : Option Nat
  word : Nat → BitVec 32

-- What is asked of alloc_kpages, where 0 is its failure, and of free_kpages.
inductive PageCall where
  | alloc (prpage : Nat)
  | free (prpage : Nat)
  deriving DecidableEq

def bit (j : Nat) : BitVec 32 := 1#32 <<< j

def Memory.setInuse (m : Memory) (j : Nat) : Memory :=
  {m with pagerefsInuse := update m.pagerefsInuse (j/32) (m.pagerefsInuse (j/32) ||| bit (j % 32))}

def Memory.clearInuse (m : Memory) (j : Nat) : Memory :=
  {m with pagerefsInuse := update m.pagerefsInuse (j/32) (m.pagerefsInuse (j/32) &&& ~~~bit (j % 32))}

def allocpageref (m : Memory) : Option (Option (Memory × Nat)) :=
  match (List.range inuseWords).find? fun i => m.pagerefsInuse i != 0xffffffff with
  | none => some none
  | some i =>
    match (List.range 32).find? fun j => m.pagerefsInuse i &&& bit j == 0 with
    | none => none
    | some j => some (some (m.setInuse (i*32+j),i*32+j))

def freepageref (m : Memory) (j : Nat) : Option Memory :=
  if j < npagerefs ∧ m.pagerefsInuse (j/32) &&& bit (j % 32) ≠ 0 then some (m.clearInuse j) else none

def Memory.nextSamesize (m : Memory) (j : Nat) : Option Nat := (m.pagerefs j).nextSamesize
def Memory.nextAll (m : Memory) (j : Nat) : Option Nat := (m.pagerefs j).nextAll

def Memory.relinkSamesize (m : Memory) (next : Nat → Option Nat) : Memory :=
  {m with pagerefs := fun j => {m.pagerefs j with nextSamesize := next j}}

def Memory.relinkAll (m : Memory) (next : Nat → Option Nat) : Memory :=
  {m with pagerefs := fun j => {m.pagerefs j with nextAll := next j}}

def unlistSamesize (m : Memory) (j : Nat) (t : Fin nsizes) : Option Memory := do
  let (first,next) ← unlink m.nextSamesize j npagerefs (m.sizebases t)
  return {m.relinkSamesize next with sizebases := update m.sizebases t first}

def unlistAll (m : Memory) (j : Nat) : Option Memory := do
  let (first,next) ← unlink m.nextAll j npagerefs m.allbase
  return {m.relinkAll next with allbase := first}

def removeLists (m : Memory) (j : Nat) (t : Fin nsizes) : Option Memory := do
  let m ← unlistSamesize m j t
  unlistAll m j

def Memory.setPageref (m : Memory) (j : Nat) (pr : Pageref) : Memory :=
  {m with pagerefs := update m.pagerefs j pr}

def findFree (m : Memory) (t : Fin nsizes) : Option (Option Nat) :=
  seek m.nextSamesize (fun j => prBlocktype (m.pagerefs j) == t) (fun j => 0 < (m.pagerefs j).nfree) npagerefs
    (m.sizebases t)

def doalloc (m : Memory) (j : Nat) : Option (Memory × Nat) :=
  let pr := m.pagerefs j
  let prpage := prPageaddr pr
  let fla := prpage+pr.freelistOffset
  let fl := (m.word fla).toNat
  let nfree := pr.nfree-1
  if pageSize ≤ pr.freelistOffset then none
  else if fl ≠ 0 then
    if 0 < nfree ∧ wrap (fl+2^32-prpage) < pageSize then
      some (m.setPageref j {pr with freelistOffset := wrap (fl+2^32-prpage),nfree},fla)
    else none
  else if nfree = 0 then some (m.setPageref j {pr with freelistOffset := invalidOffset,nfree},fla)
  else none

def threaded (word : Nat → BitVec 32) (fla size : Nat) : Nat → Nat → BitVec 32
  | 0 => word
  | i+1 => update (threaded word fla size i) (fla+i*size) (if i = 0 then 0 else BitVec.ofNat 32 (fla+(i-1)*size))

def enlist (m : Memory) (j : Nat) (t : Fin nsizes) (prpage : Nat) : Memory :=
  {m with
    pagerefs := update m.pagerefs j
      ⟨m.sizebases t,m.allbase,mkpab prpage t,(capacity t-1)*sizes t,capacity t⟩
    sizebases := update m.sizebases t (some j)
    allbase := some j
    word := threaded m.word prpage (sizes t) (capacity t)}

def subpageKmalloc (m : Memory) (sz prpage : Nat) : Option (Memory × Nat × List PageCall) := do
  let t ← blocktype sz
  match ← findFree m t with
  | some j =>
    let (m,ptr) ← doalloc m j
    return (m,ptr,[])
  | none =>
    if prpage = 0 then return (m,0,[.alloc 0])
    match ← allocpageref m with
    | none => return (m,0,[.alloc prpage,.free prpage])
    | some (m,j) =>
      let (m,ptr) ← doalloc (enlist m j t prpage) j
      return (m,ptr,[.alloc prpage])

def fillDeadbeef (word : Nat → BitVec 32) (ptr len : Nat) (a : Nat) : BitVec 32 :=
  if ptr ≤ a ∧ a < ptr+len/4*4 ∧ (a-ptr) % 4 = 0 then 0xdeadbeef else word a

def findPage (m : Memory) (ptr : Nat) : Option (Option Nat) :=
  seek m.nextAll (fun j => prBlocktype (m.pagerefs j) < nsizes)
    (fun j => prPageaddr (m.pagerefs j) ≤ ptr ∧ ptr < prPageaddr (m.pagerefs j)+pageSize) npagerefs m.allbase

def pushedWord (pr : Pageref) (word : Nat → BitVec 32) (ptr size : Nat) : Nat → BitVec 32 :=
  update (fillDeadbeef word ptr size) ptr
    (if pr.freelistOffset = invalidOffset then 0 else BitVec.ofNat 32 (prPageaddr pr+pr.freelistOffset))

def pushBlock (m : Memory) (j ptr : Nat) (t : Fin nsizes) : Memory :=
  let pr := m.pagerefs j
  {m with
    pagerefs := update m.pagerefs j {pr with freelistOffset := ptr-prPageaddr pr,nfree := pr.nfree+1}
    word := pushedWord pr m.word ptr (sizes t)}

def freeBlock (m : Memory) (j ptr : Nat) (t : Fin nsizes) : Option (Memory × List PageCall) :=
  let prpage := prPageaddr (m.pagerefs j)
  if (ptr-prpage) % sizes t ≠ 0 then none
  else
    let m := pushBlock m j ptr t
    if capacity t < (m.pagerefs j).nfree then none
    else if (m.pagerefs j).nfree = capacity t then do
      let m ← removeLists m j t
      let m ← freepageref m j
      return (m,[.free prpage])
    else some (m,[])

def subpageKfree (m : Memory) (ptr : Nat) : Option (Option (Memory × List PageCall)) := do
  match ← findPage m ptr with
  | none => return none
  | some j =>
    if small : prBlocktype (m.pagerefs j) < nsizes then do
      let freed ← freeBlock m j ptr ⟨prBlocktype (m.pagerefs j),small⟩
      return some freed
    else none

def kfree (m : Memory) (ptr : Nat) : Option (Memory × List PageCall) :=
  if ptr = 0 then some (m,[])
  else do
    match ← subpageKfree m ptr with
    | some freed => return freed
    | none => if ptr % pageSize = 0 then return (m,[.free ptr]) else none

def emptyMemory (word : Nat → BitVec 32) : Memory :=
  ⟨fun _ => ⟨none,none,0,0,0⟩,fun _ => 0,fun _ => none,none,word⟩
end ToyOS.SubpageHeap
