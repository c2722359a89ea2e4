import ToyOS.Library.Transition
import ToyOS.UserSpace

namespace ToyOS.DeviceTable
open Transition UserSpace Option List

-- kern/vfs/vfslist.c: the table of known devices. FSOP_GETVOLNAME is `volname`.
structure KnownDev (Device Fs : Type) where
  kdName : List UInt8
  kdRawname : Option (List UInt8)
  kdDevice : Option Device
  kdFs : Option Fs

variable {Device Fs : Type} (volname : Fs → Option (List UInt8))

inductive Found (Device Fs : Type) where
  | root (fs : Fs)
  | device (dev : Device)
  | error (errno : Errno)
  | panic

def deviceOf (kd : KnownDev Device Fs) : Found Device Fs :=
  match kd.kdDevice with
  | some dev => .device dev
  | none => .panic

def getrootOf (devname : List UInt8) (kd : KnownDev Device Fs) : Option (Found Device Fs) :=
  match kd.kdFs with
  | some fs =>
    if kd.kdName = devname ∨ volname fs = some devname then some (.root fs)
    else if kd.kdRawname = some devname then some (deviceOf kd)
    else none
  | none =>
    if kd.kdRawname.isSome = true ∧ kd.kdName = devname then some (.error .enxio)
    else if kd.kdName = devname then some (deviceOf kd)
    else if kd.kdRawname = some devname then some (deviceOf kd)
    else none

def vfsGetroot (devname : List UInt8) : List (KnownDev Device Fs) → Found Device Fs
  | [] => .error .enodev
  | kd :: rest =>
    match getrootOf volname devname kd with
    | some found => found
    | none => vfsGetroot devname rest

def mkrawname (name : List UInt8) : List UInt8 := name++[114,97,119]

def samestring (a b : Option (List UInt8)) : Bool :=
  match a,b with
  | some a,some b => a = b
  | _,_ => false

def samestring3 (a b c d : Option (List UInt8)) : Bool := samestring a b || samestring a c || samestring a d

def badnames (n1 n2 n3 : Option (List UInt8)) (table : List (KnownDev Device Fs)) : Bool :=
  table.any fun kd => samestring3 (kd.kdFs.bind volname) n1 n2 n3 || samestring3 kd.kdRawname n1 n2 n3 ||
    samestring3 (some kd.kdName) n1 n2 n3

-- Which of the allocations of vfs_doadd succeed. The last one is in knowndevarray_add.
structure Memory where
  name : Bool
  rawname : Bool
  vnode : Bool
  kd : Bool
  array : Bool

def vfsDoadd (table : List (KnownDev Device Fs)) (memory : Memory) (dname : List UInt8) (mountable : Bool)
    (dev : Option Device) (fs : Option Fs) : List (KnownDev Device Fs) × Option Errno :=
  let rawname := if mountable then some (mkrawname dname) else none
  if memory.name = false ∨ mountable = true ∧ memory.rawname = false ∨ memory.vnode = false ∨ memory.kd = false then
    (table,some .enomem)
  else if badnames volname (some dname) rawname (fs.bind volname) table then (table,some .eexist)
  else if memory.array = false then (table,some .enomem)
  else (table++[⟨dname,rawname,dev,fs⟩],none)

def vfsAdddev (table : List (KnownDev Device Fs)) (memory : Memory) (devname : List UInt8) (dev : Device)
    (mountable : Bool) : List (KnownDev Device Fs) × Option Errno :=
  vfsDoadd volname table memory devname mountable (some dev) none

def vfsAddfs (table : List (KnownDev Device Fs)) (memory : Memory) (devname : List UInt8) (fs : Fs) :
    List (KnownDev Device Fs) × Option Errno :=
  vfsDoadd volname table memory devname false none (some fs)

def findmount (devname : List UInt8) : List (KnownDev Device Fs) → Option (Nat × KnownDev Device Fs)
  | [] => none
  | kd :: rest =>
    if kd.kdRawname.isSome = true ∧ devname = kd.kdName then some (0,kd)
    else (findmount devname rest).map fun found => (found.1+1,found.2)

def vfsMount (table : List (KnownDev Device Fs)) (devname : List UInt8) (mounted : Except Errno Fs) :
    Option (List (KnownDev Device Fs) × Option Errno) :=
  match findmount devname table with
  | none => some (table,some .enodev)
  | some (i,kd) =>
    match kd.kdFs with
    | some _ => some (table,some .ebusy)
    | none =>
      if kd.kdDevice.isNone then none
      else match mounted with
        | .error errno => some (table,some errno)
        | .ok fs => some (table.set i {kd with kdFs := some fs},none)

def vfsUnmount (table : List (KnownDev Device Fs)) (devname : List UInt8) (synced unmounted : Option Errno) :
    Option (List (KnownDev Device Fs) × Option Errno) :=
  match findmount devname table with
  | none => some (table,some .enodev)
  | some (i,kd) =>
    match kd.kdFs with
    | none => some (table,some .einval)
    | some _ =>
      if kd.kdDevice.isNone then none
      else match synced,unmounted with
        | some errno,_ => some (table,some errno)
        | none,some errno => some (table,some errno)
        | none,none => some (table.set i {kd with kdFs := none},none)

inductive Event (Device Fs : Type) where
  | vfsAdddev (memory : Memory) (devname : List UInt8) (dev : Device) (mountable : Bool)
  | vfsAddfs (memory : Memory) (devname : List UInt8) (fs : Fs)
  | vfsMount (devname : List UInt8) (mounted : Except Errno Fs)
  | vfsUnmount (devname : List UInt8) (synced unmounted : Option Errno)

def step (table : List (KnownDev Device Fs)) : Event Device Fs → Option (List (KnownDev Device Fs))
  | .vfsAdddev memory devname dev mountable => some (vfsAdddev volname table memory devname dev mountable).1
  | .vfsAddfs memory devname fs => some (vfsAddfs volname table memory devname fs).1
  | .vfsMount devname mounted => (vfsMount table devname mounted).map (·.1)
  | .vfsUnmount devname synced unmounted => (vfsUnmount table devname synced unmounted).map (·.1)

def Named (kd : KnownDev Device Fs) (name : List UInt8) : Prop :=
  kd.kdName = name ∨ kd.kdRawname = some name ∨ kd.kdFs.bind volname = some name

def Unambiguous (table : List (KnownDev Device Fs)) : Prop :=
  ∀ (i j : Nat) a b name, table[i]? = some a → table[j]? = some b → Named volname a name → Named volname b name → i = j

def FreshVolume (table : List (KnownDev Device Fs)) : Event Device Fs → Prop
  | .vfsMount devname (.ok fs) => ∀ i kd, findmount devname table = some (i,kd) → kd.kdFs = none →
      ∀ name, volname fs = some name → ∀ j other, j ≠ i → table[j]? = some other → ¬Named volname other name
  | _ => True

variable {volname} {table table' : List (KnownDev Device Fs)} {kd : KnownDev Device Fs} {i : Nat}
  {devname name : List UInt8}

lemma getrootOf_none : getrootOf volname name kd = none ↔ ¬Named volname kd name := by
  unfold getrootOf Named
  cases kd.kdFs with
  | none =>
    by_cases eq : kd.kdName = name
    · by_cases raw : kd.kdRawname.isSome = true <;> simp [eq,raw]
    · by_cases raw : kd.kdRawname = some name <;> simp [eq,raw]
  | some fs =>
    by_cases eq : kd.kdName = name
    · simp [eq]
    by_cases volume : volname fs = some name
    · simp [volume]
    · by_cases raw : kd.kdRawname = some name <;> simp [eq,volume,raw]

lemma vfsGetroot_cases (volname : Fs → Option (List UInt8)) (devname : List UInt8) (table : List (KnownDev Device Fs)) :
    (∃ kd ∈ table, getrootOf volname devname kd = some (vfsGetroot volname devname table)) ∨
    (∀ kd ∈ table, ¬Named volname kd devname) ∧ vfsGetroot volname devname table = .error .enodev := by
  induction table with
  | nil => exact .inr ⟨by simp,rfl⟩
  | cons head rest ih =>
    unfold vfsGetroot
    cases hit : getrootOf volname devname head with
    | some answer => exact .inl ⟨head,by simp,hit⟩
    | none =>
      have unnamed := getrootOf_none.mp hit
      rcases ih with ⟨kd,mem,answer⟩ | ⟨others,miss⟩
      · exact .inl ⟨kd,by simp [mem],answer⟩
      · exact .inr ⟨by simpa [unnamed] using others,miss⟩

lemma Unambiguous.same (clear : Unambiguous volname table) (first : a ∈ table)
    (second : b ∈ table) (one : Named volname a name) (two : Named volname b name) : a = b := by
  obtain ⟨i,at_⟩ := mem_iff_getElem?.mp first
  obtain ⟨j,here⟩ := mem_iff_getElem?.mp second
  have index := clear i j a b name at_ here one two
  rw [index,here] at at_
  exact (some.inj at_).symm

lemma vfsGetroot_order (clear : Unambiguous volname table) (order : table.Perm table') :
    vfsGetroot volname devname table' = vfsGetroot volname devname table := by
  have named : ∀ {kd : KnownDev Device Fs} {hit}, getrootOf volname devname kd = some hit →
    Named volname kd devname := by
    intro kd hit answer
    by_contra unnamed
    rw [getrootOf_none.mpr unnamed] at answer
    cases answer
  rcases vfsGetroot_cases volname devname table with ⟨a,first,one⟩ | ⟨nobody,miss⟩
  · rcases vfsGetroot_cases volname devname table' with ⟨b,second,two⟩ | ⟨nobody,_⟩
    · have eq := clear.same first (order.mem_iff.mpr second) (named one) (named two)
      rw [eq,two] at one
      exact some.inj one
    · exact absurd (named one) (nobody a (order.mem_iff.mp first))
  rcases vfsGetroot_cases volname devname table' with ⟨b,second,two⟩ | ⟨_,also⟩
  · exact absurd (named two) (nobody b (order.mem_iff.mpr second))
  · rw [also,miss]

lemma findmount_at (hit : findmount devname table = some (i,kd)) : table[i]? = some kd := by
  induction table generalizing i with
  | nil => cases hit
  | cons head rest ih =>
    unfold findmount at hit
    split at hit
    · cases hit
      rfl
    obtain ⟨⟨j,ne⟩,later,eq⟩ := map_eq_some_iff.mp hit
    cases eq
    simpa using ih later

lemma samestring_iff : samestring a b ↔ ∃ name, a = some name ∧ b = some name := by
  cases a <;> cases b <;> simp [samestring,eq_comm]

lemma badnames_false (passed : badnames volname (some kd.kdName) kd.kdRawname (kd.kdFs.bind volname) table = false)
    (mem : other ∈ table) (did : Named volname other name) : ¬Named volname kd name := by
  intro new
  have compared := any_eq_false.mp passed other mem
  simp only [samestring3,Bool.or_eq_true,samestring_iff] at compared
  apply compared
  rcases did with did | did | did <;> rcases new with new | new | new <;> simp [did,new]

lemma entry_append (hit : (table++[kd])[i]? = some a) : table[i]? = some a ∨ i = table.length ∧ a = kd := by
  rcases Nat.lt_trichotomy i table.length with old | last | past
  · rw [getElem?_append_left old] at hit
    exact .inl hit
  · rw [last,getElem?_concat_length] at hit
    exact .inr ⟨last,(some.inj hit).symm⟩
  rw [getElem?_eq_none (by simp; omega)] at hit
  cases hit

lemma Unambiguous.add (clear : Unambiguous volname table)
    (fresh : ∀ other ∈ table, ∀ name, Named volname other name → ¬Named volname kd name) :
    Unambiguous volname (table++[kd]) := by
  intro i j a b name first second one two
  rcases entry_append first with first | ⟨index,new⟩ <;> rcases entry_append second with second | ⟨index',new'⟩
  · exact clear i j a b name first second one two
  · rw [new'] at two
    exact absurd two (fresh a (mem_of_getElem? first) name one)
  · rw [new] at one
    exact absurd one (fresh b (mem_of_getElem? second) name two)
  · rw [index,index']

lemma vfsDoadd_clear (clear : Unambiguous volname table) (memory : Memory) (dname : List UInt8) (mountable : Bool)
    (dev : Option Device) (fs : Option Fs) :
    Unambiguous volname (vfsDoadd volname table memory dname mountable dev fs).1 := by
  unfold vfsDoadd
  generalize (if mountable = true then some (mkrawname dname) else none) = rawname
  simp only []
  split
  · exact clear
  split
  · exact clear
  rename_i passed
  split
  · exact clear
  apply clear.add
  intro ne member name taken
  exact badnames_false (by simpa using passed) member taken

lemma entry_set (hit : (table.set i new)[j]? = some a) : j ≠ i ∧ table[j]? = some a ∨ j = i ∧ a = new := by
  by_cases here : j = i
  · subst here
    by_cases lt : j < table.length
    · rw [getElem?_set_self lt] at hit
      exact .inr ⟨rfl,(some.inj hit).symm⟩
    rw [getElem?_eq_none (by simpa using lt)] at hit
    cases hit
  rw [getElem?_set_ne (Ne.symm here)] at hit
  exact .inl ⟨here,hit⟩

section
variable (clear : Unambiguous volname table)
include clear

lemma Unambiguous.set
    (fresh : ∀ j other name, j ≠ i → table[j]? = some other → Named volname new name → ¬Named volname other name) :
    Unambiguous volname (table.set i new) := by
  intro j k a b name first second one two
  rcases entry_set first with ⟨away,first⟩ | ⟨index,now⟩ <;>
    rcases entry_set second with ⟨away',second⟩ | ⟨index',now'⟩
  · exact clear j k a b name first second one two
  · rw [now'] at two
    exact absurd one (fresh j a name away first two)
  · rw [now] at one
    exact absurd two (fresh k b name away' second one)
  · rw [index,index']

lemma mount_clear_iff (hit : table[i]? = some kd)
    (fs : Fs) : Unambiguous volname (table.set i {kd with kdFs := some fs}) ↔
      ∀ name, volname fs = some name → ∀ j other, j ≠ i → table[j]? = some other → ¬Named volname other name := by
  constructor
  · intro after name volume j other away at_ taken
    have lt : i < table.length := (List.getElem?_eq_some_iff.mp hit).1
    have new : (table.set i {kd with kdFs := some fs})[i]? = some {kd with kdFs := some fs} :=
      List.getElem?_set_self lt
    have old : (table.set i {kd with kdFs := some fs})[j]? = some other := by
      rw [List.getElem?_set_ne (Ne.symm away)]
      exact at_
    exact away (after j i _ _ name old new taken (.inr (.inr volume)))
  intro fresh
  apply clear.set
  intro j other name away at_ new taken
  rcases new with named | raw | volume
  · exact away (clear j i other kd name at_ hit taken (.inl named))
  · exact away (clear j i other kd name at_ hit taken (.inr (.inl raw)))
  · exact fresh name volume j other away at_ taken

lemma unmount_clear (hit : table[i]? = some kd) : Unambiguous volname (table.set i {kd with kdFs := none}) := by
  apply clear.set
  intro j other name away at_ new taken
  rcases new with named | raw | volume
  · exact away (clear j i other kd name at_ hit taken (.inl named))
  · exact away (clear j i other kd name at_ hit taken (.inr (.inl raw)))
  · cases volume

lemma step_clear_iff (did : step volname table event = some table') :
    Unambiguous volname table' ↔ FreshVolume volname table event := by
  cases event with
  | vfsAdddev memory devname dev mountable =>
    cases did
    exact iff_of_true (vfsDoadd_clear clear _ _ _ _ _) trivial
  | vfsAddfs memory devname fs =>
    cases did
    exact iff_of_true (vfsDoadd_clear clear _ _ _ _ _) trivial
  | vfsMount devname mounted =>
    obtain ⟨⟨after,res⟩,ran,eq⟩ := map_eq_some_iff.mp did
    cases eq
    unfold vfsMount at ran
    cases hit : findmount devname table with
    | none =>
      simp only [hit] at ran
      cases ran
      refine iff_of_true clear ?_
      cases mounted <;> simp [FreshVolume,hit]
    | some entry =>
      obtain ⟨i,kd⟩ := entry
      simp only [hit] at ran
      cases fs : kd.kdFs with
      | some fs' =>
        simp only [fs] at ran
        cases ran
        refine iff_of_true clear ?_
        cases mounted with
        | error => trivial
        | ok new =>
          intro j other at_ unmounted
          rw [hit] at at_
          cases at_
          rw [fs] at unmounted
          cases unmounted
      | none =>
        simp only [fs] at ran
        obtain ⟨_,ran⟩ := Option.ite_none_left_eq_some.mp ran
        cases mounted with
        | error =>
          cases ran
          exact iff_of_true clear trivial
        | ok new =>
          cases ran
          rw [mount_clear_iff clear (findmount_at hit)]
          simp only [FreshVolume,hit,some.injEq,Prod.mk.injEq]
          constructor
          · intro fresh j other eq _
            rw [←eq.1]
            exact fresh
          intro fresh
          exact fresh i kd ⟨rfl,rfl⟩ fs
  | vfsUnmount devname synced unmounted =>
    obtain ⟨⟨after,res⟩,ran,eq⟩ := map_eq_some_iff.mp did
    cases eq
    refine iff_of_true ?_ trivial
    unfold vfsUnmount at ran
    split at ran
    · cases ran
      exact clear
    rename_i i kd hit
    split at ran
    · cases ran
      exact clear
    obtain ⟨_,ran⟩ := Option.ite_none_left_eq_some.mp ran
    split at ran
    · cases ran
      exact clear
    · cases ran
      exact clear
    cases ran
    exact unmount_clear clear (findmount_at hit)

end

theorem device_names (path : Reached (step volname) (FreshVolume volname) [] table) :
    Unambiguous volname table ∧
    (∀ devname table', table.Perm table' → vfsGetroot volname devname table' = vfsGetroot volname devname table) ∧
    ∀ event table', step volname table event = some table' →
      (Unambiguous volname table' ↔ FreshVolume volname table event) := by
  have clear : Unambiguous volname table := by
    refine path.invariant (Unambiguous volname) ?_ ?_
    · intro i j a b name first
      simp at first
    intro table event table' _ clear fresh did
    exact (step_clear_iff clear did).mpr fresh
  refine ⟨clear,?_,?_⟩
  · intro devname table' order
    exact vfsGetroot_order clear order
  intro event table' did
  exact step_clear_iff clear did

def lhd0 : List UInt8 := [108,104,100,48]
def lhd1 : List UInt8 := [108,104,100,49]
def vol : List UInt8 := [118,111,108]
def plenty : Memory := ⟨true,true,true,true,true⟩

def twoDisks : List (Event Nat (Option (List UInt8))) :=
  [.vfsAdddev plenty lhd0 0 true,.vfsAdddev plenty lhd1 1 true]

def disk (name : List UInt8) (dev : Nat) : KnownDev Nat (Option (List UInt8)) :=
  ⟨name,some (mkrawname name),some dev,none⟩

lemma vol_fresh : FreshVolume id [disk lhd0 0,disk lhd1 1] (.vfsMount lhd0 (.ok (some vol))) := by
  intro i kd hit _ name volume j other away at_ named
  cases hit
  cases volume
  match j,at_ with
  | 0,_ => exact away rfl
  | 1,at_ =>
    cases at_
    rcases named with same | same | same <;> cases same

theorem device_names_mounted : ∃ table : List (KnownDev Nat (Option (List UInt8))),
    Reached (step id) (FreshVolume id) [] table ∧ vfsGetroot id vol table = .root (some vol) ∧
    vfsGetroot id vol table.reverse = .root (some vol) := by
  have first : FreshVolume (id : Option (List UInt8) → _) [] (.vfsAdddev plenty lhd0 0 true) := trivial
  have second : FreshVolume id [disk lhd0 0] (.vfsAdddev plenty lhd1 1 true) := trivial
  have added : Reached (step id) (FreshVolume id) [] [disk lhd0 0,disk lhd1 1] :=
    (Reached.next .initial first rfl).next second rfl
  have mounted := added.next vol_fresh rfl
  refine ⟨_,mounted,rfl,?_⟩
  rw [(device_names mounted).2.1 vol _ (List.reverse_perm _).symm]
  rfl

theorem volume_named_as_device : ∃ table : List (KnownDev Nat (Option (List UInt8))),
    run (step id) [] (twoDisks++[.vfsMount lhd0 (.ok (some lhd1))]) = some table ∧
    ¬Unambiguous id table ∧ vfsGetroot id lhd1 table = .root (some lhd1) ∧
    vfsGetroot id lhd1 table.reverse = .error .enxio := by
  refine ⟨_,rfl,?_,rfl,rfl⟩
  intro clear
  have same := clear 0 1 _ _ lhd1 rfl rfl (.inr (.inr rfl)) (.inl rfl)
  cases same
end ToyOS.DeviceTable
