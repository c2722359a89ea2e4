import ToyOS.ExecFailure
import ToyOS.Library.Words
import ToyOS.UserMemory

namespace ToyOS.ArgumentStack
open UserSpace Tlb Coremap UserCopy Outcome Words UserMemory Option List
open ExecFailure (argMaxLen)

-- What enter_new_process is given, apart from the entry point.
structure Launch where
  argc : Nat
  argv : Nat
  stackptr : Nat
  deriving DecidableEq

-- A string and where its copy is.
structure Placed where
  addr : Nat
  text : List UInt8

def room (text : List UInt8) : Nat := roundup (text.length+1) 4
def wordBytes (w : Nat) : List UInt8 := (List.range 4).map (wordByte (BitVec.ofNat 32 w))

def stackSize : Nat := 4096

-- The kernel stack of the thread, in bytes: `frames` are in use when user_space_pointer is allocated on it,
-- and the fault at the first store to the user stack takes `handler` more. The compiler decides both;
-- common_exception alone takes 168.
structure KernelStack where
  frames : Nat
  handler : Nat
  least : 168 ≤ handler

def KernelStack.Holds (k : KernelStack) (argc : Nat) : Prop := k.frames+4*(1+argc)+k.handler ≤ stackSize

instance (k : KernelStack) (argc : Nat) : Decidable (k.Holds argc) := inferInstanceAs (Decidable (_ ≤ _))

variable (random : Nat → Fin numTlb) (k : KernelStack)

def pushStrings : List (List UInt8) → Nat → Kern (Nat × List Placed)
  | [],stackptr => pure (stackptr,[])
  | text :: rest,stackptr => do
    copyoutstr random text (sub32 stackptr (room text)) argMaxLen
    let (last,placed) ← pushStrings rest (sub32 stackptr (room text))
    pure (last,⟨sub32 stackptr (room text),text⟩ :: placed)

def pushPointers : List Nat → Nat → Kern Nat
  | [],stackptr => pure stackptr
  | w :: rest,stackptr => do
    copyout random (wordBytes w) (sub32 stackptr 4)
    pushPointers rest (sub32 stackptr 4)

def launch (argc : Nat) (pointers : List Nat) (stackptr : Nat) : Kern Launch := do
  let argv ← pushPointers random (0 :: pointers) stackptr
  pure ⟨argc,argv,argv-argv % 8⟩

def total (texts : List (List UInt8)) : Nat := (texts.map room).sum

def placedFrom : Nat → List (List UInt8) → List Placed
  | _,[] => []
  | stackptr,text :: rest => ⟨stackptr-room text,text⟩ :: placedFrom (stackptr-room text) rest

def withStrings (content : Nat → UInt8) : Nat → List (List UInt8) → Nat → UInt8
  | _,[] => content
  | stackptr,text :: rest =>
    withStrings (put content (stackptr-room text) (text++[0])) (stackptr-room text) rest

def withPointers (content : Nat → UInt8) : Nat → List Nat → Nat → UInt8
  | _,[] => content
  | stackptr,w :: rest => withPointers (put content (stackptr-4) (wordBytes w)) (stackptr-4) rest

variable {as : AddrSpace} {loaded : Bool} {content : Nat → UInt8} {coremap : Entries} {s t : Machine} {random} {k}
  {E : Halt → Machine → Prop} {texts : List (List UInt8)} {text : List UInt8} {stackptr a : Nat} {words : List Nat}

lemma room_eq (text : List UInt8) : room text % 4 = 0 ∧ text.length < room text := by
  unfold room roundup divroundup
  omega

lemma total_cons : total (text :: texts) = room text+total texts := sum_cons ..

lemma wordBytes_length (w : Nat) : (wordBytes w).length = 4 := rfl

lemma placed_bounds (big : total texts ≤ stackptr) (mem : p ∈ placedFrom stackptr texts) :
    stackptr-total texts ≤ p.addr ∧ p.addr+p.text.length < stackptr := by
  induction texts generalizing stackptr with
  | nil => cases mem
  | cons text rest ih =>
    rw [total_cons] at big ⊢
    have long := (room_eq text).2
    rcases mem_cons.mp mem with rfl | later
    · constructor
      · change stackptr-(room text+total rest) ≤ stackptr-room text
        omega
      change stackptr-room text+text.length < stackptr
      omega
    have bounds := ih (by omega) later
    omega

def Placed.Apart (p q : Placed) : Prop := p.addr+p.text.length < q.addr ∨ q.addr+q.text.length < p.addr
lemma Placed.Apart.symm {p : Placed} (apart : p.Apart q) : q.Apart p := Or.symm apart

lemma placed_apart (big : total texts ≤ stackptr) : (placedFrom stackptr texts).Pairwise Placed.Apart := by
  induction texts generalizing stackptr with
  | nil => exact List.Pairwise.nil
  | cons text rest ih =>
    rw [total_cons] at big
    refine List.Pairwise.cons ?_ (ih (by omega))
    intro q member
    have lt := (placed_bounds (by omega) member).2
    exact .inr lt

lemma withStrings_above (big : total texts ≤ stackptr) (above : stackptr ≤ a) :
    withStrings content stackptr texts a = content a := by
  induction texts generalizing stackptr content with
  | nil => rfl
  | cons text rest ih =>
    rw [total_cons] at big
    have long := (room_eq text).2
    unfold withStrings
    rw [ih (by omega) (by omega)]
    apply put_outside
    simp only [length_append,length_singleton]
    omega

lemma withPointers_above (big : 4*words.length ≤ stackptr) (above : stackptr ≤ a) :
    withPointers content stackptr words a = content a := by
  induction words generalizing stackptr content with
  | nil => rfl
  | cons w rest ih =>
    rw [length_cons] at big
    unfold withPointers
    rw [ih (by omega) (by omega)]
    apply put_outside
    rw [wordBytes_length]
    omega

def Holds (content : Nat → UInt8) (p : Placed) : Prop :=
  ∀ k ≤ p.text.length, content (p.addr+k) = (p.text++[0]).getD k 0

lemma withStrings_holds (big : total texts ≤ stackptr) (mem : p ∈ placedFrom stackptr texts) :
    Holds (withStrings content stackptr texts) p := by
  induction texts generalizing stackptr content with
  | nil => cases mem
  | cons text rest ih =>
    rw [total_cons] at big
    unfold withStrings
    rcases mem_cons.mp mem with rfl | later
    · intro k inside
      change withStrings _ _ rest (stackptr-room text+k) = (text++[0]).getD k 0
      rw [withStrings_above (by omega) (by omega)]
      apply put_inside
      simp only [length_append,length_singleton]
      exact Nat.lt_succ_of_le inside
    · exact ih (by omega) later

lemma wordAt_put (content : Nat → UInt8) (addr w : Nat) :
    wordAt (put content addr (wordBytes w)) addr = BitVec.ofNat 32 w := by
  have byte : ∀ k < 4, put content addr (wordBytes w) (addr+k) = wordByte (BitVec.ofNat 32 w) k := by
    intro k small
    rw [put_inside (by rwa [wordBytes_length])]
    unfold wordBytes
    rw [getD_eq_getElem?_getD,getElem?_map,getElem?_range small]
    rfl
  have one : put content addr (wordBytes w) addr = wordByte (BitVec.ofNat 32 w) 0 := byte 0 (by decide)
  rw [wordAt,one,byte 1 (by decide),byte 2 (by decide),byte 3 (by decide)]
  exact extracted_bytes _

lemma withPointers_word (big : 4*words.length ≤ stackptr) (hit : words.reverse[i]? = some w) :
    wordAt (withPointers content stackptr words) (stackptr-4*words.length+4*i) = BitVec.ofNat 32 w := by
  induction words generalizing stackptr content with
  | nil => cases hit
  | cons v rest ih =>
    rw [length_cons] at big ⊢
    rw [reverse_cons] at hit
    unfold withPointers
    by_cases later : i < rest.length
    · rw [getElem?_append_left (by rwa [length_reverse])] at hit
      have lt : 4*rest.length ≤ stackptr-4 := by omega
      have place : stackptr-4*(rest.length+1)+4*i = stackptr-4-4*rest.length+4*i := by omega
      rw [place]
      exact ih lt hit
    have bound : i < rest.length+1 := by
      by_contra past
      rw [getElem?_eq_none (by simp only [length_append,length_reverse,length_singleton]; omega)] at hit
      cases hit
    have last : i = rest.length := by omega
    subst last
    rw [getElem?_append_right (by rw [length_reverse]),length_reverse,Nat.sub_self] at hit
    cases hit
    have place : stackptr-4*(rest.length+1)+4*rest.length = stackptr-4 := by omega
    rw [place]
    refine (wordAt_congr ?_).trans (wordAt_put content _ _)
    intro j above _
    exact withPointers_above (by omega) above

-- What the new program finds. The pointers come first, then the strings, in some order.
structure Passed (content : Nat → UInt8) (args : List (List UInt8)) (launch : Launch) (placed : List Placed) :
    Prop where
  texts : placed.map Placed.text = args
  argc : launch.argc = args.length
  pointers : ∀ i p, placed[i]? = some p → wordAt content (launch.argv+4*i) = BitVec.ofNat 32 p.addr
  strings : ∀ p ∈ placed, Holds content p
  last : wordAt content (launch.argv+4*launch.argc) = 0
  apart : placed.Pairwise Placed.Apart
  above : ∀ p ∈ placed, launch.argv+4*(launch.argc+1) ≤ p.addr ∧ p.addr+p.text.length < userstack
  base : stackbase ≤ launch.argv ∧ launch.argv+4*(launch.argc+1) ≤ userstack
  stackptr : launch.stackptr % 8 = 0 ∧ launch.stackptr ≤ launch.argv ∧ stackbase ≤ launch.stackptr

def launched (args : List (List UInt8)) : Launch :=
  let argv := userstack-total args-4*(args.length+1)
  ⟨args.length,argv,argv-argv % 8⟩

lemma passed {placed : List Placed} (eq : total texts = total args)
    (fits : total args+4*(args.length+1) ≤ dumbvmStackpages*pageSize)
    (order : placed.Perm (placedFrom userstack texts)) (arranged : placed.map Placed.text = args) :
    Passed (withPointers (withStrings content userstack texts) (userstack-total texts)
      (0 :: (placed.map Placed.addr).reverse)) args (launched args) placed := by
  have high : stackbase+dumbvmStackpages*pageSize = userstack := by decide
  have whole : stackbase % 8 = 0 := by decide
  have count : placed.length = args.length := by rw [←arranged,length_map]
  have words : (0 :: (placed.map Placed.addr).reverse).length = args.length+1 := by
    rw [length_cons,length_reverse,length_map,count]
  have bounds : ∀ p ∈ placed, userstack-total texts ≤ p.addr ∧ p.addr+p.text.length < userstack := fun p mem =>
    placed_bounds (by omega) (order.mem_iff.mp mem)
  have argv : (launched args).argv = userstack-total texts-4*(0 :: (placed.map Placed.addr).reverse).length := by
    rw [words,eq]
    rfl
  have backwards : (0 :: (placed.map Placed.addr).reverse).reverse = placed.map Placed.addr++[0] := by
    rw [reverse_cons,reverse_reverse]
  refine ⟨arranged,rfl,?_,?_,?_,?_,?_,?_,?_⟩
  · intro i p hit
    rw [argv]
    apply withPointers_word (by omega)
    rw [backwards,List.getElem?_append_left,List.getElem?_map,hit]
    · rfl
    rw [length_map]
    exact (List.getElem?_eq_some_iff.mp hit).1
  · intro p mem k inside
    have low := (bounds p mem).1
    rw [withPointers_above (by omega) (by omega)]
    exact withStrings_holds (by omega) (order.mem_iff.mp mem) k inside
  · rw [argv]
    apply withPointers_word (by omega)
    rw [backwards,List.getElem?_append_right,length_map,count]
    · change [0][args.length-args.length]? = some 0
      rw [Nat.sub_self]
      rfl
    rw [length_map,count]
    exact le_rfl
  · exact order.symm.pairwise (placed_apart (by omega)) Placed.Apart.symm
  · intro p mem
    have low := (bounds p mem).1
    refine ⟨?_,(bounds p mem).2⟩
    rw [argv,words]
    change _+4*(args.length+1) ≤ _
    omega
  · rw [argv,words]
    change _ ∧ _+4*(args.length+1) ≤ _
    omega
  have low : stackbase ≤ (launched args).argv := by
    rw [argv,words]
    omega
  change ((launched args).argv-(launched args).argv % 8) % 8 = 0 ∧
    (launched args).argv-(launched args).argv % 8 ≤ (launched args).argv ∧
    stackbase ≤ (launched args).argv-(launched args).argv % 8
  omega

lemma Passed.congr {ne : Nat → UInt8} {launch : Launch} (passed : Passed content args launch placed)
    (eq : ∀ va, stackbase ≤ va → va < userstack → ne va = content va) : Passed ne args launch placed := by
  have base := passed.base
  have argc := passed.argc
  have size : placed.length = args.length := by rw [←passed.texts,length_map]
  refine ⟨passed.texts,argc,?_,?_,?_,passed.apart,passed.above,base,passed.stackptr⟩
  · intro i p there
    have inside := (List.getElem?_eq_some_iff.mp there).1
    rw [←passed.pointers i p there]
    apply wordAt_congr
    intro j above below
    exact eq j (by omega) (by omega)
  · intro p member k inside
    have bounds := passed.above p member
    rw [eq _ (by omega) (by omega)]
    exact passed.strings p member k inside
  rw [←passed.last]
  apply wordAt_congr
  intro j above below
  exact eq j (by omega) (by omega)

def smallMachine : Machine := ⟨⟨smallSpace,true,flushed⟩,fun _ => 7,fun _ => free,0⟩
lemma storeBytes_writes {bytes : List UInt8} (sep : Separated as) (proc : Process as loaded content coremap s) :
    Ends (storeBytes random addr bytes s) (fun _ t => Process as loaded (put content addr bytes) coremap t)
      fun halt t => ∃ n < bytes.length, (¬ Accepts as loaded (addr+n) ∧ (halt = .errno .efault ∨ halt = .exits)) ∧
        Process as loaded (put content addr (bytes.take n)) coremap t := by
  induction bytes generalizing addr content s with
  | nil =>
    rw [put_nil]
    exact proc
  | cons b rest ih =>
    by_cases one : Accepts as loaded addr
    · refine ends_bind (storeByte_accepted sep proc one) fun _ t stored => ?_
      rw [put_cons]
      refine (ih stored).mono (fun _ _ => id) ?_
      rintro halt t ⟨n,lt,stop,wrote⟩
      rw [Nat.add_right_comm] at stop
      exact ⟨n+1,Nat.succ_lt_succ lt,stop,by rwa [take_succ_cons,put_cons]⟩
    -- the first store faults
    refine ends_bind (Q := fun _ _ => False) (ends_bind_get ?_) fun _ _ => False.elim
    rcases store_cases proc.valid (fun _ => random s.ticks) addr with ⟨_,bad⟩ | ⟨_,exits⟩ | ⟨_,mapped,writable,_⟩
    · simp only [bad]
      exact ⟨0,Nat.succ_pos _,⟨one,.inl rfl⟩,by rwa [take_zero,put_nil]⟩
    · simp only [exits]
      exact ⟨0,Nat.succ_pos _,⟨one,.inr rfl⟩,by rwa [take_zero,put_nil]⟩
    · rw [Unmapped,proc.space] at mapped
      rw [ReadOnly,proc.space,proc.loaded] at writable
      exact absurd ⟨mapped,writable⟩ one

theorem copyoutstr_writes {text : List UInt8} (random : Nat → Fin numTlb) (sep : Separated as)
    (proc : Process as loaded content coremap s) (some_ : 0 < maxlen) (short : maxlen < 2^31)
    (reach : min maxlen (userspacetop-userdest) = limit) : Ends (copyoutstr random text userdest maxlen s)
      (fun _ t => text.length < limit ∧ Process as loaded (put content userdest (text++[0])) coremap t)
      fun halt t => ∃ n ≤ text.length,
        (n = limit ∧ halt = .errno (if n < maxlen then .efault else .enametoolong) ∨
          n < limit ∧ ¬ Accepts as loaded (userdest+n) ∧ (halt = .errno .efault ∨ halt = .exits)) ∧
          Process as loaded (put content userdest (text.take n)) coremap t := by
  unfold copyoutstr
  by_cases kernel : userspacetop ≤ userdest
  · rw [show copycheck userdest maxlen = .error .efault by simp [copycheck,kernel]]
    exact ⟨0,Nat.zero_le _,.inl ⟨by omega,by rw [if_pos some_]⟩,by rwa [take_zero,put_nil]⟩
  rw [copycheck_stack some_ (not_le.mp kernel) short,reach]
  simp only [show min maxlen limit = limit by omega]
  refine ends_bind ((storeBytes_writes sep proc).mono (fun _ _ => id) ?_) fun _ t wrote => ?_
  · rintro halt t ⟨n,lt,stop,wrote⟩
    rw [length_take,length_append,length_singleton] at lt
    rw [take_take,Nat.min_eq_left (by omega),take_append_of_le_length (by omega)] at wrote
    exact ⟨n,by omega,.inr ⟨by omega,stop⟩,wrote⟩
  by_cases fits : text.length < limit
  · rw [take_of_length_le (by simpa using fits)] at wrote
    rw [if_pos fits]
    exact ⟨fits,wrote⟩
  rw [take_append_of_le_length (not_lt.mp fits)] at wrote
  rw [if_neg fits]
  split <;> exact ⟨limit,not_lt.mp fits,.inl ⟨rfl,by simp [*]⟩,wrote⟩

theorem copyoutstr_stores : Ends (copyoutstr (fun _ => ⟨3,by decide⟩) [104,105] 0x10000010 10 smallMachine)
    (fun _ t => Process smallSpace true (put (seen smallSpace smallMachine.memory) 0x10000010 [104,105,0])
      smallMachine.coremap t) fun _ _ => False := by
  refine (copyoutstr_writes _ smallSpace_separated ⟨⟨smallSpace_mapped,flushed_coherent _ _⟩,rfl,rfl,sees_seen _ _,rfl⟩
    (by decide) (by decide) rfl).mono (fun _ _ stored => stored.2) ?_
  rintro _ _ ⟨n,short,⟨eq,_⟩ | ⟨_,refused,_⟩,_⟩
  · simp [eq,userspacetop] at short
  · have accepted : ∀ n ≤ 2, Accepts smallSpace true (0x10000010+n) := by
      unfold Accepts
      decide +kernel
    exact refused (accepted n short)

end ToyOS.ArgumentStack
