import ToyOS.SfsOwnership

namespace ToyOS.Sfs
open Outcome UserSpace Transition ByteMemory Option

variable {s t start origin : State} {live : Nat → Bool} {i j n : Nat} {v : Vnode} {content : List UInt8}
  {uio : Uio} {c : Call} {calls : List Call}

-- A file as the array of its bytes. Past its end it has zeros.
structure Holds (s : State) (i : Nat) (content : List UInt8) : Prop where
  size : (node s i).size.toNat = content.length
  bytes : ∀ k, byte s i k = content.getD k 0

lemma Content.holds (eq : Content s t i) (holds : Holds s i content) : Holds t i content :=
  ⟨by rw [eq.size,holds.size],by rw [eq.byte]; exact holds.bytes⟩

def Suits (i : Nat) (s : State) : Call → Prop
  | .read j uio => j = i → uio.write = false ∧ uio.limit = none ∧ uio.offset < 2^31
  | .write j uio => j = i → uio.write = true ∧ uio.limit = none ∧ 1 ≤ uio.resid ∧
      uio.offset+uio.resid ≤ (15+128)*512 ∧ Room s i uio.offset uio.resid
  | _ => False

inductive Uses (i : Nat) (start : State) : List Call → State → Prop where
  | none : Uses i start [] start
  | more {calls : List Call} {s t : State} {c : Call} : Uses i start calls s → Suits i s c →
      step s c = some t → Uses i start (calls++[c]) t

def applied (i : Nat) (content : List UInt8) : Call → List UInt8
  | .write j uio => if j = i then overwrite 0 content uio.offset (chunk uio.data uio.moved uio.resid) else content
  | _ => content

def Answers (content : List UInt8) : Call → Uio → Prop
  | .read _ uio,after => ∃ n, chunk after.data uio.moved n = (content.drop uio.offset).take uio.resid ∧
      after.resid+n = uio.resid ∧ after.moved = uio.moved+n
  | .write _ uio,after => after.resid+uio.resid = uio.resid ∧ after.moved = uio.moved+uio.resid
  | _,_ => False

def About (i : Nat) : Call → Prop
  | .read j _ | .write j _ => j = i
  | _ => False

lemma chunk_byte (holds : Holds s i content) (one m : Nat) :
    chunk (byte s i) one (min m (content.length-one)) = (content.drop one).take m := by
  refine List.ext_getElem ?_ fun k left right => ?_
  · rw [chunk_length,List.length_take,List.length_drop]
  have inside : one+k < content.length := by
    rw [chunk_length] at left
    omega
  rw [List.getElem_take,List.getElem_drop,chunk_getElem,holds.bytes,List.getD_eq_getElem?_getD,
    List.getElem?_eq_getElem inside,Option.getD_some]

lemma Moved.progress (moved : Moved live i io n after) :
    after.uio.resid+n = io.uio.resid ∧ after.uio.moved = io.uio.moved+n := by
  have big := moved.enough
  rw [moved.resid]
  exact ⟨Nat.sub_add_cancel big,moved.done⟩

lemma ends_readArray (ok : Consistent s live) (quiet : Quiet s) (load : s.vnodes i = some v)
    (holds : Holds s i content) (bounded : content.length ≤ maxFile) (read : uio.write = false)
    (whole : uio.limit = none) (near : uio.offset < 2^31) :
    Ends (sfsRead i uio s) (fun after t => Calm s t ∧ Answers content (.read i uio) after) (Errs Never) := by
  have part : reach i ⟨s,uio⟩ = min uio.resid (content.length-uio.offset) := by
    rw [reach,if_neg (by rw [read]; exact Bool.false_ne_true),holds.size]
  refine (ends_read ok quiet load read).mono (fun after t done => ?_) (Errs.mono ?_)
  · rw [part] at done
    have close : uio.offset+min uio.resid (content.length-uio.offset) ≤ farthest := by
      have lt : maxFile+2^31 ≤ farthest := by decide
      omega
    refine ⟨done.calm read,_,?_,done.toMoved.progress⟩
    rw [show after.data = _ from done.read read close,chunk_splice]
    exact chunk_byte holds ..
  rintro e t ⟨after,hindered,_,inside⟩
  have pre : uio.offset < (node s i).size.toNat := inside read
  rw [holds.size] at pre
  rw [part] at hindered
  rcases hindered with ⟨_,limited⟩ | ⟨_,beyond⟩ | ⟨_,write,_⟩
  · exact limited whole
  · change maxFile < uio.offset+min uio.resid (content.length-uio.offset) at beyond
    omega
  · cases read.symm.trans write

lemma ends_writeArray (ok : Consistent s live) (quiet : Quiet s) (load : s.vnodes i = some v)
    (holds : Holds s i content) (write : uio.write) (whole : uio.limit = none)
    (fits : uio.offset+uio.resid ≤ maxFile) (room : Room s i uio.offset uio.resid) :
    Ends (sfsWrite i uio s) (fun after t => Touched live s i t ∧ Answers content (.write i uio) after ∧
      Holds t i (overwrite 0 content uio.offset (chunk uio.data uio.moved uio.resid))) (Errs Never) := by
  have close : uio.offset+uio.resid ≤ farthest := le_trans fits (by decide)
  refine (ends_write ok quiet load write).mono (fun after t done => ?_) (Errs.mono ?_)
  · refine ⟨done.touched,done.toMoved.progress,?_,fun k => ?_⟩
    · rw [overwrite_length,chunk_length,←holds.size]
      rw [show (node t i).size = _ from done.size,grownSize]
      have word : (BitVec.ofNat 32 (uio.offset+uio.resid)).toNat = uio.offset+uio.resid := by
        rw [BitVec.toNat_ofNat]
        exact Nat.mod_eq_of_lt (lt_of_le_of_lt fits (by decide))
      split
      · rename_i longer
        rw [word]
        exact (Nat.max_eq_right (le_of_lt longer.2)).symm
      rename_i notLonger
      have le : uio.offset+uio.resid ≤ (node s i).size.toNat :=
        Nat.le_of_not_lt fun longer => notLonger ⟨write,longer⟩
      exact (Nat.max_eq_left le).symm
    rw [show byte t i = _ from done.written write close,overwrite_get,chunk_length]
    refine ite_congr rfl (fun inside => ?_) fun _ => holds.bytes k
    refine (chunk_get ?_).symm
    have low : uio.offset ≤ k := inside.1
    have high : k < uio.offset+uio.resid := inside.2
    change k-uio.offset < uio.resid
    omega
  rintro e t ⟨after,hindered,_⟩
  rcases hindered with ⟨_,limited⟩ | ⟨_,beyond⟩ | ⟨_,_,full⟩
  · exact limited whole
  · exact Nat.not_lt_of_le fits beyond
  · exact full close room

-- A file that is open, on a volume that is in order.
structure OpenFile (s : State) (i : Nat) (content : List UInt8) : Prop where
  consistent : ∃ live, Consistent s live
  quiet : Quiet s
  loaded : Loaded s i
  file : i ≠ rootLocation
  holds : Holds s i content
  bounded : content.length ≤ maxFile

section
variable (open_ : OpenFile s i content)
include open_

lemma ends_asFile_open {α : Type} {m : Op α} {Q : α → State → Prop} {E : Fault → State → Prop} (rest : Ends (m s) Q E) :
    Ends (asFile i m s) Q E := by
  obtain ⟨live,ok⟩ := open_.consistent
  obtain ⟨v,load⟩ := open_.loaded
  exact ends_asFile load (ok.shape.only i (ok.fs.alive load) open_.file) rest

lemma OpenFile.call (suits : Suits i s c) (about : About i c) :
    Ends (call c s) (fun answer t => OpenFile t i (applied i content c) ∧
      (∀ j, Present s j → j ≠ i → Content s t j) ∧ ∃ after, answer = .moved after ∧ Answers content c after)
      (Errs Never) := by
  obtain ⟨live,ok⟩ := open_.consistent
  obtain ⟨v,load⟩ := open_.loaded
  cases c with
  | read j uio =>
    cases about
    obtain ⟨read,whole,near⟩ := suits rfl
    refine ends_map (ends_asFile_open open_ ((ends_readArray ok open_.quiet load open_.holds open_.bounded
      read whole near).imp ?_))
    rintro after t ⟨calm,answers⟩
    exact ⟨⟨⟨live,ok.calm calm⟩,calm.fixed.quiet open_.quiet,⟨v,calm.loaded load⟩,open_.file,
      (calm.alike i).content.holds open_.holds,open_.bounded⟩,fun k _ _ => (calm.alike k).content,after,rfl,answers⟩
  | write j uio =>
    cases about
    obtain ⟨write,whole,_,fits,room⟩ := suits rfl
    refine ends_map (ends_asFile_open open_ ((ends_writeArray ok open_.quiet load open_.holds
      write whole fits room).imp ?_))
    rintro after t ⟨touched,answers,holds⟩
    obtain ⟨w,held,_⟩ := touched.loaded load
    rw [applied,if_pos rfl]
    refine ⟨⟨⟨live,ok.touched touched open_.file⟩,touched.fixed.quiet open_.quiet,⟨w,held⟩,open_.file,holds,?_⟩,
      fun k here other => (touched.others k (ok.live_iff.mpr here) other).content,after,rfl,answers⟩
    rw [overwrite_length,chunk_length]
    exact Nat.max_le.mpr ⟨open_.bounded,fits⟩
  | _ => cases about

lemma OpenFile.returns (suits : Suits i s c) (about : About i c) :
    ∃ after t, returns s c = some (.ok (.moved after),t) ∧ Answers content c after ∧
      OpenFile t i (applied i content c) ∧ ∀ j, Present s j → j ≠ i → Content s t j := by
  have ends := returns_of_ends (P := False) ((open_.call suits about).imp_error
    (Errs.unless fun _ _ never => never))
  cases ret : Sfs.returns s c with
  | none =>
    rw [ret] at ends
    exact ends.elim
  | some pair =>
    obtain ⟨res,t⟩ := pair
    rw [ret] at ends
    cases res with
    | error errno => exact ends.elim
    | ok answer =>
      obtain ⟨later,rest,after,rfl,answers⟩ := ends
      exact ⟨after,t,rfl,answers,later,rest⟩

end

lemma io_touched (sound : Consistent s live) (quiet : Quiet s) (ran : step s c = some t)
    (io : (∃ uio, c = .read j uio) ∨ ∃ uio, c = .write j uio) : Touched live s j t := by
  have ends : Ends (call c s) (fun _ t => Touched live s j t) (Unless True fun _ t => Touched live s j t) := by
    rcases io with ⟨uio,rfl⟩ | ⟨uio,rfl⟩
    · exact ends_map ((unless_read sound quiet).mono (fun _ _ calm => calm.touched sound.fs)
        (Unless.mono (fun _ => trivial) fun _ _ calm => calm.touched sound.fs))
    exact ends_map ((unless_write sound quiet).mono (fun _ _ done => done.1)
      (Unless.mono (fun _ => trivial) fun _ _ done => done.1))
  have touched := returns_of_ends ends
  obtain ⟨⟨res,_⟩,ret,rfl⟩ := map_eq_some_iff.mp ran
  rw [ret] at touched
  cases res with
  | ok answer => exact touched
  | error errno => exact touched

lemma OpenFile.apart (open_ : OpenFile s i content) (ne : i ≠ j) (ran : step s c = some t)
    (io : (∃ uio, c = .read j uio) ∨ ∃ uio, c = .write j uio) : OpenFile t i content := by
  obtain ⟨live,ok⟩ := open_.consistent
  obtain ⟨v,load⟩ := open_.loaded
  obtain ⟨after,evolved⟩ := step_evolved ok open_.quiet ran
  have touched := io_touched ok open_.quiet ran io
  obtain ⟨w,held,_⟩ := touched.loaded load
  exact ⟨⟨after,evolved.consistent⟩,evolved.fixed.quiet open_.quiet,⟨w,held⟩,open_.file,
    (touched.others i (ok.fs.alive load) ne).content.holds open_.holds,open_.bounded⟩

lemma OpenFile.step (open_ : OpenFile s i content) (suits : Suits i s c) (ran : step s c = some t) :
    OpenFile t i (applied i content c) := by
  by_cases about : About i c
  · obtain ⟨after,u,ret,_,later,_⟩ := open_.returns suits about
    rw [Sfs.step,ret] at ran
    cases ran
    exact later
  cases c with
  | read j uio => exact open_.apart (fun eq => about eq.symm) ran (.inl ⟨uio,rfl⟩)
  | write j uio =>
    rw [applied,if_neg (show ¬j = i from about)]
    exact open_.apart (fun eq => about eq.symm) ran (.inr ⟨uio,rfl⟩)
  | _ => cases suits

lemma Uses.openFile (uses : Uses i start calls s) (open_ : OpenFile start i []) :
    OpenFile s i (calls.foldl (applied i) []) := by
  induction uses with
  | none => exact open_
  | more _ suits ran ih =>
    rw [List.foldl_append]
    exact ih.step suits ran

lemma created_open {name : CString} (sound : Consistent s live) (quiet : Quiet s)
    (fresh : directory s name.bytes = none)
    (created : returns s (.creat rootLocation name excl) = some (.ok (.vnode i),t)) : OpenFile t i [] := by
  have ends : Ends (call (.creat rootLocation name excl) s)
      (fun answer t => ∃ ino, answer = .vnode ino ∧ Evolves live s IsRoot t ∧ Loaded t ino ∧ live ino = false)
      (Unless True fun _ _ => True) :=
    ends_map (unless_asDir sound (fun _ => trivial) trivial fun v load _ =>
      (ends_creat sound quiet load name.ended excl).mono
        (fun ino t done => ⟨ino,rfl,done.1,done.2.2.1,done.2.2.2 fresh⟩) (Errs.unless fun _ _ _ => trivial))
  have made := returns_of_ends ends
  rw [created] at made
  obtain ⟨ino,eq,⟨after,evolved⟩,load,dead⟩ := made
  cases eq
  have alive : after i := evolved.consistent.live_iff.mpr (.inr (.inl load))
  obtain ⟨size,bare⟩ := evolved.new i alive dead
  refine ⟨⟨after,evolved.consistent⟩,evolved.fixed.quiet quiet,load,?_,⟨by rw [size]; rfl,fun k => ?_⟩,Nat.zero_le _⟩
  · rintro rfl
    rw [sound.shape.root] at dead
    cases dead
  rw [byte,List.getD_nil]
  split
  · rfl
  rename_i p _
  exact if_pos (bare p)

theorem file_is_array {name : CString} {excl : Bool} (new : New n origin) (path : Reached step Free origin s)
    (fresh : directory s name.bytes = none)
    (created : returns s (.creat rootLocation name excl) = some (.ok (.vnode i),start))
    (uses : Uses i start calls t) :
    Holds t i (calls.foldl (applied i) []) ∧
    ∀ c, Suits i t c → About i c → ∃ after u, returns t c = some (.ok (.moved after),u) ∧
      Answers (calls.foldl (applied i) []) c after ∧ Holds u i ((calls++[c]).foldl (applied i) []) ∧
      ∀ j, Present t j → j ≠ i → (node u j).size = (node t j).size ∧ byte u j = byte t j := by
  obtain ⟨⟨live,consistent⟩,quiet,_⟩ := reached_consistent new path
  have open_ := uses.openFile (created_open consistent quiet fresh created)
  refine ⟨open_.holds,fun c suits about => ?_⟩
  obtain ⟨after,u,returned,answers,later,others⟩ := open_.returns suits about
  rw [List.foldl_append]
  exact ⟨after,u,returned,answers,later.holds,fun j present other =>
    ⟨(others j present other).size,(others j present other).byte⟩⟩

def patch : Uio := uioKinit (fun _ => 7) 600 10 true

def madeVnode (result : Except Errno Answer) : Option Nat :=
  match result with
  | .ok (.vnode i) => some i
  | _ => none

lemma patch_run : ∃ s start t, run step smallVolume [.getroot] = some s ∧ directory s nameA.bytes = none ∧
    returns s (.creat rootLocation nameA false) = some (.ok (.vnode 3),start) ∧
    step start (.write 3 patch) = some t ∧ Room start 3 10 600 := by
  have ran : ((run step smallVolume [.getroot]).bind fun s =>
      (returns s (.creat rootLocation nameA false)).bind fun made => (step made.2 (.write 3 patch)).map fun _ =>
        (directory s nameA.bytes,madeVnode made.1,
          decide (demand made.2 3 0 2 ≤ spare made.2))) = some (none,some 3,true) := by decide +kernel
  obtain ⟨s,one,two⟩ := bind_eq_some_iff.mp ran
  obtain ⟨⟨res,start⟩,made,third⟩ := bind_eq_some_iff.mp two
  obtain ⟨t,written,shown⟩ := map_eq_some_iff.mp third
  simp only [Prod.mk.injEq,decide_eq_true_eq] at shown
  refine ⟨s,start,t,one,shown.1,?_,written,shown.2.2⟩
  rcases res with errno | answer
  · cases shown.2.1
  cases answer with
  | vnode i =>
    cases shown.2.1
    exact made
  | _ => cases shown.2.1

theorem file_is_array_patch : ∃ start t after u,
    step start (.write 3 patch) = some t ∧ Holds t 3 (overwrite 0 [] 10 (List.replicate 600 7)) ∧
    returns t (.read 3 (uioKinit zeros 1000 5 false)) = some (.ok (.moved after),u) ∧
    Answers (overwrite 0 [] 10 (List.replicate 600 7)) (.read 3 (uioKinit zeros 1000 5 false)) after := by
  obtain ⟨s,start,t,ran,fresh,created,written,room⟩ := patch_run
  have uses : Uses 3 start [.write 3 patch] t := .more .none (fun _ => ⟨rfl,rfl,by decide,by decide,room⟩) written
  have same : [Call.write 3 patch].foldl (applied 3) [] = overwrite 0 [] 10 (List.replicate 600 7) := by decide +kernel
  obtain ⟨holds,answer⟩ := file_is_array smallVolume_new (run_reached ran) fresh created uses
  obtain ⟨after,u,returned,answers,_⟩ := answer (.read 3 (uioKinit zeros 1000 5 false))
    (fun _ => ⟨rfl,rfl,by decide⟩) rfl
  rw [same] at holds answers
  exact ⟨start,t,after,u,written,holds,returned,answers⟩
end ToyOS.Sfs
