import ToyOS.SfsVnodes

namespace ToyOS.Sfs
open Function Outcome Tally UserSpace Option

variable {s t u : State} {live after later : Nat → Bool} {i j ino slot : Nat} {v w : Vnode} {name : List UInt8}
  {Changed : Nat → Prop} {E : Fault → State → Prop}

-- What a call may do to the files: those that go are freed, new ones are empty, others are not changed.
structure Evolved (live : Nat → Bool) (s : State) (Changed : Nat → Prop) (after : Nat → Bool) (t : State) :
    Prop where
  consistent : Consistent t after
  fixed : Fixed s t
  contents : ∀ j, live j = true → after j = true → ¬Changed j → Content s t j
  gone : ∀ j, live j = true → after j = false → Freed s j t
  new : ∀ j, after j = true → live j = false → (node t j).size = 0 ∧ ∀ p, pointer t j p = 0

def Untouched (_ : Nat) : Prop := False

lemma evolved_steady (ok : Consistent t live) (fixed : Fixed s t)
    (contents : ∀ j, live j → ¬Changed j → Content s t j) : Evolved live s Changed live t := by
  refine ⟨ok,fixed,fun j lives _ => contents j lives,fun j lives dead => ?_,fun j lives dead => ?_⟩
  · rw [lives] at dead
    cases dead
  rw [lives] at dead
  cases dead

lemma evolved_calm (ok : Consistent s live) (calm : Calm s t) : Evolved live s Changed live t :=
  evolved_steady (ok.calm calm) calm.fixed fun j _ _ => (calm.alike j).content

lemma Fetched.evolved (got : Fetched live s ino t) : Evolved live s Changed live t :=
  evolved_steady got.consistent got.fixed fun j _ _ => (got.alike j).content

lemma Fetched.after_calm (got : Fetched live t ino u) (calm : Calm s t) : Fetched live s ino u where
  consistent := got.consistent
  fixed := calm.fixed.trans got.fixed
  alike j := (calm.alike j).trans (got.alike j)
  freemap := got.freemap.trans calm.freemap
  others j other := (got.others j other).trans (congrFun calm.vnodes j)
  refcount := by
    rw [←calm.vnodes]
    exact got.refcount

lemma Dropped.evolved (dropped : Dropped live s i after t) : Evolved live s Changed after t := by
  refine ⟨dropped.consistent,dropped.fixed,fun j _ stays _ => (dropped.alike j stays).content,dropped.gone,?_⟩
  intro j stays dead
  rw [dropped.older j stays] at dead
  cases dead

lemma Evolved.before (evolved : Evolved live t Changed after u) (fixed : Fixed s t)
    (contents : ∀ j, live j → ¬Changed j → Content s t j) (spare : ∀ j, Changed j → after j) :
    Evolved live s Changed after u := by
  refine ⟨evolved.consistent,fixed.trans evolved.fixed,fun j lives stays unchanged =>
    (contents j lives unchanged).trans (evolved.contents j lives stays unchanged),fun j lives dead => ?_,evolved.new⟩
  have freed := evolved.gone j lives dead
  have eq := contents j lives fun changed => by
    rw [spare j changed] at dead
    cases dead
  refine ⟨freed.inode,fun p hit => ?_⟩
  rw [←eq.pointer] at hit ⊢
  exact freed.blocks p hit

def IsRoot (j : Nat) : Prop := j = rootLocation

-- The directory as its callers see it: a map, and what each call makes of it.
abbrev Names := List UInt8 → Option Nat

def notEntered (names : Names) (name : List UInt8) (errno : Errno) : Prop :=
  errno = .eexist ∧ (names name).isSome = true ∨ names name = none ∧
    (errno = .enametoolong ∧ nameLen ≤ name.length ∨
      (errno = .efbig ∨ errno = .enospc) ∧ name.length < nameLen)

def lookupNames (names : Names) (name : List UInt8) (result : Except Errno Nat) (now : Names) : Prop :=
  now = names ∧ match result with
  | .ok ino => names name = some ino
  | .error errno => errno = .enoent ∧ names name = none

def creatNames (names : Names) (name : List UInt8) (excl : Bool) (full : Prop) (result : Except Errno Nat)
    (now : Names) : Prop :=
  match result with
  | .ok ino => excl = false ∧ names name = some ino ∧ now = names ∨
    names name = none ∧ name.length < nameLen ∧ now = update names name (some ino)
  | .error errno => now = names ∧ (errno = .eexist ∧ excl = true ∧ (names name).isSome = true ∨
    names name = none ∧ (notEntered names name errno ∨ errno = .enospc ∧ full))

def linkNames (names : Names) (name : List UInt8) (file : Nat) (result : Except Errno Unit) (now : Names) :
    Prop :=
  match result with
  | .ok _ => names name = none ∧ name.length < nameLen ∧ now = update names name (some file)
  | .error errno => now = names ∧ notEntered names name errno

def removeNames (names : Names) (name : List UInt8) (result : Except Errno Unit) (now : Names) : Prop :=
  match result with
  | .ok _ => (names name).isSome = true ∧ now = update names name none
  | .error errno => now = names ∧ errno = .enoent ∧ names name = none

def renameNames (names : Names) (n1 n2 : List UInt8) (result : Except Errno Unit) (now : Names) : Prop :=
  match result with
  | .ok _ => (names n1).isSome = true ∧ names n2 = none ∧ n2.length < nameLen ∧
    now = update (update names n2 (names n1)) n1 none
  | .error errno => now = names ∧ (errno = .enoent ∧ names n1 = none ∨
    (names n1).isSome = true ∧ notEntered names n2 errno)

section
variable (unlinked : Unlinked live s name errno t)
include unlinked

lemma Unlinked.notEntered (shape : Shape s live) : notEntered (directory s) name errno := by
  rcases unlinked.reason with ⟨exists_,k,ino,binds⟩ | ⟨fresh,rest⟩
  · exact .inl ⟨exists_,by rw [(directory_eq_some shape).mpr ⟨k,binds⟩]; rfl⟩
  · exact .inr ⟨directory_eq_none.mpr fresh,rest⟩

lemma Unlinked.evolved (ok : Consistent s live) : Evolved live s IsRoot live t :=
  evolved_steady (ok.kept unlinked.fs unlinked.kept) unlinked.kept.fixed
    fun j lives other => (unlinked.kept.others j lives other).content

lemma Unlinked.directory : directory t = directory s :=
  directory_file unlinked.kept.same

end

lemma ends_lookonce (ok : Consistent s live) (quiet : Quiet s) (load : s.vnodes rootLocation = some v) :
    Ends (sfsLookonce rootLocation name s) (fun hit t => Binds s hit.2 name hit.1 ∧ Fetched live s hit.1 t)
      (Errs fun e t => e = .enoent ∧ directory s name = none ∧ Calm s t) := by
  refine ends_bind (ends_dirFindname ok.fs quiet ok.shape load) ?_
  rintro found t ⟨calm,sound⟩
  cases hit : found.hit with
  | none => exact ends_fail ⟨rfl,directory_eq_none.mpr fun k ino binds => sound.miss hit k ino binds.1 binds,calm⟩
  | some pair =>
    obtain ⟨ino,slot⟩ := pair
    have binds := (sound.hit ino slot hit).2
    have alive := ok.shape.named slot name ino binds
    refine ends_bind (ends_loadvnode (ok.calm calm) (calm.fixed.quiet quiet) alive) fun _ u got => ?_
    have got := got.after_calm calm
    obtain ⟨w,held⟩ := got.loaded
    have counted := ok.counted ino alive
    have some_ : 0 < links s ino := tally_pos.mpr ⟨slot,binds.1,binds.2.1⟩
    rw [←(got.alike ino).node,node_loaded held] at counted
    refine ends_bind_vnodeOf held (ends_bind_kassert (bne_iff_ne.mpr fun zero => ?_) (ends_pure ⟨binds,got⟩))
    rw [zero] at counted
    change 0 = _ at counted
    omega

lemma Fetched.directory (got : Fetched live s ino t) : directory t = directory s :=
  directory_alike (got.alike rootLocation)

lemma ends_lookup (sound : Consistent s live) (quiet : Quiet s) (load : s.vnodes rootLocation = some v) :
    Ends (sfsLookup rootLocation name s)
      (fun ino t => Fetched live s ino t ∧ lookupNames (directory s) name (.ok ino) (directory t))
      (Errs fun e t => Calm s t ∧ lookupNames (directory s) name (.error e) (directory t)) := by
  refine ends_bind ((ends_lookonce sound quiet load).imp_error (Errs.mono ?_)) ?_
  · rintro e t ⟨miss,none_,calm⟩
    exact ⟨calm,directory_alike (calm.alike _),miss,none_⟩
  rintro ⟨ino,slot⟩ t ⟨binds,got⟩
  exact ends_pure ⟨got,got.directory,(directory_eq_some sound.shape).mpr ⟨slot,binds⟩⟩

-- The entries have changed, and the link count of the inode of the entry.
structure Relinked (live : Nat → Bool) (s t : State) : Prop where
  consistent : Consistent t live
  fixed : Fixed s t
  contents : ∀ j, live j = true → j ≠ rootLocation → Content s t j
  refs : ∀ j, (t.vnodes j).map Vnode.refcount = (s.vnodes j).map Vnode.refcount

lemma Relinked.loaded (relinked : Relinked live s t) (load : s.vnodes i = some v) :
    ∃ w, t.vnodes i = some w ∧ w.refcount = v.refcount := by
  have eq := relinked.refs i
  rw [load] at eq
  exact map_eq_some_iff.mp eq

lemma Recount.relinked (recount : Recount v w) (touched : Touched live s rootLocation t)
    (load : t.vnodes ino = some v) (ok : Consistent (t.putVnode ino w) live) : Relinked live s (t.putVnode ino w) :=
  ⟨ok,touched.fixed.trans ⟨rfl,rfl,rfl,rfl⟩,
    fun j lives other => (touched.others j lives other).content.trans (recount.content touched.fs load j),
    fun j => (refs_putVnode load recount.refs j).trans (touched.refs j)⟩

lemma Relinked.evolved (relinked : Relinked live s t) : Evolved live s IsRoot live t :=
  evolved_steady relinked.consistent relinked.fixed relinked.contents

-- A new entry for an inode whose vnode is loaded.
structure Entered (live : Nat → Bool) (s : State) (name : List UInt8) (ino : Nat) (t : State) : Prop
    extends Relinked live s t where
  names : directory t = update (directory s) name (some ino)
  fresh : directory s name = none
  short : name.length < nameLen
  binds : ∀ k other j, Binds s k other j → Binds t k other j

lemma Consistent.entered (ok : Consistent s live) (ran : 0 ∉ name) (alive : live ino)
    (linked : Linked live s name ino slot t) (load : t.vnodes ino = some v) :
    Entered live s name ino (t.putVnode ino {v with inode := v.inode.addLink,dirty := true}) := by
  have word := ok.word alive
  have nz := ok.fs.live_ne_zero alive
  have touched := linked.written.touched
  have recount : Recount v {v with inode := v.inode.addLink,dirty := true} := ⟨rfl,rfl,rfl,rfl,rfl,rfl⟩
  have eq := recount.content touched.fs load rootLocation
  refine ⟨recount.relinked touched load (ok.linked ran alive linked load),?_,?_,linked.short,?_⟩
  · rw [directory_congr eq.size eq.byte]
    exact linked.directory ok.shape ran alive word nz
  · exact directory_eq_none.mpr linked.fresh
  intro k other j binds
  exact (binds_congr eq.size eq.byte).mpr ((linked.binds ok.shape.whole ran word nz).mpr (.inr binds))

-- An entry is erased.
structure Struck (live : Nat → Bool) (s : State) (name : List UInt8) (t : State) : Prop
    extends Relinked live s t where
  names : directory t = update (directory s) name none

lemma Consistent.struck (ok : Consistent s live) (binds : Binds s slot name ino) (erased : Erased live s slot t)
    (load : t.vnodes ino = some v) : v.inode.linkcount ≠ 0 ∧
      Struck live s name (t.putVnode ino {v with inode := v.inode.dropLink,dirty := true}) := by
  have recount : Recount v {v with inode := v.inode.dropLink,dirty := true} := ⟨rfl,rfl,rfl,rfl,rfl,rfl⟩
  have eq := recount.content erased.touched.fs load rootLocation
  obtain ⟨nz,after⟩ := ok.unlinked binds erased load
  refine ⟨nz,recount.relinked erased.touched load after,?_⟩
  rw [directory_congr eq.size eq.byte]
  exact erased.directory ok.shape binds

lemma ends_link (sound : Consistent s live) (quiet : Quiet s) (load : s.vnodes rootLocation = some v)
    (ran : 0 ∉ name) (held : s.vnodes ino = some w) : Ends (sfsLink rootLocation name ino s)
      (fun res t => Evolved live s IsRoot live t ∧ linkNames (directory s) name ino (.ok res) (directory t))
      (Errs fun e t => Evolved live s IsRoot live t ∧ linkNames (directory s) name ino (.error e) (directory t)) := by
  refine ends_bind ((ends_dirLink sound.fs quiet sound.shape load).imp_error
      (Errs.mono fun _ _ unlinked => ⟨unlinked.evolved sound,unlinked.directory,
      unlinked.notEntered sound.shape⟩)) fun slot t linked => ?_
  obtain ⟨x,hit,_⟩ := linked.written.touched.loaded held
  have entered := sound.entered ran (sound.fs.alive held) linked hit
  exact ends_updateInode hit ⟨entered.toRelinked.evolved,entered.fresh,entered.short,entered.names⟩

section
variable (made : Made live s ino t)
include made

lemma Made.old (lives : live j) : update live ino true j ∧ j ≠ ino := by
  have ne : j ≠ ino := by
    rintro rfl
    rw [made.dead] at lives
    cases lives
  exact ⟨(update_of_ne ne ..).trans lives,ne⟩

lemma Made.undone (ok : Consistent s live) (unlinked : Unlinked (update live ino true) t name errno u)
    (dropped : Dropped (update live ino true) u ino after x) : Evolved live s IsRoot after x ∧
      directory x = directory s := by
  have root := made.old ok.shape.root
  have stays : after rootLocation := (dropped.only _ root.2).trans root.1
  have names : directory x = directory s := by
    rw [directory_alike (dropped.alike _ stays),unlinked.directory,directory_alike (made.alike _ ok.shape.root)]
  have dead : after ino = false := by
    by_contra lives
    rw [Bool.not_eq_false] at lives
    obtain ⟨w,held,one⟩ := unlinked.kept.apart.loaded made.self
    have self := dropped.self
    rw [held,Option.map_some,Option.bind_some,one] at self
    rcases dropped.consistent.reachable ino lives with top | ⟨y,hit⟩ | linked
    · exact root.2 top.symm
    · rw [hit] at self
      cases self
    have eq : links x = links s := by
      rw [links_alike (dropped.alike _ stays),links_congr (congrArg File.size unlinked.kept.same)
        (congrArg File.bytes unlinked.kept.same),links_alike (made.alike _ ok.shape.root)]
    rw [eq,ok.unnamed made.dead made.nonzero] at linked
    cases linked
  refine ⟨⟨dropped.consistent,(made.fixed.trans unlinked.kept.fixed).trans dropped.fixed,?_,?_,?_⟩,names⟩
  · intro j lives here ne
    have still := made.old lives
    exact ((made.alike j lives).trans ((unlinked.kept.others j still.1 ne).trans (dropped.alike j here))).content
  · intro j lives gone
    have still := made.old lives
    rw [dropped.only j still.2,still.1] at gone
    cases gone
  intro j here new
  have known := dropped.older j here
  rcases eq_or_ne j ino with rfl | ne
  · rw [dead] at here
    cases here
  rw [update_of_ne ne,new] at known
  cases known

lemma Made.entered (ok : Consistent s live) (entered : Entered (update live ino true) t name ino u) :
    Evolved live s IsRoot (update live ino true) u ∧ directory u = update (directory s) name (some ino) := by
  have root := directory_alike (made.alike _ ok.shape.root)
  refine ⟨⟨entered.consistent,made.fixed.trans entered.fixed,?_,?_,?_⟩,by rw [entered.names,root]⟩
  · intro j lives _ other
    exact (made.alike j lives).content.trans (entered.contents j (made.old lives).1 other)
  · intro j lives gone
    rw [(made.old lives).1] at gone
    cases gone
  intro j here new
  have eq : j = ino := by
    by_contra other
    rw [update_of_ne other,new] at here
    cases here
  subst eq
  have content := entered.contents j here fun top => (made.old ok.shape.root).2 top.symm
  have fresh := node_loaded made.self
  refine ⟨by rw [content.size,fresh]; rfl,fun p => ?_⟩
  rw [content.pointer]
  exact pointer_new fresh p

end

lemma ends_creat (consistent : Consistent s live) (quiet : Quiet s) (load : s.vnodes rootLocation = some v)
    (ran : 0 ∉ name) (excl : Bool) : Ends (sfsCreat rootLocation name excl s)
      (fun ino t => (∃ after, Evolved live s IsRoot after t) ∧
        creatNames (directory s) name excl (spare s = 0) (.ok ino) (directory t) ∧
        Loaded t ino ∧ (directory s name = none → live ino = false))
      (Errs fun e t => (∃ after, Evolved live s IsRoot after t) ∧
        creatNames (directory s) name excl (spare s = 0) (.error e) (directory t)) := by
  refine ends_bind (ends_dirFindname consistent.fs quiet consistent.shape load) ?_
  rintro found t ⟨calm,sound⟩
  have now := consistent.calm calm
  have quietly := calm.fixed.quiet quiet
  have eq : directory t = directory s := directory_alike (calm.alike _)
  cases hit : found.hit with
  | some pair =>
    obtain ⟨ino,slot⟩ := pair
    have binds := (sound.hit ino slot hit).2
    have there := (directory_eq_some consistent.shape).mpr ⟨slot,binds⟩
    dsimp only
    split
    · rename_i exclusive
      exact ends_fail ⟨⟨live,evolved_calm consistent calm⟩,eq,.inl ⟨rfl,exclusive,by rw [there]; rfl⟩⟩
    rename_i shared
    refine ends_bind (ends_loadvnode now quietly (consistent.shape.named slot name ino binds))
      fun _ u got => ends_pure ?_
    have got := got.after_calm calm
    refine ⟨⟨live,got.evolved⟩,.inl ⟨by rwa [Bool.not_eq_true] at shared,there,got.directory⟩,
      got.loaded,fun none_ => ?_⟩
    rw [none_] at there
    cases there
  | none =>
    have none_ : directory s name = none := directory_eq_none.mpr fun k ino binds => sound.miss hit k ino binds.1 binds
    refine ends_bind ((ends_makeobj now quietly).imp_error (Errs.mono ?_)) ?_
    · rintro e _ ⟨rfl,rfl,full⟩
      rw [spare_congr calm.fixed.nblocks calm.freemap] at full
      exact ⟨⟨live,evolved_calm consistent calm⟩,eq,.inr ⟨none_,.inr ⟨rfl,full⟩⟩⟩
    intro ino u made
    have made : Made live s ino u := ⟨made.consistent,made.dead,made.nonzero,calm.fixed.trans made.fixed,
      fun j lives => (calm.alike j).trans (made.alike j lives),made.self,
      fun j other => (made.others j other).trans (congrFun calm.vnodes j)⟩
    have root := made.old consistent.shape.root
    have held := (made.others _ root.2).trans load
    have again : directory u = directory s := directory_alike (made.alike _ consistent.shape.root)
    refine ends_bind (ends_attempt (Q := fun res x => match res with
      | .ok slot => Linked (update live ino true) u name ino slot x
      | .error errno => Unlinked (update live ino true) u name errno x)
      (ends_dirLink made.consistent.fs (made.fixed.quiet quiet) made.consistent.shape held)
      (fun _ _ linked => linked) fun _ _ unlinked => unlinked) ?_
    intro res x ends
    cases res with
    | error errno =>
      have later := made.consistent.kept ends.fs ends.kept
      obtain ⟨w,there,_⟩ := ends.kept.apart.loaded made.self
      refine ends_bind (ends_decref later ((made.fixed.trans ends.kept.fixed).quiet quiet) there) ?_
      rintro _ y ⟨after,dropped⟩
      obtain ⟨evolved,names⟩ := made.undone consistent ends dropped
      refine ends_fail ⟨⟨after,evolved⟩,names,.inr ⟨none_,.inl ?_⟩⟩
      rw [←again]
      exact ends.notEntered made.consistent.shape
    | ok slot =>
      obtain ⟨w,there,_⟩ := ends.written.touched.loaded made.self
      have entered := made.consistent.entered ran (update_self ..) ends there
      obtain ⟨evolved,names⟩ := made.entered consistent entered
      exact ends_bind (ends_updateInode (Q := fun _ y => Evolved live s IsRoot (update live ino true) y ∧
        directory y = update (directory s) name (some ino) ∧ Loaded y ino) there
        ⟨evolved,names,_,update_self ..⟩)
        fun _ y done => ends_pure ⟨⟨_,done.1⟩,.inr ⟨none_,ends.short,done.2.1⟩,done.2.2,fun _ => made.dead⟩

lemma Relinked.dropped (relinked : Relinked live s t) (dropped : Dropped live t i after u) :
    Evolved live s IsRoot after u ∧ directory u = directory t := by
  have stays := dropped.consistent.shape.root
  refine ⟨dropped.evolved.before relinked.fixed relinked.contents ?_,directory_alike (dropped.alike _ stays)⟩
  rintro j rfl
  exact stays

lemma Fetched.relinked (got : Fetched live s ino t) (relinked : Relinked live t u) {after : Nat → Bool}
    (evolved : Evolved live u IsRoot after x) : Evolved live s IsRoot after x := by
  refine evolved.before (got.fixed.trans relinked.fixed) (fun j lives other =>
    (got.alike j).content.trans (relinked.contents j lives other)) ?_
  rintro j rfl
  exact evolved.consistent.shape.root

lemma ends_strike (sound : Consistent s live) (quiet : Quiet s) (held : s.vnodes ino = some w)
    (load : s.vnodes rootLocation = some v) (binds : Binds s slot name ino) {errors : Errno → Op PUnit} :
    Ends ((attempt (sfsDirUnlink rootLocation slot) >>= fun res => match res with
      | .ok _ => do
        dropLink ino
        vnodeDecref ino
      | .error errno => errors errno) s)
      (fun _ t => ∃ after, Evolved live s IsRoot after t ∧ directory t = update (directory s) name none) E := by
  refine ends_bind (ends_attempt (Q := fun res t => ∃ a, res = .ok a ∧ Erased live s slot t)
    (ends_dirUnlink sound.fs quiet sound.shape load binds.1 (binds.2.1.symm ▸ binds.2.2.1))
    (fun a _ erased => ⟨a,rfl,erased⟩) fun _ _ never => never.elim) ?_
  rintro _ t ⟨_,rfl,erased⟩
  obtain ⟨x,hit,_⟩ := erased.touched.loaded held
  obtain ⟨nz,struck⟩ := sound.struck binds erased hit
  refine ends_bind (Q := fun _ u => Struck live s name u) (ends_bind_vnodeOf hit
    (ends_bind_kassert (bne_iff_ne.mpr nz) (ends_updateInode hit struck))) ?_
  intro _ u struck
  obtain ⟨y,again,_⟩ := struck.loaded held
  refine (ends_decref struck.consistent (struck.fixed.quiet quiet) again).imp ?_
  rintro _ x ⟨after,dropped⟩
  obtain ⟨evolved,names⟩ := struck.toRelinked.dropped dropped
  exact ⟨after,evolved,names.trans struck.names⟩

lemma Fetched.evolves (got : Fetched live s ino t) (evolved : Evolved live t IsRoot after x) :
    Evolved live s IsRoot after x := by
  refine evolved.before got.fixed (fun j _ _ => (got.alike j).content) ?_
  rintro j rfl
  exact evolved.consistent.shape.root

lemma Fetched.binds (got : Fetched live s ino t) (binds : Binds s k name j) : Binds t k name j :=
  (binds_alike (got.alike rootLocation)).mpr binds

lemma ends_remove (sound : Consistent s live) (quiet : Quiet s) (load : s.vnodes rootLocation = some v) :
    Ends (sfsRemove rootLocation name s) (fun res t => (∃ after, Evolved live s IsRoot after t) ∧
        removeNames (directory s) name (.ok res) (directory t))
      (Errs fun e t => (∃ after, Evolved live s IsRoot after t) ∧
        removeNames (directory s) name (.error e) (directory t)) := by
  refine ends_bind ((ends_lookonce sound quiet load).imp_error (Errs.mono ?_)) ?_
  · rintro e t ⟨miss,none_,calm⟩
    exact ⟨⟨live,evolved_calm sound calm⟩,directory_alike (calm.alike _),miss,none_⟩
  rintro ⟨victim,slot⟩ t ⟨binds,got⟩
  obtain ⟨w,held⟩ := got.loaded
  obtain ⟨x,root⟩ := got.keeps load
  refine (ends_strike got.consistent (got.fixed.quiet quiet) held root (got.binds binds)).imp ?_
  rintro _ u ⟨after,evolved,names⟩
  refine ⟨⟨after,got.evolves evolved⟩,?_,by rw [names,got.directory]⟩
  rw [(directory_eq_some sound.shape).mpr ⟨slot,binds⟩]
  rfl

def Unless {σ : Type} (P : Prop) (R : Errno → σ → Prop) : Fault → σ → Prop
  | .panic,_ => P
  | .errno errno,t => R errno t

lemma ends_rename (sound : Consistent s live) (quiet : Quiet s) (load : s.vnodes rootLocation = some v) (ran : 0 ∉ n2) :
    Ends (sfsRename rootLocation n1 n2 s)
      (fun res t => directory s n1 ≠ some rootLocation ∧ (∃ after, Evolved live s IsRoot after t) ∧
        renameNames (directory s) n1 n2 (.ok res) (directory t))
      (Unless (directory s n1 = some rootLocation) fun e t => directory s n1 ≠ some rootLocation ∧
        (∃ after, Evolved live s IsRoot after t) ∧ renameNames (directory s) n1 n2 (.error e) (directory t)) := by
  refine ends_bind_kassert rfl (ends_bind ((ends_lookonce sound quiet load).imp_error ?_) ?_)
  · intro e t error
    cases e with
    | panic => exact error.elim
    | errno errno =>
      obtain ⟨miss,none_,calm⟩ := error
      refine ⟨?_,⟨live,evolved_calm sound calm⟩,directory_alike (calm.alike _),.inl ⟨miss,none_⟩⟩
      rw [none_]
      exact (some_ne_none rootLocation).symm
  rintro ⟨g1,slot1⟩ t ⟨binds,got⟩
  have hit := (directory_eq_some sound.shape).mpr ⟨slot1,binds⟩
  have alive := sound.shape.named slot1 n1 g1 binds
  obtain ⟨w,held⟩ := got.loaded
  obtain ⟨x,root⟩ := got.keeps load
  have quietly := got.fixed.quiet quiet
  refine ends_bind_vnodeOf held ?_
  by_cases top : g1 = rootLocation
  · have dir : (w.inode.type == typeFile) = false := by
      have dir := got.consistent.shape.dir
      rw [←top,node_loaded held] at dir
      rw [dir]
      rfl
    rw [dir]
    exact hit.trans (congrArg some top)
  have file : w.inode.type = typeFile := by
    rw [←node_loaded held]
    exact got.consistent.shape.only g1 alive top
  have other : directory s n1 ≠ some rootLocation := by
    rw [hit]
    exact fun eq => top (some.inj eq)
  refine ends_bind_kassert (beq_iff_eq.mpr file) ?_
  refine ends_bind (ends_attempt (Q := fun res u => match res with
    | .ok slot => Linked live t n2 g1 slot u
    | .error errno => Unlinked live t n2 errno u)
    (ends_dirLink got.consistent.fs quietly got.consistent.shape root)
    (fun _ _ linked => linked) fun _ _ unlinked => unlinked) ?_
  intro res u ends
  cases res with
  | error errno =>
    have now := got.consistent.kept ends.fs ends.kept
    obtain ⟨y,again,_⟩ := ends.kept.apart.loaded held
    refine ends_bind (ends_decref now (ends.kept.fixed.quiet quietly) again) ?_
    rintro _ x ⟨after,dropped⟩
    have relinked : Relinked live t u := ⟨now,ends.kept.fixed,
      fun j lives other => (ends.kept.others j lives other).content,ends.kept.refs⟩
    obtain ⟨evolved,names⟩ := relinked.dropped dropped
    refine ends_throw ⟨other,⟨after,got.evolves evolved⟩,?_,.inr ⟨?_,?_⟩⟩
    · rw [names,ends.directory,got.directory]
    · rw [hit]
      rfl
    rw [←got.directory]
    exact ends.notEntered got.consistent.shape
  | ok slot2 =>
    obtain ⟨y,again,_⟩ := ends.written.touched.loaded held
    refine ends_bind (Q := fun _ x => Entered live t n2 g1 x) (ends_updateInode again
      (got.consistent.entered ran alive ends again)) ?_
    intro _ x entered
    obtain ⟨z,here,_⟩ := entered.loaded held
    obtain ⟨a,base,_⟩ := entered.loaded root
    refine (ends_strike entered.consistent (entered.fixed.quiet quietly) here base
      (entered.binds _ _ _ (got.binds binds))).imp ?_
    rintro _ b ⟨after,evolved,names⟩
    refine ⟨other,⟨after,got.relinked entered.toRelinked evolved⟩,?_,?_,entered.short,?_⟩
    · rw [hit]
      rfl
    · rw [←got.directory]
      exact entered.fresh
    · rw [names,entered.names,got.directory,hit]
end ToyOS.Sfs
