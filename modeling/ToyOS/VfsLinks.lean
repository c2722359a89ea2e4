import ToyOS.SfsNames
import ToyOS.Vfs

namespace ToyOS.Vfs
open Function Outcome Sfs UserSpace Transition Option

section
variable {σ α : Type} {I : σ → Prop} {P : α → Prop} {m : EStateM Fault σ α}

def Partly (I : σ → Prop) : Fault → σ → Prop := Unless True fun _ => I
abbrev Stays (I : σ → Prop) (P : α → Prop) (m : EStateM Fault σ α) : Prop := Keeps I (Partly I) P m

lemma keeps_fail : Stays I P (fail errno : EStateM Fault σ α) :=
  keeps_throw fun _ held => held

lemma keeps_kassert : Stays I Anything (kassert holds : EStateM Fault σ PUnit) := by
  cases holds with
  | false => exact fun _ _ => trivial
  | true => exact keeps_pure trivial

lemma Keeps.perform {cond : Bool} {m : EStateM Fault σ PUnit} (keeps : Stays I Anything m) :
    Stays I Anything (perform cond m) := by
  cases cond with
  | false => exact keeps_pure trivial
  | true => exact keeps

def Good (P : α → Prop) : Except Errno α → Prop
  | .ok a => P a
  | .error _ => True

lemma Keeps.attempt (keeps : Stays I P m) : Stays I (Good P) (attempt m) := by
  intro s held
  have ends := keeps s held
  unfold Sfs.attempt
  cases ran : m s with
  | ok a t => exact ends.ok ran
  | error e t =>
    have bad := ends.failed ran
    cases e with
    | panic => exact trivial
    | errno errno => exact ⟨trivial,bad⟩

def After (J I : σ → Prop) : Except Errno α → σ → Prop
  | .ok _ => J
  | .error _ => I

lemma ends_attempt_after (ends : Ends (m s) (fun _ => J) (Partly I)) : Ends (attempt m s) (After J I) (Partly K) := by
  unfold Sfs.attempt
  cases ran : m s with
  | ok a t => exact ends.ok ran
  | error e t =>
    have bad := ends.failed ran
    cases e with
    | panic => exact trivial
    | errno errno => exact bad

end

variable {M N : Names → Prop} {α : Type} {P : α → Prop} {s t start : State} {live : Nat → Bool} {i n : Nat}
  {v : Layer} {vn oldfile : AnyVnode} {path name newpath : List UInt8}

lemma keeps_giveBack (good : Good P res) : Stays I P (giveBack res) := by
  cases res with
  | ok a => exact keeps_pure good
  | error errno => exact keeps_fail

-- A volume without errors of device or kmalloc, and what is known of its names.
structure Keeping (N : Names → Prop) (s : State) : Prop where
  volume : ∃ live, Consistent s live
  quiet : Quiet s
  names : N (directory s)

lemma Keeping.evolves (keeping : Keeping N s)
    (evolves : Evolves live s Changed t) (names : M (directory t)) : Keeping M t := by
  obtain ⟨after,evolved⟩ := evolves
  exact ⟨⟨after,evolved.consistent⟩,evolved.fixed.quiet keeping.quiet,names⟩

lemma keeping_call (c : Call) (apart : ¬c.changes rootLocation) : Stays (Keeping N) Anything (call c) := by
  intro s keeping
  obtain ⟨live,ok⟩ := keeping.volume
  have kept : ∀ t, Evolves live s c.changes t → Keeping N t := by
    rintro t ⟨after,evolved⟩
    have content := evolved.contents _ ok.shape.root evolved.consistent.shape.root apart
    refine keeping.evolves ⟨after,evolved⟩ ?_
    rw [directory_congr content.size content.byte]
    exact keeping.names
  exact (call_evolved ok keeping.quiet c).mono (fun _ t evolves => ⟨trivial,kept t evolves⟩)
    (Unless.mono (fun _ => trivial) fun _ t evolves => kept t evolves)

lemma keeping_incref : Stays (Keeping N) Anything (vnodeIncref i) :=
  (keeping_call (.incref i) id).of_bind_pure

lemma keeping_getroot : Stays (Keeping N) Anything sfsGetroot :=
  (keeping_call .getroot id).of_map

lemma keeping_syncInode : Stays (Keeping N) Anything (sfsSyncInode i) :=
  (keeping_call (.fsync i) id).of_bind_pure

lemma keeping_truncate : Stays (Keeping N) Anything (asFile i (sfsTruncate i len)) :=
  (keeping_call (.truncate i len) fun changed => changed.2 rfl).of_bind_pure

lemma keeping_decref : Keeps (Keeping N) (Partly (Keeping M)) Anything (vnodeDecref i) := by
  intro s keeping
  obtain ⟨live,ok⟩ := keeping.volume
  refine unless_loaded (fun _ => trivial) fun v load => (ends_decref ok keeping.quiet load).mono ?_ Errs.never
  rintro _ t ⟨after,dropped⟩
  refine ⟨trivial,keeping.evolves ⟨after,(dropped.evolved : Evolved live s Untouched after t)⟩ ?_⟩
  rw [directory_alike (dropped.alike _ dropped.consistent.shape.root)]
  exact keeping.names

lemma keeping_vnodeOf : Stays (Keeping N) Anything (vnodeOf i) := by
  refine keeps_get.bind fun s _ => ?_
  cases s.vnodes i with
  | some v => exact keeps_pure trivial
  | none => exact fun _ _ => trivial

def NoRoot (names : Names) : Prop := ∀ name, names name ≠ some rootLocation

lemma NoRoot.update (none_ : NoRoot names) (ne : hit ≠ some rootLocation) : NoRoot (update names name hit) := by
  intro key
  by_cases eq : key = name
  · subst eq
    rw [update_self]
    exact ne
  rw [update_of_ne eq]
  exact none_ key

lemma keeping_lookup : Stays (Keeping NoRoot) (· ≠ rootLocation) (asDir i (sfsLookup i name)) := by
  intro s keeping
  obtain ⟨live,ok⟩ := keeping.volume
  refine unless_asDir ok (fun _ => trivial) keeping fun v load top => ?_
  subst top
  refine (ends_lookup ok keeping.quiet load).mono ?_ (Errs.unless ?_)
  · rintro ino t ⟨got,eq,hit⟩
    refine ⟨?_,keeping.evolves ⟨live,(got.evolved : Evolved live s Untouched live t)⟩ (eq.symm ▸ keeping.names)⟩
    rintro rfl
    exact keeping.names name hit
  rintro e t ⟨calm,eq,_⟩
  exact keeping.evolves ⟨live,(evolved_calm ok calm : Evolved live s Untouched live t)⟩ (eq.symm ▸ keeping.names)

lemma keeping_creat (ran : 0 ∉ name) : Stays (Keeping NoRoot) Anything (asDir i (sfsCreat i name excl)) := by
  intro s keeping
  obtain ⟨live,ok⟩ := keeping.volume
  refine unless_asDir ok (fun _ => trivial) keeping fun v load top => ?_
  subst top
  refine (ends_creat ok keeping.quiet load ran excl).mono ?_ (Errs.unless ?_)
  · rintro ino t ⟨evolves,⟨_,_,eq⟩ | ⟨none_,_,now⟩,_,new⟩
    · exact ⟨trivial,keeping.evolves evolves (eq.symm ▸ keeping.names)⟩
    refine ⟨trivial,keeping.evolves evolves (now.symm ▸ keeping.names.update fun eq => ?_)⟩
    have dead := new none_
    rw [some.inj eq,ok.shape.root] at dead
    cases dead
  rintro e t ⟨evolves,eq,_⟩
  exact keeping.evolves evolves (eq.symm ▸ keeping.names)

lemma keeping_remove : Stays (Keeping NoRoot) Anything (asDir i (sfsRemove i name)) := by
  intro s keeping
  obtain ⟨live,ok⟩ := keeping.volume
  refine unless_asDir ok (fun _ => trivial) keeping fun v load top => ?_
  subst top
  refine (ends_remove ok keeping.quiet load).mono ?_ (Errs.unless ?_)
  · rintro _ t ⟨evolves,_,now⟩
    exact ⟨trivial,keeping.evolves evolves (now.symm ▸ keeping.names.update (some_ne_none _).symm)⟩
  rintro e t ⟨evolves,eq,_⟩
  exact keeping.evolves evolves (eq.symm ▸ keeping.names)

lemma keeping_rename (ran : 0 ∉ n2) :
    Stays (Keeping NoRoot) Anything (asDir d1 do
      kassert (d1 == d2)
      sfsRename d1 n1 n2) := by
  intro s keeping
  obtain ⟨live,ok⟩ := keeping.volume
  refine unless_asDir ok (fun _ => trivial) keeping fun v load top => ?_
  subst top
  refine unless_kassert (fun _ => trivial) fun _ => ?_
  refine (ends_rename ok keeping.quiet load ran).mono ?_ (Unless.mono (fun _ => trivial) ?_)
  · rintro _ t ⟨_,evolves,_,_,_,now⟩
    exact ⟨trivial,keeping.evolves evolves
      (now.symm ▸ (keeping.names.update (keeping.names n1)).update (some_ne_none _).symm)⟩
  rintro e t ⟨_,evolves,eq,_⟩
  exact keeping.evolves evolves (eq.symm ▸ keeping.names)

lemma ends_vopLink {file : Nat} (keeping : Keeping NoRoot s) (ran : 0 ∉ name) :
    Ends ((do
      let _ ← vnodeOf file
      asDir i (sfsLink i name file) : Op PUnit) s)
      (fun _ t => (Keeping fun names => NoRoot names ↔ file ≠ rootLocation) t)
      (Partly (Keeping NoRoot)) := by
  obtain ⟨live,ok⟩ := keeping.volume
  refine unless_vnodeOf (fun _ => trivial) fun w held =>
    unless_asDir ok (fun _ => trivial) keeping fun v load top => ?_
  subst top
  refine (ends_link ok keeping.quiet load ran held).mono ?_ (Errs.unless ?_)
  · rintro _ t ⟨evolved,_,_,now⟩
    refine keeping.evolves ⟨live,evolved⟩ ⟨fun none_ eq => none_ name ?_,fun other => ?_⟩
    · rw [now,update_self,eq]
    rw [now]
    exact keeping.names.update fun eq => other (some.inj eq)
  rintro e t ⟨evolved,eq,_⟩
  exact keeping.evolves ⟨live,evolved⟩ (eq.symm ▸ keeping.names)

def Over (N : Names → Prop) (v : Layer) : Prop := Keeping N v.fs

lemma ends_onSfs (ends : Ends (m v.fs) Q (Partly (Keeping N))) :
    Ends (onSfs m v) (fun a t => Q a t.fs) (Partly (Over N)) := by
  unfold onSfs
  cases ran : m v.fs with
  | ok a t => exact ends.ok ran
  | error e t =>
    have bad := ends.failed ran
    cases e with
    | panic => exact trivial
    | errno errno => exact bad

lemma Keeps.onSfs (keeps : Keeps (Keeping N) (Partly (Keeping M)) P m) : Keeps (Over N) (Partly (Over M)) P (onSfs m) :=
  fun v held => ends_onSfs (keeps v.fs held)

lemma keeps_vopDecref : Keeps (Over N) (Partly (Over M)) Anything (vopDecref vn) := by
  cases vn with
  | sfs i => exact Keeps.onSfs keeping_decref
  | device kd => exact keeps_pure trivial

lemma keeps_vfsGetcurdir : Stays (Over N) Anything vfsGetcurdir := by
  refine keeps_get.bind fun v _ => ?_
  cases v.cwd with
  | some i => exact (Keeps.onSfs keeping_incref).bind fun _ _ => keeps_pure trivial
  | none => exact keeps_fail

lemma keeps_vfsGetroot (devices : List KnownDev) : Stays (Over N) Anything (vfsGetroot name devices) := by
  induction devices with
  | nil => exact keeps_fail
  | cons kd rest ih =>
    unfold vfsGetroot
    split
    · split
      · exact ((Keeps.onSfs keeping_getroot).mono fun _ _ => trivial).map
      split
      · exact keeps_pure trivial
      · exact ih
    split
    · exact keeps_fail
    split
    · exact keeps_pure trivial
    split
    · exact keeps_pure trivial
    · exact ih

lemma keeps_startVnode (start : Start) : Stays (Over N) Anything (startVnode start) := by
  cases start with
  | curdir => exact (keeps_vfsGetcurdir.mono fun _ _ => trivial).map
  | device devname => exact keeps_get.bind fun v _ => keeps_vfsGetroot v.devices
  | bootfs =>
    refine keeps_get.bind fun v _ => ?_
    cases v.bootfs with
    | none => exact keeps_fail
    | some i => exact (Keeps.onSfs keeping_incref).bind fun _ _ => keeps_pure trivial
  | curfs =>
    exact keeps_vfsGetcurdir.bind fun _ _ => (Keeps.onSfs keeping_getroot).bind fun _ _ =>
      (Keeps.onSfs keeping_decref).bind fun _ _ => keeps_pure trivial

lemma keeps_getdevice : Stays (Over N) (fun hit => hit.2 = (splitPath path).2) (getdevice path) :=
  (keeps_startVnode _).bind fun _ _ => keeps_pure rfl

lemma splitPath_suffix (path : List UInt8) : (splitPath path).2 <:+ path := by
  have skipped : ∀ c rest, path.dropWhile (fun c => c != colon && c != slash) = c :: rest →
      skipSlashes rest <:+ path := by
    intro c rest dropped
    refine (List.dropWhile_suffix _).trans ((List.suffix_cons c rest).trans ?_)
    rw [←dropped]
    exact List.dropWhile_suffix _
  unfold splitPath
  split
  · exact List.suffix_refl _
  · rename_i dropped
    exact skipped _ _ dropped
  rename_i dropped _
  split
  · exact skipped _ _ dropped
  · exact List.suffix_refl _

lemma keeps_vopLookparent : Stays (Over N) Anything (vopLookparent path vn) := by
  cases vn with
  | device kd => exact keeps_fail
  | sfs i =>
    refine (Keeps.onSfs (P := Anything) (keeping_vnodeOf.bind fun v _ => ?_)).bind fun _ _ => keeps_pure trivial
    split
    · unfold sfsLookparent
      split
      · exact keeps_fail
      · exact keeping_incref
    · exact keeps_fail

lemma keeps_vfsLookparent (ran : 0 ∉ path) : Stays (Over N) (fun hit => 0 ∉ hit.2) (vfsLookparent path) := by
  refine keeps_getdevice.bind ?_
  rintro ⟨startvn,subpath⟩ rfl
  refine (Keeps.attempt (P := Anything) ?_).bind fun res good => ?_
  · split
    · exact keeps_fail
    · exact keeps_vopLookparent
  exact keeps_vopDecref.bind fun _ _ => (keeps_giveBack good).bind fun _ _ =>
    keeps_pure fun zero => ran ((splitPath_suffix path).mem zero)

lemma keeps_vopLookup : Stays (Over NoRoot) (· ≠ .sfs rootLocation) (vopLookup path vn) := by
  cases vn with
  | sfs i =>
    refine ((Keeps.onSfs keeping_lookup).mono fun ino ne eq => ?_).map
    exact ne (AnyVnode.sfs.inj eq)
  | device kd =>
    by_cases empty : path = []
    · rw [vopLookup,if_pos empty]
      exact keeps_pure AnyVnode.noConfusion
    rw [vopLookup,if_neg empty]
    exact keeps_fail

lemma keeps_vfsLookup : Stays (Over NoRoot)
    (fun vn => vn = .sfs rootLocation → (splitPath path).2 = []) (vfsLookup path) := by
  refine keeps_getdevice.bind ?_
  rintro ⟨startvn,subpath⟩ rfl
  dsimp only
  split
  · rename_i bare
    exact keeps_pure fun _ => bare
  refine (Keeps.attempt keeps_vopLookup).bind fun res good => keeps_vopDecref.bind fun _ _ =>
    (keeps_giveBack good).mono fun vn ne eq => (ne eq).elim

lemma keeps_findOpen (ran : 0 ∉ path) : Stays (Over NoRoot) Anything (findOpen path openflags) := by
  unfold findOpen
  split
  · refine (keeps_vfsLookparent ran).bind ?_
    rintro ⟨dir,name⟩ ran
    refine (Keeps.attempt (P := Anything) ?_).bind fun res good => keeps_vopDecref.bind fun _ _ => keeps_giveBack good
    cases dir with
    | sfs i => exact ((Keeps.onSfs (keeping_creat ran)).mono fun _ _ => trivial).map
    | device kd => exact keeps_fail
  · exact keeps_vfsLookup.mono fun _ _ => trivial

lemma keeps_vopOpen : Stays (Over N) Anything (vopOpen openflags vn) := by
  cases vn with
  | sfs i =>
    refine Keeps.onSfs (keeping_vnodeOf.bind fun v _ => ?_)
    split
    · unfold sfsOpendir
      split
      · exact keeps_fail
      split
      · exact keeps_fail
      · exact keeps_pure trivial
    unfold sfsOpen
    split
    · exact keeps_fail
    · exact keeps_pure trivial
  | device kd =>
    change Keeps _ _ _ (devOpen kd openflags)
    unfold devOpen
    split
    · exact keeps_fail
    cases kd.dOpen openflags with
    | none => exact keeps_pure trivial
    | some errno => exact keeps_fail

lemma keeps_vopIncopen : Stays (Over N) Anything (vopIncopen vn) := by
  cases vn with
  | sfs i => exact keeps_modify fun _ held => held
  | device kd => exact keeps_pure trivial

lemma keeps_vopDecopen : Stays (Over N) Anything (vopDecopen vn) := by
  cases vn with
  | device kd => exact keeps_pure trivial
  | sfs i =>
    refine keeps_get.bind fun v _ => keeps_kassert.bind fun _ _ => Keeps.bind (P := Anything) ?_ fun _ _ =>
      Keeps.perform ((Keeps.attempt (Keeps.onSfs keeping_syncInode)).bind fun _ _ => keeps_pure trivial)
    exact keeps_modify fun _ held => held

lemma keeps_openTruncate {openflags : BitVec 32} {canwrite : Bool} :
    Stays (Over N) Anything (openTruncate openflags canwrite vn) := by
  refine Keeps.perform ((Keeps.attempt (P := Anything) ?_).bind fun res _ => ?_)
  · split
    · cases vn with
      | sfs i => exact Keeps.onSfs keeping_truncate
      | device kd => exact keeps_fail
    · exact keeps_fail
  cases res with
  | ok _ => exact keeps_pure trivial
  | error errno => exact keeps_vopDecopen.bind fun _ _ => keeps_vopDecref.bind fun _ _ => keeps_fail

lemma keeps_openWith (ran : 0 ∉ path) : Stays (Over NoRoot) Anything (openWith path openflags canwrite) := by
  refine (keeps_findOpen ran).bind fun vn _ => (Keeps.attempt keeps_vopOpen).bind fun res _ => ?_
  cases res with
  | error errno => exact keeps_vopDecref.bind fun _ _ => keeps_fail
  | ok _ => exact keeps_vopIncopen.bind fun _ _ => keeps_openTruncate.bind fun _ _ => keeps_pure trivial

lemma keeps_vfsOpen (ran : 0 ∉ path) : Stays (Over NoRoot) Anything (vfsOpen path openflags) := by
  unfold vfsOpen
  split
  · exact keeps_openWith ran
  split
  · exact keeps_openWith ran
  · exact keeps_fail

lemma keeps_vfsRemove (ran : 0 ∉ path) : Stays (Over NoRoot) Anything (vfsRemove path) := by
  refine (keeps_vfsLookparent ran).bind ?_
  rintro ⟨dir,name⟩ ran
  refine (Keeps.attempt (P := Anything) ?_).bind fun res good => keeps_vopDecref.bind fun _ _ => keeps_giveBack good
  cases dir with
  | sfs i => exact Keeps.onSfs keeping_remove
  | device kd => exact keeps_fail

lemma keeps_vfsRename (endedOld : 0 ∉ path) (endedNew : 0 ∉ newpath) :
    Stays (Over NoRoot) Anything (vfsRename path newpath) := by
  refine (keeps_vfsLookparent endedOld).bind ?_
  rintro ⟨olddir,oldname⟩ _
  refine (Keeps.attempt (keeps_vfsLookparent endedNew)).bind fun hit good => ?_
  cases hit with
  | error errno => exact keeps_vopDecref.bind fun _ _ => keeps_fail
  | ok pair =>
    obtain ⟨newdir,newname⟩ := pair
    refine (Keeps.attempt (P := Anything) ?_).bind fun res done => keeps_vopDecref.bind fun _ _ =>
      keeps_vopDecref.bind fun _ _ => keeps_giveBack done
    split
    · cases olddir with
      | device kd => exact keeps_fail
      | sfs d1 =>
        cases newdir with
        | device kd => exact keeps_fail
        | sfs d2 => exact Keeps.onSfs (keeping_rename good)
    · exact keeps_fail

lemma keeps_dropOld (old : Option Nat) : Stays (Over N) Anything (dropOld old) := by
  cases old with
  | some i => exact Keeps.onSfs keeping_decref
  | none => exact keeps_pure trivial

lemma keeps_vfsSetcurdir : Stays (Over N) Anything (vfsSetcurdir vn) := by
  refine Keeps.bind (P := Anything) ?_ fun type _ => ?_
  · cases vn with
    | sfs i => exact Keeps.onSfs (keeping_vnodeOf.bind fun _ _ => keeps_pure trivial)
    | device kd => exact keeps_pure trivial
  split
  · refine (Keeps.onSfs keeping_incref).bind fun _ _ => keeps_get.bind fun v _ =>
      Keeps.bind (P := Anything) ?_ fun _ _ => keeps_dropOld v.cwd
    exact keeps_modify fun _ held => held
  · exact keeps_fail

lemma keeps_vfsChdir : Stays (Over NoRoot) Anything (vfsChdir path) :=
  keeps_vfsLookup.bind fun _ _ => (Keeps.attempt keeps_vfsSetcurdir).bind fun _ good =>
    keeps_vopDecref.bind fun _ _ => keeps_giveBack good

lemma keeps_vfsSetbootfs : Stays (Over NoRoot) Anything (vfsSetbootfs path) := by
  unfold vfsSetbootfs
  split
  · exact keeps_fail
  refine keeps_vfsChdir.bind fun _ _ => keeps_vfsGetcurdir.bind fun _ _ => keeps_get.bind fun v _ =>
    Keeps.bind (P := Anything) ?_ fun _ _ => keeps_dropOld v.bootfs
  exact keeps_modify fun _ held => held

def Linked (oldfile : AnyVnode) (names : Names) : Prop := NoRoot names ↔ oldfile ≠ .sfs rootLocation

lemma ends_linkInto {newdir : AnyVnode} (ran : 0 ∉ name) (held : Over NoRoot v) :
    Ends ((if sameFs oldfile newdir then vopLink name newdir oldfile else fail .exdev : VfsOp PUnit) v)
      (fun _ => Over (Linked oldfile)) (Partly (Over NoRoot)) := by
  split
  · cases oldfile with
    | device kd =>
      rename_i eq
      cases eq
    | sfs file =>
      cases newdir with
      | device kd => exact held
      | sfs dir =>
        refine (ends_onSfs (ends_vopLink held ran)).imp fun _ t kept => ?_
        exact ⟨kept.volume,kept.quiet,kept.names.trans
          ⟨fun ne eq => ne (AnyVnode.sfs.inj eq),fun ne eq => ne (congrArg _ eq)⟩⟩
  · exact held

lemma ends_linkFile (ran : 0 ∉ newpath) (held : Over NoRoot v) :
    Ends (linkFile oldfile newpath v) (fun _ => Over (Linked oldfile)) (Partly (Over NoRoot)) := by
  refine ends_bind (Keeps.attempt (keeps_vfsLookparent ran) v held) ?_
  rintro hit t ⟨good,held⟩
  cases hit with
  | error errno =>
    exact (keeps_vopDecref.bind (S := fun _ => False) (fun _ _ => keeps_fail) t held).imp
      (fun _ _ never => never.1.elim)
  | ok pair =>
    obtain ⟨newdir,newname⟩ := pair
    refine ends_bind (ends_attempt_after (ends_linkInto good held)) fun res u kept => ?_
    cases res with
    | ok _ =>
      exact ends_bind (keeps_vopDecref u kept) fun _ w kept => ends_bind (keeps_vopDecref w kept.2)
        fun _ _ kept => kept.2
    | error errno =>
      exact ends_bind (keeps_vopDecref u kept) fun _ w kept => ends_bind (keeps_vopDecref w kept.2)
        fun _ _ kept => kept.2

def NamesDirectory (v : Layer) (path : CString) : Prop :=
  ∃ t, vfsLookup path.bytes v = .ok (.sfs rootLocation) t

def LinksDirectory (v : Layer) : VfsCall → Prop
  | .link oldpath _ => NamesDirectory v oldpath
  | _ => False

lemma ends_vfsLink {oldpath newpath : CString} (held : Over NoRoot v) : Ends (vfsLink oldpath.bytes newpath.bytes v)
      (fun _ => Over fun names => NoRoot names ↔ ¬LinksDirectory v (.link oldpath newpath)) (Partly (Over NoRoot)) := by
  have looked := (keeps_vfsLookup : Keeps _ _ _ (vfsLookup oldpath.bytes)) v held
  refine ends_bind (Q := fun vn t => (vn ≠ .sfs rootLocation ↔ ¬NamesDirectory v oldpath) ∧ Over NoRoot t) ?_ ?_
  · cases hit : vfsLookup oldpath.bytes v with
    | error e t => exact looked.failed hit
    | ok vn t =>
      refine ⟨⟨fun other => ?_,fun unnamed eq => unnamed ⟨t,eq ▸ hit⟩⟩,(looked.ok hit).2⟩
      rintro ⟨u,root⟩
      rw [hit] at root
      cases root
      exact other rfl
  rintro vn t ⟨eq,held⟩
  exact (ends_linkFile newpath.ended held).imp
    (fun _ u linked => ⟨linked.volume,linked.quiet,linked.names.trans eq⟩)

lemma ends_vfsCall (c : VfsCall) (held : Over NoRoot v) :
    Ends (vfsCall c v) (fun _ => Over fun names => NoRoot names ↔ ¬LinksDirectory v c) (Partly (Over NoRoot)) := by
  have unlinked : ∀ {m : VfsOp PUnit}, Stays (Over NoRoot) Anything m →
      Ends (m v) (fun _ => Over fun names => NoRoot names ↔ ¬False) (Partly (Over NoRoot)) := fun keeps =>
    (keeps v held).imp fun _ t kept => ⟨kept.2.volume,kept.2.quiet,fun _ => id,fun _ => kept.2.names⟩
  cases c with
  | chdir path => exact unlinked keeps_vfsChdir
  | setbootfs fsname => exact unlinked keeps_vfsSetbootfs
  | «open» path openflags => exact unlinked ((keeps_vfsOpen path.ended).bind fun _ _ => keeps_pure trivial)
  | close vn => exact unlinked (keeps_vopDecopen.bind fun _ _ => keeps_vopDecref)
  | remove path => exact unlinked (keeps_vfsRemove path.ended)
  | rename oldpath newpath => exact unlinked (keeps_vfsRename oldpath.ended newpath.ended)
  | link oldpath newpath => exact ends_vfsLink held

def EntriesFiles (s : State) : Prop := ∀ k name i, Binds s k name i → (node s i).type = typeFile

lemma entriesFiles_iff (ok : Consistent s live) : EntriesFiles s ↔ NoRoot (directory s) := by
  constructor
  · intro files name root
    obtain ⟨k,binds⟩ := (directory_eq_some ok.shape).mp root
    have file := files k name _ binds
    rw [ok.shape.dir] at file
    cases file
  intro none_ k name i binds
  refine ok.shape.only i (ok.shape.named k name i binds) ?_
  rintro rfl
  exact none_ name ((directory_eq_some ok.shape).mpr ⟨k,binds⟩)

lemma entriesFiles_over (layered : Over N v) : EntriesFiles v.fs ↔ NoRoot (directory v.fs) := by
  obtain ⟨live,ok⟩ := layered.volume
  exact entriesFiles_iff ok

lemma returned_files (held : Over NoRoot v) (came : returned v c = some (res,w)) :
    (∃ N, Over N w) ∧ (NoRoot (directory w.fs) ↔ ¬(res = .ok () ∧ LinksDirectory v c)) := by
  have ends := ends_vfsCall c held
  unfold returned at came
  cases ran : vfsCall c v with
  | ok answer t =>
    rw [ran] at came
    cases came
    have kept := ends.ok ran
    exact ⟨⟨_,kept⟩,by rw [kept.names]; simp⟩
  | error e t =>
    have bad := ends.failed ran
    rw [ran] at came
    cases e with
    | panic => cases came
    | errno errno =>
      cases came
      refine ⟨⟨_,bad⟩,fun _ linked => ?_,fun _ => bad.names⟩
      cases linked.1

def LinksFiles (v : Layer) (c : VfsCall) : Prop := ¬LinksDirectory v c

lemma reached_over (new : New n start) (run : Reached vfsStep LinksFiles (booted start devices) v) : Over NoRoot v := by
  obtain ⟨ok,quiet,_⟩ := new.consistent
  refine run.invariant (Over NoRoot) ⟨⟨_,ok⟩,quiet,fun name => ?_⟩ ?_
  · change directory start name ≠ _
    rw [new.unnamed]
    exact (some_ne_none _).symm
  intro v c w _ held may ran
  obtain ⟨⟨res,_⟩,came,rfl⟩ := map_eq_some_iff.mp ran
  obtain ⟨⟨N,layered⟩,eq⟩ := returned_files held came
  exact ⟨layered.volume,layered.quiet,eq.mpr fun linked => may linked.2⟩

theorem entries_are_files {devices : List KnownDev} (new : New n start)
    (run : Reached vfsStep LinksFiles (booted start devices) v) :
    EntriesFiles v.fs ∧ (∀ dir n1 n2, ¬RenamesRoot v.fs (.rename dir n1 n2)) ∧
    (∀ path, NamesDirectory v path → (splitPath path.bytes).2 = []) ∧
    ∀ c result w, returned v c = some (result,w) →
      (EntriesFiles w.fs ↔ ¬(result = .ok () ∧ LinksDirectory v c)) := by
  have layered := reached_over new run
  refine ⟨(entriesFiles_over layered).mpr layered.names,fun _ n1 _ renames => layered.names n1.bytes renames.2,?_,?_⟩
  · rintro path ⟨t,found⟩
    exact ((keeps_vfsLookup v layered).ok found).1 rfl
  intro c result w came
  obtain ⟨⟨N,after⟩,same⟩ := returned_files layered came
  exact (entriesFiles_over after).trans same

def hasName : VfsCall → Bool
  | .link oldpath _ => (splitPath oldpath.bytes).2 != []
  | _ => true

lemma linksFiles_of_hasName (layered : Over NoRoot v) (has : hasName c) : LinksFiles v c := by
  intro linked
  cases c with
  | link oldpath newpath =>
    obtain ⟨t,hit⟩ := linked
    exact (bne_iff_ne.mp has) (((keeps_vfsLookup v layered).ok hit).1 rfl)
  | _ => exact linked

def lhd0 : KnownDev := ⟨[108,104,100,48],some [108,104,100,48,114,97,119],some [],fun _ => none⟩
def device0 : CString := ⟨[108,104,100,48],by decide⟩
def device0Colon : CString := ⟨[108,104,100,48,58],by decide⟩
def device0A : CString := ⟨[108,104,100,48,58,97],by decide⟩
def device0B : CString := ⟨[108,104,100,48,58,98],by decide⟩
def slashB : CString := ⟨[47,98],by decide⟩
def bareC : CString := ⟨[99],by decide⟩

def namedCalls : List VfsCall :=
  [.setbootfs device0,.open device0A (oCreat ||| oRdwr),.link device0A slashB,.rename slashB bareC]

theorem entries_are_files_named : ∃ v, run vfsStep (booted smallVolume [lhd0]) namedCalls = some v ∧
    directory v.fs nameB.bytes = none ∧ directory v.fs nameA.bytes = some 3 ∧ directory v.fs bareC.bytes = some 3 ∧
    EntriesFiles v.fs := by
  have ran : ((run (guarded (fun _ => hasName) vfsStep) (booted smallVolume [lhd0]) namedCalls).map fun v =>
      (directory v.fs nameB.bytes,directory v.fs nameA.bytes,directory v.fs bareC.bytes)) =
      some (none,some 3,some 3) := by decide +kernel
  obtain ⟨v,reached,shown⟩ := map_eq_some_iff.mp ran
  simp only [Prod.mk.injEq] at shown
  have path : Reached vfsStep LinksFiles (booted smallVolume [lhd0]) v :=
    run_permitted (fun prior has => linksFiles_of_hasName (reached_over smallVolume_new prior) has) .initial reached
  exact ⟨v,reached,shown.1,shown.2.1,shown.2.2,(entries_are_files smallVolume_new path).1⟩

theorem device_name_linked : ∃ result w,
    returned (booted smallVolume [lhd0]) (.link device0Colon device0A) = some (result,w) ∧
    directory w.fs nameA.bytes = some rootLocation ∧ (node w.fs rootLocation).type = typeDir ∧
    returned w (.rename device0A device0B) = none := by
  have ran : ((returned (booted smallVolume [lhd0]) (.link device0Colon device0A)).map fun came =>
      (directory came.2.fs nameA.bytes,(node came.2.fs rootLocation).type,
        (returned came.2 (.rename device0A device0B)).isNone)) =
      some (some rootLocation,typeDir,true) := by decide +kernel
  obtain ⟨⟨result,w⟩,came,shown⟩ := map_eq_some_iff.mp ran
  simp only [Prod.mk.injEq,isNone_iff_eq_none] at shown
  exact ⟨result,w,came,shown⟩
end ToyOS.Vfs
