import Cfscan.Lib.Disk
import Cfscan.Lib.Register

/-!
# The discipline of installing a file

A process is a program of file operations, each of which can fail. `Draft` is what it knows of the
one file it makes, and `Careful` the discipline: it writes to that file only, under a name of its
own, and renames it to the common name once its bytes are all on the device. `Performed` says what
one operation of such a process does: to its draft, to the files of others, and to the common name,
which is a register behind a cache.

An operation may fail anywhere, and what the process does then is its own affair. It may leave its
draft behind and it may remove it; what it may never do is give the common name to bytes that are
not on the device.
-/

set_option autoImplicit false

namespace Cfscan.Lib.Files

open Cfscan.Lib

/-! ## Programs -/

inductive Op (ν : Type) where
  | mkdirAll
  | chmod (file mode : Nat)
  | write (file : Nat) (bytes : List UInt8)
  | sync (file : Nat)
  | close (file : Nat)
  | rename (source target : ν)
  | remove (name : ν)
  /-- The directory is opened, synced and closed. -/
  | syncDir

inductive Program (ν α : Type) where
  | done (a : α)
  /-- `os.CreateTemp`, with the names it can draw. -/
  | createTemp (mode : Nat) (name : Nat → ν) (next : Option (ν × Nat) → Program ν α)
  | call (op : Op ν) (next : Bool → Program ν α)

/-- How the system answers: whether the operation succeeds, what a failed write has written, and
what name is drawn. -/
structure Outcome where
  ok : Bool
  written : Nat
  draw : Nat
deriving Repr

namespace Program

variable {ν α β : Type}

def bind : Program ν α → (α → Program ν β) → Program ν β
  | done a, f => f a
  | createTemp mode name next, f => createTemp mode name fun made => (next made).bind f
  | call op next, f => call op fun ok => (next ok).bind f

instance : Monad (Program ν) where
  pure := done
  bind := bind

@[simp] theorem pure_eq (a : α) : (pure a : Program ν α) = done a := rfl

@[simp] theorem bind_eq (x : Program ν α) (f : α → Program ν β) : x >>= f = x.bind f := rfl

def run (op : Op ν) : Program ν Bool := call op done

end Program

variable {ν : Type} [DecidableEq ν]

def File.append (f : File) (bytes : List UInt8) : File :=
  { f with data := f.data ++ bytes, synced := false }

def Op.perform (d : Disk ν) (o : Outcome) : Op ν → Bool × Disk ν
  | .mkdirAll | .close _ => (o.ok, d)
  | .chmod file mode =>
    if o.ok then (true, d.setFile file { d.files file with mode := mode, synced := false })
    else (false, d)
  | .write file bytes =>
    if o.ok then (true, d.setFile file ((d.files file).append bytes))
    else (false, d.setFile file ((d.files file).append (bytes.take o.written)))
  | .sync file =>
    if o.ok then (true, d.setFile file { d.files file with synced := true }) else (false, d)
  | .rename source target =>
    match o.ok, d.entries source with
    | true, some file => (true, d.change (.rename source target file))
    | _, _ => (false, d)
  | .remove name =>
    match o.ok, d.entries name with
    | true, some _ => (true, d.change (.unlink name))
    | _, _ => (false, d)
  | .syncDir => if o.ok then (true, d.flush) else (false, d)

/-! ## The discipline

Each operation is allowed or not by the draft alone, so that whether a program keeps the
discipline can be read off its text, outcome by outcome. Nothing is said of what others do. -/

/-- What a process knows of the file it makes: its name, where it is and what is in it. -/
inductive Draft (ν : Type) where
  | none
  | own (name : ν) (file : Nat) (content : File)
  | installed (name : ν) (file : Nat) (content : File)

def Draft.temporary : Draft ν → Option (ν × Nat)
  | .none => Option.none
  | .own name file _ | .installed name file _ => some (name, file)

/-- What an operation makes of the file. -/
def Draft.after (o : Outcome) (ok : Bool) : Op ν → Draft ν → Draft ν
  | .chmod _ mode, .own name file f =>
    if ok then .own name file { f with mode := mode, synced := false } else .own name file f
  | .write _ bytes, .own name file f =>
    if ok then .own name file (f.append bytes) else .own name file (f.append (bytes.take o.written))
  | .sync _, .own name file f =>
    if ok then .own name file { f with synced := true } else .own name file f
  | .rename _ _, .own name file f => if ok then .installed name file f else .own name file f
  | _, draft => draft

/-- The operations a process may perform: on its own file, which it may give the common name once
it is complete. -/
def Draft.Allows (path : ν) (complete : File → Prop) : Op ν → Draft ν → Prop
  | .mkdirAll, _ | .close _, _ | .syncDir, .installed _ _ _ => True
  | .chmod file' _, .own _ file _ | .write file' _, .own _ file _ | .sync file', .own _ file _ =>
    file' = file
  | .rename source target, .own name _ f =>
    source = name ∧ target = path ∧ f.synced = true ∧ complete f
  | .remove name', .own name _ _ | .remove name', .installed name _ _ => name' = name
  | _, _ => False

/-- The program keeps the discipline from a draft on, and ends with a result and a draft as `post`
says. -/
def Careful {α : Type} (path : ν) (complete : File → Prop) (post : α → Draft ν → Prop) :
    Draft ν → Program ν α → Prop
  | draft, .done a => post a draft
  | draft, .createTemp mode name next =>
    draft = .none ∧ Careful path complete post .none (next none) ∧
      ∀ draw file, name draw ≠ path ∧
        Careful path complete post (.own (name draw) file ⟨mode, [], false⟩)
          (next (some (name draw, file)))
  | draft, .call op next =>
    draft.Allows path complete op ∧
      ∀ o ok, Careful path complete post (draft.after o ok op) (next ok)

section Rules

variable {α β : Type} {path : ν} {complete : File → Prop} {post : α → Draft ν → Prop}
  {post' : β → Draft ν → Prop} {draft : Draft ν}

omit [DecidableEq ν] in
theorem Careful.bind {x : Program ν α} {f : α → Program ν β}
    (h : Careful path complete post draft x)
    (hf : ∀ a draft', post a draft' → Careful path complete post' draft' (f a)) :
    Careful path complete post' draft (x.bind f) := by
  induction x generalizing draft with
  | done a => exact hf a draft h
  | createTemp mode name next ih =>
    obtain ⟨hdraft, hnone, hmade⟩ := h
    exact ⟨hdraft, ih none hnone, fun draw file => ⟨(hmade draw file).1, ih _ (hmade draw file).2⟩⟩
  | call op next ih => exact ⟨h.1, fun o ok => ih ok (h.2 o ok)⟩

omit [DecidableEq ν] in
/-- An operation, and what follows when it succeeds and when it fails. -/
theorem careful_run {op : Op ν} {f : Bool → Program ν β} (hallows : draft.Allows path complete op)
    (hok : ∀ o, Careful path complete post' (draft.after o true op) (f true))
    (hfailed : ∀ o, Careful path complete post' (draft.after o false op) (f false)) :
    Careful path complete post' draft ((Program.run op).bind f) :=
  ⟨hallows, fun o ok => by cases ok with
    | true => exact hok o
    | false => exact hfailed o⟩

end Rules

/-! ## The invariant

A draft a process works on has a name of its own, and the common name cannot stand for it
after any crash; an installed one has been written to the register. `Touches` is the frame:
what an operation of one process leaves to all the others. -/

/-- What the disk holds of a draft, and the register has seen of it. -/
def Draft.On (path : ν) (log : List (Register.Act (Option File))) (d : Disk ν) : Draft ν → Prop
  | .none => True
  | .own name file f =>
    file < d.allocated ∧ name ≠ path ∧ d.files file = f ∧ some file ∉ d.options path ∧
      (d.entries name = some file ∨ d.entries name = Option.none)
  | .installed name file f => file < d.allocated ∧ name ≠ path ∧ .write (some f) ∈ log

/-- Whatever the common name can stand for is all on the device. -/
def Settled (path : ν) (d : Disk ν) : Prop :=
  ∀ file, some file ∈ d.options path → file < d.allocated ∧ (d.files file).synced = true

/-- The register behind the common name. -/
def register (path : ν) (d : Disk ν) : Register (Option File) :=
  ⟨(d.settled path).map d.files, (d.changes.filterMap (Change.at? path)).map (Option.map d.files)⟩

theorem register_options (path : ν) (d : Disk ν) :
    (register path d).options = (d.options path).map (Option.map d.files) := rfl

theorem register_view (path : ν) (d : Disk ν) : (register path d).view = d.read path := by
  unfold Register.view Disk.read
  rw [Disk.entries_eq]
  show ((d.options path).map (Option.map d.files)).getLast _ = _
  exact List.getLast_map _

/-- What an operation does to the register. -/
def Op.does (d : Disk ν) (o : Outcome) : Op ν → List (Register.Act (Option File))
  | .rename source _ =>
    match o.ok, d.entries source with
    | true, some file => [.write (some (d.files file))]
    | _, _ => []
  | .syncDir => if o.ok && d.anchored then [.flush] else []
  | _ => []

theorem Op.does_ne_crash (d : Disk ν) (o : Outcome) (op : Op ν) : .crash ∉ op.does d o := by
  cases op with
  | rename source target =>
    unfold Op.does
    dsimp only
    split
    · exact fun h => nomatch List.mem_singleton.mp h
    · exact List.not_mem_nil
  | syncDir =>
    unfold Op.does
    dsimp only
    split
    · exact fun h => nomatch List.mem_singleton.mp h
    · exact List.not_mem_nil
  | _ => exact List.not_mem_nil

/-- What a process leaves alone: the files and the names of others. -/
structure Touches (path : ν) (temporary : Option (ν × Nat)) (d d' : Disk ν) : Prop where
  allocated : d.allocated ≤ d'.allocated
  files : ∀ file, file < d.allocated → (∀ name, temporary ≠ some (name, file)) →
    d'.files file = d.files file
  entries : ∀ name, name ≠ path → (∀ file, temporary ≠ some (name, file)) →
    d'.entries name = d.entries name
  options : ∀ file, some file ∈ d'.options path → some file ∈ d.options path ∨
    ∃ name, temporary = some (name, file)

theorem Touches.refl (path : ν) (temporary : Option (ν × Nat)) (d : Disk ν) :
    Touches path temporary d d :=
  ⟨Nat.le_refl _, fun _ _ _ => rfl, fun _ _ _ => rfl, fun _ h => .inl h⟩

theorem Draft.On.mono {path : ν} {d : Disk ν} {draft : Draft ν}
    {log log' : List (Register.Act (Option File))} (h : draft.On path log d) (hlog : log ⊆ log') :
    draft.On path log' d := by
  cases draft with
  | none => trivial
  | own name file f => exact h
  | installed name file f => exact ⟨h.1, h.2.1, hlog h.2.2⟩

theorem Draft.On.name_ne {path : ν} {d : Disk ν} {draft : Draft ν} {name : ν} {file : Nat}
    {log : List (Register.Act (Option File))} (h : draft.On path log d)
    (htemporary : draft.temporary = some (name, file)) : file < d.allocated ∧ name ≠ path := by
  cases draft with
  | none => cases htemporary
  | own name' file' f =>
    cases htemporary
    exact ⟨h.1, h.2.1⟩
  | installed name' file' f =>
    cases htemporary
    exact ⟨h.1, h.2.1⟩

/-- What the register has seen of a draft. -/
def Draft.Logged (log : List (Register.Act (Option File))) : Draft ν → Prop
  | .installed _ _ f => .write (some f) ∈ log
  | _ => True

omit [DecidableEq ν] in
theorem Draft.Logged.mono {draft : Draft ν} {log log' : List (Register.Act (Option File))}
    (h : draft.Logged log) (hlog : log ⊆ log') : draft.Logged log' := by
  cases draft with
  | installed name file f => exact hlog h
  | _ => trivial

theorem Draft.On.logged {path : ν} {d : Disk ν} {draft : Draft ν}
    {log : List (Register.Act (Option File))} (h : draft.On path log d) : draft.Logged log := by
  cases draft with
  | installed name file f => exact h.2.2
  | _ => trivial

/-- A draft stays on the disk when another process acts. -/
theorem Draft.On.frame {path : ν} {d d' : Disk ν} {draft : Draft ν} {temporary : Option (ν × Nat)}
    {log : List (Register.Act (Option File))}
    (h : draft.On path log d) (ht : Touches path temporary d d')
    (hapart : ∀ name file name' file', draft.temporary = some (name, file) →
      temporary = some (name', file') → name ≠ name' ∧ file ≠ file') : draft.On path log d' := by
  cases draft with
  | none => trivial
  | own name file f =>
    obtain ⟨hallocated, hname, hfile, hoptions, hentries⟩ := h
    have hfileNe : ∀ name', temporary ≠ some (name', file) := fun name' htemp =>
      (hapart name file name' file rfl htemp).2 rfl
    have hnameNe : ∀ file', temporary ≠ some (name, file') := fun file' htemp =>
      (hapart name file name file' rfl htemp).1 rfl
    refine ⟨Nat.lt_of_lt_of_le hallocated ht.allocated, hname, ?_, fun hmem => ?_, ?_⟩
    · rw [ht.files file hallocated hfileNe, hfile]
    · rcases ht.options file hmem with hold | ⟨name', htemp⟩
      · exact hoptions hold
      · exact hfileNe name' htemp
    · rw [ht.entries name hname hnameNe]
      exact hentries
  | installed name file f => exact ⟨Nat.lt_of_lt_of_le h.1 ht.allocated, h.2⟩

/-- What is shown of an operation of a process: for its draft, for the others, for the common
name. -/
structure Performed (path : ν) (log : List (Register.Act (Option File))) (d : Disk ν)
    (draft : Draft ν) (acts : List (Register.Act (Option File))) (d' : Disk ν) (draft' : Draft ν) :
    Prop where
  temporary : draft'.temporary = draft.temporary
  on : draft'.On path (log ++ acts) d'
  touches : Touches path draft.temporary d d'
  settled : Settled path d'
  register : Register.Run (register path d) acts (register path d')

section Operations

variable {path : ν} {log : List (Register.Act (Option File))} {d : Disk ν} {draft : Draft ν}

theorem Performed.refl (hon : draft.On path log d) (hsettled : Settled path d) :
    Performed path log d draft [] d draft :=
  ⟨rfl, (List.append_nil log).symm ▸ hon, .refl path _ d, hsettled, .nil _⟩

/-- The register tells the files the common name can stand for, and no others. -/
theorem register_congr {d' : Disk ν} (hsettled : d'.settled = d.settled)
    (hchanges : d'.changes.filterMap (Change.at? path) = d.changes.filterMap (Change.at? path))
    (hfiles : ∀ file, some file ∈ d.options path → d'.files file = d.files file) :
    register path d' = register path d := by
  have hmap : ∀ option ∈ d.options path,
      Option.map d'.files option = Option.map d.files option := by
    intro option hmem
    cases option with
    | none => rfl
    | some file => exact congrArg some (hfiles file hmem)
  unfold register
  rw [hsettled, hchanges]
  have htail := List.map_congr_left fun option hmem => hmap option (List.mem_cons_of_mem _ hmem)
  exact congrArg₂ Register.mk (hmap _ List.mem_cons_self) htail

/-- A file is made under a name nobody has. -/
theorem create_own (log : List (Register.Act (Option File))) {name : ν} {mode file : Nat}
    {d' : Disk ν} (hcreate : d.create name mode = some (file, d')) (hname : name ≠ path)
    (hsettled : Settled path d) :
    file = d.allocated ∧ (Draft.own name file ⟨mode, [], false⟩).On path log d' ∧
      Touches path (some (name, file)) d d' ∧ Settled path d' ∧
      register path d' = register path d := by
  unfold Disk.create at hcreate
  split at hcreate
  · cases hcreate
  injection hcreate with hpair
  obtain ⟨rfl, rfl⟩ := Prod.mk.inj hpair
  -- the new name is not the path, so the register does not see the link
  have hat : (Change.link name d.allocated).at? path = none := if_neg hname
  have hother : ∀ other, other ≠ d.allocated →
      Function.update d.files d.allocated ⟨mode, [], false⟩ other = d.files other :=
    fun other hne => Function.update_of_ne hne _ d.files
  -- what a crash can leave at the path is unchanged
  have hopts : ∀ option, option ∈ (({ d with allocated := d.allocated + 1 } : Disk ν).setFile
      d.allocated ⟨mode, [], false⟩ |>.change (.link name d.allocated)).options path ↔
        option ∈ d.options path := by
    intro option
    rw [Disk.options_change, hat, Option.toList_none, List.append_nil]
    rfl
  refine ⟨rfl, ⟨Nat.lt_succ_self _, hname, ?_, fun hmem => ?_, .inl ?_⟩,
    ⟨Nat.le_succ _, fun other hlt _ => ?_, fun other hpath hne => ?_, fun other hmem => ?_⟩,
    fun other hmem => ?_, ?_⟩
  · exact Function.update_self d.allocated _ d.files
  · exact Nat.lt_irrefl _ (hsettled _ ((hopts _).mp hmem)).1
  · refine (Disk.entries_change _ (.link name d.allocated) name).trans ?_
    simp only [Change.at?, if_true, Option.getD_some]
  · exact hother other (Nat.ne_of_lt hlt)
  · have hne' : ¬ name = other := by
      rintro rfl
      exact hne _ rfl
    refine (Disk.entries_change _ (.link name d.allocated) other).trans ?_
    simp only [Change.at?, if_neg hne', Option.getD_none]
    rfl
  · exact .inl ((hopts _).mp hmem)
  · obtain ⟨hlt, hsynced⟩ := hsettled other ((hopts _).mp hmem)
    refine ⟨Nat.lt_succ_of_lt hlt, ?_⟩
    show (Function.update d.files d.allocated ⟨mode, [], false⟩ other).synced = true
    rw [hother other (Nat.ne_of_lt hlt)]
    exact hsynced
  · refine register_congr rfl ?_ fun other hmem =>
      hother other (Nat.ne_of_lt (hsettled other hmem).1)
    show (d.changes ++ [Change.link name d.allocated]).filterMap _ = _
    rw [List.filterMap_append, List.filterMap_cons, hat, List.filterMap_nil, List.append_nil]

/-- A process writes to its own file. -/
theorem performed_setFile {name : ν} {file : Nat} {f : File} (g : File)
    (hon : (Draft.own name file f).On path log d) (hsettled : Settled path d) :
    Performed path log d (.own name file f) [] (d.setFile file g) (.own name file g) := by
  obtain ⟨hallocated, hname, hfile, hoptions, hentries⟩ := hon
  have hother : ∀ other, other ≠ file → (d.setFile file g).files other = d.files other :=
    fun other hne => by
      show Function.update d.files file g other = d.files other
      rw [Function.update_of_ne hne]
  have hself : (d.setFile file g).files file = g := by
    show Function.update d.files file g file = g
    rw [Function.update_self]
  have hne : ∀ other, some other ∈ d.options path → other ≠ file := by
    rintro other hmem rfl
    exact hoptions hmem
  refine ⟨rfl, ⟨hallocated, hname, hself, hoptions, hentries⟩,
    ⟨Nat.le_refl _, fun other _ hother' => ?_, fun _ _ _ => rfl, fun _ h => .inl h⟩,
    fun other hmem => ?_, ?_⟩
  · refine hother other ?_
    rintro rfl
    exact hother' name rfl
  · rw [hother other (hne other hmem)]
    exact hsettled other hmem
  · have hsame : Files.register path (d.setFile file g) = Files.register path d :=
      register_congr rfl rfl fun other hmem => hother other (hne other hmem)
    rw [hsame]
    exact .nil _

/-- A process gives its file the common name. -/
theorem performed_rename {name : ν} {file : Nat} {f : File}
    (hon : (Draft.own name file f).On path log d) (hsettled : Settled path d)
    (hsynced : f.synced = true) :
    Performed path log d (.own name file f) [.write (some f)]
      (d.change (.rename name path file)) (.installed name file f) := by
  obtain ⟨hallocated, hname, hfile, hoptions, hentries⟩ := hon
  have hat : (Change.rename name path file).at? path = some (some file) := if_pos rfl
  have hopts : (d.change (.rename name path file)).options path =
      d.options path ++ [some file] := by
    rw [Disk.options_change, hat]
    rfl
  refine ⟨rfl, ⟨hallocated, hname, List.mem_append_right log List.mem_cons_self⟩,
    ⟨Nat.le_refl _, fun _ _ _ => rfl, fun other hpath hother => ?_, fun other hmem => ?_⟩,
    fun other hmem => ?_, ?_⟩
  · have hne : ¬ name = other := by
      rintro rfl
      exact hother file rfl
    rw [Disk.entries_change]
    simp only [Change.at?, if_neg (Ne.symm hpath), if_neg hne, Option.getD_none]
  · rw [hopts] at hmem
    rcases List.mem_append.mp hmem with hold | hnew
    · exact .inl hold
    · cases List.mem_singleton.mp hnew
      exact .inr ⟨name, rfl⟩
  · rw [hopts] at hmem
    rcases List.mem_append.mp hmem with hold | hnew
    · exact hsettled other hold
    · cases List.mem_singleton.mp hnew
      refine ⟨hallocated, ?_⟩
      show (d.files file).synced = true
      rw [hfile, hsynced]
  · have hregister : Files.register path (d.change (.rename name path file)) =
        { Files.register path d with cached := (Files.register path d).cached ++ [some f] } := by
      unfold Files.register Disk.change
      simp only [List.filterMap_append, List.map_append, List.filterMap_cons, hat,
        List.filterMap_nil, List.map_cons, List.map_nil, Option.map_some, hfile]
    rw [hregister]
    exact .cons (.write _ _) (.nil _)

/-- A process removes the name it had its file under. -/
theorem performed_remove {name : ν} {file : Nat} (htemporary : draft.temporary = some (name, file))
    (hon : draft.On path log d) (hsettled : Settled path d) :
    Performed path log d draft [] (d.change (.unlink name)) draft := by
  have hname : name ≠ path := (hon.name_ne htemporary).2
  have hat : (Change.unlink name).at? path = none := if_neg hname
  have hopts : (d.change (.unlink name)).options path = d.options path := by
    rw [Disk.options_change, hat]
    exact List.append_nil _
  refine ⟨rfl, ?_,
    ⟨Nat.le_refl _, fun _ _ _ => rfl, fun other hpath hother => ?_, fun other hmem => ?_⟩,
    fun other hmem => ?_, ?_⟩
  · rw [List.append_nil]
    cases draft with
    | none => trivial
    | own name' file' f =>
      cases htemporary
      refine ⟨hon.1, hname, hon.2.2.1, hopts ▸ hon.2.2.2.1, .inr ?_⟩
      rw [Disk.entries_change]
      simp only [Change.at?, if_true, Option.getD_some]
    | installed name' file' f => exact hon
  · have hne : ¬ name = other := by
      rintro rfl
      exact hother file htemporary
    rw [Disk.entries_change]
    simp only [Change.at?, if_neg hne, Option.getD_none]
  · exact .inl (hopts ▸ hmem)
  · rw [hopts] at hmem
    exact hsettled other hmem
  · have hregister : Files.register path (d.change (.unlink name)) = Files.register path d := by
      unfold Files.register Disk.change
      simp only [List.filterMap_append, List.filterMap_cons, hat, List.filterMap_nil,
        List.append_nil]
    rw [hregister]
    exact .nil _

/-- The directory is synced. -/
theorem performed_flush (hon : draft.On path log d) (hsettled : Settled path d) :
    Performed path log d draft (if d.anchored then [.flush] else []) d.flush draft := by
  have hallocated : d.flush.allocated = d.allocated := by
    unfold Disk.flush
    split <;> rfl
  -- a sync only takes away what a crash could bring back
  have hopts : ∀ option, option ∈ d.flush.options path → option ∈ d.options path := by
    intro option hmem
    rw [Disk.options_flush] at hmem
    split at hmem
    · rw [List.mem_singleton.mp hmem]
      exact d.entries_mem path
    · exact hmem
  have htouches : Touches path draft.temporary d d.flush := by
    refine ⟨Nat.le_of_eq hallocated.symm, fun file _ _ => ?_, fun name _ _ => ?_,
      fun file hmem => ?_⟩
    · rw [Disk.files_flush]
    · rw [Disk.entries_flush]
    · exact .inl (hopts _ hmem)
  refine ⟨rfl, Draft.On.mono ?_ (List.subset_append_left log _), htouches, fun file hmem => ?_, ?_⟩
  · cases draft with
    | none => trivial
    | own name file f =>
      obtain ⟨hlt, hname, hfile, hoptions, hentries⟩ := hon
      refine ⟨hallocated ▸ hlt, hname, ?_, fun hmem => hoptions (hopts _ hmem), ?_⟩
      · rw [Disk.files_flush, hfile]
      · rw [Disk.entries_flush]
        exact hentries
    | installed name file f => exact ⟨hallocated ▸ hon.1, hon.2⟩
  · rw [hallocated, Disk.files_flush]
    exact hsettled file (hopts _ hmem)
  · by_cases hanchored : d.anchored = true
    · -- with an anchor nothing is pending afterwards; without one the sync does nothing
      have hregister : Files.register path d.flush = ⟨(Files.register path d).view, []⟩ := by
        rw [register_view]
        unfold Files.register Disk.flush
        rw [if_pos hanchored]
        rfl
      rw [if_pos hanchored, hregister]
      exact .cons (.flush _) (.nil _)
    · rw [if_neg hanchored]
      unfold Disk.flush
      rw [if_neg hanchored]
      exact .nil _

/-- **One operation**, of a process that keeps the discipline. -/
theorem perform_performed {complete : File → Prop} {op : Op ν} (o : Outcome)
    (hallows : draft.Allows path complete op) (hon : draft.On path log d)
    (hsettled : Settled path d) :
    Performed path log d draft (op.does d o) (op.perform d o).2
      (draft.after o (op.perform d o).1 op) := by
  have hstays : Performed path log d draft [] d draft := .refl hon hsettled
  cases op with
  | mkdirAll => cases draft <;> exact hstays
  | close file => cases draft <;> exact hstays
  | chmod file mode =>
    cases draft with
    | none => cases hallows
    | installed name file' f => cases hallows
    | own name file' f =>
      obtain rfl : file = file' := hallows
      obtain rfl : d.files file = f := hon.2.2.1
      simp only [Op.perform, Op.does]
      cases o.ok with
      | true => exact performed_setFile _ hon hsettled
      | false => exact hstays
  | write file bytes =>
    cases draft with
    | none => cases hallows
    | installed name file' f => cases hallows
    | own name file' f =>
      obtain rfl : file = file' := hallows
      obtain rfl : d.files file = f := hon.2.2.1
      simp only [Op.perform, Op.does]
      cases o.ok with
      | true => exact performed_setFile _ hon hsettled
      | false => exact performed_setFile _ hon hsettled
  | sync file =>
    cases draft with
    | none => cases hallows
    | installed name file' f => cases hallows
    | own name file' f =>
      obtain rfl : file = file' := hallows
      obtain rfl : d.files file = f := hon.2.2.1
      simp only [Op.perform, Op.does]
      cases o.ok with
      | true => exact performed_setFile _ hon hsettled
      | false => exact hstays
  | rename source target =>
    cases draft with
    | none => cases hallows
    | installed name file f => cases hallows
    | own name file f =>
      obtain ⟨rfl, rfl, hsynced, -⟩ := hallows
      simp only [Op.perform, Op.does]
      cases o.ok with
      | false => exact hstays
      | true =>
        -- the name was taken away by its own process only
        rcases hon.2.2.2.2 with hentry | hentry
        · simp only [hentry]
          obtain rfl : d.files file = f := hon.2.2.1
          exact performed_rename hon hsettled hsynced
        · simp only [hentry]
          exact hstays
  | remove name =>
    have htemporary : ∃ file, draft.temporary = some (name, file) := by
      cases draft with
      | none => cases hallows
      | own name' file f =>
        obtain rfl : name = name' := hallows
        exact ⟨file, rfl⟩
      | installed name' file f =>
        obtain rfl : name = name' := hallows
        exact ⟨file, rfl⟩
    have hafter : ∀ ok, draft.after o ok (.remove name) = draft := fun ok => by cases draft <;> rfl
    obtain ⟨file, htemporary⟩ := htemporary
    rw [hafter]
    simp only [Op.perform, Op.does]
    cases o.ok with
    | false => exact hstays
    | true =>
      cases d.entries name with
      | none => exact hstays
      | some file' => exact performed_remove htemporary hon hsettled
  | syncDir =>
    have hafter : ∀ ok, draft.after o ok .syncDir = draft := fun ok => by cases draft <;> rfl
    rw [hafter]
    simp only [Op.perform, Op.does]
    cases o.ok with
    | false => exact hstays
    | true => exact performed_flush hon hsettled

end Operations

end Cfscan.Lib.Files
