import Mathlib.Data.List.Basic
import Mathlib.Logic.Function.Basic

/-!
# A directory on a disk that can crash

A process sees its writes at once; the device has them later. `File.synced` says whether the bytes
of a file are all there, and `Disk.changes` are the changes of the directory that need not be. A
crash keeps any of these, in their order, and makes anything of the files that are not synced.

A directory can be so new that its own name is not on the device yet (`anchored`): then syncing it
settles nothing.

Files are told apart by numbers, as inodes are, so that a name can come to stand for another file
while the old one is still being written. Only names of one directory are modelled. A write that is
torn leaves a file that is not synced, whose bytes after a crash can be any.
-/

set_option autoImplicit false

namespace Cfscan.Lib.Files

/-! ## The disk

The changes of the directory are kept apart from its state on the device, in the order in
which they were made, since a crash may keep any of them. The bytes of a file need no such
list: what is not synced can be anything afterwards. -/

structure File where
  mode : Nat
  data : List UInt8
  synced : Bool
deriving DecidableEq, Repr

/-- A change of the directory: the names it is about, and the file behind them. -/
inductive Change (ν : Type) where
  | link (name : ν) (file : Nat)
  | unlink (name : ν)
  | rename (source target : ν) (file : Nat)

structure Disk (ν : Type) where
  files : Nat → File
  /-- The files below it are in use. -/
  allocated : Nat
  anchored : Bool
  /-- The directory on the device. -/
  settled : ν → Option Nat
  changes : List (Change ν)

variable {ν : Type} [DecidableEq ν]

def Change.apply (entries : ν → Option Nat) : Change ν → ν → Option Nat
  | .link name file => Function.update entries name (some file)
  | .unlink name => Function.update entries name none
  | .rename source target file =>
    Function.update (Function.update entries source none) target (some file)

/-- What a change makes of one name, where it is about that name. -/
def Change.at? (name : ν) : Change ν → Option (Option Nat)
  | .link name' file => if name' = name then some (some file) else none
  | .unlink name' => if name' = name then some none else none
  | .rename source target file =>
    if target = name then some (some file) else if source = name then some none else none

theorem Change.apply_eq (entries : ν → Option Nat) (change : Change ν) (name : ν) :
    change.apply entries name = (change.at? name).getD (entries name) := by
  cases change with
  | link name' file =>
    simp only [Change.apply, Change.at?, Function.update_apply]
    by_cases heq : name' = name
    · rw [if_pos heq.symm, if_pos heq, Option.getD_some]
    · rw [if_neg (Ne.symm heq), if_neg heq, Option.getD_none]
  | unlink name' =>
    simp only [Change.apply, Change.at?, Function.update_apply]
    by_cases heq : name' = name
    · rw [if_pos heq.symm, if_pos heq, Option.getD_some]
    · rw [if_neg (Ne.symm heq), if_neg heq, Option.getD_none]
  | rename source target file =>
    simp only [Change.apply, Change.at?, Function.update_apply]
    by_cases htarget : target = name
    · rw [if_pos htarget.symm, if_pos htarget, Option.getD_some]
    · rw [if_neg (Ne.symm htarget), if_neg htarget]
      by_cases hsource : source = name
      · rw [if_pos hsource.symm, if_pos hsource, Option.getD_some]
      · rw [if_neg (Ne.symm hsource), if_neg hsource, Option.getD_none]

namespace Disk

/-- The directory as the processes see it. -/
def entries (d : Disk ν) : ν → Option Nat := d.changes.foldl Change.apply d.settled

/-- The bytes under a name. -/
def read (d : Disk ν) (name : ν) : Option File := (d.entries name).map d.files

def change (d : Disk ν) (c : Change ν) : Disk ν := { d with changes := d.changes ++ [c] }

def setFile (d : Disk ν) (file : Nat) (f : File) : Disk ν :=
  { d with files := Function.update d.files file f }

/-- `open` with `O_CREATE|O_EXCL`. -/
def create (d : Disk ν) (name : ν) (mode : Nat) : Option (Nat × Disk ν) :=
  match d.entries name with
  | some _ => none
  | none =>
    let d' := { d with allocated := d.allocated + 1 }
    some (d.allocated, (d'.setFile d.allocated ⟨mode, [], false⟩).change (.link name d.allocated))

/-- `fsync` of the directory. -/
def flush (d : Disk ν) : Disk ν :=
  if d.anchored then { d with settled := d.entries, changes := [] } else d

/-- What a crash does: which changes it keeps, and what it makes of the files that are not
synced. -/
structure Damage where
  kept : List Bool
  anchors : Bool
  garbage : Nat → File

/-- The changes that are kept. -/
def keep : List Bool → List (Change ν) → List (Change ν)
  | true :: kept, c :: changes => c :: keep kept changes
  | false :: kept, _ :: changes => keep kept changes
  | _, _ => []

def crash (d : Disk ν) (damage : Damage) : Disk ν where
  files := fun file => if (d.files file).synced then d.files file else damage.garbage file
  allocated := d.allocated
  anchored := d.anchored || damage.anchors
  settled := (keep damage.kept d.changes).foldl Change.apply d.settled
  changes := []

/-! ## What a name can stand for after a crash

The state on the device and every change since are options of a name. A change adds one, a
sync of an anchored directory leaves the last one only, and a crash picks one of them. -/

/-- The files a name can stand for after a crash, the one it stands for now at the end. -/
def options (d : Disk ν) (name : ν) : List (Option Nat) :=
  d.settled name :: d.changes.filterMap (Change.at? name)

omit [DecidableEq ν] in
theorem keep_sublist (kept : List Bool) (changes : List (Change ν)) :
    (keep kept changes).Sublist changes := by
  induction kept generalizing changes with
  | nil => exact List.nil_sublist _
  | cons k kept ih =>
    cases changes with
    | nil => cases k <;> exact List.nil_sublist _
    | cons c changes =>
      cases k with
      | true => exact (ih changes).cons_cons c
      | false => exact (ih changes).cons c

/-- The changes of a directory, as they are seen under one name. -/
theorem foldl_apply (changes : List (Change ν)) (entries : ν → Option Nat) (name : ν) :
    changes.foldl Change.apply entries name =
      (entries name :: changes.filterMap (Change.at? name)).getLast (List.cons_ne_nil _ _) := by
  induction changes generalizing entries with
  | nil => rfl
  | cons c changes ih =>
    rw [List.foldl_cons, ih, Change.apply_eq]
    cases hat : c.at? name with
    | none => simp [hat]
    | some option => simp [hat]

theorem entries_eq (d : Disk ν) (name : ν) :
    d.entries name = (d.options name).getLast (List.cons_ne_nil _ _) :=
  foldl_apply d.changes d.settled name

theorem entries_mem (d : Disk ν) (name : ν) : d.entries name ∈ d.options name := by
  rw [entries_eq]
  exact List.getLast_mem _

theorem options_change (d : Disk ν) (c : Change ν) (name : ν) :
    (d.change c).options name = d.options name ++ (c.at? name).toList := by
  unfold options change
  rw [List.filterMap_append, List.cons_append]
  cases hat : c.at? name <;> simp [hat]

theorem options_flush (d : Disk ν) (name : ν) :
    d.flush.options name = if d.anchored then [d.entries name] else d.options name := by
  unfold flush
  split <;> rfl

/-- A crash leaves one of the options. -/
theorem options_crash (d : Disk ν) (damage : Damage) (name : ν) :
    ∃ option ∈ d.options name, (d.crash damage).options name = [option] := by
  refine ⟨_, ?_, rfl⟩
  rw [show (d.crash damage).settled name = _ from foldl_apply _ _ _]
  have hsub : ((keep damage.kept d.changes).filterMap (Change.at? name)).Sublist
      (d.changes.filterMap (Change.at? name)) :=
    (keep_sublist damage.kept d.changes).filterMap _
  exact (hsub.cons_cons (d.settled name)).subset (List.getLast_mem _)

theorem entries_change (d : Disk ν) (c : Change ν) (name : ν) :
    (d.change c).entries name = (c.at? name).getD (d.entries name) := by
  unfold entries change
  rw [List.foldl_append]
  exact Change.apply_eq _ c name

@[simp] theorem entries_setFile (d : Disk ν) (file : Nat) (f : File) :
    (d.setFile file f).entries = d.entries := rfl

@[simp] theorem options_setFile (d : Disk ν) (file : Nat) (f : File) (name : ν) :
    (d.setFile file f).options name = d.options name := rfl

omit [DecidableEq ν] in
@[simp] theorem files_change (d : Disk ν) (c : Change ν) : (d.change c).files = d.files := rfl

@[simp] theorem files_flush (d : Disk ν) : d.flush.files = d.files := by
  unfold flush
  split <;> rfl

theorem entries_flush (d : Disk ν) : d.flush.entries = d.entries := by
  unfold flush
  split <;> rfl

end Disk

end Cfscan.Lib.Files
