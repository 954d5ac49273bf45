import Mathlib.Data.Int.Notation
import Mathlib.Data.Nat.Notation
import Mathlib.Logic.Function.Basic
import Mathlib.Tactic.SplitIfs

/-!
The rotating writer of the data plane's logs. When the live file would get too long, it is closed,
the archives move up by one, the live file becomes the first archive, and a new one is opened.
What the file operations answer comes from outside.
-/
namespace Hyproxy.LogRotate

abbrev Bytes := List UInt8

/-- The path itself, and the path with a number behind it. -/
inductive Name
  | live
  | archive (i : ℤ)
  deriving Repr, DecidableEq

abbrev Disk := Name → Option Bytes

/-- `os.Remove` -/
def remove (disk : Disk) (name : Name) : Disk := Function.update disk name none

/-- `os.Rename`, none when there is no such file. -/
def rename (disk : Disk) (old new : Name) : Option Disk :=
  (disk old).map fun content => Function.update (Function.update disk old none) new (some content)

inductive RenameFault
  | notExist
  | other
  deriving Repr, DecidableEq

/-- The file operations that fail during a `Write`: the close, the removal, the renames of the
archives, the rename of the live file, the opening of the next one and its `Stat`, and the write
itself after so many bytes. -/
structure Faults where
  close : Bool
  remove : Bool
  shift : ℕ → Bool
  live : Option RenameFault
  openFile : Bool
  stat : Bool
  write : Option ℕ

def noFaults : Faults := ⟨false, false, fun _ => false, none, false, false, none⟩

structure Writer where
  isOpen : Bool
  maxBytes : ℤ
  backups : ℤ
  size : ℕ
  deriving Repr, DecidableEq

structure State where
  writer : Writer
  disk : Disk

/-- `open`; the flag tells of an error. The file is there even when only `Stat` fails. -/
def openLive (s : State) (f : Faults) : State × Bool :=
  if f.openFile then (s, true)
  else
    let content := (s.disk .live).getD []
    let disk := Function.update s.disk .live (some content)
    if f.stat then (⟨s.writer, disk⟩, true)
    else (⟨{ s.writer with isOpen := true, size := content.length }, disk⟩, false)

/-- The renames of the archives with the numbers up to this one, the highest first. Their errors
are ignored. -/
def shift (fails : ℕ → Bool) : ℕ → Disk → Disk
  | 0, disk => disk
  | i + 1, disk =>
    let next :=
      if fails (i + 1) then disk
      else (rename disk (.archive (i + 1)) (.archive (i + 2))).getD disk
    shift fails i next

/-- The rename of the live file; none for an error other than that it does not exist. -/
def archiveLive (disk : Disk) (fault : Option RenameFault) : Option Disk :=
  match fault with
  | some .other => none
  | some .notExist => some disk
  | none => some ((rename disk .live (.archive 1)).getD disk)

def State.closed (s : State) : State := ⟨{ s.writer with isOpen := false }, s.disk⟩

/-- The oldest archive is removed, and the others move up. -/
def moveArchives (s : State) (f : Faults) : Disk :=
  shift f.shift (s.writer.backups - 1).toNat
    (if f.remove then s.disk else remove s.disk (.archive s.writer.backups))

/-- A file whose `Close` fails cannot be used either; one that is closed fails to close. -/
def rotate (s : State) (f : Faults) : State × Bool :=
  if (!s.writer.isOpen || f.close) = true then (s.closed, true)
  else
    match archiveLive (moveArchives s f) f.live with
    | none => (⟨s.closed.writer, moveArchives s f⟩, true)
    | some disk => openLive ⟨s.closed.writer, disk⟩ f

/-- `os.ErrClosed`, or an error of the write itself. -/
inductive WriteError
  | closed
  | io
  deriving Repr, DecidableEq

/-- The state, the number of bytes written, and the error. -/
structure Outcome where
  state : State
  written : ℕ
  error : Option WriteError

/-- What reaches the file of a write that fails after so many bytes, or does not fail. -/
def reached (p : Bytes) (fault : Option ℕ) : Bytes := (fault.map p.take).getD p

/-- `w.f.Write` -/
def appendLive (s : State) (p : Bytes) (fault : Option ℕ) : Outcome :=
  if s.writer.isOpen then
    ⟨⟨{ s.writer with size := s.writer.size + (reached p fault).length },
        Function.update s.disk .live (some ((s.disk .live).getD [] ++ reached p fault))⟩,
      (reached p fault).length, fault.map fun _ => .io⟩
  else ⟨s, 0, some .closed⟩

/-- The live file would get too long, and has something in it. -/
def Due (w : Writer) (p : Bytes) : Prop :=
  0 < w.maxBytes ∧ w.maxBytes < w.size + p.length ∧ 0 < w.size

instance (w : Writer) (p : Bytes) : Decidable (Due w p) := by
  unfold Due
  infer_instance

/-- The error of a rotation is only reported. -/
def write (s : State) (p : Bytes) (f : Faults) : Outcome :=
  appendLive (if Due s.writer p then (rotate s f).1 else s) p f.write

/-- `New` -/
def newWriter (maxBytes backups : ℤ) (disk : Disk) (f : Faults) : Option State :=
  let (s, failed) := openLive ⟨⟨false, maxBytes, backups, 0⟩, disk⟩ f
  if failed then none else some s

abbrev Op := Bytes × Faults

def after (s : State) (ops : List Op) : State :=
  ops.foldl (fun s op => (write s op.1 op.2).state) s

theorem after_concat (s : State) (ops : List Op) (op : Op) :
    after s (ops ++ [op]) = (write (after s ops) op.1 op.2).state := by
  rw [after, List.foldl_append]
  rfl

end Hyproxy.LogRotate
