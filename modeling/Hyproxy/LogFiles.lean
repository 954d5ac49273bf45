import Mathlib.Data.Nat.Notation
import Mathlib.Tactic.Common
import Mathlib.Tactic.SplitIfs

/-!
Text streams with a buffer, and the rotating handler that writes log lines through
one (`logs.py`). What the operating system answers comes from outside. A flush that
fails may have written some of the pending lines, and may have lost some more. What
`logging` catches goes to `handleError`, and the handler goes on without the line.
-/
namespace Hyproxy.LogFiles

variable {α : Type}

/-- An open stream has a buffer of lines that are not in the file yet. -/
inductive Stream (α : Type)
  | closed
  | live (pending : List α)
  deriving Repr, DecidableEq

/-- How many lines were written before the failure, and how many were lost with it. -/
structure Failure where
  written : ℕ
  dropped : ℕ
  deriving Repr, DecidableEq

/-- An operation on a stream: the lines that reached the file, and whether it raised. -/
structure Effect (α : Type) where
  stream : Stream α
  reached : List α
  raised : Bool

def Failure.effect (f : Failure) (lines : List α) : Effect α :=
  ⟨.live (lines.drop (f.written + f.dropped)), lines.take f.written, true⟩

def Stream.write (outcome : Option Failure) (line : α) : Stream α → Effect α
  | .closed => ⟨.closed, [], true⟩
  | .live pending =>
    match outcome with
    | none => ⟨.live (pending ++ [line]), [], false⟩
    | some f => f.effect (pending ++ [line])

def Stream.flush (outcome : Option Failure) : Stream α → Effect α
  | .closed => ⟨.closed, [], true⟩
  | .live pending =>
    match outcome with
    | none => ⟨.live [], pending, false⟩
    | some f => f.effect pending

def Stream.close (outcome : Option Failure) : Stream α → Effect α
  | .closed => ⟨.closed, [], false⟩
  | .live pending =>
    match outcome with
    | none => ⟨.closed, pending, false⟩
    | some f => ⟨.closed, pending.take f.written, true⟩

def Stream.pending : Stream α → List α
  | .closed => []
  | .live pending => pending

def Stream.isLive : Stream α → Bool
  | .closed => false
  | .live _ => true

/-- The answers during `doRollover`: the lock, the size of the file under the lock, the close of
the stream, the renames, and what `_remember` finds. -/
structure Rollover where
  locks : Bool
  oversize : Bool
  close : Option Failure
  renames : Bool
  inode : Option ℕ
  unlocks : Bool
  deriving Repr, DecidableEq

/-- The answers during `emit`. -/
structure Answers where
  stat : Option ℕ
  close : Option Failure
  oversize : Bool
  rollover : Rollover
  opens : Bool
  write : Option Failure
  flush : Option Failure
  inode : Option ℕ
  deriving Repr, DecidableEq

/-- `SafeRotatingFileHandler`, with all lines that ever reached the file or an archive of it -/
structure Handler (α : Type) where
  stream : Option (Stream α)
  devIno : Option ℕ
  written : List α
  deriving Repr, DecidableEq

/-- The inode watch: the handler, and whether the close raised. -/
def watch (a : Answers) (h : Handler α) : Handler α × Bool :=
  match h.stream with
  | none => (h, false)
  | some s =>
    if a.stat ≠ h.devIno then
      let e := s.close a.close
      (⟨if e.raised then some e.stream else none, h.devIno, h.written ++ e.reached⟩, e.raised)
    else (h, false)

/-- `RotatingFileHandler.doRollover` and `_remember` -/
def rotate (r : Rollover) (h : Handler α) : Handler α × Bool :=
  match h.stream with
  | none => if r.renames then ({ h with devIno := r.inode }, false) else (h, true)
  | some s =>
    let e := s.close r.close
    if e.raised then (⟨some e.stream, h.devIno, h.written ++ e.reached⟩, true)
    else if r.renames then (⟨none, r.inode, h.written ++ e.reached⟩, false)
    else (⟨none, h.devIno, h.written ++ e.reached⟩, true)

def doRollover (r : Rollover) (h : Handler α) : Handler α × Bool :=
  if r.locks then
    let done := if r.oversize then rotate r h else (h, false)
    (done.1, done.2 || !r.unlocks)
  else (h, true)

/-- `StreamHandler.emit` -/
def streamEmit (a : Answers) (line : α) (h : Handler α) (s : Stream α) : Handler α :=
  let w := s.write a.write line
  if w.raised then ⟨some w.stream, h.devIno, h.written ++ w.reached⟩
  else
    let f := w.stream.flush a.flush
    ⟨some f.stream, h.devIno, h.written ++ w.reached ++ f.reached⟩

/-- `FileHandler.emit` -/
def fileEmit (a : Answers) (line : α) (h : Handler α) : Handler α :=
  match h.stream with
  | some s => streamEmit a line h s
  | none => if a.opens then streamEmit a line h (.live []) else h

/-- `BaseRotatingHandler.emit` -/
def baseEmit (a : Answers) (line : α) (h : Handler α) : Handler α :=
  if a.oversize then
    let rolled := doRollover a.rollover h
    if rolled.2 then rolled.1 else fileEmit a line rolled.1
  else fileEmit a line h

def remember (a : Answers) (h : Handler α) : Handler α :=
  if a.stat ≠ h.devIno then { h with devIno := a.inode } else h

/-- `SafeRotatingFileHandler.emit`: the handler, and whether it raised. -/
def emit (a : Answers) (line : α) (h : Handler α) : Handler α × Bool :=
  let left := watch a h
  if left.2 then left else (remember a (baseEmit a line left.1), false)

/-- `StreamHandler.flush` -/
def flush (outcome : Option Failure) (h : Handler α) : Handler α × Bool :=
  match h.stream with
  | none => (h, false)
  | some s =>
    let e := s.flush outcome
    (⟨some e.stream, h.devIno, h.written ++ e.reached⟩, e.raised)

/-! ### What goes through -/

/-- A failure that loses nothing. -/
def Keeps : Option Failure → Prop
  | none => True
  | some f => f.dropped = 0

instance : ∀ outcome, Decidable (Keeps outcome)
  | none => isTrue trivial
  | some f => inferInstanceAs (Decidable (f.dropped = 0))

/-- The stream that the inode watch leaves. -/
def watched (a : Answers) (h : Handler α) : Option (Stream α) :=
  if a.stat = h.devIno then h.stream else none

/-- The rollover goes through: it finds that there is nothing to do any more, or it closes the
stream and renames the files. -/
def Rolls (r : Rollover) (s : Option (Stream α)) : Prop :=
  r.locks = true ∧ r.unlocks = true ∧
    (r.oversize = true → r.renames = true ∧ (r.close = none ∨ (s.map Stream.isLive).getD false = false))

instance (r : Rollover) (s : Option (Stream α)) : Decidable (Rolls r s) :=
  inferInstanceAs (Decidable (_ ∧ _ ∧ (_ → _ ∧ (r.close = none ∨ _))))

/-- The stream that the line is written to, if there is one already. -/
def used (a : Answers) (h : Handler α) : Option (Stream α) :=
  if a.oversize = true ∧ a.rollover.oversize = true then none else watched a h

/-- Nothing goes wrong that `logging` passes over with the line lost: the rollover goes through if
there is one, the stream is open or can be opened, and what fails to be written stays in the
buffer. -/
def Takes (a : Answers) (h : Handler α) : Prop :=
  (a.oversize = true → Rolls a.rollover (watched a h)) ∧
    ((used a h).map Stream.isLive).getD a.opens = true ∧ Keeps a.write ∧ Keeps a.flush

instance (a : Answers) (h : Handler α) : Decidable (Takes a h) :=
  inferInstanceAs (Decidable ((_ → _) ∧ _ ∧ _ ∧ _))

/-- The lines in the file, and those in the buffer. -/
def Handler.inHand (h : Handler α) : List α :=
  h.written ++ (h.stream.map Stream.pending).getD []

theorem effect_keeps (f : Failure) (lines : List α) (h : Keeps (some f)) :
    (f.effect lines).reached ++ (f.effect lines).stream.pending = lines := by
  have hdropped : f.dropped = 0 := h
  simp only [Failure.effect, Stream.pending, hdropped, Nat.add_zero, List.take_append_drop]

theorem write_keeps (outcome : Option Failure) (line : α) (pending : List α) (h : Keeps outcome) :
    ((Stream.live pending).write outcome line).reached ++
      ((Stream.live pending).write outcome line).stream.pending = pending ++ [line] := by
  cases outcome with
  | none => rfl
  | some f => exact effect_keeps f (pending ++ [line]) h

theorem write_quiet (outcome : Option Failure) (line : α) (s : Stream α)
    (h : (s.write outcome line).raised = false) :
    (s.write outcome line).stream.pending = s.pending ++ [line] := by
  cases s with
  | closed => cases h
  | live pending =>
    cases outcome with
    | none => rfl
    | some f => cases h

theorem flush_keeps (outcome : Option Failure) (s : Stream α) (h : Keeps outcome) :
    (s.flush outcome).reached ++ (s.flush outcome).stream.pending = s.pending := by
  cases s with
  | closed => rfl
  | live pending =>
    cases outcome with
    | none => exact List.append_nil pending
    | some f => exact effect_keeps f pending h

/-- A flush that succeeds writes the whole buffer. -/
theorem flush_reached (outcome : Option Failure) (s : Stream α)
    (h : (s.flush outcome).raised = false) : (s.flush outcome).reached = s.pending := by
  cases s with
  | closed => cases h
  | live pending =>
    cases outcome with
    | none => rfl
    | some f => cases h

theorem close_reached (outcome : Option Failure) (s : Stream α)
    (h : (s.close outcome).raised = false) : (s.close outcome).reached = s.pending := by
  cases s with
  | closed => rfl
  | live pending =>
    cases outcome with
    | none => rfl
    | some f => cases h

theorem close_quiet (outcome : Option Failure) (s : Stream α)
    (h : outcome = none ∨ s.isLive = false) : (s.close outcome).raised = false := by
  cases s with
  | closed => rfl
  | live pending =>
    rcases h with rfl | h
    · rfl
    · cases h

/-! ### One line -/

theorem watch_keeps (a : Answers) (h : Handler α) (hquiet : (watch a h).2 = false) :
    (watch a h).1.inHand = h.inHand ∧ (watch a h).1.stream = watched a h := by
  unfold watch watched at *
  cases hs : h.stream with
  | none => exact ⟨rfl, by rw [hs, ite_self]⟩
  | some s =>
    simp only [hs] at hquiet ⊢
    by_cases hstat : a.stat = h.devIno
    · rw [if_neg (not_not_intro hstat), if_pos hstat]
      exact ⟨rfl, hs⟩
    · rw [if_pos hstat] at hquiet ⊢
      rw [if_neg hstat]
      have hraised : (s.close a.close).raised = false := hquiet
      simp only [Handler.inHand, hraised, hs, close_reached _ _ hraised]
      exact ⟨List.append_nil _, rfl⟩

theorem rotate_keeps (r : Rollover) (h : Handler α) (hrenames : r.renames = true)
    (hclose : r.close = none ∨ (h.stream.map Stream.isLive).getD false = false) :
    (rotate r h).2 = false ∧ (rotate r h).1.inHand = h.inHand ∧ (rotate r h).1.stream = none := by
  unfold rotate
  cases hs : h.stream with
  | none =>
    simp only [if_pos hrenames]
    exact ⟨trivial, by simp only [Handler.inHand, hs], trivial⟩
  | some s =>
    rw [hs] at hclose
    have hraised := close_quiet r.close s hclose
    simp only [hraised, Bool.false_eq_true, if_false, if_pos hrenames, Handler.inHand, hs,
      close_reached _ _ hraised]
    exact ⟨trivial, List.append_nil _, trivial⟩

theorem doRollover_keeps (r : Rollover) (h : Handler α) (hrolls : Rolls r h.stream) :
    (doRollover r h).2 = false ∧ (doRollover r h).1.inHand = h.inHand ∧
      (doRollover r h).1.stream = if r.oversize = true then none else h.stream := by
  obtain ⟨hlocks, hunlocks, hrotates⟩ := hrolls
  unfold doRollover
  rw [if_pos hlocks, hunlocks]
  by_cases hoversize : r.oversize = true
  · obtain ⟨hrenames, hclose⟩ := hrotates hoversize
    obtain ⟨hquiet, hhand, hstream⟩ := rotate_keeps r h hrenames hclose
    simp only [if_pos hoversize]
    exact ⟨by rw [hquiet]; rfl, hhand, hstream⟩
  · simp only [if_neg hoversize]
    exact ⟨rfl, trivial, trivial⟩

theorem streamEmit_keeps (a : Answers) (line : α) (h : Handler α) (pending : List α)
    (hwrite : Keeps a.write) (hflush : Keeps a.flush) :
    (streamEmit a line h (.live pending)).inHand = h.written ++ (pending ++ [line]) := by
  have hw := write_keeps a.write line pending hwrite
  cases hraised : ((Stream.live pending).write a.write line).raised with
  | true =>
    simp only [streamEmit, hraised, if_true, Handler.inHand, Option.map_some, Option.getD_some,
      List.append_assoc]
    rw [hw]
  | false =>
    have hf := flush_keeps a.flush ((Stream.live pending).write a.write line).stream hflush
    simp only [streamEmit, hraised, Bool.false_eq_true, if_false, Handler.inHand, Option.map_some,
      Option.getD_some, List.append_assoc]
    rw [hf, hw]

theorem fileEmit_keeps (a : Answers) (line : α) (h : Handler α)
    (hopen : (h.stream.map Stream.isLive).getD a.opens = true) (hwrite : Keeps a.write)
    (hflush : Keeps a.flush) : (fileEmit a line h).inHand = h.inHand ++ [line] := by
  unfold fileEmit Handler.inHand
  cases hs : h.stream with
  | none =>
    rw [hs] at hopen
    have hopens : a.opens = true := hopen
    simp only [if_pos hopens]
    exact (streamEmit_keeps a line h [] hwrite hflush).trans (by simp)
  | some s =>
    rw [hs] at hopen
    cases s with
    | closed => cases hopen
    | live pending =>
      exact (streamEmit_keeps a line h pending hwrite hflush).trans (List.append_assoc ..).symm

theorem remember_inHand (a : Answers) (h : Handler α) : (remember a h).inHand = h.inHand := by
  unfold remember
  split_ifs <;> rfl

theorem baseEmit_keeps (a : Answers) (line : α) (h : Handler α) (left : Option (Stream α))
    (hstream : h.stream = left) (hrolls : a.oversize = true → Rolls a.rollover left)
    (hopen : ((if a.oversize = true ∧ a.rollover.oversize = true then none else left).map
      Stream.isLive).getD a.opens = true)
    (hwrite : Keeps a.write) (hflush : Keeps a.flush) :
    (baseEmit a line h).inHand = h.inHand ++ [line] := by
  subst hstream
  unfold baseEmit
  by_cases hoversize : a.oversize = true
  · obtain ⟨hquiet, hkept, hleft⟩ := doRollover_keeps a.rollover h (hrolls hoversize)
    simp only [if_pos hoversize, hquiet, Bool.false_eq_true, if_false]
    rw [← hkept]
    refine fileEmit_keeps a line _ ?_ hwrite hflush
    rw [hleft]
    simpa only [hoversize, true_and] using hopen
  · rw [if_neg hoversize]
    rw [if_neg fun h => hoversize h.1] at hopen
    exact fileEmit_keeps a line _ hopen hwrite hflush

/-- A line that the handler takes is in the file or in the buffer afterwards, and so is all that was
there. -/
theorem emit_keeps (a : Answers) (line : α) (h : Handler α) (htakes : Takes a h)
    (hquiet : (emit a line h).2 = false) : (emit a line h).1.inHand = h.inHand ++ [line] := by
  obtain ⟨hrolls, hopen, hwrite, hflush⟩ := htakes
  unfold emit at hquiet ⊢
  by_cases hraised : (watch a h).2 = true
  · rw [if_pos hraised] at hquiet
    exact absurd (hquiet.symm.trans hraised) Bool.false_ne_true
  · obtain ⟨hhand, hstream⟩ := watch_keeps a h (Bool.eq_false_iff.mpr hraised)
    rw [if_neg hraised, ← hhand, remember_inHand]
    exact baseEmit_keeps a line _ _ hstream hrolls hopen hwrite hflush

/-- After a flush that succeeds the buffer is in the file. -/
theorem flush_written (outcome : Option Failure) (h : Handler α)
    (hquiet : (flush outcome h).2 = false) : (flush outcome h).1.written = h.inHand := by
  unfold flush Handler.inHand at *
  cases hs : h.stream with
  | none => exact (List.append_nil _).symm
  | some s =>
    simp only [hs] at hquiet
    exact congrArg _ (flush_reached outcome s hquiet)

/-! ### The file only grows -/

theorem watch_grows (a : Answers) (h : Handler α) : h.written <+: (watch a h).1.written := by
  unfold watch
  cases h.stream with
  | none => exact List.prefix_rfl
  | some s =>
    dsimp only
    split_ifs
    · exact List.prefix_append _ _
    · exact List.prefix_append _ _
    · exact List.prefix_rfl

theorem doRollover_grows (r : Rollover) (h : Handler α) :
    h.written <+: (doRollover r h).1.written := by
  unfold doRollover rotate
  cases h.stream with
  | none =>
    dsimp only
    split_ifs <;> exact List.prefix_rfl
  | some s =>
    dsimp only
    split_ifs
    · exact List.prefix_append _ _
    · exact List.prefix_append _ _
    · exact List.prefix_append _ _
    · exact List.prefix_rfl
    · exact List.prefix_rfl

theorem streamEmit_grows (a : Answers) (line : α) (h : Handler α) (s : Stream α) :
    h.written <+: (streamEmit a line h s).written := by
  unfold streamEmit
  dsimp only
  split_ifs
  · exact List.prefix_append _ _
  · exact (List.prefix_append _ _).trans (List.prefix_append _ _)

theorem fileEmit_grows (a : Answers) (line : α) (h : Handler α) :
    h.written <+: (fileEmit a line h).written := by
  unfold fileEmit
  cases h.stream with
  | none =>
    dsimp only
    split_ifs
    · exact streamEmit_grows a line h _
    · exact List.prefix_rfl
  | some s => exact streamEmit_grows a line h s

theorem baseEmit_grows (a : Answers) (line : α) (h : Handler α) :
    h.written <+: (baseEmit a line h).written := by
  unfold baseEmit
  dsimp only
  split_ifs
  · exact doRollover_grows a.rollover h
  · exact (doRollover_grows a.rollover h).trans (fileEmit_grows a line _)
  · exact fileEmit_grows a line h

theorem emit_grows (a : Answers) (line : α) (h : Handler α) :
    h.written <+: (emit a line h).1.written := by
  have hremember : ∀ h : Handler α, (remember a h).written = h.written := fun h => by
    unfold remember
    split_ifs <;> rfl
  unfold emit
  dsimp only
  split_ifs
  · exact watch_grows a h
  · rw [hremember]
    exact (watch_grows a h).trans (baseEmit_grows a line _)

theorem flush_grows (outcome : Option Failure) (h : Handler α) :
    h.written <+: (flush outcome h).1.written := by
  unfold flush
  cases h.stream with
  | none => exact List.prefix_rfl
  | some s => exact List.prefix_append _ _

end Hyproxy.LogFiles
