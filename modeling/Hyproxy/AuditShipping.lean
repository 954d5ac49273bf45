import Hyproxy.LogFiles
import Hyproxy.Runs
import Mathlib.Data.List.Sort
import Mathlib.Logic.Function.Basic

/-!
Shipping of the audit tables (`audit/shipping.py`). A run goes through the three
streams in one transaction: it takes a batch of rows past the stored cursor, hands
their records to a sink, and then moves the cursor to the last of them. Where a sink
raises, the cursors are rolled back; what went to the sink stays there.
-/
namespace Hyproxy.AuditShipping

open LogFiles Runs

abbrev Text := List Char

/-- The detail columns keep their JSON as it is. -/
structure AuthEvent (δ : Type) where
  id : ℕ
  ts : Text
  eventType : Text
  userId : Option Text
  sessionId : Option Text
  clientId : Option Text
  sourceIp : Text
  success : Bool
  detail : δ
  deriving DecidableEq

structure AuditLog where
  id : ℕ
  ts : Text
  userId : Option Text
  resourceId : Option Text
  port : Option ℕ
  decision : Text
  reason : Text
  sourceIp : Text
  deriving DecidableEq

structure PolicyChange (δ : Type) where
  id : ℕ
  ts : Text
  actorId : Text
  entityType : Text
  entityId : Option Text
  action : Text
  changeJson : δ
  deriving DecidableEq

inductive Value (δ : Type)
  | null
  | text (s : Text)
  | int (n : ℕ)
  | json (d : δ)
  deriving DecidableEq

abbrev Record (δ : Type) := List (Text × Value δ)

variable {δ : Type}

def nullable : Option Text → Value δ
  | none => .null
  | some s => .text s

def highSeverity : List Text :=
  ["login.break_glass.used".toList, "oidc.code.replay_detected".toList,
    "oidc.refresh.reuse_detected".toList, "session.stale_ip".toList, "stepup.failure".toList,
    "admin.totp_reset".toList]

def isHighSeverity (eventType : Text) : Bool := highSeverity.contains eventType

def severity (high : Bool) : Text := if high then "high".toList else "informational".toList

def fmtAuthEvent (row : AuthEvent δ) : Record δ :=
  [("stream".toList, .text "auth_events".toList), ("id".toList, .int row.id),
    ("ts".toList, .text row.ts), ("signature".toList, .text row.eventType),
    ("user".toList, nullable row.userId), ("session_id".toList, nullable row.sessionId),
    ("app".toList, nullable row.clientId), ("src".toList, .text row.sourceIp),
    ("action".toList, .text (if row.success then "success".toList else "failure".toList)),
    ("detail".toList, .json row.detail),
    ("severity".toList, .text (severity (isHighSeverity row.eventType)))]

def fmtAuditLog (row : AuditLog) : Record δ :=
  [("stream".toList, .text "audit_log".toList), ("id".toList, .int row.id),
    ("ts".toList, .text row.ts), ("user".toList, nullable row.userId),
    ("resource_id".toList, nullable row.resourceId),
    ("dest_port".toList, (row.port.map Value.int).getD .null),
    ("action".toList,
      .text (if row.decision = "allow".toList then "allowed".toList else "blocked".toList)),
    ("reason".toList, .text row.reason), ("src".toList, .text row.sourceIp),
    ("severity".toList, .text (severity (row.decision = "deny".toList)))]

def fmtPolicyChange (row : PolicyChange δ) : Record δ :=
  [("stream".toList, .text "policy_changes".toList), ("id".toList, .int row.id),
    ("ts".toList, .text row.ts), ("user".toList, .text row.actorId),
    ("object_category".toList, .text row.entityType),
    ("object_id".toList, nullable row.entityId), ("action".toList, .text row.action),
    ("change".toList, .json row.changeJson), ("severity".toList, .text (severity false))]

inductive StreamName
  | authEvents
  | auditLog
  | policyChanges
  deriving Repr, DecidableEq

structure Tables (δ : Type) where
  authEvents : List (AuthEvent δ)
  auditLog : List AuditLog
  policyChanges : List (PolicyChange δ)

/-- The rows of a stream with their records. -/
def rowsOf (t : Tables δ) : StreamName → List (ℕ × Record δ)
  | .authEvents => t.authEvents.map fun row => (row.id, fmtAuthEvent row)
  | .auditLog => t.auditLog.map fun row => (row.id, fmtAuditLog row)
  | .policyChanges => t.policyChanges.map fun row => (row.id, fmtPolicyChange row)

/-! ### Sinks -/

/-- `JsonLinesSink`, with all lines that ever went through the stream -/
structure TextSink (α : Type) where
  stream : Stream α
  written : List α
  deriving DecidableEq

/-- The answers to the writes of a batch and to the flush at its end. -/
structure BatchAnswers where
  writes : ℕ → Option Failure
  emits : ℕ → Answers
  flush : Option Failure

variable {α : Type}

def TextSink.writeAll (writes : ℕ → Option Failure) : ℕ → List α → TextSink α → TextSink α × Bool
  | _, [], s => (s, false)
  | i, line :: rest, s =>
    let e := s.stream.write (writes i) line
    if e.raised then (⟨e.stream, s.written ++ e.reached⟩, true)
    else TextSink.writeAll writes (i + 1) rest ⟨e.stream, s.written ++ e.reached⟩

def TextSink.emit (a : BatchAnswers) (lines : List α) (s : TextSink α) : TextSink α × Bool :=
  let done := s.writeAll a.writes 0 lines
  if done.2 then done
  else
    let e := done.1.stream.flush a.flush
    (⟨e.stream, done.1.written ++ e.reached⟩, e.raised)

/-- The loop of `RotatingFileSink.emit` -/
def emitAll (emits : ℕ → Answers) : ℕ → List α → Handler α → Handler α × Bool
  | _, [], h => (h, false)
  | i, line :: rest, h =>
    let e := LogFiles.emit (emits i) line h
    if e.2 then e else emitAll emits (i + 1) rest e.1

/-- `RotatingFileSink.emit` -/
def fileSinkEmit (a : BatchAnswers) (lines : List α) (h : Handler α) : Handler α × Bool :=
  let done := emitAll a.emits 0 lines h
  if done.2 then done else LogFiles.flush a.flush done.1

inductive LogSink
  | jsonLines
  | rotatingFile
  deriving Repr, DecidableEq

structure Sinks (δ : Type) where
  stdout : TextSink (Record δ)
  auditFile : Handler (Record δ)
  deriving DecidableEq

/-- `{**rec, "service": "audit"}` -/
def withService (r : Record δ) : Record δ := r ++ [("service".toList, .text "audit".toList)]

def Sinks.emit (sink : LogSink) (a : BatchAnswers) (records : List (Record δ)) (s : Sinks δ) :
    Sinks δ × Bool :=
  match sink with
  | .jsonLines =>
    let e := s.stdout.emit a records
    ({ s with stdout := e.1 }, e.2)
  | .rotatingFile =>
    let e := fileSinkEmit a (records.map withService) s.auditFile
    ({ s with auditFile := e.1 }, e.2)

/-! ### Runs -/

abbrev Cursors := StreamName → Option ℕ

/-- `select(model).where(model.id > cursor).order_by(model.id).limit(batch_size)` -/
def selectBatch (rows : List (ℕ × Record δ)) (cursor batchSize : ℕ) : List (ℕ × Record δ) :=
  ((rows.filter fun r => cursor < r.1).insertionSort fun a b => a.1 ≤ b.1).take batchSize

/-- What a run has done so far. -/
structure Shipping (δ : Type) where
  cursors : Cursors
  sinks : Sinks δ
  shipped : List (StreamName × ℕ)
  high : ℕ

def isHigh (r : Record δ) : Bool :=
  match r.lookup "severity".toList with
  | some (.text s) => s = "high".toList
  | _ => false

/-- The batch of a stream, and `_advance` after it. -/
def Shipping.advance (s : Shipping δ) (stream : StreamName) (rows : List (ℕ × Record δ))
    (sinks : Sinks δ) (lastId : ℕ) : Shipping δ where
  cursors := Function.update s.cursors stream (some lastId)
  sinks := sinks
  shipped := s.shipped ++ [(stream, rows.length)]
  high := s.high + (rows.filter fun r => isHigh r.2).length

/-- The loop of `ship`: what was done, and whether it raised. -/
def shipStreams (sink : LogSink) (batchSize : ℕ) (answers : StreamName → BatchAnswers)
    (tables : Tables δ) : List StreamName → Shipping δ → Shipping δ × Bool
  | [], s => (s, false)
  | stream :: rest, s =>
    let rows := selectBatch (rowsOf tables stream) ((s.cursors stream).getD 0) batchSize
    match rows.getLast? with
    | none =>
      shipStreams sink batchSize answers tables rest
        { s with shipped := s.shipped ++ [(stream, 0)] }
    | some last =>
      let e := s.sinks.emit sink (answers stream) (rows.map Prod.snd)
      if e.2 then ({ s with sinks := e.1 }, true)
      else
        shipStreams sink batchSize answers tables rest (s.advance stream rows e.1 last.1)

def streams : List StreamName := [.authEvents, .auditLog, .policyChanges]

structure State (δ : Type) where
  tables : Tables δ
  cursors : Cursors
  sinks : Sinks δ

def ship (sink : LogSink) (batchSize : ℕ) (answers : StreamName → BatchAnswers) (s : State δ) :
    Shipping δ × Bool :=
  shipStreams sink batchSize answers s.tables streams ⟨s.cursors, s.sinks, [], 0⟩

inductive Row (δ : Type)
  | authEvent (row : AuthEvent δ)
  | auditLog (row : AuditLog)
  | policyChange (row : PolicyChange δ)

/-- Between the runs rows are inserted, and new processes start with sinks of their own. -/
inductive Event (δ : Type)
  | insert (row : Row δ)
  | newProcess
  | ship (sink : LogSink) (batchSize : ℕ) (answers : StreamName → BatchAnswers) (commits : Bool)

def Tables.insertRow (t : Tables δ) : Row δ → Tables δ
  | .authEvent row => { t with authEvents := t.authEvents ++ [row] }
  | .auditLog row => { t with auditLog := t.auditLog ++ [row] }
  | .policyChange row => { t with policyChanges := t.policyChanges ++ [row] }

def Sinks.reopen (s : Sinks δ) : Sinks δ :=
  ⟨⟨.live [], s.stdout.written⟩, ⟨none, none, s.auditFile.written⟩⟩

def step (s : State δ) : Event δ → State δ
  | .insert row => { s with tables := s.tables.insertRow row }
  | .newProcess => { s with sinks := s.sinks.reopen }
  | .ship sink batchSize answers commits =>
    match ship sink batchSize answers s with
    | (done, false) =>
      if commits then { s with cursors := done.cursors, sinks := done.sinks }
      else { s with sinks := done.sinks }
    | (done, true) => { s with sinks := done.sinks }

def start : State δ :=
  ⟨⟨[], [], []⟩, fun _ => none, ⟨⟨.live [], []⟩, ⟨none, none, []⟩⟩⟩

/-- The record has reached the sink. -/
def Written (s : Sinks δ) (r : Record δ) : Prop :=
  r ∈ s.stdout.written ∨ withService r ∈ s.auditFile.written

/-- No cursor is past a row that was not written to the sink. -/
def AtLeastOnce (s : State δ) : Prop :=
  ∀ stream, ∀ row ∈ rowsOf s.tables stream, row.1 ≤ (s.cursors stream).getD 0 →
    Written s.sinks row.2

/-! ### The condition -/

/-- The handler takes every line of the batch that it gets to. -/
def TakesAll (emits : ℕ → Answers) : ℕ → List α → Handler α → Prop
  | _, [], _ => True
  | i, line :: rest, h =>
    Takes (emits i) h ∧
      ((LogFiles.emit (emits i) line h).2 = false →
        TakesAll emits (i + 1) rest (LogFiles.emit (emits i) line h).1)

def SinkTakes (sink : LogSink) (a : BatchAnswers) (records : List (Record δ)) (s : Sinks δ) : Prop :=
  match sink with
  | .jsonLines => True
  | .rotatingFile => TakesAll a.emits 0 (records.map withService) s.auditFile

def StreamsTake (sink : LogSink) (batchSize : ℕ) (answers : StreamName → BatchAnswers)
    (tables : Tables δ) : List StreamName → Shipping δ → Prop
  | [], _ => True
  | stream :: rest, s =>
    let rows := selectBatch (rowsOf tables stream) ((s.cursors stream).getD 0) batchSize
    let e := s.sinks.emit sink (answers stream) (rows.map Prod.snd)
    (rows.getLast? = none →
      StreamsTake sink batchSize answers tables rest
        { s with shipped := s.shipped ++ [(stream, 0)] }) ∧
    ∀ last ∈ rows.getLast?,
      SinkTakes sink (answers stream) (rows.map Prod.snd) s.sinks ∧
        (e.2 = false →
          StreamsTake sink batchSize answers tables rest (s.advance stream rows e.1 last.1))

def Row.stream : Row δ → StreamName
  | .authEvent _ => .authEvents
  | .auditLog _ => .auditLog
  | .policyChange _ => .policyChanges

def Row.entry : Row δ → ℕ × Record δ
  | .authEvent row => (row.id, fmtAuthEvent row)
  | .auditLog row => (row.id, fmtAuditLog row)
  | .policyChange row => (row.id, fmtPolicyChange row)

/-- Ids are positive and increase; the file handler takes what it is given. -/
def Guarded (s : State δ) : Event δ → Prop
  | .insert row => 0 < row.entry.1 ∧ ∀ r ∈ rowsOf s.tables row.stream, r.1 < row.entry.1
  | .newProcess => True
  | .ship sink batchSize answers _ =>
    StreamsTake sink batchSize answers s.tables streams ⟨s.cursors, s.sinks, [], 0⟩

/-! ### What reaches the sinks -/

theorem writeAll_written (writes : ℕ → Option Failure) (i : ℕ) (lines : List α) (s : TextSink α) :
    s.written <+: (s.writeAll writes i lines).1.written := by
  induction lines generalizing i s with
  | nil => exact List.prefix_rfl
  | cons line rest ih =>
    rw [TextSink.writeAll]
    split_ifs
    · exact List.prefix_append _ _
    · have hrest := ih (i + 1) ⟨(s.stream.write (writes i) line).stream,
        s.written ++ (s.stream.write (writes i) line).reached⟩
      exact (List.prefix_append _ _).trans hrest

theorem textEmit_grows (a : BatchAnswers) (lines : List α) (s : TextSink α) :
    s.written <+: (s.emit a lines).1.written := by
  unfold TextSink.emit
  dsimp only
  split_ifs
  · exact writeAll_written a.writes 0 lines s
  · exact (writeAll_written a.writes 0 lines s).trans (List.prefix_append _ _)

theorem writeAll_pending (writes : ℕ → Option Failure) (i : ℕ) (lines : List α) (s : TextSink α)
    (hquiet : (s.writeAll writes i lines).2 = false) (line : α)
    (h : line ∈ s.stream.pending ∨ line ∈ lines) :
    line ∈ (s.writeAll writes i lines).1.stream.pending := by
  induction lines generalizing i s with
  | nil => exact h.resolve_right List.not_mem_nil
  | cons first rest ih =>
    rw [TextSink.writeAll] at hquiet ⊢
    by_cases hraised : (s.stream.write (writes i) first).raised = true
    · rw [if_pos hraised] at hquiet
      cases hquiet
    · rw [if_neg hraised] at hquiet ⊢
      refine ih (i + 1) _ hquiet ?_
      have hpending := write_quiet (writes i) first s.stream (Bool.eq_false_iff.mpr hraised)
      rw [hpending, List.mem_append, List.mem_singleton]
      rcases h with h | h
      · exact Or.inl (Or.inl h)
      · rcases List.mem_cons.mp h with rfl | h
        · exact Or.inl (Or.inr rfl)
        · exact Or.inr h

theorem textEmit_written (a : BatchAnswers) (lines : List α) (s : TextSink α)
    (hquiet : (s.emit a lines).2 = false) : lines ⊆ (s.emit a lines).1.written := by
  intro line hline
  unfold TextSink.emit at hquiet ⊢
  by_cases hraised : (s.writeAll a.writes 0 lines).2 = true
  · rw [if_pos hraised] at hquiet
    exact absurd (hquiet.symm.trans hraised) Bool.false_ne_true
  · rw [if_neg hraised] at hquiet ⊢
    have hpending := writeAll_pending a.writes 0 lines s (Bool.eq_false_iff.mpr hraised) line
      (Or.inr hline)
    refine List.mem_append_right _ ?_
    rw [flush_reached _ _ hquiet]
    exact hpending

theorem emitAll_grows (emits : ℕ → Answers) (i : ℕ) (lines : List α) (h : Handler α) :
    h.written <+: (emitAll emits i lines h).1.written := by
  induction lines generalizing i h with
  | nil => exact List.prefix_rfl
  | cons line rest ih =>
    rw [emitAll]
    split_ifs
    · exact emit_grows (emits i) line h
    · exact (emit_grows (emits i) line h).trans (ih (i + 1) _)

theorem fileSinkEmit_grows (a : BatchAnswers) (lines : List α) (h : Handler α) :
    h.written <+: (fileSinkEmit a lines h).1.written := by
  unfold fileSinkEmit
  dsimp only
  split_ifs
  · exact emitAll_grows a.emits 0 lines h
  · exact (emitAll_grows a.emits 0 lines h).trans (flush_grows _ _)

theorem emitAll_inHand (emits : ℕ → Answers) (i : ℕ) (lines : List α) (h : Handler α)
    (htakes : TakesAll emits i lines h) (hquiet : (emitAll emits i lines h).2 = false) :
    (emitAll emits i lines h).1.inHand = h.inHand ++ lines := by
  induction lines generalizing i h with
  | nil => exact (List.append_nil _).symm
  | cons line rest ih =>
    rw [emitAll] at hquiet ⊢
    by_cases hraised : (LogFiles.emit (emits i) line h).2 = true
    · rw [if_pos hraised] at hquiet
      exact absurd (hquiet.symm.trans hraised) Bool.false_ne_true
    · have hstill := Bool.eq_false_iff.mpr hraised
      rw [if_neg hraised] at hquiet ⊢
      rw [ih (i + 1) _ (htakes.2 hstill) hquiet, emit_keeps _ _ _ htakes.1 hstill,
        List.append_assoc, List.singleton_append]

theorem fileSinkEmit_written (a : BatchAnswers) (lines : List α) (h : Handler α)
    (htakes : TakesAll a.emits 0 lines h) (hquiet : (fileSinkEmit a lines h).2 = false) :
    lines ⊆ (fileSinkEmit a lines h).1.written := by
  unfold fileSinkEmit at hquiet ⊢
  by_cases hraised : (emitAll a.emits 0 lines h).2 = true
  · rw [if_pos hraised] at hquiet
    exact absurd (hquiet.symm.trans hraised) Bool.false_ne_true
  · rw [if_neg hraised] at hquiet ⊢
    rw [flush_written _ _ hquiet, emitAll_inHand a.emits 0 lines h htakes
      (Bool.eq_false_iff.mpr hraised)]
    exact List.subset_append_right _ _

theorem sinkEmit_grows (sink : LogSink) (a : BatchAnswers) (records : List (Record δ)) (s : Sinks δ)
    (r : Record δ) (h : Written s r) : Written (s.emit sink a records).1 r := by
  cases sink with
  | jsonLines => exact h.imp_left fun hr => (textEmit_grows a records s.stdout).subset hr
  | rotatingFile =>
    exact h.imp_right fun hr =>
      (fileSinkEmit_grows a (records.map withService) s.auditFile).subset hr

/-- A batch that a sink accepts is written. -/
theorem sinkEmit_written (sink : LogSink) (a : BatchAnswers) (records : List (Record δ))
    (s : Sinks δ) (htakes : SinkTakes sink a records s)
    (hquiet : (s.emit sink a records).2 = false) :
    ∀ r ∈ records, Written (s.emit sink a records).1 r := by
  intro r hr
  cases sink with
  | jsonLines => exact Or.inl (textEmit_written a records s.stdout hquiet hr)
  | rotatingFile =>
    exact Or.inr (fileSinkEmit_written a _ s.auditFile htakes hquiet
      (List.mem_map_of_mem hr))

/-! ### Runs -/

/-- Cursors are ids of rows, and no row up to a cursor is missing in the sinks. -/
def Shipped (tables : Tables δ) (cursors : Cursors) (sinks : Sinks δ) : Prop :=
  ∀ stream, (∀ id, cursors stream = some id → ∃ row ∈ rowsOf tables stream, row.1 = id) ∧
    ∀ row ∈ rowsOf tables stream, row.1 ≤ (cursors stream).getD 0 → Written sinks row.2

structure Inv (s : State δ) : Prop where
  increasing : ∀ stream, (rowsOf s.tables stream).Pairwise fun a b => a.1 < b.1
  positive : ∀ stream, ∀ row ∈ rowsOf s.tables stream, 0 < row.1
  shipped : Shipped s.tables s.cursors s.sinks

/-- A batch leaves out no row between the cursor and its last row. -/
theorem selectBatch_covers (rows : List (ℕ × Record δ)) (cursor batchSize : ℕ)
    (hincreasing : rows.Pairwise fun a b => a.1 < b.1) (last : ℕ × Record δ)
    (hlast : (selectBatch rows cursor batchSize).getLast? = some last) :
    last ∈ rows ∧ ∀ row ∈ rows, row.1 ≤ last.1 →
      row.1 ≤ cursor ∨ row ∈ selectBatch rows cursor batchSize := by
  have hfiltered : (rows.filter fun r => cursor < r.1).Pairwise fun a b => a.1 < b.1 :=
    hincreasing.filter _
  have hsorted : (rows.filter fun r => cursor < r.1).insertionSort (fun a b => a.1 ≤ b.1) =
      rows.filter fun r => cursor < r.1 :=
    (hfiltered.imp fun h => Nat.le_of_lt h).insertionSort_eq
  unfold selectBatch at hlast ⊢
  rw [hsorted] at hlast ⊢
  have hmem := List.mem_of_getLast? hlast
  refine ⟨(List.mem_filter.mp (List.mem_of_mem_take hmem)).1, fun row hrow hle => ?_⟩
  by_cases hcursor : cursor < row.1
  · right
    have hmore : row ∈ rows.filter fun r => cursor < r.1 :=
      List.mem_filter.mpr ⟨hrow, decide_eq_true hcursor⟩
    rw [← List.take_append_drop batchSize (rows.filter fun r => cursor < r.1)] at hmore hfiltered
    rcases List.mem_append.mp hmore with h | h
    · exact h
    · have hlater := (List.pairwise_append.mp hfiltered).2.2 last hmem row h
      omega
  · exact Or.inl (Nat.le_of_not_lt hcursor)

theorem shipped_advance (tables : Tables δ) (s : Shipping δ) (stream : StreamName) (batchSize : ℕ)
    (sinks : Sinks δ) (last : ℕ × Record δ)
    (hincreasing : ∀ stream, (rowsOf tables stream).Pairwise fun a b => a.1 < b.1)
    (hlast : (selectBatch (rowsOf tables stream) ((s.cursors stream).getD 0) batchSize).getLast? =
      some last)
    (hshipped : Shipped tables s.cursors s.sinks)
    (hgrows : ∀ r, Written s.sinks r → Written sinks r)
    (hbatch : ∀ r ∈ (selectBatch (rowsOf tables stream) ((s.cursors stream).getD 0) batchSize).map
      Prod.snd, Written sinks r) :
    Shipped tables (Function.update s.cursors stream (some last.1)) sinks := by
  obtain ⟨hmem, hcovers⟩ := selectBatch_covers _ _ _ (hincreasing stream) last hlast
  intro other
  by_cases hother : other = stream
  · subst hother
    rw [Function.update_self]
    refine ⟨fun id hid => ⟨last, hmem, Option.some.inj hid⟩, fun row hrow hle => ?_⟩
    rcases hcovers row hrow hle with hold | hnew
    · exact hgrows _ ((hshipped other).2 row hrow hold)
    · exact hbatch _ (List.mem_map_of_mem hnew)
  · rw [Function.update_of_ne hother]
    exact ⟨(hshipped other).1, fun row hrow hle => hgrows _ ((hshipped other).2 row hrow hle)⟩

/-- The loop over the streams: what was written stays written, and unless a sink raises the cursors
are right at its end. -/
theorem shipStreams_shipped (sink : LogSink) (batchSize : ℕ) (answers : StreamName → BatchAnswers)
    (tables : Tables δ) (names : List StreamName) (s : Shipping δ)
    (hincreasing : ∀ stream, (rowsOf tables stream).Pairwise fun a b => a.1 < b.1)
    (hshipped : Shipped tables s.cursors s.sinks)
    (htake : StreamsTake sink batchSize answers tables names s) :
    (∀ r, Written s.sinks r → Written (shipStreams sink batchSize answers tables names s).1.sinks r) ∧
      ((shipStreams sink batchSize answers tables names s).2 = false →
        Shipped tables (shipStreams sink batchSize answers tables names s).1.cursors
          (shipStreams sink batchSize answers tables names s).1.sinks) := by
  induction names generalizing s with
  | nil => exact ⟨fun r h => h, fun _ => hshipped⟩
  | cons stream rest ih =>
    rw [shipStreams]
    rw [StreamsTake] at htake
    dsimp only at htake ⊢
    cases hlast : (selectBatch (rowsOf tables stream) ((s.cursors stream).getD 0)
        batchSize).getLast? with
    | none => exact ih { s with shipped := s.shipped ++ [(stream, 0)] } hshipped (htake.1 hlast)
    | some last =>
      obtain ⟨hsink, hrest⟩ := htake.2 last hlast
      have hgrows := sinkEmit_grows sink (answers stream)
        ((selectBatch (rowsOf tables stream) ((s.cursors stream).getD 0) batchSize).map Prod.snd)
        s.sinks
      cases hraised : (s.sinks.emit sink (answers stream) ((selectBatch (rowsOf tables stream)
          ((s.cursors stream).getD 0) batchSize).map Prod.snd)).2 with
      | true => exact ⟨hgrows, fun h => by cases h⟩
      | false =>
        have hbatch := sinkEmit_written sink (answers stream) _ s.sinks hsink hraised
        have hadvanced := shipped_advance tables s stream batchSize _ last hincreasing hlast
          hshipped hgrows hbatch
        obtain ⟨hmore, hdone⟩ := ih (s.advance stream _ _ last.1) hadvanced (hrest hraised)
        exact ⟨fun r h => hmore r (hgrows r h), hdone⟩

theorem rowsOf_insert (t : Tables δ) (row : Row δ) (stream : StreamName) :
    rowsOf (t.insertRow row) stream =
      rowsOf t stream ++ if stream = row.stream then [row.entry] else [] := by
  cases row <;> cases stream <;>
    simp [rowsOf, Tables.insertRow, Row.stream, Row.entry]

theorem shipped_mono (tables : Tables δ) (cursors : Cursors) (sinks sinks' : Sinks δ)
    (hgrows : ∀ r, Written sinks r → Written sinks' r) (h : Shipped tables cursors sinks) :
    Shipped tables cursors sinks' := fun stream =>
  ⟨(h stream).1, fun row hrow hle => hgrows _ ((h stream).2 row hrow hle)⟩

theorem insert_inv (s : State δ) (row : Row δ) (h : Inv s) (hpos : 0 < row.entry.1)
    (hlater : ∀ r ∈ rowsOf s.tables row.stream, r.1 < row.entry.1) :
    Inv { s with tables := s.tables.insertRow row } := by
  have hmem : ∀ stream, ∀ r ∈ rowsOf (s.tables.insertRow row) stream,
      r ∈ rowsOf s.tables stream ∨ stream = row.stream ∧ r = row.entry := by
    intro stream r hr
    rw [rowsOf_insert, List.mem_append] at hr
    refine hr.imp_right fun hr => ?_
    by_cases hstream : stream = row.stream
    · rw [if_pos hstream] at hr
      exact ⟨hstream, List.mem_singleton.mp hr⟩
    · rw [if_neg hstream] at hr
      cases hr
  refine ⟨fun stream => ?_, fun stream r hr => ?_, fun stream => ⟨fun id hid => ?_, ?_⟩⟩
  · rw [rowsOf_insert]
    by_cases hstream : stream = row.stream
    · subst hstream
      rw [if_pos rfl]
      refine List.pairwise_append.mpr ⟨h.increasing _, List.pairwise_singleton _ _, ?_⟩
      intro r hr new hnew
      rw [List.mem_singleton.mp hnew]
      exact hlater r hr
    · rw [if_neg hstream, List.append_nil]
      exact h.increasing stream
  · rcases hmem stream r hr with hold | ⟨-, rfl⟩
    · exact h.positive stream r hold
    · exact hpos
  · obtain ⟨r, hr, rid⟩ := (h.shipped stream).1 id hid
    exact ⟨r, by rw [rowsOf_insert]; exact List.mem_append_left _ hr, rid⟩
  · intro r hr hle
    rcases hmem stream r hr with hold | ⟨rfl, rfl⟩
    · exact (h.shipped stream).2 r hold hle
    · exfalso
      cases hcursor : s.cursors row.stream with
      | none =>
        simp only [hcursor, Option.getD_none] at hle
        omega
      | some id =>
        obtain ⟨last, hlast, rfl⟩ := (h.shipped row.stream).1 id hcursor
        simp only [hcursor, Option.getD_some] at hle
        have hbefore := hlater last hlast
        omega

theorem step_inv (s : State δ) (e : Event δ) (h : Inv s) (hguard : Guarded s e) :
    Inv (step s e) := by
  cases e with
  | insert row => exact insert_inv s row h hguard.1 hguard.2
  | newProcess => exact ⟨h.increasing, h.positive, h.shipped⟩
  | ship sink batchSize answers commits =>
    obtain ⟨hgrows, hdone⟩ := shipStreams_shipped sink batchSize answers s.tables streams
      ⟨s.cursors, s.sinks, [], 0⟩ h.increasing h.shipped hguard
    have hkept := shipped_mono s.tables s.cursors s.sinks _ hgrows h.shipped
    cases hresult : shipStreams sink batchSize answers s.tables streams
        ⟨s.cursors, s.sinks, [], 0⟩ with
    | mk done raised =>
      rw [hresult] at hkept hdone
      simp only [step, ship, hresult]
      cases raised with
      | true => exact ⟨h.increasing, h.positive, hkept⟩
      | false =>
        cases commits with
        | true => exact ⟨h.increasing, h.positive, hdone rfl⟩
        | false => exact ⟨h.increasing, h.positive, hkept⟩

theorem start_rows (stream : StreamName) : rowsOf (start : State δ).tables stream = [] := by
  cases stream <;> rfl

theorem start_inv : Inv (start : State δ) := by
  refine ⟨fun stream => ?_, fun stream row hrow => ?_, fun stream =>
    ⟨fun id hid => (by cases hid), fun row hrow => ?_⟩⟩
  · rw [start_rows]
    exact List.Pairwise.nil
  · rw [start_rows] at hrow
    cases hrow
  · rw [start_rows] at hrow
    cases hrow

/-- Shipping is at least once as long as the file handler loses no line that it is given; the text
stream needs nothing. -/
theorem atLeastOnce (events : List (Event δ)) (h : Along step Guarded start events) :
    AtLeastOnce (events.foldl step start) := fun stream =>
  ((Along.invariant Inv start_inv step_inv h).shipped stream).2

/-! ### Samples -/

instance decidableTakesAll (emits : ℕ → Answers) : ∀ (i : ℕ) (lines : List α) (h : Handler α),
    Decidable (TakesAll emits i lines h)
  | _, [], _ => isTrue trivial
  | i, line :: rest, h =>
    have := decidableTakesAll emits (i + 1) rest (LogFiles.emit (emits i) line h).1
    inferInstanceAs (Decidable (_ ∧ (_ → _)))

instance (sink : LogSink) (a : BatchAnswers) (records : List (Record δ)) (s : Sinks δ) :
    Decidable (SinkTakes sink a records s) :=
  match sink with
  | .jsonLines => isTrue trivial
  | .rotatingFile => decidableTakesAll a.emits 0 (records.map withService) s.auditFile

instance decidableStreamsTake (sink : LogSink) (batchSize : ℕ)
    (answers : StreamName → BatchAnswers) (tables : Tables δ) :
    ∀ (names : List StreamName) (s : Shipping δ),
      Decidable (StreamsTake sink batchSize answers tables names s)
  | [], _ => isTrue trivial
  | _ :: rest, _ =>
    have := decidableStreamsTake sink batchSize answers tables rest
    inferInstanceAs (Decidable ((_ → _) ∧ ∀ _ ∈ _, _ ∧ (_ → _)))

instance (s : State δ) : ∀ e, Decidable (Guarded s e)
  | .insert _ => inferInstanceAs (Decidable (_ ∧ _))
  | .newProcess => isTrue trivial
  | .ship sink batchSize answers _ =>
    decidableStreamsTake sink batchSize answers s.tables streams ⟨s.cursors, s.sinks, [], 0⟩

instance [DecidableEq δ] (s : Sinks δ) (r : Record δ) : Decidable (Written s r) :=
  inferInstanceAs (Decidable (_ ∨ _))

/-- Nothing fails; the file is as large as it may be, and there is a stream already. -/
def quiet : Answers :=
  ⟨some 1, none, false, ⟨true, true, none, true, none, true⟩, true, none, none, some 1⟩

/-- The first line comes with a rollover, and is not flushed at once. -/
def rolling : BatchAnswers :=
  ⟨fun _ => none,
    fun i => if i = 0 then { quiet with oversize := true, flush := some ⟨0, 0⟩ } else quiet, none⟩

def sampleLogin (id : ℕ) : Row Unit :=
  .authEvent ⟨id, "t".toList, "stepup.failure".toList, none, none, none, "10.0.0.1".toList, false, ()⟩

theorem atLeastOnce_sample :
    AtLeastOnce ([Event.insert (sampleLogin 1), .insert (sampleLogin 4),
      .ship .rotatingFile 500 (fun _ => rolling) true, .newProcess,
      .ship .jsonLines 500 (fun _ => rolling) true].foldl step start) :=
  atLeastOnce _ (by decide)

/-- The rows come in order, whatever the file handler does. -/
def Ordered (s : State δ) : Event δ → Prop
  | .insert row => 0 < row.entry.1 ∧ ∀ r ∈ rowsOf s.tables row.stream, r.1 < row.entry.1
  | _ => True

instance (s : State δ) : ∀ e, Decidable (Ordered s e)
  | .insert _ => inferInstanceAs (Decidable (_ ∧ _))
  | .newProcess => isTrue trivial
  | .ship .. => isTrue trivial

/-- The lock file of the rollover cannot be opened. -/
def unlockable : BatchAnswers :=
  ⟨fun _ => none, fun _ => { quiet with oversize := true, rollover := { quiet.rollover with
    locks := false } }, none⟩

def lostLogin : List (Event Unit) :=
  [.insert (sampleLogin 1), .ship .rotatingFile 500 (fun _ => unlockable) true]

/-- The handler passes over the failure, and the cursor passes the row. -/
theorem rollover_failure_skips_row :
    ¬ ∀ events : List (Event Unit), Along step Ordered start events →
      AtLeastOnce (events.foldl step start) := by
  intro h
  have hrow := h lostLogin (by decide) .authEvents (sampleLogin 1).entry (by decide) (by decide)
  revert hrow
  decide

end Hyproxy.AuditShipping
