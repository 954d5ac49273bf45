import Mathlib.Data.List.Infix
import Mathlib.Data.Nat.Notation
import Mathlib.Tactic.Common
import Mathlib.Tactic.SplitIfs

/-!
The live view of a camera: the bridge (`_run_stream`) reads what the encoder writes and sends each
read as one message, and the page (`Watch.tsx`) queues the messages and appends them to its source
buffer. The browser decides when the source opens, when an append has ended, whether one throws,
and, where it manages the source, when it wants data.
-/
namespace Hyproxy.LivePlayer

/-- `READ_CHUNK` -/
def readChunk : ℕ := 32768

/-- The stream that the bridge has not read yet, and the page: of its source whether it is managed,
of its buffer whether it is updating, and all that was appended. -/
structure Session (α : Type) where
  unread : List α
  ready : Bool
  disposed : Bool
  mediaSource : Option Bool
  sourceBuffer : Option Bool
  queue : List (List α)
  streaming : Bool
  appendedAny : Bool
  appended : List α
  deriving Repr, DecidableEq

/-- What happens in the page; `throws` says what an append comes to, if there is one. -/
inductive Event
  | ready (source : Option (Bool × Bool))
  | message (n : ℕ) (throws : Bool)
  | startstreaming (throws : Bool)
  | endstreaming
  | sourceopen (supported throws : Bool)
  | updateend (removes throws : Bool)
  | dispose
  deriving Repr, DecidableEq

variable {α : Type}

def start (stream : List α) : Session α where
  unread := stream
  ready := false
  disposed := false
  mediaSource := none
  sourceBuffer := none
  queue := []
  streaming := true
  appendedAny := false
  appended := []

/-- `drain`; a browser that does not want data leaves the newest chunk in the queue. -/
def drain (s : Session α) (throws : Bool) : Session α :=
  if s.disposed || s.sourceBuffer != some false then s
  else
    match s.queue with
    | [] => s
    | chunk :: rest =>
      if !s.streaming && s.appendedAny then { s with queue := s.queue.drop (s.queue.length - 1) }
      else if throws then { s with queue := [] }
      else
        { s with
          sourceBuffer := some true
          queue := rest
          appendedAny := true
          appended := s.appended ++ chunk }

/-- `startPlayback`, where the page supports the source: managed or not, and then whether the
browser wants data. -/
def startPlayback (s : Session α) : Option (Bool × Bool) → Session α
  | none => s
  | some (managed, streaming) =>
    { s with mediaSource := some managed, streaming := if managed then streaming else s.streaming }

/-- One read of the bridge; at the end of the stream there is no message. -/
def readUpTo (s : Session α) (n : ℕ) : List α := s.unread.take (min n readChunk)

/-- A page that was left takes no messages. -/
def receive (s : Session α) (n : ℕ) : Session α :=
  { s with
    unread := s.unread.drop (min n readChunk)
    queue := if s.disposed then s.queue else s.queue ++ [readUpTo s n] }

/-- What a handler does before it drains the queue, and what an append then comes to; nothing where
it does not drain. -/
def handle (s : Session α) : Event → Session α × Option Bool
  | .ready source =>
    if s.ready then (s, none)
    else if s.disposed then ({ s with ready := true }, none)
    else (startPlayback { s with ready := true } source, none)
  | .message n throws =>
    if s.ready && !(readUpTo s n).isEmpty then (receive s n, some throws) else (s, none)
  | .startstreaming throws =>
    if s.mediaSource == some true then ({ s with streaming := true }, some throws) else (s, none)
  | .endstreaming =>
    if s.mediaSource == some true then ({ s with streaming := false }, none) else (s, none)
  | .sourceopen supported throws =>
    if s.disposed || s.mediaSource == none || s.sourceBuffer != none || !supported then (s, none)
    else ({ s with sourceBuffer := some false }, some throws)
  | .updateend removes throws =>
    if s.sourceBuffer == some true then
      ({ s with sourceBuffer := some (removes && !s.disposed) }, some throws)
    else (s, none)
  | .dispose => ({ s with disposed := true, queue := [] }, none)

def step (s : Session α) (e : Event) : Session α :=
  match (handle s e).2 with
  | none => (handle s e).1
  | some throws => drain (handle s e).1 throws

/-- The buffer is given the first chunk of the queue; the browser may throw. -/
def Feeds (s : Session α) : Prop :=
  s.disposed = false ∧ s.sourceBuffer = some false ∧ s.queue ≠ [] ∧
    (s.streaming = true ∨ s.appendedAny = false)

/-- The browser wants no data, and more than one chunk waits. -/
def Collapses (s : Session α) : Prop :=
  s.disposed = false ∧ s.sourceBuffer = some false ∧ s.streaming = false ∧
    s.appendedAny = true ∧ 1 < s.queue.length

instance (s : Session α) : Decidable (Feeds s) := by
  unfold Feeds
  infer_instance

instance (s : Session α) : Decidable (Collapses s) := by
  unfold Collapses
  infer_instance

def collapse (s : Session α) : Session α := { s with queue := s.queue.drop (s.queue.length - 1) }

def clear (s : Session α) : Session α := { s with queue := [] }

def feed (s : Session α) (chunk : List α) (rest : List (List α)) : Session α :=
  { s with
    sourceBuffer := some true
    queue := rest
    appendedAny := true
    appended := s.appended ++ chunk }

/-- What draining comes to. -/
inductive Drained (s : Session α) (throws : Bool) : Session α → Prop
  | idle : Drained s throws s
  | collapsed (h : Collapses s) : Drained s throws (collapse s)
  | failed (h : Feeds s) (hthrows : throws = true) : Drained s throws (clear s)
  | fed (h : Feeds s) (chunk : List α) (rest : List (List α)) (hqueue : s.queue = chunk :: rest) :
    Drained s throws (feed s chunk rest)

theorem drain_collapses (s : Session α) (throws : Bool) (h : Collapses s) :
    drain s throws = collapse s := by
  obtain ⟨hlive, hfree, hunwanted, hbegun, hbacklog⟩ := h
  have hopen : ¬ (s.disposed || s.sourceBuffer != some false) = true := by simp [hlive, hfree]
  have hwait : (!s.streaming && s.appendedAny) = true := by simp [hunwanted, hbegun]
  unfold drain
  rw [if_neg hopen]
  split
  · rename_i hqueue
    rw [hqueue] at hbacklog
    exact absurd hbacklog (by simp)
  · rw [if_pos hwait]
    rfl

theorem drain_feeds (s : Session α) (throws : Bool) (h : Feeds s) (chunk : List α)
    (rest : List (List α)) (hqueue : s.queue = chunk :: rest) :
    drain s throws = if throws then clear s else feed s chunk rest := by
  obtain ⟨hlive, hfree, -, hwanted⟩ := h
  have hopen : ¬ (s.disposed || s.sourceBuffer != some false) = true := by simp [hlive, hfree]
  have hfeeds : ¬ (!s.streaming && s.appendedAny) = true := by
    rcases hwanted with hwanted | hwanted <;> simp [hwanted]
  unfold drain
  rw [if_neg hopen]
  simp only [hqueue, if_neg hfeeds, clear, feed]

theorem drained (s : Session α) (throws : Bool) : Drained s throws (drain s throws) := by
  by_cases hfeeds : Feeds s
  · obtain ⟨chunk, rest, hqueue⟩ := List.exists_cons_of_ne_nil hfeeds.2.2.1
    rw [drain_feeds s throws hfeeds chunk rest hqueue]
    split_ifs with hthrows
    · exact .failed hfeeds hthrows
    · exact .fed hfeeds chunk rest hqueue
  by_cases hcollapses : Collapses s
  · rw [drain_collapses s throws hcollapses]
    exact .collapsed hcollapses
  -- Otherwise the queue is empty, or its only chunk stays.
  have hsame : drain s throws = s := by
    unfold drain
    by_cases hclosed : (s.disposed || s.sourceBuffer != some false) = true
    · rw [if_pos hclosed]
    rw [if_neg hclosed]
    simp only [Bool.or_eq_true, bne_iff_ne, not_or, Bool.not_eq_true, not_not] at hclosed
    split
    · rfl
    · rename_i chunk rest hqueue
      have hunwanted : ¬ (s.streaming = true ∨ s.appendedAny = false) := fun hwanted =>
        hfeeds ⟨hclosed.1, hclosed.2, by simp [hqueue], hwanted⟩
      rw [not_or, Bool.not_eq_true, Bool.not_eq_false] at hunwanted
      have hshort : ¬ 1 < s.queue.length := fun hlong =>
        hcollapses ⟨hclosed.1, hclosed.2, hunwanted.1, hunwanted.2, hlong⟩
      have hnone : s.queue.length - 1 = 0 := by omega
      rw [if_pos (by simp [hunwanted]), hnone, List.drop_zero]
  rw [hsame]
  exact .idle

/-- What was not appended yet: the queue, and then what the bridge has not read. -/
def pending (s : Session α) : List α := s.queue.flatten ++ s.unread

/-- Where the queue starts in a stream of `n` elements, and where its newest chunk does. -/
def queueAt (n : ℕ) (s : Session α) : ℕ := n - (pending s).length

def newestAt (n : ℕ) (s : Session α) : ℕ :=
  n - ((s.queue.getLast?.getD []).length + s.unread.length)

/-- How far the bridge has read. -/
def unreadAt (n : ℕ) (s : Session α) : ℕ := n - s.unread.length

structure Held (s : Session α) : Prop where
  chunks : ∀ c ∈ s.queue, c ≠ []
  disposed : s.disposed = true → s.queue = []
  ready : s.ready = false → s.mediaSource = none ∧ s.queue = []
  managed : s.streaming = false → s.mediaSource = some true

theorem held_start (stream : List α) : Held (start stream) where
  chunks c hc := absurd hc List.not_mem_nil
  disposed _ := rfl
  ready _ := ⟨rfl, rfl⟩
  managed h := absurd h (by simp [start])

theorem held_startPlayback (s : Session α) (source : Option (Bool × Bool)) (h : Held s)
    (hready : s.ready = false) : Held (startPlayback { s with ready := true } source) := by
  obtain ⟨hsource, -⟩ := h.ready hready
  have hstreaming : s.streaming ≠ false := by
    intro hoff
    rw [h.managed hoff] at hsource
    cases hsource
  rcases source with _ | ⟨managed, streaming⟩
  · exact ⟨h.chunks, h.disposed, fun habsurd => absurd habsurd (by simp [startPlayback]), h.managed⟩
  · refine ⟨h.chunks, h.disposed, fun habsurd => absurd habsurd (by simp [startPlayback]), ?_⟩
    intro hoff
    cases managed with
    | true => rfl
    | false => exact absurd hoff hstreaming

theorem held_receive (s : Session α) (n : ℕ) (h : Held s) (hready : s.ready = true)
    (hread : readUpTo s n ≠ []) : Held (receive s n) := by
  have hopen : (receive s n).ready ≠ false := by
    show s.ready ≠ false
    rw [hready]
    decide
  refine ⟨fun c hc => ?_, fun hdisposed => ?_, fun habsurd => absurd habsurd hopen, h.managed⟩
  · simp only [receive] at hc
    split_ifs at hc
    · exact h.chunks c hc
    · rcases List.mem_append.mp hc with hc | hc
      · exact h.chunks c hc
      · exact List.mem_singleton.mp hc ▸ hread
  · simp only [receive] at hdisposed ⊢
    rw [if_pos hdisposed]
    exact h.disposed hdisposed

theorem pending_receive (s : Session α) (n : ℕ) (h : Held s) :
    pending (receive s n) <:+ pending s ∧
      (s.disposed = false → pending (receive s n) = pending s) := by
  have hread : readUpTo s n ++ s.unread.drop (min n readChunk) = s.unread :=
    List.take_append_drop _ s.unread
  cases hdisposed : s.disposed with
  | true =>
    have hqueue := h.disposed hdisposed
    simp only [pending, receive, hdisposed, hqueue, if_true, List.flatten_nil, List.nil_append]
    exact ⟨List.drop_suffix _ s.unread, fun habsurd => absurd habsurd (by decide)⟩
  | false =>
    have hsame : pending (receive s n) = pending s := by
      simp only [pending, receive, hdisposed, Bool.false_eq_true, if_false, List.flatten_concat,
        List.append_assoc, hread]
    exact ⟨hsame ▸ List.suffix_refl _, fun _ => hsame⟩

/-- What a handler leaves before it drains: nothing more is appended, and of what is pending nothing
is lost unless the page was left. -/
structure Handled (s t : Session α) : Prop where
  held : Held t
  appended : t.appended = s.appended
  suffix : pending t <:+ pending s
  kept : t.disposed = false → pending t = pending s ∧ s.disposed = false

theorem handled (s : Session α) (e : Event) (h : Held s) : Handled s (handle s e).1 := by
  have hsame : Handled s s := ⟨h, rfl, List.suffix_refl _, fun hlive => ⟨rfl, hlive⟩⟩
  cases e with
  | ready source =>
    rw [handle]
    split_ifs with hready hdisposed
    · exact hsame
    · exact ⟨⟨h.chunks, h.disposed, fun habsurd => absurd habsurd (by simp), h.managed⟩, rfl,
        List.suffix_refl _, fun hlive => ⟨rfl, hlive⟩⟩
    · have hheld := held_startPlayback s source h (by simpa using hready)
      rcases source with _ | ⟨managed, streaming⟩
      · exact ⟨hheld, rfl, List.suffix_refl _, fun hlive => ⟨rfl, hlive⟩⟩
      · exact ⟨hheld, rfl, List.suffix_refl _, fun hlive => ⟨rfl, hlive⟩⟩
  | message n throws =>
    rw [handle]
    split_ifs with hread
    · simp only [Bool.and_eq_true, Bool.not_eq_true', List.isEmpty_eq_false_iff] at hread
      obtain ⟨hsuffix, hkept⟩ := pending_receive s n h
      exact ⟨held_receive s n h hread.1 hread.2, rfl, hsuffix, fun hlive => ⟨hkept hlive, hlive⟩⟩
    · exact hsame
  | startstreaming throws =>
    rw [handle]
    split_ifs with hmanaged
    · exact ⟨⟨h.chunks, h.disposed, h.ready, fun habsurd => absurd habsurd (by simp)⟩, rfl,
        List.suffix_refl _, fun hlive => ⟨rfl, hlive⟩⟩
    · exact hsame
  | endstreaming =>
    rw [handle]
    split_ifs with hmanaged
    · exact ⟨⟨h.chunks, h.disposed, h.ready, fun _ => by simpa using hmanaged⟩, rfl,
        List.suffix_refl _, fun hlive => ⟨rfl, hlive⟩⟩
    · exact hsame
  | sourceopen supported throws =>
    rw [handle]
    split_ifs
    · exact hsame
    · exact ⟨⟨h.chunks, h.disposed, h.ready, h.managed⟩, rfl, List.suffix_refl _,
        fun hlive => ⟨rfl, hlive⟩⟩
  | updateend removes throws =>
    rw [handle]
    split_ifs
    · exact ⟨⟨h.chunks, h.disposed, h.ready, h.managed⟩, rfl, List.suffix_refl _,
        fun hlive => ⟨rfl, hlive⟩⟩
    · exact hsame
  | dispose =>
    refine ⟨⟨fun c hc => absurd hc List.not_mem_nil, fun _ => rfl, fun hready =>
      ⟨(h.ready hready).1, rfl⟩, h.managed⟩, rfl, ?_, fun hlive => absurd hlive (by simp [handle])⟩
    exact List.suffix_append s.queue.flatten s.unread

theorem held_drained (s t : Session α) (throws : Bool) (h : Held s) (hdrained : Drained s throws t) :
    Held t := by
  cases hdrained with
  | idle => exact h
  | collapsed _ =>
    refine ⟨fun c hc => h.chunks c (List.mem_of_mem_drop hc), fun hdisposed => ?_,
      fun hready => ⟨(h.ready hready).1, ?_⟩, h.managed⟩
    · simp only [collapse, h.disposed hdisposed, List.drop_nil]
    · simp only [collapse, (h.ready hready).2, List.drop_nil]
  | failed _ _ =>
    exact ⟨fun c hc => absurd hc List.not_mem_nil, fun _ => rfl,
      fun hready => ⟨(h.ready hready).1, rfl⟩, h.managed⟩
  | fed hfeeds chunk rest hqueue =>
    refine ⟨fun c hc => h.chunks c (hqueue ▸ List.mem_cons_of_mem chunk hc), fun hdisposed => ?_,
      fun hready => ?_, h.managed⟩
    · exact absurd (hfeeds.1.symm.trans hdisposed) (by decide)
    · exact absurd (h.ready hready).2 (by simp [hqueue])

/-- A collapse leaves the newest chunk. -/
theorem queue_collapse (s : Session α) (h : Collapses s) :
    (collapse s).queue = [s.queue.getLast?.getD []] := by
  have hne : s.queue ≠ [] := List.ne_nil_of_length_pos (Nat.zero_lt_of_lt h.2.2.2.2)
  rw [collapse, List.drop_length_sub_one hne, List.getLast?_eq_some_getLast hne]
  rfl

theorem queueAt_collapse (n : ℕ) (s : Session α) (h : Collapses s) :
    queueAt n (collapse s) = newestAt n s := by
  rw [queueAt, pending, queue_collapse s h, List.flatten_singleton, List.length_append, newestAt]
  rfl

theorem pending_collapse (s : Session α) :
    pending s = (s.queue.take (s.queue.length - 1)).flatten ++ pending (collapse s) := by
  rw [pending, pending, collapse, ← List.append_assoc, ← List.flatten_append, List.take_append_drop]

theorem pending_feed (s : Session α) (chunk : List α) (rest : List (List α))
    (hqueue : s.queue = chunk :: rest) : pending s = chunk ++ pending (feed s chunk rest) := by
  rw [pending, hqueue, List.flatten_cons, List.append_assoc]
  rfl

end Hyproxy.LivePlayer
