import Hyproxy.LivePlayer
import Hyproxy.PlacedStreams
import Hyproxy.Runs

/-!
What the page appends over a whole run, for any stream of an initialisation segment and fragments.
The queue holds reads of the bridge, which keep to no boundary. What the page drops is whole
fragments where a drop begins and ends at boundaries of reads that are boundaries of fragments;
after any other drop a run can go on to append a torn fragment.
-/
namespace Hyproxy.WholeFragments

open LivePlayer PlacedStreams
open Runs (Along)

variable {Byte α : Type}

/-- Where the event has the page drop chunks, of a stream of `n` bytes with the boundaries `b`: the
queue, with the message of the event, starts at a boundary, and so does what is left, the newest
chunk after a collapse, and after an exception what the bridge has not read. -/
def DropsWhole (b : List ℕ) (n : ℕ) (s : Session α) (e : Event) : Prop :=
  ∀ throws ∈ (handle s e).2,
    (Collapses (handle s e).1 → queueAt n (handle s e).1 ∈ b ∧ newestAt n (handle s e).1 ∈ b) ∧
    (Feeds (handle s e).1 → throws = true → (handle s e).1.unread ≠ [] →
      queueAt n (handle s e).1 ∈ b ∧ unreadAt n (handle s e).1 ∈ b)

instance (b : List ℕ) (n : ℕ) (s : Session α) (e : Event) : Decidable (DropsWhole b n s e) := by
  unfold DropsWhole
  infer_instance

/-- Nothing is pending that was appended, and what was appended keeps to the fragments. -/
structure Placed (stream : List Byte) (b : List ℕ) (s : Session (Byte × ℕ)) : Prop where
  held : Held s
  rest : ∃ before, stream.zipIdx = before ++ pending s ∧ ∀ x ∈ s.appended, x ∈ before
  steps : Steps b 0 s.appended

/-- The queue starts where what was appended ends, or both are boundaries. -/
def Meets (b : List ℕ) (n : ℕ) (s : Session (Byte × ℕ)) : Prop :=
  stop 0 s.appended = queueAt n s ∨ (stop 0 s.appended ∈ b ∧ queueAt n s ∈ b)

structure Inv (stream : List Byte) (b : List ℕ) (s : Session (Byte × ℕ)) : Prop extends
    Placed stream b s where
  next : s.disposed = false → pending s ≠ [] → Meets b stream.length s

variable {stream : List Byte} {b : List ℕ} {s t : Session (Byte × ℕ)}

theorem inv_start (stream : List Byte) (b : List ℕ) : Inv stream b (start stream.zipIdx) where
  held := held_start _
  rest := ⟨[], rfl, fun x hx => absurd hx List.not_mem_nil⟩
  steps := trivial
  next _ _ := by
    left
    simp [start, queueAt, pending, stop]

/-- Chunks are dropped, or the page takes in what does not change the queue. -/
theorem Placed.later (h : Placed stream b s) (hheld : Held t) (happended : t.appended = s.appended)
    (hsuffix : pending t <:+ pending s) : Placed stream b t := by
  obtain ⟨before, hstream, hbefore⟩ := h.rest
  obtain ⟨skipped, hskipped⟩ := hsuffix
  refine ⟨hheld, ⟨before ++ skipped, ?_, fun x hx => ?_⟩, ?_⟩
  · rw [hstream, List.append_assoc, hskipped]
  · exact List.mem_append_left _ (hbefore x (happended ▸ hx))
  · rw [happended]
    exact h.steps

theorem Placed.fits (h : Placed stream b s) : (pending s).length ≤ stream.length := by
  obtain ⟨before, hstream, -⟩ := h.rest
  have hlength := congrArg List.length hstream
  rw [List.length_zipIdx, List.length_append] at hlength
  omega

theorem Placed.stop_le (h : Placed stream b s) : stop 0 s.appended ≤ queueAt stream.length s := by
  obtain ⟨before, hstream, hbefore⟩ := h.rest
  exact stop_le_rest stream before (pending s) s.appended hstream hbefore

theorem plays_of_placed {init : List Byte} {fragments : List (List Byte)}
    (h : Placed (init ++ fragments.flatten) (bounds init.length fragments) s) :
    Plays init.zipIdx (place init.length fragments) s.appended := by
  obtain ⟨before, hstream, hbefore⟩ := h.rest
  refine (plays_iff init fragments s.appended fun x hx => ?_).mpr h.steps
  rw [hstream]
  exact List.mem_append_left _ (hbefore x hx)

/-- The first chunk is appended where the queue starts, and ends where the rest of it does. -/
theorem Placed.fed (h : Placed stream b s) (chunk : List (Byte × ℕ))
    (rest : List (List (Byte × ℕ))) (hqueue : s.queue = chunk :: rest) :
    (Steps b 0 (feed s chunk rest).appended ↔ Meets b stream.length s) ∧
      stop 0 (feed s chunk rest).appended = queueAt stream.length (feed s chunk rest) ∧
      ∃ before, stream.zipIdx = before ++ pending (feed s chunk rest) ∧
        ∀ x ∈ (feed s chunk rest).appended, x ∈ before := by
  obtain ⟨before, hstream, hbefore⟩ := h.rest
  have hsplit := pending_feed s chunk rest hqueue
  have hne : chunk ≠ [] := h.held.chunks chunk (hqueue ▸ List.mem_cons_self)
  obtain ⟨x, hx⟩ : ∃ x, chunk.head? = some x := Option.isSome_iff_exists.mp (by simpa using hne)
  have hat : x.2 = queueAt stream.length s := by
    refine place_of_head stream before (pending s) hstream x ?_
    rw [hsplit, List.head?_append_of_ne_nil chunk hne]
    exact hx
  rw [hsplit] at hstream
  refine ⟨?_, stop_next stream before chunk _ s.appended hstream hne, before ++ chunk, ?_,
    fun y hy => ?_⟩
  · rw [feed, steps_next b stream before chunk _ s.appended hstream hbefore, hx]
    simp only [h.steps, true_and, Option.mem_def, Option.some.injEq, forall_eq', hat, Meets]
    rw [eq_comm]
  · rw [List.append_assoc, hstream]
  · rcases List.mem_append.mp hy with hy | hy
    · exact List.mem_append_left _ (hbefore y hy)
    · exact List.mem_append_right _ hy

/-! ### One step -/

theorem inv_handle (h : Inv stream b s) (e : Event) : Inv stream b (handle s e).1 := by
  have hhandled := handled s e h.held
  refine ⟨h.later hhandled.held hhandled.appended hhandled.suffix, fun hlive hpending => ?_⟩
  obtain ⟨hsame, hbefore⟩ := hhandled.kept hlive
  rw [hsame] at hpending
  rw [Meets, hhandled.appended, queueAt, hsame]
  exact h.next hbefore hpending

/-- Chunks are dropped from the front, from a boundary to a boundary. -/
theorem inv_drop (h : Inv stream b s) (hheld : Held t) (hlive : s.disposed = false)
    (happended : t.appended = s.appended) (hsuffix : pending t <:+ pending s)
    (hbounds : pending t ≠ [] → queueAt stream.length s ∈ b ∧ queueAt stream.length t ∈ b) :
    Inv stream b t := by
  refine ⟨h.later hheld happended hsuffix, fun _ hpending => .inr ?_⟩
  obtain ⟨hfrom, hto⟩ := hbounds hpending
  have hmore : pending s ≠ [] := by
    intro hnone
    rw [hnone] at hsuffix
    exact hpending (List.suffix_nil.mp hsuffix)
  rw [happended]
  rcases h.next hlive hmore with hsame | ⟨hstop, -⟩
  · exact ⟨hsame ▸ hfrom, hto⟩
  · exact ⟨hstop, hto⟩

theorem inv_fed (h : Inv stream b s) (hlive : s.disposed = false) (chunk : List (Byte × ℕ))
    (rest : List (List (Byte × ℕ))) (hqueue : s.queue = chunk :: rest)
    (hheld : Held (feed s chunk rest)) : Inv stream b (feed s chunk rest) := by
  obtain ⟨hsteps, hstop, hrest⟩ := h.fed chunk rest hqueue
  have hne : chunk ≠ [] := h.held.chunks chunk (hqueue ▸ List.mem_cons_self)
  refine ⟨⟨hheld, hrest, hsteps.mpr (h.next hlive ?_)⟩, fun _ _ => .inl hstop⟩
  rw [pending_feed s chunk rest hqueue]
  simp [hne]

theorem inv_step (h : Inv stream b s) (e : Event) (hwhole : DropsWhole b stream.length s e) :
    Inv stream b (step s e) := by
  have hhandled := inv_handle h e
  unfold step
  cases hdrains : (handle s e).2 with
  | none => exact hhandled
  | some throws =>
    obtain ⟨hcollapse, hfail⟩ := hwhole throws hdrains
    have hdrained := drained (handle s e).1 throws
    have hheld := held_drained _ _ throws hhandled.held hdrained
    simp only
    generalize drain (handle s e).1 throws = t at hdrained hheld
    cases hdrained with
    | idle => exact hhandled
    | collapsed hcollapses =>
      refine inv_drop hhandled hheld hcollapses.1 rfl ⟨_, (pending_collapse _).symm⟩ fun _ => ?_
      rw [queueAt_collapse _ _ hcollapses]
      exact hcollapse hcollapses
    | failed hfeeds hthrows =>
      exact inv_drop hhandled hheld hfeeds.1 rfl (List.suffix_append _ _) (hfail hfeeds hthrows)
    | fed hfeeds chunk rest hqueue => exact inv_fed hhandled hfeeds.1 chunk rest hqueue hheld

/-! ### After another drop -/

/-- What was dropped starts where the queue did, and what is left starts later: where these are not
both boundaries, what was appended does not meet what is left. -/
theorem not_meets (h : Inv stream b s) (hlive : s.disposed = false)
    (happended : t.appended = s.appended) (skipped : List (Byte × ℕ)) (hne : skipped ≠ [])
    (hskipped : pending s = skipped ++ pending t)
    (hdrop : ¬ (queueAt stream.length s ∈ b ∧ queueAt stream.length t ∈ b)) :
    ¬ Meets b stream.length t := by
  have hlater : queueAt stream.length s < queueAt stream.length t := by
    have hfits := h.fits
    have hpositive := List.length_pos_of_ne_nil hne
    rw [queueAt, queueAt]
    rw [hskipped, List.length_append] at hfits ⊢
    omega
  have hmore : pending s ≠ [] := by
    rw [hskipped]
    simp [hne]
  have hstop := h.stop_le
  rw [Meets, happended]
  rcases h.next hlive hmore with hsame | ⟨-, hfrom⟩
  · rintro (heq | ⟨hfrom, hto⟩)
    · omega
    · exact hdrop ⟨hsame ▸ hfrom, hto⟩
  · rintro (heq | ⟨-, hto⟩)
    · omega
    · exact hdrop ⟨hfrom, hto⟩

theorem torn_of_fed {init : List Byte} {fragments : List (List Byte)}
    (h : Placed (init ++ fragments.flatten) (bounds init.length fragments) t)
    (hmeets : ¬ Meets (bounds init.length fragments) (init ++ fragments.flatten).length t)
    (chunk : List (Byte × ℕ)) (rest : List (List (Byte × ℕ))) (hqueue : t.queue = chunk :: rest) :
    ¬ Plays init.zipIdx (place init.length fragments) (feed t chunk rest).appended := by
  obtain ⟨hsteps, -, before, hstream, hbefore⟩ := h.fed chunk rest hqueue
  rw [plays_iff init fragments _ fun x hx => ?_]
  · exact fun h => hmeets (hsteps.mp h)
  · rw [hstream]
    exact List.mem_append_left _ (hbefore x hx)

/-- After a collapse that is not of whole fragments, the browser wants data again. -/
theorem torn_collapse {init : List Byte} {fragments : List (List Byte)}
    (h : Inv (init ++ fragments.flatten) (bounds init.length fragments) s) (hcollapses : Collapses s)
    (hdrop : ¬ (queueAt (init ++ fragments.flatten).length s ∈ bounds init.length fragments ∧
      newestAt (init ++ fragments.flatten).length s ∈ bounds init.length fragments)) :
    ¬ Plays init.zipIdx (place init.length fragments)
      (step (collapse s) (.startstreaming false)).appended := by
  have hqueue := queue_collapse s hcollapses
  have hsplit := pending_collapse s
  have hheld := held_drained s _ false h.held (.collapsed hcollapses)
  rw [← queueAt_collapse _ s hcollapses] at hdrop
  obtain ⟨hlive, hfree, hunwanted, -, hbacklog⟩ := hcollapses
  have hmanaged : ((collapse s).mediaSource == some true) = true := by
    rw [show (collapse s).mediaSource = some true from h.held.managed hunwanted]
    rfl
  have hskipped : (s.queue.take (s.queue.length - 1)).flatten ≠ [] := by
    have hsome : s.queue.take (s.queue.length - 1) ≠ [] := by
      refine List.ne_nil_of_length_pos ?_
      rw [List.length_take]
      omega
    obtain ⟨c, hc⟩ := List.exists_mem_of_ne_nil _ hsome
    intro hnil
    exact h.held.chunks c (List.mem_of_mem_take hc) (List.flatten_eq_nil_iff.mp hnil c hc)
  have hagain : Held { collapse s with streaming := true } :=
    ⟨hheld.chunks, hheld.disposed, hheld.ready, fun habsurd => absurd habsurd (by simp)⟩
  have hwanted : Feeds { collapse s with streaming := true } :=
    ⟨hlive, hfree, by simp [hqueue], .inl rfl⟩
  have hstep : step (collapse s) (.startstreaming false) =
      feed { collapse s with streaming := true } (s.queue.getLast?.getD []) [] := by
    rw [step, handle, if_pos hmanaged]
    exact drain_feeds _ false hwanted _ [] hqueue
  rw [hstep]
  refine torn_of_fed (h.later hagain rfl ⟨_, hsplit.symm⟩) ?_ _ [] hqueue
  exact not_meets h hlive rfl _ hskipped hsplit hdrop

/-- After an exception that drops no whole fragments, the bridge sends another message. -/
theorem torn_clear {init : List Byte} {fragments : List (List Byte)}
    (h : Inv (init ++ fragments.flatten) (bounds init.length fragments) s) (hfeeds : Feeds s)
    (hunread : s.unread ≠ [])
    (hdrop : ¬ (queueAt (init ++ fragments.flatten).length s ∈ bounds init.length fragments ∧
      unreadAt (init ++ fragments.flatten).length s ∈ bounds init.length fragments)) :
    ¬ Plays init.zipIdx (place init.length fragments)
      (step (clear s) (.message 1 false)).appended := by
  have hheld := held_drained s _ true h.held (.failed hfeeds rfl)
  obtain ⟨hlive, hfree, hwaiting, hwanted⟩ := hfeeds
  have hready : s.ready = true := by
    by_contra hclosed
    exact hwaiting (h.held.ready (by simpa using hclosed)).2
  have hread : readUpTo (clear s) 1 ≠ [] := by
    have hone : min 1 readChunk = 1 := by decide
    rw [readUpTo, hone]
    simpa [clear] using hunread
  have hmessage : ((clear s).ready && !(readUpTo (clear s) 1).isEmpty) = true := by
    rw [Bool.and_eq_true, Bool.not_eq_true', List.isEmpty_eq_false_iff]
    exact ⟨hready, hread⟩
  have hqueue : (receive (clear s) 1).queue = [readUpTo (clear s) 1] := by
    rw [receive, if_neg (by rw [show (clear s).disposed = false from hlive]; decide)]
    rfl
  have hagain := held_receive (clear s) 1 hheld hready hread
  have hleft : pending (receive (clear s) 1) = s.unread := (pending_receive (clear s) 1 hheld).2 hlive
  have hsplit : pending s = s.queue.flatten ++ pending (receive (clear s) 1) := by
    rw [hleft, pending]
  have hskipped : s.queue.flatten ≠ [] := by
    obtain ⟨c, hc⟩ := List.exists_mem_of_ne_nil _ hwaiting
    intro hnil
    exact h.held.chunks c hc (List.flatten_eq_nil_iff.mp hnil c hc)
  have hstep : step (clear s) (.message 1 false) =
      feed (receive (clear s) 1) (readUpTo (clear s) 1) [] := by
    rw [step, handle, if_pos hmessage]
    exact drain_feeds (receive (clear s) 1) false ⟨hlive, hfree, by simp [hqueue], hwanted⟩ _ []
      hqueue
  rw [hstep]
  refine torn_of_fed (h.later hagain rfl ⟨_, hsplit.symm⟩) ?_ _ [] hqueue
  refine not_meets h hlive rfl _ hskipped hsplit ?_
  rw [queueAt.eq_1 _ (receive (clear s) 1), hleft]
  exact hdrop

theorem torn_step {init : List Byte} {fragments : List (List Byte)}
    (h : Inv (init ++ fragments.flatten) (bounds init.length fragments) s) (e : Event)
    (hdrops : ¬ DropsWhole (bounds init.length fragments) (init ++ fragments.flatten).length s e) :
    ∃ e', ¬ Plays init.zipIdx (place init.length fragments) (step (step s e) e').appended := by
  have hhandled := inv_handle h e
  simp only [DropsWhole, not_forall] at hdrops
  obtain ⟨throws, hdrains, hdrops⟩ := hdrops
  have hstep : step s e = drain (handle s e).1 throws := by
    rw [step, hdrains]
  rw [hstep]
  by_cases hcollapses : Collapses (handle s e).1
  · have hfeeds : ¬ Feeds (handle s e).1 := by
      intro hfeeds
      rcases hfeeds.2.2.2 with hwanted | hfirst
      · exact absurd (hwanted.symm.trans hcollapses.2.2.1) (by decide)
      · exact absurd (hfirst.symm.trans hcollapses.2.2.2.1) (by decide)
    rw [drain_collapses _ throws hcollapses]
    refine ⟨_, torn_collapse hhandled hcollapses fun hbounds => hdrops ⟨fun _ => hbounds, ?_⟩⟩
    exact fun habsurd => absurd habsurd hfeeds
  · by_cases hfeeds : Feeds (handle s e).1
    · obtain ⟨chunk, rest, hqueue⟩ := List.exists_cons_of_ne_nil hfeeds.2.2.1
      rw [drain_feeds _ throws hfeeds chunk rest hqueue]
      by_cases hfails : throws = true ∧ (handle s e).1.unread ≠ []
      · rw [if_pos hfails.1]
        refine ⟨_, torn_clear hhandled hfeeds hfails.2 fun hbounds => hdrops ⟨?_, ?_⟩⟩
        · exact fun habsurd => absurd habsurd hcollapses
        · exact fun _ _ _ => hbounds
      · refine absurd ⟨fun habsurd => absurd habsurd hcollapses, fun _ hthrows hunread => ?_⟩ hdrops
        exact absurd ⟨hthrows, hunread⟩ hfails
    · exact absurd ⟨fun habsurd => absurd habsurd hcollapses, fun habsurd => absurd habsurd hfeeds⟩
        hdrops

/-- In every run in which each drop begins and ends at boundaries, the page appends the
initialisation segment and then whole fragments in order, at every point; the bytes carry their
places in the first part, so that equal bytes of other places do not count, and none in the second.
After the first drop that does not, the run can go on to append a torn fragment. -/
theorem whole_fragments (init : List Byte) (fragments : List (List Byte)) (events : List Event)
    (hwhole : Along step (DropsWhole (bounds init.length fragments) (init ++ fragments.flatten).length)
      (start (init ++ fragments.flatten).zipIdx) events) :
    (∀ past, past <+: events →
      Plays init.zipIdx (place init.length fragments)
          (past.foldl step (start (init ++ fragments.flatten).zipIdx)).appended ∧
        Plays init fragments
          ((past.foldl step (start (init ++ fragments.flatten).zipIdx)).appended.map Prod.fst)) ∧
    ∀ e, ¬ DropsWhole (bounds init.length fragments) (init ++ fragments.flatten).length
        (events.foldl step (start (init ++ fragments.flatten).zipIdx)) e →
      ∃ e', ¬ Plays init.zipIdx (place init.length fragments)
        ((events ++ [e, e']).foldl step (start (init ++ fragments.flatten).zipIdx)).appended := by
  have hinv : ∀ past, past <+: events → Inv (init ++ fragments.flatten) (bounds init.length fragments)
      (past.foldl step (start (init ++ fragments.flatten).zipIdx)) := by
    rintro past ⟨rest, rfl⟩
    exact ((Runs.along_append _ _ _ past rest).mp hwhole).1.invariant _ (inv_start _ _)
      fun s e h hdrops => inv_step h e hdrops
  refine ⟨fun past hpast => ?_, fun e hdrops => ?_⟩
  · have hplays := plays_of_placed (hinv past hpast).toPlaced
    have hbytes := hplays.map Prod.fst
    rw [List.zipIdx_map_fst, place_map] at hbytes
    exact ⟨hplays, hbytes⟩
  · simp only [List.foldl_append, List.foldl_cons, List.foldl_nil]
    exact torn_step (hinv events (List.prefix_refl events)) e hdrops

/-! ### Samples -/

/-- The size of a box, and a box of the container format. -/
def be32 (n : ℕ) : List ℕ := [n / 16777216 % 256, n / 65536 % 256, n / 256 % 256, n % 256]

def box (type : String) (payload : List ℕ) : List ℕ :=
  be32 (payload.length + 8) ++ type.toList.map Char.toNat ++ payload

def sampleInit : List ℕ := box "ftyp" [0x69, 0x73, 0x6f, 0x6d, 0, 0, 2, 0] ++ box "moov" []

def sampleFragments : List (List ℕ) :=
  [1, 2, 3].map fun n => box "moof" [] ++ box "mdat" [0x65, n]

/-- Each read is the initialisation segment or a fragment; the first fragment is dropped. -/
def wholeEvents : List Event :=
  [.ready (some (true, true)), .message 24 false, .sourceopen true false, .endstreaming,
    .message 18 false, .updateend false false, .message 18 false, .startstreaming false,
    .updateend false false, .message 18 false]

theorem whole_fragments_sample :
    ((wholeEvents.foldl step (start (sampleInit ++ sampleFragments.flatten).zipIdx)).appended.map
        Prod.fst = sampleInit ++ (sampleFragments.drop 1).flatten) ∧
      ∀ past, past <+: wholeEvents → Plays sampleInit sampleFragments
        ((past.foldl step (start (sampleInit ++ sampleFragments.flatten).zipIdx)).appended.map
          Prod.fst) := by
  refine ⟨by decide, fun past hpast => ?_⟩
  exact ((whole_fragments sampleInit sampleFragments wholeEvents (by decide)).1 past hpast).2

/-- Reads of other sizes: the newest chunk starts in the middle of a fragment. -/
def sampleEvents : List Event :=
  [.ready (some (true, true)), .message 30 false, .sourceopen true false, .endstreaming,
    .message 20 false, .updateend false false, .message 28 false, .startstreaming false]

def sampleEnd : Session ℕ := sampleEvents.foldl step (start (sampleInit ++ sampleFragments.flatten))

/-- The newest chunk is appended in the middle of a fragment, after a part of another one. -/
theorem fragments_torn :
    sampleEnd.appended = sampleInit ++ (box "moof" []).take 6 ++ box "mdat" [0x65, 2] ++
        box "moof" [] ++ box "mdat" [0x65, 3] ∧
      ¬ Plays sampleInit sampleFragments sampleEnd.appended := by
  decide

end Hyproxy.WholeFragments
