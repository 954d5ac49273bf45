import Hyproxy.PublicRevocation

/-!
Who gets to a public resource, in any order of the statements. A public session is that
of a visitor whose password was verified against a hash that the resource had when the
gate read it, and a hash that was not there at first is that of a password which an
administrator was given for this very resource.
-/
namespace Hyproxy.PublicVisits

open PublicGate
open PublicRevocation (merge_some resource_mem rowForRequest_some)
open ReadCommitted (State Txn)

/-! ### Visits -/

section

variable (cfg : Config) (resources : List Row)

/-- The statement of the run that has the number `m` is one of the rotation `t` of the resource. -/
structure Generated (past : List Event) (t id m : ℕ) : Prop where
  asked : ∃ now, ReadCommitted.Event.arrive t (.rotatePublicPassword id) now ∈ past
  drawn : ∃ before now rest x, past = before ++ ReadCommitted.Event.statement t now :: rest ∧
    (run cfg resources before).serial = m ∧ x ∈ (run cfg resources before).txns ∧ x.id = t ∧
    x.point = .rotate id

/-- A rotation of the resource has generated the password with the number `m`, and was committed
with the answer that tells it. -/
def Rotated (past : List Event) (id m : ℕ) : Prop :=
  ∃ t before rest x, past = before ++ ReadCommitted.Event.commit t :: rest ∧
    Generated cfg resources before t id m ∧ x ∈ (run cfg resources before).txns ∧ x.id = t ∧
    (program cfg).answer x.point = some (.rotated (cfg.generatePassword m))

/-- The hash was there at first, or a rotation has told its password. -/
def Issued (past : List Event) (id : ℕ) (hash : List Char) : Prop :=
  (∃ r ∈ resources, r.id = id ∧ r.publicPasswordHash = some hash) ∨
    ∃ m, Rotated cfg resources past id m ∧ hash = cfg.hashPassword m (cfg.generatePassword m)

/-- The transaction has generated the password, and is going to tell it. -/
def Offered (past : List Event) (t : ℕ) (reply : Option Reply) (id : ℕ) (hash : List Char) : Prop :=
  Issued cfg resources past id hash ∨
    ∃ m, Generated cfg resources past t id m ∧ reply = some (.rotated (cfg.generatePassword m)) ∧
      hash = cfg.hashPassword m (cfg.generatePassword m)

/-- The gate has read the row for the form, which was posted from the page that it was shown in. -/
structure Read (past : List Event) (form : Form) (arrived : ℤ) (seen : Row) : Prop where
  posted : ∃ t, ReadCommitted.Event.arrive t (.gateSubmit form) arrived ∈ past
  found : ∃ before, before <+: past ∧
    rowForRequest (run cfg resources before).db form.forwardedHost = some seen
  own : form.csrf ≠ [] ∧ form.csrf = form.cookieCsrf

/-- The gate has verified the password. -/
structure Verified (past : List Event) (form : Form) (arrived : ℤ) (seen : Row)
    (hash : List Char) : Prop where
  read : Read cfg resources past form arrived seen
  stored : seen.publicPasswordHash = some hash
  verified : cfg.verifyPassword hash form.password = true
  unthrottled : form.throttled = none
  issued : Issued cfg resources past seen.id hash

/-- The session is one that the gate has granted, but for a revocation. -/
def Admitted (past : List Event) (g : Granted) : Prop :=
  ∃ form arrived seen n, Verified cfg resources past form arrived seen g.hash ∧
    { g.session with revokedAt := none } = newSession cfg n form arrived seen

structure Sound (past : List Event) (db : Db) : Prop where
  rows : ∀ r ∈ db.resources, ∀ hash, r.publicPasswordHash = some hash →
    Issued cfg resources past r.id hash
  sessions : ∀ g ∈ db.sessions, Admitted cfg resources past g

/-- What a transaction may write when it is to give the reply. -/
def Writes (past : List Event) (t : ℕ) (reply : Option Reply) : Write → Prop
  | .updateResource id c => ∀ hash, c.publicPasswordHash = some (some hash) →
      Offered cfg resources past t reply id hash
  | .addSession g => Admitted cfg resources past g
  | _ => True

/-- The row has a hash that was issued for the resource. -/
def Keeps (past : List Event) (id : ℕ) (r : Row) : Prop :=
  ∀ hash, r.publicPasswordHash = some hash → Issued cfg resources past id hash

/-- The hash of the row was issued, or is that of the password which the reply tells. -/
def Sets (past : List Event) (t : ℕ) (reply : Reply) (id : ℕ) (r : Row) : Prop :=
  ∀ hash, r.publicPasswordHash = some hash → Offered cfg resources past t (some reply) id hash

/-- The reply that is known at the point. -/
def replyAt : Point → Option Reply
  | .flush _ _ _ reply => some reply
  | .revoke _ _ _ reply => some reply
  | .finish _ _ _ reply => some reply
  | .write _ _ reply => some reply
  | .answer reply _ => some reply
  | _ => none

/-- What a transaction has read when it stands at the point. -/
def Stands (past : List Event) (t : ℕ) (held : List Write) : Point → Prop
  | .gate form arrived => held = [] ∧ ReadCommitted.Event.arrive t (.gateSubmit form) arrived ∈ past
  | .throttle form arrived seen =>
      Read cfg resources past form arrived seen ∧ Keeps cfg resources past seen.id seen
  | .insert form arrived seen hash => Verified cfg resources past form arrived seen hash
  | .rotate id => ∃ now, ReadCommitted.Event.arrive t (.rotatePublicPassword id) now ∈ past
  | .patch _ _ => held = []
  | .patchHost seen _ => Keeps cfg resources past seen.id seen
  | .flush seen new cleared reply =>
      Sets cfg resources past t reply seen.id new ∧ Sets cfg resources past t reply seen.id cleared
  | .revoke seen _ cleared reply => Sets cfg resources past t reply seen.id cleared
  | .finish _ cleared mark reply => Sets cfg resources past t reply mark.resource cleared
  | .write seen new reply => Sets cfg resources past t reply seen.id new
  | .answer _ _ => True

end

section

variable {cfg : Config} {resources : List Row} {past : List Event}

/-! ### Later -/

theorem Generated.more {t id m : ℕ} (h : Generated cfg resources past t id m) (later : List Event) :
    Generated cfg resources (past ++ later) t id m := by
  obtain ⟨⟨asked, hasked⟩, before, now, rest, x, rfl, hdrawn⟩ := h
  exact ⟨⟨asked, List.mem_append_left _ hasked⟩, before, now, rest ++ later, x, by simp, hdrawn⟩

variable (cfg resources) in
theorem locked_run (events : List Event) :
    ReadCommitted.Locked (program cfg) (run cfg resources events) := by
  induction events using List.reverseRecOn with
  | nil =>
    exact ⟨fun x hx => absurd hx List.not_mem_nil, fun x hx => absurd hx List.not_mem_nil⟩
  | append_singleton past e ih =>
    rw [run, List.foldl_append]
    exact ReadCommitted.locked_step (program cfg) _ e ih

/-- No number is given twice, so a password belongs to one rotation and one resource. -/
theorem Generated.unique {t t' id id' m : ℕ} (h : Generated cfg resources past t id m)
    (h' : Generated cfg resources past t' id' m) : t' = t ∧ id' = id := by
  obtain ⟨-, before, now, rest, x, hpast, hserial, hx, hid, hpoint⟩ := h
  obtain ⟨-, before', now', rest', x', hpast', hserial', hx', hid', hpoint'⟩ := h'
  have hlength : before.length = before'.length := by
    have hcount := ReadCommitted.run_serial (program cfg) (initial resources) before
    have hcount' := ReadCommitted.run_serial (program cfg) (initial resources) before'
    change (run cfg resources before).serial = _ at hcount
    change (run cfg resources before').serial = _ at hcount'
    omega
  obtain ⟨rfl, htail⟩ := List.append_inj (hpast.symm.trans hpast') hlength
  simp only [List.cons.injEq, ReadCommitted.Event.statement.injEq] at htail
  obtain ⟨⟨rfl, -⟩, -⟩ := htail
  obtain rfl := (locked_run cfg resources before).ids x hx x' hx' (hid.trans hid'.symm)
  rw [hpoint] at hpoint'
  exact ⟨rfl, (Point.rotate.inj hpoint').symm⟩

theorem Rotated.more {id m : ℕ} (h : Rotated cfg resources past id m) (e : Event) :
    Rotated cfg resources (past ++ [e]) id m := by
  obtain ⟨t, before, rest, x, rfl, hrest⟩ := h
  exact ⟨t, before, rest ++ [e], x, by simp, hrest⟩

theorem Issued.more {id : ℕ} {hash : List Char} (h : Issued cfg resources past id hash) (e : Event) :
    Issued cfg resources (past ++ [e]) id hash :=
  h.imp_right fun ⟨m, hrotated, heq⟩ => ⟨m, hrotated.more e, heq⟩

theorem Offered.more {t id : ℕ} {reply : Option Reply} {hash : List Char}
    (h : Offered cfg resources past t reply id hash) (e : Event) :
    Offered cfg resources (past ++ [e]) t reply id hash :=
  h.imp (fun hissued => hissued.more e)
    fun ⟨m, hgenerated, hreply, heq⟩ => ⟨m, hgenerated.more [e], hreply, heq⟩

theorem Read.more {form : Form} {arrived : ℤ} {seen : Row}
    (h : Read cfg resources past form arrived seen) (e : Event) :
    Read cfg resources (past ++ [e]) form arrived seen := by
  obtain ⟨⟨t, hposted⟩, ⟨before, hbefore, hfound⟩, hown⟩ := h
  exact ⟨⟨t, List.mem_append_left _ hposted⟩,
    ⟨before, hbefore.trans (List.prefix_append past [e]), hfound⟩, hown⟩

theorem Verified.more {form : Form} {arrived : ℤ} {seen : Row} {hash : List Char}
    (h : Verified cfg resources past form arrived seen hash) (e : Event) :
    Verified cfg resources (past ++ [e]) form arrived seen hash :=
  ⟨h.read.more e, h.stored, h.verified, h.unthrottled, h.issued.more e⟩

theorem Admitted.more {g : Granted} (h : Admitted cfg resources past g) (e : Event) :
    Admitted cfg resources (past ++ [e]) g := by
  obtain ⟨form, arrived, seen, n, hverified, hsession⟩ := h
  exact ⟨form, arrived, seen, n, hverified.more e, hsession⟩

theorem Sound.more {db : Db} (h : Sound cfg resources past db) (e : Event) :
    Sound cfg resources (past ++ [e]) db :=
  ⟨fun r hr hash hhash => (h.rows r hr hash hhash).more e, fun g hg => (h.sessions g hg).more e⟩

theorem writes_more {t : ℕ} {reply : Option Reply} {w : Write}
    (h : Writes cfg resources past t reply w) (e : Event) :
    Writes cfg resources (past ++ [e]) t reply w := by
  cases w with
  | updateResource id c => exact fun hash hhash => (h hash hhash).more e
  | addSession g => exact Admitted.more h e
  | _ => trivial

theorem Keeps.more {id : ℕ} {r : Row} (h : Keeps cfg resources past id r) (e : Event) :
    Keeps cfg resources (past ++ [e]) id r := fun hash hhash => (h hash hhash).more e

theorem Sets.more {t id : ℕ} {reply : Reply} {r : Row} (h : Sets cfg resources past t reply id r)
    (e : Event) : Sets cfg resources (past ++ [e]) t reply id r :=
  fun hash hhash => (h hash hhash).more e

theorem Keeps.sets {id : ℕ} {r : Row} (h : Keeps cfg resources past id r) (t : ℕ) (reply : Reply) :
    Sets cfg resources past t reply id r := fun hash hhash => Or.inl (h hash hhash)

theorem stands_more {t : ℕ} {held : List Write} {p : Point} (h : Stands cfg resources past t held p)
    (e : Event) : Stands cfg resources (past ++ [e]) t held p := by
  cases p with
  | gate form arrived => exact ⟨h.1, List.mem_append_left _ h.2⟩
  | throttle form arrived seen => exact ⟨h.1.more e, h.2.more e⟩
  | insert form arrived seen hash => exact Verified.more h e
  | rotate id =>
    obtain ⟨now, hmem⟩ := h
    exact ⟨now, List.mem_append_left _ hmem⟩
  | patch id body => exact h
  | patchHost seen body => exact Keeps.more h e
  | flush seen new cleared reply => exact ⟨h.1.more e, h.2.more e⟩
  | revoke seen new cleared reply => exact Sets.more h e
  | finish new cleared mark reply => exact Sets.more h e
  | write seen new reply => exact Sets.more h e
  | answer reply mark => trivial

/-! ### Writes -/

/-- A transaction that does not know its reply yet has offered nothing. -/
theorem writes_next {t : ℕ} {reply reply' : Option Reply} {w : Write}
    (h : Writes cfg resources past t reply w) (hreply : reply = none ∨ reply' = reply) :
    Writes cfg resources past t reply' w := by
  rcases hreply with rfl | rfl
  · cases w with
    | updateResource id c =>
      intro hash hhash
      rcases h hash hhash with hissued | ⟨m, -, hnone, -⟩
      · exact Or.inl hissued
      · cases hnone
    | _ => exact h
  · exact h

/-- A write of a transaction that is committed. -/
def Lands (cfg : Config) (resources : List Row) (past : List Event) : Write → Prop
  | .updateResource id c => ∀ hash, c.publicPasswordHash = some (some hash) →
      Issued cfg resources past id hash
  | .addSession g => Admitted cfg resources past g
  | _ => True

/-- The password is told when the transaction is committed. -/
theorem lands_commit {x : Txn Write Point} {reply : Reply} {w : Write}
    (hmem : x ∈ (run cfg resources past).txns) (hanswer : (program cfg).answer x.point = some reply)
    (h : Writes cfg resources past x.id (some reply) w) :
    Lands cfg resources (past ++ [.commit x.id]) w := by
  cases w with
  | updateResource id c =>
    intro hash hhash
    rcases h hash hhash with hissued | ⟨m, hgenerated, hreply, heq⟩
    · exact hissued.more _
    · refine Or.inr ⟨m, ⟨x.id, past, [], x, rfl, hgenerated, hmem, rfl, ?_⟩, heq⟩
      rw [hanswer, hreply]
  | addSession g => exact Admitted.more h _
  | _ => trivial

theorem sound_apply {db : Db} {w : Write} (h : Sound cfg resources past db)
    (hw : Lands cfg resources past w) : Sound cfg resources past (apply db w) := by
  cases w with
  | updateResource id c =>
    refine ⟨fun r hr hash hhash => ?_, h.sessions⟩
    obtain ⟨old, hold, rfl⟩ := List.mem_map.mp hr
    rw [PublicRevocation.touch_id]
    simp only [Write.touch] at hhash
    split_ifs at hhash with hid
    · simp only [Columns.set] at hhash
      cases hcolumn : c.publicPasswordHash with
      | none =>
        rw [hcolumn] at hhash
        exact h.rows old hold hash hhash
      | some column =>
        rw [hcolumn, Option.getD_some] at hhash
        exact hid ▸ hw hash (hcolumn.trans (congrArg some hhash))
    · exact h.rows old hold hash hhash
  | claimHost host => exact ⟨fun r hr => h.rows r (by simpa [apply, Write.touch] using hr), h.sessions⟩
  | addSession g =>
    refine ⟨fun r hr hash hhash => ?_, fun g' hg' => ?_⟩
    · obtain ⟨old, hold, rfl⟩ := List.mem_map.mp hr
      rw [PublicRevocation.touch_id]
      simp only [Write.touch] at hhash
      split_ifs at hhash <;> exact h.rows old hold hash hhash
    · rcases List.mem_append.mp hg' with hold | hnew
      · exact h.sessions g' hold
      · exact List.mem_singleton.mp hnew ▸ hw
  | revoke id now =>
    refine ⟨fun r hr => h.rows r (by simpa [apply, Write.touch] using hr), fun g' hg' => ?_⟩
    obtain ⟨g, hg, rfl⟩ := List.mem_map.mp hg'
    split_ifs
    · exact h.sessions g hg
    · exact h.sessions g hg

theorem sound_foldl {writes : List Write} {db : Db} (h : Sound cfg resources past db)
    (hwrites : ∀ w ∈ writes, Lands cfg resources past w) :
    Sound cfg resources past (writes.foldl apply db) := by
  induction writes generalizing db with
  | nil => exact h
  | cons w writes ih =>
    exact ih (sound_apply h (hwrites w (List.mem_cons_self ..))) fun w' hw' =>
      hwrites w' (List.mem_cons_of_mem _ hw')

theorem updateRow_writes {db : Db} {t id : ℕ} {reply : Reply} {seen new : Row}
    {writes : List Write} (hnew : Sets cfg resources past t reply id new)
    (h : updateRow db id (diff seen new) = some writes) :
    ∀ w ∈ writes, Writes cfg resources past t (some reply) w := by
  unfold updateRow at h
  split_ifs at h with hempty
  · obtain rfl := Option.some.inj h
    exact fun w hw => absurd hw List.not_mem_nil
  · cases hrow : db.resource id with
    | none =>
      rw [hrow] at h
      obtain rfl := Option.some.inj h
      exact fun w hw => absurd hw List.not_mem_nil
    | some r =>
      rw [hrow] at h
      simp only at h
      split_ifs at h
      obtain rfl := Option.some.inj h
      intro w hw
      rcases List.mem_cons.mp hw with rfl | hclaim
      · intro hash hhash
        simp only [diff, changed] at hhash
        split_ifs at hhash
        exact hnew hash (Option.some.inj hhash)
      · unfold hostClaim at hclaim
        split at hclaim
        · rw [List.mem_singleton.mp hclaim]
          trivial
        · exact absurd hclaim List.not_mem_nil

/-! ### Statements -/

theorem Sound.keeps {db : Db} (h : Sound cfg resources past db) (r : Row) (hr : r ∈ db.resources) :
    Keeps cfg resources past r.id r := h.rows r hr

theorem clearPassword_keeps {id : ℕ} {r : Row} (h : Keeps cfg resources past id r) :
    Keeps cfg resources past id (clearPassword r) := by
  unfold clearPassword
  split_ifs
  · exact h
  · intro hash hhash
    cases hhash

theorem patchPoint_stands {t : ℕ} {seen : Row} {body : Patch} {p : Point} (held : List Write)
    (h : Keeps cfg resources past seen.id seen) (hp : patchPoint seen body = some p) :
    Stands cfg resources past t held p := by
  unfold patchPoint at hp
  cases hmerge : body.merge seen with
  | none =>
    rw [hmerge] at hp
    cases hp
  | some new =>
    rw [hmerge] at hp
    simp only at hp
    have hnew : Keeps cfg resources past seen.id new := fun hash hhash =>
      h hash ((merge_some body seen new hmerge).1 ▸ hhash)
    split_ifs at hp <;> obtain rfl := Option.some.inj hp
    · exact ⟨hnew.sets t _, (clearPassword_keeps hnew).sets t _⟩
    · exact (clearPassword_keeps hnew).sets t _

theorem verify_stands {t : ℕ} (held : List Write) {form : Form} {arrived : ℤ} {seen : Row}
    (hread : Read cfg resources past form arrived seen)
    (hkeeps : Keeps cfg resources past seen.id seen) (hfree : form.throttled = none) :
    Stands cfg resources past t held (verify cfg form arrived seen) := by
  unfold verify
  cases hstored : seen.publicPasswordHash with
  | none => trivial
  | some hash =>
    simp only
    split_ifs with hverified
    · exact ⟨hread, hstored, hverified, hfree, hkeeps hash hstored⟩
    · trivial

/-- A reply that is known stays as it is. -/
theorem statement_reply {db : Db} {writes : List Write} {serial : ℕ} {now : ℤ} {p p' : Point}
    (h : statement cfg db serial now p = some (writes, p')) :
    replyAt p = none ∨ replyAt p' = replyAt p := by
  cases p with
  | flush seen new cleared reply =>
    simp only [statement] at h
    split at h
    · cases h
    · obtain ⟨-, rfl⟩ := Prod.mk.inj (Option.some.inj h)
      exact Or.inr rfl
  | revoke seen new cleared reply =>
    obtain ⟨-, rfl⟩ := Prod.mk.inj (Option.some.inj h)
    exact Or.inr rfl
  | finish new cleared mark reply =>
    simp only [statement] at h
    split at h
    · cases h
    · obtain ⟨-, rfl⟩ := Prod.mk.inj (Option.some.inj h)
      exact Or.inr rfl
  | write seen new reply =>
    simp only [statement] at h
    split at h
    · cases h
    · obtain ⟨-, rfl⟩ := Prod.mk.inj (Option.some.inj h)
      exact Or.inr rfl
  | answer reply mark => cases h
  | _ => exact Or.inl rfl

/-- The gate reads its row from the committed tables. -/
theorem gate_stands {t serial : ℕ} {form : Form} {arrived now : ℤ} {writes : List Write} {p : Point}
    (hsound : Sound cfg resources past (run cfg resources past).db)
    (hposted : .arrive t (.gateSubmit form) arrived ∈ past)
    (h : statement cfg (run cfg resources past).db serial now (.gate form arrived) =
      some (writes, p)) : writes = [] ∧ Stands cfg resources past t [] p := by
  simp only [statement] at h
  cases hfound : rowForRequest (run cfg resources past).db form.forwardedHost with
  | none =>
    simp only [hfound] at h
    obtain ⟨rfl, rfl⟩ := Prod.mk.inj (Option.some.inj h)
    exact ⟨rfl, trivial⟩
  | some seen =>
    simp only [hfound] at h
    split_ifs at h with hforeign <;> obtain ⟨rfl, rfl⟩ := Prod.mk.inj (Option.some.inj h)
    · exact ⟨rfl, trivial⟩
    · rw [not_or, not_or, not_not] at hforeign
      have hread : Read cfg resources past form arrived seen :=
        ⟨⟨t, hposted⟩, ⟨past, List.prefix_refl past, hfound⟩, hforeign.1, hforeign.2.2⟩
      exact ⟨rfl, hread, hsound.keeps seen (rowForRequest_some _ _ seen hfound).1⟩

/-- A rotation stores the hash of the password that it has generated, and tells that one. -/
theorem rotate_stands {db : Db} {t id serial : ℕ} {now : ℤ} {writes : List Write} {p : Point}
    (held : List Write) (hgenerated : Generated cfg resources past t id serial)
    (h : statement cfg db serial now (.rotate id) = some (writes, p)) :
    writes = [] ∧ Stands cfg resources past t held p := by
  simp only [statement] at h
  cases hseen : db.resource id with
  | none =>
    rw [hseen] at h
    cases h
  | some seen =>
    rw [hseen] at h
    simp only at h
    split_ifs at h
    obtain ⟨rfl, rfl⟩ := Prod.mk.inj (Option.some.inj h)
    obtain ⟨-, rfl⟩ := resource_mem _ id seen hseen
    have hsets : Sets cfg resources past t (.rotated (cfg.generatePassword serial)) seen.id
        (setPublicPassword cfg serial now seen) := by
      intro hash hhash
      exact Or.inr ⟨serial, hgenerated, rfl, (Option.some.inj hhash).symm⟩
    exact ⟨rfl, hsets, hsets⟩

/-- A statement of an open transaction, as an event of the run. -/
theorem statement_stands {x : Txn Write Point} {writes : List Write} {now : ℤ} {p : Point}
    (hsound : Sound cfg resources past (run cfg resources past).db)
    (hmem : x ∈ (run cfg resources past).txns) (hx : Stands cfg resources past x.id x.writes x.point)
    (h : statement cfg (x.view (program cfg) (run cfg resources past).db)
      (run cfg resources past).serial now x.point = some (writes, p)) :
    (∀ w ∈ writes, Writes cfg resources (past ++ [.statement x.id now]) x.id (replyAt p) w) ∧
      Stands cfg resources (past ++ [.statement x.id now]) x.id (x.writes ++ writes) p := by
  have hnil : ∀ w ∈ ([] : List Write),
      Writes cfg resources (past ++ [.statement x.id now]) x.id (replyAt p) w :=
    fun w hw => absurd hw List.not_mem_nil
  obtain ⟨t, point, held⟩ := x
  cases point with
  | gate form arrived =>
    obtain ⟨rfl, hposted⟩ := hx
    obtain ⟨rfl, hstands⟩ := gate_stands hsound hposted h
    exact ⟨hnil, stands_more hstands _⟩
  | throttle form arrived seen =>
    simp only [statement] at h
    cases hfree : form.throttled with
    | some retryAfter =>
      rw [hfree] at h
      obtain ⟨rfl, rfl⟩ := Prod.mk.inj (Option.some.inj h)
      exact ⟨hnil, trivial⟩
    | none =>
      rw [hfree] at h
      obtain ⟨rfl, rfl⟩ := Prod.mk.inj (Option.some.inj h)
      exact ⟨hnil, verify_stands _ (hx.1.more _) (hx.2.more _) hfree⟩
  | insert form arrived seen hash =>
    obtain ⟨rfl, rfl⟩ := Prod.mk.inj (Option.some.inj h)
    refine ⟨fun w hw => ?_, trivial⟩
    rw [List.mem_singleton.mp hw]
    exact ⟨form, arrived, seen, (run cfg resources past).serial, Verified.more hx _, rfl⟩
  | rotate id =>
    obtain ⟨asked, hasked⟩ := hx
    have hgenerated : Generated cfg resources (past ++ [.statement t now]) t id
        (run cfg resources past).serial :=
      ⟨⟨asked, List.mem_append_left _ hasked⟩, past, now, [], _, rfl, rfl, hmem, rfl, rfl⟩
    obtain ⟨rfl, hstands⟩ := rotate_stands (held ++ []) hgenerated h
    exact ⟨hnil, hstands⟩
  | patch id body =>
    obtain rfl := hx
    simp only [statement] at h
    cases hseen : (run cfg resources past).db.resource id with
    | none =>
      simp only [Txn.view, List.foldl_nil, hseen] at h
      cases h
    | some seen =>
      simp only [Txn.view, List.foldl_nil, hseen] at h
      split_ifs at h
      obtain ⟨rfl, rfl⟩ := Prod.mk.inj (Option.some.inj h)
      exact ⟨hnil, (hsound.keeps seen (resource_mem _ id seen hseen).1).more _⟩
  | patchHost seen body =>
    simp only [statement] at h
    split_ifs at h
    cases hpoint : patchPoint seen body with
    | none =>
      rw [hpoint] at h
      cases h
    | some next =>
      rw [hpoint] at h
      obtain ⟨rfl, rfl⟩ := Prod.mk.inj (Option.some.inj h)
      exact ⟨hnil, patchPoint_stands _ (Keeps.more hx _) hpoint⟩
  | flush seen new cleared reply =>
    simp only [statement] at h
    split at h
    · cases h
    · rename_i updates hupdate
      obtain ⟨rfl, rfl⟩ := Prod.mk.inj (Option.some.inj h)
      exact ⟨updateRow_writes (hx.1.more _) hupdate, hx.2.more _⟩
  | revoke seen new cleared reply =>
    obtain ⟨rfl, rfl⟩ := Prod.mk.inj (Option.some.inj h)
    refine ⟨fun w hw => ?_, Sets.more hx _⟩
    obtain ⟨g, -, rfl⟩ := List.mem_map.mp hw
    trivial
  | finish new cleared mark reply =>
    simp only [statement] at h
    split at h
    · cases h
    · rename_i updates hupdate
      obtain ⟨rfl, rfl⟩ := Prod.mk.inj (Option.some.inj h)
      exact ⟨updateRow_writes (Sets.more hx _) hupdate, trivial⟩
  | write seen new reply =>
    simp only [statement] at h
    split at h
    · cases h
    · rename_i updates hupdate
      obtain ⟨rfl, rfl⟩ := Prod.mk.inj (Option.some.inj h)
      exact ⟨updateRow_writes (Sets.more hx _) hupdate, trivial⟩
  | answer reply mark => cases h

/-! ### Runs -/

variable (cfg resources) in
structure Inv (past : List Event) (s : State Db Write Point Reply) : Prop where
  sound : Sound cfg resources past s.db
  writes : ∀ x ∈ s.txns, ∀ w ∈ x.writes, Writes cfg resources past x.id (replyAt x.point) w
  stands : ∀ x ∈ s.txns, Stands cfg resources past x.id x.writes x.point

theorem inv_step (past : List Event) (e : Event) (h : Inv cfg resources past (run cfg resources past)) :
    Inv cfg resources (past ++ [e]) (step cfg (run cfg resources past) e) := by
  unfold step
  generalize hnext : ReadCommitted.step (program cfg) (run cfg resources past) e = next
  have heffect := hnext ▸ ReadCommitted.step_effect (program cfg) (run cfg resources past) e
  have hsound := h.sound.more e
  have hwrites := fun x hx w hw => writes_more (h.writes x hx w hw) e
  have hstands := fun x hx => stands_more (h.stands x hx) e
  cases heffect with
  | wait => exact ⟨hsound, hwrites, hstands⟩
  | arrive t request now hnew =>
    refine ⟨hsound, fun x hx w hw => ?_, fun x hx => ?_⟩
    · rcases List.mem_cons.mp hx with rfl | hx
      · exact absurd hw List.not_mem_nil
      · exact hwrites x hx w hw
    · rcases List.mem_cons.mp hx with rfl | hx
      · have hlast : ReadCommitted.Event.arrive t request now ∈
            past ++ [ReadCommitted.Event.arrive t request now] := by simp
        cases request with
        | gateSubmit form => exact ⟨rfl, hlast⟩
        | rotatePublicPassword id => exact ⟨now, hlast⟩
        | patchResource id body => rfl
      · exact hstands x hx
  | statement x now more p hmem hanswer hstatement hfree =>
    obtain ⟨hnew, hnext⟩ := statement_stands h.sound hmem (h.stands x hmem) hstatement
    refine ⟨hsound, fun y hy w hw => ?_, fun y hy => ?_⟩
    · rcases ReadCommitted.mem_put _ _ y hy with rfl | ⟨hy, -⟩
      · rcases List.mem_append.mp hw with hold | hlast
        · exact writes_next (hwrites x hmem w hold) (statement_reply hstatement)
        · exact hnew w hlast
      · exact hwrites y hy w hw
    · rcases ReadCommitted.mem_put _ _ y hy with rfl | ⟨hy, -⟩
      · exact hnext
      · exact hstands y hy
  | commit x r hmem hanswer =>
    refine ⟨sound_foldl hsound fun w hw => ?_,
      fun y hy => hwrites y ((ReadCommitted.mem_drop _ x.id y).mp hy).1,
      fun y hy => hstands y ((ReadCommitted.mem_drop _ x.id y).mp hy).1⟩
    have hreply : replyAt x.point = some r := by
      cases hpoint : x.point <;> rw [hpoint] at hanswer
      case answer reply mark => exact hanswer
      all_goals cases hanswer
    exact lands_commit hmem hanswer (hreply ▸ h.writes x hmem w hw)
  | abandon _ t hwhy =>
    exact ⟨hsound, fun y hy => hwrites y ((ReadCommitted.mem_drop _ t y).mp hy).1,
      fun y hy => hstands y ((ReadCommitted.mem_drop _ t y).mp hy).1⟩

variable (cfg resources) in
theorem inv_run (events : List Event) : Inv cfg resources events (run cfg resources events) := by
  induction events using List.reverseRecOn with
  | nil =>
    exact ⟨⟨fun r hr hash hhash => Or.inl ⟨r, hr, rfl, hhash⟩, fun g hg => absurd hg List.not_mem_nil⟩,
      fun x hx => absurd hx List.not_mem_nil, fun x hx => absurd hx List.not_mem_nil⟩
  | append_singleton past e ih =>
    have hlast : run cfg resources (past ++ [e]) = step cfg (run cfg resources past) e := by
      rw [run, List.foldl_append]
      rfl
    exact hlast ▸ inv_step past e ih

end

/-! ### The control plane -/

def untouched (row : AuthzCheck.PublicSession) : AuthzCheck.PublicSession :=
  { row with lastSeenAt := 0 }

/-- The tables of the control plane are those of the gate; a decision may have touched a session. -/
structure Shows (db : AuthzCheck.Db) (gate : Db) : Prop where
  resources : db.resources = gate.resources.map fun r => r.toResource
  sessions : db.publicSessions.map untouched = gate.sessions.map fun g => untouched g.session

/-- The app's public face, asked for with the cookie of the visit after the rotation. -/
def sampleBody : AuthzCheck.CheckRequest where
  host := "a.b".toList
  method := "GET".toList
  uri := "/docs/x".toList
  sourceIp := "192.0.2.7".toList
  backendPort := some 443
  gatewayCookie := none
  publicCookie := some "id.secret".toList

def sampleDb : AuthzCheck.Db :=
  { PublicRevocation.sampleDb PublicRevocation.sampleRun with
    resources := [PublicRevocation.sampleRow.toResource] }

end Hyproxy.PublicVisits
