import Mathlib.Data.List.Chain
import Mathlib.Data.List.Nodup
import Mathlib.Tactic.SplitIfs

/-!
What rotation is for. A ledger lists the tokens in the order in which they came
to be. It grows by a first token of a new family and by the exchange of an
unused token for its child. Families are then chains, and each token but the
last of its family is used.
-/

namespace Hyproxy.TokenFamilies

structure Entry where
  id : ℕ
  family : ℕ
  session : ℕ
  parent : Option ℕ
  used : Bool
  deriving Repr, DecidableEq

/-- Mark the token with this identifier used. -/
def spend (id : ℕ) (e : Entry) : Entry := if e.id = id then { e with used := true } else e

/-- One change of the ledger. -/
inductive Step (ledger : List Entry) : List Entry → Prop
  | keep : Step ledger ledger
  | issue (first : Entry) (hid : first.id ∉ ledger.map Entry.id)
      (hfamily : first.family = first.id) (hparent : first.parent = none) :
    Step ledger (ledger ++ [first])
  | exchange (token child : Entry) (hmem : token ∈ ledger) (hunused : token.used = false)
      (hid : child.id ∉ ledger.map Entry.id) (hparent : child.parent = some token.id)
      (hfamily : child.family = token.family) (hsession : child.session = token.session) :
    Step ledger (ledger.map (spend token.id) ++ [child])

/-- The first token has no parent, and the parent of each other is the one before it, which
is used. -/
def Chain (tokens : List Entry) : Prop :=
  (∀ e ∈ tokens.head?, e.parent = none) ∧
    tokens.IsChain fun a b => b.parent = some a.id ∧ a.used = true

structure Linear (ledger : List Entry) : Prop where
  ids : (ledger.map Entry.id).Nodup
  rooted : ∀ e ∈ ledger, ∃ root ∈ ledger, root.id = e.family
  session : ∀ e ∈ ledger, ∀ e' ∈ ledger, e.family = e'.family → e.session = e'.session
  spent : ∀ e ∈ ledger, ∀ p, e.parent = some p → ∃ token ∈ ledger, token.id = p ∧ token.used = true
  once : (ledger.filterMap Entry.parent).Nodup
  chain : ∀ family, Chain (ledger.filter fun e => e.family = family)

@[simp] theorem spend_id (id : ℕ) (e : Entry) : (spend id e).id = e.id := by
  unfold spend
  split_ifs <;> rfl

@[simp] theorem spend_family (id : ℕ) (e : Entry) : (spend id e).family = e.family := by
  unfold spend
  split_ifs <;> rfl

@[simp] theorem spend_session (id : ℕ) (e : Entry) : (spend id e).session = e.session := by
  unfold spend
  split_ifs <;> rfl

@[simp] theorem spend_parent (id : ℕ) (e : Entry) : (spend id e).parent = e.parent := by
  unfold spend
  split_ifs <;> rfl

theorem spend_used (id : ℕ) (e : Entry) : (spend id e).used = true ↔ e.id = id ∨ e.used = true := by
  unfold spend
  split_ifs with h <;> simp [h]

theorem chain_map_spend (id : ℕ) (tokens : List Entry) (h : Chain tokens) :
    Chain (tokens.map (spend id)) := by
  refine ⟨?_, ?_⟩
  · intro e he
    rw [List.head?_map, Option.mem_def, Option.map_eq_some_iff] at he
    obtain ⟨e', he', rfl⟩ := he
    rw [spend_parent]
    exact h.1 e' he'
  · refine List.isChain_map_of_isChain (spend id) ?_ h.2
    rintro a b ⟨hparent, hused⟩
    simp [hparent, spend_used, hused]

/-- An unused token ends its chain. -/
theorem chain_unused_last (tokens : List Entry) (token : Entry) (h : Chain tokens)
    (hmem : token ∈ tokens) (hunused : token.used = false) :
    ∃ before, tokens = before ++ [token] := by
  obtain ⟨before, rest, rfl⟩ := List.append_of_mem hmem
  cases rest with
  | nil => exact ⟨before, rfl⟩
  | cons next rest =>
    have hlink := (List.isChain_append_cons_cons.mp h.2).2.1
    rw [hunused] at hlink
    exact absurd hlink.2 (by decide)

theorem chain_unused_length (tokens : List Entry) (h : Chain tokens) :
    (tokens.filter fun e => !e.used).length ≤ 1 := by
  have hchain := h.2
  clear h
  induction tokens with
  | nil => simp
  | cons a rest ih =>
    cases rest with
    | nil => exact List.length_filter_le _ _
    | cons b rest =>
      rw [List.isChain_cons_cons] at hchain
      rw [List.filter_cons_of_neg (by simp [hchain.1.2])]
      exact ih hchain.2

theorem chain_snoc (before : List Entry) (token child : Entry) (h : Chain (before ++ [token]))
    (hused : token.used = true) (hparent : child.parent = some token.id) :
    Chain (before ++ [token] ++ [child]) := by
  refine ⟨?_, ?_⟩
  · intro e he
    apply h.1 e
    rwa [List.head?_append_of_ne_nil _ (by simp)] at he
  · rw [List.isChain_append]
    refine ⟨h.2, List.isChain_singleton child, ?_⟩
    intro a ha b hb
    rw [List.getLast?_append_of_ne_nil _ (by simp), List.getLast?_singleton, Option.mem_some_iff] at ha
    rw [List.head?_singleton, Option.mem_some_iff] at hb
    subst ha
    subst hb
    exact ⟨hparent, hused⟩

theorem filter_family_snoc (ledger : List Entry) (e : Entry) (family : ℕ) :
    (ledger ++ [e]).filter (fun e => e.family = family) =
      ledger.filter (fun e => e.family = family) ++ if e.family = family then [e] else [] := by
  rw [List.filter_append]
  split_ifs with h <;> simp [h]

theorem linear_nil : Linear [] := by
  refine ⟨List.nodup_nil, ?_, ?_, ?_, List.nodup_nil, ?_⟩
  · simp
  · simp
  · simp
  · intro family
    exact ⟨by simp, List.isChain_nil⟩

theorem linear_issue (ledger : List Entry) (first : Entry) (h : Linear ledger)
    (hid : first.id ∉ ledger.map Entry.id) (hfamily : first.family = first.id)
    (hparent : first.parent = none) : Linear (ledger ++ [first]) := by
  have hother : ∀ e ∈ ledger, e.family ≠ first.family := by
    intro e he heq
    obtain ⟨root, hroot, hrootId⟩ := h.rooted e he
    exact hid (List.mem_map.mpr ⟨root, hroot, by rw [hrootId, heq, hfamily]⟩)
  refine ⟨?_, ?_, ?_, ?_, ?_, ?_⟩
  · rw [List.map_append]
    simpa using h.ids.concat hid
  · intro e he
    rcases List.mem_append.mp he with he | he
    · obtain ⟨root, hroot, hrootId⟩ := h.rooted e he
      exact ⟨root, List.mem_append_left _ hroot, hrootId⟩
    · rw [List.mem_singleton] at he
      subst he
      exact ⟨e, by simp, hfamily.symm⟩
  · intro e he e' he' heq
    rcases List.mem_append.mp he with he | he <;> rcases List.mem_append.mp he' with he' | he'
    · exact h.session e he e' he' heq
    · rw [List.mem_singleton] at he'
      exact absurd (he' ▸ heq) (hother e he)
    · rw [List.mem_singleton] at he
      exact absurd (he ▸ heq.symm) (hother e' he')
    · rw [List.mem_singleton] at he he'
      rw [he, he']
  · intro e he p hp
    rcases List.mem_append.mp he with he | he
    · obtain ⟨token, htoken, hrest⟩ := h.spent e he p hp
      exact ⟨token, List.mem_append_left _ htoken, hrest⟩
    · rw [List.mem_singleton] at he
      rw [he, hparent] at hp
      cases hp
  · simpa [List.filterMap_append, hparent] using h.once
  · intro family
    rw [filter_family_snoc]
    split_ifs with hf
    · have hnone : ledger.filter (fun e => e.family = family) = [] := by
        rw [List.filter_eq_nil_iff]
        intro e he
        simpa [← hf] using hother e he
      rw [hnone]
      exact ⟨by simpa using hparent, List.isChain_singleton first⟩
    · rw [List.append_nil]
      exact h.chain family

/-- An unused token has no child. -/
theorem unused_childless (ledger : List Entry) (token : Entry) (h : Linear ledger)
    (hmem : token ∈ ledger) (hunused : token.used = false) :
    token.id ∉ ledger.filterMap Entry.parent := by
  intro hchild
  obtain ⟨e, he, hparent⟩ := List.mem_filterMap.mp hchild
  obtain ⟨token', htoken', hid, hused⟩ := h.spent e he token.id hparent
  have heq : token' = token := List.inj_on_of_nodup_map h.ids htoken' hmem hid
  rw [heq, hunused] at hused
  cases hused

theorem chain_exchange (ledger : List Entry) (token child : Entry) (h : Linear ledger)
    (hmem : token ∈ ledger) (hunused : token.used = false)
    (hparent : child.parent = some token.id) (hfamily : child.family = token.family)
    (family : ℕ) :
    Chain ((ledger.map (spend token.id) ++ [child]).filter fun e => e.family = family) := by
  have hmap : (ledger.map (spend token.id)).filter (fun e => e.family = family) =
      (ledger.filter fun e => e.family = family).map (spend token.id) := by
    rw [List.filter_map]
    congr 1
    exact List.filter_congr fun e _ => by simp
  have hspent := chain_map_spend token.id _ (h.chain family)
  rw [filter_family_snoc, hmap]
  split_ifs with hf
  · have hfam : token ∈ ledger.filter fun e => e.family = family := by
      simp [hmem, ← hf, hfamily]
    obtain ⟨before, hbefore⟩ := chain_unused_last _ token (h.chain family) hfam hunused
    rw [hbefore, List.map_append, List.map_singleton] at hspent ⊢
    exact chain_snoc _ _ child hspent (by simp [spend_used]) (by simp [hparent])
  · rw [List.append_nil]
    exact hspent

theorem linear_exchange (ledger : List Entry) (token child : Entry) (h : Linear ledger)
    (hmem : token ∈ ledger) (hunused : token.used = false)
    (hid : child.id ∉ ledger.map Entry.id) (hparent : child.parent = some token.id)
    (hfamily : child.family = token.family) (hsession : child.session = token.session) :
    Linear (ledger.map (spend token.id) ++ [child]) := by
  have hids : (ledger.map (spend token.id)).map Entry.id = ledger.map Entry.id := by
    rw [List.map_map]
    exact List.map_congr_left fun e _ => spend_id token.id e
  have hparents : (ledger.map (spend token.id)).filterMap Entry.parent =
      ledger.filterMap Entry.parent := by
    rw [List.filterMap_map]
    exact List.filterMap_congr fun e _ => spend_parent token.id e
  have hold : ∀ e ∈ ledger.map (spend token.id) ++ [child],
      e = child ∨ ∃ e' ∈ ledger, e = spend token.id e' := by
    intro e he
    rcases List.mem_append.mp he with he | he
    · obtain ⟨e', he', rfl⟩ := List.mem_map.mp he
      exact Or.inr ⟨e', he', rfl⟩
    · exact Or.inl (List.mem_singleton.mp he)
  have hkeep : ∀ e ∈ ledger, spend token.id e ∈ ledger.map (spend token.id) ++ [child] :=
    fun e he => List.mem_append_left _ (List.mem_map_of_mem he)
  have htoken : ∀ e ∈ ledger.map (spend token.id) ++ [child],
      ∃ e' ∈ ledger, e'.family = e.family ∧ e'.session = e.session := by
    intro e he
    rcases hold e he with rfl | ⟨e', he', rfl⟩
    · exact ⟨token, hmem, hfamily.symm, hsession.symm⟩
    · exact ⟨e', he', by simp, by simp⟩
  refine ⟨?_, ?_, ?_, ?_, ?_, chain_exchange ledger token child h hmem hunused hparent hfamily⟩
  · rw [List.map_append, hids]
    simpa using h.ids.concat hid
  · intro e he
    obtain ⟨e', he', hsame, _⟩ := htoken e he
    obtain ⟨root, hroot, hrootId⟩ := h.rooted e' he'
    exact ⟨spend token.id root, hkeep root hroot, by rw [spend_id, hrootId, hsame]⟩
  · intro e he e' he' heq
    obtain ⟨f, hf, hfam, hses⟩ := htoken e he
    obtain ⟨f', hf', hfam', hses'⟩ := htoken e' he'
    rw [← hses, ← hses']
    exact h.session f hf f' hf' (by rw [hfam, hfam', heq])
  · intro e he p hp
    rcases hold e he with rfl | ⟨e', he', rfl⟩
    · rw [hparent, Option.some.injEq] at hp
      exact ⟨spend token.id token, hkeep token hmem, by rw [spend_id, hp], by simp [spend_used]⟩
    · rw [spend_parent] at hp
      obtain ⟨parent, hmemParent, hparentId, hused⟩ := h.spent e' he' p hp
      exact ⟨spend token.id parent, hkeep parent hmemParent, by rw [spend_id, hparentId],
        by simp [spend_used, hused]⟩
  · rw [List.filterMap_append, hparents]
    simpa [hparent] using h.once.concat (unused_childless ledger token h hmem hunused)

theorem linear_step (ledger ledger' : List Entry) (h : Linear ledger) (hstep : Step ledger ledger') :
    Linear ledger' := by
  cases hstep with
  | keep => exact h
  | issue first hid hfamily hparent => exact linear_issue ledger first h hid hfamily hparent
  | exchange token child hmem hunused hid hparent hfamily hsession =>
    exact linear_exchange ledger token child h hmem hunused hid hparent hfamily hsession

/-- A token after a step has the family and the session of one before, or starts a family. -/
theorem step_family (ledger ledger' : List Entry) (h : Linear ledger)
    (hstep : Step ledger ledger') (e : Entry) (he : e ∈ ledger') :
    (∃ e' ∈ ledger, e'.family = e.family ∧ e'.session = e.session) ∨
      ∀ e' ∈ ledger, e'.family ≠ e.family := by
  cases hstep with
  | keep => exact Or.inl ⟨e, he, rfl, rfl⟩
  | issue first hid hfamily hparent =>
    rcases List.mem_append.mp he with he | he
    · exact Or.inl ⟨e, he, rfl, rfl⟩
    · rw [List.mem_singleton] at he
      subst he
      refine Or.inr fun e' he' heq => ?_
      obtain ⟨root, hroot, hrootId⟩ := h.rooted e' he'
      exact hid (List.mem_map.mpr ⟨root, hroot, by rw [hrootId, heq, hfamily]⟩)
  | exchange token child hmem hunused hid hparent hfamily hsession =>
    rcases List.mem_append.mp he with he | he
    · obtain ⟨e', he', rfl⟩ := List.mem_map.mp he
      exact Or.inl ⟨e', he', by simp, by simp⟩
    · rw [List.mem_singleton] at he
      subst he
      exact Or.inl ⟨token, hmem, hfamily.symm, hsession.symm⟩

/-- A step keeps the family and the session of every token. -/
theorem step_keeps (ledger ledger' : List Entry) (hstep : Step ledger ledger') (e : Entry)
    (he : e ∈ ledger) : ∃ e' ∈ ledger', e'.family = e.family ∧ e'.session = e.session := by
  cases hstep with
  | keep => exact ⟨e, he, rfl, rfl⟩
  | issue first hid hfamily hparent => exact ⟨e, List.mem_append_left _ he, rfl, rfl⟩
  | exchange token child hmem hunused hid hparent hfamily hsession =>
    exact ⟨spend token.id e, List.mem_append_left _ (List.mem_map_of_mem he), by simp, by simp⟩

/-- At most one token is the child of another. -/
theorem linear_children (ledger : List Entry) (h : Linear ledger) (id : ℕ) :
    (ledger.filter fun e => e.parent = some id).length ≤ 1 := by
  have hcount : (ledger.filterMap Entry.parent).count id =
      (ledger.filter fun e => e.parent = some id).length := by
    clear h
    induction ledger with
    | nil => rfl
    | cons e rest ih =>
      cases hparent : e.parent with
      | none => simpa [hparent] using ih
      | some p =>
        by_cases hp : p = id
        · subst hp
          simpa [hparent] using ih
        · simpa [hparent, hp] using ih
  rw [← hcount]
  exact List.nodup_iff_count_le_one.mp h.once id

/-- A family has at most one unused token. -/
theorem linear_unused (ledger : List Entry) (h : Linear ledger) (family : ℕ) :
    (ledger.filter fun e => e.family = family ∧ e.used = false).length ≤ 1 := by
  have hunused := chain_unused_length _ (h.chain family)
  rw [List.filter_filter] at hunused
  convert hunused using 3
  funext e
  cases e.used <;> simp

end Hyproxy.TokenFamilies
