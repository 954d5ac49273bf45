import Mathlib.Data.Nat.Notation
import Mathlib.Logic.Equiv.Basic
import Mathlib.Tactic.Common
import Mathlib.Tactic.SplitIfs

/-!
A block cipher under chaining (CBC) with padding (PKCS7), over byte strings. What was padded and
chained is what comes out again under the same key and initialisation vector.
-/
namespace Hyproxy.BlockModes

abbrev Bytes := List UInt8

/-- A block cipher on blocks of 16 bytes. -/
structure BlockCipher (Key : Type) where
  encrypt : Key → Bytes → Bytes
  decrypt : Key → Bytes → Bytes
  length_encrypt : ∀ key block, block.length = 16 → (encrypt key block).length = 16
  decrypt_encrypt : ∀ key block, block.length = 16 → decrypt key (encrypt key block) = block

/-! ### Padding -/

/-- As many bytes as are missing, each of them with their number. -/
def pad (s : Bytes) : Bytes :=
  s ++ List.replicate (16 - s.length % 16) (UInt8.ofNat (16 - s.length % 16))

def unpad (s : Bytes) : Option Bytes :=
  match s.getLast? with
  | none => none
  | some last =>
    if s.length % 16 = 0 ∧ 0 < last.toNat ∧ last.toNat ≤ 16 ∧
        (s.drop (s.length - last.toNat)).all (· = last) then
      some (s.take (s.length - last.toNat))
    else none

theorem length_pad (s : Bytes) : (pad s).length % 16 = 0 ∧ s.length < (pad s).length := by
  rw [pad, List.length_append, List.length_replicate]
  omega

theorem unpad_pad (s : Bytes) : unpad (pad s) = some s := by
  have hcount : 0 < 16 - s.length % 16 ∧ 16 - s.length % 16 ≤ 16 := by omega
  obtain ⟨hmod, -⟩ := length_pad s
  rw [pad] at hmod ⊢
  generalize 16 - s.length % 16 = n at *
  have hbyte : (UInt8.ofNat n).toNat = n := by
    rw [UInt8.toNat_ofNat']
    omega
  have hlast : (s ++ List.replicate n (UInt8.ofNat n)).getLast? = some (UInt8.ofNat n) := by
    rw [List.getLast?_append, List.getLast?_replicate, if_neg (by omega)]
    rfl
  have hlength : (s ++ List.replicate n (UInt8.ofNat n)).length - n = s.length := by simp
  rw [unpad, hlast]
  simp only [hbyte, hlength, List.drop_left', List.take_left']
  rw [if_pos ⟨hmod, hcount.1, hcount.2, by simp⟩]

/-! ### Blocks -/

/-- The blocks of a byte string, for as many as are given. -/
def chunksUpTo : ℕ → Bytes → List Bytes
  | 0, _ => []
  | count + 1, s => if s = [] then [] else s.take 16 :: chunksUpTo count (s.drop 16)

def chunks (s : Bytes) : List Bytes := chunksUpTo s.length s

theorem chunksUpTo_flatten (blocks : List Bytes) (count : ℕ) (h : ∀ b ∈ blocks, b.length = 16)
    (hcount : blocks.length ≤ count) : chunksUpTo count blocks.flatten = blocks := by
  induction blocks generalizing count with
  | nil => cases count <;> rfl
  | cons b rest ih =>
    have hb := h b (List.mem_cons_self ..)
    cases count with
    | zero => cases hcount
    | succ count =>
      have hne : b ++ rest.flatten ≠ [] := by
        intro hempty
        rw [(List.append_eq_nil_iff.mp hempty).1] at hb
        cases hb
      rw [List.flatten_cons, chunksUpTo, if_neg hne, List.take_left' hb, List.drop_left' hb,
        ih count (fun b hb => h b (List.mem_cons_of_mem _ hb)) (Nat.le_of_succ_le_succ hcount)]

theorem length_flatten (blocks : List Bytes) (h : ∀ b ∈ blocks, b.length = 16) :
    blocks.flatten.length = 16 * blocks.length := by
  induction blocks with
  | nil => rfl
  | cons b rest ih =>
    have hb := h b (List.mem_cons_self ..)
    have hrest := ih fun b hb => h b (List.mem_cons_of_mem _ hb)
    rw [List.flatten_cons, List.length_append, List.length_cons]
    omega

/-- Whole blocks are found again in their concatenation. -/
theorem chunks_flatten (blocks : List Bytes) (h : ∀ b ∈ blocks, b.length = 16) :
    chunks blocks.flatten = blocks := by
  refine chunksUpTo_flatten blocks _ h ?_
  rw [length_flatten blocks h]
  omega

theorem chunksUpTo_spec (count : ℕ) (s : Bytes) (h : s.length ≤ 16 * count)
    (hmod : s.length % 16 = 0) :
    (chunksUpTo count s).flatten = s ∧ ∀ b ∈ chunksUpTo count s, b.length = 16 := by
  induction count generalizing s with
  | zero =>
    obtain rfl := List.length_eq_zero_iff.mp (Nat.le_zero.mp h)
    exact ⟨rfl, fun b hb => absurd hb List.not_mem_nil⟩
  | succ count ih =>
    rw [chunksUpTo]
    split_ifs with hempty
    · exact ⟨hempty.symm, fun b hb => absurd hb List.not_mem_nil⟩
    · have hpos := List.length_pos_iff.mpr hempty
      have hdrop : (s.drop 16).length = s.length - 16 := List.length_drop
      obtain ⟨hflatten, hblocks⟩ := ih (s.drop 16) (by omega) (by omega)
      refine ⟨by rw [List.flatten_cons, hflatten, List.take_append_drop], fun b hb => ?_⟩
      rcases List.mem_cons.mp hb with rfl | hb
      · rw [List.length_take]
        omega
      · exact hblocks b hb

theorem chunks_spec (s : Bytes) (hmod : s.length % 16 = 0) :
    (chunks s).flatten = s ∧ ∀ b ∈ chunks s, b.length = 16 :=
  chunksUpTo_spec s.length s (by omega) hmod

/-! ### Chaining -/

variable {Key : Type} (cipher : BlockCipher Key) (key : Key)

def xor (s t : Bytes) : Bytes := List.zipWith (· ^^^ ·) s t

theorem xor_xor (s t : Bytes) (h : s.length = t.length) : xor (xor s t) t = s := by
  induction s generalizing t with
  | nil => cases t <;> rfl
  | cons x s ih =>
    cases t with
    | nil => cases h
    | cons y t =>
      change (x ^^^ y ^^^ y) :: xor (xor s t) t = x :: s
      rw [ih t (Nat.succ.inj h), UInt8.xor_assoc, UInt8.xor_self, UInt8.xor_zero]

theorem length_xor (s t : Bytes) (h : s.length = t.length) : (xor s t).length = s.length := by
  rw [xor, List.length_zipWith, h, Nat.min_self]

def chain : Bytes → List Bytes → List Bytes
  | _, [] => []
  | last, b :: rest =>
    cipher.encrypt key (xor b last) :: chain (cipher.encrypt key (xor b last)) rest

def unchain : Bytes → List Bytes → List Bytes
  | _, [] => []
  | last, c :: rest => xor (cipher.decrypt key c) last :: unchain c rest

theorem chain_spec (last : Bytes) (blocks : List Bytes) (hlast : last.length = 16)
    (h : ∀ b ∈ blocks, b.length = 16) :
    (∀ c ∈ chain cipher key last blocks, c.length = 16) ∧
      unchain cipher key last (chain cipher key last blocks) = blocks := by
  induction blocks generalizing last with
  | nil => exact ⟨fun c hc => absurd hc List.not_mem_nil, rfl⟩
  | cons b rest ih =>
    have hb := h b (List.mem_cons_self ..)
    have hsame : b.length = last.length := hb.trans hlast.symm
    have hxor : (xor b last).length = 16 := (length_xor b last hsame).trans hb
    have hlength := cipher.length_encrypt key _ hxor
    obtain ⟨hrest, hback⟩ := ih _ hlength fun b hb => h b (List.mem_cons_of_mem _ hb)
    refine ⟨fun c hc => ?_, ?_⟩
    · rcases List.mem_cons.mp hc with rfl | hc
      · exact hlength
      · exact hrest c hc
    · rw [chain, unchain, hback, cipher.decrypt_encrypt key _ hxor, xor_xor b last hsame]

/-- Encryption with padding. -/
def encryptBlocks (iv s : Bytes) : Bytes := (chain cipher key iv (chunks (pad s))).flatten

/-- Decryption of whole blocks, without their padding. -/
def decryptBlocks (iv s : Bytes) : Option Bytes :=
  if iv.length = 16 ∧ s.length % 16 = 0 then unpad (unchain cipher key iv (chunks s)).flatten
  else none

theorem decryptBlocks_encryptBlocks (iv s : Bytes) (hiv : iv.length = 16) :
    decryptBlocks cipher key iv (encryptBlocks cipher key iv s) = some s := by
  obtain ⟨hflatten, hblocks⟩ := chunks_spec (pad s) (length_pad s).1
  obtain ⟨hchain, hback⟩ := chain_spec cipher key iv _ hiv hblocks
  have hmod : (encryptBlocks cipher key iv s).length % 16 = 0 := by
    rw [encryptBlocks, length_flatten _ hchain]
    omega
  rw [decryptBlocks, if_pos ⟨hiv, hmod⟩, encryptBlocks, chunks_flatten _ hchain, hback, hflatten,
    unpad_pad]

/-! ### Ciphers by a table -/

/-- The blocks that a chain encrypts, each with what it becomes. -/
def chained : Bytes → List Bytes → List Bytes → List (Bytes × Bytes)
  | last, b :: blocks, c :: rest => (xor b last, c) :: chained c blocks rest
  | _, _, _ => []

def tabled : List (Bytes × Bytes) → Equiv.Perm Bytes
  | [] => Equiv.refl Bytes
  | p :: table => (tabled table).trans (Equiv.swap p.1 p.2)

theorem length_tabled (table : List (Bytes × Bytes)) (h : ∀ p ∈ table, p.1.length = p.2.length)
    (block : Bytes) : (tabled table block).length = block.length := by
  induction table with
  | nil => rfl
  | cons p table ih =>
    have hp := h p (List.mem_cons_self ..)
    have hrest := ih fun q hq => h q (List.mem_cons_of_mem _ hq)
    rw [tabled, Equiv.trans_apply, Equiv.swap_apply_def]
    split_ifs with hfirst hsecond
    · rw [← hp, ← hfirst, hrest]
    · rw [hp, ← hsecond, hrest]
    · exact hrest

/-- What is known of a cipher under one key; the other keys leave the blocks as they are. -/
def tableCipher (known : Key) [DecidableEq Key] (table : List (Bytes × Bytes))
    (h : ∀ p ∈ table, p.1.length = p.2.length) : BlockCipher Key where
  encrypt key block := if key = known then tabled table block else block
  decrypt key block := if key = known then (tabled table).symm block else block
  length_encrypt key block hblock := by
    split_ifs
    · rw [length_tabled table h, hblock]
    · exact hblock
  decrypt_encrypt key block _ := by
    split_ifs
    · exact Equiv.symm_apply_apply _ block
    · rfl

end Hyproxy.BlockModes
