import Hyproxy.BlockModes
import Hyproxy.JsonValues
import Hyproxy.PublicHosts
import Hyproxy.RtspGrants
import Hyproxy.Utf8Texts

/-!
The tokens that the brokers hand to a bridge through the browser (`core/sealedtoken.py`): a
payload as JSON, padded, encrypted in chained blocks, and with its initialisation vector in an
envelope that is JSON and base64 again. What was minted is what the holder of the key reads.
-/
namespace Hyproxy.SealedTokens

open AuthzCheck (utf8)
open BlockModes (BlockCipher decryptBlocks decryptBlocks_encryptBlocks encryptBlocks)
open JsonTexts (encode escape)
open JsonValues
open PercentCoding (IsByte)
open RtspGrants (b64Char b64encode)
open Utf8 (Ascii)

abbrev Text := List Char

abbrev Bytes := List UInt8

/-- Bytes as characters below 256. -/
def chars (s : Bytes) : Text := s.map fun byte => Char.ofNat byte.toNat

/-! ### Base64 -/

def alphabet : Text := "ABCDEFGHIJKLMNOPQRSTUVWXYZabcdefghijklmnopqrstuvwxyz0123456789+/".toList

def b64Value (c : Char) : Option ℕ := alphabet.findIdx? (· == c)

/-- The loop of `a2b_base64`: the place in a group of four, what is left of the last character,
and the padding seen behind it. What is not in the alphabet is passed over. -/
def scan : ℕ → ℕ → ℕ → Text → Option Bytes
  | pos, _, _, [] => if pos = 0 then some [] else none
  | pos, left, pads, c :: rest =>
    if c = '=' then
      if pos < 2 then scan pos left pads rest
      else if 4 ≤ pos + (pads + 1) then some []
      else scan pos left (pads + 1) rest
    else
      match b64Value c with
      | none => scan pos left pads rest
      | some v =>
        match pos with
        | 0 => scan 1 v 0 rest
        | 1 => (scan 2 (v % 16) 0 rest).map (UInt8.ofNat (left * 4 + v / 16) :: ·)
        | 2 => (scan 3 (v % 4) 0 rest).map (UInt8.ofNat (left * 16 + v / 4) :: ·)
        | _ => (scan 0 0 0 rest).map (UInt8.ofNat (left * 64 + v) :: ·)

/-- `b64decode` of a string -/
def b64decode (s : Text) : Option Bytes := if Ascii s then scan 0 0 0 s else none

example : b64decode "SG k=!".toList = some (encode "Hi".toList) := by decide

example : b64decode "SGk".toList = none := by decide

theorem b64Char_value (n : ℕ) (hn : n < 64) : b64Value (b64Char n) = some n ∧ b64Char n ≠ '=' :=
  have hall : ∀ n < 64, b64Value (b64Char n) = some n ∧ b64Char n ≠ '=' := by decide +kernel
  hall n hn

theorem b64Char_plain (n : ℕ) : escape (b64Char n) = [b64Char n] := by
  by_cases hn : n < 64
  · have hall : ∀ n < 64, escape (b64Char n) = [b64Char n] := by decide +kernel
    exact hall n hn
  · have hdefault : b64Char n = '=' := by
      rw [b64Char, List.getD_eq_getElem?_getD, List.getElem?_eq_none (by simpa using hn)]
      rfl
    rw [hdefault]
    decide

theorem b64encode_plain (s : Text) : (b64encode s).flatMap escape = b64encode s := by
  have hpad : escape '=' = ['='] := by decide
  fun_induction b64encode s with
  | case1 a b c rest ih => simp only [List.flatMap_cons, b64Char_plain, ih, List.cons_append,
      List.nil_append]
  | case2 a b => simp only [List.flatMap_cons, b64Char_plain, hpad, List.cons_append,
      List.nil_append, List.flatMap_nil]
  | case3 a => simp only [List.flatMap_cons, b64Char_plain, hpad, List.cons_append,
      List.nil_append, List.flatMap_nil]
  | case4 => rfl

theorem scan_char (pos left pads n : ℕ) (rest : Text) (hn : n < 64) :
    scan pos left pads (b64Char n :: rest) =
      match pos with
      | 0 => scan 1 n 0 rest
      | 1 => (scan 2 (n % 16) 0 rest).map (UInt8.ofNat (left * 4 + n / 16) :: ·)
      | 2 => (scan 3 (n % 4) 0 rest).map (UInt8.ofNat (left * 16 + n / 4) :: ·)
      | _ => (scan 0 0 0 rest).map (UInt8.ofNat (left * 64 + n) :: ·) := by
  obtain ⟨hvalue, hpad⟩ := b64Char_value n hn
  rw [scan, if_neg hpad, hvalue]

theorem scan_b64encode (s : Text) (h : ∀ c ∈ s, IsByte c) :
    scan 0 0 0 (b64encode s) = some (encode s) := by
  fun_induction b64encode s with
  | case1 a b c rest ih =>
    have ha : a.toNat < 256 := h a (by simp)
    have hb : b.toNat < 256 := h b (by simp)
    have hc : c.toNat < 256 := h c (by simp)
    have hrest := ih fun d hd => h d (by simp [hd])
    have hfirst : a.toNat / 4 * 4 + (a.toNat % 4 * 16 + b.toNat / 16) / 16 = a.toNat := by omega
    have hsecond : (a.toNat % 4 * 16 + b.toNat / 16) % 16 * 16 +
        (b.toNat % 16 * 4 + c.toNat / 64) / 4 = b.toNat := by omega
    have hthird : (b.toNat % 16 * 4 + c.toNat / 64) % 4 * 64 + c.toNat % 64 = c.toNat := by omega
    have hone : a.toNat / 4 < 64 := by omega
    have htwo : a.toNat % 4 * 16 + b.toNat / 16 < 64 := by omega
    have hthree : b.toNat % 16 * 4 + c.toNat / 64 < 64 := by omega
    have hfour : c.toNat % 64 < 64 := by omega
    simp only [scan_char _ _ _ _ _ hone, scan_char _ _ _ _ _ htwo, scan_char _ _ _ _ _ hthree,
      scan_char _ _ _ _ _ hfour, hrest, hfirst, hsecond, hthird]
    rfl
  | case2 a b =>
    have ha : a.toNat < 256 := h a (by simp)
    have hb : b.toNat < 256 := h b (by simp)
    have hfirst : a.toNat / 4 * 4 + (a.toNat % 4 * 16 + b.toNat / 16) / 16 = a.toNat := by omega
    have hsecond : (a.toNat % 4 * 16 + b.toNat / 16) % 16 * 16 + b.toNat % 16 * 4 / 4 =
        b.toNat := by omega
    have hone : a.toNat / 4 < 64 := by omega
    have htwo : a.toNat % 4 * 16 + b.toNat / 16 < 64 := by omega
    have hthree : b.toNat % 16 * 4 < 64 := by omega
    simp only [scan_char _ _ _ _ _ hone, scan_char _ _ _ _ _ htwo, scan_char _ _ _ _ _ hthree,
      hfirst, hsecond]
    rfl
  | case3 a =>
    have ha : a.toNat < 256 := h a (by simp)
    have hfirst : a.toNat / 4 * 4 + a.toNat % 4 * 16 / 16 = a.toNat := by omega
    have hone : a.toNat / 4 < 64 := by omega
    have htwo : a.toNat % 4 * 16 < 64 := by omega
    simp only [scan_char _ _ _ _ _ hone, scan_char _ _ _ _ _ htwo, hfirst]
    rfl
  | case4 => rfl

theorem encode_chars (s : Bytes) : encode (chars s) = s := by
  rw [encode, chars, List.map_map]
  refine (List.map_congr_left fun byte _ => ?_).trans (List.map_id s)
  have hbyte : (Char.ofNat byte.toNat).toNat = byte.toNat :=
    Utf8Texts.byte_toNat _ (UInt8.toNat_lt byte)
  rw [Function.comp_apply, hbyte, UInt8.ofNat_toNat, id]

theorem isByte_chars (s : Bytes) : ∀ c ∈ chars s, IsByte c := by
  intro c hc
  obtain ⟨byte, -, rfl⟩ := List.mem_map.mp hc
  rw [IsByte, Utf8Texts.byte_toNat _ (UInt8.toNat_lt byte)]
  exact UInt8.toNat_lt byte

/-- Bytes come back from their base64. -/
theorem b64decode_b64encode (s : Bytes) : b64decode (b64encode (chars s)) = some s := by
  rw [b64decode, if_pos (RtspGrants.b64encode_ascii _), scan_b64encode _ (isByte_chars s),
    encode_chars]

/-! ### The envelope -/

/-- `json.loads` of bytes in UTF-8 -/
def loads (s : Bytes) : Option Json :=
  if utf8 (Utf8.decode false (chars s)) = chars s then read (Utf8.decode false (chars s)) else none

/-- The text at a key of an object. -/
def textAt (v : Json) (key : String) : Option Text :=
  match v with
  | .obj fields =>
    match fields.lookup key.toList with
    | some (.str s) => some s
    | _ => none
  | _ => none

variable (cipher : BlockCipher Bytes)

/-- `load_cypher_key` -/
def loadCypherKey (b64Key : Text) : Option Bytes :=
  match b64decode b64Key with
  | none => none
  | some key => if key.length = 32 then some key else none

def mintToken (key iv : Bytes) (payload : Json) : Option Text :=
  if key.length = 32 then
    some (RtspGrants.mintToken (chars iv) (chars (encryptBlocks cipher key iv
      (encode (write payload)))))
  else none

def decryptToken (key : Bytes) (token : Text) : Option Json := do
  let envelope ← loads (← b64decode token)
  let iv ← b64decode (← textAt envelope "iv")
  let ct ← b64decode (← textAt envelope "value")
  if key.length = 16 ∨ key.length = 24 ∨ key.length = 32 then
    loads (← decryptBlocks cipher key iv ct)
  else none

theorem loads_printable (s : Text) (h : Printable s) : loads (encode s) = read s := by
  have hascii : Ascii s := fun c hc => Nat.lt_of_le_of_lt (show c.toNat ≤ 126 from (h c hc).2)
    (by decide)
  have hchars : chars (encode s) = s := by
    rw [chars, encode, List.map_map]
    refine (List.map_congr_left fun c hc => ?_).trans (List.map_id s)
    have hc := hascii c hc
    rw [Function.comp_apply, UInt8.toNat_ofNat', Nat.mod_eq_of_lt (by omega), Char.ofNat_toNat, id]
  rw [loads, hchars, Utf8.decode_ascii false s hascii, PublicHosts.ascii_utf8 s hascii, if_pos rfl]

theorem loads_write (v : Json) (h : distinct v = true) : loads (encode (write v)) = some v := by
  rw [loads_printable _ (write_printable v), read_write v h]

def envelope (iv ct : Bytes) : Json :=
  .obj [("iv".toList, .str (b64encode (chars iv))), ("value".toList, .str (b64encode (chars ct)))]

theorem mintToken_envelope (iv ct : Bytes) :
    RtspGrants.mintToken (chars iv) (chars ct) = b64encode (write (envelope iv ct)) := by
  simp only [RtspGrants.mintToken, envelope, write, writeFields, writeMoreFields, JsonTexts.quote,
    b64encode_plain, List.append_assoc, List.cons_append, List.nil_append]
  rfl

theorem b64decode_write (v : Json) : b64decode (b64encode (write v)) = some (encode (write v)) := by
  have hbyte : ∀ c ∈ write v, IsByte c := fun c hc =>
    Nat.lt_of_le_of_lt (show c.toNat ≤ 126 from (write_printable v c hc).2) (by decide)
  rw [b64decode, if_pos (RtspGrants.b64encode_ascii _), scan_b64encode _ hbyte]

/-- The bridge reads the payload that the broker has put into a token, whatever its texts. -/
theorem decryptToken_mintToken (key iv : Bytes) (payload : Json) (token : Text)
    (hiv : iv.length = 16) (hpayload : distinct payload = true)
    (hmint : mintToken cipher key iv payload = some token) :
    decryptToken cipher key token = some payload := by
  unfold mintToken at hmint
  split_ifs at hmint with hkey
  obtain rfl := Option.some.inj hmint
  rw [mintToken_envelope, decryptToken, b64decode_write]
  simp only [Option.bind_eq_bind, Option.bind_some, loads_write (envelope iv _) rfl]
  have hread : ∀ ct, textAt (envelope iv ct) "iv" = some (b64encode (chars iv)) ∧
      textAt (envelope iv ct) "value" = some (b64encode (chars ct)) := fun ct => ⟨rfl, rfl⟩
  rw [(hread _).1, (hread _).2]
  simp only [Option.bind_some, b64decode_b64encode]
  rw [if_pos (Or.inr (Or.inr hkey)), decryptBlocks_encryptBlocks cipher key iv _ hiv,
    Option.bind_some, loads_write payload hpayload]

end Hyproxy.SealedTokens
