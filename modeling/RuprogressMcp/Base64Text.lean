import RuprogressMcp.RustText

/-!
# Base64 texts

The standard alphabet with padding.  Three bytes are written as four
characters; one or two bytes at the end are padded to four with `=`.  The
decoder accepts the texts that the encoder writes and no others: a text whose
padding is missing, or whose last character carries bits that are dropped, is
refused.
-/

namespace Base64

def symbols : List Char :=
  "ABCDEFGHIJKLMNOPQRSTUVWXYZabcdefghijklmnopqrstuvwxyz0123456789+/".toList

def symbol (n : ℕ) : Char := symbols.getD n '='

def value (c : Char) : Option ℕ := symbols.idxOf? c

def encode : List UInt8 → List Char
  | [] => []
  | [a] => [symbol (a.toNat / 4), symbol (a.toNat % 4 * 16), '=', '=']
  | [a, b] =>
      [symbol (a.toNat / 4), symbol (a.toNat % 4 * 16 + b.toNat / 16),
        symbol (b.toNat % 16 * 4), '=']
  | a :: b :: c :: rest =>
      symbol (a.toNat / 4) :: symbol (a.toNat % 4 * 16 + b.toNat / 16) ::
        symbol (b.toNat % 16 * 4 + c.toNat / 64) :: symbol (c.toNat % 64) ::
        encode rest

/-- The bytes of a last group whose fourth character is the padding. -/
def decodePadded (w x y : Char) : Option (List UInt8) := do
  let i ← value w
  let j ← value x
  if y = '=' then
    if j % 16 = 0 then some [UInt8.ofNat (i * 4 + j / 16)] else none
  else
    let k ← value y
    if k % 4 = 0 then
      some [UInt8.ofNat (i * 4 + j / 16), UInt8.ofNat (j % 16 * 16 + k / 4)]
    else none

def decode : List Char → Option (List UInt8)
  | [] => some []
  | w :: x :: y :: z :: rest =>
      if rest = [] ∧ z = '=' then decodePadded w x y
      else do
        let i ← value w
        let j ← value x
        let k ← value y
        let l ← value z
        let later ← decode rest
        some (UInt8.ofNat (i * 4 + j / 16) ::
          UInt8.ofNat (j % 16 * 16 + k / 4) :: UInt8.ofNat (k % 4 * 64 + l) ::
          later)
  | _ => none

/-! ## Symbols -/

theorem value_symbol {n : ℕ} (hn : n < 64) : value (symbol n) = some n := by
  revert hn n
  decide +kernel

theorem value_eq_some {c : Char} {n : ℕ} (hvalue : value c = some n) :
    n < 64 ∧ symbol n = c := by
  obtain ⟨hn, hget, -⟩ := List.idxOf?_eq_some_iff.mp hvalue
  refine ⟨hn, ?_⟩
  rw [symbol, List.getD_eq_getElem?_getD, List.getElem?_eq_getElem hn, hget]
  rfl

theorem value_pad : value '=' = none := by decide

theorem symbol_ne_pad {n : ℕ} (hn : n < 64) : symbol n ≠ '=' := by
  intro heq
  have hvalue := value_symbol hn
  rw [heq, value_pad] at hvalue
  cases hvalue

/-! ## Decoding what was encoded -/

theorem decodePadded_one (a : UInt8) :
    decodePadded (symbol (a.toNat / 4)) (symbol (a.toNat % 4 * 16)) '=' =
      some [a] := by
  have ha := a.toNat_lt
  rw [decodePadded, value_symbol (by omega), value_symbol (by omega)]
  have hbyte : a.toNat / 4 * 4 + a.toNat % 4 * 16 / 16 = a.toNat := by omega
  have hzero : a.toNat % 4 * 16 % 16 = 0 := by omega
  simp only [Option.bind_eq_bind, Option.bind_some, if_true, hzero, hbyte,
    UInt8.ofNat_toNat]

theorem decodePadded_two (a b : UInt8) :
    decodePadded (symbol (a.toNat / 4))
        (symbol (a.toNat % 4 * 16 + b.toNat / 16))
        (symbol (b.toNat % 16 * 4)) =
      some [a, b] := by
  have ha := a.toNat_lt
  have hb := b.toNat_lt
  have hpad : symbol (b.toNat % 16 * 4) ≠ '=' := symbol_ne_pad (by omega)
  rw [decodePadded, value_symbol (by omega), value_symbol (by omega),
    value_symbol (by omega)]
  have hfirst : a.toNat / 4 * 4 + (a.toNat % 4 * 16 + b.toNat / 16) / 16 =
      a.toNat := by omega
  have hsecond : (a.toNat % 4 * 16 + b.toNat / 16) % 16 * 16 +
      b.toNat % 16 * 4 / 4 = b.toNat := by omega
  have hzero : b.toNat % 16 * 4 % 4 = 0 := by omega
  simp only [Option.bind_eq_bind, Option.bind_some, if_neg hpad, hzero,
    if_true, hfirst, hsecond, UInt8.ofNat_toNat]

theorem decode_encode (bytes : List UInt8) :
    decode (encode bytes) = some bytes := by
  induction bytes using encode.induct with
  | case1 => rfl
  | case2 a =>
      rw [encode, decode, if_pos ⟨rfl, rfl⟩, decodePadded_one]
  | case3 a b =>
      rw [encode, decode, if_pos ⟨rfl, rfl⟩, decodePadded_two]
  | case4 a b c rest ih =>
      have ha := a.toNat_lt
      have hb := b.toNat_lt
      have hc := c.toNat_lt
      have hpad : symbol (c.toNat % 64) ≠ '=' := symbol_ne_pad (by omega)
      have hfirst : a.toNat / 4 * 4 + (a.toNat % 4 * 16 + b.toNat / 16) / 16 =
          a.toNat := by omega
      have hsecond : (a.toNat % 4 * 16 + b.toNat / 16) % 16 * 16 +
          (b.toNat % 16 * 4 + c.toNat / 64) / 4 = b.toNat := by omega
      have hthird : (b.toNat % 16 * 4 + c.toNat / 64) % 4 * 64 +
          c.toNat % 64 = c.toNat := by omega
      rw [encode, decode, if_neg (fun hboth => hpad hboth.2),
        value_symbol (by omega), value_symbol (by omega),
        value_symbol (by omega), value_symbol (by omega), ih]
      simp only [Option.bind_eq_bind, Option.bind_some, hfirst, hsecond, hthird,
        UInt8.ofNat_toNat]

/-! ## Only encoded texts are decoded -/

theorem toNat_ofNat_of_lt {n : ℕ} (hn : n < 256) : (UInt8.ofNat n).toNat = n :=
  UInt8.toNat_ofNat_of_lt hn

theorem encode_of_decodePadded
    {w x y : Char} {bytes : List UInt8}
    (hdecode : decodePadded w x y = some bytes) :
    encode bytes = [w, x, y, '='] := by
  simp only [decodePadded, Option.bind_eq_bind, Option.bind_eq_some_iff]
    at hdecode
  obtain ⟨i, hi, j, hj, hdecode⟩ := hdecode
  obtain ⟨hilt, rfl⟩ := value_eq_some hi
  obtain ⟨hjlt, rfl⟩ := value_eq_some hj
  have hfirst : (i * 4 + j / 16) / 4 = i := by omega
  split at hdecode
  · rename_i hy
    split at hdecode
    · rename_i hzero
      cases hdecode
      have hsecond : (i * 4 + j / 16) % 4 * 16 = j := by omega
      rw [encode, toNat_ofNat_of_lt (by omega), hfirst, hsecond, hy]
    · cases hdecode
  · obtain ⟨k, hk, hlast⟩ := Option.bind_eq_some_iff.mp hdecode
    obtain ⟨hklt, rfl⟩ := value_eq_some hk
    split at hlast
    · rename_i hzero
      cases hlast
      have hsecond :
          (i * 4 + j / 16) % 4 * 16 + (j % 16 * 16 + k / 4) / 16 = j := by omega
      have hthird : (j % 16 * 16 + k / 4) % 16 * 4 = k := by omega
      rw [encode, toNat_ofNat_of_lt (by omega), toNat_ofNat_of_lt (by omega),
        hfirst, hsecond, hthird]
    · cases hlast

theorem encode_of_decode
    {text : List Char} {bytes : List UInt8}
    (hdecode : decode text = some bytes) : encode bytes = text := by
  induction text using decode.induct generalizing bytes with
  | case1 =>
      cases hdecode
      rfl
  | case2 w x y z rest hlast =>
      rw [decode, if_pos hlast] at hdecode
      rw [encode_of_decodePadded hdecode, hlast.1, hlast.2]
  | case3 w x y z rest hmore ih =>
      rw [decode, if_neg hmore] at hdecode
      simp only [Option.bind_eq_bind, Option.bind_eq_some_iff] at hdecode
      obtain ⟨i, hi, j, hj, k, hk, l, hl, later, hlater, hdecode⟩ := hdecode
      obtain ⟨hilt, rfl⟩ := value_eq_some hi
      obtain ⟨hjlt, rfl⟩ := value_eq_some hj
      obtain ⟨hklt, rfl⟩ := value_eq_some hk
      obtain ⟨hllt, rfl⟩ := value_eq_some hl
      cases hdecode
      have hfirst : (i * 4 + j / 16) / 4 = i := by omega
      have hsecond :
          (i * 4 + j / 16) % 4 * 16 + (j % 16 * 16 + k / 4) / 16 = j := by omega
      have hthird :
          (j % 16 * 16 + k / 4) % 16 * 4 + (k % 4 * 64 + l) / 64 = k := by omega
      have hfourth : (k % 4 * 64 + l) % 64 = l := by omega
      rw [encode, toNat_ofNat_of_lt (by omega), toNat_ofNat_of_lt (by omega),
        toNat_ofNat_of_lt (by omega), hfirst, hsecond, hthird, hfourth,
        ih hlater]
  | case4 text hempty hlong =>
      exfalso
      match text, hempty, hlong, hdecode with
      | [], hempty, _, _ => exact hempty rfl
      | w :: x :: y :: z :: rest, _, hlong, _ => exact hlong w x y z rest rfl
      | [_], _, _, hdecode | [_, _], _, _, hdecode | [_, _, _], _, _, hdecode =>
          cases hdecode

/-- A text is decoded exactly when it is the encoding of the result. -/
theorem decode_eq_some_iff {text : List Char} {bytes : List UInt8} :
    decode text = some bytes ↔ text = encode bytes := by
  constructor
  · intro hdecode
    exact (encode_of_decode hdecode).symm
  · rintro rfl
    exact decode_encode bytes

/-! ## Lengths -/

theorem length_encode (bytes : List UInt8) :
    (encode bytes).length = 4 * ((bytes.length + 2) / 3) := by
  induction bytes using encode.induct with
  | case1 | case2 | case3 => simp [encode]
  | case4 a b c rest ih =>
      simp only [encode, List.length_cons, ih]
      omega

/-- The bytes that a decoder sets aside for a text of so many characters. -/
def decodedLenEstimate (length : ℕ) : ℕ := 3 * ((length + 3) / 4)

/-- The estimate exceeds the decoded length by the padding, at most two. -/
theorem estimate_encode (bytes : List UInt8) :
    bytes.length ≤ decodedLenEstimate (encode bytes).length ∧
      decodedLenEstimate (encode bytes).length ≤ bytes.length + 2 := by
  rw [decodedLenEstimate, length_encode]
  omega

theorem utf8Size_symbol (n : ℕ) : (symbol n).utf8Size = 1 := by
  have hall : ((symbols ++ ['=']).all fun c => decide (c.utf8Size = 1)) =
      true := by decide
  have hmem : symbol n ∈ symbols ++ ['='] := by
    rw [symbol, List.getD_eq_getElem?_getD]
    cases hget : symbols[n]? with
    | none => exact List.mem_append_right _ List.mem_cons_self
    | some c => exact List.mem_append_left _ (List.mem_of_getElem? hget)
  exact of_decide_eq_true (List.all_eq_true.mp hall _ hmem)

theorem utf8Size_of_mem_encode {bytes : List UInt8} {c : Char}
    (hmem : c ∈ encode bytes) : c.utf8Size = 1 := by
  have hpad : '='.utf8Size = 1 := by decide
  induction bytes using encode.induct with
  | case1 => cases hmem
  | case2 a | case3 a b =>
      simp only [encode, List.mem_cons, List.not_mem_nil, or_false] at hmem
      rcases hmem with rfl | rfl | rfl | rfl <;>
        first
        | exact utf8Size_symbol _
        | exact hpad
  | case4 a b c rest ih =>
      simp only [encode, List.mem_cons] at hmem
      rcases hmem with rfl | rfl | rfl | rfl | hrest
      · exact utf8Size_symbol _
      · exact utf8Size_symbol _
      · exact utf8Size_symbol _
      · exact utf8Size_symbol _
      · exact ih hrest

/-- An encoding has as many bytes as characters. -/
theorem byteLen_encode (bytes : List UInt8) :
    RustText.byteLen (encode bytes) = (encode bytes).length :=
  RustText.byteLen_eq_length fun _ hmem => utf8Size_of_mem_encode hmem

end Base64
