import RuprogressMcp.RustText

/-!
# Percent encoding of text

A character of the encode set is written as the bytes of its UTF-8 encoding,
each as a percent sign and two hexadecimal digits.  Decoding reads the bytes
back, so a text is known from its encoding as soon as the percent sign itself
is in the set.
-/

namespace Percent

open RustText (hexValue)

def utf8 (text : List Char) : List UInt8 :=
  text.flatMap String.utf8EncodeChar

def hexDigit (n : ℕ) : Char := (Nat.digitChar n).toUpper

def encodeByte (b : UInt8) : List Char :=
  ['%', hexDigit (b.toNat / 16), hexDigit (b.toNat % 16)]

def encodeChar (encodes : Char → Bool) (c : Char) : List Char :=
  if encodes c then (String.utf8EncodeChar c).flatMap encodeByte else [c]

def encode (encodes : Char → Bool) (text : List Char) : List Char :=
  text.flatMap (encodeChar encodes)

/-- The bytes that a percent-encoded text stands for. -/
def decode : List Char → List UInt8
  | [] => []
  | '%' :: high :: low :: rest =>
      match hexValue high, hexValue low with
      | some h, some l => UInt8.ofNat (16 * h + l) :: decode rest
      | _, _ => 0x25 :: decode (high :: low :: rest)
  | c :: rest => String.utf8EncodeChar c ++ decode rest

theorem utf8_injective {first second : List Char}
    (heq : utf8 first = utf8 second) : first = second := by
  have hbytes : (String.ofList first).toByteArray =
      (String.ofList second).toByteArray := by
    rw [String.toByteArray_ofList, String.toByteArray_ofList]
    exact congrArg List.toByteArray heq
  exact String.ofList_injective (String.toByteArray_inj.mp hbytes)

theorem utf8_append (first second : List Char) :
    utf8 (first ++ second) = utf8 first ++ utf8 second :=
  List.flatMap_append

/-! ## Reading an encoded text back -/

theorem hexValue_hexDigit {n : ℕ} (hn : n < 16) :
    hexValue (hexDigit n) = some n := by
  interval_cases n <;> decide

theorem decode_cons_of_ne {c : Char} (hne : c ≠ '%') (rest : List Char) :
    decode (c :: rest) = String.utf8EncodeChar c ++ decode rest := by
  rw [decode.eq_def]
  split
  next heq => cases heq
  next heq => exact absurd (List.cons.inj heq).1 hne
  next heq =>
    obtain ⟨rfl, rfl⟩ := List.cons.inj heq
    rfl

theorem decode_encodeByte_append (b : UInt8) (rest : List Char) :
    decode (encodeByte b ++ rest) = b :: decode rest := by
  have hbyte : b.toNat < 256 := b.toNat_lt
  have hhigh := hexValue_hexDigit (show b.toNat / 16 < 16 by omega)
  have hlow := hexValue_hexDigit (show b.toNat % 16 < 16 by omega)
  simp only [encodeByte, List.cons_append, List.nil_append, decode, hhigh,
    hlow]
  rw [Nat.div_add_mod, UInt8.ofNat_toNat]

theorem decode_encodeBytes_append (bytes : List UInt8) (rest : List Char) :
    decode (bytes.flatMap encodeByte ++ rest) = bytes ++ decode rest := by
  induction bytes with
  | nil => rfl
  | cons b bytes ih =>
      rw [List.flatMap_cons, List.append_assoc, decode_encodeByte_append, ih]
      rfl

theorem decode_encode_append
    {encodes : Char → Bool} (hpercent : encodes '%' = true)
    (text rest : List Char) :
    decode (encode encodes text ++ rest) = utf8 text ++ decode rest := by
  induction text with
  | nil => rfl
  | cons c text ih =>
      rw [encode, utf8, List.flatMap_cons, List.flatMap_cons,
        List.append_assoc, List.append_assoc, ← encode, ← utf8, ← ih,
        encodeChar]
      split
      next => exact decode_encodeBytes_append _ _
      next hplain =>
        apply decode_cons_of_ne
        rintro rfl
        exact hplain hpercent

theorem decode_of_no_percent {text : List Char} (hnone : '%' ∉ text) :
    decode text = utf8 text := by
  induction text with
  | nil => rfl
  | cons c text ih =>
      have hne : c ≠ '%' := fun heq => hnone (heq ▸ List.mem_cons_self)
      rw [decode_cons_of_ne hne,
        ih fun hmem => hnone (List.mem_cons_of_mem _ hmem)]
      rfl

theorem encode_injective
    {encodes : Char → Bool} (hpercent : encodes '%' = true)
    {first second : List Char}
    (heq : encode encodes first = encode encodes second) :
    first = second := by
  have hfirst := decode_encode_append hpercent first []
  have hsecond := decode_encode_append hpercent second []
  rw [← heq, hfirst] at hsecond
  exact utf8_injective (List.append_cancel_right hsecond)

/-! ## The characters of an encoded text -/

/-- A character that an encoding can write for an encoded one. -/
def IsEscape (c : Char) : Prop := c = '%' ∨ ∃ n < 16, c = hexDigit n

instance (c : Char) : Decidable (IsEscape c) :=
  inferInstanceAs (Decidable (_ ∨ ∃ n < 16, c = hexDigit n))

theorem isEscape_of_mem_encodeByte {b : UInt8} {c : Char}
    (hmem : c ∈ encodeByte b) : IsEscape c := by
  have hbyte : b.toNat < 256 := b.toNat_lt
  simp only [encodeByte, List.mem_cons, List.not_mem_nil, or_false] at hmem
  rcases hmem with rfl | rfl | rfl
  · exact Or.inl rfl
  · exact Or.inr ⟨_, by omega, rfl⟩
  · exact Or.inr ⟨_, by omega, rfl⟩

theorem mem_encodeChar {encodes : Char → Bool} {c d : Char}
    (hmem : d ∈ encodeChar encodes c) :
    (d = c ∧ encodes c = false) ∨ (encodes c = true ∧ IsEscape d) := by
  unfold encodeChar at hmem
  split at hmem
  next hencodes =>
    obtain ⟨b, -, hb⟩ := List.mem_flatMap.mp hmem
    exact Or.inr ⟨hencodes, isEscape_of_mem_encodeByte hb⟩
  next hplain =>
    exact Or.inl ⟨List.mem_singleton.mp hmem, by simpa using hplain⟩

theorem mem_encode {encodes : Char → Bool} {text : List Char} {d : Char}
    (hmem : d ∈ encode encodes text) :
    (d ∈ text ∧ encodes d = false) ∨ IsEscape d := by
  obtain ⟨c, hc, hd⟩ := List.mem_flatMap.mp hmem
  rcases mem_encodeChar hd with ⟨rfl, hplain⟩ | ⟨-, hescape⟩
  · exact Or.inl ⟨hc, hplain⟩
  · exact Or.inr hescape

theorem encodeChar_of_plain {encodes : Char → Bool} {c : Char}
    (hplain : encodes c = false) : encodeChar encodes c = [c] := by
  rw [encodeChar, hplain]
  rfl

theorem encode_of_plain {encodes : Char → Bool} {text : List Char}
    (hplain : ∀ c ∈ text, encodes c = false) : encode encodes text = text := by
  induction text with
  | nil => rfl
  | cons c text ih =>
      rw [encode, List.flatMap_cons, ← encode,
        encodeChar_of_plain (hplain c List.mem_cons_self),
        ih fun d hd => hplain d (List.mem_cons_of_mem _ hd)]
      rfl

theorem utf8EncodeChar_ne_nil (c : Char) : String.utf8EncodeChar c ≠ [] := by
  unfold String.utf8EncodeChar
  simp only
  split_ifs <;> exact List.cons_ne_nil _ _

theorem encodeChar_ne_nil (encodes : Char → Bool) (c : Char) :
    encodeChar encodes c ≠ [] := by
  unfold encodeChar
  split
  next =>
    obtain ⟨b, bytes, hbytes⟩ :=
      List.exists_cons_of_ne_nil (utf8EncodeChar_ne_nil c)
    rw [hbytes, List.flatMap_cons]
    exact List.cons_ne_nil _ _
  next => exact List.cons_ne_nil _ _

/-- Encoding brings no two copies of a character together. -/
theorem encode_pair {encodes : Char → Bool} {text : List Char} {a : Char}
    (hescape : ¬ IsEscape a)
    (htext : text.IsChain fun x y => ¬ (x = a ∧ y = a)) :
    (encode encodes text).IsChain fun x y => ¬ (x = a ∧ y = a) := by
  have hblock : ∀ c, a ∈ encodeChar encodes c → c = a ∧ encodeChar encodes c = [a] := by
    intro c hmem
    rcases mem_encodeChar hmem with ⟨rfl, hplain⟩ | ⟨-, hbad⟩
    · exact ⟨rfl, encodeChar_of_plain hplain⟩
    · exact absurd hbad hescape
  have hnonempty : [] ∉ text.map (encodeChar encodes) := by
    intro hmem
    obtain ⟨c, -, hc⟩ := List.mem_map.mp hmem
    exact encodeChar_ne_nil encodes c hc
  rw [encode, List.flatMap_def, List.isChain_flatten hnonempty]
  constructor
  · intro block hmem
    obtain ⟨c, -, rfl⟩ := List.mem_map.mp hmem
    by_cases ha : a ∈ encodeChar encodes c
    · rw [(hblock c ha).2]
      exact List.isChain_singleton a
    · apply (List.isChain_isInfix _).imp
      rintro x y hpair ⟨rfl, -⟩
      exact ha (hpair.subset List.mem_cons_self)
  · rw [List.isChain_map]
    apply htext.imp
    rintro c d hne x hx y hy ⟨rfl, rfl⟩
    exact hne ⟨(hblock c (List.mem_of_mem_getLast? hx)).1,
      (hblock d (List.mem_of_mem_head? hy)).1⟩

end Percent
