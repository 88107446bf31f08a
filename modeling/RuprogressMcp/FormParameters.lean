import RuprogressMcp.PercentEncoding
import RuprogressMcp.RustText
import RuprogressMcp.UrlRecord

/-!
# Form parameters after the URL standard

A codec for `application/x-www-form-urlencoded` queries.  A written pair is
two encoded texts around an equals sign.  A reader finds pieces between
ampersands, a name and a value around the first equals sign, a plus sign for a
blank, and percent-encoded bytes.  So pairs that are appended to a URL are
read back behind the pairs that it had.
-/

namespace Form

/-- The characters that stand for themselves. -/
def isPlain (c : Char) : Bool :=
  c.isAlphanum || c = '*' || c = '-' || c = '.' || c = '_'

/-- One byte of a name or value. -/
def encodeByte (b : UInt8) : List Char :=
  if isPlain (Char.ofNat b.toNat) then [Char.ofNat b.toNat]
  else if Char.ofNat b.toNat = ' ' then ['+']
  else Percent.encodeByte b

def encode (s : String) : String :=
  String.ofList ((utf8Bytes s).flatMap encodeByte)

/-- The text of an appended pair. -/
def pairText (pair : String × String) : String :=
  encode pair.1 ++ "=" ++ encode pair.2

/-- Append form pairs to the query. -/
def appendPairs (url : Url) (pairs : List (String × String)) : Url :=
  let present := (url.query.filter fun query => query ≠ "").toList
  { url with
    query := some (String.intercalate "&" (present ++ pairs.map pairText)) }

def spaceOf (c : Char) : Char := if c = '+' then ' ' else c

/-- The bytes of one name or value. -/
def readText (text : List Char) : List UInt8 :=
  Percent.decode (text.map spaceOf)

/-- A piece without an equals sign is a name with the empty value. -/
def readPiece (piece : List Char) : FormPair :=
  match RustText.splitOnce ['='] piece with
  | some (name, value) => (readText name, readText value)
  | none => (readText piece, [])

/-- Empty pieces are skipped. -/
def readPairs (query : List Char) : List FormPair :=
  ((query.splitOn '&').filter fun piece => piece ≠ []).map readPiece

/-- The query of a URL as its reader sees it. -/
def queryPairs (url : Url) : List FormPair :=
  readPairs (url.query.getD "").toList

/-! ## The characters of an encoded byte -/

theorem ascii_of_isPlain {c : Char} (hplain : isPlain c = true) :
    c.toNat < 128 := by
  simp only [isPlain, Bool.or_eq_true, decide_eq_true_eq] at hplain
  rcases hplain with (((halnum | rfl) | rfl) | rfl) | rfl
  · have hgraphic := RustText.graphic_of_isAlphanum halnum
    omega
  all_goals decide

/-- The character whose code is a byte. -/
theorem toNat_charOfByte (b : UInt8) : (Char.ofNat b.toNat).toNat = b.toNat := by
  have hvalid : b.toNat.isValidChar :=
    Or.inl (lt_trans b.toNat_lt (by decide))
  rw [Char.ofNat, dif_pos hvalid]
  rfl

theorem utf8EncodeChar_of_ascii {b : UInt8} (hascii : b.toNat < 128) :
    String.utf8EncodeChar (Char.ofNat b.toNat) = [b] := by
  have hval : (Char.ofNat b.toNat).val.toNat = b.toNat := toNat_charOfByte b
  have hsize : (Char.ofNat b.toNat).utf8Size = 1 := by
    rw [Char.utf8Size_eq_one_iff, UInt32.le_iff_toNat_le, hval]
    exact Nat.le_of_lt_succ hascii
  rw [String.utf8EncodeChar_eq_singleton hsize]
  congr 1
  apply UInt8.toNat_inj.mp
  rw [UInt32.toNat_toUInt8, hval]
  exact Nat.mod_eq_of_lt b.toNat_lt

theorem readText_encodeByte_append (b : UInt8) (rest : List Char) :
    readText (encodeByte b ++ rest) = b :: readText rest := by
  rw [encodeByte]
  split
  next hplain =>
    have hascii : b.toNat < 128 := by
      rw [← toNat_charOfByte b]
      exact ascii_of_isPlain hplain
    have hspace : spaceOf (Char.ofNat b.toNat) = Char.ofNat b.toNat := by
      refine if_neg fun hplus => ?_
      rw [hplus] at hplain
      exact absurd hplain (by decide)
    have hpercent : Char.ofNat b.toNat ≠ '%' := by
      intro heq
      rw [heq] at hplain
      exact absurd hplain (by decide)
    rw [readText, List.singleton_append, List.map_cons, hspace,
      Percent.decode_cons_of_ne hpercent, utf8EncodeChar_of_ascii hascii]
    rfl
  next =>
    split
    next hblank =>
      have hbyte : b = 0x20 := by
        apply UInt8.toNat_inj.mp
        rw [← toNat_charOfByte b, hblank]
        rfl
      rw [hbyte, readText, List.singleton_append, List.map_cons]
      exact Percent.decode_cons_of_ne (by decide) _
    next =>
      have hmap : (Percent.encodeByte b).map spaceOf = Percent.encodeByte b := by
        have hhex : ∀ n < 16, spaceOf (Percent.hexDigit n) =
            Percent.hexDigit n := by decide
        have hbyte := b.toNat_lt
        simp only [Percent.encodeByte, List.map_cons, List.map_nil,
          hhex _ (show b.toNat / 16 < 16 by omega),
          hhex _ (show b.toNat % 16 < 16 by omega)]
        rfl
      rw [readText, List.map_append, hmap, Percent.decode_encodeByte_append]
      rfl

theorem readText_encode (s : String) :
    readText (encode s).toList = utf8Bytes s := by
  have hbytes (bytes : List UInt8) :
      readText (bytes.flatMap encodeByte) = bytes := by
    induction bytes with
    | nil => rfl
    | cons b bytes ih =>
        rw [List.flatMap_cons, readText_encodeByte_append, ih]
  rw [encode, String.toList_ofList, hbytes]

/-! ## Pairs -/

theorem separator_notMem_encodeByte {c : Char} (b : UInt8)
    (hplain : isPlain c = false) (hplus : c ≠ '+')
    (hescape : ¬ Percent.IsEscape c) : c ∉ encodeByte b := by
  rw [encodeByte]
  split
  next hown =>
    rintro hmem
    rw [List.mem_singleton.mp hmem, hown] at hplain
    cases hplain
  next =>
    split
    · simpa using hplus
    · exact fun hmem => hescape (Percent.isEscape_of_mem_encodeByte hmem)

theorem ampersand_notMem_encode (s : String) :
    '&' ∉ (encode s).toList := by
  rw [encode, String.toList_ofList, List.mem_flatMap]
  rintro ⟨b, -, hmem⟩
  exact separator_notMem_encodeByte b (by decide) (by decide) (by decide)
    hmem

theorem equals_notMem_encode (s : String) :
    '=' ∉ (encode s).toList := by
  rw [encode, String.toList_ofList, List.mem_flatMap]
  rintro ⟨b, -, hmem⟩
  exact separator_notMem_encodeByte b (by decide) (by decide) (by decide)
    hmem

theorem toList_pairText (pair : String × String) :
    (pairText pair).toList =
      (encode pair.1).toList ++ '=' :: (encode pair.2).toList := by
  rw [pairText, String.toList_append, String.toList_append, List.append_assoc]
  rfl

theorem ampersand_notMem_pairText (pair : String × String) :
    '&' ∉ (pairText pair).toList := by
  rw [toList_pairText, List.mem_append, List.mem_cons]
  rintro (hname | heq | hvalue)
  · exact ampersand_notMem_encode _ hname
  · exact absurd heq (by decide)
  · exact ampersand_notMem_encode _ hvalue

theorem readPiece_pairText (pair : String × String) :
    readPiece (pairText pair).toList = .of pair := by
  rw [toList_pairText, readPiece,
    RustText.splitOnce_char_append (equals_notMem_encode pair.1)]
  simp only [readText_encode]
  rfl

theorem readPairs_append (before after : List Char) :
    readPairs (before ++ '&' :: after) = readPairs before ++ readPairs after := by
  rw [readPairs, RustText.splitOn_append_cons, List.filter_append,
    List.map_append]
  rfl

theorem readPairs_pairText (pair : String × String) :
    readPairs (pairText pair).toList = [.of pair] := by
  have hnonempty : (pairText pair).toList ≠ [] := by
    rw [toList_pairText]
    simp
  rw [readPairs, RustText.splitOn_of_not_mem (ampersand_notMem_pairText pair),
    List.filter_singleton, decide_eq_true hnonempty, cond_true,
    List.map_singleton, readPiece_pairText]

/-- Joined texts are read one after the other. -/
theorem readPairs_intercalate (texts : List String) :
    readPairs (String.intercalate "&" texts).toList =
      texts.flatMap fun text => readPairs text.toList := by
  have hempty : readPairs [] = [] := rfl
  rw [String.toList_intercalate]
  induction texts with
  | nil => exact hempty
  | cons text rest ih =>
      cases rest with
      | nil => simp
      | cons next rest =>
          rw [List.map_cons, List.map_cons, List.intercalate_cons_cons,
            ← List.map_cons, List.append_assoc, List.flatMap_cons, ← ih]
          exact readPairs_append _ _

/-- Appended pairs are read back behind the pairs of the URL. -/
theorem queryPairs_appendPairs (url : Url) (pairs : List (String × String)) :
    queryPairs (appendPairs url pairs) = queryPairs url ++ pairs.map .of := by
  have hpresent : (((url.query.filter fun query => query ≠ "").toList).flatMap
      fun text => readPairs text.toList) = queryPairs url := by
    rw [queryPairs]
    cases url.query with
    | none => rfl
    | some query =>
        by_cases hquery : query = ""
        · subst hquery
          rfl
        · simp [Option.filter, hquery]
  have hencoded : ((pairs.map pairText).flatMap fun text =>
      readPairs text.toList) = pairs.map .of := by
    simp only [List.flatMap_map, readPairs_pairText]
    exact List.map_eq_flatMap.symm
  calc queryPairs (appendPairs url pairs)
      = (((url.query.filter fun query => query ≠ "").toList ++
          pairs.map pairText).flatMap fun text => readPairs text.toList) :=
        readPairs_intercalate _
    _ = queryPairs url ++ pairs.map .of := by
        rw [List.flatMap_append, hpresent, hencoded]

/-- The codec of the standard. -/
def codec : FormCodec where
  appendPairs := appendPairs
  queryPairs := queryPairs
  appendPairs_eq := fun _ _ => ⟨_, rfl⟩
  queryPairs_appendPairs := queryPairs_appendPairs
  queryPairs_of_none := by
    intro url hnone
    rw [queryPairs, hnone]
    rfl

end Form
