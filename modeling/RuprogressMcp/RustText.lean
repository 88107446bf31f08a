import Mathlib.Data.List.TakeWhile
import Mathlib.Tactic

/-!
# Text operations of the Rust standard library

Character classes, trimming and the parsing of unsigned integers, on lists of
characters, and the early return of the question mark operator.
-/

namespace RustText

theorem question_mark_ok {ε α β : Type} {first : Except ε α} {rest : α → Except ε β}
    {result : β} (hok : first >>= rest = .ok result) :
    ∃ value, first = .ok value ∧ rest value = .ok result := by
  cases first with
  | error e => cases hok
  | ok value => exact ⟨value, rfl, hok⟩

def isControl (c : Char) : Bool :=
  c.val ≤ 0x1f || (0x7f ≤ c.val && c.val ≤ 0x9f)

/-- The characters with the Unicode property `White_Space`. -/
def isWhitespace (c : Char) : Bool :=
  (0x9 ≤ c.val && c.val ≤ 0xd) || c.val == 0x20 || c.val == 0x85 ||
    c.val == 0xa0 || c.val == 0x1680 || (0x2000 ≤ c.val && c.val ≤ 0x200a) ||
    c.val == 0x2028 || c.val == 0x2029 || c.val == 0x202f || c.val == 0x205f ||
    c.val == 0x3000

theorem isWhitespace_of_graphic {c : Char} (hlow : 32 < c.toNat) (hhigh : c.toNat < 127) :
    isWhitespace c = false := by
  have hval : c.toNat = c.val.toNat := rfl
  rw [hval] at hlow hhigh
  have hne : ∀ n : UInt32, n.toNat ≤ 32 ∨ 127 ≤ n.toNat → (c.val == n) = false := by
    intro n hn
    rw [beq_eq_false_iff_ne]
    rintro rfl
    omega
  have hle : ∀ n : UInt32, 127 ≤ n.toNat → decide (n ≤ c.val) = false := by
    intro n hn
    rw [decide_eq_false_iff_not, UInt32.le_iff_toNat_le]
    omega
  have htab : decide (c.val ≤ 0xd) = false := by
    have hreturn : (0xd : UInt32).toNat = 13 := rfl
    rw [decide_eq_false_iff_not, UInt32.le_iff_toNat_le]
    omega
  simp only [isWhitespace, htab, hne 0x20 (by decide), hne 0x85 (by decide),
    hne 0xa0 (by decide), hne 0x1680 (by decide), hle 0x2000 (by decide),
    hne 0x2028 (by decide), hne 0x2029 (by decide), hne 0x202f (by decide),
    hne 0x205f (by decide), hne 0x3000 (by decide), Bool.and_false, Bool.false_and,
    Bool.or_false]

theorem graphic_of_isAlphanum {c : Char} (halnum : c.isAlphanum = true) :
    32 < c.toNat ∧ c.toNat < 127 := by
  have hval : c.toNat = c.val.toNat := rfl
  change ((decide (c.val ≥ 65 ∧ c.val ≤ 90) ||
    decide (c.val ≥ 97) && decide (c.val ≤ 122)) || c.isDigit) = true at halnum
  simp only [Char.isDigit, Bool.or_eq_true, Bool.and_eq_true, decide_eq_true_eq,
    ge_iff_le, UInt32.le_iff_toNat_le] at halnum
  rw [hval]
  revert halnum
  simp
  omega

/-- Drop what the predicate accepts from both ends. -/
def trimMatches (start finish : Char → Bool) (text : List Char) : List Char :=
  ((text.dropWhile start).reverse.dropWhile finish).reverse

def trim (text : List Char) : List Char := trimMatches isWhitespace isWhitespace text

theorem dropWhile_of_none {p : Char → Bool} {text : List Char}
    (hnone : ∀ c ∈ text, p c = false) : text.dropWhile p = text := by
  cases text with
  | nil => rfl
  | cons c rest =>
      rw [List.dropWhile_cons_of_neg]
      simp [hnone c List.mem_cons_self]

theorem trimMatches_of_none {start finish : Char → Bool} {text : List Char}
    (hstart : ∀ c ∈ text, start c = false) (hfinish : ∀ c ∈ text, finish c = false) :
    trimMatches start finish text = text := by
  unfold trimMatches
  rw [dropWhile_of_none hstart, dropWhile_of_none, List.reverse_reverse]
  intro c hc
  exact hfinish c (List.mem_reverse.mp hc)

/-- The inner text is left when the white space around it is dropped. -/
def Trims (text inner : List Char) : Prop :=
  ∃ before after, text = before ++ inner ++ after ∧
    (∀ c ∈ before, isWhitespace c = true) ∧
    (∀ c ∈ after, isWhitespace c = true) ∧
    (∀ c, inner.head? = some c → isWhitespace c = false) ∧
    ∀ c, inner.getLast? = some c → isWhitespace c = false

theorem dropWhile_of_head {p : Char → Bool} {text : List Char}
    (hhead : ∀ c, text.head? = some c → p c = false) : text.dropWhile p = text := by
  cases text with
  | nil => rfl
  | cons c rest =>
      rw [List.dropWhile_cons_of_neg]
      simp [hhead c rfl]

theorem head?_dropWhile {p : Char → Bool} {text : List Char} {c : Char}
    (hhead : (text.dropWhile p).head? = some c) : p c = false := by
  induction text with
  | nil => cases hhead
  | cons d rest ih =>
      rw [List.dropWhile_cons] at hhead
      split at hhead
      · exact ih hhead
      · rename_i hstop
        rw [List.head?_cons, Option.some.injEq] at hhead
        simpa [hhead] using hstop

theorem trims_trim (text : List Char) : Trims text (trim text) := by
  have hfront := List.takeWhile_append_dropWhile (p := isWhitespace) (l := text)
  have hback := List.takeWhile_append_dropWhile (p := isWhitespace)
    (l := (text.dropWhile isWhitespace).reverse)
  have hrest : text.dropWhile isWhitespace =
      trim text ++ ((text.dropWhile isWhitespace).reverse.takeWhile
        isWhitespace).reverse := by
    rw [trim, trimMatches, ← List.reverse_append, hback, List.reverse_reverse]
  refine ⟨text.takeWhile isWhitespace, ((text.dropWhile isWhitespace).reverse.takeWhile
      isWhitespace).reverse, ?_, ?_, ?_, ?_, ?_⟩
  · rw [List.append_assoc, ← hrest, hfront]
  · exact fun c hc => List.mem_takeWhile_imp hc
  · exact fun c hc => List.mem_takeWhile_imp (List.mem_reverse.mp hc)
  · intro c hhead
    apply @head?_dropWhile isWhitespace text
    rw [hrest, List.head?_append, hhead, Option.some_or]
  · intro c hlast
    rw [trim, trimMatches, List.getLast?_reverse] at hlast
    exact head?_dropWhile hlast

theorem Trims.eq_trim {text inner : List Char} (htrims : Trims text inner) :
    inner = trim text := by
  obtain ⟨before, after, rfl, hbefore, hafter, hhead, hlast⟩ := htrims
  have hfront : (before ++ inner ++ after).dropWhile isWhitespace =
      (inner ++ after).dropWhile isWhitespace := by
    rw [List.append_assoc, List.dropWhile_append_of_pos hbefore]
  have hback : (after.reverse ++ inner.reverse).dropWhile isWhitespace =
      inner.reverse := by
    rw [List.dropWhile_append_of_pos
      (fun c hc => hafter c (List.mem_reverse.mp hc))]
    apply dropWhile_of_head
    intro c hc
    exact hlast c (by rwa [List.head?_reverse] at hc)
  rw [trim, trimMatches, hfront]
  cases inner with
  | nil =>
      rw [List.nil_append, List.dropWhile_eq_nil_iff.mpr hafter]
      rfl
  | cons c rest =>
      rw [@dropWhile_of_head isWhitespace (c :: rest ++ after)
        (fun d hd => hhead d hd), List.reverse_append, hback,
        List.reverse_reverse]

/-- The value of a hexadecimal digit. -/
def hexValue (c : Char) : Option ℕ :=
  if c.isDigit then some (c.toNat - '0'.toNat)
  else if 'a' ≤ c ∧ c ≤ 'f' then some (c.toNat - 'a'.toNat + 10)
  else if 'A' ≤ c ∧ c ≤ 'F' then some (c.toNat - 'A'.toNat + 10)
  else none

def stripPlus : List Char → List Char
  | '+' :: rest => rest
  | text => text

/-- Parse a decimal number below a bound, with an optional plus sign. -/
def parseUnsigned (bound : ℕ) (text : List Char) : Option ℕ :=
  let digits := stripPlus text
  if digits.isEmpty || !digits.all Char.isDigit then none
  else if Nat.ofDigitChars 10 digits 0 < bound then
    some (Nat.ofDigitChars 10 digits 0)
  else none

theorem parseUnsigned_lt {bound value : ℕ} {text : List Char}
    (hparse : parseUnsigned bound text = some value) : value < bound := by
  unfold parseUnsigned at hparse
  simp only [Option.ite_none_left_eq_some, Option.ite_none_right_eq_some,
    Option.some.injEq] at hparse
  obtain ⟨-, hlt, rfl⟩ := hparse
  exact hlt

theorem toLower_of_isDigit {c : Char} (hdigit : c.isDigit = true) : c.toLower = c := by
  unfold Char.toLower
  rw [dif_neg]
  rintro ⟨hupper, -⟩
  simp only [Char.isDigit, Bool.and_eq_true, decide_eq_true_eq, ge_iff_le,
    UInt32.le_iff_toNat_le] at hdigit hupper
  revert hdigit hupper
  simp
  omega

theorem isDigit_of_mem_toString {n : ℕ} {c : Char} (hc : c ∈ (toString n).toList) :
    c.isDigit = true := by
  rw [Nat.toString_eq_repr, Nat.toList_repr] at hc
  exact Nat.isDigit_of_mem_toDigits (by decide) (by decide) hc

theorem toString_injective {m n : ℕ}
    (heq : (toString m).toList = (toString n).toList) : m = n := by
  rw [Nat.toString_eq_repr, Nat.toString_eq_repr, Nat.toList_repr, Nat.toList_repr] at heq
  have hm := Nat.ofDigitChars_ten_toDigits (n := m)
  rw [heq, Nat.ofDigitChars_ten_toDigits] at hm
  exact hm.symm

theorem stripPlus_of_digits {text : List Char}
    (hdigits : ∀ c ∈ text, c.isDigit = true) : stripPlus text = text := by
  unfold stripPlus
  split
  · have hplus := hdigits '+' List.mem_cons_self
    exact absurd hplus (by decide)
  · rfl

theorem parseUnsigned_toString (bound n : ℕ) :
    parseUnsigned bound (toString n).toList = if n < bound then some n else none := by
  have hdigits : ∀ c ∈ (toString n).toList, c.isDigit = true :=
    fun _ hc => isDigit_of_mem_toString hc
  have hvalue : Nat.ofDigitChars 10 (toString n).toList 0 = n := by
    rw [Nat.toString_eq_repr, Nat.toList_repr, Nat.ofDigitChars_ten_toDigits]
  have hnonempty : (toString n).toList ≠ [] := by
    rw [Nat.toString_eq_repr, Nat.toList_repr]
    exact Nat.toDigits_ne_nil
  have hall : (toString n).toList.all Char.isDigit = true := List.all_eq_true.mpr hdigits
  unfold parseUnsigned
  simp only [stripPlus_of_digits hdigits, hvalue, hall, Bool.not_true, Bool.or_false,
    List.isEmpty_iff, hnonempty, if_false]

theorem mem_of_parseUnsigned {bound value : ℕ} {text : List Char}
    (hparse : parseUnsigned bound text = some value) {c : Char} (hc : c ∈ text) :
    c.isDigit = true ∨ c = '+' := by
  unfold parseUnsigned at hparse
  simp only [Option.ite_none_left_eq_some, Bool.or_eq_true, Bool.not_eq_true',
    not_or, Bool.not_eq_false, List.all_eq_true] at hparse
  obtain ⟨⟨-, hall⟩, -⟩ := hparse
  unfold stripPlus at hall
  split at hall
  · rcases List.mem_cons.mp hc with rfl | hrest
    · exact Or.inr rfl
    · exact Or.inl (hall c hrest)
  · exact Or.inl (hall c hc)

theorem append_separator_inj {separator : Char} {first second rest rest' : List Char}
    (hfirst : separator ∉ first) (hsecond : separator ∉ second)
    (heq : first ++ separator :: rest = second ++ separator :: rest') :
    first = second ∧ rest = rest' := by
  induction first generalizing second with
  | nil =>
      cases second with
      | nil => exact ⟨rfl, (List.cons.inj heq).2⟩
      | cons c cs =>
          have hhead := (List.cons.inj heq).1
          rw [hhead] at hsecond
          exact absurd List.mem_cons_self hsecond
  | cons c cs ih =>
      cases second with
      | nil =>
          have hhead := (List.cons.inj heq).1
          rw [← hhead] at hfirst
          exact absurd List.mem_cons_self hfirst
      | cons d ds =>
          obtain ⟨rfl, htail⟩ := List.cons.inj heq
          obtain ⟨rfl, hrest⟩ := ih (fun hmem => hfirst (List.mem_cons_of_mem _ hmem))
            (fun hmem => hsecond (List.mem_cons_of_mem _ hmem)) htail
          exact ⟨rfl, hrest⟩

/-- Split at the first occurrence of a separator. -/
def splitOnce (separator : List Char) : List Char → Option (List Char × List Char)
  | [] => if separator = [] then some ([], []) else none
  | c :: rest =>
      if separator.isPrefixOf (c :: rest) then
        some ([], (c :: rest).drop separator.length)
      else (splitOnce separator rest).map fun parts => (c :: parts.1, parts.2)

theorem splitOnce_eq {separator text before after : List Char}
    (hsplit : splitOnce separator text = some (before, after)) :
    text = before ++ separator ++ after := by
  induction text generalizing before with
  | nil =>
      rw [splitOnce, Option.ite_none_right_eq_some] at hsplit
      obtain ⟨rfl, hparts⟩ := hsplit
      cases hparts
      rfl
  | cons c rest ih =>
      rw [splitOnce] at hsplit
      split at hsplit
      next hfound =>
        cases hsplit
        rw [List.nil_append]
        exact (List.prefix_iff_eq_append.mp ( List.isPrefixOf_iff_prefix.mp hfound)).symm
      next =>
        obtain ⟨parts, hparts, heq⟩ := Option.map_eq_some_iff.mp hsplit
        cases heq
        rw [ih hparts]
        rfl

theorem splitOnce_char_before {separator : Char} {text before after : List Char}
    (hsplit : splitOnce [separator] text = some (before, after)) :
    separator ∉ before := by
  induction text generalizing before with
  | nil => cases hsplit
  | cons c rest ih =>
      rw [splitOnce] at hsplit
      split at hsplit
      next =>
        cases hsplit
        exact List.not_mem_nil
      next hother =>
        obtain ⟨parts, hparts, heq⟩ := Option.map_eq_some_iff.mp hsplit
        cases heq
        intro hmem
        rcases List.mem_cons.mp hmem with rfl | hrest
        · exact hother (by simp [List.isPrefixOf])
        · exact ih hparts hrest

theorem splitOnce_char_none {separator : Char} {text : List Char}
    (hsplit : splitOnce [separator] text = none) : separator ∉ text := by
  induction text with
  | nil => exact List.not_mem_nil
  | cons c rest ih =>
      rw [splitOnce] at hsplit
      split at hsplit
      next => cases hsplit
      next hother =>
        intro hmem
        rcases List.mem_cons.mp hmem with rfl | hrest
        · exact hother (by simp [List.isPrefixOf])
        · exact ih (Option.map_eq_none_iff.mp hsplit) hrest

/-- A text splits where its first part ends. -/
theorem splitOnce_char_append {separator : Char} {before after : List Char}
    (habsent : separator ∉ before) :
    splitOnce [separator] (before ++ separator :: after) =
      some (before, after) := by
  cases hsplit : splitOnce [separator] (before ++ separator :: after) with
  | none => exact absurd (by simp) (splitOnce_char_none hsplit)
  | some parts =>
      obtain ⟨start, rest⟩ := parts
      have htext := splitOnce_eq hsplit
      rw [List.append_assoc, List.singleton_append] at htext
      obtain ⟨rfl, rfl⟩ := append_separator_inj habsent
        (splitOnce_char_before hsplit) htext
      rfl

/-- A pair of characters is not found in a text when no two neighbours are
that pair. -/
theorem not_pair_infix_iff {a b : Char} {text : List Char} :
    ¬ [a, b] <:+: text ↔ text.IsChain fun x y => ¬ (x = a ∧ y = b) := by
  constructor
  · intro habsent
    apply (List.isChain_isInfix text).imp
    rintro x y hpair ⟨rfl, rfl⟩
    exact habsent hpair
  · intro hchain hpair
    exact List.isChain_pair.mp ( List.IsChain.infix hchain hpair) ⟨rfl, rfl⟩

/-! ## Splitting at a character -/

theorem splitOn_append_cons (separator : Char) (first rest : List Char) :
    (first ++ separator :: rest).splitOn separator =
      first.splitOn separator ++ rest.splitOn separator :=
  List.splitOnP_append_cons first rest (by simp)

theorem splitOn_of_not_mem {separator : Char} {text : List Char}
    (habsent : separator ∉ text) : text.splitOn separator = [text] := by
  apply List.splitOnP_eq_singleton
  intro c hc
  rw [beq_eq_false_iff_ne]
  rintro rfl
  exact habsent hc

theorem not_mem_of_mem_splitOn {separator : Char} {text piece : List Char}
    (hpiece : piece ∈ text.splitOn separator) : separator ∉ piece := by
  induction hlength : text.length using Nat.strong_induction_on
    generalizing text with
  | _ n ih =>
      by_cases hmem : separator ∈ text
      · obtain ⟨first, rest, htext⟩ := List.append_of_mem hmem
        have hsizes : first.length < n ∧ rest.length < n := by
          rw [← hlength, htext, List.length_append, List.length_cons]
          omega
        rw [htext, splitOn_append_cons] at hpiece
        rcases List.mem_append.mp hpiece with hfirst | hrest
        · exact ih _ hsizes.1 hfirst rfl
        · exact ih _ hsizes.2 hrest rfl
      · rw [splitOn_of_not_mem hmem, List.mem_singleton] at hpiece
        exact hpiece ▸ hmem

/-! ## Lengths in bytes -/

/-- The length of a text in UTF-8. -/
def byteLen (text : List Char) : ℕ := (text.map Char.utf8Size).sum

@[simp] theorem byteLen_append (first second : List Char) :
    byteLen (first ++ second) = byteLen first + byteLen second := by
  simp [byteLen]

theorem byteLen_eq_length {text : List Char}
    (hascii : ∀ c ∈ text, c.utf8Size = 1) : byteLen text = text.length := by
  rw [byteLen, List.map_congr_left hascii, List.map_const', List.sum_replicate,
    smul_eq_mul, mul_one]

theorem utf8ByteSize_eq_byteLen (s : String) :
    s.utf8ByteSize = byteLen s.toList := by
  rw [← String.size_toByteArray, ← String.utf8Encode_toList, List.utf8Encode,
    List.size_toByteArray, List.length_flatMap]
  simp [byteLen]

end RustText
