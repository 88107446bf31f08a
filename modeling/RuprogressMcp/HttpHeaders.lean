import RuprogressMcp.FormParameters

/-!
# Headers

Header names are in lower case, as a parser of requests leaves them, values
are bytes, and a name may occur several times.  Reading a value as text and
writing a text as a value are two functions of an HTTP library: text is made of
visible ASCII characters, spaces and tabs.
-/

namespace Http

abbrev HeaderValue : Type := List UInt8

structure HeaderMap where
  entries : List (String × HeaderValue)
deriving DecidableEq

namespace HeaderMap

def getAll (headers : HeaderMap) (name : String) : List HeaderValue :=
  (headers.entries.filter fun entry => entry.1 = name).map Prod.snd

end HeaderMap

def isVisible (c : Char) : Bool :=
  (32 ≤ c.toNat && c.toNat < 127) || c == '\t'

/-- A control character other than the tab. -/
def isForbidden (c : Char) : Bool :=
  (c.toNat < 32 && c != '\t') || c.toNat == 127

/-- `HeaderValue::to_str` and `HeaderValue::from_str`. -/
structure HeaderText where
  toStr : HeaderValue → Option (List Char)
  fromStr : List Char → Option HeaderValue

/-- The documented behaviour: exactly the visible texts are read, every visible
text is written, and a text that is written is written as it is. -/
structure HeaderText.Documented (text : HeaderText) : Prop where
  toStr_iff : ∀ value chars, text.toStr value = some chars ↔
    Percent.utf8 chars = value ∧ ∀ c ∈ chars, isVisible c = true
  fromStr_visible : ∀ chars, (∀ c ∈ chars, isVisible c = true) →
    text.fromStr chars = some (Percent.utf8 chars)
  fromStr_bytes : ∀ chars value, text.fromStr chars = some value →
    value = Percent.utf8 chars

theorem lt_of_isVisible {c : Char} (hvisible : isVisible c = true) :
    c.toNat < 128 := by
  simp only [isVisible, Bool.or_eq_true, Bool.and_eq_true, decide_eq_true_eq,
    beq_iff_eq] at hvisible
  rcases hvisible with ⟨-, hlt⟩ | rfl
  · omega
  · decide

/-! ## A library that reads bytes one by one -/

def asciiText : HeaderText where
  toStr value :=
    if value.all fun b => isVisible (Char.ofNat b.toNat) then
      some (value.map fun b => Char.ofNat b.toNat)
    else none
  fromStr chars :=
    if chars.all fun c => !isForbidden c then some (Percent.utf8 chars) else none

theorem utf8_map_charOfByte {value : HeaderValue}
    (hascii : ∀ b ∈ value, b.toNat < 128) :
    Percent.utf8 (value.map fun b => Char.ofNat b.toNat) = value := by
  induction value with
  | nil => rfl
  | cons b rest ih =>
      rw [List.map_cons, Percent.utf8, List.flatMap_cons,
        Form.utf8EncodeChar_of_ascii (hascii b List.mem_cons_self), ← Percent.utf8,
        ih fun c hc => hascii c (List.mem_cons_of_mem _ hc)]
      rfl

theorem utf8EncodeChar_of_lt {c : Char} (hascii : c.toNat < 128) :
    String.utf8EncodeChar c = [UInt8.ofNat c.toNat] := by
  have hbyte : (UInt8.ofNat c.toNat).toNat = c.toNat :=
    UInt8.toNat_ofNat_of_lt' (lt_trans hascii (by decide))
  have hencode := Form.utf8EncodeChar_of_ascii (b := UInt8.ofNat c.toNat)
    (by rw [hbyte]; exact hascii)
  rwa [hbyte, Char.ofNat_toNat] at hencode

theorem utf8Size_of_lt {c : Char} (hascii : c.toNat < 128) : c.utf8Size = 1 := by
  rw [Char.utf8Size_eq_one_iff, UInt32.le_iff_toNat_le]
  exact Nat.le_of_lt_succ hascii

theorem utf8_of_ascii {chars : List Char} (hascii : ∀ c ∈ chars, c.toNat < 128) :
    Percent.utf8 chars = chars.map fun c => UInt8.ofNat c.toNat := by
  induction chars with
  | nil => rfl
  | cons c rest ih =>
      rw [Percent.utf8, List.flatMap_cons, utf8EncodeChar_of_lt (hascii c List.mem_cons_self),
        ← Percent.utf8, ih fun d hd => hascii d (List.mem_cons_of_mem _ hd)]
      rfl

theorem not_isForbidden_of_isVisible {c : Char} (hvisible : isVisible c = true) :
    isForbidden c = false := by
  simp only [isVisible, isForbidden, Bool.or_eq_true, Bool.and_eq_true,
    decide_eq_true_eq, beq_iff_eq, Bool.or_eq_false_iff, Bool.and_eq_false_iff,
    decide_eq_false_iff_not, bne_eq_false_iff_eq, beq_eq_false_iff_ne] at hvisible ⊢
  rcases hvisible with hrange | rfl
  · omega
  · decide

theorem asciiText_documented : asciiText.Documented where
  toStr_iff := by
    intro value chars
    simp only [asciiText, Option.ite_none_right_eq_some, Option.some.injEq,
      List.all_eq_true]
    constructor
    · rintro ⟨hvisible, rfl⟩
      have hascii : ∀ b ∈ value, b.toNat < 128 := fun b hb => by
        rw [← Form.toNat_charOfByte b]
        exact lt_of_isVisible (hvisible b hb)
      refine ⟨utf8_map_charOfByte hascii, fun c hc => ?_⟩
      obtain ⟨b, hb, rfl⟩ := List.mem_map.mp hc
      exact hvisible b hb
    · rintro ⟨rfl, hvisible⟩
      have hascii : ∀ c ∈ chars, c.toNat < 128 := fun c hc => lt_of_isVisible (hvisible c hc)
      have hback : ∀ c ∈ chars, Char.ofNat (UInt8.ofNat c.toNat).toNat = c := fun c hc => by
        rw [UInt8.toNat_ofNat_of_lt' (lt_trans (hascii c hc) (by decide)),
          Char.ofNat_toNat]
      rw [utf8_of_ascii hascii, List.map_map]
      refine ⟨fun b hb => ?_, (List.map_congr_left hback).trans (List.map_id' chars)⟩
      obtain ⟨c, hc, rfl⟩ := List.mem_map.mp hb
      exact (hback c hc).symm ▸ hvisible c hc
  fromStr_visible := by
    intro chars hvisible
    refine if_pos (List.all_eq_true.mpr fun c hc => ?_)
    rw [not_isForbidden_of_isVisible (hvisible c hc)]
    rfl
  fromStr_bytes := by
    intro chars value hvalue
    exact (Option.ite_none_right_eq_some.mp hvalue).2 |> Option.some.inj |>.symm

end Http
