import Mathlib.Tactic

/-!
# Removing a pattern from a text

One pass from left to right drops every occurrence of a pattern.  The patterns
here end in a mark that occurs nowhere else in them, so two occurrences never
overlap, and what the pass does to a text can be read off the end of the text:
an occurrence at the end disappears, any other last symbol stays.  A word that
the pass leaves behind was spelled in the text with dropped material between
its letters.
-/

namespace Pattern

variable {α : Type*} [DecidableEq α]

/-- The pass, with the number of symbols of an occurrence still to drop. -/
def removeFrom (pattern : List α) : ℕ → List α → List α
  | _, [] => []
  | skip + 1, _ :: rest => removeFrom pattern skip rest
  | 0, c :: rest =>
      if pattern.isPrefixOf (c :: rest) then
        removeFrom pattern (pattern.length - 1) rest
      else c :: removeFrom pattern 0 rest

def remove (pattern text : List α) : List α := removeFrom pattern 0 text

@[simp] theorem remove_nil (pattern : List α) : remove pattern [] = [] := rfl

theorem removeFrom_eq (pattern : List α) (skip : ℕ) (text : List α) :
    removeFrom pattern skip text = remove pattern (text.drop skip) := by
  induction skip generalizing text with
  | zero => rfl
  | succ skip ih =>
      cases text with
      | nil => rfl
      | cons c rest => exact ih rest

theorem remove_occurrence
    {pattern : List α} (hne : pattern ≠ []) (rest : List α) :
    remove pattern (pattern ++ rest) = remove pattern rest := by
  obtain ⟨c, stem, rfl⟩ := List.exists_cons_of_ne_nil hne
  have hleading : (c :: stem).isPrefixOf (c :: (stem ++ rest)) = true :=
    List.isPrefixOf_iff_prefix.mpr ⟨rest, rfl⟩
  rw [remove, List.cons_append, removeFrom, if_pos hleading, removeFrom_eq,
    List.length_cons, Nat.add_sub_cancel, List.drop_left]

theorem remove_cons
    {pattern : List α} {c : α} {rest : List α}
    (hnot : ¬ pattern <+: c :: rest) :
    remove pattern (c :: rest) = c :: remove pattern rest := by
  rw [remove, removeFrom, if_neg (by rwa [List.isPrefixOf_iff_prefix]), remove]

/-- Two parts of a text are treated apart when no occurrence begins in the
first and ends in the second. -/
theorem remove_append
    {pattern first second : List α} (hne : pattern ≠ [])
    (hapart : ∀ part, part ≠ [] → part <:+ first →
      pattern <+: part ++ second → pattern <+: part) :
    remove pattern (first ++ second) =
      remove pattern first ++ remove pattern second := by
  induction hlength : first.length using Nat.strong_induction_on
      generalizing first with
  | _ length ih =>
      by_cases hpattern : pattern <+: first
      · obtain ⟨rest, rfl⟩ := hpattern
        have hrest := ih rest.length
          (by
            have := List.length_pos_iff.mpr hne
            rw [List.length_append] at hlength
            omega)
          (fun part hpart hsuffix =>
            hapart part hpart (hsuffix.trans (List.suffix_append _ _))) rfl
        rw [List.append_assoc, remove_occurrence hne, hrest,
          remove_occurrence hne]
      · cases first with
        | nil => simp
        | cons c rest =>
            have hlater : ¬ pattern <+: c :: (rest ++ second) := fun hleading =>
              hpattern (hapart (c :: rest) (List.cons_ne_nil _ _)
                List.suffix_rfl hleading)
            have hrest := ih rest.length
              (by rw [← hlength, List.length_cons]; omega)
              (fun part hpart hsuffix =>
                hapart part hpart (hsuffix.trans (List.suffix_cons _ _))) rfl
            rw [List.cons_append, remove_cons hlater, hrest,
              remove_cons hpattern, List.cons_append]

/-! ## Patterns that end in a mark -/

omit [DecidableEq α] in
theorem suffix_concat_iff {first second : List α} {c d : α} :
    first ++ [c] <:+ second ++ [d] ↔ first <:+ second ∧ c = d := by
  constructor
  · rintro ⟨init, hinit⟩
    rw [← List.append_assoc] at hinit
    obtain ⟨hrest, hlast⟩ := List.append_inj' hinit rfl
    exact ⟨⟨init, hrest⟩, (List.cons.inj hlast).1⟩
  · rintro ⟨⟨init, rfl⟩, rfl⟩
    exact ⟨init, by rw [List.append_assoc]⟩

section Marked

variable {stem : List α} {mark : α}

omit [DecidableEq α] in
theorem pattern_ne_nil (stem : List α) (mark : α) : stem ++ [mark] ≠ [] := by
  simp

omit [DecidableEq α] in
/-- An occurrence of the mark inside the pattern is its last symbol. -/
theorem eq_nil_of_pattern_eq
    (hmark : mark ∉ stem) {first second : List α}
    (heq : stem ++ [mark] = first ++ [mark] ++ second) : second = [] := by
  rcases List.eq_nil_or_concat' second with hnil | ⟨init, last, rfl⟩
  · exact hnil
  · have hstem : stem = first ++ [mark] ++ init := by
      rw [← List.append_assoc] at heq
      exact (List.append_inj' heq rfl).1
    exact absurd (by rw [hstem]; simp) hmark

theorem remove_append_pattern
    (hmark : mark ∉ stem) (text : List α) :
    remove (stem ++ [mark]) (text ++ (stem ++ [mark])) =
      remove (stem ++ [mark]) text := by
  have hne := pattern_ne_nil stem mark
  have hpattern := remove_occurrence hne ([] : List α)
  rw [List.append_nil, remove_nil] at hpattern
  rw [remove_append hne, hpattern, List.append_nil]
  intro part hpart _ hleading
  by_contra hnot
  obtain ⟨rest, hrest⟩ := hleading
  rw [List.append_eq_append_iff] at hrest
  obtain ⟨middle, hmiddle, -⟩ | ⟨middle, hmiddle, hsplit⟩ := hrest
  · exact hnot ⟨middle, hmiddle.symm⟩
  · rcases List.eq_nil_or_concat' middle with rfl | ⟨init, last, rfl⟩
    · exact hnot ⟨[], by rw [hmiddle]; simp⟩
    · have hlast : last = mark := by
        rw [← List.append_assoc] at hmiddle
        exact (List.cons.inj (List.append_inj' hmiddle rfl).2).1.symm
      subst hlast
      have hnil : rest = [] := eq_nil_of_pattern_eq hmark hsplit
      subst hnil
      rw [List.append_nil] at hsplit
      rw [hsplit] at hmiddle
      exact hpart (List.self_eq_append_left.mp hmiddle)

theorem remove_concat
    {text : List α} {c : α} (hnot : ¬ stem ++ [mark] <:+ text ++ [c]) :
    remove (stem ++ [mark]) (text ++ [c]) =
      remove (stem ++ [mark]) text ++ [c] := by
  have hne := pattern_ne_nil stem mark
  have hsingle : remove (stem ++ [mark]) [c] = [c] := by
    apply remove_cons
    intro hleading
    have heq := hleading.eq_of_length_le (by simp)
    exact hnot (heq ▸ List.suffix_append _ _)
  rw [remove_append hne, hsingle]
  intro part _ hsuffix hleading
  by_contra hshort
  have heq : stem ++ [mark] = part ++ [c] := by
    apply hleading.eq_of_length_le
    by_contra hlonger
    apply hshort
    have hfits : (stem ++ [mark]).length ≤ part.length := by
      have hone : (part ++ [c]).length = part.length + 1 := by simp
      omega
    exact List.prefix_of_prefix_length_le hleading (List.prefix_append _ _) hfits
  apply hnot
  rw [heq]
  obtain ⟨before, rfl⟩ := hsuffix
  exact ⟨before, by rw [List.append_assoc]⟩

end Marked

/-! ## Occurrences in a text of two parts -/

omit [DecidableEq α] in
/-- An occurrence of a marked pattern lies in the first part, lies in the
second, or has some of its stem in the first. -/
theorem occurrence_append
    {stem first second before after : List α} {mark : α}
    (heq : first ++ second = before ++ (stem ++ [mark]) ++ after) :
    (∃ rest, first = before ++ (stem ++ [mark]) ++ rest ∧
        after = rest ++ second) ∨
      (∃ init, before = first ++ init ∧
        second = init ++ (stem ++ [mark]) ++ after) ∨
      ∃ head tail, head ≠ [] ∧ stem = head ++ tail ∧ first = before ++ head ∧
        second = tail ++ [mark] ++ after := by
  rw [List.append_eq_append_iff] at heq
  obtain ⟨part, hpart, hsecond⟩ | ⟨rest, hfirst, hafter⟩ := heq
  · rw [List.append_eq_append_iff] at hpart
    obtain ⟨head, hhead, hpattern⟩ | ⟨init, hinit, hpart⟩ := hpart
    · rcases List.eq_nil_or_concat' part with rfl | ⟨tail, last, rfl⟩
      · left
        refine ⟨[], ?_, by simpa using hsecond.symm⟩
        rw [List.append_nil] at hpattern
        rw [hpattern, hhead]
        simp
      · rw [← List.append_assoc] at hpattern
        obtain ⟨hstem, hlast⟩ := List.append_inj' hpattern rfl
        cases hlast
        rcases List.eq_nil_or_concat' head with rfl | ⟨init, c, rfl⟩
        · right
          left
          refine ⟨[], by simpa using hhead.symm, ?_⟩
          rw [hstem, hsecond]
          simp
        · right
          right
          exact ⟨init ++ [c], tail, by simp, hstem, hhead, hsecond⟩
    · right
      left
      refine ⟨init, hinit, ?_⟩
      rw [hsecond, hpart]
  · exact Or.inl ⟨rest, hfirst, hafter⟩

/-! ## Words spelled across gaps -/

/-- The text is the word with any amount of gap material put in. -/
inductive Spelled (gap : List α → Prop) : List α → List α → Prop where
  | nil : Spelled gap [] []
  | letter {word text : List α} (c : α) (hrest : Spelled gap word text) :
      Spelled gap (word ++ [c]) (text ++ [c])
  | skip {word text material : List α} (hrest : Spelled gap word text)
      (hgap : gap material) : Spelled gap word (text ++ material)

section Spelled

variable {stem word text : List α} {mark : α}

theorem remove_spelled
    (hmark : mark ∉ stem) (hword : mark ∉ word)
    (hspelled : Spelled (· = stem ++ [mark]) word text) (before : List α) :
    remove (stem ++ [mark]) (before ++ text) =
      remove (stem ++ [mark]) before ++ word := by
  induction hspelled with
  | nil => simp
  | @letter word text c _ ih =>
      obtain ⟨hword, hc⟩ : mark ∉ word ∧ mark ≠ c := by
        simpa [not_or] using hword
      have hnot : ¬ stem ++ [mark] <:+ (before ++ text) ++ [c] := by
        intro hsuffix
        exact hc (suffix_concat_iff.mp hsuffix).2
      rw [← List.append_assoc, remove_concat hnot, ih hword, List.append_assoc]
  | skip _ hgap ih =>
      subst hgap
      rw [← List.append_assoc, remove_append_pattern hmark, ih hword]

/-- What a pass leaves at the end of a text was spelled there. -/
theorem exists_spelled_of_suffix
    (hmark : mark ∉ stem) (hsuffix : word <:+ remove (stem ++ [mark]) text) :
    ∃ spelled, Spelled (· = stem ++ [mark]) word spelled ∧
      spelled <:+ text := by
  induction hlength : text.length using Nat.strong_induction_on
      generalizing text word with
  | _ length ih =>
      by_cases hpattern : stem ++ [mark] <:+ text
      · obtain ⟨before, rfl⟩ := hpattern
        rw [remove_append_pattern hmark] at hsuffix
        obtain ⟨spelled, hspelled, hends⟩ := ih before.length
          (by rw [← hlength]; simp) hsuffix rfl
        exact ⟨spelled ++ (stem ++ [mark]), hspelled.skip rfl,
          List.suffix_append_self_iff.mpr hends⟩
      · rcases List.eq_nil_or_concat' text with rfl | ⟨before, c, rfl⟩
        · have hnil : word = [] := by simpa using hsuffix
          subst hnil
          exact ⟨[], .nil, List.nil_suffix⟩
        · rw [remove_concat hpattern] at hsuffix
          rcases List.eq_nil_or_concat' word with rfl | ⟨word, d, rfl⟩
          · exact ⟨[], .nil, List.nil_suffix⟩
          · obtain ⟨hrest, rfl⟩ := suffix_concat_iff.mp hsuffix
            obtain ⟨spelled, hspelled, hends⟩ := ih before.length
              (by rw [← hlength]; simp) hrest rfl
            exact ⟨spelled ++ [d], hspelled.letter d,
              List.suffix_append_self_iff.mpr hends⟩

omit [DecidableEq α] in
/-- A suffix free of the symbols in which gaps end is read off the word. -/
theorem Spelled.suffix_cases
    {gap : List α → Prop} (stop : α → Prop)
    (hgap : ∀ material, gap material →
      ∃ init c, material = init ++ [c] ∧ stop c)
    (hspelled : Spelled gap word text) {found before : List α}
    (hfound : ∀ c ∈ found, ¬ stop c) (hsuffix : found <:+ before ++ text) :
    found <:+ word ∨ word <:+ found := by
  induction hspelled generalizing found with
  | nil => exact Or.inr List.nil_suffix
  | @letter word text c _ ih =>
      rcases List.eq_nil_or_concat' found with rfl | ⟨found, d, rfl⟩
      · exact Or.inl List.nil_suffix
      · rw [← List.append_assoc] at hsuffix
        obtain ⟨hrest, rfl⟩ := suffix_concat_iff.mp hsuffix
        have hfree : ∀ c ∈ found, ¬ stop c := fun c hc =>
          hfound c (List.mem_append_left _ hc)
        exact (ih hfree hrest).imp List.suffix_append_self_iff.mpr
          List.suffix_append_self_iff.mpr
  | @skip word text material _ hmaterial ih =>
      rcases List.eq_nil_or_concat' found with rfl | ⟨found, d, rfl⟩
      · exact Or.inl List.nil_suffix
      · obtain ⟨init, c, rfl, hstop⟩ := hgap material hmaterial
        rw [← List.append_assoc, ← List.append_assoc] at hsuffix
        obtain ⟨-, rfl⟩ := suffix_concat_iff.mp hsuffix
        exact absurd hstop (hfound d (by simp))

omit [DecidableEq α] in
/-- A mark inside a spelled word ends an occurrence of the pattern. -/
theorem Spelled.pattern_of_mark
    (hmark : mark ∉ stem) (hword : mark ∉ word)
    (hspelled : Spelled (· = stem ++ [mark]) word text)
    {first second : List α} (htext : text = first ++ [mark] ++ second) :
    stem ++ [mark] <:+ first ++ [mark] := by
  induction hspelled generalizing second with
  | nil => simp at htext
  | @letter word text c _ ih =>
      obtain ⟨hword, hc⟩ : mark ∉ word ∧ mark ≠ c := by
        simpa [not_or] using hword
      rcases List.eq_nil_or_concat' second with rfl | ⟨second, d, rfl⟩
      · rw [List.append_nil] at htext
        exact absurd (List.cons.inj (List.append_inj' htext rfl).2).1.symm hc
      · rw [← List.append_assoc] at htext
        exact ih hword (List.append_inj' htext rfl).1
  | @skip word text material _ hmaterial ih =>
      subst hmaterial
      rw [List.append_eq_append_iff] at htext
      obtain ⟨middle, hmiddle, hpattern⟩ | ⟨middle, hmiddle, -⟩ := htext
      · rcases List.eq_nil_or_concat' middle with rfl | ⟨init, last, rfl⟩
        · have hends : text = first ++ [mark] ++ [] := by
            rw [hmiddle]
            simp
          exact ih hword hends
        · have hlast : last = mark := by
            rw [← List.append_assoc] at hmiddle
            exact (List.cons.inj (List.append_inj' hmiddle rfl).2).1.symm
          subst hlast
          have hnil := eq_nil_of_pattern_eq hmark hpattern
          rw [hmiddle, hpattern, hnil, List.append_nil]
          exact List.suffix_append _ _
      · exact ih hword hmiddle

end Spelled

end Pattern
