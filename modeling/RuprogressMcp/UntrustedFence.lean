import RuprogressMcp.RustText
import RuprogressMcp.PatternRemoval

/-!
# The fence around untrusted content

Content from Redmine is put between an opening and a closing delimiter that
carry a random nonce, after the delimiter sequences and the control characters
in it have been stripped.  Each kind of material is stripped in one pass, so
what a later pass strips, or what the same pass strips in the middle of a
sequence, can bring the pieces of a delimiter together.  This module says
exactly which contents do that.
-/

namespace Fence

open Pattern

def mark : Char := ':'

def openStem : List Char := "<<<untrusted".toList

def closeStem : List Char := "<<</untrusted".toList

def opening : List Char := openStem ++ [mark]

def closing : List Char := closeStem ++ [mark]

/-- The character is no control character, or one of the two that stay. -/
def keeps (c : Char) : Bool :=
  !RustText.isControl c || c == '\n' || c == '\t'

def sanitize (content : List Char) : List Char :=
  (remove closing (remove opening content)).filter keeps

def hexDigits : List Char := "0123456789abcdef".toList

def hexDigit (n : Fin 16) : Char := hexDigits.get n

structure Boundary where
  nonce : List Char
  hex : ∀ c ∈ nonce, c ∈ hexDigits

def hexByte (byte : Fin 256) : List Char :=
  [hexDigit (Fin.ofNat 16 (byte / 16)), hexDigit (Fin.ofNat 16 byte)]

/-- The nonce of twelve random bytes. -/
def Boundary.new (bytes : Fin 12 → Fin 256) : Boundary where
  nonce := (List.ofFn bytes).flatMap hexByte
  hex := by
    intro c hc
    obtain ⟨byte, -, hdigit⟩ := List.mem_flatMap.mp hc
    simp only [hexByte, List.mem_cons, List.not_mem_nil, or_false] at hdigit
    rcases hdigit with rfl | rfl <;> exact List.getElem_mem _

def fenceEnd : List Char := ">>>".toList

def Boundary.wrap (boundary : Boundary) (kind content : List Char) :
    List Char :=
  opening ++ kind ++ [mark] ++ boundary.nonce ++ fenceEnd ++
    sanitize content ++ closing ++ boundary.nonce ++ fenceEnd

/-! ## What is stripped -/

/-- Material that `sanitize` strips: a control character, an opening sequence,
and a closing sequence with opening sequences anywhere in it. -/
inductive Stripped : List Char → Prop where
  | control (c : Char) (hdropped : keeps c = false) : Stripped [c]
  | opening : Stripped opening
  | closing {text : List Char} (hspelled : Spelled (· = opening) closeStem text) :
      Stripped (text ++ [mark])

/-- Stripped material ends here. -/
def StrippedEnd (text : List Char) : Prop :=
  ∃ material, Stripped material ∧ material <:+ text

theorem mark_notMem_openStem : mark ∉ openStem := by decide

theorem mark_notMem_closeStem : mark ∉ closeStem := by decide

theorem keeps_mark : keeps mark = true := by decide

theorem ne_mark_of_dropped {c : Char} (hdropped : keeps c = false) :
    c ≠ mark := by
  rintro rfl
  simp [keeps_mark] at hdropped

theorem not_pattern_suffix
    {stem text : List Char} {c : Char} (hc : c ≠ mark) :
    ¬ stem ++ [mark] <:+ text ++ [c] := fun hsuffix =>
  hc (suffix_concat_iff.mp hsuffix).2.symm

theorem sanitize_opening (text : List Char) :
    sanitize (text ++ opening) = sanitize text := by
  unfold sanitize
  rw [opening, remove_append_pattern mark_notMem_openStem]

/-- An opening sequence does not end where a spelled closing one does. -/
theorem opening_not_suffix_of_spelled
    {text before : List Char} (hspelled : Spelled (· = opening) closeStem text) :
    ¬ opening <:+ (before ++ text) ++ [mark] := by
  intro hsuffix
  obtain ⟨hstem, -⟩ := suffix_concat_iff.mp hsuffix
  have hcases := hspelled.suffix_cases (fun c => c = mark)
    (fun _ hmaterial => ⟨openStem, mark, hmaterial, rfl⟩)
    (fun c hc heq => mark_notMem_openStem (heq ▸ hc)) hstem
  revert hcases
  decide

theorem sanitize_closing
    {text : List Char} (hspelled : Spelled (· = opening) closeStem text)
    (before : List Char) :
    sanitize (before ++ (text ++ [mark])) = sanitize before := by
  unfold sanitize
  rw [← List.append_assoc, opening,
    remove_concat (opening_not_suffix_of_spelled hspelled),
    remove_spelled mark_notMem_openStem mark_notMem_closeStem hspelled,
    List.append_assoc, ← closing, closing,
    remove_append_pattern mark_notMem_closeStem]

theorem sanitize_control
    {c : Char} (hdropped : keeps c = false) (text : List Char) :
    sanitize (text ++ [c]) = sanitize text := by
  have hc := ne_mark_of_dropped hdropped
  unfold sanitize
  rw [opening, remove_concat (not_pattern_suffix hc), closing,
    remove_concat (not_pattern_suffix hc), List.filter_append]
  simp [hdropped]

theorem sanitize_letter
    {c : Char} (hkept : keeps c = true) (hc : c ≠ mark) (text : List Char) :
    sanitize (text ++ [c]) = sanitize text ++ [c] := by
  unfold sanitize
  rw [opening, remove_concat (not_pattern_suffix hc), closing,
    remove_concat (not_pattern_suffix hc), List.filter_append]
  simp [hkept]

theorem sanitize_mark
    {text : List Char} (hkept : ¬ StrippedEnd (text ++ [mark])) :
    sanitize (text ++ [mark]) = sanitize text ++ [mark] := by
  have hopening : ¬ openStem ++ [mark] <:+ text ++ [mark] := fun hsuffix =>
    hkept ⟨_, .opening, hsuffix⟩
  have hclosing : ¬ closeStem ++ [mark] <:+ remove opening text ++ [mark] := by
    intro hsuffix
    obtain ⟨hstem, -⟩ := suffix_concat_iff.mp hsuffix
    obtain ⟨spelled, hspelled, hends⟩ :=
      exists_spelled_of_suffix mark_notMem_openStem hstem
    exact hkept ⟨_, .closing hspelled, List.suffix_append_self_iff.mpr hends⟩
  unfold sanitize
  rw [opening, remove_concat hopening, ← opening, closing,
    remove_concat hclosing, List.filter_append]
  simp [keeps_mark]

theorem sanitize_stripped
    {material : List Char} (hstripped : Stripped material) (text : List Char) :
    sanitize (text ++ material) = sanitize text := by
  cases hstripped with
  | control c hdropped => exact sanitize_control hdropped text
  | opening => exact sanitize_opening text
  | closing hspelled => exact sanitize_closing hspelled text

/-! ## Reading a content -/

/-- A content, read from its start, with what is left of it. -/
inductive Read : List Char → List Char → Prop where
  | nil : Read [] []
  | stripped {text left material : List Char} (hread : Read text left)
      (hstripped : Stripped material) : Read (text ++ material) left
  | letter {text left : List Char} (c : Char) (hread : Read text left)
      (hkept : keeps c = true) (hc : c ≠ mark) : Read (text ++ [c]) (left ++ [c])
  | mark {text left : List Char} (hread : Read text left)
      (hkept : ¬ StrippedEnd (text ++ [mark])) :
      Read (text ++ [mark]) (left ++ [mark])

theorem Stripped.ne_nil {material : List Char} (hstripped : Stripped material) :
    material ≠ [] := by
  cases hstripped with
  | control c _ => exact List.cons_ne_nil _ _
  | opening => decide
  | closing _ => simp

theorem Read.eq_sanitize {text left : List Char} (hread : Read text left) :
    left = sanitize text := by
  induction hread with
  | nil => rfl
  | @stripped text _ _ _ hstripped ih => rw [ih, sanitize_stripped hstripped]
  | @letter text _ c _ hkept hc ih => rw [ih, sanitize_letter hkept hc]
  | @mark text _ _ hkept ih => rw [ih, sanitize_mark hkept]

theorem read_sanitize (content : List Char) :
    Read content (sanitize content) := by
  induction hlength : content.length using Nat.strong_induction_on
      generalizing content with
  | _ length ih =>
      by_cases hend : StrippedEnd content
      · obtain ⟨material, hstripped, before, rfl⟩ := hend
        have hpos := List.length_pos_iff.mpr hstripped.ne_nil
        rw [List.length_append] at hlength
        rw [sanitize_stripped hstripped]
        exact (ih before.length (by omega) before rfl).stripped hstripped
      · rcases List.eq_nil_or_concat' content with rfl | ⟨before, c, rfl⟩
        · exact .nil
        · have hbefore := ih before.length (by rw [← hlength]; simp) before rfl
          by_cases hc : c = mark
          · subst hc
            rw [sanitize_mark hend]
            exact hbefore.mark hend
          · have hkept : keeps c = true := by
              by_contra hdropped
              exact hend ⟨[c], .control c (by simpa using hdropped),
                List.suffix_append _ _⟩
            rw [sanitize_letter hkept hc]
            exact hbefore.letter c hkept hc

/-- What is left at the end of a content was spelled there. -/
theorem Read.exists_spelled
    {text left word : List Char} (hread : Read text left)
    (hsuffix : word <:+ left) :
    ∃ spelled, Spelled Stripped word spelled ∧ spelled <:+ text := by
  induction hread generalizing word with
  | nil =>
      rw [List.suffix_nil.mp hsuffix]
      exact ⟨[], .nil, List.nil_suffix⟩
  | stripped _ hstripped ih =>
      obtain ⟨spelled, hspelled, hends⟩ := ih hsuffix
      exact ⟨_, hspelled.skip hstripped, List.suffix_append_self_iff.mpr hends⟩
  | letter _ _ _ _ ih | mark _ _ ih =>
      rcases List.eq_nil_or_concat' word with rfl | ⟨word, d, rfl⟩
      · exact ⟨[], .nil, List.nil_suffix⟩
      · obtain ⟨hrest, rfl⟩ := suffix_concat_iff.mp hsuffix
        obtain ⟨spelled, hspelled, hends⟩ := ih hrest
        exact ⟨_, hspelled.letter _, List.suffix_append_self_iff.mpr hends⟩

theorem sanitize_spelled
    {word spelled : List Char} (hspelled : Spelled Stripped word spelled)
    (hword : ∀ c ∈ word, keeps c = true ∧ c ≠ mark) (before : List Char) :
    sanitize (before ++ spelled) = sanitize before ++ word := by
  induction hspelled with
  | nil => simp
  | @letter word text c _ ih =>
      obtain ⟨hkept, hc⟩ := hword c (by simp)
      rw [← List.append_assoc, sanitize_letter hkept hc,
        ih fun d hd => hword d (List.mem_append_left _ hd), List.append_assoc]
  | @skip word text material _ hstripped ih =>
      rw [← List.append_assoc, sanitize_stripped hstripped, ih hword]

/-- A mark that is no end of stripped material is not inside any. -/
theorem Stripped.kept_mark
    {material first second before : List Char} (hstripped : Stripped material)
    (hmaterial : material = first ++ [Fence.mark] ++ second)
    (hkept : ¬ StrippedEnd (before ++ first ++ [Fence.mark])) : False := by
  cases hstripped with
  | control c hdropped =>
      have hmem : Fence.mark ∈ [c] := by
        rw [hmaterial]
        simp
      exact ne_mark_of_dropped hdropped (List.mem_singleton.mp hmem).symm
  | opening =>
      have hnil := eq_nil_of_pattern_eq mark_notMem_openStem hmaterial
      apply hkept
      refine ⟨_, .opening, before, ?_⟩
      rw [hmaterial, hnil, List.append_nil, List.append_assoc]
  | @closing text hspelled =>
      rcases List.eq_nil_or_concat' second with rfl | ⟨second, d, rfl⟩
      · apply hkept
        refine ⟨_, .closing hspelled, before, ?_⟩
        rw [hmaterial, List.append_nil, List.append_assoc]
      · have htext : text = first ++ [Fence.mark] ++ second := by
          rw [← List.append_assoc] at hmaterial
          exact (List.append_inj' hmaterial rfl).1
        have hpattern := hspelled.pattern_of_mark mark_notMem_openStem
          mark_notMem_closeStem htext
        apply hkept
        refine ⟨_, .opening, ?_⟩
        rw [List.append_assoc]
        exact hpattern.trans (List.suffix_append _ _)

/-- What is left up to a mark that stays is left for good. -/
theorem Read.prefix_of_kept
    {text left before after : List Char} (hread : Read text left)
    (htext : text = before ++ [Fence.mark] ++ after)
    (hkept : ¬ StrippedEnd (before ++ [Fence.mark])) :
    sanitize (before ++ [Fence.mark]) <+: left := by
  induction hread generalizing after with
  | nil => simp at htext
  | @stripped text left material hread hstripped ih =>
      rw [List.append_eq_append_iff] at htext
      obtain ⟨middle, hmiddle, hmaterial⟩ | ⟨middle, hmiddle, -⟩ := htext
      · rcases List.eq_nil_or_concat' middle with rfl | ⟨init, last, rfl⟩
        · have hends : text = before ++ [Fence.mark] ++ [] := by
            rw [hmiddle]
            simp
          exact ih hends
        · rw [← List.append_assoc] at hmiddle
          obtain ⟨hbefore, hlast⟩ := List.append_inj' hmiddle rfl
          cases hlast
          rw [hbefore] at hkept
          exact (hstripped.kept_mark hmaterial hkept).elim
      · exact ih hmiddle
  | @letter text left c hread _ hc ih =>
      rcases List.eq_nil_or_concat' after with rfl | ⟨after, d, rfl⟩
      · rw [List.append_nil] at htext
        exact absurd (List.cons.inj (List.append_inj' htext rfl).2).1 hc
      · rw [← List.append_assoc] at htext
        have hrest := ih (List.append_inj' htext rfl).1
        exact hrest.trans (List.prefix_append _ _)
  | @mark text left hread hend ih =>
      rcases List.eq_nil_or_concat' after with rfl | ⟨after, d, rfl⟩
      · rw [List.append_nil] at htext
        rw [← (List.append_inj' htext rfl).1, sanitize_mark hend,
          hread.eq_sanitize]
      · rw [← List.append_assoc] at htext
        have hrest := ih (List.append_inj' htext rfl).1
        exact hrest.trans (List.prefix_append _ _)

/-- A delimiter that is left over comes from a mark that stays, after a
spelling of its stem. -/
theorem Read.infix_iff
    {stem text left : List Char}
    (hstem : ∀ c ∈ stem, keeps c = true ∧ c ≠ Fence.mark)
    (hread : Read text left) :
    stem ++ [Fence.mark] <:+: left ↔
      ∃ before spelled after,
        text = before ++ spelled ++ [Fence.mark] ++ after ∧
        Spelled Stripped stem spelled ∧
        ¬ StrippedEnd (before ++ spelled ++ [Fence.mark]) := by
  constructor
  · intro hinfix
    induction hread with
    | nil => simp at hinfix
    | @stripped text left material _ _ ih =>
        obtain ⟨before, spelled, after, rfl, hspelled, hend⟩ := ih hinfix
        exact ⟨before, spelled, after ++ material, by simp, hspelled, hend⟩
    | @letter text left c _ _ hc ih =>
        rcases List.infix_concat_iff.mp hinfix with hsuffix | hrest
        · exact absurd (suffix_concat_iff.mp hsuffix).2.symm hc
        · obtain ⟨before, spelled, after, rfl, hspelled, hend⟩ := ih hrest
          exact ⟨before, spelled, after ++ [c], by simp, hspelled, hend⟩
    | @mark text left hread hkept ih =>
        rcases List.infix_concat_iff.mp hinfix with hsuffix | hrest
        · obtain ⟨spelled, hspelled, before, rfl⟩ :=
            hread.exists_spelled (suffix_concat_iff.mp hsuffix).1
          exact ⟨before, spelled, [], by simp, hspelled, hkept⟩
        · obtain ⟨before, spelled, after, rfl, hspelled, hend⟩ := ih hrest
          exact ⟨before, spelled, after ++ [Fence.mark], by simp, hspelled,
            hend⟩
  · rintro ⟨before, spelled, after, htext, hspelled, hend⟩
    have hleading := hread.prefix_of_kept htext hend
    rw [sanitize_mark hend, sanitize_spelled hspelled hstem,
      List.append_assoc] at hleading
    exact (List.suffix_append _ _).isInfix.trans hleading.isInfix

/-! ## The fence -/

section Wrap

variable {stem first second before after : List Char}

theorem not_mem_stem_of_split
    {c : Char} (hc : c ∉ stem) {init head tail : List Char}
    (hne : head ≠ []) (hstem : stem = head ++ tail)
    (hfirst : init ++ [c] = before ++ head) : False := by
  rcases List.eq_nil_or_concat' head with rfl | ⟨head, d, rfl⟩
  · exact hne rfl
  · rw [← List.append_assoc] at hfirst
    cases (List.append_inj' hfirst rfl).2
    exact hc (by rw [hstem]; simp)

/-- No occurrence crosses the end of a part whose last symbol is not in the
stem. -/
theorem occurrence_of_barrier
    {c : Char} (hc : c ∉ stem)
    (heq : first ++ [c] ++ second = before ++ (stem ++ [mark]) ++ after) :
    (∃ rest, first ++ [c] = before ++ (stem ++ [mark]) ++ rest ∧
        after = rest ++ second) ∨
      ∃ init, before = first ++ [c] ++ init ∧
        second = init ++ (stem ++ [mark]) ++ after := by
  rcases occurrence_append heq with hfirst | hsecond |
    ⟨head, tail, hne, hstem, hsplit, -⟩
  · exact Or.inl hfirst
  · exact Or.inr hsecond
  · exact (not_mem_stem_of_split hc hne hstem hsplit).elim

theorem Boundary.mark_notMem (boundary : Boundary) :
    mark ∉ boundary.nonce ++ fenceEnd := by
  intro hmem
  rcases List.mem_append.mp hmem with hnonce | hend
  · exact absurd (boundary.hex mark hnonce) (by decide)
  · exact absurd hend (by decide)

theorem Boundary.wrap_eq (boundary : Boundary) (kind content : List Char) :
    boundary.wrap kind content =
      openStem ++ [mark] ++ (kind ++ [mark] ++
        (boundary.nonce ++ ['>', '>'] ++ ['>'] ++ (sanitize content ++
          (closeStem ++ [mark] ++ (boundary.nonce ++ fenceEnd))))) := by
  simp [Boundary.wrap, opening, closing, fenceEnd]

/-- Every occurrence of a delimiter in a wrapped content lies in the opening
or in the closing of the fence. -/
theorem Boundary.occurrence_wrap
    {boundary : Boundary} {kind content : List Char}
    (hmark : mark ∉ stem) (hend : '>' ∉ stem)
    (hlength : stem.length ≤ closeStem.length)
    (hkind : ¬ stem ++ [mark] <:+: kind) (hkindEnd : ¬ stem <:+ kind)
    (hclean : ¬ stem ++ [mark] <:+: sanitize content)
    (hwrap : boundary.wrap kind content = before ++ (stem ++ [mark]) ++ after) :
    (∃ rest, opening = before ++ (stem ++ [mark]) ++ rest) ∨
      ∃ init rest, closing = init ++ (stem ++ [mark]) ++ rest ∧
        after = rest ++ (boundary.nonce ++ fenceEnd) := by
  have hnonce := boundary.mark_notMem
  rw [boundary.wrap_eq] at hwrap
  rcases occurrence_of_barrier hmark hwrap with ⟨rest, hopening, -⟩ |
    ⟨_, -, hafterOpening⟩
  · exact Or.inl ⟨rest, hopening⟩
  right
  rcases occurrence_of_barrier hmark hafterOpening with ⟨rest, hlabel, -⟩ |
    ⟨_, -, hafterKind⟩
  · rcases List.eq_nil_or_concat' rest with rfl | ⟨rest, d, rfl⟩
    · rw [List.append_nil, ← List.append_assoc] at hlabel
      exact absurd ⟨_, (List.append_inj' hlabel rfl).1.symm⟩ hkindEnd
    · rw [← List.append_assoc] at hlabel
      exact absurd ⟨_, _, (List.append_inj' hlabel rfl).1.symm⟩ hkind
  rcases occurrence_of_barrier hend hafterKind with ⟨rest, hheader, -⟩ |
    ⟨_, -, hafterHeader⟩
  · have hmem : mark ∈ boundary.nonce ++ fenceEnd := by
      rw [show boundary.nonce ++ fenceEnd =
        boundary.nonce ++ ['>', '>'] ++ ['>'] by simp [fenceEnd], hheader]
      simp
    exact absurd hmem hnonce
  rcases occurrence_append hafterHeader with ⟨rest, hcontent, -⟩ |
    ⟨init, -, hfooter⟩ | ⟨head, tail, hne, hstem, -, hfooter⟩
  · exact absurd ⟨_, _, hcontent.symm⟩ hclean
  · rcases occurrence_of_barrier hmark hfooter with ⟨rest, hclosing, hafter⟩ |
      ⟨_, -, hlast⟩
    · exact ⟨init, rest, hclosing, hafter⟩
    · exact absurd (by rw [hlast]; simp) hnonce
  · have hshort : (tail ++ [mark]).length ≤ closeStem.length := by
      have hpos := List.length_pos_iff.mpr hne
      rw [hstem, List.length_append] at hlength
      rw [List.length_append, List.length_singleton]
      omega
    have hleading : tail ++ [mark] <+: closeStem := by
      apply List.prefix_of_prefix_length_le ⟨after, hfooter.symm⟩ _ hshort
      rw [List.append_assoc]
      exact List.prefix_append _ _
    exact absurd (hleading.subset (by simp)) mark_notMem_closeStem

end Wrap

/-! ## Which contents break the fence -/

/-- A delimiter is spelled in the content with stripped material between its
letters, and its last character is not stripped with them. -/
def Forges (content : List Char) : Prop :=
  ∃ stem before spelled after, (stem = openStem ∨ stem = closeStem) ∧
    content = before ++ spelled ++ [mark] ++ after ∧
    Spelled Stripped stem spelled ∧
    ¬ StrippedEnd (before ++ spelled ++ [mark])

theorem letters_of_stem {stem : List Char}
    (hstem : stem = openStem ∨ stem = closeStem) :
    ∀ c ∈ stem, keeps c = true ∧ c ≠ mark := by
  have hboth : (openStem ++ closeStem).all
      (fun c => keeps c && c != mark) = true := by decide
  intro c hc
  have hmem : c ∈ openStem ++ closeStem := by
    rcases hstem with rfl | rfl
    · exact List.mem_append_left _ hc
    · exact List.mem_append_right _ hc
  simpa using List.all_eq_true.mp hboth c hmem

theorem forges_iff (content : List Char) :
    Forges content ↔
      opening <:+: sanitize content ∨ closing <:+: sanitize content := by
  have hread := read_sanitize content
  have hopening := hread.infix_iff (letters_of_stem (Or.inl rfl))
  have hclosing := hread.infix_iff (letters_of_stem (Or.inr rfl))
  rw [opening, closing, hopening, hclosing]
  constructor
  · rintro ⟨stem, before, spelled, after, rfl | rfl, hforged⟩
    · exact Or.inl ⟨before, spelled, after, hforged⟩
    · exact Or.inr ⟨before, spelled, after, hforged⟩
  · rintro (⟨before, spelled, after, hforged⟩ | ⟨before, spelled, after, hforged⟩)
    · exact ⟨_, before, spelled, after, Or.inl rfl, hforged⟩
    · exact ⟨_, before, spelled, after, Or.inr rfl, hforged⟩

/-- No delimiter is left in the content, and the fence is the only place of
both of them. -/
structure Intact (boundary : Boundary) (kind content : List Char) : Prop where
  noOpening : ¬ opening <:+: sanitize content
  noClosing : ¬ closing <:+: sanitize content
  opens : opening <+: boundary.wrap kind content
  opensOnce : ∀ before after,
    boundary.wrap kind content = before ++ opening ++ after → before = []
  closes : closing ++ (boundary.nonce ++ fenceEnd) <:+
    boundary.wrap kind content
  closesOnce : ∀ before after,
    boundary.wrap kind content = before ++ closing ++ after →
      after = boundary.nonce ++ fenceEnd

/-- The fence around a content is intact exactly when the content spells no
delimiter across stripped material and the kind does not end in a stem. -/
theorem intact_iff
    (boundary : Boundary) (kind content : List Char)
    (hopening : ¬ opening <:+: kind) (hclosing : ¬ closing <:+: kind) :
    Intact boundary kind content ↔
      ¬ Forges content ∧ ¬ openStem <:+ kind ∧ ¬ closeStem <:+ kind := by
  rw [forges_iff, not_or]
  constructor
  · intro hintact
    refine ⟨⟨hintact.noOpening, hintact.noClosing⟩, ?_, ?_⟩
    · rintro ⟨label, rfl⟩
      have hnil := hintact.opensOnce (opening ++ label)
        (boundary.nonce ++ fenceEnd ++ sanitize content ++ closing ++
          boundary.nonce ++ fenceEnd) (by simp [Boundary.wrap, opening])
      simp [opening] at hnil
    · rintro ⟨label, rfl⟩
      have hafter := hintact.closesOnce (opening ++ label)
        (boundary.nonce ++ fenceEnd ++ sanitize content ++ closing ++
          boundary.nonce ++ fenceEnd) (by simp [Boundary.wrap, closing])
      have hlength := congrArg List.length hafter
      simp [closing] at hlength
  · rintro ⟨⟨hnoOpening, hnoClosing⟩, hopenEnd, hcloseEnd⟩
    refine ⟨hnoOpening, hnoClosing, ?_, ?_, ?_, ?_⟩
    · rw [Boundary.wrap]
      simp only [List.append_assoc]
      exact List.prefix_append _ _
    · intro before after hwrap
      rcases Boundary.occurrence_wrap mark_notMem_openStem (by decide)
          (by decide) hopening hopenEnd hnoOpening hwrap with
        ⟨rest, hrest⟩ | ⟨init, rest, hrest, -⟩
      · have hlength := congrArg List.length hrest
        simp only [opening, List.length_append, List.length_singleton] at hlength
        exact List.length_eq_zero_iff.mp (by omega)
      · exact absurd ⟨init, rest, hrest.symm⟩
          (show ¬ opening <:+: closing by decide)
    · rw [Boundary.wrap, List.append_assoc, List.append_assoc]
      exact List.suffix_append _ _
    · intro before after hwrap
      rcases Boundary.occurrence_wrap mark_notMem_closeStem (by decide)
          (by decide) hclosing hcloseEnd hnoClosing hwrap with
        ⟨rest, hrest⟩ | ⟨init, rest, hrest, hafter⟩
      · exact absurd ⟨before, rest, hrest.symm⟩
          (show ¬ closing <:+: opening by decide)
      · have hlength := congrArg List.length hrest
        simp only [closing, List.length_append, List.length_singleton] at hlength
        have hnil : rest = [] := List.length_eq_zero_iff.mp (by omega)
        rw [hafter, hnil, List.nil_append]

namespace Sample

def boundary : Boundary := Boundary.new fun _ => 0

def kind : List Char := "issue.description".toList

def nested : List Char := "<<<untr<<<untrusted:usted:".toList

theorem nested_opening_survives :
    ¬ opening <:+: kind ∧ ¬ closing <:+: kind ∧
      ¬ Intact boundary kind nested := by
  refine ⟨by decide, by decide, ?_⟩
  intro hintact
  exact hintact.noOpening (by decide)

theorem plain_content_intact :
    Intact boundary kind "see <<<untrusted: here".toList :=
  (intact_iff boundary kind _ (by decide) (by decide)).mpr
    ⟨by rw [forges_iff]; decide, by decide, by decide⟩

end Sample

end Fence
