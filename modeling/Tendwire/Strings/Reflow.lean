import Tendwire.Strings.CodePoints

/-!
# Reflowed texts

Two texts are reflows of each other when they differ in their runs of horizontal whitespace and in
the style of their line ends. The words of their lines agree, and a text is rendered from the words
of its lines with one space between words and one line feed between lines.
-/

namespace Strings

/-- Horizontal whitespace. -/
def isBlank (c : CodePoint) : Bool := isSpace c && !isLineBreak c

/-- Lines that differ in their runs of horizontal whitespace, from a word or the end on. -/
inductive Respaced : Text → Text → Prop
  | ends {s s' : Text} : (∀ c ∈ s, isBlank c = true) → (∀ c ∈ s', isBlank c = true) →
      Respaced s s'
  | plain {c : CodePoint} {a b : Text} : isSpace c = false → Respaced a b →
      Respaced (c :: a) (c :: b)
  | run {s s' a b : Text} : s ≠ [] → s' ≠ [] → (∀ c ∈ s, isBlank c = true) →
      (∀ c ∈ s', isBlank c = true) → Respaced a b → Respaced (s ++ a) (s' ++ b)

/-- The same with any horizontal whitespace in front. -/
inductive SameLine : Text → Text → Prop
  | mk {s s' a b : Text} : (∀ c ∈ s, isBlank c = true) → (∀ c ∈ s', isBlank c = true) →
      Respaced a b → SameLine (s ++ a) (s' ++ b)

inductive Reflowed : Text → Text → Prop
  | line {a b : Text} : SameLine a b → Reflowed a b
  | next {a b e e' t u : Text} : SameLine a b → IsLineEnd e t → IsLineEnd e' u → Reflowed t u →
      Reflowed (a ++ e ++ t) (b ++ e' ++ u)

variable {a b s t u : Text} {c : CodePoint}

lemma isSpace_of_isBlank (h : isBlank c = true) : isSpace c = true := (Bool.and_eq_true_iff.mp h).1

lemma not_break_of_isBlank (h : isBlank c = true) : isLineBreak c = false := by
  have hnot := (Bool.and_eq_true_iff.mp h).2
  simpa using hnot

lemma not_break_of_plain (h : isSpace c = false) : isLineBreak c = false := by
  by_contra hbreak
  rw [Bool.not_eq_false] at hbreak
  rw [isSpace_of_isLineBreak hbreak] at h
  cases h

/-- A character of the second text is whitespace or one of the first. -/
def Kept (t u : Text) : Prop := ∀ c ∈ u, isSpace c = true ∨ c ∈ t

/-- What `Respaced` says about a line in one step: no line end, the same words, and a word starts
both or neither. -/
structure SameWords (a b : Text) : Prop where
  left : ∀ c ∈ a, isLineBreak c = false
  right : ∀ c ∈ b, isLineBreak c = false
  words_eq : words a = words b
  head_eq : a.head?.any (fun d => !isSpace d) = b.head?.any fun d => !isSpace d
  kept : Kept a b

lemma head?_append_blank (hne : s ≠ []) (hs : ∀ c ∈ s, isBlank c = true) :
    (s ++ t).head?.any (fun d => !isSpace d) = false := by
  cases s with
  | nil => exact absurd rfl hne
  | cons c s => simp [isSpace_of_isBlank (hs c List.mem_cons_self)]

lemma head?_blank (hs : ∀ c ∈ s, isBlank c = true) :
    s.head?.any (fun d => !isSpace d) = false := by
  cases s with
  | nil => rfl
  | cons c s => simp [isSpace_of_isBlank (hs c List.mem_cons_self)]

lemma Respaced.sameWords (h : Respaced a b) : SameWords a b := by
  induction h with
  | @ends s s' hs hs' =>
    refine ⟨fun c hc => not_break_of_isBlank (hs c hc), fun c hc => not_break_of_isBlank (hs' c hc),
      ?_, ?_, fun c hc => .inl (isSpace_of_isBlank (hs' c hc))⟩
    · rw [words_spaces fun c hc => isSpace_of_isBlank (hs c hc),
        words_spaces fun c hc => isSpace_of_isBlank (hs' c hc)]
    · rw [head?_blank hs, head?_blank hs']
  | @plain c a b hc _ ih =>
    refine ⟨?_, ?_, ?_, rfl, ?_⟩
    · exact List.forall_mem_cons.mpr ⟨not_break_of_plain hc, ih.left⟩
    · exact List.forall_mem_cons.mpr ⟨not_break_of_plain hc, ih.right⟩
    · rw [words_cons_plain hc, words_cons_plain hc, ih.words_eq, ih.head_eq]
    · intro d hd
      rcases List.mem_cons.mp hd with rfl | hd
      · exact .inr List.mem_cons_self
      · exact (ih.kept d hd).imp_right (List.mem_cons_of_mem _)
  | @run s s' a b hne hne' hs hs' _ ih =>
    refine ⟨?_, ?_, ?_, ?_, ?_⟩
    · exact List.forall_mem_append.mpr ⟨fun c hc => not_break_of_isBlank (hs c hc), ih.left⟩
    · exact List.forall_mem_append.mpr ⟨fun c hc => not_break_of_isBlank (hs' c hc), ih.right⟩
    · rw [words_spaces_append fun c hc => isSpace_of_isBlank (hs c hc),
        words_spaces_append fun c hc => isSpace_of_isBlank (hs' c hc), ih.words_eq]
    · rw [head?_append_blank hne hs, head?_append_blank hne' hs']
    · intro d hd
      rcases List.mem_append.mp hd with hd | hd
      · exact .inl (isSpace_of_isBlank (hs' d hd))
      · exact (ih.kept d hd).imp_right (List.mem_append_right _)

/-- The two lines agree word by word. -/
structure SameLineWords (a b : Text) : Prop where
  left : ∀ c ∈ a, isLineBreak c = false
  right : ∀ c ∈ b, isLineBreak c = false
  words_eq : words a = words b
  kept : Kept a b

lemma SameLine.sameWords (h : SameLine a b) : SameLineWords a b := by
  obtain ⟨hs, hs', hab⟩ := h
  have hsame := hab.sameWords
  refine ⟨?_, ?_, ?_, ?_⟩
  · exact List.forall_mem_append.mpr ⟨fun c hc => not_break_of_isBlank (hs c hc), hsame.left⟩
  · exact List.forall_mem_append.mpr ⟨fun c hc => not_break_of_isBlank (hs' c hc), hsame.right⟩
  · rw [words_spaces_append fun c hc => isSpace_of_isBlank (hs c hc),
      words_spaces_append fun c hc => isSpace_of_isBlank (hs' c hc), hsame.words_eq]
  · intro d hd
    rcases List.mem_append.mp hd with hd | hd
    · exact .inl (isSpace_of_isBlank (hs' d hd))
    · exact (hsame.kept d hd).imp_right (List.mem_append_right _)

/-- Reflowed texts have the same words, line for line. -/
theorem Reflowed.lineWords_eq (h : Reflowed t u) : lineWords t = lineWords u := by
  induction h with
  | line hline =>
    have hsame := hline.sameWords
    unfold lineWords
    rw [pieces_line hsame.left, pieces_line hsame.right, List.map_singleton, List.map_singleton,
      hsame.words_eq]
  | next hline he he' _ ih =>
    have hsame := hline.sameWords
    unfold lineWords at ih ⊢
    rw [pieces_append_lineEnd hsame.left he, pieces_append_lineEnd hsame.right he', List.map_cons,
      List.map_cons, hsame.words_eq, ih]

lemma isSpace_of_mem_lineEnd {e : Text} (he : IsLineEnd e t) (hc : c ∈ e) : isSpace c = true := by
  rcases he with rfl | ⟨d, rfl, hd, -⟩
  · apply isSpace_of_isLineBreak
    rcases List.mem_cons.mp hc with rfl | hc
    · exact isLineBreak_carriageReturn
    · rw [List.mem_singleton.mp hc]
      exact isLineBreak_lineFeed
  · rw [List.mem_singleton.mp hc]
    exact isSpace_of_isLineBreak hd

lemma Reflowed.kept (h : Reflowed t u) : Kept t u := by
  induction h with
  | line hline => exact hline.sameWords.kept
  | next hline _ he' _ ih =>
    intro d hd
    rcases List.mem_append.mp hd with hd | hd
    · rcases List.mem_append.mp hd with hd | hd
      · exact (hline.sameWords.kept d hd).imp_right fun hmem =>
          List.mem_append_left _ (List.mem_append_left _ hmem)
      · exact .inl (isSpace_of_mem_lineEnd he' hd)
    · exact (ih d hd).imp_right (List.mem_append_right _)

lemma Respaced.symm (h : Respaced a b) : Respaced b a := by
  induction h with
  | ends hs hs' => exact .ends hs' hs
  | plain hc _ ih => exact .plain hc ih
  | run hne hne' hs hs' _ ih => exact .run hne' hne hs' hs ih

lemma Reflowed.symm (h : Reflowed t u) : Reflowed u t := by
  have hline {a b : Text} (hab : SameLine a b) : SameLine b a := by
    obtain ⟨hs, hs', hr⟩ := hab
    exact .mk hs' hs hr.symm
  induction h with
  | line hab => exact .line (hline hab)
  | next hab he he' _ ih => exact .next (hline hab) he' he ih

/-! ### Rendering -/

/-- Lines of words: no word is empty, and none has whitespace. -/
def WordLines (lines : List (List Text)) : Prop :=
  ∀ l ∈ lines, ∀ w ∈ l, w ≠ [] ∧ ∀ c ∈ w, isSpace c = false

def joinWords (ws : List Text) : Text := [space].intercalate ws

/-- `"\n".join(" ".join(words) for words in lines)`. -/
def render (lines : List (List Text)) : Text := [lineFeed].intercalate (lines.map joinWords)

lemma wordLines_lineWords (t : Text) : WordLines (lineWords t) := by
  intro l hl w hw
  obtain ⟨p, -, rfl⟩ := List.mem_map.mp hl
  exact ⟨ne_nil_of_mem_words hw, fun c hc => isSpace_of_mem_words hw hc⟩

lemma WordLines.sublist {lines lines' : List (List Text)} (h : WordLines lines')
    (hsub : lines.Sublist lines') : WordLines lines := fun l hl => h l (hsub.subset hl)

lemma trimBlank_sublist (lines : List (List Text)) : (trimBlank lines).Sublist lines :=
  (List.rdropWhile_prefix _ _).sublist.trans (List.dropWhile_sublist _)

@[simp] lemma render_nil : render [] = [] := rfl

lemma render_singleton (l : List Text) : render [l] = joinWords l := by simp [render]

lemma render_cons (l l' : List Text) (lines : List (List Text)) :
    render (l :: l' :: lines) = joinWords l ++ [lineFeed] ++ render (l' :: lines) := by
  simp [render, List.intercalate]

lemma render_append (l : List Text) (lines : List (List Text)) (hne : lines ≠ []) :
    render (lines ++ [l]) = render lines ++ [lineFeed] ++ joinWords l := by
  induction lines with
  | nil => exact absurd rfl hne
  | cons l' lines ih =>
    cases lines with
    | nil => rw [List.singleton_append, render_cons, render_singleton, render_singleton]
    | cons l'' lines =>
      rw [List.cons_append, List.cons_append, render_cons, ← List.cons_append, ih (by simp),
        render_cons]
      simp only [List.append_assoc]

lemma joinWords_cons (w : Text) (ws : List Text) :
    joinWords (w :: ws) = w ++ if ws = [] then [] else space :: joinWords ws := by
  cases ws <;> simp [joinWords, List.intercalate]

lemma mem_joinWords {ws : List Text} (h : c ∈ joinWords ws) : c = space ∨ ∃ w ∈ ws, c ∈ w := by
  induction ws with
  | nil => simp [joinWords] at h
  | cons w ws ih =>
    rw [joinWords_cons] at h
    rcases List.mem_append.mp h with h | h
    · exact .inr ⟨w, List.mem_cons_self, h⟩
    · split at h
      · cases h
      · rcases List.mem_cons.mp h with rfl | h
        · exact .inl rfl
        · obtain rfl | ⟨v, hv, hc⟩ := ih h
          · exact .inl rfl
          · exact .inr ⟨v, List.mem_cons_of_mem _ hv, hc⟩

lemma not_break_of_mem_joinWords {ws : List Text}
    (hws : ∀ w ∈ ws, w ≠ [] ∧ ∀ c ∈ w, isSpace c = false) (h : c ∈ joinWords ws) :
    isLineBreak c = false := by
  obtain rfl | ⟨w, hw, hc⟩ := mem_joinWords h
  · decide
  · exact not_break_of_plain ((hws w hw).2 c hc)

/-- Rendered lines are read back as they were. -/
theorem lineWords_render {lines : List (List Text)} (h : WordLines lines) (hne : lines ≠ []) :
    lineWords (render lines) = lines := by
  have hend (t : Text) : IsLineEnd [lineFeed] t :=
    .inr ⟨lineFeed, rfl, by simp, fun hr => absurd hr.1 (by decide)⟩
  have hwords (l : List Text) (hl : l ∈ lines) : words (joinWords l) = l :=
    words_intercalate isSpace_space (fun w hw => (h l hl w hw).1) fun w hw => (h l hl w hw).2
  induction lines with
  | nil => exact absurd rfl hne
  | cons l lines ih =>
    have hl := h l List.mem_cons_self
    have hplain : ∀ c ∈ joinWords l, isLineBreak c = false :=
      fun c hc => not_break_of_mem_joinWords hl hc
    cases lines with
    | nil =>
      unfold lineWords
      rw [render_singleton, pieces_line hplain, List.map_singleton, hwords l List.mem_cons_self]
    | cons l' lines =>
      have hrest := ih (fun k hk => h k (List.mem_cons_of_mem _ hk)) (by simp)
        fun k hk => hwords k (List.mem_cons_of_mem _ hk)
      unfold lineWords at hrest ⊢
      rw [render_cons, pieces_append_lineEnd hplain (hend _), List.map_cons, hrest,
        hwords l List.mem_cons_self]

lemma joinWords_head {ws : List Text} (hne : ws ≠ [])
    (hws : ∀ w ∈ ws, w ≠ [] ∧ ∀ c ∈ w, isSpace c = false) :
    ∃ c t, joinWords ws = c :: t ∧ isSpace c = false := by
  obtain ⟨w, ws, rfl⟩ := List.exists_cons_of_ne_nil hne
  obtain ⟨hw, hplain⟩ := hws w List.mem_cons_self
  obtain ⟨c, w, rfl⟩ := List.exists_cons_of_ne_nil hw
  exact ⟨c, _, by rw [joinWords_cons, List.cons_append], hplain c List.mem_cons_self⟩

lemma joinWords_last {ws : List Text} (hne : ws ≠ [])
    (hws : ∀ w ∈ ws, w ≠ [] ∧ ∀ c ∈ w, isSpace c = false) :
    ∃ c t, joinWords ws = t ++ [c] ∧ isSpace c = false := by
  induction ws with
  | nil => exact absurd rfl hne
  | cons w ws ih =>
    rw [joinWords_cons]
    split
    · obtain ⟨hw, hplain⟩ := hws w List.mem_cons_self
      obtain ⟨t, c, rfl⟩ := (List.eq_nil_or_concat' w).resolve_left hw
      exact ⟨c, t, by simp, hplain c (by simp)⟩
    · next hrest =>
      obtain ⟨c, t, heq, hc⟩ := ih hrest fun v hv => hws v (List.mem_cons_of_mem _ hv)
      exact ⟨c, w ++ space :: t, by simp [heq], hc⟩

lemma dropWhile_render {lines : List (List Text)} (h : WordLines lines) :
    (render lines).dropWhile isSpace = render (lines.dropWhile (·.isEmpty)) := by
  induction lines with
  | nil => rfl
  | cons l lines ih =>
    have hrest := ih fun k hk => h k (List.mem_cons_of_mem _ hk)
    by_cases hl : l = []
    · subst hl
      rw [List.dropWhile_cons_of_pos rfl, ← hrest]
      cases lines with
      | nil => rfl
      | cons l' lines =>
        rw [render_cons]
        exact List.dropWhile_cons_of_pos isSpace_lineFeed
    · rw [List.dropWhile_cons_of_neg (by simpa using hl)]
      obtain ⟨c, t, heq, hc⟩ := joinWords_head hl (h l List.mem_cons_self)
      cases lines with
      | nil => rw [render_singleton, heq, dropWhile_eq_self_of_head hc]
      | cons l' lines =>
        rw [render_cons, heq, List.cons_append, List.cons_append, dropWhile_eq_self_of_head hc]

lemma rdropWhile_render {lines : List (List Text)} (h : WordLines lines) :
    (render lines).rdropWhile isSpace = render (lines.rdropWhile (·.isEmpty)) := by
  induction lines using List.reverseRecOn with
  | nil => rfl
  | append_singleton lines l ih =>
    have hrest := ih fun k hk => h k (List.mem_append_left _ hk)
    by_cases hl : l = []
    · subst hl
      rw [List.rdropWhile_concat_pos _ _ _ rfl, ← hrest]
      by_cases hne : lines = []
      · subst hne
        rfl
      · rw [render_append [] lines hne]
        have hempty : joinWords [] = [] := rfl
        rw [hempty, List.append_nil, List.rdropWhile_concat_pos _ _ _ isSpace_lineFeed]
    · rw [List.rdropWhile_concat_neg _ _ _ (by simpa using hl)]
      obtain ⟨c, t, heq, hc⟩ := joinWords_last hl (h l (by simp))
      by_cases hne : lines = []
      · subst hne
        rw [List.nil_append, render_singleton, heq, rdropWhile_eq_self_of_last hc]
      · rw [render_append l lines hne, heq, ← List.append_assoc, rdropWhile_eq_self_of_last hc]

/-- Whitespace stripped from a rendered text takes its blank outer lines. -/
theorem strip_render {lines : List (List Text)} (h : WordLines lines) :
    strip (render lines) = render (trimBlank lines) := by
  unfold strip trimBlank
  rw [dropWhile_render h, rdropWhile_render (h.sublist (List.dropWhile_sublist _))]

lemma trimBlank_splitlines (t : Text) : trimBlank ((splitlines t).map words) = blocks t := by
  unfold splitlines blocks lineWords
  split
  · next h =>
    obtain ⟨ps, hps⟩ := List.getLast?_eq_some_iff.mp h
    rw [hps, List.dropLast_concat, List.map_append, List.map_singleton, words_nil,
      trimBlank_concat_nil]
  · rfl

lemma wordLines_splitlines (t : Text) : WordLines ((splitlines t).map words) := by
  refine (wordLines_lineWords t).sublist (List.Sublist.map words ?_)
  unfold splitlines
  split
  · exact List.dropLast_sublist _
  · exact List.Sublist.refl _

lemma wordLines_blocks (t : Text) : WordLines (blocks t) :=
  (wordLines_lineWords t).sublist (trimBlank_sublist _)

lemma trimBlank_trimBlank (lines : List (List Text)) :
    trimBlank (trimBlank lines) = trimBlank lines := by
  unfold trimBlank
  rw [dropWhile_rdropWhile_dropWhile, List.rdropWhile_idempotent]

/-- Rendering the blocks of a text and reading them again changes nothing. -/
theorem blocks_render_blocks (t : Text) : blocks (render (blocks t)) = blocks t := by
  by_cases hne : blocks t = []
  · rw [hne]
    rfl
  · rw [blocks, lineWords_render (wordLines_blocks t) hne, blocks, trimBlank_trimBlank]

theorem render_blocks_injective (h : render (blocks t) = render (blocks u)) :
    blocks t = blocks u := by
  rw [← blocks_render_blocks t, h, blocks_render_blocks]

/-! ### The outer characters -/

lemma head?_joinWords {w : Text} {ws : List Text} : (joinWords ((c :: w) :: ws)).head? = some c := by
  rw [joinWords_cons]
  rfl

lemma head?_render {w : Text} {ws : List Text} {lines : List (List Text)} :
    (render (((c :: w) :: ws) :: lines)).head? = some c := by
  cases lines with
  | nil => rw [render_singleton, head?_joinWords]
  | cons l lines => rw [render_cons, List.append_assoc, List.head?_append, head?_joinWords]; rfl

lemma getLast?_joinWords {w : Text} {ws : List Text} :
    (joinWords (ws ++ [w ++ [c]])).getLast? = some c := by
  induction ws with
  | nil => simp [joinWords]
  | cons v ws ih =>
    rw [List.cons_append, joinWords_cons, if_neg (by simp), List.append_cons,
      List.getLast?_append, ih]
    rfl

lemma getLast?_render {w : Text} {ws : List Text} {lines : List (List Text)} :
    (render (lines ++ [ws ++ [w ++ [c]]])).getLast? = some c := by
  by_cases hne : lines = []
  · subst hne
    rw [List.nil_append, render_singleton, getLast?_joinWords]
  · rw [render_append _ _ hne, List.getLast?_append, getLast?_joinWords]
    rfl

/-- The rendered blocks start with the first character that is no whitespace. -/
theorem head?_render_blocks (t : Text) : (render (blocks t)).head? = t.find? (!isSpace ·) := by
  induction t with
  | nil => rfl
  | cons c t ih =>
    by_cases hc : isSpace c = true
    · rw [blocks_cons_space hc, ih, List.find?_cons_of_neg (by simp [hc])]
    · rw [Bool.not_eq_true] at hc
      rw [List.find?_cons_of_pos (by simp [hc])]
      have hreturn : ¬(c = carriageReturn ∧ t.head? = some lineFeed) := by
        rintro ⟨rfl, -⟩
        cases hc
      obtain ⟨l, ls, hsplit⟩ :=
        List.exists_cons_of_ne_nil (List.splitOnP_ne_nil isLineBreak (unifyReturns t))
      obtain ⟨w, ws, hwords⟩ := exists_words_cons (t := l) hc
      have hlines : lineWords (c :: t) = ((c :: w) :: ws) :: ls.map words := by
        unfold lineWords pieces
        rw [unifyReturns_cons hreturn, List.splitOnP_cons_eq_if_modifyHead,
          if_neg (by simp [not_break_of_plain hc]), hsplit, List.modifyHead_cons, List.map_cons,
          hwords]
      unfold blocks trimBlank
      rw [hlines, dropWhile_eq_self_of_head rfl]
      obtain ⟨b, hb⟩ :=
        List.rdropWhile_prefix (fun l => List.isEmpty l) (((c :: w) :: ws) :: ls.map words)
      cases hkept : (((c :: w) :: ws) :: ls.map words).rdropWhile (fun l => List.isEmpty l) with
      | nil =>
        have hall := List.rdropWhile_eq_nil_iff.mp hkept _ List.mem_cons_self
        cases hall
      | cons k ks =>
        rw [hkept, List.cons_append] at hb
        rw [(List.cons.inj hb).1]
        exact head?_render

/-- And end with the last one. -/
theorem getLast?_render_blocks (t : Text) :
    (render (blocks t)).getLast? = t.reverse.find? (!isSpace ·) := by
  induction t using List.reverseRecOn with
  | nil => rfl
  | append_singleton t c ih =>
    rw [List.reverse_append, List.reverse_singleton, List.singleton_append]
    by_cases hc : isSpace c = true
    · rw [blocks_concat_space hc, ih, List.find?_cons_of_neg (by simp [hc])]
    · rw [Bool.not_eq_true] at hc
      rw [List.find?_cons_of_pos (by simp [hc])]
      have hfeed : [c].head? ≠ some lineFeed := by
        simp only [List.head?_cons, ne_eq, Option.some.injEq]
        rintro rfl
        cases hc
      have hone : unifyReturns [c] = [c] := by simp [unifyReturns]
      obtain ⟨ls, l, -, hmore⟩ := exists_splitOnP_append isLineBreak (unifyReturns t) (v := [c])
        (by simpa using not_break_of_plain hc)
      obtain ⟨ws, w, hwords⟩ := exists_words_concat (t := l) hc
      have hlines : lineWords (t ++ [c]) = ls.map words ++ [ws ++ [w ++ [c]]] := by
        unfold lineWords pieces
        rw [unifyReturns_seam fun h => hfeed h.2, hone, hmore, List.map_append, List.map_singleton,
          hwords]
      have hlast : (ws ++ [w ++ [c]]).isEmpty = false := by simp
      unfold blocks trimBlank
      rw [hlines, List.dropWhile_append]
      split
      · rw [List.dropWhile_cons_of_neg (by simp), ← List.nil_append [ws ++ [w ++ [c]]],
          rdropWhile_eq_self_of_last hlast]
        exact getLast?_render
      · rw [rdropWhile_eq_self_of_last hlast]
        exact getLast?_render

/-! ### Nothing new -/

lemma mem_of_mem_splitOnP {α : Type*} {p : α → Bool} {l t : List α} {d : α}
    (h : l ∈ t.splitOnP p) (hd : d ∈ l) : d ∈ t := by
  induction t generalizing l with
  | nil =>
    rw [List.splitOnP_nil, List.mem_singleton] at h
    rwa [h] at hd
  | cons x t ih =>
    rw [List.splitOnP_cons_eq_if_modifyHead] at h
    obtain ⟨l', ls, hsplit⟩ := List.exists_cons_of_ne_nil (List.splitOnP_ne_nil p t)
    rw [hsplit] at h ih
    split_ifs at h with hx
    · rcases List.mem_cons.mp h with rfl | h
      · cases hd
      · exact List.mem_cons_of_mem _ (ih h hd)
    · rw [List.modifyHead_cons] at h
      rcases List.mem_cons.mp h with rfl | h
      · exact (List.mem_cons.mp hd).elim (fun hdx => hdx ▸ List.mem_cons_self)
          fun hd => List.mem_cons_of_mem _ (ih List.mem_cons_self hd)
      · exact List.mem_cons_of_mem _ (ih (List.mem_cons_of_mem _ h) hd)

lemma mem_of_mem_unifyReturns (h : c ∈ unifyReturns t) : c ∈ t := by
  induction t with
  | nil => exact h
  | cons d t ih =>
    rw [unifyReturns] at h
    split_ifs at h
    · exact List.mem_cons_of_mem _ (ih h)
    · exact (List.mem_cons.mp h).elim (fun hd => hd ▸ List.mem_cons_self)
        fun h => List.mem_cons_of_mem _ (ih h)

/-- The lines of a text have its characters only. -/
lemma mem_of_mem_splitlines {l : Text} (hl : l ∈ splitlines t) (h : c ∈ l) : c ∈ t := by
  have hpieces : l ∈ pieces t := by
    unfold splitlines at hl
    split_ifs at hl
    · exact (List.dropLast_sublist _).subset hl
    · exact hl
  exact mem_of_mem_unifyReturns (mem_of_mem_splitOnP hpieces h)

lemma mem_of_mem_words {w : Text} (hw : w ∈ words t) (h : c ∈ w) : c ∈ t :=
  mem_of_mem_splitOnP (List.mem_of_mem_filter hw) h

lemma mem_render {lines : List (List Text)} (h : c ∈ render lines) :
    c = lineFeed ∨ ∃ l ∈ lines, c ∈ joinWords l := by
  induction lines with
  | nil => cases h
  | cons l lines ih =>
    cases lines with
    | nil =>
      rw [render_singleton] at h
      exact .inr ⟨l, List.mem_cons_self, h⟩
    | cons l' lines =>
      rw [render_cons] at h
      rcases List.mem_append.mp h with h | h
      · rcases List.mem_append.mp h with h | h
        · exact .inr ⟨l, List.mem_cons_self, h⟩
        · exact .inl (List.mem_singleton.mp h)
      · exact (ih h).imp_right fun ⟨k, hk, hc⟩ => ⟨k, List.mem_cons_of_mem _ hk, hc⟩

end Strings
