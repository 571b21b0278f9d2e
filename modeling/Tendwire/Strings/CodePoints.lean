import Mathlib.Data.List.DropRight
import Mathlib.Data.List.Basic
import Mathlib.Tactic.Common

/-!
# Texts of code points

A text is a list of code points, lone surrogates included. Words are what is left between
whitespace, and lines what is left between line ends, where `\r\n` is one end.
-/

namespace Strings

abbrev CodePoint := Fin 0x110000

instance instNeZeroCodePoints : @NeZero ℕ Zero.ofOfNat0 0x110000 := ⟨by decide⟩

abbrev Text := List CodePoint

def codePoint (c : Char) : CodePoint := Fin.ofNat _ c.toNat

def ofString (s : String) : Text := s.toList.map codePoint

def lineFeed : CodePoint := 0x0A

def carriageReturn : CodePoint := 0x0D

def space : CodePoint := 0x20

/-- `str.isspace()` of one character. -/
def isSpace (c : CodePoint) : Bool :=
  (0x09 ≤ c.val && c.val ≤ 0x0D) || (0x1C ≤ c.val && c.val ≤ 0x20) || c.val == 0x85 ||
    c.val == 0xA0 || c.val == 0x1680 || (0x2000 ≤ c.val && c.val ≤ 0x200A) || c.val == 0x2028 ||
    c.val == 0x2029 || c.val == 0x202F || c.val == 0x205F || c.val == 0x3000

/-- The characters that end a line for `str.splitlines()`. -/
def isLineBreak (c : CodePoint) : Bool :=
  (0x0A ≤ c.val && c.val ≤ 0x0D) || (0x1C ≤ c.val && c.val ≤ 0x1E) || c.val == 0x85 ||
    c.val == 0x2028 || c.val == 0x2029

/-- `text.strip()`. -/
def strip (t : Text) : Text := (t.dropWhile isSpace).rdropWhile isSpace

/-- `text.split()`. -/
def words (t : Text) : List Text := (t.splitOnP isSpace).filter (!·.isEmpty)

/-- A return before a line feed belongs to the feed. -/
def unifyReturns : Text → Text
  | [] => []
  | c :: t =>
    if c = carriageReturn ∧ t.head? = some lineFeed then unifyReturns t else c :: unifyReturns t

/-- What stands before, between and behind the line ends. -/
def pieces (t : Text) : List Text := (unifyReturns t).splitOnP isLineBreak

/-- `text.splitlines()`: nothing behind the last line end is no line. -/
def splitlines (t : Text) : List Text :=
  if (pieces t).getLast? = some [] then (pieces t).dropLast else pieces t

lemma isSpace_of_isLineBreak {c : CodePoint} (h : isLineBreak c = true) : isSpace c = true := by
  simp only [isLineBreak, isSpace, Bool.or_eq_true, Bool.and_eq_true, decide_eq_true_eq,
    beq_iff_eq] at h ⊢
  omega

@[simp] lemma isLineBreak_lineFeed : isLineBreak lineFeed = true := by decide

@[simp] lemma isLineBreak_carriageReturn : isLineBreak carriageReturn = true := by decide

@[simp] lemma isSpace_space : isSpace space = true := by decide

@[simp] lemma isSpace_lineFeed : isSpace lineFeed = true := by decide

/-! ### Stripping -/

section Strip

variable {α : Type*} {p : α → Bool} {a b t : List α}

lemma dropWhile_append_of_forall (h : ∀ c ∈ a, p c = true) :
    (a ++ t).dropWhile p = t.dropWhile p := by
  induction a with
  | nil => rfl
  | cons c a ih =>
    rw [List.cons_append, List.dropWhile_cons_of_pos (h c List.mem_cons_self)]
    exact ih fun d hd => h d (List.mem_cons_of_mem _ hd)

lemma rdropWhile_append_of_forall (h : ∀ c ∈ a, p c = true) :
    (t ++ a).rdropWhile p = t.rdropWhile p := by
  have hdrop := dropWhile_append_of_forall (t := t.reverse) (a := a.reverse)
    (fun c hc => h c (List.mem_reverse.mp hc))
  unfold List.rdropWhile
  rw [List.reverse_append, hdrop]

lemma dropWhile_eq_self_of_head {c : α} (h : p c = false) : (c :: t).dropWhile p = c :: t :=
  List.dropWhile_cons_of_neg (by simp [h])

lemma rdropWhile_eq_self_of_last {c : α} (h : p c = false) :
    (t ++ [c]).rdropWhile p = t ++ [c] :=
  List.rdropWhile_concat_neg p t c (by simp [h])

/-- What is dropped in front, kept, and dropped behind. -/
lemma exists_dropped_both (p : α → Bool) (t : List α) :
    ∃ a b, t = a ++ (t.dropWhile p).rdropWhile p ++ b ∧ (∀ c ∈ a, p c = true) ∧
      ∀ c ∈ b, p c = true := by
  refine ⟨t.takeWhile p, (t.dropWhile p).rtakeWhile p, ?_, ?_, ?_⟩
  · rw [List.append_assoc, List.rdropWhile_append_rtakeWhile, List.takeWhile_append_dropWhile]
  · exact fun c hc => List.mem_takeWhile_imp hc
  · exact fun c hc => List.mem_rtakeWhile_imp hc

/-- What is kept has nothing more to drop in front. -/
lemma dropWhile_rdropWhile_dropWhile (p : α → Bool) (t : List α) :
    ((t.dropWhile p).rdropWhile p).dropWhile p = (t.dropWhile p).rdropWhile p := by
  obtain ⟨b, hb⟩ := List.rdropWhile_prefix p (t.dropWhile p)
  cases hkept : (t.dropWhile p).rdropWhile p with
  | nil => rfl
  | cons c l =>
    rw [hkept, List.cons_append] at hb
    have hc : p c = false := by
      have hhead := List.head?_dropWhile_not p t
      rw [← hb] at hhead
      simpa using hhead
    exact dropWhile_eq_self_of_head hc

end Strip

/-! ### Words -/

section Words

variable {a b s t : Text} {c : CodePoint}

@[simp] lemma words_nil : words [] = [] := rfl

lemma words_append_cons (h : isSpace c = true) : words (a ++ c :: b) = words a ++ words b := by
  unfold words
  rw [List.splitOnP_append_cons a b h, List.filter_append]

lemma words_cons_space (h : isSpace c = true) : words (c :: t) = words t := by
  have happend := words_append_cons (a := []) (b := t) h
  simpa using happend

lemma words_concat_space (h : isSpace c = true) : words (t ++ [c]) = words t := by
  rw [words_append_cons h, words_nil, List.append_nil]

lemma words_spaces (h : ∀ c ∈ s, isSpace c = true) : words s = [] := by
  induction s with
  | nil => rfl
  | cons c s ih =>
    rw [words_cons_space (h c List.mem_cons_self)]
    exact ih fun d hd => h d (List.mem_cons_of_mem _ hd)

lemma words_spaces_append (h : ∀ c ∈ s, isSpace c = true) : words (s ++ t) = words t := by
  induction s with
  | nil => rfl
  | cons c s ih =>
    rw [List.cons_append, words_cons_space (h c List.mem_cons_self)]
    exact ih fun d hd => h d (List.mem_cons_of_mem _ hd)

/-- A character goes to the word that starts right behind it, if one does. -/
lemma words_cons_plain (h : isSpace c = false) :
    words (c :: t) =
      if (t.head?.any fun d => !isSpace d) then (words t).modifyHead (c :: ·) else [c] :: words t := by
  cases t with
  | nil => simp [words, List.splitOnP_cons_eq_if_modifyHead, h]
  | cons d t =>
    unfold words
    rw [List.splitOnP_cons_eq_if_modifyHead c, List.splitOnP_cons_eq_if_modifyHead d]
    obtain ⟨l, ls, hsplit⟩ := List.exists_cons_of_ne_nil (List.splitOnP_ne_nil isSpace t)
    by_cases hd : isSpace d = true
    · simp [h, hd]
    · rw [Bool.not_eq_true] at hd
      simp [h, hd, hsplit]

lemma words_word (hne : t ≠ []) (h : ∀ c ∈ t, isSpace c = false) : words t = [t] := by
  unfold words
  rw [List.splitOnP_eq_singleton h]
  simp [hne]

lemma ne_nil_of_mem_words (h : t ∈ words s) : t ≠ [] := by
  have hmem := (List.mem_filter.mp h).2
  simpa using hmem

/-- More characters that do not split go to the last part. -/
lemma exists_splitOnP_append {α : Type*} (p : α → Bool) (u : List α) {v : List α}
    (h : ∀ c ∈ v, p c = false) :
    ∃ ls l, u.splitOnP p = ls ++ [l] ∧ (u ++ v).splitOnP p = ls ++ [l ++ v] := by
  induction u with
  | nil => exact ⟨[], [], rfl, by simpa using List.splitOnP_eq_singleton h⟩
  | cons x u ih =>
    obtain ⟨ls, l, hbare, hmore⟩ := ih
    rw [List.cons_append, List.splitOnP_cons_eq_if_modifyHead,
      List.splitOnP_cons_eq_if_modifyHead, hbare, hmore]
    by_cases hx : p x = true
    · exact ⟨[] :: ls, l, by simp [hx], by simp [hx]⟩
    · cases ls with
      | nil => exact ⟨[], x :: l, by simp [hx], by simp [hx]⟩
      | cons l' ls => exact ⟨(x :: l') :: ls, l, by simp [hx], by simp [hx]⟩

lemma splitOnP_concat {α : Type*} {p : α → Bool} {x : α} (t : List α) (h : p x = true) :
    (t ++ [x]).splitOnP p = t.splitOnP p ++ [[]] := by
  rw [List.splitOnP_append_cons t [] h, List.splitOnP_nil]

lemma not_of_mem_splitOnP {α : Type*} {p : α → Bool} {l t : List α} {d : α}
    (h : l ∈ t.splitOnP p) (hd : d ∈ l) : p d = false := by
  induction t generalizing l with
  | nil =>
    rw [List.splitOnP_nil, List.mem_singleton] at h
    subst h
    cases hd
  | cons x t ih =>
    rw [List.splitOnP_cons_eq_if_modifyHead] at h
    obtain ⟨l', ls, hsplit⟩ := List.exists_cons_of_ne_nil (List.splitOnP_ne_nil p t)
    rw [hsplit] at h ih
    by_cases hx : p x = true
    · rw [if_pos hx] at h
      rcases List.mem_cons.mp h with rfl | h
      · cases hd
      · exact ih h hd
    · rw [if_neg hx, List.modifyHead_cons] at h
      rcases List.mem_cons.mp h with rfl | h
      · rcases List.mem_cons.mp hd with rfl | hd
        · simpa using hx
        · exact ih List.mem_cons_self hd
      · exact ih (List.mem_cons_of_mem _ h) hd

lemma exists_mem_splitOnP {α : Type*} {p : α → Bool} {t : List α} {d : α} (hd : d ∈ t)
    (hp : p d = false) : ∃ l ∈ t.splitOnP p, d ∈ l := by
  obtain ⟨a, b, rfl⟩ := List.append_of_mem hd
  obtain ⟨ls, l, -, hmore⟩ := exists_splitOnP_append p a (v := [d]) (by simpa using hp)
  rw [List.append_cons]
  induction b using List.reverseRecOn with
  | nil => exact ⟨l ++ [d], by rw [List.append_nil, hmore]; simp, by simp⟩
  | append_singleton b x ih =>
    obtain ⟨k, hk, hdk⟩ := ih (by simp)
    rw [← List.append_assoc]
    by_cases hx : p x = true
    · exact ⟨k, by rw [splitOnP_concat _ hx]; exact List.mem_append_left _ hk, hdk⟩
    · obtain ⟨ms, m, hbare, hboth⟩ :=
        exists_splitOnP_append p (a ++ [d] ++ b) (v := [x]) (by simpa using hx)
      rw [hbare] at hk
      rw [hboth]
      rcases List.mem_append.mp hk with hk | hk
      · exact ⟨k, List.mem_append_left _ hk, hdk⟩
      · rw [List.mem_singleton] at hk
        subst hk
        exact ⟨k ++ [x], by simp, by simp [hdk]⟩

lemma isSpace_of_mem_words (h : t ∈ words s) (hc : c ∈ t) : isSpace c = false :=
  not_of_mem_splitOnP (List.mem_of_mem_filter h) hc

lemma words_ne_nil (hc : c ∈ t) (h : isSpace c = false) : words t ≠ [] := by
  obtain ⟨w, hw, hcw⟩ := exists_mem_splitOnP hc h
  have hmem : w ∈ words t := List.mem_filter.mpr ⟨hw, by simp [List.ne_nil_of_mem hcw]⟩
  exact List.ne_nil_of_mem hmem

/-- The first word starts with the first character, when that is no whitespace. -/
lemma exists_words_cons (h : isSpace c = false) : ∃ w ws, words (c :: t) = (c :: w) :: ws := by
  rw [words_cons_plain h]
  split
  · next hhead =>
    cases t with
    | nil => cases hhead
    | cons d t =>
      have hplain : isSpace d = false := by simpa using hhead
      obtain ⟨w, ws, hws⟩ := List.exists_cons_of_ne_nil (words_ne_nil List.mem_cons_self hplain)
      exact ⟨w, ws, by rw [hws, List.modifyHead_cons]⟩
  · exact ⟨[], words t, rfl⟩

/-- The last word ends with the last character, when that is no whitespace. -/
lemma exists_words_concat (h : isSpace c = false) :
    ∃ ws w, words (t ++ [c]) = ws ++ [w ++ [c]] := by
  obtain ⟨ls, l, -, hmore⟩ := exists_splitOnP_append isSpace t (v := [c]) (by simpa using h)
  refine ⟨ls.filter (!·.isEmpty), l, ?_⟩
  unfold words
  rw [hmore, List.filter_append, List.filter_cons_of_pos (by simp), List.filter_nil]

/-- Words behind each other with one character between them. -/
lemma words_intercalate {c : CodePoint} (hc : isSpace c = true) {ws : List Text}
    (hne : ∀ w ∈ ws, w ≠ []) (hplain : ∀ w ∈ ws, ∀ d ∈ w, isSpace d = false) :
    words ([c].intercalate ws) = ws := by
  induction ws with
  | nil => rfl
  | cons w ws ih =>
    have hw := words_word (hne w List.mem_cons_self) (hplain w List.mem_cons_self)
    have hrest := ih (fun v hv => hne v (List.mem_cons_of_mem _ hv))
      (fun v hv => hplain v (List.mem_cons_of_mem _ hv))
    cases ws with
    | nil => simpa using hw
    | cons v ws =>
      have hcons : [c].intercalate (w :: v :: ws) = w ++ c :: [c].intercalate (v :: ws) := by
        simp [List.intercalate]
      rw [hcons, words_append_cons hc, hw, hrest]
      rfl

end Words

/-! ### Lines -/

section Lines

variable {a b s t : Text} {c : CodePoint}

/-- A line end in front of `t`: `\r\n`, or one character that ends a line by itself. -/
def IsLineEnd (e t : Text) : Prop :=
  e = [carriageReturn, lineFeed] ∨
    ∃ c, e = [c] ∧ isLineBreak c = true ∧ ¬(c = carriageReturn ∧ t.head? = some lineFeed)

lemma unifyReturns_cons (h : ¬(c = carriageReturn ∧ t.head? = some lineFeed)) :
    unifyReturns (c :: t) = c :: unifyReturns t := if_neg h

lemma unifyReturns_return : unifyReturns (carriageReturn :: lineFeed :: t) =
    lineFeed :: unifyReturns t := by
  have hfeed : lineFeed ≠ carriageReturn := by decide
  rw [unifyReturns, if_pos ⟨rfl, rfl⟩, unifyReturns_cons (fun h => hfeed h.1)]

lemma ne_of_not_break {c d : CodePoint} (hc : isLineBreak c = false) (hd : isLineBreak d = true) :
    c ≠ d := by
  rintro rfl
  rw [hc] at hd
  cases hd

lemma unifyReturns_append (h : ∀ c ∈ a, isLineBreak c = false) :
    unifyReturns (a ++ t) = a ++ unifyReturns t := by
  induction a with
  | nil => rfl
  | cons c a ih =>
    have hc : c ≠ carriageReturn := ne_of_not_break (h c List.mem_cons_self) (by simp)
    rw [List.cons_append, unifyReturns_cons (fun hr => hc hr.1),
      ih fun d hd => h d (List.mem_cons_of_mem _ hd)]
    rfl

lemma unifyReturns_eq_self (h : ∀ c ∈ a, isLineBreak c = false) : unifyReturns a = a := by
  simpa [unifyReturns] using unifyReturns_append (t := []) h

lemma pieces_line (h : ∀ c ∈ a, isLineBreak c = false) : pieces a = [a] := by
  unfold pieces
  rw [unifyReturns_eq_self h, List.splitOnP_eq_singleton h]

lemma pieces_append_lineEnd {e : Text} (ha : ∀ c ∈ a, isLineBreak c = false) (he : IsLineEnd e t) :
    pieces (a ++ e ++ t) = a :: pieces t := by
  unfold pieces
  rw [List.append_assoc, unifyReturns_append ha]
  rcases he with rfl | ⟨c, rfl, hc, hreturn⟩
  · change List.splitOnP _ (a ++ unifyReturns (carriageReturn :: lineFeed :: t)) = _
    rw [unifyReturns_return, List.splitOnP_append_cons_of_forall_mem ha _ (by simp)]
  · change List.splitOnP _ (a ++ unifyReturns (c :: t)) = _
    rw [unifyReturns_cons hreturn, List.splitOnP_append_cons_of_forall_mem ha _ hc]

/-- The words of each line. -/
def lineWords (t : Text) : List (List Text) := (pieces t).map words

/-- The lines without the blank ones in front and behind. -/
def trimBlank (lines : List (List Text)) : List (List Text) :=
  (lines.dropWhile (·.isEmpty)).rdropWhile (·.isEmpty)

def blocks (t : Text) : List (List Text) := trimBlank (lineWords t)

lemma trimBlank_nil_cons (lines : List (List Text)) : trimBlank ([] :: lines) = trimBlank lines := by
  simp [trimBlank]

lemma trimBlank_concat_nil (lines : List (List Text)) :
    trimBlank (lines ++ [[]]) = trimBlank lines := by
  unfold trimBlank
  by_cases h : ∀ l ∈ lines, l.isEmpty = true
  · rw [dropWhile_append_of_forall h, List.dropWhile_eq_nil_iff.mpr h]
    rfl
  · have hdrop : (lines ++ [[]]).dropWhile (·.isEmpty) =
        lines.dropWhile (·.isEmpty) ++ [[]] := by
      rw [List.dropWhile_append, if_neg (by simpa [List.dropWhile_eq_nil_iff] using h)]
    rw [hdrop, List.rdropWhile_concat_pos _ _ _ rfl]

lemma blocks_cons_space (h : isSpace c = true) :
    blocks (c :: t) = blocks t := by
  by_cases hreturn : c = carriageReturn ∧ t.head? = some lineFeed
  · unfold blocks lineWords pieces
    rw [unifyReturns, if_pos hreturn]
  · unfold blocks lineWords pieces
    rw [unifyReturns_cons hreturn, List.splitOnP_cons_eq_if_modifyHead]
    split
    · rw [List.map_cons, words_nil, trimBlank_nil_cons]
    · obtain ⟨l, ls, hsplit⟩ :=
        List.exists_cons_of_ne_nil (List.splitOnP_ne_nil isLineBreak (unifyReturns t))
      rw [hsplit, List.modifyHead_cons, List.map_cons, List.map_cons, words_cons_space h]

lemma mem_unifyReturns (hc : c ∈ t) (h : isSpace c = false) : c ∈ unifyReturns t := by
  induction t with
  | nil => cases hc
  | cons d t ih =>
    unfold unifyReturns
    rcases List.mem_cons.mp hc with rfl | hc
    · have hne : c ≠ carriageReturn := by
        rintro rfl
        cases h
      rw [if_neg fun hr => hne hr.1]
      exact List.mem_cons_self
    · split
      · exact ih hc
      · exact List.mem_cons_of_mem _ (ih hc)

lemma mem_trimBlank {l : List Text} {lines : List (List Text)} (h : l ∈ lines) (hne : l ≠ []) :
    l ∈ trimBlank lines := by
  obtain ⟨a, b, heq, ha, hb⟩ := exists_dropped_both (·.isEmpty) lines
  rw [heq] at h
  rcases List.mem_append.mp h with h | h
  · rcases List.mem_append.mp h with h | h
    · exact absurd (ha l h) (by simpa using hne)
    · exact h
  · exact absurd (hb l h) (by simpa using hne)

lemma blocks_ne_nil (hc : c ∈ t) (h : isSpace c = false) : blocks t ≠ [] := by
  have hbreak : isLineBreak c = false := by
    by_contra hnot
    rw [isSpace_of_isLineBreak (by simpa using hnot)] at h
    cases h
  obtain ⟨p, hp, hcp⟩ := exists_mem_splitOnP (mem_unifyReturns hc h) hbreak
  have hmem : words p ∈ blocks t := mem_trimBlank (List.mem_map_of_mem hp) (words_ne_nil hcp h)
  exact List.ne_nil_of_mem hmem

/-- A seam that is no `\r\n` does not join two line ends. -/
lemma unifyReturns_seam
    (h : ¬(a.getLast? = some carriageReturn ∧ t.head? = some lineFeed)) :
    unifyReturns (a ++ t) = unifyReturns a ++ unifyReturns t := by
  induction a with
  | nil => rfl
  | cons c a ih =>
    cases a with
    | nil =>
      have hc : ¬(c = carriageReturn ∧ t.head? = some lineFeed) := by simpa using h
      rw [List.singleton_append, unifyReturns_cons hc]
      simp [unifyReturns]
    | cons d a =>
      have hlast : (c :: d :: a).getLast? = (d :: a).getLast? := by simp [List.getLast?_cons_cons]
      rw [hlast] at h
      rw [List.cons_append, List.cons_append]
      by_cases hc : c = carriageReturn ∧ d = lineFeed
      · rw [unifyReturns, if_pos (by simpa using hc), ← List.cons_append, ih h,
          unifyReturns.eq_2 c (d :: a), if_pos (by simpa using hc)]
      · rw [unifyReturns_cons (by simpa using hc), unifyReturns_cons (t := d :: a)
          (by simpa using hc), ← List.cons_append, ih h]
        rfl

lemma blocks_concat_space (h : isSpace c = true) : blocks (t ++ [c]) = blocks t := by
  have hend (u : Text) {b : CodePoint} (hb : isLineBreak b = true) :
      trimBlank (((u ++ [b]).splitOnP isLineBreak).map words) =
        trimBlank ((u.splitOnP isLineBreak).map words) := by
    rw [splitOnP_concat u hb, List.map_append, List.map_singleton, words_nil, trimBlank_concat_nil]
  unfold blocks lineWords pieces
  by_cases hseam : t.getLast? = some carriageReturn ∧ [c].head? = some lineFeed
  · -- the feed replaces the return that ended the text
    obtain ⟨hlast, hhead⟩ := hseam
    obtain ⟨u, rfl⟩ := List.getLast?_eq_some_iff.mp hlast
    obtain rfl : c = lineFeed := by simpa using hhead
    have hne : carriageReturn ≠ lineFeed := by decide
    rw [List.append_assoc, unifyReturns_seam (a := u) (t := [carriageReturn] ++ [lineFeed])
        (by simp [hne]), unifyReturns_seam (a := u) (t := [carriageReturn]) (by simp [hne])]
    have hboth : unifyReturns ([carriageReturn] ++ [lineFeed]) = [lineFeed] := by decide
    have hone : unifyReturns [carriageReturn] = [carriageReturn] := by decide
    rw [hboth, hone, hend _ (by simp), hend _ (by simp)]
  · have hone : unifyReturns [c] = [c] := by simp [unifyReturns]
    rw [unifyReturns_seam hseam, hone]
    by_cases hbreak : isLineBreak c = true
    · exact hend _ hbreak
    · rw [Bool.not_eq_true] at hbreak
      obtain ⟨ls, l, hbare, hmore⟩ :=
        exists_splitOnP_append isLineBreak (unifyReturns t) (v := [c]) (by simpa using hbreak)
      rw [hbare, hmore, List.map_append, List.map_append, List.map_singleton, List.map_singleton,
        words_concat_space h]

lemma blocks_spaces_append (h : ∀ c ∈ s, isSpace c = true) : blocks (s ++ t) = blocks t := by
  induction s with
  | nil => rfl
  | cons c s ih =>
    rw [List.cons_append, blocks_cons_space (h c List.mem_cons_self)]
    exact ih fun d hd => h d (List.mem_cons_of_mem _ hd)

lemma blocks_append_spaces (h : ∀ c ∈ s, isSpace c = true) : blocks (t ++ s) = blocks t := by
  induction s using List.reverseRecOn with
  | nil => rw [List.append_nil]
  | append_singleton s c ih =>
    rw [← List.append_assoc, blocks_concat_space (h c (by simp))]
    exact ih fun d hd => h d (by simp [hd])

end Lines

end Strings
