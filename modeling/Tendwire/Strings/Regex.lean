import Tendwire.Strings.CodePoints

/-!
# Backtracking regular expressions

Patterns over symbolic character classes, and the backtracking matcher that takes the first
alternative and the longest repetition that lead to a match. What a match is depends on the classes
only through the characters of the text.
-/

namespace Strings

/-- A pattern over the classes `κ`. -/
inductive Regex (κ : Type) where
  | empty
  | one (p : κ)
  /-- `p{min,max}` -/
  | many (p : κ) (min : ℕ) (max : Option ℕ)
  | seq (a b : Regex κ)
  | alt (a b : Regex κ)
  /-- `(?:a)*` -/
  | star (a : Regex κ)
  /-- `(?<=p)` -/
  | behind (p : κ)
  /-- `(?<!p)` -/
  | notBehind (p : κ)
  /-- `(?=a)` -/
  | ahead (a : Regex κ)
  /-- `\b`, where `p` are the characters of words -/
  | boundary (p : κ)
  /-- `^` -/
  | start
  /-- `\Z` -/
  | finish
  /-- `$` -/
  | lineFinish

namespace Regex

variable {κ : Type}

def seqs : List (Regex κ) → Regex κ
  | [] => empty
  | [a] => a
  | a :: as => seq a (seqs as)

def alts : List (Regex κ) → Regex κ
  | [] => empty
  | [a] => a
  | a :: as => alt a (alts as)

/-- `(?:a)?` -/
def opt (a : Regex κ) : Regex κ := alt a empty

/-- `(?:a)+` -/
def plus (a : Regex κ) : Regex κ := seq a (star a)

/-- `(?:a){n}` -/
def times (n : ℕ) (a : Regex κ) : Regex κ := seqs (List.replicate n a)

/-- The character before the position, and the text from there on. -/
abbrev Position := Option CodePoint × Text

section Matching

variable (test : κ → CodePoint → Bool)

/-- The longest repetition first, then shorter ones. -/
def runMany (p : CodePoint → Bool) (min : ℕ) (max : Option ℕ) (k : Position → Option Position) :
    ℕ → Option CodePoint → Text → Option Position
  | taken, prev, [] => if min ≤ taken then k (prev, []) else none
  | taken, prev, c :: t =>
    if p c && max.all (fun m => taken < m) then
      (runMany p min max k (taken + 1) (some c) t).or
        (if min ≤ taken then k (prev, c :: t) else none)
    else if min ≤ taken then k (prev, c :: t) else none

/-- As many rounds as take characters, then fewer. -/
def runStar (step : (Position → Option Position) → Position → Option Position)
    (k : Position → Option Position) : ℕ → Position → Option Position
  | 0, s => k s
  | n + 1, s =>
    (step (fun s' => if s'.2.length < s.2.length then runStar step k n s' else none) s).or (k s)

/-- Matches the pattern and goes on with `k`: the first way that leads to the end. -/
def run : Regex κ → (Position → Option Position) → Position → Option Position
  | empty, k, s => k s
  | one _, _, (_, []) => none
  | one p, k, (_, c :: t) => if test p c then k (some c, t) else none
  | many p min max, k, s => runMany (test p) min max k 0 s.1 s.2
  | seq a b, k, s => run a (run b k) s
  | alt a b, k, s => (run a k s).or (run b k s)
  | star a, k, s => runStar (run a) k s.2.length s
  | behind p, k, s => if s.1.any (test p) then k s else none
  | notBehind p, k, s => if s.1.any (test p) then none else k s
  | ahead a, k, s => if (run a some s).isSome then k s else none
  | boundary p, k, s => if s.1.any (test p) != s.2.head?.any (test p) then k s else none
  | start, k, s => if s.1 = none then k s else none
  | finish, k, s => if s.2 = [] then k s else none
  | lineFinish, k, s => if s.2 = [] ∨ s.2 = [lineFeed] then k s else none

/-- `pattern.match(text, pos)`. -/
def matchAt (r : Regex κ) (s : Position) : Option Position := run test r some s

def fullMatch (r : Regex κ) (t : Text) : Bool :=
  (run test r (fun s => if s.2 = [] then some s else none) (none, t)).isSome

/-- `pattern.search(text).start()`, from a position on. -/
def searchFrom (r : Regex κ) : Option CodePoint → Text → Option ℕ
  | prev, [] => if (matchAt test r (prev, [])).isSome then some 0 else none
  | prev, c :: t =>
    if (matchAt test r (prev, c :: t)).isSome then some 0
    else (searchFrom r (some c) t).map (· + 1)

def search (r : Regex κ) (t : Text) : Option ℕ := searchFrom test r none t

/-- `pattern.sub(replacement, text)`, from a position on. -/
def subFrom (r : Regex κ) (replacement : Text) : ℕ → Position → Text
  | 0, s => s.2
  | n + 1, (prev, t) =>
    match matchAt test r (prev, t) with
    | some s' =>
      if s'.2.length < t.length then replacement ++ subFrom r replacement n s'
      else
        match t with
        | [] => replacement
        | c :: t => replacement ++ c :: subFrom r replacement n (some c, t)
    | none =>
      match t with
      | [] => []
      | c :: t => c :: subFrom r replacement n (some c, t)

def sub (r : Regex κ) (replacement : Text) (t : Text) : Text :=
  subFrom test r replacement (t.length + 1) (none, t)

end Matching

/-! ### Classes that agree on a text -/

section Agreement

variable {test test' : κ → CodePoint → Bool} {S : CodePoint → Prop}

/-- Only characters of `S` are around. -/
def Within (S : CodePoint → Prop) (s : Position) : Prop :=
  (∀ c ∈ s.1, S c) ∧ ∀ c ∈ s.2, S c

/-- Two continuations do the same on positions within `S`, and stay within. -/
def SameOn (S : CodePoint → Prop) (k k' : Position → Option Position) : Prop :=
  ∀ s, Within S s → k s = k' s ∧ ∀ s' ∈ k s, Within S s'

lemma Within.next {c : CodePoint} {t : Text} {prev : Option CodePoint}
    (h : Within S (prev, c :: t)) : Within S (some c, t) :=
  ⟨fun d hd => by
    obtain rfl : c = d := by simpa using hd
    exact h.2 c List.mem_cons_self, fun d hd => h.2 d (List.mem_cons_of_mem _ hd)⟩

lemma SameOn.ite {k k' : Position → Option Position} (h : SameOn S k k') {s : Position}
    (hs : Within S s) (p : Prop) [Decidable p] :
    (if p then k s else none) = (if p then k' s else none) ∧
      ∀ s' ∈ (if p then k s else none), Within S s' := by
  split
  · exact h s hs
  · exact ⟨rfl, fun s' hs' => by cases hs'⟩

lemma sameOn_or {a b a' b' : Option Position} (ha : a = a' ∧ ∀ s' ∈ a, Within S s')
    (hb : b = b' ∧ ∀ s' ∈ b, Within S s') :
    a.or b = a'.or b' ∧ ∀ s' ∈ a.or b, Within S s' := by
  refine ⟨by rw [ha.1, hb.1], fun s' hs' => ?_⟩
  rcases Option.or_eq_some_iff.mp hs' with hmem | ⟨-, hmem⟩
  · exact ha.2 s' hmem
  · exact hb.2 s' hmem

lemma runMany_sameOn {p p' : CodePoint → Bool} (hp : ∀ c, S c → p c = p' c)
    {k k' : Position → Option Position} (hk : SameOn S k k') (min : ℕ) (max : Option ℕ) (t : Text) :
    ∀ taken prev, Within S (prev, t) →
      runMany p min max k taken prev t = runMany p' min max k' taken prev t ∧
        ∀ s' ∈ runMany p min max k taken prev t, Within S s' := by
  induction t with
  | nil =>
    intro taken prev hs
    exact hk.ite hs _
  | cons c t ih =>
    intro taken prev hs
    have hstop := hk.ite hs (min ≤ taken)
    rw [runMany, runMany, hp c (hs.2 c List.mem_cons_self)]
    split
    · exact sameOn_or (ih (taken + 1) (some c) hs.next) hstop
    · exact hstop

lemma runStar_sameOn
    {step step' : (Position → Option Position) → Position → Option Position}
    (hstep : ∀ k k', SameOn S k k' → SameOn S (step k) (step' k'))
    {k k' : Position → Option Position} (hk : SameOn S k k') (n : ℕ) :
    SameOn S (runStar step k n) (runStar step' k' n) := by
  induction n with
  | zero => exact hk
  | succ n ih =>
    intro s hs
    exact sameOn_or (hstep _ _ (fun s' hs' => ih.ite hs' _) s hs) (hk s hs)

/-- The matcher asks the classes about characters of the text only. -/
theorem run_sameOn (htest : ∀ p c, S c → test p c = test' p c) (r : Regex κ) :
    ∀ k k', SameOn S k k' → SameOn S (run test r k) (run test' r k') := by
  have hany (p : κ) (c : Option CodePoint) (hc : ∀ d ∈ c, S d) :
      c.any (test p) = c.any (test' p) := by
    cases c with
    | none => rfl
    | some d => exact htest p d (hc d rfl)
  induction r with
  | empty => exact fun k k' hk => hk
  | one p =>
    rintro k k' hk ⟨prev, t⟩ hs
    cases t with
    | nil => exact ⟨rfl, fun s' hs' => by cases hs'⟩
    | cons c t =>
      rw [run, run, htest p c (hs.2 c List.mem_cons_self)]
      exact hk.ite hs.next _
  | many p min max =>
    intro k k' hk s hs
    exact runMany_sameOn (htest p) hk min max s.2 0 s.1 hs
  | seq a b iha ihb => exact fun k k' hk => iha _ _ (ihb _ _ hk)
  | alt a b iha ihb =>
    intro k k' hk s hs
    exact sameOn_or (iha _ _ hk s hs) (ihb _ _ hk s hs)
  | star a iha =>
    intro k k' hk s hs
    exact runStar_sameOn iha hk s.2.length s hs
  | behind p =>
    intro k k' hk s hs
    rw [run, run, hany p s.1 hs.1]
    exact hk.ite hs _
  | notBehind p =>
    intro k k' hk s hs
    rw [run, run, hany p s.1 hs.1]
    split
    · exact ⟨rfl, fun s' hs' => by cases hs'⟩
    · exact hk s hs
  | ahead a iha =>
    intro k k' hk s hs
    have hsome : SameOn S some some := fun s hs => ⟨rfl, fun s' hs' => by
      obtain rfl : s = s' := by simpa using hs'
      exact hs⟩
    rw [run, run, (iha _ _ hsome s hs).1]
    exact hk.ite hs _
  | boundary p =>
    intro k k' hk s hs
    have hhead : ∀ d ∈ s.2.head?, S d := fun d hd => hs.2 d (List.mem_of_mem_head? hd)
    rw [run, run, hany p s.1 hs.1, hany p _ hhead]
    exact hk.ite hs _
  | start =>
    intro k k' hk s hs
    exact hk.ite hs _
  | finish =>
    intro k k' hk s hs
    exact hk.ite hs _
  | lineFinish =>
    intro k k' hk s hs
    exact hk.ite hs _

lemma sameOn_some : SameOn S some some := by
  intro s hs
  refine ⟨rfl, fun s' hs' => ?_⟩
  obtain rfl : s = s' := by simpa using hs'
  exact hs

theorem subFrom_sameOn (htest : ∀ p c, S c → test p c = test' p c) (r : Regex κ)
    (replacement : Text) (n : ℕ) :
    ∀ s, Within S s → subFrom test r replacement n s = subFrom test' r replacement n s := by
  induction n with
  | zero => exact fun s _ => rfl
  | succ n ih =>
    rintro ⟨prev, t⟩ hs
    obtain ⟨heq, hwithin⟩ := run_sameOn htest r some some sameOn_some (prev, t) hs
    change matchAt test r (prev, t) = matchAt test' r (prev, t) at heq
    change ∀ s' ∈ matchAt test r (prev, t), Within S s' at hwithin
    simp only [subFrom]
    rw [← heq]
    cases hmatch : matchAt test r (prev, t) with
    | none =>
      cases t with
      | nil => rfl
      | cons c t => exact congrArg _ (ih _ hs.next)
    | some s' =>
      dsimp only
      split
      · rw [ih s' (hwithin s' hmatch)]
      · cases t with
        | nil => rfl
        | cons c t => exact congrArg _ (congrArg _ (ih _ hs.next))

theorem sub_sameOn (htest : ∀ p c, S c → test p c = test' p c) (r : Regex κ)
    (replacement : Text) {t : Text} (ht : ∀ c ∈ t, S c) :
    sub test r replacement t = sub test' r replacement t :=
  subFrom_sameOn htest r replacement _ _ ⟨by simp, ht⟩

theorem searchFrom_sameOn (htest : ∀ p c, S c → test p c = test' p c) (r : Regex κ) (t : Text) :
    ∀ prev, Within S (prev, t) → searchFrom test r prev t = searchFrom test' r prev t := by
  induction t with
  | nil =>
    intro prev hs
    have heq := (run_sameOn htest r some some sameOn_some (prev, []) hs).1
    rw [searchFrom, searchFrom, matchAt, matchAt, heq]
  | cons c t ih =>
    intro prev hs
    have heq := (run_sameOn htest r some some sameOn_some (prev, c :: t) hs).1
    rw [searchFrom, searchFrom, matchAt, matchAt, heq, ih _ hs.next]

theorem search_sameOn (htest : ∀ p c, S c → test p c = test' p c) (r : Regex κ) {t : Text}
    (ht : ∀ c ∈ t, S c) : search test r t = search test' r t :=
  searchFrom_sameOn htest r t none ⟨by simp, ht⟩

theorem fullMatch_sameOn (htest : ∀ p c, S c → test p c = test' p c) (r : Regex κ) {t : Text}
    (ht : ∀ c ∈ t, S c) : fullMatch test r t = fullMatch test' r t := by
  have hend : SameOn S (fun s => if s.2 = [] then some s else none)
      fun s => if s.2 = [] then some s else none := fun s hs => sameOn_some.ite hs _
  unfold fullMatch
  rw [(run_sameOn htest r _ _ hend (none, t) ⟨by simp, ht⟩).1]

end Agreement

end Regex

end Strings
