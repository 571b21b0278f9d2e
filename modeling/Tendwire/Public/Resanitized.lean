import Tendwire.Public.Sanitizer
import Tendwire.Python.Equality

/-!
# Sanitizing a second time

What the sanitizer lets through has a shape that it keeps. A second pass changes nothing exactly if
it leaves every text below as it is.
-/

namespace Tendwire.Public

open Strings Python

variable {F : Type} [FloatText F] (T : Tables)

/-! ### Settled texts -/

mutual

/-- The sanitizer leaves every text of the value as it is, at the field that the text stands at. -/
def Settled (field : Text) : Json F → Prop
  | .str t => sanitizeValue T field (Object.str (F := F) t) = some (.str t)
  | .list items => SettledItems field items
  | .dict entries => SettledEntries entries
  | _ => True

def SettledItems (field : Text) : List (Json F) → Prop
  | [] => True
  | item :: items => Settled field item ∧ SettledItems field items

def SettledEntries : List (Text × Json F) → Prop
  | [] => True
  | (key, v) :: entries => Settled key v ∧ SettledEntries entries

end

/-! ### The shape of sanitized values -/

/-- No field of its own rule. -/
def IsPlain (field : Text) : Prop :=
  normalizedField T field ≠ composerState ∧ normalizedField T field ≠ submissionVerdict

mutual

/-- A value whose keys and numbers the sanitizer keeps. -/
def Cleaned (field : Text) : Json F → Prop
  | .str _ => True
  | .int n => IsPlain T field ∧ isTelegramChatId T n = false
  | .list items => IsPlain T field ∧ CleanedItems field items
  | .dict entries => IsPlain T field ∧ (Entries.keys entries).Nodup ∧ CleanedEntries entries
  | _ => IsPlain T field

def CleanedItems (field : Text) : List (Json F) → Prop
  | [] => True
  | item :: items => Cleaned field item ∧ CleanedItems field items

def CleanedEntries : List (Text × Json F) → Prop
  | [] => True
  | (key, v) :: entries =>
    (keepsKey T key (isStructuredOutbox key (Object.ofJson v)) = true ∧ Cleaned key v) ∧
      CleanedEntries entries

end

omit [FloatText F] in
lemma cleanedItems_iff {field : Text} {items : List (Json F)} :
    CleanedItems T field items ↔ ∀ v ∈ items, Cleaned T field v := by
  induction items with
  | nil => exact ⟨fun _ => by simp, fun _ => trivial⟩
  | cons v items ih => rw [CleanedItems, ih, List.forall_mem_cons]

omit [FloatText F] in
lemma cleanedEntries_iff {entries : List (Text × Json F)} :
    CleanedEntries T entries ↔ ∀ e ∈ entries,
      keepsKey T e.1 (isStructuredOutbox e.1 (Object.ofJson e.2)) = true ∧ Cleaned T e.1 e.2 := by
  induction entries with
  | nil => exact ⟨fun _ => by simp, fun _ => trivial⟩
  | cons e entries ih =>
    obtain ⟨key, v⟩ := e
    rw [CleanedEntries, ih, List.forall_mem_cons]

lemma settledItems_iff {field : Text} {items : List (Json F)} :
    SettledItems T field items ↔ ∀ v ∈ items, Settled T field v := by
  induction items with
  | nil => exact ⟨fun _ => by simp, fun _ => trivial⟩
  | cons v items ih => rw [SettledItems, ih, List.forall_mem_cons]

lemma settledEntries_iff {entries : List (Text × Json F)} :
    SettledEntries T entries ↔ ∀ e ∈ entries, Settled T e.1 e.2 := by
  induction entries with
  | nil => exact ⟨fun _ => by simp, fun _ => trivial⟩
  | cons e entries ih =>
    obtain ⟨key, v⟩ := e
    rw [SettledEntries, ih, List.forall_mem_cons]

/-- What the sanitizer does at a plain field. -/
def sanitizePlain (field : Text) (value : Object F) : Option (Json F) :=
  match value with
  | .dict entries => some (.dict (sanitizeEntries T [] entries))
  | .list items => some (.list (sanitizeItems T field items))
  | .tuple items => some (.list (sanitizeItems T field items))
  | .set items => some (.list (sortSet (stableJsonDumps T) (sanitizeItems T field items)))
  | .str t => (sanitizeString T field t).map .str
  | v => sanitizeScalar T v

lemma sanitizeValue_of_isPlain {field : Text} (h : IsPlain T field) (value : Object F) :
    sanitizeValue T field value = sanitizePlain T field value := by
  unfold sanitizeValue
  rw [if_neg h.1, if_neg h.2]
  rfl

/-- A value comes out as a text, or at a plain field. -/
lemma sanitizeValue_cases {field : Text} {value : Object F} {v : Json F}
    (h : sanitizeValue T field value = some v) :
    (∃ t, v = .str t) ∨ (IsPlain T field ∧ sanitizePlain T field value = some v) := by
  unfold sanitizeValue at h
  split_ifs at h with hcomposer hverdict
  · split at h
    · split_ifs at h
      exact .inl ⟨_, (Option.some.inj h).symm⟩
    · cases h
  · exact .inr ⟨⟨hcomposer, hverdict⟩, h⟩

lemma isStructuredOutbox_eq {key : Text} {item : Object F} {v : Json F}
    (h : sanitizeValue T key item = some v) :
    isStructuredOutbox key (Object.ofJson v) = isStructuredOutbox key item := by
  unfold sanitizeValue at h
  split_ifs at h
  · split at h
    · split_ifs at h
      rw [← Option.some.inj h]
      rfl
    · cases h
  · cases item with
    | str t =>
      obtain ⟨u, -, hu⟩ := Option.map_eq_some_iff.mp h
      rw [← hu]
      rfl
    | int n =>
      unfold sanitizeScalar at h
      dsimp only at h
      split_ifs at h
      rw [← Option.some.inj h]
      rfl
    | other => cases h
    | _ =>
      rw [← Option.some.inj h]
      rfl

/-! ### What comes out is cleaned -/

lemma cleaned_of_cases {field : Text} {value : Object F} {v : Json F}
    (h : sanitizeValue T field value = some v)
    (hplain : IsPlain T field → sanitizePlain T field value = some v → Cleaned T field v) :
    Cleaned T field v := by
  rcases sanitizeValue_cases T h with ⟨t, rfl⟩ | ⟨hfield, hvalue⟩
  · trivial
  · exact hplain hfield hvalue

omit [FloatText F] in
lemma mem_keys_set {m : Entries F} {key k : Text} {v : Json F}
    (h : k ∈ Entries.keys (Entries.set m key v)) : k = key ∨ k ∈ Entries.keys m := by
  induction m with
  | nil => exact .inl (List.mem_singleton.mp h)
  | cons e m ih =>
    obtain ⟨a, w⟩ := e
    rw [Entries.set] at h
    split_ifs at h with ha
    · cases h with
      | head => exact .inl rfl
      | tail _ h => exact .inr (List.mem_cons_of_mem _ h)
    · cases h with
      | head => exact .inr List.mem_cons_self
      | tail _ h => exact (ih h).imp_right (List.mem_cons_of_mem _)

omit [FloatText F] in
lemma nodup_keys_set {m : Entries F} (h : (Entries.keys m).Nodup) (key : Text) (v : Json F) :
    (Entries.keys (Entries.set m key v)).Nodup := by
  induction m with
  | nil => exact List.nodup_singleton key
  | cons e m ih =>
    obtain ⟨a, w⟩ := e
    obtain ⟨hnot, hm⟩ := List.nodup_cons.mp h
    rw [Entries.set]
    split_ifs with ha
    · rw [ha] at hnot
      exact List.nodup_cons.mpr ⟨hnot, hm⟩
    · refine List.nodup_cons.mpr ⟨fun hmem => ?_, ih hm⟩
      exact (mem_keys_set hmem).elim ha hnot

omit [FloatText F] in
lemma cleanedEntries_set {m : Entries F} {key : Text} {v : Json F}
    (hm : CleanedEntries T m) (hkeep : keepsKey T key (isStructuredOutbox key (Object.ofJson v)) = true)
    (hv : Cleaned T key v) : CleanedEntries T (Entries.set m key v) := by
  induction m with
  | nil => exact ⟨⟨hkeep, hv⟩, trivial⟩
  | cons e m ih =>
    obtain ⟨k, w⟩ := e
    rw [Entries.set]
    split_ifs with hk
    · exact ⟨⟨hkeep, hv⟩, hm.2⟩
    · exact ⟨hm.1, ih hm.2⟩

mutual

theorem cleaned_sanitizePlain : ∀ (value : Object F) {field : Text} {v : Json F},
    IsPlain T field → sanitizePlain T field value = some v → Cleaned T field v
  | .dict entries, field, v, hplain, h => by
    rw [← Option.some.inj h]
    obtain ⟨hentries, hkeys⟩ := cleaned_sanitizeEntries entries [] trivial List.nodup_nil
    exact ⟨hplain, hkeys, hentries⟩
  | .list items, field, v, hplain, h => by
    rw [← Option.some.inj h]
    exact ⟨hplain, (cleanedItems_iff T).mpr (cleaned_sanitizeItems items field)⟩
  | .tuple items, field, v, hplain, h => by
    rw [← Option.some.inj h]
    exact ⟨hplain, (cleanedItems_iff T).mpr (cleaned_sanitizeItems items field)⟩
  | .set items, field, v, hplain, h => by
    rw [← Option.some.inj h]
    refine ⟨hplain, (cleanedItems_iff T).mpr fun w hw => ?_⟩
    exact cleaned_sanitizeItems items field w ((List.perm_insertionSort _ _).mem_iff.mp hw)
  | .int n, field, v, hplain, h => by
    unfold sanitizePlain sanitizeScalar at h
    dsimp only at h
    split_ifs at h with hchat
    rw [← Option.some.inj h]
    exact ⟨hplain, by simpa using hchat⟩
  | .str t, field, v, hplain, h => by
    obtain ⟨u, -, hu⟩ := Option.map_eq_some_iff.mp h
    rw [← hu]
    trivial
  | .none, field, v, hplain, h => by
    rw [← Option.some.inj h]
    exact hplain
  | .bool b, field, v, hplain, h => by
    rw [← Option.some.inj h]
    exact hplain
  | .float x, field, v, hplain, h => by
    rw [← Option.some.inj h]
    exact hplain
  | .time t, field, v, hplain, h => by
    rw [← Option.some.inj h]
    trivial
  | .other, field, v, hplain, h => by cases h

theorem cleaned_sanitizeItems : ∀ (items : List (Object F)) (field : Text),
    ∀ v ∈ sanitizeItems T field items, Cleaned T field v
  | [], field, v, h => by cases h
  | item :: items, field, v, h => by
    rw [sanitizeItems] at h
    split at h
    · next w hw =>
      cases h with
      | head => exact cleaned_of_cases T hw (cleaned_sanitizePlain item)
      | tail _ h => exact cleaned_sanitizeItems items field v h
    · exact cleaned_sanitizeItems items field v h

theorem cleaned_sanitizeEntries : ∀ (entries : List (Text × Object F)) (m : Entries F),
    CleanedEntries T m → (Entries.keys m).Nodup →
      CleanedEntries T (sanitizeEntries T m entries) ∧
        (Entries.keys (sanitizeEntries T m entries)).Nodup
  | [], m, hm, hkeys => ⟨hm, hkeys⟩
  | (key, item) :: entries, m, hm, hkeys => by
    rw [sanitizeEntries]
    split_ifs with hkeep
    · cases hw : sanitizeValue T key item with
      | none => exact cleaned_sanitizeEntries entries m hm hkeys
      | some w =>
        rw [← isStructuredOutbox_eq T hw] at hkeep
        have hclean := cleaned_of_cases T hw (cleaned_sanitizePlain item)
        exact cleaned_sanitizeEntries entries _ (cleanedEntries_set T hm hkeep hclean)
          (nodup_keys_set hkeys key w)
    · exact cleaned_sanitizeEntries entries m hm hkeys

end

lemma filterMap_eq_self_iff {α : Type} {f : α → Option α} {l : List α} :
    l.filterMap f = l ↔ ∀ a ∈ l, f a = some a := by
  induction l with
  | nil => simp
  | cons a l ih =>
    rw [List.forall_mem_cons, List.filterMap_cons, ← ih]
    cases ha : f a with
    | none =>
      refine iff_of_false (fun h => ?_) fun h => Option.some_ne_none a h.1.symm
      have hle := List.length_filterMap_le f l
      dsimp only at h
      rw [h, List.length_cons] at hle
      omega
    | some b => rw [List.cons.injEq, Option.some.injEq]

lemma sanitizeItems_ofJson (field : Text) (items : List (Json F)) :
    sanitizeItems T field (Object.ofJsonItems items) =
      items.filterMap fun v => sanitizeValue T field (Object.ofJson v) := by
  induction items with
  | nil => rfl
  | cons v items ih =>
    rw [Object.ofJsonItems, sanitizeItems, List.filterMap_cons, ih]
    cases sanitizeValue T field (Object.ofJson v) <;> rfl

/-- An entry of a mapping, sanitized. -/
def sanitizeEntry (e : Text × Json F) : Option (Text × Json F) :=
  (sanitizeValue T e.1 (Object.ofJson e.2)).map fun v => (e.1, v)

lemma sanitizeEntries_ofJson {entries : List (Text × Json F)} (hclean : CleanedEntries T entries)
    (m : Entries F) (hkeys : (Entries.keys (m ++ entries)).Nodup) :
    sanitizeEntries T m (Object.ofJsonEntries entries) =
      m ++ entries.filterMap (sanitizeEntry T) := by
  induction entries generalizing m with
  | nil => exact (List.append_nil m).symm
  | cons e entries ih =>
    obtain ⟨key, v⟩ := e
    have hperm : Entries.keys (m ++ (key, v) :: entries) =
        Entries.keys m ++ key :: Entries.keys entries := by simp [Entries.keys]
    rw [hperm] at hkeys
    rw [Object.ofJsonEntries, sanitizeEntries, if_pos hclean.1.1, List.filterMap_cons]
    unfold sanitizeEntry
    dsimp only
    cases hv : sanitizeValue T key (Object.ofJson v) with
    | none =>
      apply ih hclean.2
      simpa [Entries.keys] using (List.nodup_middle.mp hkeys).tail
    | some w =>
      have hnot : key ∉ Entries.keys m := fun hmem =>
        (List.nodup_append.mp hkeys).2.2 key hmem key List.mem_cons_self rfl
      dsimp only [Option.map_some]
      rw [set_of_not_mem w hnot, ih hclean.2, List.append_assoc]
      · rfl
      · simpa [Entries.keys] using hkeys

/-- The same tree comes out, as far as the texts are settled. -/
def IsFixed (field : Text) (v : Json F) : Prop :=
  sanitizeValue T field (Object.ofJson v) = some v

mutual

theorem isFixed_iff : ∀ (v : Json F) {field : Text}, Cleaned T field v →
    (IsFixed T field v ↔ Settled T field v)
  | .str t, field, h => Iff.rfl
  | .null, field, h => by
    refine iff_of_true ?_ trivial
    exact sanitizeValue_of_isPlain T h _
  | .bool b, field, h => by
    refine iff_of_true ?_ trivial
    exact sanitizeValue_of_isPlain T h _
  | .float x, field, h => by
    refine iff_of_true ?_ trivial
    exact sanitizeValue_of_isPlain T h _
  | .int n, field, h => by
    refine iff_of_true ?_ trivial
    refine (sanitizeValue_of_isPlain T h.1 _).trans ?_
    exact if_neg (by simpa using h.2)
  | .list items, field, h => by
    have hvalue := sanitizeValue_of_isPlain T h.1 (Object.ofJson (.list items))
    unfold IsFixed
    rw [hvalue, Settled, ← isFixedItems_iff items h.2, ← sanitizeItems_ofJson]
    exact ⟨fun heq => Json.list.inj (Option.some.inj heq),
      fun heq => congrArg (fun l => some (Json.list l)) heq⟩
  | .dict entries, field, h => by
    have hvalue := sanitizeValue_of_isPlain T h.1 (Object.ofJson (.dict entries))
    have hentries := sanitizeEntries_ofJson T h.2.2 [] h.2.1
    unfold IsFixed
    rw [hvalue, Settled, ← isFixedEntries_iff entries h.2.2, ← List.nil_append (entries.filterMap _),
      ← hentries]
    exact ⟨fun heq => Json.dict.inj (Option.some.inj heq),
      fun heq => congrArg (fun l => some (Json.dict l)) heq⟩

theorem isFixedItems_iff : ∀ (items : List (Json F)) {field : Text}, CleanedItems T field items →
    (items.filterMap (fun v => sanitizeValue T field (Object.ofJson v)) = items ↔
      SettledItems T field items)
  | [], field, h => iff_of_true rfl trivial
  | v :: items, field, h => by
    rw [SettledItems, ← isFixed_iff v h.1, ← isFixedItems_iff items h.2, filterMap_eq_self_iff,
      List.forall_mem_cons, filterMap_eq_self_iff]
    rfl

theorem isFixedEntries_iff : ∀ entries : List (Text × Json F), CleanedEntries T entries →
    (entries.filterMap (sanitizeEntry T) = entries ↔ SettledEntries T entries)
  | [], h => iff_of_true rfl trivial
  | (key, v) :: entries, h => by
    rw [SettledEntries, ← isFixed_iff v h.1.2, ← isFixedEntries_iff entries h.2,
      filterMap_eq_self_iff, List.forall_mem_cons, filterMap_eq_self_iff]
    unfold sanitizeEntry IsFixed
    simp

end

omit [FloatText F] in
mutual

theorem distinct_of_cleaned : ∀ (v : Json F) {field : Text}, Cleaned T field v → Distinct v
  | .list items, _, h => distinctItems_of_cleaned items h.2
  | .dict entries, _, h => ⟨h.2.1, distinctEntries_of_cleaned entries h.2.2⟩
  | .null, _, _ => trivial
  | .bool _, _, _ => trivial
  | .int _, _, _ => trivial
  | .float _, _, _ => trivial
  | .str _, _, _ => trivial

theorem distinctItems_of_cleaned : ∀ (items : List (Json F)) {field : Text},
    CleanedItems T field items → DistinctItems items
  | [], _, _ => trivial
  | v :: items, _, h => ⟨distinct_of_cleaned v h.1, distinctItems_of_cleaned items h.2⟩

theorem distinctEntries_of_cleaned : ∀ entries : List (Text × Json F),
    CleanedEntries T entries → DistinctEntries entries
  | [], _ => trivial
  | (_, v) :: entries, h => ⟨distinct_of_cleaned v h.1.2, distinctEntries_of_cleaned entries h.2⟩

end

omit [FloatText F] in
lemma isStructuredOutbox_sortKeys (key : Text) (v : Json F) :
    isStructuredOutbox key (Object.ofJson (sortKeys v)) =
      isStructuredOutbox key (Object.ofJson v) := by
  cases v <;> rfl

omit [FloatText F] in
lemma cleanedEntries_sort {m : Entries F} :
    CleanedEntries T (sortEntries m) ↔ CleanedEntries T m := by
  have hperm : (sortEntries m).Perm m := List.perm_insertionSort _ _
  rw [cleanedEntries_iff, cleanedEntries_iff]
  exact forall_congr' fun e => by rw [hperm.mem_iff]

lemma settledEntries_sort {m : Entries F} :
    SettledEntries T (sortEntries m) ↔ SettledEntries T m := by
  have hperm : (sortEntries m).Perm m := List.perm_insertionSort _ _
  rw [settledEntries_iff, settledEntries_iff]
  exact forall_congr' fun e => by rw [hperm.mem_iff]

omit [FloatText F] in
lemma nodup_keys_sortKeys {m : Entries F} (h : (Entries.keys m).Nodup) :
    (Entries.keys (sortEntries (sortKeysEntries m))).Nodup := by
  rw [(keys_sortEntries _).nodup_iff, keys_sortKeysEntries]
  exact h

omit [FloatText F] in
mutual

theorem cleaned_sortKeys : ∀ (v : Json F) {field : Text}, Cleaned T field v →
    Cleaned T field (sortKeys v)
  | .list items, _, h => ⟨h.1, cleanedItems_sortKeys items h.2⟩
  | .dict entries, _, h =>
    ⟨h.1, nodup_keys_sortKeys h.2.1, (cleanedEntries_sort T).mpr
      (cleanedEntries_sortKeys entries h.2.2)⟩
  | .null, _, h => h
  | .bool _, _, h => h
  | .int _, _, h => h
  | .float _, _, h => h
  | .str _, _, _ => trivial

theorem cleanedItems_sortKeys : ∀ (items : List (Json F)) {field : Text},
    CleanedItems T field items → CleanedItems T field (sortKeysItems items)
  | [], _, _ => trivial
  | v :: items, _, h => ⟨cleaned_sortKeys v h.1, cleanedItems_sortKeys items h.2⟩

theorem cleanedEntries_sortKeys : ∀ entries : List (Text × Json F),
    CleanedEntries T entries → CleanedEntries T (sortKeysEntries entries)
  | [], _ => trivial
  | (key, v) :: entries, h => by
    refine ⟨⟨?_, cleaned_sortKeys v h.1.2⟩, cleanedEntries_sortKeys entries h.2⟩
    rw [isStructuredOutbox_sortKeys]
    exact h.1.1

end

mutual

theorem settled_sortKeys : ∀ (v : Json F) {field : Text},
    Settled T field (sortKeys v) ↔ Settled T field v
  | .list items, field => settledItems_sortKeys items
  | .dict entries, field => by
    rw [sortKeys, Settled, Settled, settledEntries_sort]
    exact settledEntries_sortKeys entries
  | .null, _ => Iff.rfl
  | .bool _, _ => Iff.rfl
  | .int _, _ => Iff.rfl
  | .float _, _ => Iff.rfl
  | .str _, _ => Iff.rfl

theorem settledItems_sortKeys : ∀ (items : List (Json F)) {field : Text},
    SettledItems T field (sortKeysItems items) ↔ SettledItems T field items
  | [], _ => Iff.rfl
  | v :: items, _ => and_congr (settled_sortKeys v) (settledItems_sortKeys items)

theorem settledEntries_sortKeys : ∀ entries : List (Text × Json F),
    SettledEntries T (sortKeysEntries entries) ↔ SettledEntries T entries
  | [] => Iff.rfl
  | (_, v) :: entries => and_congr (settled_sortKeys v) (settledEntries_sortKeys entries)

end

/-! ### Admitted keys -/

mutual

/-- No key of the value is a forbidden name. -/
def KeysAdmitted : Json F → Prop
  | .list items => KeysAdmittedItems items
  | .dict entries => KeysAdmittedEntries entries
  | _ => True

def KeysAdmittedItems : List (Json F) → Prop
  | [] => True
  | item :: items => KeysAdmitted item ∧ KeysAdmittedItems items

def KeysAdmittedEntries : List (Text × Json F) → Prop
  | [] => True
  | (key, v) :: entries =>
    (isForbiddenFieldName T key = false ∧ KeysAdmitted v) ∧ KeysAdmittedEntries entries

end

omit [FloatText F] in
mutual

theorem sanitizeForbiddenFields_eq_self : ∀ v : Json F, KeysAdmitted T v →
    sanitizeForbiddenFields T v = v
  | .list items, h => congrArg Json.list (sanitizeForbiddenItems_eq_self items h)
  | .dict entries, h => congrArg Json.dict (sanitizeForbiddenEntries_eq_self entries h)
  | .null, _ => rfl
  | .bool _, _ => rfl
  | .int _, _ => rfl
  | .float _, _ => rfl
  | .str _, _ => rfl

theorem sanitizeForbiddenItems_eq_self : ∀ items : List (Json F), KeysAdmittedItems T items →
    sanitizeForbiddenItems T items = items
  | [], _ => rfl
  | v :: items, h => congrArg₂ List.cons (sanitizeForbiddenFields_eq_self v h.1)
    (sanitizeForbiddenItems_eq_self items h.2)

theorem sanitizeForbiddenEntries_eq_self : ∀ entries : List (Text × Json F),
    KeysAdmittedEntries T entries → sanitizeForbiddenEntries T entries = entries
  | [], _ => rfl
  | (key, v) :: entries, h => by
    rw [sanitizeForbiddenEntries, if_neg (by simp [h.1.1]), sanitizeForbiddenFields_eq_self v h.1.2,
      sanitizeForbiddenEntries_eq_self entries h.2]

end

end Tendwire.Public
