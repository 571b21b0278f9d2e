import Tendwire.Installation.Key

/-!
# Reading the files of an identity

What the inspecting programs answer, next to others that only add files and next to others that
only remove them.
-/

namespace Tendwire

open Concurrency Program FileOperation

/-- Terms under which inspecting is allowed at any time. -/
structure Reading (T : Terms DataDirectory FileOperation Chance Answer) : Prop where
  exec : T.exec = FileOperation.exec
  lstat : ∀ name d ending, T.promise (.lstat name) d d ending
  openRead : ∀ name d ending, T.promise (.openRead name) d d ending

/-- Terms under which nobody takes a file away or changes it. -/
structure Persisting (T : Terms DataDirectory FileOperation Chance Answer) : Prop
    extends Reading T where
  persists : ∀ d d', T.rely d d' → ∀ name file, d name = some file → d' name = some file

variable {α : Type} {T : Terms DataDirectory FileOperation Chance Answer}
  {post : DataDirectory → Option α → Prop} {d d' : DataDirectory} {name : InstallationFile}
  {file : DataFile}

lemma Reading.inner (h : Reading T) : Reading T.inner :=
  ⟨h.exec, fun name d _ ending => h.lstat name d ending,
    fun name d _ ending => h.openRead name d ending⟩

lemma Persisting.inner (h : Persisting T) : Persisting T.inner :=
  ⟨h.toReading.inner, h.persists⟩

lemma Reading.safe_lstatAt (h : Reading T) {next : Option ℕ → FileProgram α}
    (hnext : ∀ t, T.rely d t → T.Safe post (next ((t name).map DataFile.inode)) t) :
    T.Safe post (lstatAt name >>= next) d := by
  intro t c ht
  rw [h.exec]
  exact ⟨h.lstat name t _, hnext t ht⟩

lemma Reading.safe_openRead (h : Reading T) {next : Option DataFile → FileProgram α}
    (hnext : ∀ t, T.rely d t → T.Safe post (next (t name)) t) :
    T.Safe post (operate (.openRead name) >>= next) d := by
  intro t c ht
  rw [h.exec]
  exact ⟨h.openRead name t _, hnext t ht⟩

/-! ### Next to programs that add files -/

section Persisting

lemma Persisting.safe_verifyEntryIdentity (h : Persisting T) (hfile : d name = some file) :
    T.Safe (fun t o => T.rely d t ∧ o = some ()) (verifyEntryIdentity name file.inode) d := by
  refine h.safe_lstatAt fun t ht => ?_
  rw [h.persists _ _ ht _ _ hfile, Option.map_some, if_pos rfl]
  exact fun u hu => ⟨T.trans _ _ _ ht hu, rfl⟩

lemma Persisting.safe_verifyIdentityEntry (h : Persisting T) (hfile : d name = some file) :
    T.Safe (fun t o => T.rely d t ∧ o = some ()) (verifyIdentityEntry name file.inode) d := by
  refine (h.inner.safe_verifyEntryIdentity hfile).bind ?_ (fun t ht => nomatch ht.2)
  rintro - t ⟨ht, -⟩
  refine h.safe_lstatAt fun u hu => ?_
  have hdu := T.trans _ _ _ ht hu
  refine (h.safe_verifyEntryIdentity (h.persists _ _ hdu _ _ hfile)).imp fun v o hv => ?_
  exact ⟨T.trans _ _ _ hdu hv.1, hv.2⟩

/-- The identity of an entry that is there, now or at some point of the inspection. -/
lemma Persisting.safe_identityEntry (h : Persisting T) :
    T.Safe (fun t o => T.rely d t ∧
      ((o = some none ∧ ∃ u, T.rely d u ∧ T.rely u t ∧ u name = none) ∨
        ∃ f, o = some (some f.inode) ∧ t name = some f)) (identityEntry name) d := by
  refine h.safe_lstatAt fun t ht => ?_
  cases hf : t name with
  | none =>
    intro u hu
    exact ⟨T.trans _ _ _ ht hu, Or.inl ⟨rfl, t, ht, hu, hf⟩⟩
  | some f =>
    refine h.safe_lstatAt fun u hu => ?_
    have hfu := h.persists _ _ hu _ _ hf
    rw [hfu]
    refine (h.inner.safe_verifyIdentityEntry hfu).bind ?_ (fun t ht => nomatch ht.2)
    rintro - v ⟨hv, -⟩
    have hdv := T.trans _ _ _ (T.trans _ _ _ ht hu) hv
    intro x hx
    have hux := T.trans _ _ _ hv hx
    exact ⟨T.trans _ _ _ hdv hx, Or.inr ⟨f, rfl, h.persists _ _ hux _ _ hfu⟩⟩

lemma Persisting.safe_identityEntry_of_some (h : Persisting T) (hfile : d name = some file) :
    T.Safe (fun t o => T.rely d t ∧ o = some (some file.inode)) (identityEntry name) d := by
  refine h.safe_identityEntry.imp ?_
  rintro t o ⟨ht, ⟨-, u, hu, -, hnone⟩ | ⟨f, ho, hf⟩⟩
  · rw [h.persists _ _ hu _ _ hfile] at hnone
    cases hnone
  · rw [h.persists _ _ ht _ _ hfile] at hf
    cases hf
    exact ⟨ht, ho⟩

lemma Persisting.safe_openPrivateFileAt (h : Persisting T) (hfile : d name = some file) :
    T.Safe (fun t o => T.rely d t ∧ o = some file) (openPrivateFileAt name) d := by
  refine h.safe_lstatAt fun t ht => ?_
  have hft := h.persists _ _ ht _ _ hfile
  rw [hft]
  refine h.safe_openRead fun u hu => ?_
  rw [h.persists _ _ hu _ _ hft]
  simp only [if_true]
  exact fun v hv => ⟨T.trans _ _ _ (T.trans _ _ _ ht hu) hv, rfl⟩

lemma length_take_succ {content : Bytes} {n : ℕ} :
    (content.take (n + 1)).length = n ↔ content.length = n := by
  rw [List.length_take]
  omega

/-- A file that is there is read, unless its length is not the expected one. -/
lemma Persisting.safe_readExactFile (h : Persisting T) (hfile : d name = some file) {n : ℕ} :
    T.Safe (fun t o => T.rely d t ∧ ((o = some (file.content, file.inode) ∧
      file.content.length = n) ∨ (o = none ∧ file.content.length ≠ n)))
      (readExactFile name n) d := by
  refine (h.inner.safe_identityEntry_of_some hfile).bind ?_ (fun t ht => nomatch ht.2)
  rintro a t ⟨ht, ha⟩
  cases ha
  have hft := h.persists _ _ ht _ _ hfile
  refine (h.inner.safe_openPrivateFileAt hft).bind ?_ (fun t ht => nomatch ht.2)
  rintro a u ⟨hu, ha⟩
  cases ha
  have hfu := h.persists _ _ hu _ _ hft
  rw [if_pos rfl]
  refine (h.inner.safe_verifyIdentityEntry hfu).bind ?_ (fun t ht => nomatch ht.2)
  rintro - v ⟨hv, -⟩
  have hdv := T.trans _ _ _ ht (T.trans _ _ _ hu hv)
  split
  · next hlen =>
    have hn := length_take_succ.mp hlen
    rw [List.take_of_length_le (by omega)]
    exact fun x hx => ⟨T.trans _ _ _ hdv hx, Or.inl ⟨rfl, hn⟩⟩
  · next hlen =>
    exact fun x hx => ⟨T.trans _ _ _ hdv hx, Or.inr ⟨rfl, fun hn => hlen (length_take_succ.mpr hn)⟩⟩

end Persisting

/-! ### Next to programs that remove files -/

/-- A program that only inspects runs under any terms that allow it. -/
lemma Reading.safe_verifyEntryIdentity (h : Reading T) {expected : ℕ} :
    T.Safe (fun t _ => T.rely d t) (verifyEntryIdentity name expected) d := by
  refine h.safe_lstatAt fun t ht => ?_
  split
  · exact fun u hu => T.trans _ _ _ ht hu
  · exact fun u hu => T.trans _ _ _ ht hu

lemma Reading.safe_verifyIdentityEntry (h : Reading T) {expected : ℕ} :
    T.Safe (fun t _ => T.rely d t) (verifyIdentityEntry name expected) d := by
  refine h.inner.safe_verifyEntryIdentity.bind ?_ (fun t ht => ht)
  intro _ t ht
  refine h.safe_lstatAt fun u hu => ?_
  exact h.safe_verifyEntryIdentity.imp fun v o hv => T.trans _ _ _ ht (T.trans _ _ _ hu hv)

lemma Reading.safe_identityEntry (h : Reading T) :
    T.Safe (fun t _ => T.rely d t) (identityEntry name) d := by
  refine h.safe_lstatAt fun t ht => ?_
  split
  · exact fun u hu => T.trans _ _ _ ht hu
  · refine h.safe_lstatAt fun u hu => ?_
    have hdu := T.trans _ _ _ ht hu
    split
    · exact fun v hv => T.trans _ _ _ hdu hv
    · refine h.inner.safe_verifyIdentityEntry.bind ?_ (fun v hv => T.trans _ _ _ hdu hv)
      exact fun _ v hv x hx => T.trans _ _ _ hdu (T.trans _ _ _ hv hx)

/-- What is opened is a file that was there. -/
lemma Reading.safe_openPrivateFileAt (h : Reading T) :
    T.Safe (fun t o => T.rely d t ∧ ∀ f, o = some f → ∃ u, T.rely d u ∧ T.rely u t ∧
      u name = some f) (openPrivateFileAt name) d := by
  refine h.safe_lstatAt fun t ht => ?_
  split
  · exact fun u hu => ⟨T.trans _ _ _ ht hu, fun f hf => by cases hf⟩
  · refine h.safe_openRead fun u hu => ?_
    have hdu := T.trans _ _ _ ht hu
    split
    · exact fun v hv => ⟨T.trans _ _ _ hdu hv, fun f hf => by cases hf⟩
    · next f hf =>
      split
      · intro v hv
        refine ⟨T.trans _ _ _ hdu hv, fun g hg => ?_⟩
        cases hg
        exact ⟨u, hdu, hv, hf⟩
      · exact fun v hv => ⟨T.trans _ _ _ hdu hv, fun f hf => by cases hf⟩

/-- What is read is the content of a file that was there. -/
lemma Reading.safe_readExactFile (h : Reading T) {n : ℕ} :
    T.Safe (fun t o => T.rely d t ∧ ∀ a, o = some a → ∃ u f, T.rely d u ∧ T.rely u t ∧
      u name = some f ∧ a = (f.content, f.inode) ∧ f.content.length = n)
      (readExactFile name n) d := by
  refine h.inner.safe_identityEntry.bind ?_ (fun t ht => ⟨ht, nofun⟩)
  intro a t ht
  cases a with
  | none => exact fun u hu => ⟨T.trans _ _ _ ht hu, nofun⟩
  | some expected =>
    refine h.inner.safe_openPrivateFileAt.bind ?_ (fun u hu => ⟨T.trans _ _ _ ht hu.1, nofun⟩)
    rintro f u ⟨hu, hopened⟩
    obtain ⟨v, htv, hvu, hf⟩ := hopened f rfl
    have hdu := T.trans _ _ _ ht hu
    split
    · next hinode =>
      refine h.inner.safe_verifyIdentityEntry.bind ?_ (fun x hx => ⟨T.trans _ _ _ hdu hx, nofun⟩)
      intro _ x hx
      split
      · next hlen =>
        intro y hy
        refine ⟨T.trans _ _ _ hdu (T.trans _ _ _ hx hy), fun b hb => ?_⟩
        cases hb
        have hn := length_take_succ.mp hlen
        refine ⟨v, f, T.trans _ _ _ ht htv, T.trans _ _ _ hvu (T.trans _ _ _ hx hy), hf, ?_, hn⟩
        rw [List.take_of_length_le (by omega), hinode]
      · exact fun y hy => ⟨T.trans _ _ _ hdu (T.trans _ _ _ hx hy), nofun⟩
    · exact fun x hx => ⟨T.trans _ _ _ hdu hx, nofun⟩

end Tendwire
