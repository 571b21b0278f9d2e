import Tendwire.Installation.Loads

/-!
# Resets of the installation key

A reset takes the marker, the key and the sentinel away in this order, and only from a directory
that was complete. What it leaves unfinished is not coherent.
-/

namespace Tendwire

open Concurrency Program FileOperation

/-- What resets do to a directory, seen by another reset. -/
structure ResetSteps (d d' : DataDirectory) : Prop where
  removes : ∀ name, d' name = d name ∨ d' name = none
  markerFirst : ∀ m, d' .marker = some m → d' = d
  sentinelLast : d' .sentinel = none → d .sentinel ≠ none → d' .marker = none ∧ d' .key = none

/-- What an operation of a reset may do. The last file goes with the last operation. -/
inductive ResetPromise (digest : Bytes → Bytes) (op : FileOperation) (d : DataDirectory) :
    DataDirectory → Option Bool → Prop where
  | keep (ending) : (∀ size, op ≠ .randomBytes size) → ResetPromise digest op d d ending
  | marker (ending) {m s : DataFile} : Coherent digest d → d .marker = some m →
      d .sentinel = some s → op = .unlink .marker →
      ResetPromise digest op d (Function.update d .marker none) ending
  | key (ending) {s : DataFile} : d .marker = none → d .sentinel = some s →
      op = .unlink .key → ResetPromise digest op d (Function.update d .key none) ending
  | sentinel : d .marker = none → d .key = none → op = .unlink .sentinel →
      ResetPromise digest op d (Function.update d .sentinel none) (some true)

variable {digest : Bytes → Bytes} {d d' d'' : DataDirectory} {name : InstallationFile}
  {op : FileOperation} {ending : Option Bool}

lemma ResetSteps.refl (d : DataDirectory) : ResetSteps d d :=
  ⟨fun _ => .inl rfl, fun _ _ => rfl, fun h h' => absurd h h'⟩

lemma ResetSteps.none (h : ResetSteps d d') (hname : d name = none) : d' name = none :=
  (h.removes name).elim (·.trans hname) id

lemma ResetSteps.some (h : ResetSteps d d') {f : DataFile} (hname : d' name = some f) :
    d name = some f := by
  rcases h.removes name with heq | hnone
  · rw [← heq]
    exact hname
  · rw [hname] at hnone
    cases hnone

lemma ResetSteps.trans (h : ResetSteps d d') (h' : ResetSteps d' d'') : ResetSteps d d'' := by
  refine ⟨fun name => ?_, fun m hm => ?_, fun hgone hthere => ?_⟩
  · rcases h'.removes name with heq | hnone
    · rw [heq]
      exact h.removes name
    · exact .inr hnone
  · have heq := h'.markerFirst m hm
    subst heq
    exact h.markerFirst m hm
  · by_cases hbetween : d' .sentinel = Option.none
    · obtain ⟨hm, hk⟩ := h.sentinelLast hbetween hthere
      exact ⟨h'.none hm, h'.none hk⟩
    · exact h'.sentinelLast hgone hbetween

lemma ResetPromise.steps (h : ResetPromise digest op d d' ending) : ResetSteps d d' := by
  have hother : ∀ name other, other ≠ name → Function.update d name none other = d other :=
    fun name other hne => Function.update_of_ne hne _ _
  have hremoves : ∀ name other, Function.update d name none other = d other ∨
      Function.update d name none other = none := by
    intro name other
    by_cases hne : other = name
    · subst hne
      exact .inr (Function.update_self _ _ _)
    · exact .inl (hother name other hne)
  cases h with
  | keep => exact ResetSteps.refl d
  | marker =>
    refine ⟨hremoves _, fun m hm => ?_, fun hgone hthere => absurd ?_ hthere⟩
    · rw [Function.update_self] at hm
      cases hm
    · rwa [hother .marker .sentinel nofun] at hgone
  | key _ hmarker =>
    refine ⟨hremoves _, fun m hm => ?_, fun hgone hthere => absurd ?_ hthere⟩
    · rw [hother .key .marker nofun, hmarker] at hm
      cases hm
    · rwa [hother .key .sentinel nofun] at hgone
  | sentinel hmarker hkey =>
    refine ⟨hremoves _, fun m hm => ?_, fun _ _ => ⟨?_, ?_⟩⟩
    · rw [hother .sentinel .marker nofun, hmarker] at hm
      cases hm
    · rwa [hother .sentinel .marker nofun]
    · rwa [hother .sentinel .key nofun]

def resetTerms (digest : Bytes → Bytes) : Terms DataDirectory FileOperation Chance Answer where
  exec := FileOperation.exec
  rely := ResetSteps
  promise op d d' ending := ResetPromise digest op d d' ending
  refl := ResetSteps.refl
  trans _ _ _ := ResetSteps.trans

lemma resetTerms_reading : Reading (resetTerms digest) :=
  ⟨rfl, fun _ _ ending => .keep ending nofun, fun _ _ ending => .keep ending nofun⟩

/-- A reset that has answered leaves nothing. -/
def ResetAnswer (d : DataDirectory) (o : Option Unit) : Prop := o = some () → ∀ name, d name = none

/-- A file was there at some point, with the content that was read. -/
def WasRead (d : DataDirectory) (name : InstallationFile) (content : Bytes) (n : ℕ) : Prop :=
  ∃ u f, ResetSteps u d ∧ u name = some f ∧ f.content = content ∧ content.length = n

lemma WasRead.later {content : Bytes} {n : ℕ} (h : WasRead d name content n)
    (hsteps : ResetSteps d d') : WasRead d' name content n := by
  obtain ⟨u, f, hu, hrest⟩ := h
  exact ⟨u, f, hu.trans hsteps, hrest⟩

/-- While the marker is there, so is everything that was read. -/
lemma WasRead.current {content : Bytes} {n : ℕ} (h : WasRead d name content n) {m : DataFile}
    (hm : d .marker = some m) : ∃ f, d name = some f ∧ f.content = content ∧ content.length = n := by
  obtain ⟨u, f, hu, hf, hrest⟩ := h
  have heq := hu.markerFirst m hm
  subst heq
  exact ⟨f, hf, hrest⟩

lemma safe_wasRead {n : ℕ} : (resetTerms digest).inner.Safe
    (fun t o => ResetSteps d t ∧ ∀ a, o = some a → WasRead t name a.1 n)
    (readExactFile name n) d := by
  refine resetTerms_reading.inner.safe_readExactFile.imp ?_
  rintro t o ⟨ht, hread⟩
  refine ⟨ht, fun a ha => ?_⟩
  obtain ⟨u, f, -, hut, hf, rfl, hlen⟩ := hread a ha
  exact ⟨u, f, hut, hf, rfl, hlen⟩

lemma safe_verifiedStep {i : ℕ} {next : Unit → FileProgram Unit}
    (hnext : ∀ t, ResetSteps d t → (resetTerms digest).Safe ResetAnswer (next ()) t) :
    (resetTerms digest).Safe ResetAnswer (verifyIdentityEntry name i >>= next) d :=
  resetTerms_reading.inner.safe_verifyIdentityEntry.bind (fun _ t ht => hnext t ht) (fun _ _ => nofun)

/-- A removal, the last operation of its program or not. -/
lemma Reading.safe_unlinkVerifiedEntry {T : Terms DataDirectory FileOperation Chance Answer}
    (h : Reading T) {post : DataDirectory → Option Unit → Prop} {i : ℕ}
    (hremoved : ∀ t, T.rely d t → t name ≠ none →
      T.promise (.unlink name) t (Function.update t name none) (some true) ∧
        ∀ u, T.rely (Function.update t name none) u → post u (some ()))
    (hmissing : ∀ t, T.promise (.unlink name) t t (some false))
    (hfail : ∀ t, T.rely d t → post t none) :
    T.Safe post (unlinkVerifiedEntry name i) d := by
  refine h.inner.safe_verifyEntryIdentity.bind ?_ hfail
  intro _ t ht u c hu
  have hdu := T.trans _ _ _ ht hu
  rw [h.exec]
  cases hname : u name with
  | none =>
    have hexec : FileOperation.exec c (.unlink name) u = (false, u) := by
      simp [FileOperation.exec, hname]
    rw [hexec]
    exact ⟨hmissing u, fun v hv => hfail v (T.trans _ _ _ hdu hv)⟩
  | some f =>
    have hexec : FileOperation.exec c (.unlink name) u =
        (true, Function.update u name none) := by
      simp [FileOperation.exec, hname]
    rw [hexec]
    exact hremoved u hdu (by simp [hname])

lemma safe_removeMarker {key : Bytes} (hkey : WasRead d .key key installationKeyBytes)
    (hmarker : WasRead d .marker (digest key) (digest key).length)
    (hsentinel : WasRead d .sentinel sentinelContent sentinelContent.length) {i : ℕ} :
    (resetTerms digest).inner.Safe (fun t o => ResetSteps d t ∧ (o = some () → t .marker = none))
      (unlinkVerifiedEntry .marker i) d := by
  refine resetTerms_reading.inner.safe_unlinkVerifiedEntry (fun t ht hthere => ?_)
    (fun t _ => .keep _ nofun) (fun t ht => ⟨ht, nofun⟩)
  obtain ⟨m, hm⟩ := Option.ne_none_iff_exists'.mp hthere
  obtain ⟨f, hf, rfl, hlen⟩ := (hkey.later ht).current hm
  obtain ⟨m', hm', hcontent, -⟩ := (hmarker.later ht).current hm
  obtain ⟨s, hs, hs', -⟩ := (hsentinel.later ht).current hm
  rw [hm] at hm'
  cases hm'
  have hpromise : ∀ ending, ResetPromise digest (.unlink .marker) t
      (Function.update t .marker none) ending :=
    fun ending => .marker ending (.of_all hf hm hs hlen hcontent hs') hm hs rfl
  refine ⟨hpromise, fun u hu => ⟨?_, fun _ => ?_⟩⟩
  · exact ResetSteps.trans ht ((hpromise none).steps.trans hu)
  · exact ResetSteps.none hu (Function.update_self _ _ _)

lemma safe_removeKey {sentinel : Bytes} {n : ℕ} (hmarker : d .marker = none)
    (hsentinel : WasRead d .sentinel sentinel n) {i : ℕ} :
    (resetTerms digest).inner.Safe (fun t o => ResetSteps d t ∧ (o = some () → t .key = none))
      (unlinkVerifiedEntry .key i) d := by
  refine resetTerms_reading.inner.safe_unlinkVerifiedEntry (fun t ht hthere => ?_)
    (fun t _ => .keep _ nofun) (fun t ht => ⟨ht, nofun⟩)
  obtain ⟨u, s, hu, hs, -⟩ := hsentinel.later ht
  obtain ⟨s', hs'⟩ : ∃ s', t .sentinel = some s' := by
    refine Option.ne_none_iff_exists'.mp fun hgone => hthere ?_
    exact (hu.sentinelLast hgone (by simp [hs])).2
  have hpromise : ∀ ending, ResetPromise digest (.unlink .key) t
      (Function.update t .key none) ending :=
    fun ending => .key ending (ResetSteps.none ht hmarker) hs' rfl
  refine ⟨hpromise, fun v hv => ⟨?_, fun _ => ?_⟩⟩
  · exact ResetSteps.trans ht ((hpromise none).steps.trans hv)
  · exact ResetSteps.none hv (Function.update_self _ _ _)

lemma safe_removeSentinel (hmarker : d .marker = none) (hkey : d .key = none) {i : ℕ} :
    (resetTerms digest).Safe ResetAnswer (unlinkVerifiedEntry .sentinel i) d := by
  refine resetTerms_reading.safe_unlinkVerifiedEntry (fun t ht _ => ?_)
    (fun t => .keep _ nofun) (fun t _ => nofun)
  have hpromise : ResetPromise digest (.unlink .sentinel) t (Function.update t .sentinel none)
      (some true) := .sentinel (ResetSteps.none ht hmarker) (ResetSteps.none ht hkey) rfl
  refine ⟨hpromise, fun u hu _ name => ?_⟩
  have hgone : ResetSteps d u := ResetSteps.trans ht (hpromise.steps.trans hu)
  cases name with
  | key => exact hgone.none hkey
  | marker => exact hgone.none hmarker
  | sentinel => exact ResetSteps.none hu (Function.update_self _ _ _)

/-- Every reset is safe wherever it starts. -/
theorem safe_resetInstallationKey (acknowledged : Bool) :
    (resetTerms digest).Safe ResetAnswer (resetInstallationKey digest acknowledged) d := by
  cases acknowledged with
  | false => exact fun t _ => nofun
  | true =>
    refine safe_wasRead.bind ?_ (fun _ _ => nofun)
    rintro ⟨key, keyIdentity⟩ t ⟨-, hkey⟩
    replace hkey := hkey _ rfl
    refine safe_wasRead.bind ?_ (fun _ _ => nofun)
    rintro ⟨marker, markerIdentity⟩ u ⟨hu, hmarker⟩
    replace hmarker := hmarker _ rfl
    refine safe_wasRead.bind ?_ (fun _ _ => nofun)
    rintro ⟨sentinel, sentinelIdentity⟩ v ⟨hv, hsentinel⟩
    replace hsentinel := hsentinel _ rfl
    replace hkey := hkey.later (hu.trans hv)
    replace hmarker := hmarker.later hv
    dsimp only at hkey hmarker hsentinel ⊢
    split
    swap
    · exact fun _ _ => nofun
    next hcontent =>
    obtain ⟨rfl, rfl⟩ := hcontent
    refine safe_verifiedStep fun w hw => safe_verifiedStep fun x hx => safe_verifiedStep fun y hy => ?_
    have hvy := (hw.trans hx).trans hy
    refine (safe_removeMarker (hkey.later hvy) (hmarker.later hvy) (hsentinel.later hvy)).bind ?_
      (fun _ _ => nofun)
    rintro ⟨⟩ z ⟨hz, hnone⟩
    have hmarkerGone := hnone rfl
    refine (safe_removeKey hmarkerGone ((hsentinel.later hvy).later hz)).bind ?_ (fun _ _ => nofun)
    rintro ⟨⟩ z' ⟨hz', hnone'⟩
    exact safe_removeSentinel (hz'.none hmarkerGone) (hnone' rfl)

end Tendwire
