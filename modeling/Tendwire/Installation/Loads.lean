import Tendwire.Installation.Reads

/-!
# Loads of the installation key

Loads keep a coherent directory coherent and leave any other one alone. A load of a coherent
directory answers its key, and a load of any other one fails.
-/

namespace Tendwire

open Concurrency Program FileOperation

variable (digest : Bytes → Bytes)

/-- Whatever is there was published in the order key, marker, sentinel. -/
structure Coherent (d : DataDirectory) : Prop where
  key : ∀ f, d .key = some f → f.content.length = installationKeyBytes
  marker : ∀ m, d .marker = some m → ∃ f, d .key = some f ∧ m.content = digest f.content
  sentinel : ∀ s, d .sentinel = some s → s.content = sentinelContent ∧ ∃ m, d .marker = some m

/-- What a load does to a directory, seen by another load. -/
structure LoadSteps (d d' : DataDirectory) : Prop where
  coherent : Coherent digest d → Coherent digest d'
  persists : ∀ name file, d name = some file → d' name = some file
  untouched : ¬Coherent digest d → d' = d

variable {digest} {d d' d'' d₀ : DataDirectory} {name : InstallationFile} {file : DataFile}

lemma LoadSteps.refl (d : DataDirectory) : LoadSteps digest d d := ⟨id, fun _ _ => id, fun _ => rfl⟩

lemma LoadSteps.trans (h : LoadSteps digest d d') (h' : LoadSteps digest d' d'') :
    LoadSteps digest d d'' := by
  refine ⟨h'.coherent ∘ h.coherent, fun name f hf => h'.persists _ _ (h.persists _ _ hf),
    fun hd => ?_⟩
  have heq := h.untouched hd
  subst heq
  exact h'.untouched hd

lemma LoadSteps.incoherent (h : LoadSteps digest d d') (hd : ¬Coherent digest d) :
    ¬Coherent digest d' := by
  rwa [h.untouched hd]

/-- A directory with all three files. -/
lemma Coherent.of_all {f m s : DataFile} (hf : d .key = some f) (hm : d .marker = some m)
    (hs : d .sentinel = some s) (hkey : f.content.length = installationKeyBytes)
    (hmarker : m.content = digest f.content) (hsentinel : s.content = sentinelContent) :
    Coherent digest d := by
  constructor
  · intro f' hf'
    rw [hf] at hf'
    cases hf'
    exact hkey
  · intro m' hm'
    rw [hm] at hm'
    cases hm'
    exact ⟨f, hf, hmarker⟩
  · intro s' hs'
    rw [hs] at hs'
    cases hs'
    exact ⟨hsentinel, m, hm⟩

/-! ### Publishing -/

/-- A missing entry that a coherent directory may get. -/
def Fits (digest : Bytes → Bytes) (d : DataDirectory) (name : InstallationFile) (content : Bytes) :
    Prop :=
  match name with
  | .key => content.length = installationKeyBytes
  | .marker => ∃ f, d .key = some f ∧ content = digest f.content
  | .sentinel => content = sentinelContent ∧ ∃ m, d .marker = some m

lemma Coherent.publish (hd : Coherent digest d) (hname : d name = none) {content : Bytes}
    (hfits : Fits digest d name content) {inode : ℕ} :
    Coherent digest (Function.update d name (some ⟨inode, content⟩)) := by
  have hold : ∀ other, other ≠ name →
      Function.update d name (some ⟨inode, content⟩) other = d other :=
    fun other hne => Function.update_of_ne hne _ _
  cases name with
  | key =>
    have hmarker : d .marker = none := by
      cases hm : d .marker with
      | none => rfl
      | some m =>
        obtain ⟨f, hf, -⟩ := hd.marker m hm
        rw [hname] at hf
        cases hf
    constructor
    · intro f hf
      rw [Function.update_self] at hf
      cases hf
      exact hfits
    · intro m hm
      rw [hold .marker nofun, hmarker] at hm
      cases hm
    · intro s hs
      rw [hold .sentinel nofun] at hs
      obtain ⟨-, m, hm⟩ := hd.sentinel s hs
      rw [hmarker] at hm
      cases hm
  | marker =>
    obtain ⟨f, hf, hcontent⟩ := hfits
    constructor
    · intro f' hf'
      rw [hold .key nofun] at hf'
      exact hd.key f' hf'
    · intro m hm
      rw [Function.update_self] at hm
      cases hm
      exact ⟨f, (hold .key nofun).trans hf, hcontent⟩
    · intro s hs
      rw [hold .sentinel nofun] at hs
      obtain ⟨-, m, hm⟩ := hd.sentinel s hs
      rw [hname] at hm
      cases hm
  | sentinel =>
    obtain ⟨hcontent, m, hm⟩ := hfits
    constructor
    · intro f hf
      rw [hold .key nofun] at hf
      exact hd.key f hf
    · intro m' hm'
      rw [hold .marker nofun] at hm'
      obtain ⟨f, hf, hdigest⟩ := hd.marker m' hm'
      exact ⟨f, (hold .key nofun).trans hf, hdigest⟩
    · intro s hs
      rw [Function.update_self] at hs
      cases hs
      exact ⟨hcontent, m, (hold .marker nofun).trans hm⟩

lemma LoadSteps.publish (hd : Coherent digest d) (hname : d name = none) {content : Bytes}
    (hfits : Fits digest d name content) (inode : ℕ) :
    LoadSteps digest d (Function.update d name (some ⟨inode, content⟩)) := by
  refine ⟨fun _ => hd.publish hname hfits, fun other f hf => ?_, fun h => absurd hd h⟩
  by_cases hne : other = name
  · subst hne
    rw [hname] at hf
    cases hf
  · rw [Function.update_of_ne hne]
    exact hf

lemma Fits.later {content : Bytes} (h : Fits digest d name content)
    (hsteps : LoadSteps digest d d') : Fits digest d' name content := by
  cases name with
  | key => exact h
  | marker =>
    obtain ⟨f, hf, hcontent⟩ := h
    exact ⟨f, hsteps.persists _ _ hf, hcontent⟩
  | sentinel =>
    obtain ⟨hcontent, m, hm⟩ := h
    exact ⟨hcontent, m, hsteps.persists _ _ hm⟩

/-! ### A load -/

/-- What a load started in `d₀` promises: random bytes are drawn for a first start only. -/
structure LoadPromise (digest : Bytes → Bytes) (d₀ : DataDirectory) (op : FileOperation)
    (d d' : DataDirectory) : Prop where
  steps : LoadSteps digest d d'
  draws : ∀ size, op = .randomBytes size → d₀ .key = none ∧ Coherent digest d₀

def loadTerms (digest : Bytes → Bytes) (d₀ : DataDirectory) :
    Terms DataDirectory FileOperation Chance Answer where
  exec := FileOperation.exec
  rely := LoadSteps digest
  promise op d d' _ := LoadPromise digest d₀ op d d'
  refl := LoadSteps.refl
  trans _ _ _ := LoadSteps.trans

lemma loadTerms_persisting : Persisting (loadTerms digest d₀) :=
  { exec := rfl
    lstat := fun _ d _ => ⟨LoadSteps.refl d, nofun⟩
    openRead := fun _ d _ => ⟨LoadSteps.refl d, nofun⟩
    persists := fun _ _ h => h.persists }

/-- The promises of a load do not depend on whether it goes on. -/
lemma loadTerms_inner {α : Type} {post : DataDirectory → Option α → Prop} {p : FileProgram α}
    (h : (loadTerms digest d₀).Safe post p d) : (loadTerms digest d₀).inner.Safe post p d := by
  induction p generalizing d with
  | done a => exact h
  | fail => exact h
  | call op next ih =>
    intro t c ht
    obtain ⟨hpromise, hnext⟩ := h t c ht
    exact ⟨fun _ => hpromise, ih _ hnext⟩

/-- The content that a coherent directory has under a name. -/
lemma Coherent.content_of_fits (hd : Coherent digest d) {content : Bytes}
    (hfits : Fits digest d name content) (hfile : d name = some file) :
    file.content.length = content.length ∧ (name ≠ .key → file.content = content) := by
  cases name with
  | key =>
    have hlen : content.length = installationKeyBytes := hfits
    exact ⟨(hd.key file hfile).trans hlen.symm, fun hne => absurd rfl hne⟩
  | marker =>
    obtain ⟨f, hf, rfl⟩ := hfits
    obtain ⟨f', hf', hcontent⟩ := hd.marker file hfile
    rw [hf] at hf'
    cases hf'
    exact ⟨congrArg List.length hcontent, fun _ => hcontent⟩
  | sentinel =>
    obtain ⟨rfl, -⟩ := hfits
    have hcontent := (hd.sentinel file hfile).1
    exact ⟨congrArg List.length hcontent, fun _ => hcontent⟩

/-- Whoever publishes a missing entry of a coherent directory, its content is read. -/
lemma safe_createOrReadFile (hd : Coherent digest d) {content : Bytes}
    (hfits : Fits digest d name content) :
    (loadTerms digest d₀).Safe (fun t o => LoadSteps digest d t ∧
      ∃ f, t name = some f ∧ o = some (f.content, f.inode)) (createOrReadFile name content) d := by
  intro t c ht
  have hread : ∀ u f, LoadSteps digest d u → u name = some f →
      (loadTerms digest d₀).Safe (fun v o => LoadSteps digest d v ∧
        ∃ g, v name = some g ∧ o = some (g.content, g.inode))
        (readExactFile name content.length) u := by
    intro u f hu hf
    refine (loadTerms_persisting.safe_readExactFile hf).imp ?_
    rintro v o ⟨hv, ⟨ho, -⟩ | ⟨-, hlen⟩⟩
    · exact ⟨hu.trans hv, f, hv.persists _ _ hf, ho⟩
    · exact absurd ((hu.coherent hd).content_of_fits (hfits.later hu) hf).1 hlen
  change LoadPromise digest d₀ _ t (exec c (.publish name content) t).2 ∧
    (loadTerms digest d₀).Safe _ (readExactFile name content.length)
      (exec c (.publish name content) t).2
  cases hname : t name with
  | none =>
    have hsteps := LoadSteps.publish (ht.coherent hd) hname (hfits.later ht) c.inode
    have hexec : (exec c (.publish name content) t).2 =
        Function.update t name (some ⟨c.inode, content⟩) := by
      simp [FileOperation.exec, hname]
    rw [hexec]
    exact ⟨⟨hsteps, nofun⟩, hread _ _ (ht.trans hsteps) (Function.update_self _ _ _)⟩
  | some f =>
    have hexec : (exec c (.publish name content) t).2 = t := by
      simp [FileOperation.exec, hname]
    rw [hexec]
    exact ⟨⟨LoadSteps.refl t, nofun⟩, hread t f ht hname⟩

/-! #### The inspection -/

/-- What a load may conclude from what it has seen since `d₀`. -/
structure Seen (digest : Bytes → Bytes) (d₀ d : DataDirectory) (seen : SeenIdentity) : Prop
    where
  steps : LoadSteps digest d₀ d
  key_none : seen.key = none → d₀ .key = none
  marker_none : seen.marker = none → d₀ .marker = none
  sentinel_none : seen.sentinel = none → d₀ .sentinel = none
  key_some : seen.key ≠ none → ∃ f, d .key = some f
  marker_some : seen.marker ≠ none → ∃ m, d .marker = some m
  sentinel_some : ∀ i, seen.sentinel = some i →
    ∃ s, d .sentinel = some s ∧ s.inode = i ∧ s.content = sentinelContent
  key_of_marker : seen.marker ≠ none → seen.key ≠ none
  marker_of_sentinel : seen.sentinel ≠ none → seen.marker ≠ none

/-- The entry was missing at some point, or it is there. -/
structure Inspected (digest : Bytes → Bytes) (name : InstallationFile) (d₀ d : DataDirectory)
    (seen : Option ℕ) : Prop where
  steps : LoadSteps digest d₀ d
  missing : seen = none → ∃ u, LoadSteps digest d₀ u ∧ LoadSteps digest u d ∧ u name = none
  found : ∀ i, seen = some i → ∃ f, d name = some f ∧ f.inode = i

lemma Inspected.later {seen : Option ℕ} (h : Inspected digest name d₀ d seen)
    (hsteps : LoadSteps digest d d') : Inspected digest name d₀ d' seen := by
  refine ⟨h.steps.trans hsteps, fun hnone => ?_, fun i hi => ?_⟩
  · obtain ⟨u, hu, hud, huname⟩ := h.missing hnone
    exact ⟨u, hu, hud.trans hsteps, huname⟩
  · obtain ⟨f, hf, hinode⟩ := h.found i hi
    exact ⟨f, hsteps.persists _ _ hf, hinode⟩

lemma Inspected.origin {seen : Option ℕ} (h : Inspected digest name d₀ d seen)
    (hnone : seen = none) : d₀ name = none := by
  obtain ⟨u, hu, -, huname⟩ := h.missing hnone
  cases hd : d₀ name with
  | none => rfl
  | some f =>
    rw [hu.persists _ _ hd] at huname
    cases huname

lemma safe_inspect (h : LoadSteps digest d d') : (loadTerms digest d₀).Safe
    (fun t o => ∃ seen, o = some seen ∧ LoadSteps digest d' t ∧ Inspected digest name d t seen)
    (identityEntry name) d' := by
  refine loadTerms_persisting.safe_identityEntry.imp ?_
  rintro t o ⟨ht, ⟨rfl, u, hdu, hut, hnone⟩ | ⟨f, rfl, hf⟩⟩
  · exact ⟨none, rfl, ht, h.trans ht, fun _ => ⟨u, h.trans hdu, hut, hnone⟩, nofun⟩
  · refine ⟨some f.inode, rfl, ht, h.trans ht, nofun, fun i hi => ?_⟩
    cases hi
    exact ⟨f, hf, rfl⟩

/-- An entry that is looked at once more was missing after `d'`. -/
lemma safe_refreshed {again : Bool} {seen : Option ℕ} (h : Inspected digest name d d' seen) :
    (loadTerms digest d₀).Safe (fun t o => ∃ now, o = some now ∧ LoadSteps digest d' t ∧
      Inspected digest name d t now ∧ (again = true → Inspected digest name d' t now) ∧
      (again = false → now = seen)) (refreshed again name seen) d' := by
  unfold refreshed
  cases again with
  | true =>
    refine (safe_inspect (LoadSteps.refl d')).imp ?_
    rintro t o ⟨now, rfl, ht, hnow⟩
    refine ⟨now, rfl, ht, ⟨h.steps.trans ht, fun hnone => ?_, hnow.found⟩, fun _ => hnow, nofun⟩
    obtain ⟨u, hu, hut, hunone⟩ := hnow.missing hnone
    exact ⟨u, h.steps.trans hu, hut, hunone⟩
  | false => exact fun t ht => ⟨seen, rfl, ht, h.later ht, nofun, fun _ => rfl⟩

/-- A missing key or marker behind a later file is not coherent. -/
lemma not_coherent_of_gap {m : DataFile} (hkey : d .key = none) (hm : d .marker = some m) :
    ¬Coherent digest d := by
  intro hd
  obtain ⟨f, hf, -⟩ := hd.marker m hm
  rw [hkey] at hf
  cases hf

lemma not_coherent_of_sentinel {s : DataFile} (hs : d .sentinel = some s)
    (h : s.content ≠ sentinelContent ∨ d .marker = none ∨ d .key = none) :
    ¬Coherent digest d := by
  intro hd
  obtain ⟨hcontent, m, hm⟩ := hd.sentinel s hs
  rcases h with h | h | h
  · exact h hcontent
  · rw [h] at hm
    cases hm
  · exact not_coherent_of_gap h hm hd

/-- A file that was there at some point, behind one that was missing later on. -/
lemma Inspected.gap {seen : Option ℕ} (h : Inspected digest name d₀ d seen) (hnone : seen = none)
    (hgap : ∀ u, LoadSteps digest d₀ u → u name = none → ¬Coherent digest u) :
    ¬Coherent digest d := by
  obtain ⟨u, hu, hud, huname⟩ := h.missing hnone
  exact hud.incoherent (hgap u hu huname)

lemma Inspected.ne_none {seen : Option ℕ} (h : Inspected digest name d₀ d seen)
    (hne : seen ≠ none) : ∃ f, d name = some f := by
  obtain ⟨i, hi⟩ := Option.ne_none_iff_exists'.mp hne
  obtain ⟨f, hf, -⟩ := h.found i hi
  exact ⟨f, hf⟩

/-- What the inspection leaves: something to go on with, or a directory that is not coherent. -/
def InspectedAll (digest : Bytes → Bytes) (d₀ d : DataDirectory) (o : Option SeenIdentity) :
    Prop :=
  (∀ seen, o = some seen → Seen digest d₀ d seen) ∧ (o = none → ¬Coherent digest d)

lemma safe_inspectBehindSentinel {key marker : Option ℕ} {s : DataFile}
    (hkey : Inspected digest .key d₀ d key) (hmarker : Inspected digest .marker d₀ d marker)
    (hs : d .sentinel = some s) :
    (loadTerms digest d₀).Safe (InspectedAll digest d₀) (inspectBehindSentinel key marker) d := by
  refine (loadTerms_inner (loadTerms_persisting.safe_readExactFile hs)).bind ?_ ?_
  swap
  · rintro t ⟨ht, ⟨ho, -⟩ | ⟨-, hlen⟩⟩
    · cases ho
    · refine ⟨nofun, fun _ => ht.incoherent (not_coherent_of_sentinel hs (.inl fun h => hlen ?_))⟩
      rw [h]
  rintro _ t ⟨ht, ⟨ho, -⟩ | ⟨ho, -⟩⟩
  swap
  · cases ho
  cases ho
  have hst := ht.persists _ _ hs
  dsimp only
  split
  swap
  · next hcontent =>
    exact fun u hu => ⟨nofun, fun _ =>
      hu.incoherent (not_coherent_of_sentinel hst (.inl hcontent))⟩
  next hcontent =>
  refine (loadTerms_inner (safe_refreshed (hkey.later ht))).bind ?_
    (by rintro t ⟨_, ho, -⟩; cases ho)
  rintro key' u ⟨_, ho, hu, hkey', hagain, hkept⟩
  cases ho
  refine (loadTerms_inner (safe_refreshed ((hmarker.later ht).later hu))).bind ?_
    (by rintro t ⟨_, ho, -⟩; cases ho)
  rintro marker' v ⟨_, ho, hv, hmarker', hagain', hkept'⟩
  cases ho
  have hsu := hu.persists _ _ hst
  replace hkey' := hkey'.later hv
  split
  · next hnone =>
    refine fun w hw => ⟨nofun, fun _ => hw.incoherent ?_⟩
    rw [Bool.or_eq_true, Option.isNone_iff_eq_none, Option.isNone_iff_eq_none] at hnone
    rcases hnone with rfl | rfl
    · cases hfirst : key.isNone with
      | true =>
        refine ((hagain hfirst).later hv).gap rfl fun x hx hgap => ?_
        exact not_coherent_of_sentinel (hx.persists _ _ hst) (.inr (.inr hgap))
      | false =>
        rw [← hkept hfirst] at hfirst
        cases hfirst
    · cases hfirst : marker.isNone with
      | true =>
        refine (hagain' hfirst).gap rfl fun x hx hgap => ?_
        exact not_coherent_of_sentinel (hx.persists _ _ hsu) (.inr (.inl hgap))
      | false =>
        rw [← hkept' hfirst] at hfirst
        cases hfirst
  · next hboth =>
    rw [Bool.or_eq_true, Option.isNone_iff_eq_none, Option.isNone_iff_eq_none, not_or] at hboth
    refine fun w hw => ⟨fun seen hseen => ?_, nofun⟩
    cases hseen
    have hsw := hw.persists _ _ (hv.persists _ _ hsu)
    exact
      { steps := (hkey'.later hw).steps
        key_none := fun h => absurd h hboth.1
        marker_none := fun h => absurd h hboth.2
        sentinel_none := nofun
        key_some := (hkey'.later hw).ne_none
        marker_some := (hmarker'.later hw).ne_none
        sentinel_some := fun i hi => ⟨s, hsw, Option.some.inj hi, hcontent⟩
        key_of_marker := fun _ => hboth.1
        marker_of_sentinel := fun _ => hboth.2 }

lemma safe_inspectWithoutSentinel {key marker : Option ℕ}
    (hkey : Inspected digest .key d₀ d key) (hmarker : Inspected digest .marker d₀ d marker)
    (hsentinel : Inspected digest .sentinel d₀ d none) :
    (loadTerms digest d₀).Safe (InspectedAll digest d₀) (inspectWithoutSentinel key marker) d := by
  refine (loadTerms_inner (safe_refreshed hkey)).bind ?_ (by rintro t ⟨_, ho, -⟩; cases ho)
  rintro key' t ⟨_, ho, ht, hkey', hagain, hkept⟩
  cases ho
  split
  · next hgap =>
    rw [Bool.and_eq_true, Option.isNone_iff_eq_none] at hgap
    obtain ⟨rfl, hsome⟩ := hgap
    obtain ⟨m, hm⟩ := hmarker.ne_none (Option.isSome_iff_ne_none.mp hsome)
    refine fun u hu => ⟨nofun, fun _ => hu.incoherent ?_⟩
    cases hfirst : (key.isNone && marker.isSome) with
    | true =>
      exact (hagain hfirst).gap rfl fun x hx hxkey => not_coherent_of_gap hxkey (hx.persists _ _ hm)
    | false =>
      rw [← hkept hfirst, hsome] at hfirst
      cases hfirst
  · next hgap =>
    rw [Bool.and_eq_true, Option.isNone_iff_eq_none, Option.isSome_iff_ne_none, not_and_or,
      not_not] at hgap
    refine fun u hu => ⟨fun seen hseen => ?_, nofun⟩
    cases hseen
    exact
      { steps := (hkey'.later hu).steps
        key_none := hkey'.origin
        marker_none := hmarker.origin
        sentinel_none := fun _ => hsentinel.origin rfl
        key_some := (hkey'.later hu).ne_none
        marker_some := ((hmarker.later ht).later hu).ne_none
        sentinel_some := nofun
        key_of_marker := fun h => hgap.resolve_right fun hnone => h hnone
        marker_of_sentinel := fun h => absurd rfl h }

lemma safe_inspectIdentity :
    (loadTerms digest d₀).Safe (InspectedAll digest d₀) inspectIdentity d₀ := by
  refine (loadTerms_inner (safe_inspect (LoadSteps.refl d₀))).bind ?_
    (by rintro t ⟨_, ho, -⟩; cases ho)
  rintro key t ⟨_, ho, ht, hkey⟩
  cases ho
  refine (loadTerms_inner (safe_inspect ht)).bind ?_ (by rintro t ⟨_, ho, -⟩; cases ho)
  rintro marker u ⟨_, ho, hu, hmarker⟩
  cases ho
  refine (loadTerms_inner (safe_inspect (ht.trans hu))).bind ?_ (by rintro t ⟨_, ho, -⟩; cases ho)
  rintro sentinel v ⟨_, ho, hv, hsentinel⟩
  cases ho
  replace hkey := hkey.later (hu.trans hv)
  replace hmarker := hmarker.later hv
  cases sentinel with
  | some i =>
    obtain ⟨s, hs, -⟩ := hsentinel.found i rfl
    exact safe_inspectBehindSentinel hkey hmarker hs
  | none => exact safe_inspectWithoutSentinel hkey hmarker hsentinel

/-! #### Obtaining the files -/

/-- A directory that is not coherent is still the one that the load was started in. -/
lemma Seen.origin {seen : SeenIdentity} (h : Seen digest d₀ d seen)
    (hcoherent : Coherent digest d₀ ∨ (d₀ = d → Coherent digest d)) : Coherent digest d := by
  by_cases hd : Coherent digest d₀
  · exact h.steps.coherent hd
  · exact hcoherent.elim (absurd · hd) fun heq => heq (h.steps.untouched hd).symm

lemma Seen.later {seen : SeenIdentity} (h : Seen digest d₀ d seen)
    (hsteps : LoadSteps digest d d') : Seen digest d₀ d' seen where
  steps := h.steps.trans hsteps
  key_none := h.key_none
  marker_none := h.marker_none
  sentinel_none := h.sentinel_none
  key_some hne := by
    obtain ⟨f, hf⟩ := h.key_some hne
    exact ⟨f, hsteps.persists _ _ hf⟩
  marker_some hne := by
    obtain ⟨m, hm⟩ := h.marker_some hne
    exact ⟨m, hsteps.persists _ _ hm⟩
  sentinel_some i hi := by
    obtain ⟨s, hs, hrest⟩ := h.sentinel_some i hi
    exact ⟨s, hsteps.persists _ _ hs, hrest⟩
  key_of_marker := h.key_of_marker
  marker_of_sentinel := h.marker_of_sentinel

/-- A first start: nothing was there. -/
lemma Seen.first {seen : SeenIdentity} (h : Seen digest d₀ d seen) (hkey : seen.key = none) :
    d₀ .key = none ∧ Coherent digest d₀ := by
  have hmarker : seen.marker = none := by
    by_contra hne
    exact h.key_of_marker hne hkey
  have hsentinel : seen.sentinel = none := by
    by_contra hne
    exact h.marker_of_sentinel hne hmarker
  refine ⟨h.key_none hkey, fun f hf => ?_, fun m hm => ?_, fun s hs => ?_⟩
  · rw [h.key_none hkey] at hf
    cases hf
  · rw [h.marker_none hmarker] at hm
    cases hm
  · rw [h.sentinel_none hsentinel] at hs
    cases hs

/-- What an obtained file says, or why it could not be obtained. -/
def Obtained (digest : Bytes → Bytes) (name : InstallationFile) (d d' : DataDirectory)
    (o : Option (Bytes × ℕ)) : Prop :=
  LoadSteps digest d d' ∧ ((∃ f, d' name = some f ∧ o = some (f.content, f.inode)) ∨
    (o = none ∧ ¬Coherent digest d'))

lemma safe_obtainKey {seen : SeenIdentity} (h : Seen digest d₀ d seen) :
    (loadTerms digest d₀).Safe (fun t o => Obtained digest .key d t o ∧
      ∀ a, o = some a → a.1.length = installationKeyBytes) (obtainKey seen.key) d := by
  unfold obtainKey
  split
  · next hnone =>
    obtain ⟨hkey, hd₀⟩ := h.first (Option.isNone_iff_eq_none.mp hnone)
    intro t c ht
    refine ⟨⟨LoadSteps.refl t, fun _ _ => ⟨hkey, hd₀⟩⟩, ?_⟩
    have ht' : LoadSteps digest d t := ht
    have hcandidate : (c.tokenBytes installationKeyBytes).toList.length = installationKeyBytes := by
      simp
    have hcoherent := ht'.coherent (h.steps.coherent hd₀)
    have hfits : Fits digest t .key (c.tokenBytes installationKeyBytes).toList := hcandidate
    change (loadTerms digest d₀).Safe _
      (if (c.tokenBytes installationKeyBytes).toList.length = installationKeyBytes then
        createOrReadFile .key (c.tokenBytes installationKeyBytes).toList else fail) t
    rw [if_pos hcandidate]
    refine (safe_createOrReadFile hcoherent hfits).imp ?_
    rintro u o ⟨hu, f, hf, rfl⟩
    refine ⟨⟨ht'.trans hu, Or.inl ⟨f, hf, rfl⟩⟩, fun a ha => ?_⟩
    cases ha
    exact (hu.coherent hcoherent).key f hf
  · next hsome =>
    obtain ⟨f, hf⟩ := h.key_some (by simpa using hsome)
    refine (loadTerms_persisting.safe_readExactFile hf).imp ?_
    rintro t o ⟨ht, ⟨rfl, hlen⟩ | ⟨rfl, hlen⟩⟩
    · refine ⟨⟨ht, Or.inl ⟨f, LoadSteps.persists ht _ _ hf, rfl⟩⟩, fun a ha => ?_⟩
      cases ha
      exact hlen
    · refine ⟨⟨ht, Or.inr ⟨rfl, fun hcoherent => hlen ?_⟩⟩, nofun⟩
      exact hcoherent.key f (LoadSteps.persists ht _ _ hf)

lemma Seen.marker_missing {seen : SeenIdentity} (h : Seen digest d₀ d seen) {f : DataFile}
    (hf : d .key = some f) (hlen : f.content.length = installationKeyBytes)
    (hmarker : seen.marker = none) : Coherent digest d := by
  have hsentinel : seen.sentinel = none := by
    by_contra hne
    exact h.marker_of_sentinel hne hmarker
  refine h.origin (Or.inr fun heq => ?_)
  subst heq
  refine ⟨fun f' hf' => ?_, fun m hm => ?_, fun s hs => ?_⟩
  · rw [hf] at hf'
    cases hf'
    exact hlen
  · rw [h.marker_none hmarker] at hm
    cases hm
  · rw [h.sentinel_none hsentinel] at hs
    cases hs

lemma Seen.sentinel_missing {seen : SeenIdentity} (h : Seen digest d₀ d seen) {f m : DataFile}
    (hf : d .key = some f) (hlen : f.content.length = installationKeyBytes)
    (hm : d .marker = some m) (hcontent : m.content = digest f.content)
    (hsentinel : seen.sentinel = none) : Coherent digest d := by
  refine h.origin (Or.inr fun heq => ?_)
  subst heq
  refine ⟨fun f' hf' => ?_, fun m' hm' => ?_, fun s hs => ?_⟩
  · rw [hf] at hf'
    cases hf'
    exact hlen
  · rw [hm] at hm'
    cases hm'
    exact ⟨f, hf, hcontent⟩
  · rw [h.sentinel_none hsentinel] at hs
    cases hs

lemma safe_obtainMarker {seen : SeenIdentity} (h : Seen digest d₀ d seen) {f : DataFile}
    (hf : d .key = some f) (hlen : f.content.length = installationKeyBytes) :
    (loadTerms digest d₀).Safe (fun t o => Obtained digest .marker d t o)
      (obtainFile .marker seen.marker (digest f.content)) d := by
  unfold obtainFile
  split
  · next hnone =>
    have hcoherent := h.marker_missing hf hlen (Option.isNone_iff_eq_none.mp hnone)
    have hfits : Fits digest d .marker (digest f.content) := ⟨f, hf, rfl⟩
    refine (safe_createOrReadFile hcoherent hfits).imp ?_
    rintro t o ⟨ht, m, hm, rfl⟩
    exact ⟨ht, Or.inl ⟨m, hm, rfl⟩⟩
  · next hsome =>
    obtain ⟨m, hm⟩ := h.marker_some (by simpa using hsome)
    refine (loadTerms_persisting.safe_readExactFile hm).imp ?_
    rintro t o ⟨ht, ⟨rfl, -⟩ | ⟨rfl, hne⟩⟩
    · exact ⟨ht, Or.inl ⟨m, LoadSteps.persists ht _ _ hm, rfl⟩⟩
    · refine ⟨ht, Or.inr ⟨rfl, fun hcoherent => hne ?_⟩⟩
      obtain ⟨f', hf', hcontent⟩ := hcoherent.marker m (LoadSteps.persists ht _ _ hm)
      rw [LoadSteps.persists ht _ _ hf] at hf'
      cases hf'
      rw [hcontent]

lemma safe_obtainSentinel {seen : SeenIdentity} (h : Seen digest d₀ d seen) {f m : DataFile}
    (hf : d .key = some f) (hlen : f.content.length = installationKeyBytes)
    (hm : d .marker = some m) (hcontent : m.content = digest f.content) :
    (loadTerms digest d₀).Safe (fun t o => LoadSteps digest d t ∧
      ∃ s, t .sentinel = some s ∧ s.content = sentinelContent ∧ o = some (s.content, s.inode))
      (obtainSentinel seen.sentinel) d := by
  cases hseen : seen.sentinel with
  | none =>
    have hcoherent := h.sentinel_missing hf hlen hm hcontent hseen
    have hfits : Fits digest d .sentinel sentinelContent := ⟨rfl, m, hm⟩
    refine (safe_createOrReadFile hcoherent hfits).imp ?_
    rintro t o ⟨ht, s, hs, rfl⟩
    exact ⟨ht, s, hs, ((ht.coherent hcoherent).sentinel s hs).1, rfl⟩
  | some i =>
    obtain ⟨s, hs, rfl, hsentinel⟩ := h.sentinel_some i hseen
    refine fun t ht => ⟨ht, s, LoadSteps.persists ht _ _ hs, hsentinel, ?_⟩
    rw [hsentinel]

/-- What a load answers: the stored key, or that the directory is not coherent. -/
def LoadAnswer (digest : Bytes → Bytes) (d : DataDirectory) (o : Option Bytes) : Prop :=
  (∀ key, o = some key → ∃ f, d .key = some f ∧ f.content = key) ∧
    (o = none → ¬Coherent digest d)

lemma LoadAnswer.failed (h : ¬Coherent digest d) : LoadAnswer digest d none := ⟨nofun, fun _ => h⟩

lemma safe_verified {name : InstallationFile} {f : DataFile} (hf : d name = some f)
    {next : Unit → FileProgram Bytes}
    (hnext : ∀ t, LoadSteps digest d t →
      (loadTerms digest d₀).Safe (LoadAnswer digest) (next ()) t) :
    (loadTerms digest d₀).Safe (LoadAnswer digest) (verifyIdentityEntry name f.inode >>= next) d := by
  refine (loadTerms_inner (loadTerms_persisting.safe_verifyIdentityEntry hf)).bind ?_
    (fun t ht => nomatch ht.2)
  rintro - t ⟨ht, -⟩
  exact hnext t ht

/-- Every load is safe wherever it starts. -/
theorem safe_loadOrCreateInstallationKey :
    (loadTerms digest d₀).Safe (LoadAnswer digest) (loadOrCreateInstallationKey digest) d₀ := by
  refine (loadTerms_inner safe_inspectIdentity).bind ?_ (fun t ht => .failed (ht.2 rfl))
  intro seen t ht
  have hseen := ht.1 seen rfl
  refine (loadTerms_inner (safe_obtainKey hseen)).bind ?_ ?_
  swap
  · rintro u ⟨⟨-, ⟨_, _, ho⟩ | ⟨-, hu⟩⟩, -⟩
    · cases ho
    · exact .failed hu
  rintro _ u ⟨⟨hu, ⟨f, hf, ho⟩ | ⟨ho, -⟩⟩, hlen⟩
  swap
  · cases ho
  cases ho
  replace hlen : f.content.length = installationKeyBytes := hlen _ rfl
  refine (loadTerms_inner (safe_obtainMarker (hseen.later hu) hf hlen)).bind ?_ ?_
  swap
  · rintro v ⟨-, ⟨_, _, ho⟩ | ⟨-, hv⟩⟩
    · cases ho
    · exact .failed hv
  rintro _ v ⟨hv, ⟨m, hm, ho⟩ | ⟨ho, -⟩⟩
  swap
  · cases ho
  cases ho
  have hfv := hv.persists _ _ hf
  dsimp only
  split
  swap
  · next hne =>
    refine fun w hw => .failed (LoadSteps.incoherent hw fun hcoherent => hne ?_)
    obtain ⟨f', hf', hcontent⟩ := hcoherent.marker m hm
    rw [hfv] at hf'
    cases hf'
    exact hcontent
  next hcontent =>
  refine safe_verified hfv fun w hw => safe_verified (hw.persists _ _ hm) fun x hx => ?_
  have hvx := hw.trans hx
  have hfx := hvx.persists _ _ hfv
  have hmx := hvx.persists _ _ hm
  have hsentinel := loadTerms_inner
    (safe_obtainSentinel ((hseen.later (hu.trans hv)).later hvx) hfx hlen hmx hcontent)
  refine hsentinel.bind ?_ ?_
  swap
  · rintro y ⟨-, _, _, _, ho⟩
    cases ho
  rintro _ y ⟨hy, s, hs, hsentinel, ho⟩
  cases ho
  rw [if_pos hsentinel]
  have hfy := hy.persists _ _ hfx
  have hmy := hy.persists _ _ hmx
  refine safe_verified hfy fun z hz => ?_
  refine safe_verified (hz.persists _ _ hmy) fun z' hz' => ?_
  refine safe_verified ((hz.trans hz').persists _ _ hs) fun e he => ?_
  refine fun e' he' => ⟨fun key hkey => ?_, nofun⟩
  cases hkey
  exact ⟨f, (((hz.trans hz').trans he).trans he').persists _ _ hfy, rfl⟩

end Tendwire
