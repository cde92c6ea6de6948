import EventForge.Proofs.FileTree

/-!
# Doing things again

A tree only grows, so what was done once is done again with the same outcome in every later tree:
directories that were created are found, a file that was saved is saved at the same place, and what
failed fails (`makeDirectories_again`, `save_again_of_none`, `save_again_of_some`). Nothing but the
texts of files can change then (`Rewrites`).
-/

namespace EventForge.FileTree

variable {t t' t'' : FileTree} {l l' : Location} {p dir : Path} {text : String}

/-- Whatever stands in the first tree stands in the second one, where files may have other texts. -/
def Grows (t t' : FileTree) : Prop := ∃ places, Keeps places t t'

theorem Keeps.grows {places : List Location} (h : Keeps places t t') : Grows t t' := ⟨places, h⟩

theorem Grows.refl (t : FileTree) : Grows t t := (Keeps.refl [] t).grows

theorem Grows.trans (h : Grows t t') (h' : Grows t' t'') : Grows t t'' := by
  obtain ⟨places, hkeeps⟩ := h
  obtain ⟨places', hkeeps'⟩ := h'
  exact (hkeeps.trans hkeeps').grows

theorem Grows.directory (h : Grows t t') (hl : t.entry? l = some .directory) :
    t'.entry? l = some .directory := by
  obtain ⟨places, hkeeps⟩ := h
  exact hkeeps.directory l hl

theorem Grows.file (h : Grows t t') (hl : t.entry? l = some (.file text)) :
    ∃ text', t'.entry? l = some (.file text') := by
  obtain ⟨places, hkeeps⟩ := h
  exact hkeeps.replaced l text hl

theorem Grows.locate (h : Grows t t') (hl : t.locate p = .ok l) : t'.locate p = .ok l := by
  obtain ⟨places, hkeeps⟩ := h
  exact hkeeps.locate hl

theorem Grows.contains (h : Grows t t') (hp : t.contains p) : t'.contains p := by
  obtain ⟨places, hkeeps⟩ := h
  obtain ⟨hne, l, hl, hsome⟩ := contains_iff.1 hp
  exact contains_iff.2 ⟨hne, l, hkeeps.locate hl, hkeeps.isSome hsome⟩

theorem grows_makeDirectories (t : FileTree) (p : Path) : Grows t (t.makeDirectories p).1 :=
  (keeps_makeDirectories t p).grows

theorem grows_write (t : FileTree) (p : Path) (text : String) : Grows t (t.write p text).1 := by
  rcases write_cases t p text with ⟨l, -, hdir, -, heq⟩ | ⟨fault, heq⟩
  · rw [heq]
    exact (keeps_set_file hdir text).grows
  · rw [heq]
    exact .refl t

/-! ## Directories -/

theorem entry?_set_directory (t : FileTree) (l : Location) :
    entry? (t.set l .directory) l = some .directory := by
  rw [FileTree.entry?_set, if_pos rfl]
  split <;> rfl

/-- Directories that were created along some steps are found along them ever after, and the step
that could not be made still cannot be made. -/
theorem makeAlong_again {cs : List Component} (h : Grows (t.makeAlong l cs).1 t') :
    t'.makeAlong l cs = (t', (t.makeAlong l cs).2) := by
  induction cs generalizing t l with
  | nil => rfl
  | cons c rest ih =>
    simp only [makeAlong] at h ⊢
    cases hstep : step l c with
    | error fault => rfl
    | ok next =>
      simp only [hstep] at h ⊢
      rcases hentry : t.entry? next with _ | _ | text
      · simp only [hentry] at h ⊢
        have hmade := (keeps_makeAlong (t.set next .directory) next rest).directory next
          (FileTree.entry?_set_directory t next)
        rw [h.directory hmade]
        exact ih h
      · simp only [hentry] at h ⊢
        have hkept := (keeps_makeAlong t next rest).directory next hentry
        rw [h.directory hkept]
        exact ih h
      · simp only [hentry] at h ⊢
        obtain ⟨text', hfile⟩ := h.file hentry
        rw [hfile]

theorem makeDirectories_again (h : Grows (t.makeDirectories p).1 t') :
    t'.makeDirectories p = (t', (t.makeDirectories p).2) := by
  rw [makeDirectories] at h ⊢
  rw [makeDirectories]
  split
  · rfl
  · next hfault =>
    rw [hfault] at h
    exact makeAlong_again h

theorem locateFrom_makeAlong {cs : List Component} (hl : t.entry? l = some .directory)
    (h : (t.makeAlong l cs).2 = none) :
    ∃ l', (t.makeAlong l cs).1.locateFrom l cs = .ok l' ∧
      entry? (t.makeAlong l cs).1 l' = some .directory := by
  induction cs generalizing t l with
  | nil => exact ⟨l, rfl, hl⟩
  | cons c rest ih =>
    -- The tree with the directory one step away leads on from there.
    have hnext : ∀ {t₁ : FileTree} {next : Location}, step l c = .ok next → Keeps [] t t₁ →
        t₁.entry? next = some .directory → (t₁.makeAlong next rest).2 = none →
        ∃ l', (t₁.makeAlong next rest).1.locateFrom l (c :: rest) = .ok l' ∧
          entry? (t₁.makeAlong next rest).1 l' = some .directory := by
      intro t₁ next hstep hkeeps hentry hnone
      obtain ⟨l', hl', hdir⟩ := ih hentry hnone
      have hstart := (keeps_makeAlong t₁ next rest).directory l (hkeeps.directory l hl)
      exact ⟨l', locateFrom_cons_eq_ok.2 ⟨hstart, next, hstep, hl'⟩, hdir⟩
    simp only [makeAlong] at h ⊢
    cases hstep : step l c with
    | error fault => simp [hstep] at h
    | ok next =>
      simp only [hstep] at h ⊢
      rcases hentry : t.entry? next with _ | _ | text
      · simp only [hentry] at h ⊢
        exact hnext hstep (keeps_set_directory hentry) (FileTree.entry?_set_directory t next) h
      · simp only [hentry] at h ⊢
        exact hnext hstep (.refl [] t) hentry h
      · simp [hentry] at h

/-- A directory that could be created is found. -/
theorem locate_makeDirectories (h : (t.makeDirectories dir).2 = none) :
    ∃ l, (t.makeDirectories dir).1.locate dir = .ok l ∧
      entry? (t.makeDirectories dir).1 l = some .directory := by
  rw [makeDirectories] at h ⊢
  split at h
  · cases h
  · next hfault =>
    have hstart : t.entry? [] = some .directory := rfl
    obtain ⟨l, hl, hdir⟩ := locateFrom_makeAlong hstart h
    exact ⟨l, locate_eq_ok.2 ⟨hfault, hl⟩, hdir⟩

/-! ## Files -/

/-- A path whose directory is there leads to the same place, or nowhere, in every later tree. -/
theorem Grows.locate_below (h : Grows t t') (hparent : p.parent? = some dir)
    (hl : t.locate dir = .ok l) (hdir : t.entry? l = some .directory) :
    t'.locate p = t.locate p := by
  obtain ⟨c, hc⟩ := Path.components_of_parent? hparent
  have hlast : ∀ {t₁ : FileTree}, Grows t t₁ → t₁.locateFrom [] p.components =
      (step l c).bind fun next => .ok next := by
    intro t₁ hgrows
    have hfound := (locate_eq_ok.1 (hgrows.locate hl)).2
    rw [hc, locateFrom_append, hfound, Except.bind, FileTree.locateFrom, hgrows.directory hdir]
    rfl
  rw [FileTree.locate, FileTree.locate, hlast h, hlast (.refl t)]

/-- A path without a directory above leads to the same place in every tree. -/
theorem locate_of_parent?_eq_none (h : p.parent? = none) (t t' : FileTree) :
    t'.locate p = t.locate p := by
  rcases Path.components_of_parent?_eq_none h with hc | hc
  · rw [locate, locate, hc]
    rfl
  · rw [locate, locate, hc]
    rfl

/-- Where a file is found, writing it replaces its text. -/
theorem write_found {old : String} (hl : t.locate p = .ok l)
    (hentry : t.entry? l = some (.file old)) (hask : p.asksDirectory = false) (text : String) :
    t.write p text = (t.set l (.file text), none) := by
  simp [write, hl, hentry, hask]

/-- A file that was saved is saved again at the place where it is found. -/
theorem save_again_of_none (h : (t.save p text).2 = none) (hgrows : Grows (t.save p text).1 t') :
    ∃ l old, t'.locate p = .ok l ∧ t'.entry? l = some (.file old) ∧
      t'.save p text = (t'.set l (.file text), none) := by
  obtain ⟨l, hl, hentry, hask, -⟩ := save_eq_none h
  obtain ⟨old, hold⟩ := hgrows.file hentry
  have hplace := hgrows.locate hl
  refine ⟨l, old, hplace, hold, ?_⟩
  rw [save] at h hgrows ⊢
  split
  · rw [write_found hplace hold hask]
    rfl
  · next dir hparent =>
    simp only [hparent] at h hgrows
    split at h
    · cases h
    · next t₁ hmade =>
      simp only [hmade] at hgrows
      have hdirs : Grows (t.makeDirectories dir).1 t' := by
        rw [hmade]
        exact (grows_write t₁ p text).trans hgrows
      rw [makeDirectories_again hdirs, hmade]
      dsimp only
      rw [write_found hplace hold hask]
      rfl

theorem write_again_of_some {fault : FileFault} (hask : p.asksDirectory = false)
    (h : (t.write p text).2 = some fault) (hgrows : Grows t t')
    (hlocate : t'.locate p = t.locate p) : t'.write p text = (t', some fault) := by
  simp only [write] at h ⊢
  rw [hlocate]
  cases hl : t.locate p with
  | error cause =>
    simp only [hl] at h
    simp only [h]
  | ok l =>
    simp only [hl] at h ⊢
    rcases hentry : t.entry? l with _ | _ | old
    · simp [hentry, hask] at h
    · simp only [hentry] at h
      rw [hgrows.directory hentry]
      rw [h]
    · simp [hentry, hask] at h

/-- A file that could not be saved cannot be saved later, for the same reason. -/
theorem save_again_of_some {fault : SaveFault} (hask : p.asksDirectory = false)
    (h : (t.save p text).2 = some fault) (hgrows : Grows (t.save p text).1 t') :
    t'.save p text = (t', some fault) := by
  have hwrite : ∀ {t₁ : FileTree}, (t₁.write p text).2.map (SaveFault.file p) = some fault →
      Grows (t₁.write p text).1 t' → t'.locate p = t₁.locate p →
      ((t'.write p text).1, (t'.write p text).2.map (SaveFault.file p)) = (t', some fault) := by
    intro t₁ hfault hlater hlocate
    obtain ⟨cause, hcause, rfl⟩ := Option.map_eq_some_iff.1 hfault
    rw [write_again_of_some hask hcause ((grows_write t₁ p text).trans hlater) hlocate]
    rfl
  rw [save] at h hgrows ⊢
  split
  · next hparent =>
    simp only [hparent] at h hgrows
    exact hwrite h hgrows (locate_of_parent?_eq_none hparent t t')
  · next dir hparent =>
    simp only [hparent] at h hgrows
    rcases hmade : t.makeDirectories dir with ⟨t₁, _ | cause⟩
    · simp only [hmade] at h hgrows
      have hlater := (grows_write t₁ p text).trans hgrows
      have hdirs : Grows (t.makeDirectories dir).1 t' := by rwa [hmade]
      have hnone : (t.makeDirectories dir).2 = none := by rw [hmade]
      obtain ⟨l, hl, hdir⟩ := locate_makeDirectories hnone
      rw [hmade] at hl hdir
      rw [makeDirectories_again hdirs, hmade]
      exact hwrite h hgrows (hlater.locate_below hparent hl hdir)
    · simp only [hmade] at h hgrows
      have hdirs : Grows (t.makeDirectories dir).1 t' := by rwa [hmade]
      rw [makeDirectories_again hdirs, hmade]
      dsimp only
      rw [h]

/-! ## Trees that differ in the texts of files -/

/-- The second tree has the entries of the first one, in the same order, but files may have other
texts. -/
structure Rewrites (t t' : FileTree) : Prop where
  keys : t'.entries.keys = t.entries.keys
  entry : ∀ l, t'.entries.get? l = t.entries.get? l ∨
    ¬ l.isGround ∧ ∃ old new, t.entries.get? l = some (.file old) ∧
      t'.entries.get? l = some (.file new)

theorem Rewrites.refl (t : FileTree) : Rewrites t t := ⟨rfl, fun _ => .inl rfl⟩

theorem Rewrites.trans (h : Rewrites t t') (h' : Rewrites t' t'') : Rewrites t t'' where
  keys := h'.keys.trans h.keys
  entry l := by
    rcases h.entry l with he | ⟨hg, old, new, hold, hnew⟩
    · rw [← he]
      exact h'.entry l
    · rcases h'.entry l with he' | ⟨-, old', new', hold', hnew'⟩
      · exact .inr ⟨hg, old, new, hold, he'.trans hnew⟩
      · exact .inr ⟨hg, old, new', hold, hnew'⟩

theorem Rewrites.symm (h : Rewrites t t') : Rewrites t' t where
  keys := h.keys.symm
  entry l := by
    rcases h.entry l with he | ⟨hg, old, new, hold, hnew⟩
    · exact .inl he.symm
    · exact .inr ⟨hg, new, old, hnew, hold⟩

theorem rewrites_set {old : String} (h : t.entry? l = some (.file old)) (text : String) :
    Rewrites t (t.set l (.file text)) := by
  have hground : ¬ l.isGround := isGround_of_entry (by rw [h]; simp)
  have hget : t.entries.get? l = some (.file old) := by rwa [FileTree.entry?, if_neg hground] at h
  constructor
  · have hkey : l ∈ t.entries.entries.map Prod.fst := Dict.mem_keys_of_get? hget
    rw [set, Dict.keys, Dict.entries_insert, map_fst_upsert, if_pos hkey]
    rfl
  · intro l'
    rw [set, Dict.get?_insert]
    split
    · next heq =>
      subst heq
      exact .inr ⟨hground, old, text, hget, rfl⟩
    · exact .inl rfl

theorem Rewrites.grows (h : Rewrites t t') : Grows t t' := by
  refine ⟨t.entries.keys, fun l hl => ?_, fun l text hl hnot => ?_, fun l text hl => ?_,
    fun l text hl hnot => ?_⟩
  · rw [FileTree.entry?] at hl ⊢
    split
    · rfl
    · next hground =>
      rw [if_neg hground] at hl
      rcases h.entry l with he | ⟨-, old, new, hold, -⟩
      · rw [he, hl]
      · rw [hold] at hl
        cases hl
  · have hground := isGround_of_entry (by rw [hl]; simp : t.entry? l ≠ some .directory)
    rw [FileTree.entry?, if_neg hground] at hl
    exact absurd (Dict.mem_keys_of_get? hl) hnot
  · have hground := isGround_of_entry (by rw [hl]; simp : t.entry? l ≠ some .directory)
    rw [FileTree.entry?, if_neg hground] at hl ⊢
    rcases h.entry l with he | ⟨-, old, new, -, hnew⟩
    · exact ⟨text, he.trans hl⟩
    · exact ⟨new, hnew⟩
  · have hground := isGround_of_entry (by rw [hl]; simp : t'.entry? l ≠ some .directory)
    rw [FileTree.entry?, if_neg hground] at hl
    rw [← h.keys] at hnot
    exact absurd (Dict.mem_keys_of_get? hl) hnot

theorem Rewrites.locate_iff (h : Rewrites t t') : t'.locate p = .ok l ↔ t.locate p = .ok l :=
  ⟨h.symm.grows.locate, h.grows.locate⟩

theorem Rewrites.contains_iff (h : Rewrites t t') : t'.contains p ↔ t.contains p :=
  ⟨h.symm.grows.contains, h.grows.contains⟩

/-- Files that all have their text give the same tree. -/
theorem Rewrites.eq_of_files (h : Rewrites t t')
    (hfiles : ∀ l text, t.entry? l = some (.file text) → t'.entry? l = some (.file text)) :
    t' = t := by
  have hget : ∀ l, t'.entries.get? l = t.entries.get? l := by
    intro l
    rcases h.entry l with he | ⟨hground, old, new, hold, hnew⟩
    · exact he
    · have hkept := hfiles l old (by rwa [FileTree.entry?, if_neg hground])
      rw [FileTree.entry?, if_neg hground] at hkept
      rw [hkept, hold]
  cases t
  cases t'
  exact congrArg FileTree.mk (Dict.eq_of_get? h.keys hget)

end EventForge.FileTree
