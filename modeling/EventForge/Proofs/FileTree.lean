import EventForge.FileTree
import EventForge.Proofs.Dict
import EventForge.Proofs.Path

/-!
# File trees only grow

Neither creating directories nor writing a file takes anything away: a directory stays one, and the
text of a file changes, and new files stand, only where a file is saved (`FileTree.Keeps`). So a path
that leads somewhere leads there ever after, and a file that was saved can be found again.
-/

namespace EventForge.FileTree

variable {t t' t'' : FileTree} {l l' : Location} {p q : Path}

/-- Directories stay directories, and files stay as they are but at the places listed, where they
may get another text and where new ones may stand. -/
structure Keeps (places : List Location) (t t' : FileTree) : Prop where
  directory : ∀ l, t.entry? l = some .directory → t'.entry? l = some .directory
  file : ∀ l text, t.entry? l = some (.file text) → l ∉ places → t'.entry? l = some (.file text)
  replaced : ∀ l text, t.entry? l = some (.file text) → ∃ text', t'.entry? l = some (.file text')
  earlier : ∀ l text, t'.entry? l = some (.file text) → l ∉ places → t.entry? l = some (.file text)

theorem Keeps.refl (places : List Location) (t : FileTree) : Keeps places t t :=
  ⟨fun _ h => h, fun _ _ h _ => h, fun _ text h => ⟨text, h⟩, fun _ _ h _ => h⟩

theorem Keeps.trans {places places' : List Location} (h : Keeps places t t')
    (h' : Keeps places' t' t'') : Keeps (places ++ places') t t'' where
  directory l hl := h'.directory l (h.directory l hl)
  file l text hl hnot := by
    rw [List.mem_append, not_or] at hnot
    exact h'.file l text (h.file l text hl hnot.1) hnot.2
  replaced l text hl := by
    obtain ⟨text', hl'⟩ := h.replaced l text hl
    exact h'.replaced l text' hl'
  earlier l text hl hnot := by
    rw [List.mem_append, not_or] at hnot
    exact h.earlier l text (h'.earlier l text hl hnot.2) hnot.1

/-- Nothing that stands somewhere goes away. -/
theorem Keeps.isSome {places : List Location} (h : Keeps places t t') (hl : (t.entry? l).isSome) :
    (t'.entry? l).isSome := by
  obtain ⟨e, he⟩ := Option.isSome_iff_exists.1 hl
  cases e with
  | directory => rw [h.directory l he]; rfl
  | file text =>
    obtain ⟨text', hl'⟩ := h.replaced l text he
    rw [hl']
    rfl

theorem entry?_set (t : FileTree) (l l' : Location) (e : FileEntry) :
    entry? (t.set l e) l' =
      if l'.isGround then some .directory else if l = l' then some e else t.entry? l' := by
  by_cases hg : l'.isGround
  · simp [hg, entry?]
  · simp only [hg, entry?, set, Dict.get?_insert]
    rfl

theorem isGround_of_entry (h : t.entry? l ≠ some .directory) : ¬ l.isGround := by
  intro hg
  simp [hg, entry?] at h

/-- Setting a directory where nothing stands leaves all files as they are. -/
theorem keeps_set_directory (h : t.entry? l = none) : Keeps [] t (t.set l .directory) := by
  have hne : ∀ l' e, t.entry? l' = some e → l ≠ l' := by
    rintro l' e he rfl
    rw [h] at he
    cases he
  have hsame : ∀ l' e, t.entry? l' = some e → entry? (t.set l .directory) l' = some e := by
    intro l' e he
    rw [entry?_set]
    split
    · next hg => rw [FileTree.entry?, if_pos hg] at he; exact he
    · rw [if_neg (hne l' e he), he]
  refine ⟨fun l' hl' => hsame l' _ hl', fun l' text hl' _ => hsame l' _ hl',
    fun l' text hl' => ⟨text, hsame l' _ hl'⟩, fun l' text hl' _ => ?_⟩
  rw [entry?_set] at hl'
  split at hl'
  · cases hl'
  · split at hl'
    · cases hl'
    · exact hl'

/-- Setting a file where no directory stands changes nothing but its text. -/
theorem keeps_set_file (h : t.entry? l ≠ some .directory) (text : String) :
    Keeps [l] t (t.set l (.file text)) := by
  have hsame : ∀ l' e, l ≠ l' → t.entry? l' = some e →
      entry? (t.set l (.file text)) l' = some e := by
    intro l' e hne he
    rw [entry?_set]
    split
    · next hg => rw [FileTree.entry?, if_pos hg] at he; exact he
    · exact he
  refine ⟨fun l' hl' => hsame l' _ ?_ hl', fun l' text' hl' hnot => hsame l' _ ?_ hl',
    fun l' text' hl' => ?_, fun l' text' hl' hnot => ?_⟩
  · rintro rfl
    exact h hl'
  · rintro rfl
    exact hnot (List.mem_singleton_self _)
  · by_cases hne : l = l'
    · subst hne
      exact ⟨text, by rw [entry?_set, if_neg (isGround_of_entry h), if_pos rfl]⟩
    · exact ⟨text', hsame l' _ hne hl'⟩
  · have hne : l ≠ l' := fun heq => hnot (List.mem_singleton.2 heq.symm)
    rw [entry?_set, if_neg hne] at hl'
    split at hl'
    · cases hl'
    · exact hl'

theorem keeps_makeAlong (t : FileTree) (l : Location) (cs : List Component) :
    Keeps [] t (t.makeAlong l cs).1 := by
  induction cs generalizing t l with
  | nil => exact .refl [] t
  | cons c rest ih =>
    rw [makeAlong]
    split
    · exact .refl [] t
    · next next hnext =>
      split
      · exact ih t next
      · exact .refl [] t
      · next hnone => exact (keeps_set_directory hnone).trans (ih _ next)

theorem keeps_makeDirectories (t : FileTree) (p : Path) : Keeps [] t (t.makeDirectories p).1 := by
  rw [makeDirectories]
  split
  · exact .refl [] t
  · exact keeps_makeAlong t [] p.components

/-! ## Where paths lead -/

/-- From a directory steps lead on to where the rest leads from the place one step away. -/
theorem locateFrom_cons_eq_ok {c : Component} {rest : List Component} :
    t.locateFrom l (c :: rest) = .ok l' ↔ t.entry? l = some .directory ∧
      ∃ next, step l c = .ok next ∧ t.locateFrom next rest = .ok l' := by
  rw [locateFrom]
  rcases t.entry? l with _ | _ | text
  · simp
  · cases step l c <;> simp [Except.bind]
  · simp

theorem step_name_eq_ok {n : String} :
    step l (.name n) = .ok l' ↔ n.utf8ByteSize ≤ nameLimit ∧ l' = l ++ [n] := by
  rw [step]
  split <;> simp_all [eq_comm]

/-- Steps lead to where the later ones lead from where the first ones lead. -/
theorem locateFrom_append (t : FileTree) (l : Location) (cs ds : List Component) :
    t.locateFrom l (cs ++ ds) = (t.locateFrom l cs).bind fun mid => t.locateFrom mid ds := by
  induction cs generalizing l with
  | nil => rfl
  | cons c rest ih =>
    rw [List.cons_append, locateFrom, locateFrom]
    rcases t.entry? l with _ | _ | text
    · rfl
    · cases hstep : step l c with
      | error fault => rfl
      | ok next => exact ih next
    · rfl

theorem locateFrom_append_eq_ok {cs ds : List Component} :
    t.locateFrom l (cs ++ ds) = .ok l' ↔
      ∃ mid, t.locateFrom l cs = .ok mid ∧ t.locateFrom mid ds = .ok l' := by
  rw [locateFrom_append]
  cases t.locateFrom l cs <;> simp [Except.bind]

/-- Names lead to the place that goes on with them. -/
theorem locateFrom_names {names : List String} (h : t.locateFrom l (names.map .name) = .ok l') :
    l' = l ++ names := by
  induction names generalizing l with
  | nil => rw [List.append_nil]; exact (Except.ok.inj h).symm
  | cons n names ih =>
    obtain ⟨-, next, hstep, hrest⟩ := locateFrom_cons_eq_ok.1 h
    obtain ⟨-, rfl⟩ := step_name_eq_ok.1 hstep
    rw [ih hrest, List.append_assoc, List.singleton_append]

/-- Steps start at a directory, or stay where they start. -/
theorem entry?_of_locateFrom {cs : List Component} (h : t.locateFrom l cs = .ok l') :
    t.entry? l = some .directory ∨ l = l' := by
  cases cs with
  | nil => exact .inr (Except.ok.inj h)
  | cons c rest => exact .inl (locateFrom_cons_eq_ok.1 h).1

theorem locate_eq_ok :
    t.locate p = .ok l ↔ pathFault? p = none ∧ t.locateFrom [] p.components = .ok l := by
  rw [locate]
  cases pathFault? p <;> simp

theorem pathFault?_of_locate (h : t.locate p = .ok l) : pathFault? p = none :=
  (locate_eq_ok.1 h).1

/-- A place that steps lead to is where they lead in a tree that grew. -/
theorem Keeps.locateFrom {places : List Location} (h : Keeps places t t') {cs : List Component}
    (hl : t.locateFrom l cs = .ok l') : t'.locateFrom l cs = .ok l' := by
  induction cs generalizing l with
  | nil => exact hl
  | cons c rest ih =>
    obtain ⟨hdir, next, hstep, hrest⟩ := locateFrom_cons_eq_ok.1 hl
    exact locateFrom_cons_eq_ok.2 ⟨h.directory l hdir, next, hstep, ih hrest⟩

theorem Keeps.locate {places : List Location} (h : Keeps places t t')
    (hl : t.locate p = .ok l) : t'.locate p = .ok l := by
  obtain ⟨hfault, hfrom⟩ := locate_eq_ok.1 hl
  exact locate_eq_ok.2 ⟨hfault, h.locateFrom hfrom⟩

/-- A path that goes on from another one can be looked at only if that one can. -/
theorem pathFault?_of_starts (h : p.Starts q) (hq : pathFault? q = none) : pathFault? p = none := by
  obtain ⟨rest, hrest⟩ := h.text
  have htext : q.text = p.text ++ String.ofList rest := by
    rw [← String.toList_inj, String.toList_append, String.toList_ofList, hrest]
  rw [pathFault?, htext, String.utf8ByteSize_append, String.toList_append] at hq
  rw [pathFault?]
  split at hq
  · cases hq
  · next hnull =>
    split at hq
    · cases hq
    · next hlong =>
      have hnull' : ¬ p.text.toList.contains '\x00' := by
        intro hc
        refine hnull (List.contains_iff_mem.2 ?_)
        exact List.mem_append_left _ (List.contains_iff_mem.1 hc)
      rw [if_neg hnull', if_neg (by omega)]

theorem contains_iff :
    t.contains p ↔ p.text ≠ "" ∧ ∃ l, t.locate p = .ok l ∧ (t.entry? l).isSome := by
  rw [contains, decide_eq_true_eq, lookup?]
  cases t.locate p with
  | error fault => simp
  | ok l => simp

/-- When something stands where a path leads, something stands where the path starts. -/
theorem contains_of_starts {root : Path} (hroot : root.text ≠ "") (hstarts : root.Starts q)
    (hq : pathFault? q = none) (hcomponents : p.components = q.components)
    (hp : t.locate p = .ok l) (hl : (t.entry? l).isSome) : t.contains root := by
  obtain ⟨rest, hrest⟩ := hstarts.components
  have hfrom := (locate_eq_ok.1 hp).2
  rw [hcomponents, ← hrest] at hfrom
  obtain ⟨mid, hmid, hafter⟩ := locateFrom_append_eq_ok.1 hfrom
  refine contains_iff.2
    ⟨hroot, mid, locate_eq_ok.2 ⟨pathFault?_of_starts hstarts hq, hmid⟩, ?_⟩
  rcases entry?_of_locateFrom hafter with hdir | rfl
  · rw [hdir]
    rfl
  · exact hl

/-- Joining adds the steps of the second path behind some that lead where the first one leads. -/
theorem exists_front (p : Path) (hq : ¬ q.isAbsolute) :
    ∃ front, (p.join q).components = front ++ q.steps ∧
      ∀ t : FileTree, t.locateFrom [] front = t.locateFrom [] p.components := by
  -- Nothing stands in front of a path joined to no text, so its leading dot is a component.
  by_cases hp : p.text.toList = []
  · have hnil : p.components = [] := by
      rw [Path.ext (q := ⟨""⟩) hp]
      decide
    rw [Path.join_of_empty hp, hnil]
    rcases (Path.components_relative hq).2 with heq | heq
    · exact ⟨[], heq, fun _ => rfl⟩
    · exact ⟨[.here], heq, fun _ => rfl⟩
  · exact ⟨p.components, Path.components_join hp hq, fun _ => rfl⟩

/-- A joined path leads where the second one leads from where the first one leads. -/
theorem locate_join_eq_ok (hq : ¬ q.isAbsolute) :
    t.locate (p.join q) = .ok l ↔ pathFault? (p.join q) = none ∧
      ∃ base, t.locate p = .ok base ∧ t.locateFrom base q.steps = .ok l := by
  obtain ⟨front, hcomponents, hfront⟩ := exists_front p hq
  rw [locate_eq_ok, hcomponents, locateFrom_append_eq_ok, hfront]
  refine and_congr_right fun hfault => exists_congr fun base => ?_
  rw [locate_eq_ok, pathFault?_of_starts (Path.starts_join p hq) hfault]
  simp

/-- A path that stays below its start leads to a place below the one that the start leads to. -/
theorem locate_join_contained (hq : q.Contained) (h : t.locate (p.join q) = .ok l) :
    ∃ base names, t.locate p = .ok base ∧ q.steps = List.map .name names ∧ l = base ++ names := by
  obtain ⟨-, base, hbase, hfrom⟩ := (locate_join_eq_ok hq.1).1 h
  obtain ⟨names, hnames⟩ := hq.exists_names
  rw [hnames] at hfrom
  exact ⟨base, names, hbase, hnames, locateFrom_names hfrom⟩

/-! ## Saving files -/

/-- A file is written at the place of its path, which is no directory, or nothing changes. -/
theorem write_cases (t : FileTree) (p : Path) (text : String) :
    (∃ l, t.locate p = .ok l ∧ t.entry? l ≠ some .directory ∧ p.asksDirectory = false ∧
      t.write p text = (t.set l (.file text), none)) ∨
    ∃ fault, t.write p text = (t, some fault) := by
  cases hl : t.locate p with
  | error fault => exact .inr ⟨fault, by simp only [write, hl]⟩
  | ok l =>
    rcases hentry : t.entry? l with _ | _ | old
    · cases hask : p.asksDirectory with
      | true => exact .inr ⟨.isDirectory, by simp [write, hl, hentry, hask]⟩
      | false => exact .inl ⟨l, rfl, hentry ▸ nofun, rfl, by simp [write, hl, hentry, hask]⟩
    · exact .inr ⟨if p.text = "" then .notFound else .isDirectory, by simp [write, hl, hentry]⟩
    · cases hask : p.asksDirectory with
      | true => exact .inr ⟨.notDirectory, by simp [write, hl, hentry, hask]⟩
      | false => exact .inl ⟨l, rfl, hentry ▸ nofun, rfl, by simp [write, hl, hentry, hask]⟩

/-- How saving a file ends: it is written where no directory stands, or nothing but directories is
created. -/
inductive SaveOutcome (t : FileTree) (p : Path) (text : String) :
    FileTree × Option SaveFault → Prop
  | written {t₁ l} (hkeeps : Keeps [] t t₁) (hl : t₁.locate p = .ok l)
      (hdir : t₁.entry? l ≠ some .directory) (hask : p.asksDirectory = false) :
      SaveOutcome t p text (t₁.set l (.file text), none)
  | failed {t₁ fault} (hkeeps : Keeps [] t t₁) : SaveOutcome t p text (t₁, some fault)

theorem saveOutcome_write {t₁ : FileTree} (hkeeps : Keeps [] t t₁) (text : String) :
    SaveOutcome t p text ((t₁.write p text).1, (t₁.write p text).2.map (.file p)) := by
  rcases write_cases t₁ p text with ⟨l, hl, hdir, hask, heq⟩ | ⟨fault, heq⟩
  · rw [heq]
    exact .written hkeeps hl hdir hask
  · rw [heq]
    exact .failed hkeeps

theorem saveOutcome_save (t : FileTree) (p : Path) (text : String) :
    SaveOutcome t p text (t.save p text) := by
  rw [save]
  split
  · exact saveOutcome_write (.refl [] t) text
  · next dir _ =>
    have hkeeps := keeps_makeDirectories t dir
    split
    · next t₁ cause hmade =>
      rw [hmade] at hkeeps
      exact .failed hkeeps
    · next t₁ hmade =>
      rw [hmade] at hkeeps
      exact saveOutcome_write hkeeps text

/-- A file that is saved stands at the place of its path, and nothing else loses its text. -/
theorem save_eq_none {text : String} (h : (t.save p text).2 = none) :
    ∃ l, (t.save p text).1.locate p = .ok l ∧ entry? (t.save p text).1 l = some (.file text) ∧
      p.asksDirectory = false ∧ Keeps [l] t (t.save p text).1 := by
  have hsave := saveOutcome_save t p text
  generalize t.save p text = result at h hsave
  cases hsave with
  | written hkeeps hl hdir hask =>
    have hset := keeps_set_file hdir text
    refine ⟨_, hset.locate hl, ?_, hask, hkeeps.trans hset⟩
    rw [entry?_set, if_neg (isGround_of_entry hdir), if_pos rfl]
  | failed hkeeps => cases h

/-- A file that is not saved changes no text. -/
theorem keeps_save_ne_none {text : String} (h : (t.save p text).2 ≠ none) :
    Keeps [] t (t.save p text).1 := by
  have hsave := saveOutcome_save t p text
  generalize t.save p text = result at h hsave
  cases hsave with
  | written hkeeps hl hdir hask => exact absurd rfl h
  | failed hkeeps => exact hkeeps

end EventForge.FileTree
